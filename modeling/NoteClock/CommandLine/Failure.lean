import NoteClock.Settings.Load
import NoteClock.Sound
import NoteClock.Text.Escape

/-!
Why a command line ends without success, and how it says so: in plain words, or as a report that spells
the cause out field by field.
-/

namespace NoteClock.CommandLine

inductive Failure where
  | settings (error : Settings.LoadError)
  | unreadable (fault : FileFault)
  | rules (error : Rule.TextError)
  | mix (error : Mix.Error)
  | unwritable (fault : Files.WriteFault)
  deriving DecidableEq, Repr

namespace Failure

def message : Failure → String
  | settings error => error.message
  | unreadable fault => fault.message
  | rules error => error.message
  | mix error => error.message
  | unwritable (.directory fault) => s!"I/O error: {fault.message}"
  | unwritable (.file fault) => s!"WAV error: {fault.message}"

def faultName : FileFault → String
  | .notFound => "NotFound"
  | .notADirectory => "NotADirectory"
  | .isADirectory => "IsADirectory"
  | .alreadyExists => "AlreadyExists"
  | .nameTooLong => "InvalidFilename"
  | .barred | .denied => "PermissionDenied"
  | .notText => "InvalidData"

def reportFault (fault : FileFault) : String :=
  let fields := [("kind", faultName fault), ("message", Text.quote fault.describe)]
  match fault.code? with
  | some code => Text.record "Os" (("code", toString code) :: fields)
  | none => Text.record "Error" fields

def kindName : Rule.Fault.Kind → String
  | .lexical => "Lex"
  | .grammar => "Grammar"
  | .timestamp => "Timestamp"
  | .noteList => "NoteList"
  | .playMode => "PlayMode"

def reportRules (error : Rule.TextError) : String :=
  Text.record "SyntaxError" [
    ("line", toString error.index),
    ("col", toString error.error.col),
    ("text", Text.quote (String.ofList error.text)),
    ("kind", kindName error.error.fault.kind),
    ("message", Text.quote error.error.message)]

def reportMix : Mix.Error → String
  | .tooLong part millis =>
      Text.record "TooLong" [("what", Text.quote part.describe), ("duration_ms", toString millis)]

def reportSettings : Settings.LoadError → String
  | .unreadable fault => Text.wrapped "Io" (reportFault fault)
  | .malformed => Text.wrapped "Yaml" (Text.quote "malformed settings")
  | .invalid fault => Text.wrapped "Invalid" (Text.quote fault.message)

def report : Failure → String
  | settings error => reportSettings error
  | unreadable fault => reportFault fault
  | rules error => reportRules error
  | mix error => reportMix error
  | unwritable (.directory fault) => Text.wrapped "Io" (reportFault fault)
  | unwritable (.file fault) => Text.wrapped "Wav" (Text.wrapped "IoError" (reportFault fault))

end Failure

inductive Refusal where
  | told (failure : Failure)
  | reported (failure : Failure)
  deriving DecidableEq, Repr

def Refusal.text : Refusal → String
  | told failure => failure.message ++ "\n"
  | reported failure => "Error: " ++ failure.report ++ "\n"

end NoteClock.CommandLine
