import NoteClock.Files
import NoteClock.Settings

/-!
Settings from files. A file that is not there leaves every setting at its default. One that is named
has to be right, while the one that is looked for by itself is passed over when it is not. What the text
of a file says is left to a decoder.
-/

namespace NoteClock.Settings

/-- The settings that a text writes, if it writes any. They need not be in range. -/
abbrev Decoder := List Char → Option Settings

inductive LoadError where
  | unreadable (fault : FileFault)
  | malformed
  | invalid (fault : Fault)
  deriving DecidableEq, Repr

def LoadError.message : LoadError → String
  | unreadable fault => s!"I/O error: {fault.message}"
  | malformed => "YAML parse error: malformed settings"
  | invalid fault => s!"invalid config: {fault.message}"

def ofBytes (decode : Decoder) (bytes : ByteArray) : Except LoadError Settings :=
  match String.fromUTF8? bytes with
  | none => .error (.unreadable .notText)
  | some text =>
      match decode text.toList with
      | none => .error .malformed
      | some settings => settings.validate.mapError .invalid

def load (decode : Decoder) (read : Files.Reader) (path : String) : Except LoadError Settings :=
  match read path with
  | .error fault => if fault.isPresent then .error (.unreadable fault) else .ok default
  | .ok bytes => ofBytes decode bytes

def loadOrDefault (decode : Decoder) (read : Files.Reader) (path : String) : Settings :=
  match load decode read path with
  | .ok settings => settings
  | .error _ => default

end NoteClock.Settings
