import NoteClock.Time.Timestamp

/-!
Options of the command line, and the values that their texts stand for. Each option has a reader of its
own, and a text that its reader refuses is a misuse wherever it stands.
-/

namespace NoteClock.CommandLine

inductive OptionName where
  | settings
  | delay
  | tick
  | length
  | sampleRate
  deriving DecidableEq, Repr

namespace OptionName

def long : OptionName → String
  | settings => "config"
  | delay => "delay"
  | tick => "tick"
  | length => "length"
  | sampleRate => "sample-rate"

def short : OptionName → Char
  | settings => 'c'
  | delay => 'd'
  | tick => 't'
  | length => 'l'
  | sampleRate => 's'

end OptionName

inductive OptionValue where
  | settings (path : String)
  | delay (duration : Nat)
  | tick (duration : Nat)
  | length (duration : Nat)
  | sampleRate (rate : Nat)
  deriving DecidableEq, Repr

def maxDuration : Nat := 18446744073709551615

def maxRate : Nat := 4294967295

def readPath (text : String) : Option String := if text = "" then none else some text

def readNumber (limit : Nat) (text : String) : Option Nat :=
  let digits := match text.toList with
    | '+' :: rest => rest
    | chars => chars
  if digits ≠ [] && digits.all Char.isDigit && Nat.ofDigitChars 10 digits 0 ≤ limit then
    some (Nat.ofDigitChars 10 digits 0)
  else none

def readSigned (limit : Nat) (text : String) : Option Nat :=
  match text.toList with
  | '-' :: digits => readNumber 0 (String.ofList ('+' :: digits))
  | _ => readNumber limit text

def readLength (text : String) : Option Nat := (Timestamp.parse text.toList).toOption

namespace OptionValue

def name : OptionValue → OptionName
  | settings _ => .settings
  | delay _ => .delay
  | tick _ => .tick
  | length _ => .length
  | sampleRate _ => .sampleRate

def read (name : OptionName) (text : String) : Option OptionValue :=
  match name with
  | .settings => (readPath text).map settings
  | .delay => (readNumber maxDuration text).map delay
  | .tick => (readNumber maxDuration text).map tick
  | .length => (readLength text).map length
  | .sampleRate => (readSigned maxRate text).map sampleRate

def settings? : OptionValue → Option String
  | settings path => some path
  | _ => none

def delay? : OptionValue → Option Nat
  | delay duration => some duration
  | _ => none

def tick? : OptionValue → Option Nat
  | tick duration => some duration
  | _ => none

def length? : OptionValue → Option Nat
  | length duration => some duration
  | _ => none

def sampleRate? : OptionValue → Option Nat
  | sampleRate rate => some rate
  | _ => none

end OptionValue

end NoteClock.CommandLine
