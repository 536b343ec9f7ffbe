import NoteClock.Time.Millis

/-!
Timestamps such as `1h:30m` or `45s:5ds`: up to four segments joined by `:`, each a run of digits and
a unit, no unit twice. A timestamp stands for the sum of its segments in milliseconds, and a refused
one is reported with the text that stands before its first offending segment.
-/

namespace NoteClock.Timestamp

inductive Cause where
  | empty
  | trailingSeparator
  | emptySegment
  | missingValue (segment : List Char)
  | invalidUnit (segment : List Char)
  | duplicateUnit (unit : TimeUnit)
  | tooManySegments
  | overflow
  deriving DecidableEq, Repr

def Cause.message : Cause → String
  | empty => "timestamp is empty"
  | trailingSeparator => "timestamp ends with a trailing ':'"
  | emptySegment => "empty segment in timestamp"
  | missingValue segment => s!"segment '{String.ofList segment}' has no numeric value"
  | invalidUnit segment =>
      s!"segment '{String.ofList segment}' uses an invalid unit (expected h, m, s or ds)"
  | duplicateUnit unit => s!"unit '{String.ofList unit.symbol}' appears more than once"
  | tooManySegments => "timestamp has more than 4 segments"
  | overflow => "timestamp is too large"

structure Error where
  cause : Cause
  before : List Char
  deriving DecidableEq, Repr

def Error.message (error : Error) : String := error.cause.message

def Error.offset (error : Error) : Nat := (String.ofList error.before).utf8ByteSize

def maxSegments : Nat := 4

def parseSegment (segment : List Char) : Except Cause (Nat × TimeUnit) :=
  let digits := segment.takeWhile Char.isDigit
  let symbol := segment.dropWhile Char.isDigit
  if digits = [] then .error (.missingValue segment)
  else
    match TimeUnit.ofSymbol? symbol with
    | none => .error (.invalidUnit segment)
    | some unit =>
        let value := Nat.ofDigitChars 10 digits 0
        if value ≤ maxMillis then .ok (value, unit) else .error .overflow

/-- Adds up segments. `before` is the text in front of them, `seen` holds the units of the segments
in it and `sum` their total. -/
def sumSegments (before : List Char) (seen : List TimeUnit) (sum : Nat) :
    List (List Char) → Except Error Nat
  | [] => .ok sum
  | segment :: rest =>
      if maxSegments ≤ seen.length then .error ⟨.tooManySegments, before⟩
      else if segment = [] then .error ⟨.emptySegment, before⟩
      else
        match parseSegment segment with
        | .error cause => .error ⟨cause, before⟩
        | .ok (value, unit) =>
            if unit ∈ seen then .error ⟨.duplicateUnit unit, before⟩
            else if maxMillis < sum + value * unit.millis then .error ⟨.overflow, before⟩
            else
              sumSegments (before ++ segment ++ [':']) (unit :: seen)
                (sum + value * unit.millis) rest

def parse (token : List Char) : Except Error Nat :=
  if token = [] then .error ⟨.empty, []⟩
  else if token.getLast? = some ':' then .error ⟨.trailingSeparator, token.dropLast⟩
  else sumSegments [] [] 0 (token.splitOn ':')

end NoteClock.Timestamp
