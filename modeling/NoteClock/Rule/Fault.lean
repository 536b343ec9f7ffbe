import NoteClock.Note
import NoteClock.Rule.Word
import NoteClock.Text.Escape
import NoteClock.Time.Timestamp

/-! Why a rule line is refused, where, and in which words. -/

namespace NoteClock.Rule

inductive Fault.Kind where
  | lexical
  | grammar
  | timestamp
  | noteList
  | playMode
  deriving DecidableEq, Repr

/-- A single cause. `found` is the word that stands in the wrong place, if the line has not ended. -/
inductive Fault where
  | leadingSpace
  | trailingSpace
  | doubledSpace
  | forbidden (char : Char)
  | blankLine
  | notATrigger (found : List Char)
  | notATimestamp (found : Option (List Char))
  | notPlay (found : Option (List Char))
  | surplus (found : List Char)
  | timestamp (cause : Timestamp.Cause)
  | zeroPeriod
  | notANoteList (found : Option (List Char))
  | trailingComma
  | badNote (item : List Char) (cause : Note.Error)
  | notAMode (found : List Char)
  | countWithoutStack (mode : List Char)
  | zeroCount
  | hugeCount
  deriving DecidableEq, Repr

namespace Fault

def kind : Fault → Kind
  | leadingSpace | trailingSpace | doubledSpace | forbidden _ => .lexical
  | blankLine | notATrigger _ | notATimestamp _ | notPlay _ | surplus _ => .grammar
  | timestamp _ | zeroPeriod => .timestamp
  | notANoteList _ | trailingComma | badNote _ _ => .noteList
  | notAMode _ | countWithoutStack _ | zeroCount | hugeCount => .playMode

def quote : Option (List Char) → String
  | some text => s!"'{String.ofList text}'"
  | none => "end of line"

def message : Fault → String
  | leadingSpace => "leading space"
  | trailingSpace => "trailing space"
  | doubledSpace => "words must be separated by a single space"
  | forbidden char => s!"unexpected character '{Text.escape char}'"
  | blankLine => "blank lines are not allowed"
  | notATrigger found => s!"expected 'at' or 'every', found {quote (some found)}"
  | notATimestamp found => s!"expected timestamp, found {quote found}"
  | notPlay found => s!"expected 'play', found {quote found}"
  | surplus found => s!"unexpected {quote (some found)} at end of rule"
  | timestamp cause => cause.message
  | zeroPeriod => "the period of an 'every' rule must be greater than zero"
  | notANoteList found => s!"expected note list, found {quote found}"
  | trailingComma => "note list ends with a trailing ','"
  | badNote _ .empty => "empty note in note list"
  | badNote item cause => s!"invalid note {quote (some item)}: {cause.message}"
  | notAMode found => s!"expected 'scale', 'arpeggio' or 'repeat', found {quote (some found)}"
  | countWithoutStack mode =>
      s!"a count is only allowed after 'repeat', not {quote (some mode)}"
  | zeroCount => "repeat count must be at least 1"
  | hugeCount => "repeat count is too large"

end Fault

structure LineError where
  fault : Fault
  col : Nat
  deriving DecidableEq, Repr

def LineError.message (error : LineError) : String := error.fault.message

end NoteClock.Rule
