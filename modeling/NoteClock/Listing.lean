import NoteClock.RuleSet
import NoteClock.Time.Millis

/-! Listings of rule sets: a line with their number, and a line for each command. -/

namespace NoteClock.Listing

def describeMode (command : Command) : List Char :=
  match command.trigger with
  | .once _ => "once".toList
  | .every _ .scale => "scale".toList
  | .every _ .arpeggio => "arpeggio".toList
  | .every _ (.stack limit) => "repeat up to ".toList ++ Nat.toDigits 10 limit

def describeTrigger : Trigger → List Char
  | .once _ => "at ".toList
  | .every _ _ => "every ".toList

def describeNotes (notes : List Note) : List Char := [','].intercalate (notes.map Note.spelling)

def describeCommand (command : Command) : List Char :=
  describeTrigger command.trigger ++ Elapsed.face command.trigger.millis ++
    " play ".toList ++ describeNotes command.notes ++ " (".toList ++ describeMode command ++ [')']

def line (entry : Command × Nat) : List Char :=
  "  ".toList ++ Nat.toDigits 10 entry.2 ++ ": ".toList ++ describeCommand entry.1

def lines (commands : List Command) : List (List Char) :=
  (Nat.toDigits 10 commands.length ++ " rule(s) OK".toList) :: commands.zipIdx.map line

def text (commands : List Command) : String :=
  String.ofList ((lines commands).flatMap (· ++ ['\n']))

end NoteClock.Listing
