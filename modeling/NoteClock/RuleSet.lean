import NoteClock.Command
import NoteClock.Rule.Text

/-!
Rule sets: the commands of one rule text, polled together. The answers stand in the order of the
commands, and no command sees another.
-/

namespace NoteClock

/-- `spacing` is the time between the steps of an arpeggio or a stack. -/
structure RuleSet where
  commands : List Command
  spacing : Nat
  deriving DecidableEq, Repr

namespace RuleSet

def ofText (text : List Char) (spacing : Nat) : Except Rule.TextError RuleSet := do
  return ⟨← Rule.compile text, spacing⟩

def size (rules : RuleSet) : Nat := rules.commands.length

def isEmpty (rules : RuleSet) : Bool := rules.commands.isEmpty

def poll (rules : RuleSet) (window : Window) : List NoteEvent × RuleSet :=
  if window.isEmpty then ([], rules)
  else
    let answers := rules.commands.map (·.poll window rules.spacing)
    (answers.flatMap (·.1), { rules with commands := answers.map (·.2) })

abbrev Progress := Array (Window × List NoteEvent) × RuleSet

def Progress.poll (progress : Progress) (window : Window) : Progress :=
  let (events, rules) := progress.2.poll window
  (progress.1.push (window, events), rules)

def pollAll (rules : RuleSet) (windows : List Window) : Progress :=
  windows.foldl Progress.poll (#[], rules)

def reset (rules : RuleSet) : RuleSet := { rules with commands := rules.commands.map Command.reset }

theorem foldl_poll (answers : Array (Window × List NoteEvent)) (rules : RuleSet)
    (windows : List Window) :
    windows.foldl Progress.poll (answers, rules) =
      (answers ++ (rules.pollAll windows).1, (rules.pollAll windows).2) := by
  induction windows generalizing answers rules with
  | nil => simp [pollAll]
  | cons window windows ih =>
      simp only [pollAll, List.foldl_cons, Progress.poll]
      rw [ih, ih (#[].push (window, (rules.poll window).1))]
      simp

theorem pollAll_nil (rules : RuleSet) : rules.pollAll [] = (#[], rules) := rfl

theorem pollAll_cons (rules : RuleSet) (window : Window) (windows : List Window) :
    rules.pollAll (window :: windows) =
      (#[(window, (rules.poll window).1)] ++ ((rules.poll window).2.pollAll windows).1,
        ((rules.poll window).2.pollAll windows).2) :=
  foldl_poll #[(window, (rules.poll window).1)] (rules.poll window).2 windows

end RuleSet

end NoteClock
