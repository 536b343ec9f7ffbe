import NoteClock.RuleSet
import NoteClock.Proofs.Timeline.Firing

/-!
Polls of a rule set. Each command answers as it would alone, and the answers to a window stand in the
order of the commands.
-/

namespace NoteClock

namespace RuleSet

theorem map_commands_eq_self {rules : RuleSet} {change : Command → Command}
    (unchanged : ∀ command ∈ rules.commands, change command = command) :
    { rules with commands := rules.commands.map change } = rules := by
  have same : rules.commands.map change = rules.commands.map id := List.map_congr_left unchanged
  rw [same, List.map_id]

theorem poll_eq (rules : RuleSet) (window : Window) :
    rules.poll window =
      (rules.commands.flatMap fun command => (command.poll window rules.spacing).1,
        { rules with
          commands := rules.commands.map fun command => (command.poll window rules.spacing).2 }) := by
  rw [poll]
  split
  · rename_i empty
    have silent : ∀ command : Command, command.poll window rules.spacing = ([], command) :=
      fun command => Command.poll_of_not_fires (by simp [Command.fires, empty]) rules.spacing
    simp [silent]
  · simp only [List.flatMap_map, List.map_map]
    rfl

theorem pollAll_state (rules : RuleSet) (windows : List Window) :
    (rules.pollAll windows).2 =
      { rules with
        commands := rules.commands.map fun command => command.after rules.spacing windows } := by
  induction windows generalizing rules with
  | nil => simp [pollAll_nil, Command.after]
  | cons window rest ih =>
      rw [pollAll_cons]
      simp only [ih, poll_eq, List.map_map]
      rfl

theorem pollAll_getElem? (rules : RuleSet) (windows : List Window) (index : Nat) :
    (rules.pollAll windows).1[index]? = windows[index]?.map fun window =>
      (window, rules.commands.flatMap fun command =>
        ((command.answers rules.spacing windows)[index]?).getD []) := by
  induction windows generalizing rules index with
  | nil => simp [pollAll_nil]
  | cons window rest ih =>
      rw [pollAll_cons, Array.getElem?_append]
      cases index with
      | zero => simp [poll_eq, Command.answers]
      | succ index =>
          have tail := ih (rules.poll window).2 index
          rw [poll_eq] at tail ⊢
          simpa [Command.answers, List.flatMap_map] using tail

end RuleSet

end NoteClock
