import NoteClock.Proofs.Timeline.Progression
import NoteClock.Proofs.Timeline.RuleSetPolls

/-!
Commands side by side. Whatever windows a rule set is polled with, and whenever it is reset, each of its
commands answers and moves on as it would alone.
-/

namespace NoteClock

namespace Command

theorem useAll_frame (command : Command) (uses : List Use) :
    command.useAll uses = { command with cursor := (command.useAll uses).cursor } := by
  have same := reset_useAll command uses
  simp only [reset, mk.injEq] at same
  obtain ⟨trigger, notes, _⟩ := same
  cases used : command.useAll uses with
  | mk usedTrigger usedNotes cursor =>
      rw [used] at trigger notes
      simp only at trigger notes
      rw [trigger, notes]

theorem poll_frame (command : Command) (window : Window) (spacing : Nat) :
    let after := (command.poll window spacing).2
    (after.cursor ≠ command.cursor → command.fires window = true) ∧
      after = { command with cursor := after.cursor } := by
  intro after
  cases fires : command.fires window with
  | true =>
      have advanced : after = command.advance := by simp only [after, poll_of_fires fires]
      rw [advanced]
      exact ⟨fun _ => rfl, rfl⟩
  | false =>
      have still : after = command := by simp only [after, poll_of_not_fires fires]
      rw [still]
      exact ⟨fun moved => absurd rfl moved, rfl⟩

end Command

namespace RuleSet

inductive Use where
  | poll (window : Window)
  | reset
  deriving DecidableEq, Repr

def Use.alone (spacing : Nat) : Use → Command.Use
  | poll window => .poll window spacing
  | reset => .reset

def use (rules : RuleSet) : Use → RuleSet
  | .poll window => (rules.poll window).2
  | .reset => rules.reset

def useAll (rules : RuleSet) (uses : List Use) : RuleSet := uses.foldl use rules

theorem use_eq (rules : RuleSet) (use : Use) :
    rules.use use =
      { rules with commands := rules.commands.map (·.use (use.alone rules.spacing)) } := by
  cases use with
  | poll window =>
      rw [RuleSet.use, poll_eq]
      rfl
  | reset => rfl

theorem useAll_eq (rules : RuleSet) (uses : List Use) :
    rules.useAll uses =
      { rules with
        commands := rules.commands.map (·.useAll (uses.map (Use.alone rules.spacing))) } := by
  induction uses generalizing rules with
  | nil => simp [useAll, Command.useAll]
  | cons use rest ih =>
      rw [useAll, List.foldl_cons, ← useAll, ih, use_eq]
      simp only [List.map_map]
      rfl

theorem poll_useAll (commands : List Command) (spacing : Nat) (uses : List Use) (window : Window) :
    ((useAll ⟨commands, spacing⟩ uses).poll window).1 = commands.flatMap fun command =>
      ((command.useAll (uses.map (Use.alone spacing))).poll window spacing).1 := by
  simp only [useAll_eq, poll_eq, List.flatMap_map]

/-- After any polls and resets, two lists of commands joined into one rule set answer a poll with what
the first of them answers apart, and then the second, and every single command answers as it would
alone. A poll moves the cursors of commands that fire, and nothing else of a command ever changes. -/
theorem commands_do_not_interfere (former later : List Command) (spacing : Nat) (uses : List Use)
    (window : Window) :
    let joint := useAll ⟨former ++ later, spacing⟩ uses
    let first := useAll ⟨former, spacing⟩ uses
    let second := useAll ⟨later, spacing⟩ uses
    let alone := fun command : Command => command.useAll (uses.map (Use.alone spacing))
    joint = ⟨first.commands ++ second.commands, spacing⟩ ∧
      (joint.poll window).1 = (first.poll window).1 ++ (second.poll window).1 ∧
      joint.commands = (former ++ later).map alone ∧
      (joint.poll window).1 =
        (former ++ later).flatMap (fun command => ((alone command).poll window spacing).1) ∧
      List.Forall₂ (fun before after =>
          (after.cursor ≠ before.cursor → before.fires window = true) ∧
            after = { before with cursor := after.cursor })
        joint.commands (joint.poll window).2.commands ∧
      List.Forall₂ (fun begun current => current = { begun with cursor := current.cursor })
        (former ++ later) joint.commands := by
  intro joint first second alone
  have commands : joint.commands = (former ++ later).map alone := by
    simp only [joint, useAll_eq, alone]
  refine ⟨?_, ?_, commands, poll_useAll _ _ _ _, ?_, ?_⟩
  · simp only [joint, first, second, useAll_eq, List.map_append]
  · simp only [joint, first, second, poll_useAll, List.flatMap_append]
  · rw [poll_eq, List.forall₂_map_right_iff, List.forall₂_same]
    intro command _
    exact command.poll_frame window joint.spacing
  · rw [commands, List.forall₂_map_right_iff, List.forall₂_same]
    intro command _
    exact command.useAll_frame _

end RuleSet

end NoteClock
