import NoteClock.RuleSet
import NoteClock.Proofs.Spelling.Rule
import NoteClock.Proofs.Spelling.Text
import NoteClock.Proofs.Timeline.Firing

/-!
What compiles can be polled. The commands of a rule text have notes, no period of theirs is zero, and
none of them has fired yet.
-/

namespace NoteClock

structure Command.Fresh (command : Command) : Prop where
  reachable : command.Reachable
  cursor : command.cursor = 0

theorem Command.Fresh.sound {command : Command} (fresh : command.Fresh) : command.Sound :=
  fresh.reachable.sound

namespace Rule

theorem fresh_of_compileLine {line : List Char} {command : Command}
    (compiled : compileLine line = .ok command) : command.Fresh := by
  obtain ⟨clauses, parsed, lowered⟩ := bind_eq_ok_iff.mp compiled
  obtain ⟨spelling, _, rfl⟩ := Clauses.parse_eq_ok_iff.mp parsed
  obtain ⟨hasPeriod, meaning⟩ := Spelling.command_clausesOf_iff.mp lowered
  refine ⟨?_, meaning.cursor⟩
  cases trigger : spelling.trigger with
  | once =>
      rw [← (Spelling.means_once_iff trigger).mp meaning]
      exact Command.Reachable.once _ spelling.nonempty
  | every =>
      rw [← (Spelling.means_every_iff trigger).mp meaning]
      exact Command.Reachable.every _ (Nat.pos_of_ne_zero (hasPeriod trigger)) spelling.nonempty

theorem exists_line_of_compile {text : List Char} {commands : List Command}
    (compiled : compile text = .ok commands) :
    ∀ command ∈ commands, ∃ line, compileLine line = .ok command := by
  rw [compile_eq_ok_iff] at compiled
  generalize lines text = texts at compiled
  induction compiled with
  | nil => simp
  | cons lineCompiled _ ih => exact List.forall_mem_cons.mpr ⟨⟨_, lineCompiled⟩, ih⟩

theorem fresh_of_compile {text : List Char} {commands : List Command}
    (compiled : compile text = .ok commands) :
    ∀ command ∈ commands, command.Fresh := by
  intro command member
  obtain ⟨line, lineCompiled⟩ := exists_line_of_compile compiled command member
  exact fresh_of_compileLine lineCompiled

end Rule

namespace RuleSet

variable {text : List Char} {spacing : Nat} {rules : RuleSet}
  (compiled : ofText text spacing = .ok rules)

include compiled

theorem spacing_of_ofText : rules.spacing = spacing := by
  obtain ⟨commands, _, same⟩ := bind_eq_ok_iff.mp compiled
  obtain rfl := Except.ok.inj same
  rfl

theorem fresh_of_ofText : ∀ command ∈ rules.commands, command.Fresh := by
  obtain ⟨commands, textCompiled, same⟩ := bind_eq_ok_iff.mp compiled
  obtain rfl := Except.ok.inj same
  exact Rule.fresh_of_compile textCompiled

end RuleSet

end NoteClock
