import NoteClock.Proofs.Timeline.ClockRun
import NoteClock.Proofs.Timeline.RuleSetPolls

/-!
Live play. A rule set is polled with each window that a clock returns; wherever the clock is started
and stopped, every command fires as its trigger asks, once and in the right window.
-/

namespace NoteClock

namespace Command

/-- What a trigger asks for in contiguous windows from zero. A single firing falls into the window
that contains its instant, the others into those that reach a multiple of the period. -/
def OnSchedule (command : Command) (spacing : Nat) (windows : List Window) : Prop :=
  match command.trigger with
  | .once instant =>
      (instant < endOf 0 windows →
        ∃ window, window.contains instant = true ∧ command.firedIn spacing windows = [window]) ∧
      (endOf 0 windows ≤ instant → command.firedIn spacing windows = [])
  | .every period _ =>
      (∀ count, 1 ≤ count → count * period ≤ endOf 0 windows →
        ∃ window ∈ command.firedIn spacing windows,
          windows.filter (·.reaches (count * period)) = [window]) ∧
      (∀ window ∈ command.firedIn spacing windows, window.Crosses period) ∧
      ((∀ window ∈ windows, window.width ≤ period) →
        (command.firedIn spacing windows).length = endOf 0 windows / period)

theorem firedIn_once {command : Command} {instant : Nat} (sound : command.Sound)
    (trigger : command.trigger = .once instant) (spacing : Nat) (windows : List Window) :
    command.firedIn spacing windows = windows.filter (·.contains instant) := by
  rw [sound.firedIn_eq, filter_fires_once trigger]

theorem mem_firedIn_every {command : Command} {period start : Nat} {mode : PlayMode}
    (sound : command.Sound) (trigger : command.trigger = .every period mode) (spacing : Nat)
    {windows : List Window} (contiguous : Contiguous start windows) {window : Window} :
    window ∈ command.firedIn spacing windows ↔ window ∈ windows ∧ window.Crosses period := by
  have positive := sound.period_pos period mode trigger
  rw [sound.firedIn_eq, List.mem_filter]
  apply and_congr_right
  intro member
  exact fires_every_iff_crosses trigger positive (contiguous.bounds window member).2.1

theorem exists_firedIn_every {command : Command} {period : Nat} {mode : PlayMode}
    (sound : command.Sound) (trigger : command.trigger = .every period mode) (spacing : Nat)
    {windows : List Window} (contiguous : Contiguous 0 windows) {count : Nat} (one : 1 ≤ count)
    (le : count * period ≤ endOf 0 windows) :
    ∃ window ∈ command.firedIn spacing windows,
      windows.filter (·.reaches (count * period)) = [window] := by
  have positive := sound.period_pos period mode trigger
  obtain ⟨before, multiple⟩ := Nat.exists_eq_add_one.mpr (Nat.mul_pos one positive)
  rw [multiple] at le
  obtain ⟨window, holds, only⟩ := contiguous.exists_filter_contains (Nat.zero_le before) le
  have member : window ∈ windows := List.singleton_sublist.mp (only ▸ List.filter_sublist)
  have reached : window.reaches (count * period) = true := by
    rw [multiple, Window.reaches_succ, holds]
  refine ⟨window, (mem_firedIn_every sound trigger spacing contiguous).mpr ?_, ?_⟩
  · exact ⟨member, count, one, reached⟩
  · simpa only [multiple, Window.reaches_succ] using only

theorem Sound.onSchedule {command : Command} (sound : command.Sound) (spacing : Nat)
    {windows : List Window} (contiguous : Contiguous 0 windows) :
    command.OnSchedule spacing windows := by
  rw [OnSchedule]
  cases trigger : command.trigger with
  | once instant =>
      have fired := firedIn_once sound trigger spacing windows
      refine ⟨?_, ?_⟩
      · intro lt
        rw [fired]
        exact contiguous.exists_filter_contains (Nat.zero_le instant) lt
      · intro le
        rw [fired]
        exact contiguous.filter_contains_of_le le
  | every period mode =>
      have positive := sound.period_pos period mode trigger
      refine ⟨?_, ?_, ?_⟩
      · intro count one le
        exact exists_firedIn_every sound trigger spacing contiguous one le
      · intro window fired
        exact ((mem_firedIn_every sound trigger spacing contiguous).mp fired).2
      · intro narrow
        have counted := (length_filter_fires trigger positive contiguous).2 narrow
        rw [sound.firedIn_eq, ← counted, Nat.zero_div, Nat.zero_add]

end Command

namespace RuleSet

/-- However a clock is started and stopped, a rule set polled with its windows answers each with the
firings of its commands, and every command fires on schedule. -/
theorem pauses_neither_skip_nor_replay (rules : RuleSet)
    (reachable : ∀ command ∈ rules.commands, command.Reachable) {calls : List Clock.Call}
    (inOrder : Clock.InOrder calls) (noReset : .reset ∉ calls) :
    (∀ index : Nat, (rules.pollAll (Clock.new.windows calls)).1[index]? =
      (Clock.new.windows calls)[index]?.map fun window =>
        (window, rules.commands.flatMap fun command =>
          ((command.answers rules.spacing (Clock.new.windows calls))[index]?).getD [])) ∧
    ∀ command ∈ rules.commands, command.OnSchedule rules.spacing (Clock.new.windows calls) := by
  have fresh : Clock.new.Consistent 0 := Clock.consistent_of_fresh 0 rfl rfl
  have contiguous : Contiguous 0 (Clock.new.windows calls) :=
    (fresh.windows (Clock.inOrderFrom_zero inOrder) noReset).1
  refine ⟨rules.pollAll_getElem? _, ?_⟩
  intro command member
  exact (reachable command member).sound.onSchedule rules.spacing contiguous

theorem pauses_neither_skip_nor_replay_at_boundaries :
    let single := Command.once 3 [⟨.G, .natural⟩]
    let repeated := Command.every 2 [⟨.C, .natural⟩, ⟨.E, .natural⟩] .scale
    let calls : List Clock.Call := [.stop 1, .start, .tick 10, .tick 13, .stop 14, .tick 15,
      .start, .start, .tick 20, .stop 20, .stop 22, .start, .tick 25, .tick 27]
    ((∀ command ∈ [single, repeated], command.Reachable) ∧ Clock.InOrder calls ∧
        .reset ∉ calls) ∧
      Clock.new.windows calls = [⟨0, 0⟩, ⟨0, 3⟩, ⟨3, 4⟩, ⟨4, 4⟩, ⟨4, 6⟩] ∧
      single.firedIn 250 (Clock.new.windows calls) = [⟨3, 4⟩] ∧
      repeated.firedIn 250 (Clock.new.windows calls) = [⟨0, 3⟩, ⟨3, 4⟩, ⟨4, 6⟩] ∧
      single.OnSchedule 250 (Clock.new.windows calls) ∧
      repeated.OnSchedule 250 (Clock.new.windows calls) := by
  intro single repeated calls
  have reachable : ∀ command ∈ [single, repeated], command.Reachable := by
    intro command member
    rcases List.mem_pair.mp member with rfl | rfl
    · exact Command.Reachable.once 3 (by decide)
    · exact Command.Reachable.every .scale (by decide) (by decide)
  have inOrder : Clock.InOrder calls := by
    unfold Clock.InOrder
    decide
  have noReset : Clock.Call.reset ∉ calls := by decide
  have result := (pauses_neither_skip_nor_replay ⟨[single, repeated], 250⟩ reachable inOrder
    noReset).2
  exact ⟨⟨reachable, inOrder, noReset⟩, by decide, by decide, by decide, result single (by simp),
    result repeated (by simp)⟩

end RuleSet

end NoteClock
