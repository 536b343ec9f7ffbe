import NoteClock.Playback
import NoteClock.Proofs.Timeline.ClockRun
import NoteClock.Proofs.Timeline.Compiled
import NoteClock.Proofs.Timeline.Independence

/-!
Starting over. A rule set that is reset is the one that was compiled, and a clock that is reset is a
new one that runs if it ran before. Nothing of what was done with them shows afterwards.
-/

namespace NoteClock

theorem Clock.reset_eq (clock : Clock) :
    clock.reset = if clock.state = .running then new.start else new := by
  obtain ⟨state, marks, stoppedAt⟩ := clock
  cases state with
  | stopped => rfl
  | running => rfl

theorem Command.Fresh.reset {command : Command} (fresh : command.Fresh) :
    command.reset = command := by
  rw [Command.reset, ← fresh.cursor]

namespace RuleSet

theorem useAll_append (rules : RuleSet) (front back : List Use) :
    rules.useAll (front ++ back) = (rules.useAll front).useAll back := List.foldl_append

theorem reset_useAll (rules : RuleSet) (uses : List Use) :
    (rules.useAll uses).reset = rules.reset := by
  rw [useAll_eq, reset, reset]
  simp only [List.map_map]
  congr 1
  apply List.map_congr_left
  intro command _
  exact command.reset_useAll _

theorem reset_fresh {rules : RuleSet} (fresh : ∀ command ∈ rules.commands, command.Fresh) :
    rules.reset = rules :=
  map_commands_eq_self fun command member => (fresh command member).reset

end RuleSet

namespace Playback

/-- What can be asked of a clock and a rule set that are played together. `play` ticks the clock and
polls the rules with the window that it returns. -/
inductive Operation where
  | call (call : Clock.Call)
  | play (now : Nat)
  | poll (window : Window)
  | resetRules
  deriving DecidableEq, Repr

structure Reply where
  window : Option Window
  reading : Option Nat
  events : List NoteEvent
  deriving DecidableEq, Repr

def operate (playback : Playback) : Operation → Reply × Playback
  | .call call =>
      (⟨playback.clock.window? call, playback.clock.reading? call, []⟩,
        { playback with clock := playback.clock.apply call })
  | .play now =>
      match playback.clock.tick now with
      | (none, clock) => (⟨none, none, []⟩, { playback with clock })
      | (some window, clock) =>
          let (events, rules) := playback.rules.poll window
          (⟨some window, none, events⟩, ⟨clock, rules⟩)
  | .poll window =>
      let (events, rules) := playback.rules.poll window
      (⟨none, none, events⟩, { playback with rules })
  | .resetRules => (⟨none, none, []⟩, { playback with rules := playback.rules.reset })

def replies (playback : Playback) : List Operation → List Reply
  | [] => []
  | operation :: rest =>
      (playback.operate operation).1 :: (playback.operate operation).2.replies rest

def after (playback : Playback) (operations : List Operation) : Playback :=
  operations.foldl (fun current operation => (current.operate operation).2) playback

theorem after_cons (playback : Playback) (operation : Operation) (rest : List Operation) :
    playback.after (operation :: rest) = (playback.operate operation).2.after rest := rfl

theorem exists_useAll_operate (playback : Playback) (operation : Operation) :
    ∃ uses, (playback.operate operation).2.rules = playback.rules.useAll uses := by
  cases operation with
  | call call => exact ⟨[], rfl⟩
  | play now =>
      rw [operate]
      split
      · exact ⟨[], rfl⟩
      · rename_i window clock _
        exact ⟨[.poll window], rfl⟩
  | poll window => exact ⟨[.poll window], rfl⟩
  | resetRules => exact ⟨[.reset], rfl⟩

theorem exists_useAll_after (playback : Playback) (operations : List Operation) :
    ∃ uses, (playback.after operations).rules = playback.rules.useAll uses := by
  induction operations generalizing playback with
  | nil => exact ⟨[], rfl⟩
  | cons operation rest ih =>
      obtain ⟨first, firstUsed⟩ := playback.exists_useAll_operate operation
      obtain ⟨others, othersUsed⟩ := ih (playback.operate operation).2
      refine ⟨first ++ others, ?_⟩
      rw [after_cons, othersUsed, firstUsed, RuleSet.useAll_append]

theorem after_resets (playback : Playback) :
    playback.after [.call .reset, .resetRules] =
      ⟨playback.clock.reset, playback.rules.reset⟩ := rfl

/-- A reset takes a compiled rule set back to what it was compiled to. When the clock is reset as well,
all that is asked from then on is answered as a new clock answers it with the rules just compiled, once
it is started if the other clock was running. -/
theorem reset_is_a_fresh_start {text : List Char} {spacing : Nat} {rules : RuleSet}
    (compiled : RuleSet.ofText text spacing = .ok rules) :
    (∀ uses, (rules.useAll uses).reset = rules) ∧
    ∀ earlier later : List Operation,
      let used := (Playback.mk .new rules).after earlier
      let restarted := used.after [.call .reset, .resetRules]
      let fresh := (Playback.mk .new rules).after
        (if used.clock.state = .running then [.call .start] else [])
      restarted = fresh ∧ restarted.replies later = fresh.replies later := by
  have reset := RuleSet.reset_fresh (RuleSet.fresh_of_ofText compiled)
  have rulesBack : ∀ uses, (rules.useAll uses).reset = rules :=
    fun uses => (rules.reset_useAll uses).trans reset
  refine ⟨rulesBack, ?_⟩
  intro earlier later used restarted fresh
  obtain ⟨uses, rulesUsed⟩ := (Playback.mk .new rules).exists_useAll_after earlier
  have same : restarted = fresh := by
    change used.after [.call .reset, .resetRules] = fresh
    rw [after_resets, Clock.reset_eq, rulesUsed, rulesBack]
    by_cases running : used.clock.state = .running
    · simp only [fresh, if_pos running]
      rfl
    · simp only [fresh, if_neg running]
      rfl
  exact ⟨same, congrArg (·.replies later) same⟩

theorem reset_is_a_fresh_start_with_a_pending_stop :
    let text := "every 3ds play C,E arpeggio\nat 0s play A".toList
    let rules : RuleSet :=
      ⟨[Command.every 300 [⟨.C, .natural⟩, ⟨.E, .natural⟩] .arpeggio,
        Command.once 0 [⟨.A, .natural⟩]], 250⟩
    let earlier : List Operation :=
      [.call .start, .play 10, .play 400, .call (.stop 450), .call .start, .poll ⟨900, 1500⟩]
    let later : List Operation :=
      [.call (.read 700), .play 800, .play 1150, .call (.stop 1160), .call (.read 1200), .play 1300]
    let restarted := ((Playback.mk .new rules).after earlier).after [.call .reset, .resetRules]
    RuleSet.ofText text 250 = .ok rules ∧
      (rules.useAll [.poll ⟨0, 900⟩, .reset, .poll ⟨200, 700⟩]).reset = rules ∧
      ((Playback.mk .new rules).after earlier).clock.stoppedAt = some 450 ∧
      restarted = ⟨Clock.new.start, rules⟩ ∧
      restarted.replies later = (Playback.mk Clock.new.start rules).replies later ∧
      restarted.replies later =
        [⟨none, some 0, []⟩, ⟨some ⟨0, 0⟩, none, []⟩,
          ⟨some ⟨0, 350⟩, none, [⟨⟨.C, .natural⟩, 0⟩, ⟨⟨.A, .natural⟩, 0⟩]⟩,
          ⟨none, none, []⟩, ⟨none, some 360, []⟩, ⟨none, none, []⟩] := by
  intro text rules earlier later restarted
  have compiled : RuleSet.ofText text 250 = .ok rules := rfl
  obtain ⟨rulesBack, restart⟩ := reset_is_a_fresh_start compiled
  obtain ⟨same, answers⟩ := restart earlier later
  exact ⟨compiled, rulesBack _, by decide, same, answers, by decide⟩

end Playback

end NoteClock
