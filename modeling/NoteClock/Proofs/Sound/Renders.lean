import Mathlib.Algebra.BigOperators.Group.List.Basic
import NoteClock.Proofs.Sound.Voices
import NoteClock.Proofs.Timeline.Timetable

/-!
Renders of one rule set, one after the other. Each of them takes the sequences up where the last one
left them, and one that is refused leaves them where they are.
-/

namespace NoteClock

namespace Command

/-- What the command alone places in a schedule. -/
def placed (command : Command) (spacing length tick : Nat) : List Placement :=
  (command.played spacing (Schedule.windows length tick)).map Schedule.placeAt

/-- The command behind schedules of these lengths. -/
def behind (command : Command) (lengths : List Nat) : Command :=
  match command.trigger with
  | .once _ => command
  | .every period mode =>
      { command with
        cursor := (command.cursor + (lengths.map (· / period)).sum) %
          mode.span command.notes.length }

theorem behind_once {command : Command} {instant : Nat} (trigger : command.trigger = .once instant)
    (lengths : List Nat) : command.behind lengths = command := by
  rw [behind, trigger]

theorem behind_every {command : Command} {period : Nat} {mode : PlayMode}
    (trigger : command.trigger = .every period mode) (lengths : List Nat) :
    command.behind lengths =
      { command with
        cursor := (command.cursor + (lengths.map (· / period)).sum) %
          mode.span command.notes.length } := by
  rw [behind, trigger]

theorem trigger_behind (command : Command) (lengths : List Nat) :
    (command.behind lengths).trigger = command.trigger := by
  cases trigger : command.trigger with
  | once instant => rw [behind_once trigger, trigger]
  | every period mode => rw [behind_every trigger, trigger]

theorem Sound.behind_nil {command : Command} (sound : command.Sound) : command.behind [] = command := by
  cases trigger : command.trigger with
  | once instant => exact behind_once trigger []
  | every period mode =>
      have below := sound.cursor_lt
      rw [cycle_every trigger] at below
      rw [behind_every trigger, List.map_nil, List.sum_nil, Nat.add_zero, Nat.mod_eq_of_lt below]

theorem behind_append (command : Command) (former later : List Nat) :
    command.behind (former ++ later) = (command.behind former).behind later := by
  cases trigger : command.trigger with
  | once instant => rw [behind_once trigger, behind_once trigger, behind_once trigger]
  | every period mode =>
      have kept : (command.behind former).trigger = .every period mode := by
        rw [trigger_behind, trigger]
      rw [behind_every kept, behind_every trigger, behind_every trigger, List.map_append,
        List.sum_append, Nat.mod_add_mod, Nat.add_assoc]

theorem Reachable.after {command : Command} (reachable : command.Reachable) (spacing : Nat)
    (windows : List Window) : (command.after spacing windows).Reachable := by
  induction windows generalizing command with
  | nil => exact reachable
  | cons window rest ih => exact ih (reachable.poll window spacing)

theorem Sound.after_windows {command : Command} (sound : command.Sound) (spacing length : Nat)
    {tick : Nat} (positive : 1 ≤ tick)
    (le : ∀ period mode, command.trigger = .every period mode → tick ≤ period) :
    command.after spacing (Schedule.windows length tick) = command.behind [length] := by
  rw [(sound.firings_eq spacing _).2]
  cases trigger : command.trigger with
  | once instant => rw [behind_once trigger, advanceBy_once trigger]
  | every period mode =>
      obtain ⟨contiguous, ended⟩ := Schedule.contiguous_windows length tick
      have narrow : ∀ window ∈ Schedule.windows length tick, window.width ≤ period :=
        fun window member =>
          Nat.le_trans (Schedule.width_le_of_mem positive member) (le period mode trigger)
      have counted := (length_filter_fires trigger (sound.period_pos period mode trigger)
        contiguous).2 narrow
      rw [ended, Nat.zero_div, Nat.zero_add] at counted
      rw [advanceBy_eq, sound.cursor_advanceBy trigger, counted, cycle_every trigger,
        behind_every trigger, List.map_singleton, List.sum_singleton]

theorem Reachable.fresh_of_once {command : Command} (reachable : command.Reachable) {instant : Nat}
    (trigger : command.trigger = .once instant) : command.Fresh := by
  have below := reachable.sound.cursor_lt
  have single : command.cycle = 1 := by rw [cycle, mode, trigger]
  exact ⟨reachable, by omega⟩

theorem Reachable.placed_once {command : Command} (reachable : command.Reachable) {instant : Nat}
    (trigger : command.trigger = .once instant) (spacing : Nat) {length tick : Nat}
    (bounded : length ≤ maxMillis) (positive : 1 ≤ tick) :
    command.placed spacing length tick =
      if instant < length then
        command.notes.map (⟨Schedule.endHolding length tick instant, ·⟩)
      else [] := by
  have fresh := reachable.fresh_of_once trigger
  have noPeriod : ∀ period mode, command.trigger = .every period mode → tick ≤ period := by
    intro period mode periodic
    rw [trigger] at periodic
    cases periodic
  rw [placed, fresh.played_eq spacing length positive noPeriod,
    map_placeAt_timetable command spacing bounded, placements, trigger]

end Command

namespace RuleSet

def behind (rules : RuleSet) (lengths : List Nat) : RuleSet :=
  { rules with commands := rules.commands.map (·.behind lengths) }

theorem behind_append (rules : RuleSet) (former later : List Nat) :
    rules.behind (former ++ later) = (rules.behind former).behind later := by
  simp only [behind, List.map_map]
  congr 1
  apply List.map_congr_left
  intro command _
  exact command.behind_append former later

theorem behind_nil {rules : RuleSet} (sound : ∀ command ∈ rules.commands, command.Sound) :
    rules.behind [] = rules :=
  map_commands_eq_self fun command member => (sound command member).behind_nil

theorem Resolved.behind {rules : RuleSet} {tick : Nat} (resolved : rules.Resolved tick)
    (lengths : List Nat) : (rules.behind lengths).Resolved tick := by
  refine ⟨resolved.positive, ?_⟩
  intro command member period mode trigger
  obtain ⟨before, beforeMember, rfl⟩ := List.mem_map.mp member
  rw [Command.trigger_behind] at trigger
  exact resolved.le_period before beforeMember period mode trigger

theorem schedule_placed_perm (rules : RuleSet) (length tick : Nat) :
    (schedule rules length tick).1.Perm
      (rules.commands.flatMap (·.placed rules.spacing length tick)) := by
  rw [schedule_eq_map_placeAt]
  refine ((rules.played_perm _).map Schedule.placeAt).trans (List.Perm.of_eq ?_)
  rw [List.map_flatMap]
  rfl

theorem schedule_behind {rules : RuleSet} (sound : ∀ command ∈ rules.commands, command.Sound)
    (length : Nat) {tick : Nat} (resolved : rules.Resolved tick) :
    (schedule rules length tick).2 = rules.behind [length] := by
  change (rules.pollAll (Schedule.windows length tick)).2 = _
  rw [pollAll_state, behind]
  congr 1
  apply List.map_congr_left
  intro command member
  exact (sound command member).after_windows rules.spacing length resolved.positive
    (resolved.le_period command member)

theorem reachable_schedule {rules : RuleSet}
    (reachable : ∀ command ∈ rules.commands, command.Reachable) (length tick : Nat) :
    ∀ command ∈ (schedule rules length tick).2.commands, command.Reachable := by
  change ∀ command ∈ (rules.pollAll (Schedule.windows length tick)).2.commands, command.Reachable
  rw [pollAll_state]
  intro command member
  obtain ⟨before, beforeMember, rfl⟩ := List.mem_map.mp member
  exact (reachable before beforeMember).after rules.spacing _

end RuleSet

namespace Mix

/-- Rendering with a rule set that is polled where it stands, so that what was done to it before a
refusal would stay done. -/
def renderInPlace (format : Format) : ExceptT Error (StateM RuleSet) (Array Float32) := do
  if maxLength < format.length then throw (.tooLong .mix format.length)
  if maxLength < format.toneLength then throw (.tooLong .tone format.toneLength)
  let placements ← modifyGet fun rules => schedule rules format.length format.tick
  return (mixed format placements).map clamp

def renderAll (formats : List Format) : StateM RuleSet (List (Except Error (Array Float32))) :=
  formats.mapM fun format => (renderInPlace format).run

def Format.Fits (format : Format) : Prop :=
  format.length ≤ 3600000 ∧ format.toneLength ≤ 3600000

instance (format : Format) : Decidable format.Fits := inferInstanceAs (Decidable (_ ∧ _))

theorem run_renderInPlace (format : Format) (rules : RuleSet) :
    (renderInPlace format).run.run rules =
      match render rules format with
      | .error error => (.error error, rules)
      | .ok (samples, after) => (.ok samples, after) := by
  rw [renderInPlace, render]
  by_cases long : maxLength < format.length
  · simp only [if_pos long]
    rfl
  · by_cases longTone : maxLength < format.toneLength
    · simp only [if_neg long, if_pos longTone]
      rfl
    · simp only [if_neg long, if_neg longTone]
      rfl

theorem run_renderInPlace_of_fits {format : Format} (fits : format.Fits) (rules : RuleSet) :
    (renderInPlace format).run.run rules =
      (.ok ((mixed format (schedule rules format.length format.tick).1).map clamp),
        (schedule rules format.length format.tick).2) := by
  rw [run_renderInPlace, render_of_le rules fits.1 fits.2]

theorem run_renderInPlace_of_not_fits {format : Format} (long : ¬format.Fits) (rules : RuleSet) :
    ∃ part millis, (renderInPlace format).run.run rules = (.error (.tooLong part millis), rules) := by
  rw [run_renderInPlace, render]
  by_cases longMix : maxLength < format.length
  · exact ⟨.mix, format.length, by rw [if_pos longMix]⟩
  · have longTone : maxLength < format.toneLength := by
      rw [Format.Fits] at long
      unfold maxLength at longMix ⊢
      omega
    exact ⟨.tone, format.toneLength, by rw [if_neg longMix, if_pos longTone]⟩

theorem run_renderAll_cons (format : Format) (rest : List Format) (rules : RuleSet) :
    ((renderAll (format :: rest)).run rules).2 =
      ((renderAll rest).run ((renderInPlace format).run.run rules).2).2 := by
  rw [renderAll, List.mapM_cons]
  rfl

def fittingLengths (formats : List Format) : List Nat :=
  (formats.filter (·.Fits)).map (·.length)

theorem fittingLengths_cons (format : Format) (rest : List Format) :
    fittingLengths (format :: rest) = fittingLengths [format] ++ fittingLengths rest := by
  by_cases fits : format.Fits
  · simp [fittingLengths, fits]
  · simp [fittingLengths, fits]

theorem renderInPlace_behind {rules : RuleSet}
    (reachable : ∀ command ∈ rules.commands, command.Reachable) {format : Format}
    (resolved : rules.Resolved format.tick) :
    let after := ((renderInPlace format).run.run rules).2
    after = rules.behind (fittingLengths [format]) ∧
      ∀ command ∈ after.commands, command.Reachable := by
  have sound : ∀ command ∈ rules.commands, command.Sound :=
    fun command member => (reachable command member).sound
  intro after
  by_cases fits : format.Fits
  · have moved : after = (schedule rules format.length format.tick).2 := by
      simp only [after, run_renderInPlace_of_fits fits]
    have lengths : fittingLengths [format] = [format.length] := by simp [fittingLengths, fits]
    rw [moved, lengths]
    exact ⟨RuleSet.schedule_behind sound format.length resolved,
      RuleSet.reachable_schedule reachable format.length format.tick⟩
  · obtain ⟨part, millis, refused⟩ := run_renderInPlace_of_not_fits fits rules
    have still : after = rules := by simp only [after, refused]
    have lengths : fittingLengths [format] = [] := by simp [fittingLengths, fits]
    rw [still, lengths, RuleSet.behind_nil sound]
    exact ⟨rfl, reachable⟩

theorem renderAll_behind {rules : RuleSet}
    (reachable : ∀ command ∈ rules.commands, command.Reachable) {formats : List Format}
    (resolved : ∀ format ∈ formats, rules.Resolved format.tick) :
    let after := ((renderAll formats).run rules).2
    after = rules.behind (fittingLengths formats) ∧
      ∀ command ∈ after.commands, command.Reachable := by
  induction formats generalizing rules with
  | nil =>
      have sound : ∀ command ∈ rules.commands, command.Sound :=
        fun command member => (reachable command member).sound
      exact ⟨(RuleSet.behind_nil sound).symm, reachable⟩
  | cons format rest ih =>
      obtain ⟨first, others⟩ := List.forall_mem_cons.mp resolved
      obtain ⟨middle, middleReachable⟩ := renderInPlace_behind reachable first
      have middleResolved : ∀ later ∈ rest,
          ((renderInPlace format).run.run rules).2.Resolved later.tick := by
        intro later member
        rw [middle]
        exact (others later member).behind _
      obtain ⟨last, lastReachable⟩ := ih middleReachable middleResolved
      intro after
      have split : after = ((renderAll rest).run ((renderInPlace format).run.run rules).2).2 :=
        run_renderAll_cons format rest rules
      rw [split]
      refine ⟨?_, lastReachable⟩
      rw [last, middle, fittingLengths_cons format rest, RuleSet.behind_append]

theorem refused_iff (format : Format) (rules : RuleSet) :
    (∃ part millis, ((renderInPlace format).run.run rules).1 = .error (.tooLong part millis)) ↔
      3600000 < format.length ∨ 3600000 < format.toneLength := by
  by_cases fits : format.Fits
  · rw [run_renderInPlace_of_fits fits]
    rw [Format.Fits] at fits
    simp only [reduceCtorEq, exists_false, false_iff]
    omega
  · obtain ⟨part, millis, refused⟩ := run_renderInPlace_of_not_fits fits rules
    rw [Format.Fits] at fits
    rw [refused]
    exact ⟨fun _ => by omega, fun _ => ⟨part, millis, rfl⟩⟩

/-- A rule set is rendered again and again, with a tick no longer than any of its periods. Each render
is refused exactly when it or its tones are longer than an hour, and then changes nothing. The others
take the cursors up where they stand and move them on by the periods in their length, and each places
every single firing in its length once. -/
theorem renders_take_up_the_sequences {rules : RuleSet}
    (reachable : ∀ command ∈ rules.commands, command.Reachable) {formats : List Format}
    (resolved : ∀ format ∈ formats, rules.Resolved format.tick) :
    (∀ earlier format later, formats = earlier ++ format :: later →
      let before := ((renderAll earlier).run rules).2
      let outcome := ((renderInPlace format).run.run before).1
      let after := ((renderInPlace format).run.run before).2
      ((∃ part millis, outcome = .error (.tooLong part millis)) ↔
        3600000 < format.length ∨ 3600000 < format.toneLength) ∧
      ((∃ part millis, outcome = .error (.tooLong part millis)) → after = before) ∧
      (format.length ≤ 3600000 ∧ format.toneLength ≤ 3600000 →
        let placements := (schedule before format.length format.tick).1
        outcome = .ok ((mixed format placements).map clamp) ∧
        placements.Perm
          (before.commands.flatMap (·.placed before.spacing format.length format.tick)) ∧
        ∀ command ∈ rules.commands, ∀ instant, command.trigger = .once instant →
          command ∈ before.commands ∧
            command.placed before.spacing format.length format.tick =
              if instant < format.length then
                command.notes.map (⟨Schedule.endHolding format.length format.tick instant, ·⟩)
              else [])) ∧
    List.Forall₂ (fun before after =>
        (∀ instant, before.trigger = .once instant → after = before) ∧
        ∀ period mode, before.trigger = .every period mode →
          after = { before with
            cursor := (before.cursor +
                ((formats.filter (·.Fits)).map fun format => format.length / period).sum) %
              mode.span before.notes.length })
      rules.commands ((renderAll formats).run rules).2.commands := by
  constructor
  · rintro earlier format later rfl before outcome after
    have earlierResolved : ∀ former ∈ earlier, rules.Resolved former.tick :=
      fun former member => resolved former (List.mem_append_left _ member)
    have moved : before = rules.behind (fittingLengths earlier) :=
      (renderAll_behind reachable earlierResolved).1
    have positive := (resolved format (by simp)).positive
    refine ⟨refused_iff format before, ?_, ?_⟩
    · intro long
      rw [refused_iff] at long
      have notFits : ¬format.Fits := by
        rw [Format.Fits]
        omega
      obtain ⟨_, _, refused⟩ := run_renderInPlace_of_not_fits notFits before
      exact congrArg Prod.snd refused
    · intro fits placements
      have bounded : format.length ≤ maxMillis := Nat.le_trans fits.1 (by decide)
      refine ⟨congrArg Prod.fst (run_renderInPlace_of_fits fits before),
        before.schedule_placed_perm format.length format.tick, ?_⟩
      intro command member instant trigger
      have kept : command ∈ before.commands := by
        rw [moved, ← Command.behind_once trigger (fittingLengths earlier)]
        exact List.mem_map_of_mem member
      exact ⟨kept,
        (reachable command member).placed_once trigger before.spacing bounded positive⟩
  · obtain ⟨moved, _⟩ := renderAll_behind reachable resolved
    rw [moved, RuleSet.behind, List.forall₂_map_right_iff, List.forall₂_same]
    intro command _
    refine ⟨fun instant trigger => Command.behind_once trigger _, ?_⟩
    intro period mode trigger
    rw [Command.behind_every trigger, fittingLengths, List.map_map]
    rfl

theorem renders_take_up_the_sequences_behind_two_refusals :
    let repeated : Command :=
      ((Command.every 300 [⟨.C, .natural⟩, ⟨.E, .natural⟩, ⟨.G, .natural⟩] .scale).poll
        ⟨0, 300⟩ 250).2
    let single := Command.once 500 [⟨.A, .natural⟩, ⟨.B, .flat⟩]
    let rules : RuleSet := ⟨[repeated, single], 250⟩
    let first : Format := ⟨900, 100, 500, 8000⟩
    let long : Format := ⟨3600001, 300, 5, 8000⟩
    let longTone : Format := ⟨1000, 1, 3600001, 1⟩
    let last : Format := ⟨1250, 250, 0, 44100⟩
    let refused := (renderInPlace longTone).run.run ((renderAll [first, long]).run rules).2
    let before := ((renderAll [first, long, longTone]).run rules).2
    ((∀ command ∈ rules.commands, command.Reachable) ∧
        ∀ format ∈ [first, long, longTone, last], rules.Resolved format.tick) ∧
      (∃ part millis, refused.1 = .error (.tooLong part millis)) ∧
      refused.2 = ((renderAll [first, long]).run rules).2 ∧
      (last.length ≤ 3600000 ∧ last.toneLength ≤ 3600000) ∧
      single ∈ before.commands ∧
      single.placed before.spacing 1250 250 = [⟨750, ⟨.A, .natural⟩⟩, ⟨750, ⟨.B, .flat⟩⟩] ∧
      repeated.cursor = 1 ∧
      ((renderAll [first, long, longTone, last]).run rules).2.commands =
        [{ repeated with cursor := (1 + (900 / 300 + 1250 / 300)) % 3 }, single] := by
  intro repeated single rules first long longTone last refused before
  have reachable : ∀ command ∈ rules.commands, command.Reachable := by
    intro command member
    rcases List.mem_pair.mp member with rfl | rfl
    · exact .poll ⟨0, 300⟩ 250 (.every .scale (by decide) (by decide))
    · exact .once 500 (by decide)
  have periods : ∀ tick, 1 ≤ tick → tick ≤ 300 → rules.Resolved tick := by
    intro tick positive le
    refine ⟨positive, ?_⟩
    intro command member period mode trigger
    rcases List.mem_pair.mp member with rfl | rfl
    · cases trigger
      exact le
    · cases trigger
  have ticks : ∀ format ∈ [first, long, longTone, last], 1 ≤ format.tick ∧ format.tick ≤ 300 := by
    decide
  have resolved : ∀ format ∈ [first, long, longTone, last], rules.Resolved format.tick :=
    fun format member => periods format.tick (ticks format member).1 (ticks format member).2
  have fits : last.length ≤ 3600000 ∧ last.toneLength ≤ 3600000 := by decide
  obtain ⟨calls, moved⟩ := renders_take_up_the_sequences reachable resolved
  obtain ⟨refusal, unchanged, _⟩ := calls [first, long] longTone [last] rfl
  obtain ⟨_, _, answered⟩ := calls [first, long, longTone] last [] rfl
  obtain ⟨_, _, placed⟩ := answered fits
  obtain ⟨kept, once⟩ := placed single (by simp [rules]) 500 rfl
  have tooLong := refusal.mpr (Or.inr (by decide))
  refine ⟨⟨reachable, resolved⟩, tooLong, unchanged tooLong, fits, kept, once.trans (by decide),
    by decide, ?_⟩
  generalize ((renderAll [first, long, longTone, last]).run rules).2.commands = commands at moved ⊢
  obtain ⟨_, _, ⟨_, everyMoved⟩, others, rfl⟩ := List.forall₂_cons_left_iff.mp moved
  obtain ⟨_, _, ⟨onceMoved, _⟩, nothing, rfl⟩ := List.forall₂_cons_left_iff.mp others
  rw [List.forall₂_nil_left_iff.mp nothing, everyMoved 300 .scale rfl, onceMoved 500 rfl]
  decide

end Mix

end NoteClock
