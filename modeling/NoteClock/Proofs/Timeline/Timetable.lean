import Mathlib.Data.List.Perm.Basic
import NoteClock.Proofs.Timeline.Compiled
import NoteClock.Proofs.Timeline.Progression
import NoteClock.Proofs.Timeline.RuleSetPolls
import NoteClock.Proofs.Timeline.Tiling

/-!
Timetables. When no tick is longer than a period, each firing of a fresh command falls into a window of
its own. What a schedule places is then known in advance, and the tick decides only how far a firing is
put off.
-/

namespace NoteClock

def NoteEvent.spread (answer : Nat × List NoteEvent) : List (Nat × NoteEvent) :=
  answer.2.map (answer.1, ·)

def Schedule.placeAt (event : Nat × NoteEvent) : Placement :=
  ⟨saturate (event.1 + event.2.delay), event.2.note⟩

namespace Command

def firing (command : Command) (spacing number : Nat) : List NoteEvent :=
  match command.trigger with
  | .once _ => command.notes.map (⟨·, 0⟩)
  | .every _ mode =>
      if nonempty : command.notes ≠ [] then mode.answer command.notes nonempty spacing number else []

def timetable (command : Command) (spacing length tick : Nat) : List (Nat × List NoteEvent) :=
  match command.trigger with
  | .once instant =>
      if instant < length then
        [(Schedule.endHolding length tick instant, command.firing spacing 0)]
      else []
  | .every period _ =>
      (List.range (length / period)).map fun number =>
        (Schedule.endReaching length tick ((number + 1) * period), command.firing spacing number)

def placements (command : Command) (spacing length tick : Nat) : List Placement :=
  match command.trigger with
  | .once instant =>
      if instant < length then
        command.notes.map (⟨Schedule.endHolding length tick instant, ·⟩)
      else []
  | .every period _ =>
      (List.range (length / period)).flatMap fun number =>
        (command.firing spacing number).map fun event =>
          ⟨min (Schedule.endReaching length tick ((number + 1) * period) + event.delay) maxMillis,
            event.note⟩

def played (command : Command) (spacing : Nat) (windows : List Window) : List (Nat × NoteEvent) :=
  (windows.zip (command.answers spacing windows)).flatMap fun (window, events) =>
    NoteEvent.spread (window.stop, events)

theorem Fresh.eq_every {command : Command} (fresh : command.Fresh) {period : Nat} {mode : PlayMode}
    (trigger : command.trigger = .every period mode) :
    command = every period command.notes mode := by
  have cursor := fresh.cursor
  have below := fresh.sound.cursor_lt
  rw [cycle_every trigger, cursor] at below
  obtain ⟨_, notes, _⟩ := command
  simp only at trigger cursor
  subst trigger cursor
  cases mode with
  | stack limit =>
      have atLeastOne : max limit 1 = limit := Nat.max_eq_left below
      rw [every, atLeastOne]
  | _ => rfl

theorem Fresh.emission_advanceBy {command : Command} (fresh : command.Fresh)
    (spacing number : Nat) :
    (command.advanceBy number).emission spacing = command.firing spacing number := by
  cases trigger : command.trigger with
  | once instant => rw [advanceBy_once trigger, emission_once trigger, firing, trigger]
  | every period mode =>
      have nonempty := fresh.sound.notes_ne_nil
      have positive := fresh.sound.period_pos period mode trigger
      have closed := emission_advanceBy_every mode positive nonempty spacing number
      rw [← fresh.eq_every trigger] at closed
      simp only [closed, firing, trigger, dif_pos nonempty]

theorem stops_filter_fires {command : Command} {period : Nat} {mode : PlayMode}
    (trigger : command.trigger = .every period mode) (positive : 0 < period) {stopOf : Nat → Nat}
    {start : Nat} {windows : List Window} (contiguous : Contiguous start windows)
    (narrow : ∀ window ∈ windows, window.width ≤ period)
    (stops : ∀ window ∈ windows, ∀ instant, window.reaches instant = true →
      window.stop = stopOf instant) :
    (windows.filter command.fires).map Window.stop =
      (List.range' (start / period + 1) (endOf start windows / period - start / period)).map
        fun count => stopOf (count * period) := by
  induction contiguous with
  | nil start => simp [endOf]
  | @cons start stop rest le tail ih =>
      obtain ⟨headNarrow, restNarrow⟩ := List.forall_mem_cons.mp narrow
      obtain ⟨headStops, restStops⟩ := List.forall_mem_cons.mp stops
      have grows : command.fires ⟨start, stop⟩ = true ↔ start / period < stop / period :=
        fires_every_iff trigger positive le
      have mono : start / period ≤ stop / period := Nat.div_le_div_right le
      have tailMono : stop / period ≤ endOf stop rest / period := Nat.div_le_div_right tail.le_endOf
      have ended : endOf start (⟨start, stop⟩ :: rest) = endOf stop rest := endOf_cons _ _ _
      rw [ended]
      cases fires : command.fires ⟨start, stop⟩ with
      | true =>
          have crossed := grows.mp fires
          have single : stop / period ≤ start / period + 1 :=
            Window.div_le_succ_of_width_le positive headNarrow
          have next : stop / period = start / period + 1 := by omega
          have more : endOf stop rest / period - start / period =
              endOf stop rest / period - stop / period + 1 := by omega
          have reached : Window.reaches ⟨start, stop⟩ ((start / period + 1) * period) = true := by
            rw [Window.reaches_iff, ← next]
            exact ⟨(Nat.div_lt_iff_lt_mul positive).mp crossed, Nat.div_mul_le_self stop period⟩
          rw [List.filter_cons_of_pos fires, List.map_cons, ih restNarrow restStops, more,
            List.range'_succ, List.map_cons, next, ← headStops _ reached]
      | false =>
          have still := mt grows.mpr (by simp [fires])
          have same : stop / period = start / period := by omega
          rw [List.filter_cons_of_neg (by simp [fires]), ih restNarrow restStops, same]

theorem Sound.played_eq {command : Command} (sound : command.Sound) (spacing : Nat)
    (windows : List Window) :
    command.played spacing windows =
      (((windows.filter command.fires).map Window.stop).zip
        (command.emissions spacing (windows.filter command.fires).length)).flatMap
          NoteEvent.spread := by
  induction windows generalizing command with
  | nil => rfl
  | cons window rest ih =>
      cases fires : command.fires window with
      | true =>
          have tail := ih sound.advance
          rw [List.filter_cons_of_pos fires, List.length_cons, List.map_cons, emissions,
            List.zip_cons_cons, List.flatMap_cons]
          rw [played, answers, poll_of_fires fires, List.zip_cons_cons, List.flatMap_cons]
          exact congrArg _ tail
      | false =>
          have tail := ih sound
          rw [List.filter_cons_of_neg (by simp [fires])]
          rw [played, answers, poll_of_not_fires fires, List.zip_cons_cons, List.flatMap_cons]
          exact tail

theorem stops_once {command : Command} {instant : Nat} (trigger : command.trigger = .once instant)
    {length tick : Nat} (positive : 1 ≤ tick) :
    ((Schedule.windows length tick).filter command.fires).map Window.stop =
      if instant < length then [Schedule.endHolding length tick instant] else [] := by
  obtain ⟨contiguous, ended⟩ := Schedule.contiguous_windows length tick
  rw [filter_fires_once trigger]
  by_cases inside : instant < length
  · have below : instant < endOf 0 (Schedule.windows length tick) := by omega
    obtain ⟨window, holds, only⟩ := contiguous.exists_filter_contains (Nat.zero_le instant) below
    have member : window ∈ Schedule.windows length tick :=
      List.singleton_sublist.mp (only ▸ List.filter_sublist)
    rw [only, if_pos inside, List.map_singleton, Schedule.stop_of_contains positive member holds]
  · rw [contiguous.filter_contains_of_le (by omega), if_neg inside, List.map_nil]

theorem stops_every {command : Command} {period : Nat} {mode : PlayMode}
    (trigger : command.trigger = .every period mode) {length tick : Nat} (positive : 1 ≤ tick)
    (le : tick ≤ period) :
    ((Schedule.windows length tick).filter command.fires).map Window.stop =
      (List.range (length / period)).map fun number =>
        Schedule.endReaching length tick ((number + 1) * period) := by
  obtain ⟨contiguous, ended⟩ := Schedule.contiguous_windows length tick
  have narrow : ∀ window ∈ Schedule.windows length tick, window.width ≤ period :=
    fun window member => Nat.le_trans (Schedule.width_le_of_mem positive member) le
  have stops := stops_filter_fires trigger (Nat.lt_of_lt_of_le positive le) contiguous narrow
    fun window member instant reached => Schedule.stop_of_reaches positive member reached
  rw [stops, ended, Nat.zero_div, Nat.sub_zero, Nat.zero_add, List.range'_eq_map_range,
    List.map_map]
  apply List.map_congr_left
  intro number _
  rw [Function.comp_apply, Nat.add_comm 1]

theorem Fresh.timetable_eq {command : Command} (fresh : command.Fresh) (spacing length : Nat)
    {tick : Nat} (positive : 1 ≤ tick)
    (le : ∀ period mode, command.trigger = .every period mode → tick ≤ period) :
    let fired := (Schedule.windows length tick).filter command.fires
    (fired.map Window.stop).zip (command.emissions spacing fired.length) =
      command.timetable spacing length tick := by
  intro fired
  have answers : ∀ number, (command.advanceBy number).emission spacing =
      command.firing spacing number := fresh.emission_advanceBy spacing
  simp only [emissions_eq_map, answers]
  rw [← List.length_map Window.stop]
  cases trigger : command.trigger with
  | once instant =>
      simp only [fired, stops_once trigger positive, timetable, trigger]
      by_cases inside : instant < length
      · simp [inside]
      · simp [inside]
  | every period mode =>
      simp only [fired, stops_every trigger positive (le period mode trigger), timetable, trigger,
        List.length_map, List.length_range, List.zip_map']

theorem Fresh.played_eq {command : Command} (fresh : command.Fresh) (spacing length : Nat)
    {tick : Nat} (positive : 1 ≤ tick)
    (le : ∀ period mode, command.trigger = .every period mode → tick ≤ period) :
    command.played spacing (Schedule.windows length tick) =
      (command.timetable spacing length tick).flatMap NoteEvent.spread := by
  rw [fresh.sound.played_eq, fresh.timetable_eq spacing length positive le]

theorem Fresh.after_eq {command : Command} (fresh : command.Fresh) (spacing length : Nat)
    {tick : Nat} (positive : 1 ≤ tick)
    (le : ∀ period mode, command.trigger = .every period mode → tick ≤ period) :
    command.after spacing (Schedule.windows length tick) =
      command.advanceBy (command.timetable spacing length tick).length := by
  rw [(fresh.sound.firings_eq spacing _).2, ← fresh.timetable_eq spacing length positive le]
  simp only [List.length_zip, List.length_map, length_emissions, Nat.min_self]

theorem map_placeAt_timetable (command : Command) (spacing : Nat) {length : Nat}
    (bounded : length ≤ maxMillis) (tick : Nat) :
    ((command.timetable spacing length tick).flatMap NoteEvent.spread).map Schedule.placeAt =
      command.placements spacing length tick := by
  rw [timetable, placements]
  cases trigger : command.trigger with
  | once instant =>
      by_cases inside : instant < length
      · have stop : saturate (Schedule.endHolding length tick instant) =
            Schedule.endHolding length tick instant :=
          saturate_of_le (Nat.le_trans (Nat.min_le_right _ _) bounded)
        simp only [inside, if_true, firing, trigger, List.flatMap_singleton, NoteEvent.spread,
          List.map_map]
        apply List.map_congr_left
        intro note _
        simp only [Function.comp_apply, Schedule.placeAt, Nat.add_zero, stop]
      · simp [inside]
  | every period mode =>
      simp only [List.flatMap_map, List.map_flatMap, NoteEvent.spread, List.map_map]
      rfl

/-- Two firings with the same events, less than a tick apart. -/
def Near (tick : Nat) (first second : Nat × List NoteEvent) : Prop :=
  first.2 = second.2 ∧ first.1 < second.1 + tick ∧ second.1 < first.1 + tick

theorem near_endReaching (length : Nat) {tick other : Nat} (positive : 1 ≤ tick)
    (otherPositive : 1 ≤ other) (instant : Nat) (events : List NoteEvent) :
    Near (max tick other) (Schedule.endReaching length tick instant, events)
      (Schedule.endReaching length other instant, events) := by
  have bounds := Schedule.endReaching_bounds length positive instant
  have otherBounds := Schedule.endReaching_bounds length otherPositive instant
  refine ⟨rfl, ?_, ?_⟩
  · simp only
    omega
  · simp only
    omega

theorem timetable_near (command : Command) (spacing length : Nat) {tick other : Nat}
    (positive : 1 ≤ tick) (otherPositive : 1 ≤ other) :
    List.Forall₂ (Near (max tick other)) (command.timetable spacing length tick)
      (command.timetable spacing length other) := by
  have near := near_endReaching length positive otherPositive
  cases trigger : command.trigger with
  | once instant =>
      simp only [timetable, trigger, Schedule.endHolding_eq length positive,
        Schedule.endHolding_eq length otherPositive]
      by_cases inside : instant < length
      · rw [if_pos inside, if_pos inside]
        exact List.Forall₂.cons (near _ _) List.Forall₂.nil
      · rw [if_neg inside, if_neg inside]
        exact List.Forall₂.nil
  | every period mode =>
      simp only [timetable, trigger]
      rw [List.forall₂_map_left_iff, List.forall₂_map_right_iff, List.forall₂_same]
      intro number _
      exact near _ _

end Command

namespace RuleSet

def played (rules : RuleSet) (windows : List Window) : List (Nat × NoteEvent) :=
  (rules.pollAll windows).1.toList.flatMap fun (window, events) =>
    NoteEvent.spread (window.stop, events)

def timetable (rules : RuleSet) (length tick : Nat) : List (Nat × List NoteEvent) :=
  rules.commands.flatMap (·.timetable rules.spacing length tick)

/-- A tick that is no longer than any of the periods. -/
structure Resolved (rules : RuleSet) (tick : Nat) : Prop where
  positive : 1 ≤ tick
  le_period : ∀ command ∈ rules.commands, ∀ period mode,
    command.trigger = .every period mode → tick ≤ period

theorem played_cons (rules : RuleSet) (window : Window) (rest : List Window) :
    rules.played (window :: rest) =
      NoteEvent.spread (window.stop, (rules.poll window).1) ++ (rules.poll window).2.played rest := by
  simp only [played, pollAll_cons, Array.toList_append, List.flatMap_append, List.flatMap_singleton]

theorem played_perm (rules : RuleSet) (windows : List Window) :
    (rules.played windows).Perm (rules.commands.flatMap (·.played rules.spacing windows)) := by
  induction windows generalizing rules with
  | nil => simp [played, pollAll_nil, Command.played]
  | cons window rest ih =>
      have tail := ih (rules.poll window).2
      rw [played_cons]
      simp only [poll_eq, List.flatMap_map] at tail ⊢
      simp only [NoteEvent.spread, List.map_flatMap]
      -- The answers to one window stand together on the left, those of one command on the right.
      exact (tail.append_left _).trans (List.flatMap_append_perm _ _ _)

theorem schedule_eq_map_placeAt (rules : RuleSet) (length tick : Nat) :
    (schedule rules length tick).1 =
      (rules.played (Schedule.windows length tick)).map Schedule.placeAt := by
  simp only [schedule, played, List.map_flatMap, NoteEvent.spread, List.map_map]
  rfl

variable {rules : RuleSet} (fresh : ∀ command ∈ rules.commands, command.Fresh) (length : Nat)
  {tick : Nat} (resolved : rules.Resolved tick)

include fresh resolved

theorem played_perm_timetable :
    (rules.played (Schedule.windows length tick)).Perm
      ((rules.timetable length tick).flatMap NoteEvent.spread) := by
  refine (rules.played_perm _).trans (List.Perm.of_eq ?_)
  rw [timetable, List.flatMap_assoc]
  apply List.flatMap_congr
  intro command member
  exact (fresh command member).played_eq rules.spacing length resolved.positive
    (resolved.le_period command member)

theorem schedule_state :
    (schedule rules length tick).2 =
      { rules with
        commands := rules.commands.map fun command =>
          command.advanceBy (command.timetable rules.spacing length tick).length } := by
  change (rules.pollAll (Schedule.windows length tick)).2 = _
  rw [pollAll_state]
  congr 1
  apply List.map_congr_left
  intro command member
  exact (fresh command member).after_eq rules.spacing length resolved.positive
    (resolved.le_period command member)

omit fresh resolved

theorem timetable_near (rules : RuleSet) (length : Nat) {tick other : Nat} (positive : 1 ≤ tick)
    (otherPositive : 1 ≤ other) :
    List.Forall₂ (Command.Near (max tick other)) (rules.timetable length tick)
      (rules.timetable length other) := by
  have same := List.forall₂_same.mpr fun command (_ : command ∈ rules.commands) => rfl
  apply List.rel_flatMap same
  rintro command _ rfl
  exact command.timetable_near rules.spacing length positive otherPositive

theorem map_snd_spread (timetable : List (Nat × List NoteEvent)) :
    (timetable.flatMap NoteEvent.spread).map (·.2) = (timetable.map (·.2)).flatten := by
  simp only [List.map_flatMap, NoteEvent.spread, List.map_map, ← List.flatMap_def]
  apply List.flatMap_congr
  intro answer _
  exact List.map_id _

theorem map_snd_timetable (rules : RuleSet) (length : Nat) {tick other : Nat} (positive : 1 ≤ tick)
    (otherPositive : 1 ≤ other) :
    (rules.timetable length tick).map (·.2) = (rules.timetable length other).map (·.2) := by
  have near := rules.timetable_near length positive otherPositive
  rw [← List.forall₂_eq_eq_eq, List.forall₂_map_left_iff, List.forall₂_map_right_iff]
  exact near.imp fun _ _ same => same.1

/-- With a tick no longer than any period, all that the schedule of a compiled rule set places is known
in advance: a single firing at the end of the window that holds its instant, and the firings of each
period at the ends of the windows that reach its multiples. Another such tick fires the same events
and leaves the same cursors, and puts no firing off by more than the longer of the two ticks. -/
theorem schedule_in_closed_form {text : List Char} {spacing : Nat} {rules : RuleSet}
    (compiled : ofText text spacing = .ok rules) {length tick : Nat} (bounded : length ≤ maxMillis)
    (resolved : rules.Resolved tick) :
    (schedule rules length tick).1.Perm
        (rules.commands.flatMap (·.placements spacing length tick)) ∧
      (rules.played (Schedule.windows length tick)).Perm
        ((rules.timetable length tick).flatMap NoteEvent.spread) ∧
      ∀ other, rules.Resolved other →
        ((rules.played (Schedule.windows length tick)).map (·.2)).Perm
            ((rules.played (Schedule.windows length other)).map (·.2)) ∧
          (schedule rules length tick).2 = (schedule rules length other).2 ∧
          List.Forall₂ (Command.Near (max tick other)) (rules.timetable length tick)
            (rules.timetable length other) := by
  have fresh := fresh_of_ofText compiled
  have played := played_perm_timetable fresh length resolved
  refine ⟨?_, played, ?_⟩
  · rw [schedule_eq_map_placeAt]
    refine (played.map Schedule.placeAt).trans (List.Perm.of_eq ?_)
    rw [timetable, spacing_of_ofText compiled, List.flatMap_assoc, List.map_flatMap]
    apply List.flatMap_congr
    intro command _
    exact command.map_placeAt_timetable spacing bounded tick
  · intro other otherResolved
    have positive := resolved.positive
    have otherPositive := otherResolved.positive
    have otherPlayed := played_perm_timetable fresh length otherResolved
    refine ⟨?_, ?_, rules.timetable_near length positive otherPositive⟩
    · refine (played.map (·.2)).trans (List.Perm.trans ?_ (otherPlayed.map (·.2)).symm)
      rw [map_snd_spread, map_snd_spread, rules.map_snd_timetable length positive otherPositive]
    · rw [schedule_state fresh length resolved, schedule_state fresh length otherResolved]
      congr 1
      apply List.map_congr_left
      intro command _
      rw [(command.timetable_near _ length positive otherPositive).length_eq]

theorem schedule_in_closed_form_with_a_clipped_last_window :
    let text := "every 3ds play C,E arpeggio\nat 5ds play A,Bb\nat 9ds play G".toList
    let spacing := maxMillis - 600
    let rules : RuleSet :=
      ⟨[Command.every 300 [⟨.C, .natural⟩, ⟨.E, .natural⟩] .arpeggio,
        Command.once 500 [⟨.A, .natural⟩, ⟨.B, .flat⟩], Command.once 900 [⟨.G, .natural⟩]], spacing⟩
    (ofText text spacing = .ok rules ∧ 900 ≤ maxMillis ∧ rules.Resolved 250 ∧ rules.Resolved 70) ∧
      (schedule rules 900 250).1.Perm
        [⟨500, ⟨.C, .natural⟩⟩, ⟨750, ⟨.C, .natural⟩⟩, ⟨maxMillis, ⟨.E, .natural⟩⟩,
          ⟨900, ⟨.C, .natural⟩⟩, ⟨750, ⟨.A, .natural⟩⟩, ⟨750, ⟨.B, .flat⟩⟩] ∧
      (rules.played (Schedule.windows 900 250)).Perm
        ((rules.timetable 900 250).flatMap NoteEvent.spread) ∧
      ((rules.played (Schedule.windows 900 250)).map (·.2)).Perm
        ((rules.played (Schedule.windows 900 70)).map (·.2)) ∧
      (schedule rules 900 250).2 = (schedule rules 900 70).2 ∧
      List.Forall₂ (Command.Near 250) (rules.timetable 900 250) (rules.timetable 900 70) := by
  intro text spacing rules
  have compiled : ofText text spacing = .ok rules := rfl
  have bounded : 900 ≤ maxMillis := by decide
  have resolved : ∀ tick, 1 ≤ tick → tick ≤ 300 → rules.Resolved tick := by
    intro tick positive le
    refine ⟨positive, ?_⟩
    intro command member period mode trigger
    simp only [rules, List.mem_cons, List.not_mem_nil, or_false] at member
    obtain rfl | rfl | rfl := member
    · cases trigger
      exact le
    · cases trigger
    · cases trigger
  have wide := resolved 250 (by decide) (by decide)
  have narrow := resolved 70 (by decide) (by decide)
  obtain ⟨placed, played, others⟩ := schedule_in_closed_form compiled bounded wide
  have evaluated : rules.commands.flatMap (·.placements spacing 900 250) =
      [⟨500, ⟨.C, .natural⟩⟩, ⟨750, ⟨.C, .natural⟩⟩, ⟨maxMillis, ⟨.E, .natural⟩⟩,
        ⟨900, ⟨.C, .natural⟩⟩, ⟨750, ⟨.A, .natural⟩⟩, ⟨750, ⟨.B, .flat⟩⟩] := by
    decide +kernel
  rw [evaluated] at placed
  exact ⟨⟨compiled, bounded, wide, narrow⟩, placed, played, others 70 narrow⟩

end RuleSet

end NoteClock
