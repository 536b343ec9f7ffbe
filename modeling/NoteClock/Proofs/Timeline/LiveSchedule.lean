import NoteClock.Schedule
import NoteClock.Proofs.Timeline.ClockRun

/-!
Live play against schedules. A clock that is ticked at a fixed pace, and paused now and then, returns
the windows of a schedule with empty ones between them, and empty windows play nothing.
-/

namespace NoteClock

namespace Schedule

def tile (width index : Nat) : Window := ⟨index * width, (index + 1) * width⟩

theorem isEmpty_tile {width : Nat} (positive : 1 ≤ width) (index : Nat) :
    (tile width index).isEmpty = false := by
  rw [← Bool.not_eq_true, Window.isEmpty_eq_true_iff]
  change ¬(index + 1) * width ≤ index * width
  rw [Nat.succ_mul]
  omega

theorem windows_mul {width : Nat} (positive : 1 ≤ width) (count : Nat) :
    windows (count * width) width = (List.range count).map (tile width) := by
  have most : max width 1 = width := Nat.max_eq_left positive
  have tiles : (count * width + (width - 1)) / width = count := by
    rw [Nat.mul_comm, Nat.mul_add_div positive, Nat.div_eq_of_lt (by omega), Nat.add_zero]
  rw [windows, most, tiles]
  apply List.map_congr_left
  intro index member
  have below : (index + 1) * width ≤ count * width :=
    Nat.mul_le_mul_right width (List.mem_range.mp member)
  rw [Nat.min_eq_left below, tile]

end Schedule

namespace Clock

/-- How live play goes on from the last tick: with a tick one width later, or with a pause that begins
there. The clock may be ticked while it is stopped; the tick that ends the pause comes `length` after
its begin. -/
inductive Move where
  | step
  | pause (idle : List Nat) (length : Nat)
  deriving DecidableEq, Repr

def Move.calls (width last : Nat) : Move → List Call
  | step => [.tick (last + width)]
  | pause idle length => .stop last :: (idle.map .tick ++ [.start, .tick (last + length)])

def Move.lastTick (width last : Nat) : Move → Nat
  | step => last + width
  | pause _ length => last + length

def movesFrom (width last : Nat) : List Move → List Call
  | [] => []
  | move :: rest => move.calls width last ++ movesFrom width (move.lastTick width last) rest

def livePlay (origin width : Nat) (moves : List Move) : List Call :=
  .start :: .tick origin :: movesFrom width origin moves

theorem ticks_stopped {clock : Clock} (stopped : clock.state = .stopped) (idle : List Nat) :
    clock.windows (idle.map .tick) = [] ∧ clock.run (idle.map .tick) = clock := by
  induction idle with
  | nil => exact ⟨rfl, rfl⟩
  | cons now rest ih =>
      rw [List.map_cons, windows, run_cons, window?, apply, tick_stopped stopped]
      exact ih

theorem move_step (base last width : Nat) :
    (ticking base last).windows (Move.step.calls width last) =
        [⟨last - base, last + width - base⟩] ∧
      (ticking base last).run (Move.step.calls width last) = ticking base (last + width) :=
  ⟨rfl, rfl⟩

theorem move_pause (base last width : Nat) (idle : List Nat) (length : Nat) :
    (ticking base last).windows ((Move.pause idle length).calls width last) =
        [⟨last - base, last - base⟩] ∧
      (ticking base last).run ((Move.pause idle length).calls width last) =
        ticking (base + length) (last + length) := by
  let paused : Clock := ⟨.stopped, some ⟨base, last⟩, some last⟩
  have stopped : paused.state = .stopped := rfl
  obtain ⟨silent, still⟩ := ticks_stopped stopped idle
  have resumed : paused.start.tick (last + length) =
      (some ⟨last - base, last - base⟩, ticking (base + length) (last + length)) := by
    have marks : paused.start.marksAt (last + length) = ⟨base + length, last + length⟩ := by
      simp [marksAt, start, paused, pause, Marks.shift]
    rw [tick_running rfl, marks]
    simp only [ticking, Nat.add_sub_add_right]
  have windowsAfter : paused.windows [.start, .tick (last + length)] = [⟨last - base, last - base⟩] := by
    change (paused.start.tick (last + length)).1.toList ++ [] = _
    rw [resumed]
    rfl
  have runAfter : paused.run [.start, .tick (last + length)] =
      ticking (base + length) (last + length) := by
    change (paused.start.tick (last + length)).2 = _
    rw [resumed]
  constructor
  · change paused.windows (idle.map .tick ++ [.start, .tick (last + length)]) = _
    rw [windows_append, silent, still, windowsAfter, List.nil_append]
  · change paused.run (idle.map .tick ++ [.start, .tick (last + length)]) = _
    rw [run_append, still, runAfter]

theorem windows_movesFrom {base last width count : Nat} (positive : 1 ≤ width)
    (elapsed : last = base + count * width) (moves : List Move) :
    ((ticking base last).windows (movesFrom width last moves)).filter (!·.isEmpty) =
      (List.range' count (moves.count .step)).map (Schedule.tile width) := by
  induction moves generalizing base last count with
  | nil => rfl
  | cons move rest ih =>
      rw [movesFrom, windows_append]
      cases move with
      | step =>
          obtain ⟨windows, after⟩ := move_step base last width
          have next : last + width = base + (count + 1) * width := by
            rw [elapsed, Nat.succ_mul, Nat.add_assoc]
          have window : (⟨last - base, last + width - base⟩ : Window) =
              Schedule.tile width count := by
            rw [next, elapsed, Nat.add_sub_cancel_left, Nat.add_sub_cancel_left, Schedule.tile]
          rw [windows, after, window, List.singleton_append,
            List.filter_cons_of_pos (by simp [Schedule.isEmpty_tile positive count])]
          rw [Move.lastTick, ih next, List.count_cons_self, List.range'_succ, List.map_cons]
      | pause idle length =>
          obtain ⟨windows, after⟩ := move_pause base last width idle length
          rw [windows, after, List.singleton_append, List.filter_cons_of_neg (by simp [Window.isEmpty])]
          have next : last + length = base + length + count * width := by omega
          rw [Move.lastTick, ih next, List.count_cons_of_ne (by simp)]

theorem windows_livePlay {width : Nat} (positive : 1 ≤ width) (origin : Nat) (moves : List Move) :
    (new.windows (livePlay origin width moves)).filter (!·.isEmpty) =
      (List.range (moves.count .step)).map (Schedule.tile width) := by
  have first : new.windows (livePlay origin width moves) =
      ⟨origin - origin, origin - origin⟩ ::
        (ticking origin origin).windows (movesFrom width origin moves) := rfl
  have zero : origin = origin + 0 * width := by rw [Nat.zero_mul, Nat.add_zero]
  rw [first, List.filter_cons_of_neg (by simp [Window.isEmpty]), windows_movesFrom positive zero moves,
    List.range_eq_range']

end Clock

namespace RuleSet

/-- The notes that a rule set plays when it is polled with windows, and the rule set after that. -/
def perform (rules : RuleSet) (windows : List Window) : List Placement × RuleSet :=
  ((rules.pollAll windows).1.toList.flatMap Schedule.placeAll, (rules.pollAll windows).2)

theorem schedule_eq_perform (rules : RuleSet) (length tick : Nat) :
    schedule rules length tick = rules.perform (Schedule.windows length tick) := rfl

theorem perform_cons (rules : RuleSet) (window : Window) (windows : List Window) :
    rules.perform (window :: windows) =
      ((rules.poll window).1.map (Schedule.place window) ++
        ((rules.poll window).2.perform windows).1, ((rules.poll window).2.perform windows).2) := by
  simp only [perform, pollAll_cons, Array.toList_append, List.flatMap_append, List.flatMap_singleton,
    Schedule.placeAll]

theorem poll_isEmpty (rules : RuleSet) {window : Window} (empty : window.isEmpty = true) :
    rules.poll window = ([], rules) := by
  rw [poll, if_pos empty]

theorem perform_filter (rules : RuleSet) (windows : List Window) :
    rules.perform (windows.filter (!·.isEmpty)) = rules.perform windows := by
  induction windows generalizing rules with
  | nil => rfl
  | cons window rest ih =>
      cases empty : window.isEmpty with
      | true =>
          rw [List.filter_cons_of_neg (by simp [empty]), ih, perform_cons, rules.poll_isEmpty empty]
          rfl
      | false =>
          rw [List.filter_cons_of_pos (by simp [empty]), perform_cons, perform_cons, ih]

/-- Played live at a fixed pace, with any pauses, a rule set sounds the notes of its schedule in the
same order, and its cursors end in the same places. -/
theorem livePlay_agrees_with_schedule (rules : RuleSet) {width : Nat} (positive : 1 ≤ width)
    (origin : Nat) (moves : List Clock.Move) :
    let played := rules.pollAll (Clock.new.windows (Clock.livePlay origin width moves))
    (played.1.toList.flatMap fun (window, events) => events.map fun event =>
        Placement.mk (min (window.stop + event.delay) maxMillis) event.note, played.2) =
      schedule rules (moves.count .step * width) width := by
  intro played
  change rules.perform (Clock.new.windows (Clock.livePlay origin width moves)) = _
  rw [schedule_eq_perform, ← perform_filter, Clock.windows_livePlay positive,
    Schedule.windows_mul positive]

theorem livePlay_agrees_with_schedule_around_pauses :
    let rules : RuleSet :=
      ⟨[.every 3 [⟨.C, .natural⟩, ⟨.E, .natural⟩] .arpeggio, .once 0 [⟨.A, .flat⟩]], 250⟩
    let moves : List Clock.Move :=
      [.pause [] 4, .step, .step, .pause [3, 90] 70, .pause [] 0, .step, .step]
    let windows := Clock.new.windows (Clock.livePlay 5 2 moves)
    let played := rules.pollAll windows
    1 ≤ 2 ∧
      windows = [⟨0, 0⟩, ⟨0, 0⟩, ⟨0, 2⟩, ⟨2, 4⟩, ⟨4, 4⟩, ⟨4, 4⟩, ⟨4, 6⟩, ⟨6, 8⟩] ∧
      (played.1.toList.flatMap fun (window, events) => events.map fun event =>
        Placement.mk (min (window.stop + event.delay) maxMillis) event.note, played.2) =
        schedule rules 8 2 ∧
      (schedule rules 8 2).1 =
        [⟨2, ⟨.A, .flat⟩⟩, ⟨4, ⟨.C, .natural⟩⟩, ⟨6, ⟨.C, .natural⟩⟩, ⟨256, ⟨.E, .natural⟩⟩] := by
  intro rules moves windows played
  exact ⟨by decide, by decide,
    livePlay_agrees_with_schedule rules (by decide) 5 moves, by decide⟩

end RuleSet

end NoteClock
