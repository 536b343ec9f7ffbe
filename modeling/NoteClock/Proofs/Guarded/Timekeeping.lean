import NoteClock.Proofs.Guarded.Operation
import NoteClock.Proofs.Timeline.ClockRun

/-!
A clock with all its arithmetic guarded. A sum past the end of the timeline is trapped, and so is a
difference below zero. Of a clock that is asked in order the readings stay in the order of their making,
and neither of the two ever happens.
-/

namespace NoteClock

namespace Clock

def latestOf (before : Nat) (calls : List Call) : Nat := calls.foldl Call.latest before

theorem Consistent.runTo {clock : Clock} {latest : Nat} {calls : List Call}
    (consistent : clock.Consistent latest) (inOrder : InOrderFrom latest calls) :
    (clock.run calls).Consistent (latestOf latest calls) := by
  induction calls generalizing clock latest with
  | nil => exact consistent
  | cons call rest ih =>
      obtain ⟨le, restInOrder⟩ := inOrderFrom_cons inOrder
      exact ih (consistent.apply call le) restInOrder

theorem Consistent.add_pause_le {clock : Clock} {latest now : Nat} {marks : Marks}
    (consistent : clock.Consistent latest) (le : latest ≤ now) (marked : clock.marks = some marks) :
    marks.zero + clock.pause now ≤ now ∧ marks.last + clock.pause now ≤ now := by
  have moved : clock.marksAt now = marks.shift (clock.pause now) := by rw [marksAt, marked]
  have marksLe := consistent.marksAt_le le
  rw [moved] at marksLe
  exact ⟨Nat.le_trans marksLe.1 marksLe.2, marksLe.2⟩

end Clock

namespace Guarded

variable {ε : Type}

def sum (first second : Nat) : Guarded ε Nat :=
  if first + second ≤ maxMillis then .ok (first + second) else trap .pastEnd

theorem sum_of_le {first second : Nat} (le : first + second ≤ maxMillis) :
    (sum first second : Guarded ε Nat) = .ok (first + second) := by
  rw [sum, if_pos le]

def pause (clock : Clock) (now : Nat) : Guarded ε Nat :=
  match clock.stoppedAt with
  | none => return 0
  | some instant => difference now instant

/-- Without marks there is nothing to move on, but the pause is measured all the same. -/
def marksAt (clock : Clock) (now : Nat) : Guarded ε Marks := do
  let pause ← pause clock now
  match clock.marks with
  | none => return ⟨now, now⟩
  | some marks => return ⟨← sum marks.zero pause, ← sum marks.last pause⟩

def tick (clock : Clock) (now : Nat) : Guarded ε (Option Window × Clock) :=
  match clock.state with
  | .stopped => return (none, clock)
  | .running => do
      let marks ← marksAt clock now
      let start ← difference marks.last marks.zero
      let stop ← difference now marks.zero
      return (some ⟨start, stop⟩, ⟨.running, some ⟨marks.zero, now⟩, none⟩)

def elapsed (clock : Clock) (now : Nat) : Guarded ε Nat :=
  match clock.marks with
  | none => return 0
  | some marks => difference (clock.stoppedAt.getD now) marks.zero

def ask (clock : Clock) : Clock.Call → Guarded ε Clock
  | .start => return clock.start
  | .stop now => return clock.stop now
  | .tick now => do
      let (_, next) ← tick clock now
      return next
  | .reset => return clock.reset
  | .read now => do
      let _ ← elapsed clock now
      return clock

def askAll (clock : Clock) (calls : List Clock.Call) : Guarded ε Clock := calls.foldlM ask clock

section Consistent

variable {clock : Clock} {latest now : Nat} (consistent : clock.Consistent latest) (le : latest ≤ now)

include consistent le

theorem pause_eq : (pause clock now : Guarded ε Nat) = .ok (clock.pause now) := by
  rw [pause, Clock.pause]
  cases pending : clock.stoppedAt with
  | none => rfl
  | some instant =>
      exact difference_of_le (Nat.le_trans (consistent.stopped_le instant pending) le)

theorem marksAt_eq (bounded : now ≤ maxMillis) :
    (marksAt clock now : Guarded ε Marks) = .ok (clock.marksAt now) := by
  rw [marksAt, pause_eq consistent le, Clock.marksAt]
  cases marked : clock.marks with
  | none => rfl
  | some marks =>
      obtain ⟨zeroLe, lastLe⟩ := consistent.add_pause_le le marked
      simp only [bind, Except.bind, sum_of_le (Nat.le_trans zeroLe bounded),
        sum_of_le (Nat.le_trans lastLe bounded)]
      rfl

theorem tick_eq (bounded : now ≤ maxMillis) :
    (tick clock now : Guarded ε _) = .ok (clock.tick now) := by
  rw [tick, Clock.tick]
  cases clock.state with
  | stopped => rfl
  | running =>
      obtain ⟨ordered, before⟩ := consistent.marksAt_le le
      simp only [marksAt_eq consistent le bounded, bind, Except.bind, difference_of_le ordered,
        difference_of_le (Nat.le_trans ordered before)]
      rfl

theorem elapsed_eq : (elapsed clock now : Guarded ε Nat) = .ok (clock.elapsed now) := by
  rw [elapsed, Clock.elapsed]
  cases marked : clock.marks with
  | none => rfl
  | some marks =>
      have ordered := consistent.zero_le_last marks marked
      apply difference_of_le
      cases pending : clock.stoppedAt with
      | none => exact Nat.le_trans ordered (Nat.le_trans (consistent.last_le marks marked) le)
      | some instant =>
          exact Nat.le_trans ordered (consistent.last_le_stopped marks marked instant pending)

end Consistent

theorem ask_eq {clock : Clock} {latest : Nat} (consistent : clock.Consistent latest)
    {call : Clock.Call} (le : latest ≤ call.latest latest)
    (bounded : ∀ now ∈ call.instant?, now ≤ maxMillis) :
    (ask clock call : Guarded ε Clock) = .ok (clock.apply call) := by
  cases call with
  | start => rfl
  | stop now => rfl
  | tick now =>
      change latest ≤ now at le
      rw [ask, tick_eq consistent le (bounded now rfl)]
      rfl
  | reset => rfl
  | read now =>
      change latest ≤ now at le
      rw [ask, elapsed_eq consistent le]
      rfl

theorem askAll_eq {clock : Clock} {latest : Nat} {calls : List Clock.Call}
    (consistent : clock.Consistent latest) (inOrder : Clock.InOrderFrom latest calls)
    (bounded : ∀ call ∈ calls, ∀ now ∈ call.instant?, now ≤ maxMillis) :
    (askAll clock calls : Guarded ε Clock) = .ok (clock.run calls) := by
  induction calls generalizing clock latest with
  | nil => rfl
  | cons call rest ih =>
      obtain ⟨le, restInOrder⟩ := Clock.inOrderFrom_cons inOrder
      obtain ⟨first, others⟩ := List.forall_mem_cons.mp bounded
      rw [askAll, List.foldlM_cons, ask_eq consistent le first]
      exact ih (consistent.apply call le) restInOrder others

/-- However a new clock is asked, at instants of the timeline that never decrease, its zero mark lies
no later than the mark of its last tick, that one no later than a stop still pending, and all of them no
later than the latest instant. The marks that a tick moves on stay at or before the tick. So no sum
passes the end of the timeline, and no difference is cut off at zero. -/
theorem timekeeping_is_never_trapped (calls : List Clock.Call) (inOrder : Clock.InOrder calls)
    (bounded : ∀ call ∈ calls, ∀ now ∈ call.instant?, now ≤ maxMillis) :
    let clock := Clock.new.run calls
    let latest := Clock.latestOf 0 calls
    (askAll Clock.new calls : Guarded Empty Clock) = .ok clock ∧
      (∀ marks ∈ clock.marks, marks.zero ≤ marks.last ∧ marks.last ≤ latest ∧
        ∀ instant ∈ clock.stoppedAt, marks.last ≤ instant) ∧
      (∀ instant ∈ clock.stoppedAt, instant ≤ latest) ∧
      ∀ now, latest ≤ now → now ≤ maxMillis →
        (∀ marks ∈ clock.marks,
          marks.zero + clock.pause now ≤ now ∧ marks.last + clock.pause now ≤ now) ∧
        (tick clock now : Guarded Empty _) = .ok (clock.tick now) ∧
        (elapsed clock now : Guarded Empty _) = .ok (clock.elapsed now) := by
  intro clock latest
  have fresh : Clock.new.Consistent 0 := Clock.consistent_of_fresh 0 rfl rfl
  have inOrderFrom := Clock.inOrderFrom_zero inOrder
  have consistent : clock.Consistent latest := fresh.runTo inOrderFrom
  refine ⟨askAll_eq fresh inOrderFrom bounded, ?_, consistent.stopped_le, ?_⟩
  · intro marks marked
    exact ⟨consistent.zero_le_last marks marked, consistent.last_le marks marked,
      consistent.last_le_stopped marks marked⟩
  · intro now le inside
    exact ⟨fun marks marked => consistent.add_pause_le le marked, tick_eq consistent le inside,
      elapsed_eq consistent le⟩

example : (askAll Clock.new [.start, .tick 5, .stop 9, .start, .tick 3] : Guarded Empty Clock) =
    trap .belowZero := rfl

theorem timekeeping_is_never_trapped_up_to_the_end_of_time :
    let calls : List Clock.Call := [.stop 1, .start, .stop 2, .tick 3, .start, .tick 5, .tick 9,
      .stop 9, .start, .stop 12, .tick 13, .start, .tick 20, .read 25, .stop 30, .start, .stop 40,
      .start]
    let clock := Clock.new.run calls
    let last := 18446744073709551615
    (Clock.InOrder calls ∧ (∀ call ∈ calls, ∀ now ∈ call.instant?, now ≤ maxMillis) ∧
        Clock.latestOf 0 calls ≤ last ∧ last ≤ maxMillis) ∧
      clock = ⟨.running, some ⟨13, 20⟩, some 40⟩ ∧
      (askAll Clock.new calls : Guarded Empty Clock) = .ok clock ∧
      (13 + clock.pause last ≤ last ∧ 20 + clock.pause last ≤ last) ∧
      (tick clock last : Guarded Empty _) = .ok (clock.tick last) ∧
      (elapsed clock last : Guarded Empty _) = .ok (clock.elapsed last) := by
  intro calls clock last
  have inOrder : Clock.InOrder calls := by
    unfold Clock.InOrder
    decide
  have bounded : ∀ call ∈ calls, ∀ now ∈ call.instant?, now ≤ maxMillis := by decide
  have reached : clock = ⟨.running, some ⟨13, 20⟩, some 40⟩ := by decide
  obtain ⟨run, _, _, ticks⟩ := timekeeping_is_never_trapped calls inOrder bounded
  obtain ⟨sums, ticked, read⟩ := ticks last (by decide) (by decide)
  exact ⟨⟨inOrder, bounded, by decide, by decide⟩, reached, run,
    sums ⟨13, 20⟩ (congrArg Clock.marks reached), ticked, read⟩

end Guarded

end NoteClock
