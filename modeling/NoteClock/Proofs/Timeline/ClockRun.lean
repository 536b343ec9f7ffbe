import NoteClock.Clock
import NoteClock.Proofs.Timeline.Contiguous

/-!
Runs of a clock: calls in any order, at readings of the wall clock that never decrease. Between two
resets the windows that the clock returns are contiguous from zero, and its elapsed time never falls.
-/

namespace NoteClock

namespace Clock

inductive Call where
  | start
  | stop (now : Nat)
  | tick (now : Nat)
  | reset
  | read (now : Nat)
  deriving DecidableEq, Repr

def Call.instant? : Call → Option Nat
  | start | reset => none
  | stop now | tick now | read now => some now

def InOrder (calls : List Call) : Prop := (calls.filterMap Call.instant?).Pairwise (· ≤ ·)

def apply (clock : Clock) : Call → Clock
  | .start => clock.start
  | .stop now => clock.stop now
  | .tick now => (clock.tick now).2
  | .reset => clock.reset
  | .read _ => clock

def run (clock : Clock) (calls : List Call) : Clock := calls.foldl apply clock

def window? (clock : Clock) : Call → Option Window
  | .tick now => (clock.tick now).1
  | _ => none

def reading? (clock : Clock) : Call → Option Nat
  | .read now => some (clock.elapsed now)
  | _ => none

def windows (clock : Clock) : List Call → List Window
  | [] => []
  | call :: rest => (clock.window? call).toList ++ (clock.apply call).windows rest

def readings (clock : Clock) : List Call → List Nat
  | [] => []
  | call :: rest => (clock.reading? call).toList ++ (clock.apply call).readings rest

theorem run_cons (clock : Clock) (call : Call) (rest : List Call) :
    clock.run (call :: rest) = (clock.apply call).run rest := rfl

theorem run_append (clock : Clock) (front back : List Call) :
    clock.run (front ++ back) = (clock.run front).run back := List.foldl_append

theorem windows_append (clock : Clock) (front back : List Call) :
    clock.windows (front ++ back) = clock.windows front ++ (clock.run front).windows back := by
  induction front generalizing clock with
  | nil => rfl
  | cons call rest ih => rw [List.cons_append, windows, ih, windows, run_cons, List.append_assoc]

def Call.latest (before : Nat) (call : Call) : Nat := call.instant?.getD before

/-- The calls are in order, and none is made before the instant `latest`. -/
def InOrderFrom (latest : Nat) (calls : List Call) : Prop :=
  (latest :: calls.filterMap Call.instant?).Pairwise (· ≤ ·)

theorem inOrderFrom_cons {latest : Nat} {call : Call} {rest : List Call}
    (inOrder : InOrderFrom latest (call :: rest)) :
    latest ≤ call.latest latest ∧ InOrderFrom (call.latest latest) rest := by
  unfold InOrderFrom Call.latest at *
  cases instant : call.instant? with
  | none =>
      rw [List.filterMap_cons_none instant] at inOrder
      exact ⟨Nat.le_refl _, inOrder⟩
  | some now =>
      rw [List.filterMap_cons_some instant] at inOrder
      have parts := List.pairwise_cons.mp inOrder
      exact ⟨parts.1 now (by simp), parts.2⟩

/-- The marks and the pending stop of a clock that is asked in order lie in the order of their
making. -/
structure Consistent (clock : Clock) (latest : Nat) : Prop where
  zero_le_last : ∀ marks ∈ clock.marks, marks.zero ≤ marks.last
  last_le : ∀ marks ∈ clock.marks, marks.last ≤ latest
  stopped_le : ∀ instant ∈ clock.stoppedAt, instant ≤ latest
  last_le_stopped : ∀ marks ∈ clock.marks, ∀ instant ∈ clock.stoppedAt, marks.last ≤ instant

theorem consistent_of_fresh {clock : Clock} (latest : Nat) (unmarked : clock.marks = none)
    (unstopped : clock.stoppedAt = none) : clock.Consistent latest := by
  constructor <;> simp [unmarked, unstopped]

theorem Consistent.mono {clock : Clock} {latest now : Nat} (consistent : clock.Consistent latest)
    (le : latest ≤ now) : clock.Consistent now := by
  refine ⟨consistent.zero_le_last, ?_, ?_, consistent.last_le_stopped⟩
  · intro marks member
    exact Nat.le_trans (consistent.last_le marks member) le
  · intro instant member
    exact Nat.le_trans (consistent.stopped_le instant member) le

def covered (clock : Clock) : Nat :=
  match clock.marks with
  | none => 0
  | some marks => marks.last - marks.zero

theorem tick_stopped {clock : Clock} (stopped : clock.state = .stopped) (now : Nat) :
    clock.tick now = (none, clock) := by
  rw [tick, stopped]

theorem tick_running {clock : Clock} (running : clock.state = .running) (now : Nat) :
    clock.tick now =
      (some ⟨(clock.marksAt now).last - (clock.marksAt now).zero, now - (clock.marksAt now).zero⟩,
        ⟨.running, some ⟨(clock.marksAt now).zero, now⟩, none⟩) := by
  rw [tick, running]

def ticking (base last : Nat) : Clock := ⟨.running, some ⟨base, last⟩, none⟩

theorem marks_ticking (base last : Nat) : (ticking base last).marks = some ⟨base, last⟩ := rfl

theorem Consistent.marksAt_le {clock : Clock} {latest now : Nat}
    (consistent : clock.Consistent latest) (le : latest ≤ now) :
    (clock.marksAt now).zero ≤ (clock.marksAt now).last ∧ (clock.marksAt now).last ≤ now := by
  cases marksEq : clock.marks with
  | none => simp [marksAt, marksEq]
  | some marks =>
      have ordered := consistent.zero_le_last marks marksEq
      have last := consistent.last_le marks marksEq
      cases stoppedEq : clock.stoppedAt with
      | none =>
          simp only [marksAt, marksEq, pause, stoppedEq, Marks.shift]
          omega
      | some instant =>
          have stopped := consistent.stopped_le instant stoppedEq
          have before := consistent.last_le_stopped marks marksEq instant stoppedEq
          simp only [marksAt, marksEq, pause, stoppedEq, Marks.shift]
          omega

theorem marksAt_covered (clock : Clock) (now : Nat) :
    (clock.marksAt now).last - (clock.marksAt now).zero = clock.covered := by
  cases marksEq : clock.marks with
  | none => simp [marksAt, covered, marksEq]
  | some marks =>
      simp only [marksAt, covered, marksEq, Marks.shift]
      omega

theorem Consistent.apply {clock : Clock} {latest : Nat} (consistent : clock.Consistent latest)
    (call : Call) (le : latest ≤ call.latest latest) :
    (clock.apply call).Consistent (call.latest latest) := by
  have later := consistent.mono le
  cases call with
  | start => exact ⟨later.1, later.2, later.3, later.4⟩
  | stop now =>
      cases state : clock.state with
      | stopped =>
          have unchanged : clock.apply (.stop now) = clock := by
            simp only [Clock.apply, Clock.stop, state]
          rw [unchanged]
          exact later
      | running =>
          have paused : clock.apply (.stop now) =
              { clock with state := .stopped, stoppedAt := some now } := by
            simp only [Clock.apply, Clock.stop, state]
          rw [paused]
          refine ⟨later.zero_le_last, later.last_le, ?_, ?_⟩
          · rintro instant ⟨⟩
            exact Nat.le_refl _
          · rintro marks member instant ⟨⟩
            exact later.last_le marks member
  | tick now =>
      cases state : clock.state with
      | stopped =>
          have unchanged : clock.apply (.tick now) = clock := by
            simp only [Clock.apply, tick_stopped state]
          rw [unchanged]
          exact later
      | running =>
          have marksLe := consistent.marksAt_le le
          have ticked : clock.apply (.tick now) =
              ⟨.running, some ⟨(clock.marksAt now).zero, now⟩, none⟩ := by
            simp only [Clock.apply, tick_running state]
          rw [ticked]
          refine ⟨?_, ?_, nofun, nofun⟩
          · rintro marks ⟨⟩
            exact Nat.le_trans marksLe.1 marksLe.2
          · rintro marks ⟨⟩
            exact Nat.le_refl _
  | reset => exact consistent_of_fresh _ rfl rfl
  | read now => exact later

theorem Consistent.window?_apply {clock : Clock} {latest : Nat} {call : Call}
    (consistent : clock.Consistent latest) (le : latest ≤ call.latest latest)
    (noReset : call ≠ .reset) :
    (clock.window? call = none ∧ (clock.apply call).covered = clock.covered) ∨
      (clock.window? call = some ⟨clock.covered, (clock.apply call).covered⟩ ∧
        clock.covered ≤ (clock.apply call).covered) := by
  cases call with
  | start => exact Or.inl ⟨rfl, rfl⟩
  | stop now =>
      refine Or.inl ⟨rfl, ?_⟩
      simp only [Clock.apply, Clock.stop]
      split <;> rfl
  | tick now =>
      cases state : clock.state with
      | stopped =>
          left
          simp only [window?, Clock.apply, tick_stopped state, true_and]
      | running =>
          right
          change latest ≤ now at le
          have marksLe := consistent.marksAt_le le
          have before := marksAt_covered clock now
          have after : (clock.apply (.tick now)).covered = now - (clock.marksAt now).zero := by
            simp only [Clock.apply, tick_running state, covered]
          rw [after]
          refine ⟨?_, by omega⟩
          simp only [window?, tick_running state, before]
  | reset => exact absurd rfl noReset
  | read now => exact Or.inl ⟨rfl, rfl⟩

theorem Consistent.windows {clock : Clock} {latest : Nat} {calls : List Call}
    (consistent : clock.Consistent latest) (inOrder : InOrderFrom latest calls)
    (noReset : .reset ∉ calls) :
    Contiguous clock.covered (clock.windows calls) ∧
      endOf clock.covered (clock.windows calls) = (clock.run calls).covered := by
  induction calls generalizing clock latest with
  | nil => exact ⟨Contiguous.nil _, rfl⟩
  | cons call rest ih =>
      obtain ⟨le, restInOrder⟩ := inOrderFrom_cons inOrder
      obtain ⟨different, restNoReset⟩ := List.ne_and_not_mem_of_not_mem_cons noReset
      have tail := ih (consistent.apply call le) restInOrder restNoReset
      rw [Clock.windows, run_cons]
      rcases consistent.window?_apply le (Ne.symm different) with
        ⟨silent, same⟩ | ⟨returned, grown⟩
      · rw [silent, ← same]
        exact tail
      · rw [returned]
        refine ⟨Contiguous.cons grown tail.1, ?_⟩
        exact (endOf_cons _ _ _).trans tail.2

theorem head?_windows {clock : Clock} (unmarked : clock.marks = none) (calls : List Call) :
    ∀ first ∈ (clock.windows calls).head?, first = ⟨0, 0⟩ := by
  induction calls generalizing clock with
  | nil => simp [windows]
  | cons call rest ih =>
      rw [windows]
      cases call with
      | start => exact ih unmarked
      | stop now =>
          apply ih
          simp only [apply, stop]
          split <;> exact unmarked
      | tick now =>
          cases state : clock.state with
          | stopped =>
              simp only [window?, apply, tick_stopped state]
              exact ih unmarked
          | running =>
              simp only [window?, tick_running state, marksAt, unmarked]
              simp
      | reset => exact ih rfl
      | read now => exact ih unmarked

theorem elapsed_mono (clock : Clock) {now later : Nat} (le : now ≤ later) :
    clock.elapsed now ≤ clock.elapsed later := by
  unfold elapsed
  cases clock.marks with
  | none => exact Nat.le_refl _
  | some marks =>
      cases clock.stoppedAt with
      | none => exact Nat.sub_le_sub_right le _
      | some instant => exact Nat.le_refl _

theorem Consistent.elapsed_eq {clock : Clock} {latest now : Nat}
    (consistent : clock.Consistent latest) (le : latest ≤ now) :
    clock.elapsed now = now - (clock.marksAt now).zero := by
  rw [elapsed]
  cases marksEq : clock.marks with
  | none => simp [marksAt, marksEq]
  | some marks =>
      cases stoppedEq : clock.stoppedAt with
      | none => simp [marksAt, marksEq, pause, stoppedEq, Marks.shift]
      | some instant =>
          have stopped := consistent.stopped_le instant stoppedEq
          simp only [marksAt, marksEq, pause, stoppedEq, Marks.shift, Option.getD_some]
          omega

theorem Consistent.floor_apply {clock : Clock} {latest floor : Nat} {call : Call}
    (consistent : clock.Consistent latest) (le : latest ≤ call.latest latest)
    (noReset : call ≠ .reset) (low : ∀ now, latest ≤ now → floor ≤ clock.elapsed now) :
    ∀ now, call.latest latest ≤ now → floor ≤ (clock.apply call).elapsed now := by
  intro later after
  have earlier := low (call.latest latest) le
  have current := low later (Nat.le_trans le after)
  rw [consistent.elapsed_eq le] at earlier
  cases call with
  | start => exact current
  | stop now =>
      change floor ≤ now - (clock.marksAt now).zero at earlier
      cases state : clock.state with
      | stopped => simpa only [Clock.apply, Clock.stop, state] using current
      | running =>
          simp only [Clock.apply, Clock.stop, state, elapsed, Option.getD_some]
          cases marksEq : clock.marks with
          | none => simpa [marksAt, marksEq] using earlier
          | some marks =>
              simp only [marksAt, marksEq, Marks.shift] at earlier
              change floor ≤ now - marks.zero
              omega
  | tick now =>
      change floor ≤ now - (clock.marksAt now).zero at earlier
      change now ≤ later at after
      cases state : clock.state with
      | stopped => simpa only [Clock.apply, tick_stopped state] using current
      | running =>
          simp only [Clock.apply, tick_running state, elapsed, Option.getD_none]
          omega
  | reset => exact absurd rfl noReset
  | read now => exact current

theorem Consistent.readings {clock : Clock} {latest floor : Nat} {calls : List Call}
    (consistent : clock.Consistent latest) (inOrder : InOrderFrom latest calls)
    (noReset : .reset ∉ calls) (low : ∀ now, latest ≤ now → floor ≤ clock.elapsed now) :
    (floor :: clock.readings calls).Pairwise (· ≤ ·) := by
  induction calls generalizing clock latest floor with
  | nil => simp [Clock.readings]
  | cons call rest ih =>
      obtain ⟨le, restInOrder⟩ := inOrderFrom_cons inOrder
      obtain ⟨different, restNoReset⟩ := List.ne_and_not_mem_of_not_mem_cons noReset
      have next := consistent.apply call le
      rw [Clock.readings]
      cases reading : clock.reading? call with
      | none =>
          exact ih next restInOrder restNoReset
            (consistent.floor_apply le (Ne.symm different) low)
      | some value =>
          cases call with
          | read now =>
              obtain rfl : clock.elapsed now = value := Option.some.inj reading
              have first := low now le
              have tail := ih next restInOrder restNoReset fun _ after => clock.elapsed_mono after
              refine List.pairwise_cons.mpr ⟨?_, tail⟩
              intro later member
              rcases List.mem_cons.mp member with rfl | deeper
              · exact first
              · exact Nat.le_trans first ((List.pairwise_cons.mp tail).1 later deeper)
          | _ => simp [reading?] at reading

theorem run_fresh {earlier : List Call} (fresh : earlier = [] ∨ earlier.getLast? = some .reset) :
    (new.run earlier).marks = none ∧ (new.run earlier).stoppedAt = none := by
  rcases fresh with rfl | last
  · exact ⟨rfl, rfl⟩
  · obtain ⟨front, rfl⟩ := List.getLast?_eq_some_iff.mp last
    rw [run_append]
    exact ⟨rfl, rfl⟩

theorem inOrderFrom_zero {calls : List Call} (inOrder : InOrder calls) : InOrderFrom 0 calls :=
  List.pairwise_cons.mpr ⟨fun _ _ => Nat.zero_le _, inOrder⟩

theorem Consistent.run {clock : Clock} {latest now : Nat} {calls : List Call}
    (consistent : clock.Consistent latest) (inOrder : InOrderFrom latest (calls ++ [.tick now])) :
    (clock.run calls).Consistent now := by
  induction calls generalizing clock latest with
  | nil => exact consistent.mono (inOrderFrom_cons inOrder).1
  | cons call rest ih =>
      obtain ⟨le, restInOrder⟩ := inOrderFrom_cons inOrder
      exact ih (consistent.apply call le) restInOrder

theorem consistent_run_new {calls : List Call} {now : Nat} (inOrder : InOrder (calls ++ [.tick now])) :
    (new.run calls).Consistent now :=
  (consistent_of_fresh 0 rfl rfl).run (inOrderFrom_zero inOrder)

theorem inOrder_of_append {front back : List Call} (inOrder : InOrder (front ++ back)) :
    InOrder back := by
  rw [InOrder, List.filterMap_append] at inOrder
  exact (List.pairwise_append.mp inOrder).2.1

theorem covered_of_unmarked {clock : Clock} (unmarked : clock.marks = none) : clock.covered = 0 := by
  rw [covered, unmarked]

/-- Between two resets, or before the first one, the windows of a clock are contiguous from zero, each
ends at the elapsed time of its tick, and elapsed time never falls. A clock ticks unless it is
stopped. -/
theorem windows_contiguous_between_resets (earlier calls : List Call)
    (inOrder : InOrder (earlier ++ calls))
    (fresh : earlier = [] ∨ earlier.getLast? = some .reset) (noReset : .reset ∉ calls) :
    (∀ first ∈ ((new.run earlier).windows calls).head?, first = ⟨0, 0⟩) ∧
      Contiguous 0 ((new.run earlier).windows calls) ∧
      (∀ now window next, (new.run (earlier ++ calls)).tick now = (some window, next) →
        next.elapsed now = window.stop) ∧
      ((new.run earlier).readings calls).Pairwise (· ≤ ·) ∧
      (∀ now, (new.run (earlier ++ calls)).state = .stopped →
        (new.run (earlier ++ calls)).tick now = (none, new.run (earlier ++ calls))) ∧
      ∀ now, (new.run (earlier ++ calls)).state = .running →
        ((new.run (earlier ++ calls)).tick now).1.isSome = true := by
  obtain ⟨unmarked, unstopped⟩ := run_fresh fresh
  have consistent := consistent_of_fresh 0 unmarked unstopped
  have inOrderFrom := inOrderFrom_zero (inOrder_of_append inOrder)
  refine ⟨head?_windows unmarked calls, ?_, ?_, ?_, fun now stopped => tick_stopped stopped now, ?_⟩
  · have windows := (consistent.windows inOrderFrom noReset).1
    rwa [covered_of_unmarked unmarked] at windows
  · intro now window next ticked
    cases state : (new.run (earlier ++ calls)).state with
    | stopped =>
        rw [tick_stopped state] at ticked
        simp at ticked
    | running =>
        rw [tick_running state] at ticked
        simp only [Prod.mk.injEq, Option.some.injEq] at ticked
        obtain ⟨rfl, rfl⟩ := ticked
        rfl
  · have readings := consistent.readings inOrderFrom noReset fun _ _ => Nat.zero_le _
    exact (List.pairwise_cons.mp readings).2
  · intro now running
    rw [tick_running running]
    rfl

theorem windows_contiguous_around_a_pause :
    let earlier : List Call := [.start, .tick 5, .tick 9, .reset]
    let calls : List Call :=
      [.tick 10, .read 14, .stop 16, .tick 20, .start, .read 25, .tick 30, .read 33]
    (InOrder (earlier ++ calls) ∧ earlier.getLast? = some .reset ∧ .reset ∉ calls) ∧
      (new.run earlier).windows calls = [⟨0, 0⟩, ⟨0, 6⟩] ∧
      (new.run earlier).readings calls = [4, 6, 9] ∧
      Contiguous 0 ((new.run earlier).windows calls) ∧
      ((new.run earlier).readings calls).Pairwise (· ≤ ·) := by
  have inOrder : InOrder [.start, .tick 5, .tick 9, .reset, .tick 10, .read 14, .stop 16, .tick 20,
      .start, .read 25, .tick 30, .read 33] := by
    unfold InOrder
    decide
  have result := windows_contiguous_between_resets [.start, .tick 5, .tick 9, .reset]
    [.tick 10, .read 14, .stop 16, .tick 20, .start, .read 25, .tick 30, .read 33]
    inOrder (Or.inr rfl) (by decide)
  exact ⟨⟨inOrder, rfl, by decide⟩, by decide, by decide, result.2.1, result.2.2.2.1⟩

end Clock

end NoteClock
