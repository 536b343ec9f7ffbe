import Mathlib.Algebra.GroupWithZero.Nat
import Mathlib.Data.List.Chain
import NoteClock.Proofs.Timeline.ClockRun

/-!
Pauses of a clock. Elapsed time stands still from the latest stop to the tick that resumes it, and a
run of pauses, with ticks between them, moves the timeline on by exactly their lengths.
-/

namespace NoteClock

namespace Clock

/-- What a clock heeds: a start while it is stopped, a stop or a tick while it runs. -/
inductive Effect where
  | started
  | stopped (instant : Nat)
  | ticked (instant : Nat)
  deriving DecidableEq, Repr

def Effect.stop? : Effect → Option Nat
  | stopped instant => some instant
  | started | ticked _ => none

def Effect.tick? : Effect → Option Nat
  | ticked instant => some instant
  | started | stopped _ => none

def effect? (clock : Clock) (call : Call) : Option Effect :=
  match clock.state, call with
  | .stopped, .start => some .started
  | .running, .stop now => some (.stopped now)
  | .running, .tick now => some (.ticked now)
  | _, _ => none

def effects (clock : Clock) : List Call → List Effect
  | [] => []
  | call :: rest => (clock.effect? call).toList ++ (clock.apply call).effects rest

def firstTick? (effects : List Effect) : Option Nat := effects.findSome? Effect.tick?

def lastStop? (effects : List Effect) : Option Nat := (effects.filterMap Effect.stop?).getLast?

def sinceFirstTick (effects : List Effect) : List Effect := effects.dropWhile (·.tick?.isNone)

/-- Nothing but ticks can be heeded between a start and the next stop. Here there is one at least. -/
def Paced (effects : List Effect) : Prop :=
  effects.IsChain fun before effect => before = .started → effect.stop? = none

/-- The stops that a tick follows, each with the first such tick. -/
def pauses : List Effect → List (Nat × Nat)
  | [] => []
  | .stopped instant :: rest => ((firstTick? rest).map (instant, ·)).toList ++ pauses rest
  | .started :: rest | .ticked _ :: rest => pauses rest

def pausedTime (effects : List Effect) : Nat :=
  ((pauses effects).map fun (stopped, resumed) => resumed - stopped).sum

theorem apply_cases (clock : Clock) {call : Call} (noReset : call ≠ .reset) :
    (clock.effect? call = none ∧ clock.apply call = clock) ∨
      (clock.effect? call = some .started ∧ clock.state = .stopped ∧
        clock.apply call = { clock with state := .running }) ∨
      (∃ now, clock.effect? call = some (.stopped now) ∧ clock.state = .running ∧
        clock.apply call = { clock with state := .stopped, stoppedAt := some now }) ∨
      ∃ now, clock.effect? call = some (.ticked now) ∧ clock.state = .running ∧
        clock.apply call = ticking (clock.marksAt now).zero now := by
  cases state : clock.state with
  | stopped =>
      cases call with
      | start => simp [effect?, state, apply, start]
      | stop now => simp [effect?, state, apply, stop]
      | tick now => simp [effect?, state, apply, tick]
      | reset => exact absurd rfl noReset
      | read now => simp [effect?, state, apply]
  | running =>
      cases call with
      | start =>
          left
          refine ⟨by simp [effect?, state], ?_⟩
          rw [apply, start, ← state]
      | stop now => simp [effect?, state, apply, stop]
      | tick now => simp [effect?, state, apply, tick_running state, ticking]
      | reset => exact absurd rfl noReset
      | read now => simp [effect?, state, apply]

inductive Heeds : Clock → List Effect → Clock → Prop
  | nil (clock : Clock) : Heeds clock [] clock
  | start {clock final : Clock} {effects : List Effect} : clock.state = .stopped →
      Heeds { clock with state := .running } effects final → Heeds clock (.started :: effects) final
  | stop {clock final : Clock} {effects : List Effect} {now : Nat} : clock.state = .running →
      Heeds { clock with state := .stopped, stoppedAt := some now } effects final →
      Heeds clock (.stopped now :: effects) final
  | tick {clock final : Clock} {effects : List Effect} {now : Nat} : clock.state = .running →
      Heeds (ticking (clock.marksAt now).zero now) effects final →
      Heeds clock (.ticked now :: effects) final

theorem heeds_run (clock : Clock) {calls : List Call} (noReset : .reset ∉ calls) :
    Heeds clock (clock.effects calls) (clock.run calls) := by
  induction calls generalizing clock with
  | nil => exact Heeds.nil clock
  | cons call rest ih =>
      obtain ⟨different, restNoReset⟩ := List.ne_and_not_mem_of_not_mem_cons noReset
      have tail := ih (clock.apply call) restNoReset
      rw [run_cons, effects]
      rcases clock.apply_cases (Ne.symm different) with ⟨effect, after⟩ | ⟨effect, state, after⟩ |
        ⟨now, effect, state, after⟩ | ⟨now, effect, state, after⟩
      · rw [after] at tail ⊢
        rw [effect]
        exact tail
      · rw [after] at tail ⊢
        rw [effect]
        exact Heeds.start state tail
      · rw [after] at tail ⊢
        rw [effect]
        exact Heeds.stop state tail
      · rw [after] at tail ⊢
        rw [effect]
        exact Heeds.tick state tail

theorem lastStop?_stopped (instant : Nat) (effects : List Effect) :
    lastStop? (.stopped instant :: effects) = some ((lastStop? effects).getD instant) := by
  have stop : (Effect.stopped instant).stop? = some instant := rfl
  rw [lastStop?, List.filterMap_cons_some stop, List.getLast?_cons, lastStop?]

theorem Heeds.pending {clock final : Clock} {effects : List Effect} {marks : Marks} {instant : Nat}
    (heeds : Heeds clock effects final) (marked : clock.marks = some marks)
    (pending : clock.stoppedAt = some instant) (noTick : firstTick? effects = none) :
    final.marks = some marks ∧ final.stoppedAt = some ((lastStop? effects).getD instant) := by
  induction heeds generalizing instant with
  | nil clock => exact ⟨marked, pending⟩
  | start _ _ ih => exact ih marked pending noTick
  | stop _ _ ih =>
      rw [lastStop?_stopped]
      exact ih marked rfl noTick
  | tick _ _ _ => simp [firstTick?, Effect.tick?] at noTick

theorem elapsed_of_pending {clock : Clock} {marks : Marks} {instant : Nat}
    (marked : clock.marks = some marks) (pending : clock.stoppedAt = some instant) (now : Nat) :
    clock.elapsed now = instant - marks.zero := by
  rw [elapsed, marked, pending, Option.getD_some]

theorem Consistent.tick_resumes {clock : Clock} {marks : Marks} {instant now : Nat}
    (consistent : clock.Consistent now) (running : clock.state = .running)
    (marked : clock.marks = some marks) (pending : clock.stoppedAt = some instant) :
    ∃ window next, clock.tick now = (some window, next) ∧ window.stop = instant - marks.zero ∧
      ∀ later, now ≤ later → next.elapsed later = instant - marks.zero + (later - now) := by
  have ordered := consistent.zero_le_last marks marked
  have stopped := consistent.stopped_le instant pending
  have before := consistent.last_le_stopped marks marked instant pending
  have zero : (clock.marksAt now).zero = marks.zero + (now - instant) := by
    simp only [marksAt, marked, pause, pending, Marks.shift]
  refine ⟨_, _, tick_running running now, ?_, ?_⟩
  · change now - (clock.marksAt now).zero = instant - marks.zero
    omega
  · intro later le
    simp only [elapsed, zero, Option.getD_none]
    omega

/-- After a stop, elapsed time stands still at the latest stop that the clock has heeded, and the next
tick that it heeds goes on from there. -/
theorem elapsed_stands_still_at_latest_stop (earlier later : List Call) (instant : Nat)
    (running : (new.run earlier).state = .running) (marked : (new.run earlier).marks.isSome = true)
    (noTick : firstTick? (((new.run earlier).stop instant).effects later) = none)
    (noReset : .reset ∉ later) :
    let clock := new.run earlier
    let laterStop := lastStop? ((clock.stop instant).effects later)
    let held := laterStop.getD instant
    let frozen := (clock.stop held).elapsed held
    let paused := new.run (earlier ++ .stop instant :: later)
    (laterStop = none → frozen = (clock.stop instant).elapsed instant) ∧
      (∀ now, paused.elapsed now = frozen) ∧
      ∀ now, InOrder (earlier ++ .stop instant :: later ++ [.tick now]) → paused.state = .running →
        ∃ window next, paused.tick now = (some window, next) ∧ window.stop = frozen ∧
          ∀ reading, now ≤ reading → next.elapsed reading = frozen + (reading - now) := by
  intro clock laterStop held frozen paused
  obtain ⟨marks, marked⟩ := Option.isSome_iff_exists.mp marked
  have stopped : ∀ now, clock.stop now = { clock with state := .stopped, stoppedAt := some now } := by
    intro now
    rw [stop, running]
  have markedAt : ∀ now, (clock.stop now).marks = some marks := by
    intro now
    rw [stopped, marked]
  have pendingAt : ∀ now, (clock.stop now).stoppedAt = some now := by
    intro now
    rw [stopped]
  have still := (heeds_run (clock.stop instant) noReset).pending (markedAt instant)
    (pendingAt instant) noTick
  have atStop : frozen = held - marks.zero :=
    elapsed_of_pending (markedAt held) (pendingAt held) held
  have same : (clock.stop instant).run later = paused := by
    rw [show paused = _ from run_append _ _ _]
    rfl
  rw [same] at still
  refine ⟨?_, ?_, ?_⟩
  · intro noStop
    simp only [frozen, held, noStop, Option.getD_none]
  · intro now
    rw [elapsed_of_pending still.1 still.2, atStop]
  · intro now inOrder resumed
    rw [atStop]
    exact (consistent_run_new inOrder).tick_resumes resumed still.1 still.2

theorem elapsed_stands_still_at_latest_stop_through_starts :
    let earlier : List Call := [.start, .tick 5, .tick 9]
    let later : List Call := [.tick 14, .stop 15, .start, .start]
    let paused := new.run (earlier ++ .stop 12 :: later)
    ((new.run earlier).state = .running ∧ (new.run earlier).marks.isSome = true ∧
        firstTick? (((new.run earlier).stop 12).effects later) = none ∧ .reset ∉ later ∧
        InOrder (earlier ++ .stop 12 :: later ++ [.tick 20]) ∧ paused.state = .running) ∧
      (∀ now, paused.elapsed now = 7) ∧
      ∃ window next, paused.tick 20 = (some window, next) ∧ window.stop = 7 ∧
        ∀ reading, 20 ≤ reading → next.elapsed reading = 7 + (reading - 20) := by
  intro earlier later paused
  have inOrder : InOrder (earlier ++ .stop 12 :: later ++ [.tick 20]) := by
    unfold InOrder
    decide
  have result := elapsed_stands_still_at_latest_stop earlier later 12 (by decide) (by decide)
    (by decide) (by decide)
  exact ⟨⟨by decide, by decide, by decide, by decide, inOrder, by decide⟩, result.2.1,
    result.2.2 20 inOrder (by decide)⟩

/-- A stop that is heeded before the clock has ticked again takes the place of the one before it, and
the time between them counts as elapsed. -/
theorem elapsed_not_frozen_by_first_stop :
    ¬ ∀ (earlier later : List Call) (instant : Nat), InOrder (earlier ++ .stop instant :: later) →
      (new.run earlier).state = .running → (new.run earlier).marks.isSome = true →
      firstTick? (((new.run earlier).stop instant).effects later) = none → .reset ∉ later →
      ∀ now, (new.run (earlier ++ .stop instant :: later)).elapsed now =
        ((new.run earlier).stop instant).elapsed instant := by
  intro frozen
  have inOrder : InOrder [.start, .tick 0, .stop 100, .start, .stop 900] := by
    unfold InOrder
    decide
  have same := frozen [.start, .tick 0] [.start, .stop 900] 100 inOrder rfl rfl rfl (by decide) 950
  exact absurd same (by decide)

def openPause (clock : Clock) : List Effect :=
  match clock.stoppedAt, clock.state with
  | none, _ => []
  | some instant, .stopped => [.stopped instant]
  | some instant, .running => [.stopped instant, .started]

theorem pausedTime_openPause (clock : Clock) : pausedTime clock.openPause = 0 := by
  rw [openPause]
  split <;> rfl

theorem Paced.tail {effect : Effect} {effects : List Effect} (paced : Paced (effect :: effects)) :
    Paced effects := List.IsChain.tail paced

theorem openPause_start {clock : Clock} (state : clock.state = .stopped) {effects : List Effect}
    (paced : Paced (clock.openPause ++ .started :: effects)) :
    Paced (openPause { clock with state := .running } ++ effects) ∧
      pausedTime (openPause { clock with state := .running } ++ effects) =
        pausedTime (clock.openPause ++ .started :: effects) := by
  cases pending : clock.stoppedAt with
  | none =>
      simp only [openPause, pending, List.nil_append] at paced ⊢
      exact ⟨paced.tail, rfl⟩
  | some instant =>
      simp only [openPause, pending, state] at paced ⊢
      exact ⟨paced, rfl⟩

theorem openPause_stop {clock : Clock} (state : clock.state = .running) {now : Nat}
    {effects : List Effect} (paced : Paced (clock.openPause ++ .stopped now :: effects)) :
    openPause { clock with state := .stopped, stoppedAt := some now } ++ effects =
      clock.openPause ++ .stopped now :: effects := by
  cases pending : clock.stoppedAt with
  | none => simp only [openPause, pending, List.nil_append, List.singleton_append]
  | some instant =>
      simp only [openPause, pending, state] at paced
      have chain := List.isChain_cons_cons.mp paced.tail
      exact absurd (chain.1 rfl) (by simp [Effect.stop?])

theorem openPause_tick {clock : Clock} {marks : Marks} (state : clock.state = .running)
    (marked : clock.marks = some marks) {now : Nat} {effects : List Effect}
    (paced : Paced (clock.openPause ++ .ticked now :: effects)) :
    Paced effects ∧
      (clock.marksAt now).zero + pausedTime effects =
        marks.zero + pausedTime (clock.openPause ++ .ticked now :: effects) := by
  cases pending : clock.stoppedAt with
  | none =>
      simp only [openPause, pending, List.nil_append] at paced ⊢
      refine ⟨paced.tail, ?_⟩
      simp only [marksAt, marked, pause, pending, Marks.shift, Nat.add_zero]
      rfl
  | some instant =>
      simp only [openPause, pending, state] at paced ⊢
      refine ⟨paced.tail.tail.tail, ?_⟩
      have ended : pausedTime ([.stopped instant, .started] ++ .ticked now :: effects) =
          (now - instant) + pausedTime effects := rfl
      rw [ended]
      simp only [marksAt, marked, pause, pending, Marks.shift]
      omega

theorem Heeds.zero {clock final : Clock} {effects : List Effect} {marks : Marks}
    (heeds : Heeds clock effects final) (marked : clock.marks = some marks)
    (paced : Paced (clock.openPause ++ effects)) :
    ∃ reached, final.marks = some reached ∧
      reached.zero = marks.zero + pausedTime (clock.openPause ++ effects) := by
  induction heeds generalizing marks with
  | nil clock =>
      refine ⟨marks, marked, ?_⟩
      rw [List.append_nil, pausedTime_openPause, Nat.add_zero]
  | start state _ ih =>
      obtain ⟨stillPaced, same⟩ := openPause_start state paced
      rw [← same]
      exact ih marked stillPaced
  | stop state _ ih =>
      have same := openPause_stop state paced
      rw [← same] at paced ⊢
      exact ih marked paced
  | tick state _ ih =>
      obtain ⟨stillPaced, moved⟩ := openPause_tick state marked paced
      rw [← moved]
      have tail := ih (marks_ticking _ _) stillPaced
      exact tail

theorem Heeds.unmarked {clock final : Clock} {effects : List Effect}
    (heeds : Heeds clock effects final) (unmarked : clock.marks = none) :
    final.marks = none ∨
      ∃ first later, firstTick? effects = some first ∧
        sinceFirstTick effects = .ticked first :: later ∧
        Heeds (ticking first first) later final := by
  induction heeds with
  | nil clock => exact Or.inl unmarked
  | start _ _ ih => exact ih unmarked
  | stop _ _ ih => exact ih unmarked
  | @tick clock final effects now _ tail _ =>
      have zero : (clock.marksAt now).zero = now := by rw [marksAt, unmarked]
      rw [zero] at tail
      exact Or.inr ⟨now, effects, rfl, rfl, tail⟩

theorem zero_run_new {calls : List Call} {marks : Marks} (marked : (new.run calls).marks = some marks)
    (noReset : .reset ∉ calls) (paced : Paced (sinceFirstTick (new.effects calls))) :
    ∃ first, firstTick? (new.effects calls) = some first ∧
      marks.zero = first + pausedTime (sinceFirstTick (new.effects calls)) := by
  rcases (heeds_run new noReset).unmarked rfl with unmarked | ⟨first, later, found, since, heeds⟩
  · rw [unmarked] at marked
    exact absurd marked (by simp)
  · rw [since] at paced ⊢
    obtain ⟨reached, reachedMarked, zero⟩ := heeds.zero (marks_ticking first first) paced.tail
    obtain rfl : reached = marks := Option.some.inj (reachedMarked.symm.trans marked)
    exact ⟨first, found, zero⟩

/-- In a run with ticks between its pauses, every window ends at the time since the first tick, less
the lengths of the pauses that have ended. -/
theorem window_stop_add_pausedTime (calls : List Call) (now : Nat)
    (inOrder : InOrder (calls ++ [.tick now])) (noReset : .reset ∉ calls)
    (paced : Paced (sinceFirstTick (new.effects (calls ++ [.tick now])))) :
    ∀ window, (new.run calls).window? (.tick now) = some window →
      ∃ first, firstTick? (new.effects (calls ++ [.tick now])) = some first ∧
        window.stop + first + pausedTime (sinceFirstTick (new.effects (calls ++ [.tick now]))) =
          now := by
  intro window returned
  have marksLe := (consistent_run_new inOrder).marksAt_le (Nat.le_refl now)
  have running : (new.run calls).state = .running := by
    cases state : (new.run calls).state with
    | stopped => simp [window?, tick_stopped state] at returned
    | running => rfl
  have ticked : (new.run (calls ++ [.tick now])).marks =
      some ⟨((new.run calls).marksAt now).zero, now⟩ := by
    rw [run_append, run_cons, apply, tick_running running]
    rfl
  obtain ⟨first, found, zero⟩ := zero_run_new ticked (by simpa using noReset) paced
  refine ⟨first, found, ?_⟩
  rw [window?, tick_running running] at returned
  obtain rfl := Option.some.inj returned
  simp only at zero ⊢
  omega

theorem window_stop_add_pausedTime_after_two_pauses :
    let calls : List Call := [.stop 1, .start, .stop 2, .start, .tick 10, .start, .tick 13, .stop 14,
      .tick 15, .stop 17, .start, .start, .tick 20, .stop 23, .start]
    let effects := new.effects (calls ++ [.tick 25])
    (InOrder (calls ++ [.tick 25]) ∧ .reset ∉ calls ∧ Paced (sinceFirstTick effects)) ∧
      (new.run calls).window? (.tick 25) = some ⟨4, 7⟩ ∧
      pauses (sinceFirstTick effects) = [(14, 20), (23, 25)] ∧
      ∃ first, firstTick? effects = some first ∧
        7 + first + pausedTime (sinceFirstTick effects) = 25 := by
  intro calls effects
  have inOrder : InOrder (calls ++ [.tick 25]) := by
    unfold InOrder
    decide
  have paced : Paced (sinceFirstTick effects) := by
    unfold Paced
    decide
  have returned : (new.run calls).window? (.tick 25) = some ⟨4, 7⟩ := by decide
  exact ⟨⟨inOrder, by decide, paced⟩, returned, by decide,
    window_stop_add_pausedTime calls 25 inOrder (by decide) paced ⟨4, 7⟩ returned⟩

end Clock

end NoteClock
