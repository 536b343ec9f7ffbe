import NoteClock.Time.Millis

/-!
A clock that can be paused. Its owner supplies every reading of the wall clock; the clock answers each
tick with the window of elapsed time since the last one. A pause lasts from the stop to the next tick
while running, and moves the timeline on so that it never shows up in elapsed time.
-/

namespace NoteClock

inductive RunState where
  | stopped
  | running
  deriving DecidableEq, Repr

structure Marks where
  zero : Nat
  last : Nat
  deriving DecidableEq, Repr

/-- `marks` is empty until the first tick. `stoppedAt` is the reading of a stop that no tick has ended
yet. -/
structure Clock where
  state : RunState
  marks : Option Marks
  stoppedAt : Option Nat
  deriving DecidableEq, Repr

def Marks.shift (marks : Marks) (pause : Nat) : Marks := ⟨marks.zero + pause, marks.last + pause⟩

namespace Clock

def new : Clock := ⟨.stopped, none, none⟩

def start (clock : Clock) : Clock := { clock with state := .running }

def stop (clock : Clock) (now : Nat) : Clock :=
  match clock.state with
  | .stopped => clock
  | .running => { clock with state := .stopped, stoppedAt := some now }

def reset (clock : Clock) : Clock := { clock with marks := none, stoppedAt := none }

/-- Elapsed time at a reading. It stands still from a stop to the tick that ends the pause. -/
def elapsed (clock : Clock) (now : Nat) : Nat :=
  match clock.marks with
  | none => 0
  | some marks => clock.stoppedAt.getD now - marks.zero

def pause (clock : Clock) (now : Nat) : Nat :=
  match clock.stoppedAt with
  | none => 0
  | some instant => now - instant

def marksAt (clock : Clock) (now : Nat) : Marks :=
  match clock.marks with
  | none => ⟨now, now⟩
  | some marks => marks.shift (clock.pause now)

def tick (clock : Clock) (now : Nat) : Option Window × Clock :=
  match clock.state with
  | .stopped => (none, clock)
  | .running =>
      let marks := clock.marksAt now
      (some ⟨marks.last - marks.zero, now - marks.zero⟩, ⟨.running, some ⟨marks.zero, now⟩, none⟩)

end Clock

end NoteClock
