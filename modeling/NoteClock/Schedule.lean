import NoteClock.RuleSet

/-!
Schedules: every note that a rule set plays over a stretch of time, placed on the timeline. The stretch
is cut into windows of one width, and a note sounds its delay after the end of the window that fired it.
-/

namespace NoteClock

structure Placement where
  instant : Nat
  note : Note
  deriving DecidableEq, Repr

namespace Schedule

/-- The stretch from zero to `length` in windows as wide as a tick. Only the last may be narrower, and
a tick of zero counts as one. -/
def windows (length tick : Nat) : List Window :=
  (List.range ((length + (max tick 1 - 1)) / max tick 1)).map fun index =>
    ⟨index * max tick 1, min ((index + 1) * max tick 1) length⟩

def place (window : Window) (event : NoteEvent) : Placement :=
  ⟨saturate (window.stop + event.delay), event.note⟩

def placeAll (answer : Window × List NoteEvent) : List Placement := answer.2.map (place answer.1)

end Schedule

def schedule (rules : RuleSet) (length tick : Nat) : List Placement × RuleSet :=
  let (answers, after) := rules.pollAll (Schedule.windows length tick)
  (answers.toList.flatMap Schedule.placeAll, after)

end NoteClock
