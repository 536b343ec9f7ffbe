import NoteClock.Clock
import NoteClock.RuleSet

/-!
Playing in real time: a running clock polls a rule set, and each note is announced as it fires. Its
frequency is told with a fixed number of decimal places, rounded from the exact value.
-/

namespace NoteClock

namespace Text

def roundDiv (numerator denominator : Nat) : Nat :=
  let quotient := numerator / denominator
  let twice := 2 * (numerator % denominator)
  if twice < denominator || (twice = denominator && quotient % 2 = 0) then quotient else quotient + 1

def fractionSize : Nat := 4503599627370496

def magnitude (value : Float) : Nat × Nat :=
  let bits := value.toBits.toNat
  let exponent := bits / fractionSize % 2048
  let fraction := bits % fractionSize
  let significand := if exponent = 0 then fraction else fraction + fractionSize
  (significand * Nat.pow 2 (max exponent 1 - 1075), Nat.pow 2 (1075 - max exponent 1))

def fixedPoint (places : Nat) (value : Float) : String :=
  let (numerator, denominator) := magnitude value
  let unit := Nat.pow 10 places
  let scaled := roundDiv (numerator * unit) denominator
  let digits := Nat.toDigits 10 (scaled % unit)
  String.ofList (Nat.toDigits 10 (scaled / unit) ++
    '.' :: List.replicate (places - digits.length) '0' ++ digits)

end Text

structure Playback where
  clock : Clock
  rules : RuleSet

namespace Playback

def start (rules : RuleSet) : Playback := ⟨Clock.new.start, rules⟩

def opening : String := "running, press Ctrl-C to stop"

def announce (window : Window) (event : NoteEvent) : String :=
  s!"[{Elapsed.display (saturate (window.stop + event.delay))}] {event.note} " ++
    s!"{Text.fixedPoint 2 event.note.frequency} Hz"

structure Answer where
  lines : List String
  finished : Bool

def tick (playback : Playback) (length : Option Nat) (now : Nat) : Answer × Playback :=
  let (window, clock) := playback.clock.tick now
  match window with
  | none => (⟨[], false⟩, { playback with clock })
  | some window =>
      let (events, rules) := playback.rules.poll window
      (⟨events.map (announce window), length.any (· ≤ window.stop)⟩, ⟨clock, rules⟩)

def follow (playback : Playback) (length : Option Nat) : List Nat → List String × Playback
  | [] => ([], playback)
  | now :: later =>
      let (answer, playback) := playback.tick length now
      if answer.finished then (answer.lines, playback)
      else
        let (lines, playback) := playback.follow length later
        (answer.lines ++ lines, playback)

def closing (playback : Playback) (now : Nat) : String :=
  s!"stopped at {Elapsed.display ((playback.clock.stop now).elapsed now)}"

end Playback

end NoteClock
