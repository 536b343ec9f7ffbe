import NoteClock.Note
import NoteClock.Time.Millis

/-!
Commands: what to play and when. A command is polled with windows of elapsed time; it answers with the
notes that start in the window, and its cursor remembers how far its play mode has come.
-/

namespace NoteClock

/-- What each firing of a repeated command adds: the next note alone, one more note of the list, or the
whole chord stacked once more, up to `max` times. -/
inductive PlayMode where
  | scale
  | arpeggio
  | stack (max : Nat)
  deriving DecidableEq, Repr

inductive Trigger where
  | once (instant : Nat)
  | every (period : Nat) (mode : PlayMode)
  deriving DecidableEq, Repr

def Trigger.millis : Trigger → Nat
  | once instant => instant
  | every period _ => period

structure Command where
  trigger : Trigger
  notes : List Note
  cursor : Nat
  deriving DecidableEq, Repr

/-- A note and how long after the end of its window it sounds. -/
structure NoteEvent where
  note : Note
  delay : Nat
  deriving DecidableEq, Repr

instance : ToString NoteEvent := ⟨fun event => s!"{event.note} (+{event.delay}ms)"⟩

namespace Command

def once (instant : Nat) (notes : List Note) : Command := ⟨.once instant, notes, 0⟩

/-- A chord is played at least once, so a stack of nothing counts as a stack of one. -/
def every (period : Nat) (notes : List Note) : PlayMode → Command
  | .stack limit => ⟨.every period (.stack (max limit 1)), notes, 0⟩
  | mode => ⟨.every period mode, notes, 0⟩

inductive Flaw where
  | noNotes
  deriving DecidableEq, Repr

def Flaw.message : Flaw → String
  | noNotes => "a command needs at least one note"

def checked (command : Command) : Except Flaw Command :=
  if command.notes = [] then .error .noNotes else .ok command

def mode (command : Command) : PlayMode :=
  match command.trigger with
  | .once _ => .stack 1
  | .every _ mode => mode

/-- Whether the command fires in the window. A periodic one does when the window passes a multiple of
the period: the remainders then fall, unless the window is as wide as the period. -/
def fires (command : Command) (window : Window) : Bool :=
  !window.isEmpty &&
    match command.trigger with
    | .once instant => window.contains instant
    | .every period _ =>
        window.stop % period < window.start % period || period ≤ window.width

def cycle (command : Command) : Nat :=
  match command.mode with
  | .scale | .arpeggio => command.notes.length
  | .stack limit => limit

/-- The notes of a firing, each later step of an arpeggio or a stack one `spacing` after the last. -/
def emission (command : Command) (spacing : Nat) : List NoteEvent :=
  match command.trigger with
  | .once _ => command.notes.map (⟨·, 0⟩)
  | .every _ .scale => command.notes[command.cursor]?.toList.map (⟨·, 0⟩)
  | .every _ .arpeggio =>
      (command.notes.take (command.cursor + 1)).mapIdx fun step note =>
        ⟨note, saturate (step * spacing)⟩
  | .every _ (.stack _) =>
      (List.range (command.cursor + 1)).flatMap fun step =>
        command.notes.map (⟨·, saturate (step * spacing)⟩)

def nextCursor (command : Command) : Nat :=
  match command.trigger with
  | .once _ => command.cursor
  | .every _ _ => (command.cursor + 1) % command.cycle

def poll (command : Command) (window : Window) (spacing : Nat) : List NoteEvent × Command :=
  if command.fires window then
    (command.emission spacing, { command with cursor := command.nextCursor })
  else ([], command)

def reset (command : Command) : Command := { command with cursor := 0 }

end Command

end NoteClock
