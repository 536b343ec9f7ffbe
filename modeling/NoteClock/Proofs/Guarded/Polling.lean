import NoteClock.Proofs.Guarded.Operation
import NoteClock.Proofs.Timeline.Independence

/-!
Polls with all their operations guarded. Whatever a command is polled with and however often it is
reset, its cursor stays in a range set by its mode. There each note that is taken exists, and no
remainder is by zero.
-/

namespace NoteClock

/-- Where the cursor may stand, by what triggers the command and how it plays. -/
def Command.CursorInRange (command : Command) : Prop :=
  match command.trigger with
  | .once _ => command.cursor = 0
  | .every _ .scale | .every _ .arpeggio => command.cursor < command.notes.length
  | .every _ (.stack limit) => 1 ≤ limit ∧ command.cursor < limit

namespace Guarded

variable {ε : Type}

def fires (command : Command) (window : Window) : Guarded ε Bool :=
  if window.isEmpty then return false
  else
    match command.trigger with
    | .once instant => return window.contains instant
    | .every period _ => do
        let first ← remainder window.start period
        let last ← remainder window.stop period
        return last < first || period ≤ window.width

def emission (command : Command) (spacing : Nat) : Guarded ε (Nat × List NoteEvent) :=
  match command.trigger with
  | .once _ => return (command.cursor, command.notes.map (⟨·, 0⟩))
  | .every _ .scale => do
      let note ← element command.notes command.cursor
      let next ← remainder (command.cursor + 1) command.notes.length
      return (next, [⟨note, 0⟩])
  | .every _ .arpeggio => do
      let notes ← through command.notes command.cursor
      let next ← remainder (command.cursor + 1) command.notes.length
      return (next, notes.mapIdx fun step note => ⟨note, saturate (step * spacing)⟩)
  | .every _ (.stack limit) => do
      let next ← remainder (command.cursor + 1) limit
      return (next, (List.range (command.cursor + 1)).flatMap fun step =>
        command.notes.map (⟨·, saturate (step * spacing)⟩))

def poll (command : Command) (window : Window) (spacing : Nat) :
    Guarded ε (List NoteEvent × Command) := do
  if ← fires command window then
    let (next, events) ← emission command spacing
    return (events, { command with cursor := next })
  else return ([], command)

def use (command : Command) : Command.Use → Guarded ε Command
  | .poll window spacing => do return (← poll command window spacing).2
  | .reset => return command.reset

def useAll (command : Command) (uses : List Command.Use) : Guarded ε Command :=
  uses.foldlM use command

variable {command : Command}

theorem cursorInRange_of_sound (sound : command.Sound) : command.CursorInRange := by
  have below := sound.cursor_lt
  obtain ⟨trigger, notes, cursor⟩ := command
  cases trigger with
  | once instant => exact Nat.lt_one_iff.mp below
  | every period mode =>
      cases mode with
      | scale => exact below
      | arpeggio => exact below
      | stack limit => exact ⟨Nat.lt_of_le_of_lt (Nat.zero_le _) below, below⟩

theorem fires_eq (sound : command.Sound) (window : Window) :
    (fires command window : Guarded ε Bool) = .ok (command.fires window) := by
  rw [fires, Command.fires]
  cases window.isEmpty with
  | true => rfl
  | false =>
      cases trigger : command.trigger with
      | once instant => rfl
      | every period mode =>
          have positive := sound.period_pos period mode trigger
          simp only [remainder_of_pos positive]
          rfl

theorem emission_eq (sound : command.Sound) (spacing : Nat) :
    (emission command spacing : Guarded ε _) =
      .ok (command.nextCursor, command.emission spacing) := by
  have inRange := cursorInRange_of_sound sound
  have counted := List.length_pos_iff.mpr sound.notes_ne_nil
  obtain ⟨trigger, notes, cursor⟩ := command
  cases trigger with
  | once instant => rfl
  | every period mode =>
      cases mode with
      | scale =>
          have below : cursor < notes.length := inRange
          have here := List.getElem?_eq_getElem below
          simp only [emission, element_of_getElem? here, remainder_of_pos counted, Command.emission,
            here]
          rfl
      | arpeggio =>
          have below : cursor < notes.length := inRange
          simp only [emission, through, if_pos below, remainder_of_pos counted]
          rfl
      | stack limit =>
          have positive : 0 < limit := inRange.1
          simp only [emission, remainder_of_pos positive]
          rfl

theorem poll_eq (sound : command.Sound) (window : Window) (spacing : Nat) :
    (poll command window spacing : Guarded ε _) = .ok (command.poll window spacing) := by
  rw [poll, fires_eq sound, emission_eq sound, Command.poll]
  cases command.fires window <;> rfl

theorem use_eq (sound : command.Sound) (use : Command.Use) :
    (Guarded.use command use : Guarded ε Command) = .ok (command.use use) := by
  cases use with
  | poll window spacing =>
      rw [Guarded.use, poll_eq sound]
      rfl
  | reset => rfl

end Guarded

theorem Command.Reachable.use {command : Command} (reachable : command.Reachable) (use : Use) :
    (command.use use).Reachable := by
  cases use with
  | poll window spacing => exact .poll window spacing reachable
  | reset => exact .reset reachable

namespace Guarded

theorem useAll_eq {command : Command} (reachable : command.Reachable) (uses : List Command.Use) :
    (useAll command uses : Guarded ε Command) = .ok (command.useAll uses) ∧
      (command.useAll uses).Reachable := by
  -- Only a reachable command has its cursor in range, so that this is carried along.
  induction uses generalizing command with
  | nil => exact ⟨rfl, reachable⟩
  | cons use uses ih =>
      obtain ⟨run, last⟩ := ih (reachable.use use)
      refine ⟨?_, last⟩
      rw [useAll, List.foldlM_cons, use_eq reachable.sound]
      exact run

/-- However a command is made from notes, and whatever is done with it since, it keeps its notes and
its positive period, and its cursor stays in range. No operation of a poll is then trapped, and a firing
answers with a note. -/
theorem polling_is_never_trapped {notes : List Note} (nonempty : notes ≠ []) {command : Command}
    (made : (∃ instant, command = .once instant notes) ∨
      ∃ period mode, 0 < period ∧ command = .every period notes mode)
    (uses : List Command.Use) :
    let current := command.useAll uses
    (current.notes = notes ∧ current.trigger = command.trigger ∧
      (∀ period mode, current.trigger = .every period mode → 0 < period) ∧
      current.CursorInRange) ∧
    (useAll command uses : Guarded Empty _) = .ok current ∧
    ∀ window spacing,
      (fires current window : Guarded Empty _) = .ok (current.fires window) ∧
      (emission current spacing : Guarded Empty _) =
        .ok (current.nextCursor, current.emission spacing) ∧
      (poll current window spacing : Guarded Empty _) = .ok (current.poll window spacing) ∧
      (current.fires window = true → (current.poll window spacing).1 ≠ []) := by
  intro current
  have reachable : command.Reachable := by
    rcases made with ⟨instant, rfl⟩ | ⟨period, mode, positive, rfl⟩
    · exact .once instant nonempty
    · exact .every mode positive nonempty
  have given : command.notes = notes := by
    rcases made with ⟨instant, rfl⟩ | ⟨period, mode, _, rfl⟩
    · rfl
    · cases mode <;> rfl
  have frame := command.useAll_frame uses
  obtain ⟨run, last⟩ := useAll_eq reachable uses
  have sound := last.sound
  refine ⟨⟨(congrArg Command.notes frame).trans given, (congrArg Command.trigger frame).trans rfl,
    sound.period_pos, cursorInRange_of_sound sound⟩, run, ?_⟩
  intro window spacing
  refine ⟨fires_eq sound window, emission_eq sound spacing, poll_eq sound window spacing, ?_⟩
  intro fires
  rw [Command.poll_of_fires fires]
  exact sound.emission_ne_nil spacing

theorem polling_is_never_trapped_with_a_stack_of_nothing :
    let notes : List Note := [⟨.C, .natural⟩, ⟨.E, .flat⟩]
    let command := Command.every 1000 notes (.stack 0)
    let uses : List Command.Use := [.poll ⟨0, 2500⟩ 250, .reset, .poll ⟨900, 100⟩ 0]
    let current := command.useAll uses
    notes ≠ [] ∧ current.CursorInRange ∧ (useAll command uses : Guarded Empty _) = .ok current ∧
      (poll current ⟨2500, 3500⟩ 250 : Guarded Empty _) = .ok (current.poll ⟨2500, 3500⟩ 250) ∧
      current.fires ⟨2500, 3500⟩ = true ∧ (current.poll ⟨2500, 3500⟩ 250).1 ≠ [] := by
  intro notes command uses current
  have nonempty : notes ≠ [] := by decide
  have fires : current.fires ⟨2500, 3500⟩ = true := by decide
  obtain ⟨⟨_, _, _, inRange⟩, run, polls⟩ :=
    polling_is_never_trapped nonempty (Or.inr ⟨1000, .stack 0, by decide, rfl⟩) uses
  obtain ⟨_, _, polled, answered⟩ := polls ⟨2500, 3500⟩ 250
  exact ⟨nonempty, inRange, run, polled, fires, answered fires⟩

end Guarded

end NoteClock
