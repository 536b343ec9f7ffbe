import Mathlib.Data.List.OfFn
import NoteClock.Proofs.Timeline.Firing

/-!
How a command progresses. Counted from its making or its last reset, each firing has a closed form,
whatever windows the command is polled with.
-/

namespace NoteClock

/-- What the firing with this number answers, the first being number zero. -/
def PlayMode.answer (mode : PlayMode) (notes : List Note) (nonempty : notes ≠ [])
    (spacing number : Nat) : List NoteEvent :=
  have below := Nat.mod_lt number (List.length_pos_iff.mpr nonempty)
  match mode with
  | scale => [⟨notes.get ⟨number % notes.length, below⟩, 0⟩]
  | arpeggio =>
      List.ofFn fun step : Fin (number % notes.length + 1) =>
        ⟨notes.get ⟨step, Nat.lt_of_lt_of_le step.isLt below⟩, min (step * spacing) maxMillis⟩
  | stack limit =>
      (List.range (number % max limit 1 + 1)).flatMap fun step =>
        notes.map (⟨·, min (step * spacing) maxMillis⟩)

/-- The first note sounds at once, and none before the one in front of it. -/
def NoteEvent.InStep (answer : List NoteEvent) : Prop :=
  answer.head?.map (·.delay) = some 0 ∧ answer.Pairwise fun former later => former.delay ≤ later.delay

namespace Command

inductive Use where
  | poll (window : Window) (spacing : Nat)
  | reset
  deriving DecidableEq, Repr

def use (command : Command) : Use → Command
  | .poll window spacing => (command.poll window spacing).2
  | .reset => command.reset

def useAll (command : Command) (uses : List Use) : Command := uses.foldl use command

theorem reset_use (command : Command) (use : Use) : (command.use use).reset = command.reset := by
  cases use with
  | poll window spacing =>
      cases fires : command.fires window with
      | true => rw [Command.use, poll_of_fires fires, advance, reset, reset]
      | false => rw [Command.use, poll_of_not_fires fires]
  | reset => rfl

theorem reset_useAll (command : Command) (uses : List Use) :
    (command.useAll uses).reset = command.reset := by
  induction uses generalizing command with
  | nil => rfl
  | cons use rest ih => rw [useAll, List.foldl_cons, ← useAll, ih, reset_use]

theorem useAll_fresh {command : Command} {uses : List Use} (initial : command.reset = command)
    (fresh : uses = [] ∨ uses.getLast? = some .reset) : command.useAll uses = command := by
  rcases fresh with rfl | last
  · rfl
  · obtain ⟨front, rfl⟩ := List.getLast?_eq_some_iff.mp last
    rw [useAll, List.foldl_append, ← useAll]
    exact (reset_useAll command front).trans initial

theorem advanceBy_once {command : Command} {instant : Nat} (trigger : command.trigger = .once instant)
    (count : Nat) : command.advanceBy count = command := by
  have cursor : command.nextCursor = command.cursor := by rw [nextCursor, trigger]
  have still : command.advance = command := by rw [advance, cursor]
  induction count with
  | zero => rfl
  | succ count ih => rw [advanceBy, still, ih]

theorem advanceBy_eq (command : Command) (count : Nat) :
    command.advanceBy count = { command with cursor := (command.advanceBy count).cursor } := by
  induction count generalizing command with
  | zero => rfl
  | succ count ih => exact ih command.advance

theorem emissions_eq_map (command : Command) (spacing count : Nat) :
    command.emissions spacing count =
      (List.range count).map fun number => (command.advanceBy number).emission spacing := by
  induction count generalizing command with
  | zero => rfl
  | succ count ih =>
      rw [emissions, ih, List.range_succ_eq_map, List.map_cons, List.map_map]
      rfl

theorem Sound.firings_eq_map {command : Command} (sound : command.Sound) (spacing : Nat)
    (windows : List Window) :
    command.firings spacing windows =
      (List.range (windows.countP command.fires)).map fun number =>
        (command.advanceBy number).emission spacing := by
  rw [(sound.firings_eq spacing windows).1, emissions_eq_map, List.countP_eq_length_filter]

theorem emission_once {command : Command} {instant : Nat} (trigger : command.trigger = .once instant)
    (spacing : Nat) : command.emission spacing = command.notes.map (⟨·, 0⟩) := by
  rw [emission, trigger]

theorem emission_scale {command : Command} {period : Nat}
    (trigger : command.trigger = .every period .scale) (below : command.cursor < command.notes.length)
    (spacing : Nat) : command.emission spacing = [⟨command.notes.get ⟨command.cursor, below⟩, 0⟩] := by
  simp [emission, trigger, below]

theorem emission_arpeggio {command : Command} {period : Nat}
    (trigger : command.trigger = .every period .arpeggio)
    (below : command.cursor < command.notes.length) (spacing : Nat) :
    command.emission spacing = List.ofFn fun step : Fin (command.cursor + 1) =>
      ⟨command.notes.get ⟨step, Nat.lt_of_lt_of_le step.isLt below⟩, saturate (step * spacing)⟩ := by
  simp only [emission, trigger]
  apply List.ext_getElem
  · rw [List.length_mapIdx, List.length_take, List.length_ofFn]
    omega
  · intro index _ _
    rw [List.getElem_mapIdx, List.getElem_take, List.getElem_ofFn, List.get_eq_getElem]

theorem emission_stack {command : Command} {period limit : Nat}
    (trigger : command.trigger = .every period (.stack limit)) (spacing : Nat) :
    command.emission spacing = (List.range (command.cursor + 1)).flatMap fun step =>
      command.notes.map (⟨·, saturate (step * spacing)⟩) := by
  rw [emission, trigger]

theorem cursor_advanceBy_every {period : Nat} {notes : List Note} (mode : PlayMode)
    (positive : 0 < period) (nonempty : notes ≠ []) (number : Nat) :
    ((every period notes mode).advanceBy number).cursor =
      number % (every period notes mode).cycle := by
  have sound := sound_every mode positive nonempty
  have begun : (every period notes mode).cursor = 0 := by cases mode <;> rfl
  obtain ⟨stored, trigger⟩ : ∃ stored, (every period notes mode).trigger = .every period stored := by
    cases mode <;> exact ⟨_, rfl⟩
  rw [sound.cursor_advanceBy trigger, begun, Nat.zero_add]

theorem emission_advanceBy_every {period : Nat} {notes : List Note} (mode : PlayMode)
    (positive : 0 < period) (nonempty : notes ≠ []) (spacing number : Nat) :
    ((every period notes mode).advanceBy number).emission spacing =
      mode.answer notes nonempty spacing number := by
  have below := Nat.mod_lt number (List.length_pos_iff.mpr nonempty)
  rw [advanceBy_eq, cursor_advanceBy_every mode positive nonempty]
  cases mode with
  | scale => exact emission_scale rfl below spacing
  | arpeggio => exact emission_arpeggio rfl below spacing
  | stack limit => exact emission_stack rfl spacing

theorem inStep_stack {notes : List Note} (nonempty : notes ≠ []) (spacing count : Nat) :
    NoteEvent.InStep ((List.range (count + 1)).flatMap fun step =>
      notes.map (⟨·, saturate (step * spacing)⟩)) := by
  constructor
  · obtain ⟨first, rest, rfl⟩ := List.exists_cons_of_ne_nil nonempty
    rw [List.range_succ_eq_map, List.flatMap_cons, List.map_cons, List.cons_append, List.head?_cons,
      Nat.zero_mul]
    rfl
  · rw [List.pairwise_flatMap]
    constructor
    · intro step _
      exact List.pairwise_map.mpr (List.pairwise_of_forall fun _ _ => Nat.le_refl _)
    · refine List.pairwise_lt_range.imp ?_
      intro step next lt former formerIn later laterIn
      obtain ⟨_, _, rfl⟩ := List.mem_map.mp formerIn
      obtain ⟨_, _, rfl⟩ := List.mem_map.mp laterIn
      exact saturate_mono (Nat.mul_le_mul_right spacing (Nat.le_of_lt lt))

theorem inStep_at_once {notes : List Note} (nonempty : notes ≠ []) :
    NoteEvent.InStep (notes.map (⟨·, 0⟩)) := by
  simpa [saturate] using inStep_stack nonempty 0 0

theorem Sound.inStep_emission {command : Command} (sound : command.Sound) (spacing : Nat) :
    NoteEvent.InStep (command.emission spacing) := by
  have cursor := sound.cursor_lt
  cases trigger : command.trigger with
  | once instant =>
      rw [emission_once trigger]
      exact inStep_at_once sound.notes_ne_nil
  | every period mode =>
      rw [cycle_every trigger] at cursor
      cases mode with
      | scale =>
          rw [emission_scale trigger cursor]
          have single := List.cons_ne_nil (command.notes.get ⟨command.cursor, cursor⟩) []
          exact inStep_at_once single
      | arpeggio =>
          rw [emission_arpeggio trigger cursor]
          constructor
          · rw [List.ofFn_succ, List.head?_cons]
            change some (saturate (0 * spacing)) = some 0
            rw [Nat.zero_mul]
            rfl
          · rw [List.pairwise_ofFn]
            intro step next lt
            exact saturate_mono (Nat.mul_le_mul_right spacing (Nat.le_of_lt lt))
      | stack limit =>
          rw [emission_stack trigger]
          exact inStep_stack sound.notes_ne_nil spacing command.cursor

theorem Sound.advanceBy {command : Command} (sound : command.Sound) (count : Nat) :
    (command.advanceBy count).Sound := by
  induction count generalizing command with
  | zero => exact sound
  | succ count ih => exact ih sound.advance

theorem Sound.inStep_of_mem_firings {command : Command} (sound : command.Sound) (spacing : Nat)
    (windows : List Window) :
    ∀ answer ∈ command.firings spacing windows, NoteEvent.InStep answer := by
  intro answer member
  rw [sound.firings_eq_map] at member
  obtain ⟨number, _, rfl⟩ := List.mem_map.mp member
  exact (sound.advanceBy number).inStep_emission spacing

/-- From its making or its last reset on, a periodic command answers each firing by its number, as its
play mode tells. A single command answers each with all its notes at once. -/
theorem firings_in_closed_form {notes : List Note} (nonempty : notes ≠ []) {uses : List Use}
    (fresh : uses = [] ∨ uses.getLast? = some .reset) (spacing : Nat) (windows : List Window) :
    (∀ period mode, 0 < period →
      let command := (every period notes mode).useAll uses
      command.firings spacing windows =
          (List.range (windows.countP command.fires)).map (mode.answer notes nonempty spacing) ∧
        ∀ answer ∈ command.firings spacing windows, NoteEvent.InStep answer) ∧
    ∀ instant,
      let command := (once instant notes).useAll uses
      command.firings spacing windows =
          List.replicate (windows.countP command.fires) (notes.map (⟨·, 0⟩)) ∧
        (∀ answer ∈ command.firings spacing windows, NoteEvent.InStep answer) ∧
        (command.after spacing windows).cursor = 0 := by
  constructor
  · intro period mode positive command
    have begun : command = every period notes mode :=
      useAll_fresh (by cases mode <;> rfl) fresh
    have sound := sound_every mode positive nonempty
    rw [begun]
    refine ⟨?_, sound.inStep_of_mem_firings spacing windows⟩
    rw [sound.firings_eq_map]
    apply List.map_congr_left
    intro number _
    exact emission_advanceBy_every mode positive nonempty spacing number
  · intro instant command
    have begun : command = once instant notes := useAll_fresh rfl fresh
    have sound := sound_once instant nonempty
    rw [begun]
    refine ⟨?_, sound.inStep_of_mem_firings spacing windows, ?_⟩
    · rw [sound.firings_eq_map, List.eq_replicate_iff]
      refine ⟨by rw [List.length_map, List.length_range], ?_⟩
      intro answer member
      obtain ⟨number, _, rfl⟩ := List.mem_map.mp member
      rw [advanceBy_once rfl, emission_once rfl]
      rfl
    · rw [(sound.firings_eq spacing windows).2, advanceBy_once rfl]
      rfl

theorem firings_in_closed_form_up_to_the_end_of_time :
    let notes : List Note := [⟨.C, .natural⟩, ⟨.E, .natural⟩, ⟨.G, .flat⟩]
    let uses : List Use := [.poll ⟨0, 1500⟩ 100, .reset]
    let windows : List Window :=
      [⟨0, 1000⟩, ⟨0, 1000⟩, ⟨1500, 900⟩, ⟨900, 1000⟩, ⟨1000, 1000⟩, ⟨4000, 9000⟩]
    let spacing := 9223372036854775808
    let command := (every 1000 notes .arpeggio).useAll uses
    (∃ nonempty : notes ≠ [], 0 < 1000 ∧ uses.getLast? = some .reset ∧
        command.firings spacing windows =
          (List.range 4).map (PlayMode.arpeggio.answer notes nonempty spacing)) ∧
      command.firings spacing windows =
        [[⟨⟨.C, .natural⟩, 0⟩],
          [⟨⟨.C, .natural⟩, 0⟩, ⟨⟨.E, .natural⟩, spacing⟩],
          [⟨⟨.C, .natural⟩, 0⟩, ⟨⟨.E, .natural⟩, spacing⟩, ⟨⟨.G, .flat⟩, maxMillis⟩],
          [⟨⟨.C, .natural⟩, 0⟩]] ∧
      ∀ answer ∈ command.firings spacing windows, NoteEvent.InStep answer := by
  intro notes uses windows spacing command
  have nonempty : notes ≠ [] := by decide
  have fresh : uses = [] ∨ uses.getLast? = some .reset := Or.inr rfl
  have result := (firings_in_closed_form nonempty fresh spacing windows).1 1000 .arpeggio (by decide)
  exact ⟨⟨nonempty, by decide, rfl, result.1⟩, by decide +kernel, result.2⟩

end Command

end NoteClock
