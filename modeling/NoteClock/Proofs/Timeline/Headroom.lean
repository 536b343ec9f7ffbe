import NoteClock.Proofs.Timeline.Compiled
import NoteClock.Proofs.Timeline.Independence
import NoteClock.Proofs.Timeline.Tiling

/-!
Room on the timeline. What compiles takes less than 2^32 firings to come round, so that with valid
settings its notes are placed far in front of the end of the timeline, and nothing is cut off there.
-/

namespace NoteClock

theorem getElem?_flatMap_range {α β : Type} (items : List α) (make : Nat → α → β) (count place : Nat) :
    ((List.range count).flatMap fun step => items.map (make step))[place]? =
      if place < count * items.length then
        items[place % items.length]?.map (make (place / items.length))
      else none := by
  induction count with
  | zero => simp
  | succ count ih =>
      have front : ((List.range count).flatMap fun step => items.map (make step)).length =
          count * items.length := by simp [List.length_flatMap]
      rw [List.range_succ, List.flatMap_append, List.flatMap_singleton, Nat.succ_mul]
      by_cases before : place < count * items.length
      · rw [List.getElem?_append_left (by omega), ih, if_pos before, if_pos (by omega)]
      · rw [List.getElem?_append_right (by omega), front, List.getElem?_map]
        by_cases inside : place < count * items.length + items.length
        · have quotient : place / items.length = count := by
            apply Nat.div_eq_of_lt_le
            · omega
            · rw [Nat.succ_mul]
              omega
          have parts := Nat.div_add_mod' place items.length
          rw [quotient] at parts
          have remainder : place - count * items.length = place % items.length := by omega
          rw [if_pos inside, quotient, remainder]
        · rw [if_neg inside, List.getElem?_eq_none (by omega), Option.map_none]

namespace Command

/-- The step that a note of a firing belongs to, by its place among the notes. -/
def step (command : Command) (place : Nat) : Nat :=
  match command.trigger with
  | .once _ | .every _ .scale => 0
  | .every _ .arpeggio => place
  | .every _ (.stack _) => place / command.notes.length

/-- A command that can be polled and comes round within the count that a rule may give. -/
structure Roomy (command : Command) : Prop where
  sound : command.Sound
  cycle_lt : command.cycle < 2 ^ 32

theorem Sound.step_of_getElem? {command : Command} (sound : command.Sound) {spacing place : Nat}
    {event : NoteEvent} (found : (command.emission spacing)[place]? = some event) :
    command.step place ≤ command.cursor ∧ event.delay = saturate (command.step place * spacing) := by
  have below := sound.cursor_lt
  cases trigger : command.trigger with
  | once instant =>
      rw [emission_once trigger, List.getElem?_map, Option.map_eq_some_iff] at found
      obtain ⟨note, _, rfl⟩ := found
      simp [step, trigger, saturate]
  | every period mode =>
      rw [cycle_every trigger] at below
      cases mode with
      | scale =>
          rw [emission_scale trigger below] at found
          have single := List.mem_singleton.mp (List.mem_of_getElem? found)
          simp [step, trigger, single, saturate]
      | arpeggio =>
          rw [emission_arpeggio trigger below, List.getElem?_ofFn] at found
          split at found
          · rename_i inside
            cases found
            simp only [step, trigger]
            exact ⟨Nat.le_of_lt_succ inside, trivial⟩
          · cases found
      | stack limit =>
          rw [emission_stack trigger, getElem?_flatMap_range] at found
          split at found
          · rename_i inside
            obtain ⟨note, _, rfl⟩ := Option.map_eq_some_iff.mp found
            simp only [step, trigger]
            exact ⟨Nat.le_of_lt_succ (Nat.div_lt_of_lt_mul (Nat.mul_comm _ _ ▸ inside)), trivial⟩
          · cases found

theorem Roomy.use {command : Command} (roomy : command.Roomy) (use : Use) :
    (command.use use).Roomy := by
  obtain ⟨sound, short⟩ := roomy
  cases use with
  | poll window spacing =>
      cases fires : command.fires window with
      | true => simpa only [Command.use, poll_of_fires fires] using ⟨sound.advance, short⟩
      | false => simpa only [Command.use, poll_of_not_fires fires] using ⟨sound, short⟩
  | reset =>
      have begun := Nat.lt_of_le_of_lt (Nat.zero_le _) sound.cursor_lt
      exact ⟨⟨sound.notes_ne_nil, sound.period_pos, begun⟩, short⟩

theorem Roomy.delay_eq {command : Command} (roomy : command.Roomy) {spacing : Nat}
    (short : spacing ≤ 3600000) {place : Nat} {event : NoteEvent}
    (found : (command.emission spacing)[place]? = some event) :
    event.delay = command.step place * spacing ∧ event.delay ≤ 4294967294 * 3600000 := by
  obtain ⟨atMost, delay⟩ := roomy.sound.step_of_getElem? found
  have below := roomy.sound.cursor_lt
  have cycle := roomy.cycle_lt
  have product : command.step place * spacing ≤ 4294967294 * 3600000 :=
    Nat.mul_le_mul (by omega) short
  have uncut : event.delay = command.step place * spacing :=
    delay.trans (saturate_of_le (Nat.le_trans product (by decide)))
  exact ⟨uncut, uncut ▸ product⟩

end Command

namespace Rule

theorem Spelling.span_playMode_lt {spelling : Spelling} (few : spelling.notes.length < 2 ^ 32) :
    spelling.playMode.span spelling.notes.length < 2 ^ 32 := by
  have single : 1 < 2 ^ 32 := by decide
  rw [Spelling.playMode]
  cases spelling.trigger with
  | once => exact single
  | every =>
      cases spelling.mode with
      | absent => exact single
      | scale => exact few
      | arpeggio => exact few
      | stack => exact single
      | stackUpTo count => exact Nat.lt_of_le_of_lt count.bounded (by decide)

theorem roomy_of_compileLine {line : List Char} {command : Command}
    (compiled : compileLine line = .ok command) (few : command.notes.length < 2 ^ 32) :
    command.Roomy := by
  have sound := (fresh_of_compileLine compiled).sound
  obtain ⟨clauses, parsed, lowered⟩ := bind_eq_ok_iff.mp compiled
  obtain ⟨spelling, _, rfl⟩ := Clauses.parse_eq_ok_iff.mp parsed
  obtain ⟨_, meaning⟩ := Spelling.command_clausesOf_iff.mp lowered
  have cycle : command.cycle = spelling.playMode.span spelling.notes.length := by
    rw [← meaning.mode, ← meaning.notes]
    rfl
  rw [meaning.notes] at few
  exact ⟨sound, cycle ▸ Spelling.span_playMode_lt few⟩

end Rule

structure Firing where
  window : Window
  command : Command
  deriving DecidableEq, Repr

def Firing.placements (firing : Firing) (spacing : Nat) : List Placement :=
  (firing.command.emission spacing).map (Schedule.place firing.window)

theorem Firing.instant_eq {firing : Firing} (roomy : firing.command.Roomy)
    (early : firing.window.stop ≤ 3600000) {spacing : Nat} (short : spacing ≤ 3600000) {place : Nat}
    {placement : Placement} (found : (firing.placements spacing)[place]? = some placement) :
    placement.instant = firing.window.stop + firing.command.step place * spacing ∧
      placement.instant ≤ 4294967295 * 3600000 := by
  rw [placements, List.getElem?_map, Option.map_eq_some_iff] at found
  obtain ⟨event, emitted, rfl⟩ := found
  obtain ⟨uncut, bound⟩ := roomy.delay_eq short emitted
  have sum : firing.window.stop + event.delay ≤ 4294967295 * 3600000 := by omega
  rw [Schedule.place, saturate_of_le (Nat.le_trans sum (by decide)), ← uncut]
  exact ⟨rfl, sum⟩

namespace RuleSet

def firingsIn (rules : RuleSet) (window : Window) : List Firing :=
  (rules.commands.filter (·.fires window)).map (⟨window, ·⟩)

def firings (rules : RuleSet) : List Window → List Firing
  | [] => []
  | window :: rest => rules.firingsIn window ++ (rules.poll window).2.firings rest

theorem placeAll_poll (rules : RuleSet) (window : Window) :
    Schedule.placeAll (window, (rules.poll window).1) =
      (rules.firingsIn window).flatMap (·.placements rules.spacing) := by
  rw [Schedule.placeAll, poll_eq, firingsIn]
  simp only
  induction rules.commands with
  | nil => rfl
  | cons command rest ih =>
      cases fires : command.fires window with
      | true =>
          rw [List.filter_cons, if_pos fires, List.flatMap_cons, List.map_append, ih, List.map_cons,
            List.flatMap_cons, Command.poll_of_fires fires, Firing.placements]
      | false =>
          rw [List.filter_cons, if_neg (by simp [fires]), ← ih, List.flatMap_cons,
            Command.poll_of_not_fires fires, List.nil_append]

theorem flatMap_placeAll_pollAll (rules : RuleSet) (windows : List Window) :
    (rules.pollAll windows).1.toList.flatMap Schedule.placeAll =
      (rules.firings windows).flatMap (·.placements rules.spacing) := by
  induction windows generalizing rules with
  | nil => rfl
  | cons window rest ih =>
      have spacing : (rules.poll window).2.spacing = rules.spacing := by rw [poll_eq]
      rw [pollAll_cons, Array.toList_append, List.flatMap_append, ih, spacing, firings,
        List.flatMap_append, ← placeAll_poll, List.flatMap_singleton]

def Roomy (rules : RuleSet) : Prop := ∀ command ∈ rules.commands, command.Roomy

theorem Roomy.use {rules : RuleSet} (roomy : rules.Roomy) (use : Use) : (rules.use use).Roomy := by
  rw [use_eq]
  intro command member
  obtain ⟨before, beforeMember, rfl⟩ := List.mem_map.mp member
  exact (roomy before beforeMember).use _

theorem Roomy.useAll {rules : RuleSet} (roomy : rules.Roomy) (uses : List Use) :
    (rules.useAll uses).Roomy := by
  induction uses generalizing rules with
  | nil => exact roomy
  | cons use rest ih => exact ih (roomy.use use)

theorem Roomy.of_mem_firings {rules : RuleSet} (roomy : rules.Roomy) {windows : List Window}
    {firing : Firing} (member : firing ∈ rules.firings windows) :
    firing.command.Roomy ∧ firing.window ∈ windows := by
  induction windows generalizing rules with
  | nil => cases member
  | cons window rest ih =>
      rw [firings, List.mem_append] at member
      rcases member with here | later
      · obtain ⟨command, fired, rfl⟩ := List.mem_map.mp here
        exact ⟨roomy command (List.mem_of_mem_filter fired), List.mem_cons_self⟩
      · obtain ⟨room, within⟩ := ih (roomy.use (.poll window)) later
        exact ⟨room, List.mem_cons_of_mem window within⟩

theorem roomy_of_ofText {text : List Char} {spacing : Nat} {rules : RuleSet}
    (compiled : ofText text spacing = .ok rules)
    (few : ∀ command ∈ rules.commands, command.notes.length < 2 ^ 32) : rules.Roomy := by
  obtain ⟨commands, textCompiled, same⟩ := bind_eq_ok_iff.mp compiled
  obtain rfl := Except.ok.inj same
  intro command member
  obtain ⟨line, lineCompiled⟩ := Rule.exists_line_of_compile textCompiled command member
  exact Rule.roomy_of_compileLine lineCompiled (few command member)

theorem spacing_useAll (rules : RuleSet) (uses : List Use) :
    (rules.useAll uses).spacing = rules.spacing := by rw [useAll_eq]

/-- With a spacing and a length of up to an hour, and with less than 2^32 notes in each list, every
delay of what compiles is the whole product of the step and the spacing, however often the rules have
been polled before. A schedule places each note that long after the window that fires it, which is far
in front of the end of the timeline, so that the steps of a firing stay apart. -/
theorem nothing_is_cut_off_within_the_limits {text : List Char} {spacing : Nat} {rules : RuleSet}
    (compiled : ofText text spacing = .ok rules) (short : spacing ≤ 3600000)
    (few : ∀ command ∈ rules.commands, command.notes.length < 2 ^ 32) (uses : List Use)
    {length : Nat} (lengthBound : length ≤ 3600000) (tick : Nat) :
    let current := rules.useAll uses
    let firings := current.firings (Schedule.windows length tick)
    (∀ command ∈ current.commands, ∀ place event,
      (command.emission spacing)[place]? = some event →
        event.delay = command.step place * spacing ∧ event.delay < 2 ^ 54) ∧
    (schedule current length tick).1 = firings.flatMap (·.placements spacing) ∧
    ∀ firing ∈ firings, ∀ place placement,
      (firing.placements spacing)[place]? = some placement →
        placement.instant = firing.window.stop + firing.command.step place * spacing ∧
        placement.instant < 2 ^ 54 ∧
        ∀ other otherPlacement, (firing.placements spacing)[other]? = some otherPlacement →
          firing.command.step other ≠ firing.command.step place → 0 < spacing →
          otherPlacement.instant ≠ placement.instant := by
  intro current firings
  have roomy : current.Roomy := (roomy_of_ofText compiled few).useAll uses
  have sameSpacing : current.spacing = spacing :=
    (rules.spacing_useAll uses).trans (spacing_of_ofText compiled)
  refine ⟨?_, ?_, ?_⟩
  · intro command member place event found
    obtain ⟨uncut, bound⟩ := (roomy command member).delay_eq short found
    exact ⟨uncut, Nat.lt_of_le_of_lt bound (by decide)⟩
  · have placed := current.flatMap_placeAll_pollAll (Schedule.windows length tick)
    rw [sameSpacing] at placed
    exact placed
  · intro firing member place placement found
    obtain ⟨room, within⟩ := roomy.of_mem_firings member
    have early : firing.window.stop ≤ 3600000 :=
      Nat.le_trans (Schedule.stop_le_of_mem within) lengthBound
    obtain ⟨uncut, bound⟩ := Firing.instant_eq room early short found
    refine ⟨uncut, Nat.lt_of_le_of_lt bound (by decide), ?_⟩
    intro other otherPlacement otherFound apart positive same
    rw [(Firing.instant_eq room early short otherFound).1, uncut] at same
    exact apart (Nat.eq_of_mul_eq_mul_right positive (Nat.add_left_cancel same))

theorem nothing_is_cut_off_within_the_limits_at_their_top :
    let text := "every 1s play C,E repeat 4294967295\nevery 20m play A,Bb,G arpeggio".toList
    let spacing := 3600000
    let chord : List Note := [⟨.C, .natural⟩, ⟨.E, .natural⟩]
    let broken : List Note := [⟨.A, .natural⟩, ⟨.B, .flat⟩, ⟨.G, .natural⟩]
    let rules : RuleSet :=
      ⟨[.every 1000 chord (.stack 4294967295), .every 1200000 broken .arpeggio], spacing⟩
    let current := rules.useAll [.poll ⟨0, 1500⟩]
    let firings := current.firings (Schedule.windows 3600000 1200000)
    let stacked : Command := ⟨.every 1000 (.stack 4294967295), chord, 1⟩
    let firing : Firing := ⟨⟨2400000, 3600000⟩, ⟨.every 1200000 .arpeggio, broken, 2⟩⟩
    (ofText text spacing = .ok rules ∧ spacing ≤ 3600000 ∧
        (∀ command ∈ rules.commands, command.notes.length < 2 ^ 32)) ∧
      stacked ∈ current.commands ∧
      (stacked.emission spacing)[2]? = some ⟨⟨.C, .natural⟩, stacked.step 2 * spacing⟩ ∧
      firing ∈ firings ∧
      firing.placements spacing =
        [⟨3600000, ⟨.A, .natural⟩⟩, ⟨7200000, ⟨.B, .flat⟩⟩, ⟨10800000, ⟨.G, .natural⟩⟩] ∧
      10800000 = 3600000 + firing.command.step 2 * spacing ∧ 10800000 < 2 ^ 54 ∧
      (firing.command.step 1 ≠ firing.command.step 2 ∧ 0 < spacing ∧ 7200000 ≠ 10800000) ∧
      (schedule current 3600000 1200000).1 = firings.flatMap (·.placements spacing) := by
  intro text spacing chord broken rules current firings stacked firing
  have compiled : ofText text spacing = .ok rules := rfl
  have few : ∀ command ∈ rules.commands, command.notes.length < 2 ^ 32 := by decide
  have isStacked : stacked ∈ current.commands := by decide
  have emitted : (stacked.emission spacing)[2]? = some ⟨⟨.C, .natural⟩, 3600000⟩ := by decide
  have fires : firing ∈ firings := by decide +kernel
  have placed : firing.placements spacing =
      [⟨3600000, ⟨.A, .natural⟩⟩, ⟨7200000, ⟨.B, .flat⟩⟩, ⟨10800000, ⟨.G, .natural⟩⟩] := by
    decide +kernel
  have second : (firing.placements spacing)[1]? = some ⟨7200000, ⟨.B, .flat⟩⟩ := by
    rw [placed]
    rfl
  have third : (firing.placements spacing)[2]? = some ⟨10800000, ⟨.G, .natural⟩⟩ := by
    rw [placed]
    rfl
  have limit : 3600000 ≤ 3600000 := Nat.le_refl _
  obtain ⟨delays, scheduled, instants⟩ :=
    nothing_is_cut_off_within_the_limits compiled limit few [.poll ⟨0, 1500⟩] limit 1200000
  obtain ⟨uncut, bound, apart⟩ := instants firing fires 2 _ third
  have delay := (delays stacked isStacked 2 _ emitted).1
  have steps : firing.command.step 1 ≠ firing.command.step 2 := by decide
  have positive : 0 < spacing := by decide
  exact ⟨⟨compiled, limit, few⟩, isStacked, delay ▸ emitted, fires, placed, uncut, bound,
    ⟨steps, positive, apart 1 _ second steps positive⟩, scheduled⟩

end RuleSet

end NoteClock
