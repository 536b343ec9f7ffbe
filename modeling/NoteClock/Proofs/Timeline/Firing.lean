import Mathlib.Data.List.Forall2
import NoteClock.Command
import NoteClock.Proofs.Timeline.Contiguous

/-!
Polls of one command. Over contiguous windows a periodic command fires in those that cross a multiple
of its period, and what it answers depends on how often it has fired, not on how time is cut.
-/

namespace NoteClock

namespace Window

/-- A window reaches its end and not its start. -/
def reaches (window : Window) (instant : Nat) : Bool :=
  window.start < instant && instant ≤ window.stop

def Crosses (window : Window) (period : Nat) : Prop :=
  ∃ count, 1 ≤ count ∧ window.reaches (count * period) = true

theorem reaches_iff {window : Window} {instant : Nat} :
    window.reaches instant = true ↔ window.start < instant ∧ instant ≤ window.stop := by
  simp [reaches]

theorem reaches_succ (window : Window) (instant : Nat) :
    window.reaches (instant + 1) = window.contains instant := by
  simp only [reaches, contains, Nat.lt_succ_iff, Nat.succ_le_iff]

theorem crosses_iff_div_lt {window : Window} {period : Nat} (positive : 0 < period) :
    window.Crosses period ↔ window.start / period < window.stop / period := by
  constructor
  · rintro ⟨count, _, reached⟩
    obtain ⟨after, upTo⟩ := reaches_iff.mp reached
    have below : window.start / period < count := (Nat.div_lt_iff_lt_mul positive).mpr after
    have above : count ≤ window.stop / period := (Nat.le_div_iff_mul_le positive).mpr upTo
    exact Nat.lt_of_lt_of_le below above
  · intro grows
    have after := (Nat.div_lt_iff_lt_mul positive).mp grows
    exact ⟨window.stop / period, Nat.lt_of_le_of_lt (Nat.zero_le _) grows,
      reaches_iff.mpr ⟨after, Nat.div_mul_le_self _ _⟩⟩

theorem div_lt_iff_mod_lt_or_le {start stop period : Nat} (positive : 0 < period)
    (lt : start < stop) :
    start / period < stop / period ↔ stop % period < start % period ∨ period ≤ stop - start := by
  have startParts := Nat.div_add_mod start period
  have stopParts := Nat.div_add_mod stop period
  have stopBelow := Nat.mod_lt stop positive
  constructor
  · intro grows
    have product : period * (start / period + 1) ≤ period * (stop / period) :=
      Nat.mul_le_mul_left period grows
    rw [Nat.mul_add, Nat.mul_one] at product
    omega
  · intro passed
    rcases Nat.lt_or_ge (start / period) (stop / period) with grows | stays
    · exact grows
    · have product : period * (stop / period) ≤ period * (start / period) :=
        Nat.mul_le_mul_left period stays
      omega

theorem div_le_succ_of_width_le {window : Window} {period : Nat} (positive : 0 < period)
    (narrow : window.width ≤ period) : window.stop / period ≤ window.start / period + 1 := by
  rw [width] at narrow
  calc
    window.stop / period ≤ (window.start + period) / period := Nat.div_le_div_right (by omega)
    _ = window.start / period + 1 := Nat.add_div_right _ positive

end Window

/-- How many firings a mode takes to come round, for this many notes. -/
def PlayMode.span (mode : PlayMode) (notes : Nat) : Nat :=
  match mode with
  | scale | arpeggio => notes
  | stack limit => limit

namespace Command

/-- The states of a command that polls and resets lead to. -/
inductive Reachable : Command → Prop
  | once (instant : Nat) {notes : List Note} : notes ≠ [] → Reachable (.once instant notes)
  | every {period : Nat} {notes : List Note} (mode : PlayMode) : 0 < period → notes ≠ [] →
      Reachable (.every period notes mode)
  | poll {command : Command} (window : Window) (spacing : Nat) : Reachable command →
      Reachable (command.poll window spacing).2
  | reset {command : Command} : Reachable command → Reachable command.reset

structure Sound (command : Command) : Prop where
  notes_ne_nil : command.notes ≠ []
  period_pos : ∀ period mode, command.trigger = .every period mode → 0 < period
  cursor_lt : command.cursor < command.cycle

def advance (command : Command) : Command := { command with cursor := command.nextCursor }

theorem poll_of_fires {command : Command} {window : Window} (fires : command.fires window = true)
    (spacing : Nat) : command.poll window spacing = (command.emission spacing, command.advance) := by
  rw [poll, if_pos fires, advance]

theorem poll_of_not_fires {command : Command} {window : Window}
    (silent : command.fires window = false) (spacing : Nat) :
    command.poll window spacing = ([], command) := by
  rw [poll, if_neg (by simp [silent])]

theorem cycle_advance (command : Command) : command.advance.cycle = command.cycle := rfl

theorem Sound.advance {command : Command} (sound : command.Sound) : command.advance.Sound := by
  refine ⟨sound.notes_ne_nil, sound.period_pos, ?_⟩
  have cursor := sound.cursor_lt
  rw [cycle_advance]
  simp only [Command.advance, nextCursor]
  split
  · exact cursor
  · exact Nat.mod_lt _ (by omega)

theorem sound_once (instant : Nat) {notes : List Note} (nonempty : notes ≠ []) :
    (once instant notes).Sound :=
  ⟨nonempty, nofun, Nat.one_pos⟩

theorem sound_every {period : Nat} {notes : List Note} (mode : PlayMode) (positive : 0 < period)
    (nonempty : notes ≠ []) : (every period notes mode).Sound := by
  have length := List.length_pos_iff.mpr nonempty
  have periodPos : ∀ other otherMode,
      (every period notes mode).trigger = .every other otherMode → 0 < other := by
    intro other otherMode same
    cases mode <;> simp only [every, Trigger.every.injEq] at same <;> exact same.1 ▸ positive
  cases mode with
  | scale => exact ⟨nonempty, periodPos, length⟩
  | arpeggio => exact ⟨nonempty, periodPos, length⟩
  | stack limit => exact ⟨nonempty, periodPos, Nat.le_max_right limit 1⟩

theorem Reachable.sound {command : Command} (reachable : command.Reachable) : command.Sound := by
  induction reachable with
  | once instant nonempty => exact sound_once instant nonempty
  | every mode positive nonempty => exact sound_every mode positive nonempty
  | @poll command window spacing _ ih =>
      cases fires : command.fires window with
      | true => simpa only [poll_of_fires fires] using ih.advance
      | false => simpa only [poll_of_not_fires fires] using ih
  | reset _ ih =>
      exact ⟨ih.notes_ne_nil, ih.period_pos, Nat.lt_of_le_of_lt (Nat.zero_le _) ih.cursor_lt⟩

theorem Sound.emission_ne_nil {command : Command} (sound : command.Sound) (spacing : Nat) :
    command.emission spacing ≠ [] := by
  have nonempty := sound.notes_ne_nil
  have cursor := sound.cursor_lt
  unfold emission
  split
  · simpa using nonempty
  · rename_i trigger
    simp only [cycle, mode, trigger] at cursor
    simp [cursor]
  · simpa [List.mapIdx_eq_nil_iff] using nonempty
  · intro empty
    have first := List.flatMap_eq_nil_iff.mp empty 0 (by simp)
    exact nonempty (List.map_eq_nil_iff.mp first)

def answers (command : Command) (spacing : Nat) : List Window → List (List NoteEvent)
  | [] => []
  | window :: rest =>
      (command.poll window spacing).1 :: (command.poll window spacing).2.answers spacing rest

def after (command : Command) (spacing : Nat) (windows : List Window) : Command :=
  windows.foldl (fun current window => (current.poll window spacing).2) command

def firings (command : Command) (spacing : Nat) (windows : List Window) : List (List NoteEvent) :=
  (command.answers spacing windows).filter (!·.isEmpty)

def emissions (command : Command) (spacing : Nat) : Nat → List (List NoteEvent)
  | 0 => []
  | count + 1 => command.emission spacing :: command.advance.emissions spacing count

def advanceBy (command : Command) : Nat → Command
  | 0 => command
  | count + 1 => command.advance.advanceBy count

theorem Sound.answers_forall₂ {command : Command} (sound : command.Sound) (spacing : Nat)
    (windows : List Window) :
    List.Forall₂ (fun window answer => answer ≠ [] ↔ command.fires window = true) windows
      (command.answers spacing windows) := by
  induction windows generalizing command with
  | nil => exact List.Forall₂.nil
  | cons window rest ih =>
      rw [answers]
      cases fires : command.fires window with
      | true =>
          rw [poll_of_fires fires]
          exact List.Forall₂.cons (by simp [fires, sound.emission_ne_nil]) (ih sound.advance)
      | false =>
          rw [poll_of_not_fires fires]
          exact List.Forall₂.cons (by simp [fires]) (ih sound)

theorem Sound.firings_eq {command : Command} (sound : command.Sound) (spacing : Nat)
    (windows : List Window) :
    command.firings spacing windows =
        command.emissions spacing (windows.filter command.fires).length ∧
      command.after spacing windows =
        command.advanceBy (windows.filter command.fires).length := by
  induction windows generalizing command with
  | nil => exact ⟨rfl, rfl⟩
  | cons window rest ih =>
      cases fires : command.fires window with
      | true =>
          have tail := ih sound.advance
          have nonempty := sound.emission_ne_nil spacing
          rw [List.filter_cons_of_pos fires, List.length_cons]
          rw [firings, answers, poll_of_fires fires, List.filter_cons_of_pos (by simpa using nonempty)]
          rw [after, List.foldl_cons, poll_of_fires fires]
          exact ⟨congrArg _ tail.1, tail.2⟩
      | false =>
          have tail := ih sound
          rw [List.filter_cons_of_neg (by simp [fires])]
          rw [firings, answers, poll_of_not_fires fires, List.filter_cons_of_neg (by simp)]
          rw [after, List.foldl_cons, poll_of_not_fires fires]
          exact tail

def firedIn (command : Command) (spacing : Nat) (windows : List Window) : List Window :=
  ((windows.zip (command.answers spacing windows)).filter (!·.2.isEmpty)).map (·.1)

theorem Sound.firedIn_eq {command : Command} (sound : command.Sound) (spacing : Nat)
    (windows : List Window) : command.firedIn spacing windows = windows.filter command.fires := by
  have answered := sound.answers_forall₂ spacing windows
  rw [firedIn]
  generalize command.answers spacing windows = answers at answered
  induction answered with
  | nil => rfl
  | @cons window answer rest answers answered _ ih =>
      rw [List.zip_cons_cons]
      cases fires : command.fires window with
      | true =>
          have nonempty := answered.mpr fires
          rw [List.filter_cons_of_pos (by simpa using nonempty), List.filter_cons_of_pos fires,
            List.map_cons, ih]
      | false =>
          have empty : answer = [] := not_not.mp (mt answered.mp (by simp [fires]))
          rw [List.filter_cons_of_neg (by simp [empty]), List.filter_cons_of_neg (by simp [fires]), ih]

theorem length_emissions (command : Command) (spacing count : Nat) :
    (command.emissions spacing count).length = count := by
  induction count generalizing command with
  | zero => rfl
  | succ count ih => rw [emissions, List.length_cons, ih]

theorem Sound.cursor_advanceBy {command : Command} (sound : command.Sound) {period : Nat}
    {mode : PlayMode} (trigger : command.trigger = .every period mode) (count : Nat) :
    (command.advanceBy count).cursor = (command.cursor + count) % command.cycle := by
  induction count generalizing command with
  | zero => exact (Nat.mod_eq_of_lt sound.cursor_lt).symm
  | succ count ih =>
      have next : command.advance.cursor = (command.cursor + 1) % command.cycle := by
        simp only [Command.advance, nextCursor, trigger]
      rw [advanceBy, ih sound.advance trigger, next, cycle_advance, Nat.mod_add_mod,
        Nat.add_assoc, Nat.add_comm 1]

theorem fires_every_iff {command : Command} {period : Nat} {mode : PlayMode}
    (trigger : command.trigger = .every period mode) (positive : 0 < period) {window : Window}
    (le : window.start ≤ window.stop) :
    command.fires window = true ↔ window.start / period < window.stop / period := by
  rcases Nat.lt_or_eq_of_le le with lt | same
  · have notEmpty : ¬window.stop ≤ window.start := Nat.not_le.mpr lt
    rw [Window.div_lt_iff_mod_lt_or_le positive lt]
    change _ ↔ _ ∨ period ≤ window.width
    simp only [fires, trigger, Window.isEmpty, notEmpty, decide_false, Bool.not_false,
      Bool.true_and, Bool.or_eq_true, decide_eq_true_eq]
  · simp [fires, Window.isEmpty, same]

theorem fires_every_iff_crosses {command : Command} {period : Nat} {mode : PlayMode}
    (trigger : command.trigger = .every period mode) (positive : 0 < period) {window : Window}
    (le : window.start ≤ window.stop) : command.fires window = true ↔ window.Crosses period := by
  rw [fires_every_iff trigger positive le, Window.crosses_iff_div_lt positive]

theorem fires_once_iff {command : Command} {instant : Nat}
    (trigger : command.trigger = .once instant) {window : Window} :
    command.fires window = true ↔ window.contains instant = true := by
  simp only [fires, trigger, Window.isEmpty, Window.contains, Bool.and_eq_true, Bool.not_eq_true',
    decide_eq_false_iff_not, decide_eq_true_eq]
  omega

theorem filter_fires_once {command : Command} {instant : Nat}
    (trigger : command.trigger = .once instant) (windows : List Window) :
    windows.filter command.fires = windows.filter (·.contains instant) := by
  apply List.filter_congr
  intro window _
  rw [Bool.eq_iff_iff, fires_once_iff trigger]

theorem length_filter_fires {command : Command} {period : Nat} {mode : PlayMode}
    (trigger : command.trigger = .every period mode) (positive : 0 < period) {start : Nat}
    {windows : List Window} (contiguous : Contiguous start windows) :
    start / period + (windows.filter command.fires).length ≤ endOf start windows / period ∧
      ((∀ window ∈ windows, window.width ≤ period) →
        start / period + (windows.filter command.fires).length = endOf start windows / period) := by
  induction contiguous with
  | nil => exact ⟨Nat.le_refl _, fun _ => rfl⟩
  | @cons start stop rest le tail ih =>
      have grows : command.fires ⟨start, stop⟩ = true ↔ start / period < stop / period :=
        fires_every_iff trigger positive le
      have mono : start / period ≤ stop / period := Nat.div_le_div_right le
      have ended : endOf start (⟨start, stop⟩ :: rest) = endOf stop rest := endOf_cons _ _ _
      rw [ended, List.forall_mem_cons]
      cases fires : command.fires ⟨start, stop⟩ with
      | true =>
          have crossed := grows.mp fires
          rw [List.filter_cons_of_pos fires, List.length_cons]
          refine ⟨by omega, ?_⟩
          rintro ⟨narrow, others⟩
          have single : stop / period ≤ start / period + 1 :=
            Window.div_le_succ_of_width_le positive narrow
          have same := ih.2 others
          omega
      | false =>
          have still := mt grows.mpr (by simp [fires])
          rw [List.filter_cons_of_neg (by simp [fires])]
          refine ⟨by omega, ?_⟩
          rintro ⟨_, others⟩
          have same := ih.2 others
          omega

theorem cycle_every {command : Command} {period : Nat} {mode : PlayMode}
    (trigger : command.trigger = .every period mode) :
    command.cycle = mode.span command.notes.length := by
  rw [cycle, Command.mode, trigger]
  cases mode <;> rfl

/-- Polled over contiguous windows, a periodic command fires in those that cross a multiple of its
period. The firings are counted by the multiples unless a window is wider than the period, the cursor
counts the firings, and how time is cut into windows no wider than the period makes no difference. -/
theorem every_fires_on_multiples {command : Command} {period : Nat} {mode : PlayMode}
    (reachable : command.Reachable) (trigger : command.trigger = .every period mode) (spacing : Nat)
    {start : Nat} {windows : List Window} (contiguous : Contiguous start windows) :
    List.Forall₂ (fun window answer =>
        (answer ≠ [] ↔ window.Crosses period) ∧
          (answer ≠ [] ↔ window.start / period < window.stop / period))
      windows (command.answers spacing windows) ∧
    (command.firings spacing windows).length ≤ endOf start windows / period - start / period ∧
    ((∀ window ∈ windows, window.width ≤ period) →
      (command.firings spacing windows).length = endOf start windows / period - start / period) ∧
    (command.after spacing windows).cursor =
      (command.cursor + (command.firings spacing windows).length) %
        mode.span command.notes.length ∧
    ∀ others, Contiguous start others → endOf start others = endOf start windows →
      (∀ window ∈ windows, window.width ≤ period) → (∀ window ∈ others, window.width ≤ period) →
        command.firings spacing others = command.firings spacing windows ∧
          (command.after spacing others).cursor = (command.after spacing windows).cursor := by
  have sound := reachable.sound
  have positive := sound.period_pos period mode trigger
  have counted : ∀ windows, (command.firings spacing windows).length =
      (windows.filter command.fires).length := by
    intro windows
    rw [(sound.firings_eq spacing windows).1, length_emissions]
  have total := length_filter_fires trigger positive contiguous
  refine ⟨?_, ?_, ?_, ?_, ?_⟩
  · have bounded : ∀ window ∈ windows, window.start ≤ window.stop :=
      fun window member => (contiguous.bounds window member).2.1
    refine ((List.forall₂_and_left _ _).mpr ⟨bounded, sound.answers_forall₂ spacing windows⟩).imp ?_
    rintro window answer ⟨le, answered⟩
    exact ⟨answered.trans (fires_every_iff_crosses trigger positive le),
      answered.trans (fires_every_iff trigger positive le)⟩
  · rw [counted]
    omega
  · intro narrow
    have exactly := total.2 narrow
    rw [counted]
    omega
  · rw [counted, ← cycle_every trigger, (sound.firings_eq spacing windows).2]
    exact sound.cursor_advanceBy trigger _
  · intro others othersContiguous sameEnd narrow othersNarrow
    have exactly := total.2 narrow
    have othersExactly := (length_filter_fires trigger positive othersContiguous).2 othersNarrow
    have same : (others.filter command.fires).length = (windows.filter command.fires).length := by
      rw [sameEnd] at othersExactly
      omega
    rw [(sound.firings_eq spacing others).1, (sound.firings_eq spacing others).2, same,
      (sound.firings_eq spacing windows).1, (sound.firings_eq spacing windows).2]
    exact ⟨rfl, rfl⟩

theorem every_fires_on_multiples_at_two_cuts :
    let command := ((every 1000 [⟨.C, .natural⟩, ⟨.E, .natural⟩] .scale).poll ⟨0, 1500⟩ 250).2
    let windows : List Window := [⟨700, 1200⟩, ⟨1200, 1200⟩, ⟨1200, 2000⟩, ⟨2000, 2999⟩]
    let others : List Window := [⟨700, 1699⟩, ⟨1699, 2500⟩, ⟨2500, 2999⟩]
    (command.Reachable ∧ command.trigger = .every 1000 .scale ∧ Contiguous 700 windows ∧
        Contiguous 700 others ∧ ∀ window ∈ windows ++ others, window.width ≤ 1000) ∧
      command.firings 250 windows = [[⟨⟨.E, .natural⟩, 0⟩], [⟨⟨.C, .natural⟩, 0⟩]] ∧
      command.firings 250 others = command.firings 250 windows ∧
      (command.after 250 windows).cursor = (command.cursor + 2) % 2 := by
  intro command windows others
  have reachable : command.Reachable :=
    Reachable.poll ⟨0, 1500⟩ 250 (Reachable.every .scale (by decide) (by decide))
  have trigger : command.trigger = .every 1000 .scale := by decide
  have contiguous : Contiguous 700 windows :=
    .cons (by decide) (.cons (by decide) (.cons (by decide) (.cons (by decide) (.nil 2999))))
  have othersContiguous : Contiguous 700 others :=
    .cons (by decide) (.cons (by decide) (.cons (by decide) (.nil 2999)))
  have result := every_fires_on_multiples reachable trigger 250 contiguous
  have cut := result.2.2.2.2 others othersContiguous (by decide) (by decide) (by decide)
  have cursor := result.2.2.2.1
  have twice : (command.firings 250 windows).length = 2 := by decide
  rw [twice] at cursor
  exact ⟨⟨reachable, trigger, contiguous, othersContiguous, by decide⟩, by decide, cut.1, cursor⟩

end Command

end NoteClock
