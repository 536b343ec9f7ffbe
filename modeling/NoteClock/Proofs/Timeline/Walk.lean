import NoteClock.Proofs.Timeline.Tiling

/-!
Schedules window by window. From each window the next one is found by a sum that stops at the end of the
timeline, until the length is reached. That always happens, and what is then placed is the schedule.
-/

namespace NoteClock.Schedule

theorem lt_ceilDiv_iff_mul_lt {length width index : Nat} (positive : 0 < width) :
    index < length ⌈/⌉ width ↔ index * width < length := by
  rw [← not_le, ceilDiv_le_iff_le_mul positive, Nat.mul_comm, not_le]

/-- A schedule under way: the instant it has come to, what it has placed, and the rules as they stand. -/
structure Walk where
  now : Nat
  placements : List Placement
  rules : RuleSet

namespace Walk

def start (rules : RuleSet) : Walk := ⟨0, [], rules⟩

section Turn

variable (length tick : Nat) (walk : Walk)

def window : Window := ⟨walk.now, min (saturate (walk.now + max tick 1)) length⟩

def turn : Walk :=
  let window := walk.window length tick
  let (events, rules) := walk.rules.poll window
  ⟨window.stop, walk.placements ++ events.map (place window), rules⟩

end Turn

/-- The walk takes a turn for each of the windows, and then it has reached the length. -/
inductive Takes (length tick : Nat) : Walk → List Window → Walk → Prop
  | done {walk} : length ≤ walk.now → Takes length tick walk [] walk
  | next {walk windows last} : walk.now < length →
      Takes length tick (walk.turn length tick) windows last →
      Takes length tick walk (walk.window length tick :: windows) last

variable {length tick : Nat} {walk last : Walk} {windows : List Window}

/-- Only at the end of the timeline could a turn stay where it is, and no length lies beyond it. -/
theorem lt_now_turn (bounded : length ≤ maxMillis) (short : walk.now < length) :
    walk.now < (walk.turn length tick).now := by
  change walk.now < min (saturate (walk.now + max tick 1)) length
  rw [saturate]
  omega

theorem now_turn_le : (walk.turn length tick).now ≤ length := Nat.min_le_right _ _

/-- The distance to the length shrinks with every turn. -/
theorem exists_takes (bounded : length ≤ maxMillis) (tick : Nat) (walk : Walk) :
    ∃ windows last, Takes length tick walk windows last := by
  generalize left : length - walk.now = distance
  induction distance using Nat.strongRecOn generalizing walk with
  | ind distance ih =>
      by_cases short : walk.now < length
      · have onward : walk.now < (walk.turn length tick).now := lt_now_turn bounded short
        obtain ⟨windows, last, takes⟩ := ih _ (by omega) (walk.turn length tick) rfl
        exact ⟨_, last, .next short takes⟩
      · exact ⟨[], walk, .done (Nat.not_lt.mp short)⟩

theorem Takes.unique {others : List Window} {otherLast : Walk}
    (takes : Takes length tick walk windows last)
    (otherTakes : Takes length tick walk others otherLast) :
    others = windows ∧ otherLast = last := by
  induction takes generalizing others otherLast with
  | done reached =>
      cases otherTakes with
      | done => exact ⟨rfl, rfl⟩
      | next short => exact absurd short (Nat.not_lt.mpr reached)
  | next short _ ih =>
      cases otherTakes with
      | done reached => exact absurd short (Nat.not_lt.mpr reached)
      | next _ otherTakes =>
          obtain ⟨rfl, rfl⟩ := ih otherTakes
          exact ⟨rfl, rfl⟩

theorem Takes.now_last (takes : Takes length tick walk windows last) (within : walk.now ≤ length) :
    last.now = length := by
  induction takes with
  | done reachedLength => exact Nat.le_antisymm within reachedLength
  | next _ _ ih => exact ih now_turn_le

theorem Takes.last_eq (takes : Takes length tick walk windows last) :
    last.placements =
        walk.placements ++ (walk.rules.pollAll windows).1.toList.flatMap placeAll ∧
      last.rules = (walk.rules.pollAll windows).2 := by
  induction takes with
  | done => simp [RuleSet.pollAll_nil]
  | @next walk windows last _ _ ih =>
      obtain ⟨placements, rules⟩ := ih
      rw [RuleSet.pollAll_cons, placements, rules]
      simp [turn, placeAll]

theorem window_eq_clipped (bounded : length ≤ maxMillis) {index : Nat}
    (reached : walk.now = index * max tick 1) :
    walk.window length tick = clipped length (max tick 1) index := by
  have next : min (saturate (index * max tick 1 + max tick 1)) length =
      min ((index + 1) * max tick 1) length := by
    rw [saturate, Nat.succ_mul]
    omega
  rw [window, clipped, reached, next]

theorem Takes.windows_eq (takes : Takes length tick walk windows last) (bounded : length ≤ maxMillis)
    {index : Nat} (reached : walk.now = min (index * max tick 1) length) :
    windows = (List.range' index (length ⌈/⌉ max tick 1 - index)).map
      (clipped length (max tick 1)) := by
  have positive : 0 < max tick 1 := by omega
  induction takes generalizing index with
  | done reachedLength =>
      have noMore : ¬index < length ⌈/⌉ max tick 1 :=
        mt (lt_ceilDiv_iff_mul_lt positive).mp (by omega)
      rw [Nat.sub_eq_zero_of_le (Nat.not_lt.mp noMore)]
      rfl
  | @next walk windows last short _ ih =>
      have here : walk.now = index * max tick 1 := by omega
      have more : index < length ⌈/⌉ max tick 1 := (lt_ceilDiv_iff_mul_lt positive).mpr (by omega)
      have next : (walk.turn length tick).now = min ((index + 1) * max tick 1) length :=
        congrArg Window.stop (window_eq_clipped bounded here)
      have count : length ⌈/⌉ max tick 1 - index = length ⌈/⌉ max tick 1 - (index + 1) + 1 := by
        omega
      rw [ih next, window_eq_clipped bounded here, count, List.range'_succ, List.map_cons]

end Walk

variable (length tick : Nat)

theorem windows_eq_map_clipped :
    windows length tick =
      (List.range (length ⌈/⌉ max tick 1)).map (clipped length (max tick 1)) := by
  have count : (length + (max tick 1 - 1)) / max tick 1 = length ⌈/⌉ max tick 1 := by
    rw [Nat.ceilDiv_eq_add_pred_div]
    congr 1
    omega
  rw [windows, count]
  rfl

theorem length_windows : (windows length tick).length = length ⌈/⌉ max tick 1 := by
  rw [windows_eq_map_clipped, List.length_map, List.length_range]

theorem windows_zero : windows 0 tick = [] := by
  apply List.eq_nil_of_length_eq_zero
  rw [length_windows, zero_ceilDiv]

variable {length tick}

theorem clipped_of_lt {width index : Nat} (positive : 0 < width)
    (inside : index < length ⌈/⌉ width) :
    let tile := clipped length width index
    tile.start < tile.stop ∧ tile.width ≤ width ∧
      (index + 1 < length ⌈/⌉ width → tile.width = width) := by
  have begun := (lt_ceilDiv_iff_mul_lt positive).mp inside
  simp only [clipped, Window.width, lt_ceilDiv_iff_mul_lt positive, Nat.succ_mul] at *
  omega

theorem tile_of_mem {window : Window} (member : window ∈ windows length tick) :
    window.start < window.stop ∧ window.width ≤ max tick 1 := by
  rw [windows_eq_map_clipped, List.mem_map] at member
  obtain ⟨index, inside, rfl⟩ := member
  have tile := clipped_of_lt (by omega) (List.mem_range.mp inside)
  exact ⟨tile.1, tile.2.1⟩

theorem width_of_mem_dropLast {window : Window} (member : window ∈ (windows length tick).dropLast) :
    window.width = max tick 1 := by
  rw [windows_eq_map_clipped, ← List.map_dropLast, List.dropLast_eq_take, List.take_range,
    List.length_range, List.mem_map] at member
  obtain ⟨index, inside, rfl⟩ := member
  have follows : index + 1 < length ⌈/⌉ max tick 1 := by
    have below := List.mem_range.mp inside
    omega
  exact (clipped_of_lt (by omega) (Nat.lt_of_succ_lt follows)).2.2 follows

/-- Whatever its length and its tick, a schedule comes to its end, and what it places up to there is all
that it places. The windows on the way are not empty, follow each other from zero to the length, and are
as wide as a tick, but for the last, which may be narrower. So there are as many as ticks begin in the
length, and each instant in front of its end lies in one of them alone. -/
theorem every_walk_ends_and_tiles_its_length (rules : RuleSet) {length : Nat}
    (bounded : length ≤ maxMillis) (tick : Nat) :
    let tiles := windows length tick
    let placed := schedule rules length tick
    (∀ windows last, Walk.Takes length tick (.start rules) windows last ↔
      windows = tiles ∧ last = ⟨length, placed.1, placed.2⟩) ∧
    tiles.length = length ⌈/⌉ max tick 1 ∧
    (Contiguous 0 tiles ∧ endOf 0 tiles = length) ∧
    (∀ window ∈ tiles, window.start < window.stop ∧ window.width ≤ max tick 1) ∧
    (∀ window ∈ tiles.dropLast, window.width = max tick 1) ∧
    (∀ instant, instant < length → ∃ window, tiles.filter (·.contains instant) = [window]) ∧
    (length = 0 → tiles = [] ∧ placed = ([], rules)) := by
  intro tiles placed
  obtain ⟨contiguous, ended⟩ := contiguous_windows length tick
  obtain ⟨windows, last, takes⟩ := Walk.exists_takes bounded tick (.start rules)
  have way : windows = tiles := by
    have begun : (Walk.start rules).now = min (0 * max tick 1) length := by simp [Walk.start]
    rw [takes.windows_eq bounded begun, Nat.sub_zero, ← List.range_eq_range']
    exact (windows_eq_map_clipped length tick).symm
  have goal : last = ⟨length, placed.1, placed.2⟩ := by
    have now := takes.now_last (Nat.zero_le length)
    obtain ⟨placements, after⟩ := takes.last_eq
    rw [way] at placements after
    obtain ⟨_, _, _⟩ := last
    simp only at now placements after
    rw [now, placements, after]
    rfl
  refine ⟨?_, length_windows length tick, ⟨contiguous, ended⟩, fun window => tile_of_mem,
    fun window => width_of_mem_dropLast, ?_, ?_⟩
  · intro others otherLast
    constructor
    · intro otherTakes
      rw [← way, ← goal]
      exact takes.unique otherTakes
    · rintro ⟨rfl, rfl⟩
      rw [← way, ← goal]
      exact takes
  · intro instant below
    rw [← ended] at below
    obtain ⟨window, _, only⟩ := contiguous.exists_filter_contains (Nat.zero_le instant) below
    exact ⟨window, only⟩
  · rintro rfl
    refine ⟨windows_zero tick, ?_⟩
    change schedule rules 0 tick = ([], rules)
    rw [schedule, windows_zero]
    rfl

theorem every_walk_ends_and_tiles_its_length_at_the_end_of_time :
    let rules : RuleSet := ⟨[.once 18446744073709551614 [⟨.C, .natural⟩]], 250⟩
    let tick := 9223372036854775808
    let tiles : List Window := [⟨0, tick⟩, ⟨tick, maxMillis⟩]
    let last : Walk := ⟨maxMillis, [⟨maxMillis, ⟨.C, .natural⟩⟩], rules⟩
    maxMillis ≤ maxMillis ∧
      Walk.Takes maxMillis tick (.start rules) tiles last ∧
      (∀ windows other, Walk.Takes maxMillis tick (.start rules) windows other →
        windows = tiles ∧ other = last) ∧
      tiles.length = maxMillis ⌈/⌉ tick ∧
      (Contiguous 0 tiles ∧ endOf 0 tiles = maxMillis) ∧
      (∀ window ∈ tiles.dropLast, window.width = tick) ∧
      ∃ window, tiles.filter (·.contains 18446744073709551614) = [window] := by
  intro rules tick tiles last
  have bounded : maxMillis ≤ maxMillis := Nat.le_refl _
  have cut : windows maxMillis tick = tiles := by decide +kernel
  have placed : schedule rules maxMillis tick = (last.placements, rules) := by decide +kernel
  obtain ⟨ends, count, contiguous, _, wide, holds, _⟩ :=
    every_walk_ends_and_tiles_its_length rules bounded tick
  rw [cut] at ends count contiguous wide holds
  rw [placed] at ends
  exact ⟨bounded, (ends _ _).mpr ⟨rfl, rfl⟩, fun windows other => (ends windows other).mp, count,
    contiguous, wide, holds _ (by decide)⟩

end NoteClock.Schedule
