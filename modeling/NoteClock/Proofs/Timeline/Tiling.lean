import Mathlib.Algebra.Order.Floor.Div
import NoteClock.Schedule
import NoteClock.Proofs.Timeline.Firing

/-!
The windows of a schedule. They follow each other from zero to the length of the schedule, none wider
than a tick, and the window that an instant falls into ends at the next multiple of the tick.
-/

namespace NoteClock.Schedule

def clipped (length width index : Nat) : Window :=
  ⟨index * width, min ((index + 1) * width) length⟩

theorem contiguous_clipped {length width : Nat} (count start : Nat)
    (below : (start + count) * width < length + width) :
    let tiles := (List.range' start count).map (clipped length width)
    Contiguous (min (start * width) length) tiles ∧
      endOf (min (start * width) length) tiles = min ((start + count) * width) length := by
  induction count generalizing start with
  | zero => exact ⟨Contiguous.nil _, rfl⟩
  | succ count ih =>
      have shift : start + (count + 1) = start + 1 + count := by omega
      rw [shift] at below ⊢
      obtain ⟨tail, tailEnd⟩ := ih (start + 1) below
      have upTo : start * width ≤ length := by
        have mono : start * width ≤ (start + count) * width :=
          Nat.mul_le_mul_right width (Nat.le_add_right start count)
        rw [Nat.add_right_comm, Nat.succ_mul] at below
        omega
      have grows : start * width ≤ min ((start + 1) * width) length := by
        rw [Nat.succ_mul]
        omega
      simp only [List.range'_succ, List.map_cons, Nat.min_eq_left upTo]
      exact ⟨Contiguous.cons grows tail, (endOf_cons _ _ _).trans tailEnd⟩

theorem count_bounds (length : Nat) {width : Nat} (positive : 1 ≤ width) :
    let count := (length + (width - 1)) / width
    length ≤ count * width ∧ count * width < length + width := by
  intro count
  have parts := Nat.div_add_mod' (length + (width - 1)) width
  have small := Nat.mod_lt (length + (width - 1)) positive
  change length ≤ (length + (width - 1)) / width * width ∧
    (length + (width - 1)) / width * width < length + width
  omega

theorem contiguous_windows (length tick : Nat) :
    Contiguous 0 (windows length tick) ∧ endOf 0 (windows length tick) = length := by
  obtain ⟨covers, below⟩ := count_bounds length (Nat.le_max_right tick 1)
  rw [← Nat.zero_add (_ / _)] at below
  obtain ⟨contiguous, ended⟩ := contiguous_clipped _ 0 below
  simp only [Nat.zero_mul, Nat.zero_min, Nat.zero_add] at contiguous ended
  rw [windows, List.range_eq_range']
  exact ⟨contiguous, ended.trans (Nat.min_eq_right covers)⟩

theorem stop_le_of_mem {length tick : Nat} {window : Window}
    (member : window ∈ windows length tick) : window.stop ≤ length := by
  obtain ⟨contiguous, ended⟩ := contiguous_windows length tick
  have bounds := contiguous.bounds window member
  rw [ended] at bounds
  exact bounds.2.2

theorem exists_clipped_of_mem {length tick : Nat} (positive : 1 ≤ tick) {window : Window}
    (member : window ∈ windows length tick) : ∃ index, clipped length tick index = window := by
  rw [windows, Nat.max_eq_left positive] at member
  obtain ⟨index, _, same⟩ := List.mem_map.mp member
  exact ⟨index, same⟩

theorem width_le_of_mem {length tick : Nat} (positive : 1 ≤ tick) {window : Window}
    (member : window ∈ windows length tick) : window.width ≤ tick := by
  obtain ⟨index, rfl⟩ := exists_clipped_of_mem positive member
  change min ((index + 1) * tick) length - index * tick ≤ tick
  rw [Nat.succ_mul]
  omega

def endHolding (length tick instant : Nat) : Nat := min ((instant / tick + 1) * tick) length

def endReaching (length tick instant : Nat) : Nat := min (instant ⌈/⌉ tick * tick) length

theorem endHolding_eq (length : Nat) {tick : Nat} (positive : 1 ≤ tick) (instant : Nat) :
    endHolding length tick instant = endReaching length tick (instant + 1) := by
  have shift : instant + 1 + tick - 1 = instant + tick := by omega
  rw [endReaching, Nat.ceilDiv_eq_add_pred_div, shift, Nat.add_div_right _ positive, endHolding]

theorem stop_of_reaches {length tick : Nat} (positive : 1 ≤ tick) {window : Window}
    (member : window ∈ windows length tick) {instant : Nat}
    (reached : window.reaches instant = true) : window.stop = endReaching length tick instant := by
  obtain ⟨index, rfl⟩ := exists_clipped_of_mem positive member
  obtain ⟨after, upTo⟩ := Window.reaches_iff.mp reached
  have within : instant ≤ (index + 1) * tick := Nat.le_trans upTo (Nat.min_le_left _ _)
  have quotient : instant ⌈/⌉ tick = index + 1 := by
    rw [Nat.ceilDiv_eq_add_pred_div]
    simp only [clipped] at after
    apply Nat.div_eq_of_lt_le
    · rw [Nat.succ_mul]
      omega
    · rw [Nat.succ_mul]
      omega
  rw [endReaching, quotient, clipped]

theorem stop_of_contains {length tick : Nat} (positive : 1 ≤ tick) {window : Window}
    (member : window ∈ windows length tick) {instant : Nat}
    (holds : window.contains instant = true) : window.stop = endHolding length tick instant := by
  rw [endHolding_eq length positive]
  apply stop_of_reaches positive member
  rw [Window.reaches_succ, holds]

theorem endReaching_bounds (length : Nat) {tick : Nat} (positive : 1 ≤ tick) (instant : Nat) :
    min instant length ≤ endReaching length tick instant ∧
      endReaching length tick instant ≤ min (instant + (tick - 1)) length := by
  have parts := Nat.div_add_mod' (instant + tick - 1) tick
  have small := Nat.mod_lt (instant + tick - 1) positive
  rw [endReaching, Nat.ceilDiv_eq_add_pred_div]
  omega

end NoteClock.Schedule
