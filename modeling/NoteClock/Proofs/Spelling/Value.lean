import Mathlib.Algebra.BigOperators.Ring.List
import Mathlib.Algebra.Ring.Nat
import Mathlib.Data.List.Perm.Basic
import NoteClock.Proofs.Spelling.Timestamp

/-!
What timestamps are worth. The order of the segments does not matter, and together they reach
exactly the multiples of a decisecond on the timeline.
-/

namespace NoteClock.Timestamp

namespace Segment

theorem hundred_dvd_millis (segment : Segment) : 100 ∣ segment.millis := by
  have whole : 100 ∣ segment.unit.millis := by cases segment.unit <;> decide
  exact Dvd.dvd.mul_left whole segment.value

def deciseconds (count : Nat) : Segment where
  digits := Nat.toDigits 10 count
  unit := .decisecond
  nonempty := Nat.toDigits_ne_nil
  decimal := fun _ member => Nat.isDigit_of_mem_toDigits (by omega) (by omega) member

theorem millis_deciseconds (count : Nat) : (deciseconds count).millis = count * 100 := by
  rw [millis, value, deciseconds, Nat.ofDigitChars_ten_toDigits]
  rfl

end Segment

namespace Spelling

theorem hundred_dvd_millis (spelling : Spelling) : 100 ∣ spelling.millis := by
  rw [millis]
  apply List.dvd_sum
  intro value member
  obtain ⟨segment, _, rfl⟩ := List.mem_map.mp member
  exact segment.hundred_dvd_millis

def reorder (spelling : Spelling) (segments : List Segment)
    (reordered : segments.Perm spelling.segments) : Spelling where
  segments := segments
  nonempty := fun empty => spelling.nonempty (List.nil_perm.mp (empty ▸ reordered))
  few := reordered.length_eq ▸ spelling.few
  distinct := (reordered.map (·.unit)).nodup_iff.mpr spelling.distinct
  bounded := (reordered.map Segment.millis).sum_eq ▸ spelling.bounded

theorem millis_reorder (spelling : Spelling) {segments : List Segment}
    (reordered : segments.Perm spelling.segments) :
    (spelling.reorder segments reordered).millis = spelling.millis :=
  (reordered.map Segment.millis).sum_eq

def deciseconds (count : Nat) (bounded : count * 100 ≤ maxMillis) : Spelling where
  segments := [.deciseconds count]
  nonempty := by simp
  few := by simp [maxSegments]
  distinct := by simp
  bounded := by simpa [Segment.millis_deciseconds] using bounded

theorem millis_deciseconds {count : Nat} (bounded : count * 100 ≤ maxMillis) :
    (deciseconds count bounded).millis = count * 100 := by
  simp [deciseconds, millis, Segment.millis_deciseconds]

end Spelling

theorem lt_two_pow_iff {millis : Nat} : millis < 2 ^ 64 ↔ millis ≤ maxMillis := by
  unfold maxMillis
  omega

theorem parse_eq_ok_iff_sum {token : List Char} {millis : Nat} :
    parse token = .ok millis ↔
      ∃ segments : List Segment, segments ≠ [] ∧ segments.length ≤ 4 ∧
        (segments.map (·.unit)).Nodup ∧ [':'].intercalate (segments.map Segment.text) = token ∧
        (segments.map Segment.millis).sum = millis ∧ millis < 2 ^ 64 := by
  rw [parse_eq_ok_iff]
  constructor
  · rintro ⟨spelling, rfl, rfl⟩
    exact ⟨spelling.segments, spelling.nonempty, spelling.few, spelling.distinct, rfl, rfl,
      lt_two_pow_iff.mpr spelling.bounded⟩
  · rintro ⟨segments, nonempty, few, distinct, rfl, rfl, bounded⟩
    exact ⟨⟨segments, nonempty, few, distinct, lt_two_pow_iff.mp bounded⟩, rfl, rfl⟩

theorem parse_of_perm {token : List Char} {millis : Nat} (accepted : parse token = .ok millis)
    {pieces : List (List Char)} (reordered : pieces.Perm (token.splitOn ':')) :
    parse ([':'].intercalate pieces) = .ok millis := by
  obtain ⟨spelling, rfl, rfl⟩ := parse_eq_ok_iff.mp accepted
  rw [spelling.splitOn_text] at reordered
  have matched := congrFun (congrFun (List.eq_map_comp_perm Segment.text) pieces) spelling.segments
  obtain ⟨segments, rfl, segmentsReordered⟩ := matched.mpr reordered
  exact parse_eq_ok_iff.mpr
    ⟨spelling.reorder segments segmentsReordered, rfl, spelling.millis_reorder segmentsReordered⟩

theorem exists_parse_eq_ok {millis : Nat} (bounded : millis ≤ maxMillis) (whole : 100 ∣ millis) :
    ∃ token, parse token = .ok millis := by
  obtain ⟨count, rfl⟩ := whole
  rw [Nat.mul_comm] at bounded ⊢
  exact ⟨_, parse_eq_ok_iff.mpr
    ⟨.deciseconds count bounded, rfl, Spelling.millis_deciseconds bounded⟩⟩

/-- A token is accepted exactly when it writes a sum of one to four different units that stays on
the timeline, in any order, and the values are the multiples of a decisecond. -/
theorem accepted_exactly_as_sums :
    (∀ token millis, parse token = .ok millis ↔
      ∃ segments : List Segment, segments ≠ [] ∧ segments.length ≤ 4 ∧
        (segments.map (·.unit)).Nodup ∧ [':'].intercalate (segments.map Segment.text) = token ∧
        (segments.map Segment.millis).sum = millis ∧ millis < 2 ^ 64) ∧
    (∀ token millis, parse token = .ok millis →
      (∀ pieces : List (List Char), pieces.Perm (token.splitOn ':') →
        parse ([':'].intercalate pieces) = .ok millis) ∧
      100 ∣ millis) ∧
    ∀ millis, millis < 2 ^ 64 → 100 ∣ millis → ∃ token, parse token = .ok millis := by
  refine ⟨fun _ _ => parse_eq_ok_iff_sum, ?_, ?_⟩
  · intro token millis accepted
    refine ⟨fun pieces reordered => parse_of_perm accepted reordered, ?_⟩
    obtain ⟨spelling, _, rfl⟩ := parse_eq_ok_iff.mp accepted
    exact spelling.hundred_dvd_millis
  · intro millis bounded whole
    exact exists_parse_eq_ok (lt_two_pow_iff.mp bounded) whole

theorem accepted_exactly_as_sums_up_to_the_end_of_time :
    let token := "5124095576030h:0025m:51s:6ds".toList
    let other := "6ds:0025m:5124095576030h:51s".toList
    let last := 18446744073709551600
    (parse token = .ok last ∧ (other.splitOn ':').Perm (token.splitOn ':') ∧ last < 2 ^ 64) ∧
      parse ([':'].intercalate (other.splitOn ':')) = .ok last ∧ 100 ∣ last ∧
      ∃ spelled, parse spelled = .ok last := by
  intro token other last
  have accepted : parse token = .ok last := by decide +kernel
  have reordered : (other.splitOn ':').Perm (token.splitOn ':') := List.isPerm_iff.mp rfl
  have bounded : last < 2 ^ 64 := by omega
  have whole := accepted_exactly_as_sums.2.1 token last accepted
  exact ⟨⟨accepted, reordered, bounded⟩, whole.1 (other.splitOn ':') reordered, whole.2,
    accepted_exactly_as_sums.2.2 last bounded whole.2⟩

end NoteClock.Timestamp
