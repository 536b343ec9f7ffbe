import Mathlib.Algebra.GroupWithZero.Nat
import NoteClock.Proofs.Spelling.Reading
import NoteClock.Time.Timestamp

/-!
Timestamps as they are written. A token is read exactly when it spells one to four segments with
different units and a sum on the timeline, and it then stands for that sum.
-/

namespace NoteClock.Timestamp

structure Segment where
  digits : List Char
  unit : TimeUnit
  nonempty : digits ≠ []
  decimal : ∀ char ∈ digits, char.isDigit = true

namespace Segment

def value (segment : Segment) : Nat := Nat.ofDigitChars 10 segment.digits 0

def millis (segment : Segment) : Nat := segment.value * segment.unit.millis

def text (segment : Segment) : List Char := segment.digits ++ segment.unit.symbol

theorem value_le_millis (segment : Segment) : segment.value ≤ segment.millis := by
  have positive : 1 ≤ segment.unit.millis := by cases segment.unit <;> decide
  exact Nat.le_mul_of_pos_right segment.value positive

theorem text_ne_nil (segment : Segment) : segment.text ≠ [] := by
  simp [text, segment.nonempty]

theorem takeWhile_symbol (unit : TimeUnit) : unit.symbol.takeWhile Char.isDigit = [] := by
  cases unit <;> rfl

theorem dropWhile_symbol (unit : TimeUnit) :
    unit.symbol.dropWhile Char.isDigit = unit.symbol := by
  cases unit <;> rfl

theorem takeWhile_text (segment : Segment) :
    segment.text.takeWhile Char.isDigit = segment.digits := by
  rw [text, List.takeWhile_append_of_pos segment.decimal, takeWhile_symbol, List.append_nil]

theorem dropWhile_text (segment : Segment) :
    segment.text.dropWhile Char.isDigit = segment.unit.symbol := by
  rw [text, List.dropWhile_append_of_pos segment.decimal, dropWhile_symbol]

theorem symbol_subset (unit : TimeUnit) : unit.symbol ⊆ ['h', 'm', 's', 'd'] := by
  cases unit <;> simp [TimeUnit.symbol]

theorem mem_text {segment : Segment} {char : Char} (member : char ∈ segment.text) :
    char.isDigit = true ∨ char ∈ ['h', 'm', 's', 'd'] := by
  rcases List.mem_append.mp member with digit | letter
  · exact Or.inl (segment.decimal char digit)
  · exact Or.inr (symbol_subset segment.unit letter)

theorem separator_not_mem_text (segment : Segment) : ':' ∉ segment.text := by
  intro member
  rcases mem_text member with digit | letter
  · exact absurd digit (by decide)
  · exact absurd letter (by decide)

end Segment

theorem parseSegment_eq_ok_iff {text : List Char} {value : Nat} {unit : TimeUnit} :
    parseSegment text = .ok (value, unit) ↔
      ∃ segment : Segment, segment.text = text ∧ segment.value = value ∧ segment.unit = unit ∧
        value ≤ maxMillis := by
  constructor
  · intro parsed
    simp only [parseSegment] at parsed
    split at parsed
    · simp at parsed
    · rename_i nonempty
      split at parsed
      · simp at parsed
      · rename_i found foundEq
        split at parsed
        · rename_i bounded
          simp only [Except.ok.injEq, Prod.mk.injEq] at parsed
          obtain ⟨rfl, rfl⟩ := parsed
          have symbolEq := TimeUnit.ofSymbol?_eq_some_iff.mp foundEq
          have decimal : ∀ char ∈ text.takeWhile Char.isDigit, char.isDigit = true :=
            List.all_eq_true.mp List.all_takeWhile
          refine ⟨⟨text.takeWhile Char.isDigit, found, nonempty, decimal⟩, ?_, rfl, rfl, bounded⟩
          rw [Segment.text, ← symbolEq, List.takeWhile_append_dropWhile]
        · simp at parsed
  · rintro ⟨segment, rfl, rfl, rfl, bounded⟩
    have bound : Nat.ofDigitChars 10 segment.digits 0 ≤ maxMillis := bounded
    simp only [parseSegment, Segment.takeWhile_text, Segment.dropWhile_text, segment.nonempty,
      if_false, TimeUnit.ofSymbol?_symbol, bound, if_true, Segment.value]

/-- Segments that may follow others whose units are `seen` and whose total is `sum`. -/
structure Continues (seen : List TimeUnit) (sum : Nat) (segments : List Segment) : Prop where
  few : seen.length + segments.length ≤ maxSegments
  unseen : ∀ segment ∈ segments, segment.unit ∉ seen
  distinct : (segments.map (·.unit)).Nodup
  bounded : sum + (segments.map Segment.millis).sum ≤ maxMillis

theorem continues_nil_iff {seen : List TimeUnit} {sum : Nat} :
    Continues seen sum [] ↔ seen.length ≤ maxSegments ∧ sum ≤ maxMillis := by
  constructor
  · intro continues
    exact ⟨by simpa using continues.few, by simpa using continues.bounded⟩
  · rintro ⟨few, bounded⟩
    exact ⟨by simpa using few, by simp, by simp, by simpa using bounded⟩

theorem continues_cons_iff {seen : List TimeUnit} {sum : Nat} {segment : Segment}
    {segments : List Segment} :
    Continues seen sum (segment :: segments) ↔
      segment.unit ∉ seen ∧ Continues (segment.unit :: seen) (sum + segment.millis) segments := by
  constructor
  · intro continues
    have few := continues.few
    have bounded := continues.bounded
    have distinct := List.nodup_cons.mp continues.distinct
    simp only [List.length_cons, List.map_cons, List.sum_cons] at few bounded
    refine ⟨continues.unseen segment (by simp), ?_, ?_, distinct.2, by omega⟩
    · simp only [List.length_cons]
      omega
    · intro later member seenLater
      rcases List.mem_cons.mp seenLater with same | earlier
      · exact distinct.1 (List.mem_map.mpr ⟨later, member, same⟩)
      · exact continues.unseen later (List.mem_cons_of_mem _ member) earlier
  · rintro ⟨unseen, tail⟩
    have few := tail.few
    have bounded := tail.bounded
    simp only [List.length_cons] at few
    refine ⟨?_, ?_, ?_, ?_⟩
    · simp only [List.length_cons]
      omega
    · intro later member
      rcases List.mem_cons.mp member with rfl | later
      · exact unseen
      · exact fun earlier => tail.unseen _ later (List.mem_cons_of_mem _ earlier)
    · refine List.nodup_cons.mpr ⟨?_, tail.distinct⟩
      intro member
      obtain ⟨later, laterMember, same⟩ := List.mem_map.mp member
      exact tail.unseen later laterMember (by simp [same])
    · simp only [List.map_cons, List.sum_cons]
      omega

theorem sumSegments_text (before : List Char) (seen : List TimeUnit) (sum : Nat)
    (segment : Segment) (texts : List (List Char)) (room : seen.length < maxSegments)
    (unseen : segment.unit ∉ seen) (fits : sum + segment.millis ≤ maxMillis) :
    sumSegments before seen sum (segment.text :: texts) =
      sumSegments (before ++ segment.text ++ [':']) (segment.unit :: seen)
        (sum + segment.millis) texts := by
  have valueBound := segment.value_le_millis
  have parsed : parseSegment segment.text = .ok (segment.value, segment.unit) :=
    parseSegment_eq_ok_iff.mpr ⟨segment, rfl, rfl, rfl, by omega⟩
  have notFull : ¬maxSegments ≤ seen.length := by omega
  have notHuge : ¬maxMillis < sum + segment.value * segment.unit.millis := by
    change ¬maxMillis < sum + segment.millis
    omega
  simp only [sumSegments, notFull, segment.text_ne_nil, parsed, unseen, notHuge, if_false]
  rfl

theorem sumSegments_eq_ok_iff {before : List Char} {seen : List TimeUnit} {sum millis : Nat}
    {texts : List (List Char)} (few : seen.length ≤ maxSegments) (bounded : sum ≤ maxMillis) :
    sumSegments before seen sum texts = .ok millis ↔
      ∃ segments : List Segment, segments.map Segment.text = texts ∧
        Continues seen sum segments ∧ sum + (segments.map Segment.millis).sum = millis := by
  induction texts generalizing before seen sum with
  | nil =>
      simp only [sumSegments, Except.ok.injEq, List.map_eq_nil_iff]
      constructor
      · rintro rfl
        exact ⟨[], rfl, continues_nil_iff.mpr ⟨few, bounded⟩, by simp⟩
      · rintro ⟨segments, rfl, _, total⟩
        simpa using total
  | cons text texts ih =>
      constructor
      · intro parsed
        simp only [sumSegments] at parsed
        split at parsed
        · simp at parsed
        split at parsed
        · simp at parsed
        split at parsed
        · simp at parsed
        rename_i room _ _ value unit segmentEq
        obtain ⟨segment, rfl, rfl, rfl, _⟩ := parseSegment_eq_ok_iff.mp segmentEq
        split at parsed
        · simp at parsed
        split at parsed
        · simp at parsed
        rename_i unseen notHuge
        have fits : sum + segment.millis ≤ maxMillis := Nat.le_of_not_lt notHuge
        have stillFew : (segment.unit :: seen).length ≤ maxSegments := by
          simp only [List.length_cons]
          omega
        obtain ⟨segments, rfl, tail, total⟩ := (ih stillFew fits).mp parsed
        refine ⟨segment :: segments, rfl, continues_cons_iff.mpr ⟨unseen, tail⟩, ?_⟩
        rw [List.map_cons, List.sum_cons, ← Nat.add_assoc]
        exact total
      · rintro ⟨segments, textsEq, continues, total⟩
        cases segments with
        | nil => simp at textsEq
        | cons segment segments =>
            simp only [List.map_cons, List.cons.injEq] at textsEq
            obtain ⟨rfl, rfl⟩ := textsEq
            obtain ⟨unseen, tail⟩ := continues_cons_iff.mp continues
            have room := tail.few
            have fits := tail.bounded
            simp only [List.length_cons] at room
            rw [sumSegments_text before seen sum segment _ (by omega) unseen (by omega)]
            refine (ih (by simp only [List.length_cons]; omega) (by omega)).mpr
              ⟨segments, rfl, tail, ?_⟩
            rw [← total, List.map_cons, List.sum_cons, ← Nat.add_assoc]

structure Spelling where
  segments : List Segment
  nonempty : segments ≠ []
  few : segments.length ≤ maxSegments
  distinct : (segments.map (·.unit)).Nodup
  bounded : (segments.map Segment.millis).sum ≤ maxMillis

namespace Spelling

def text (spelling : Spelling) : List Char :=
  [':'].intercalate (spelling.segments.map Segment.text)

def millis (spelling : Spelling) : Nat := (spelling.segments.map Segment.millis).sum

theorem splitOn_text (spelling : Spelling) :
    spelling.text.splitOn ':' = spelling.segments.map Segment.text := by
  apply List.splitOn_intercalate
  · intro text member
    obtain ⟨segment, _, rfl⟩ := List.mem_map.mp member
    exact segment.separator_not_mem_text
  · simpa using spelling.nonempty

theorem head?_text (spelling : Spelling) :
    ∃ first, spelling.text.head? = some first ∧ first.isDigit = true := by
  obtain ⟨segment, rest, segmentsEq⟩ := List.exists_cons_of_ne_nil spelling.nonempty
  obtain ⟨first, digits, digitsEq⟩ := List.exists_cons_of_ne_nil segment.nonempty
  refine ⟨first, ?_, segment.decimal first (by simp [digitsEq])⟩
  rw [text, segmentsEq, List.map_cons, intercalate_cons, Segment.text, digitsEq]
  rfl

theorem mem_text {spelling : Spelling} {char : Char} (member : char ∈ spelling.text) :
    char.isDigit = true ∨ char ∈ ['h', 'm', 's', 'd', ':'] := by
  rcases eq_or_mem_of_mem_intercalate member with rfl | ⟨piece, pieceMember, inside⟩
  · exact Or.inr (by decide)
  · obtain ⟨segment, _, rfl⟩ := List.mem_map.mp pieceMember
    rcases Segment.mem_text inside with digit | letter
    · exact Or.inl digit
    · exact Or.inr (List.mem_append_left [':'] letter)

end Spelling

theorem parse_eq_ok_iff {token : List Char} {millis : Nat} :
    parse token = .ok millis ↔
      ∃ spelling : Spelling, spelling.text = token ∧ spelling.millis = millis := by
  constructor
  · intro parsed
    simp only [parse] at parsed
    split at parsed
    · simp at parsed
    split at parsed
    · simp at parsed
    obtain ⟨segments, pieces, continues, total⟩ :=
      (sumSegments_eq_ok_iff (by simp) (Nat.zero_le _)).mp parsed
    have nonempty : segments ≠ [] := by
      rintro rfl
      exact List.splitOn_ne_nil ':' token pieces.symm
    refine ⟨⟨segments, nonempty, by simpa using continues.few, continues.distinct,
      by simpa using continues.bounded⟩, ?_, by simpa [Spelling.millis] using total⟩
    rw [Spelling.text, pieces, List.intercalate_splitOn]
  · rintro ⟨spelling, rfl, rfl⟩
    have pieces := spelling.splitOn_text
    have noneEmpty : [] ∉ spelling.text.splitOn ':' := by
      rw [pieces]
      intro member
      obtain ⟨segment, _, empty⟩ := List.mem_map.mp member
      exact segment.text_ne_nil empty
    have nonempty : spelling.text ≠ [] := by
      intro empty
      rw [empty] at noneEmpty
      simp at noneEmpty
    have notOpen : spelling.text.getLast? ≠ some ':' := fun last => noneEmpty (nil_mem_splitOn last)
    simp only [parse, nonempty, notOpen, if_false, pieces]
    exact (sumSegments_eq_ok_iff (by simp) (Nat.zero_le _)).mpr
      ⟨spelling.segments, rfl, ⟨by simpa using spelling.few, by simp, spelling.distinct,
        by simpa using spelling.bounded⟩, by simp [Spelling.millis]⟩

end NoteClock.Timestamp
