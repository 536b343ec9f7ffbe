import Mathlib.Data.List.Basic
import Mathlib.Data.List.Induction
import NoteClock.Proofs.Spelling.Timestamp

/-!
Timestamps that are refused. Behind segments that stand, the next one either offends, for a cause
that does not depend on what follows it, or stands as well; the first that offends is reported.
-/

namespace NoteClock.Timestamp

def byteLength (text : List Char) : Nat := (String.ofList text).utf8ByteSize

theorem byteLength_append (front back : List Char) :
    byteLength (front ++ back) = byteLength front + byteLength back := by
  simp only [byteLength, String.ofList_append, String.utf8ByteSize_append]

theorem byteLength_pos {text : List Char} (nonempty : text ≠ []) : 0 < byteLength text := by
  rw [Nat.pos_iff_ne_zero]
  intro zero
  have empty : String.ofList text = "" := String.utf8ByteSize_eq_zero_iff.mp zero
  exact nonempty (by simpa using empty)

theorem eq_of_byteLength_eq {front back otherFront otherBack : List Char}
    (same : front ++ back = otherFront ++ otherBack)
    (equal : byteLength front = byteLength otherFront) : front = otherFront := by
  rcases List.append_eq_append_iff.mp same with ⟨between, rfl, _⟩ | ⟨between, rfl, _⟩
  · by_cases empty : between = []
    · simp [empty]
    · have positive := byteLength_pos empty
      rw [byteLength_append] at equal
      omega
  · by_cases empty : between = []
    · simp [empty]
    · have positive := byteLength_pos empty
      rw [byteLength_append] at equal
      omega

theorem exists_position_iff {front more : List Char} {col : Nat} :
    (∃ before behind, before ++ behind = front ++ more ∧ byteLength before = byteLength front ∧
      before.length + 1 = col) ↔ front.length + 1 = col := by
  constructor
  · rintro ⟨before, behind, same, equal, rfl⟩
    rw [eq_of_byteLength_eq same equal]
  · intro counted
    exact ⟨front, more, rfl, rfl, counted⟩

theorem Error.offset_eq (error : Error) : error.offset = byteLength error.before := rfl

/-! Segments behind others -/

def total (segments : List Segment) : Nat := (segments.map Segment.millis).sum

def lead (segments : List Segment) : List Char := segments.flatMap (·.text ++ [':'])

/-- What is wrong with a piece behind segments that stand. -/
inductive Offends (former : List Segment) : List Char → Cause → Prop
  | tooManySegments {text} : maxSegments ≤ former.length → Offends former text .tooManySegments
  | emptySegment : former.length < maxSegments → Offends former [] .emptySegment
  | missingValue {first rest} : former.length < maxSegments → first.isDigit = false →
      Offends former (first :: rest) (.missingValue (first :: rest))
  | invalidUnit {digits symbol} : former.length < maxSegments → digits ≠ [] →
      (∀ char ∈ digits, char.isDigit = true) →
      (∀ char, symbol.head? = some char → char.isDigit = false) →
      (∀ unit : TimeUnit, symbol ≠ unit.symbol) →
      Offends former (digits ++ symbol) (.invalidUnit (digits ++ symbol))
  | hugeValue {segment : Segment} : former.length < maxSegments → maxMillis < segment.value →
      Offends former segment.text .overflow
  | duplicateUnit {segment : Segment} : former.length < maxSegments → segment.value ≤ maxMillis →
      segment.unit ∈ former.map (·.unit) →
      Offends former segment.text (.duplicateUnit segment.unit)
  | hugeSum {segment : Segment} : former.length < maxSegments → segment.value ≤ maxMillis →
      segment.unit ∉ former.map (·.unit) → maxMillis < total former + segment.millis →
      Offends former segment.text .overflow

structure Follows (former : List Segment) (segment : Segment) : Prop where
  room : former.length < maxSegments
  unseen : segment.unit ∉ former.map (·.unit)
  fits : total former + segment.millis ≤ maxMillis

theorem offends_or_follows_of_segment {former : List Segment} (segment : Segment)
    (room : former.length < maxSegments) :
    (∃ cause, Offends former segment.text cause) ∨ Follows former segment := by
  by_cases small : segment.value ≤ maxMillis
  · by_cases seen : segment.unit ∈ former.map (·.unit)
    · exact Or.inl ⟨_, .duplicateUnit room small seen⟩
    · by_cases fits : total former + segment.millis ≤ maxMillis
      · exact Or.inr ⟨room, seen, fits⟩
      · exact Or.inl ⟨_, .hugeSum room small seen (Nat.lt_of_not_le fits)⟩
  · exact Or.inl ⟨_, .hugeValue room (Nat.lt_of_not_le small)⟩

theorem exists_digits_append (text : List Char) :
    ∃ digits symbol, digits ++ symbol = text ∧ (∀ char ∈ digits, char.isDigit = true) ∧
      ∀ char, symbol.head? = some char → char.isDigit = false := by
  refine ⟨text.takeWhile Char.isDigit, text.dropWhile Char.isDigit,
    List.takeWhile_append_dropWhile, List.all_eq_true.mp List.all_takeWhile, ?_⟩
  intro char head
  have stop := List.head?_dropWhile_not Char.isDigit text
  rw [head] at stop
  exact stop

theorem offends_or_follows (former : List Segment) (text : List Char) :
    (∃ cause, Offends former text cause) ∨
      ∃ segment : Segment, segment.text = text ∧ Follows former segment := by
  by_cases room : former.length < maxSegments
  · obtain ⟨digits, symbol, rfl, decimal, stops⟩ := exists_digits_append text
    by_cases nonempty : digits = []
    · subst nonempty
      cases symbol with
      | nil => exact Or.inl ⟨_, .emptySegment room⟩
      | cons first rest => exact Or.inl ⟨_, .missingValue room (stops first rfl)⟩
    · by_cases known : ∃ unit : TimeUnit, symbol = unit.symbol
      · obtain ⟨unit, rfl⟩ := known
        rcases offends_or_follows_of_segment ⟨digits, unit, nonempty, decimal⟩ room with
          offends | follows
        · exact Or.inl offends
        · exact Or.inr ⟨_, rfl, follows⟩
      · exact Or.inl ⟨_, .invalidUnit room nonempty decimal stops (not_exists.mp known)⟩
  · exact Or.inl ⟨_, .tooManySegments (Nat.le_of_not_lt room)⟩

/-! The sum up to the first offence -/

theorem ofSymbol?_eq_none {symbol : List Char} (unknown : ∀ unit : TimeUnit, symbol ≠ unit.symbol) :
    TimeUnit.ofSymbol? symbol = none := by
  cases found : TimeUnit.ofSymbol? symbol with
  | none => rfl
  | some unit => exact absurd (TimeUnit.ofSymbol?_eq_some_iff.mp found) (unknown unit)

theorem parseSegment_of_missing {first : Char} (other : first.isDigit = false) (rest : List Char) :
    parseSegment (first :: rest) = .error (.missingValue (first :: rest)) := by
  simp [parseSegment, other]

theorem parseSegment_of_unknown {digits symbol : List Char} (nonempty : digits ≠ [])
    (decimal : ∀ char ∈ digits, char.isDigit = true)
    (stops : ∀ char, symbol.head? = some char → char.isDigit = false)
    (unknown : ∀ unit : TimeUnit, symbol ≠ unit.symbol) :
    parseSegment (digits ++ symbol) = .error (.invalidUnit (digits ++ symbol)) := by
  have taken : symbol.takeWhile Char.isDigit = [] := by
    cases symbol with
    | nil => rfl
    | cons char rest => simp [stops char rfl]
  have dropped : symbol.dropWhile Char.isDigit = symbol := by
    cases symbol with
    | nil => rfl
    | cons char rest => simp [stops char rfl]
  simp only [parseSegment, List.takeWhile_append_of_pos decimal, taken, List.append_nil, nonempty,
    if_false, List.dropWhile_append_of_pos decimal, dropped, ofSymbol?_eq_none unknown]

theorem parseSegment_of_huge {segment : Segment} (huge : maxMillis < segment.value) :
    parseSegment segment.text = .error .overflow := by
  have notSmall : ¬Nat.ofDigitChars 10 segment.digits 0 ≤ maxMillis := Nat.not_le_of_lt huge
  simp only [parseSegment, Segment.takeWhile_text, Segment.dropWhile_text, segment.nonempty,
    if_false, TimeUnit.ofSymbol?_symbol, notSmall]

theorem parseSegment_text {segment : Segment} (small : segment.value ≤ maxMillis) :
    parseSegment segment.text = .ok (segment.value, segment.unit) :=
  parseSegment_eq_ok_iff.mpr ⟨segment, rfl, rfl, rfl, small⟩

variable {former : List Segment} {text : List Char} {cause : Cause}

theorem sumSegments_of_bad {before : List Char} {seen : List TimeUnit} {sum : Nat}
    (room : seen.length < maxSegments) (nonempty : text ≠ [])
    (bad : parseSegment text = .error cause) (rest : List (List Char)) :
    sumSegments before seen sum (text :: rest) = .error ⟨cause, before⟩ := by
  simp only [sumSegments, Nat.not_le.mpr room, nonempty, if_false, bad]

theorem sumSegments_of_offends (offends : Offends former text cause) (rest : List (List Char)) :
    sumSegments (lead former) (former.map (·.unit)).reverse (total former) (text :: rest) =
      .error ⟨cause, lead former⟩ := by
  have count : (former.map (·.unit)).reverse.length = former.length := by simp
  cases offends with
  | tooManySegments full => simp only [sumSegments, count, full, if_true]
  | emptySegment room => simp only [sumSegments, count, Nat.not_le.mpr room, if_false, if_true]
  | missingValue room other =>
      exact sumSegments_of_bad (by omega) (by simp) (parseSegment_of_missing other _) rest
  | invalidUnit room nonempty decimal stops unknown =>
      exact sumSegments_of_bad (by omega) (by simp [nonempty])
        (parseSegment_of_unknown nonempty decimal stops unknown) rest
  | @hugeValue segment room huge =>
      exact sumSegments_of_bad (by omega) segment.text_ne_nil
        (parseSegment_of_huge huge) rest
  | @duplicateUnit segment room small seen =>
      simp only [sumSegments, count, Nat.not_le.mpr room, if_false, segment.text_ne_nil,
        parseSegment_text small, List.mem_reverse, seen, if_true]
  | @hugeSum segment room small unseen huge =>
      have tooFar : maxMillis < total former + segment.value * segment.unit.millis := huge
      simp only [sumSegments, count, Nat.not_le.mpr room, if_false, segment.text_ne_nil,
        parseSegment_text small, List.mem_reverse, unseen, tooFar, if_true]

theorem sumSegments_of_follows {segment : Segment} (follows : Follows former segment)
    (rest : List (List Char)) :
    sumSegments (lead former) (former.map (·.unit)).reverse (total former) (segment.text :: rest) =
      sumSegments (lead (former ++ [segment])) ((former ++ [segment]).map (·.unit)).reverse
        (total (former ++ [segment])) rest := by
  have room : (former.map (·.unit)).reverse.length < maxSegments := by simpa using follows.room
  have unseen : segment.unit ∉ (former.map (·.unit)).reverse := by simpa using follows.unseen
  rw [sumSegments_text _ _ _ segment rest room unseen follows.fits]
  simp [lead, total]

/-- Segments none of which offends behind those in front of it. -/
def Stands (segments : List Segment) : Prop :=
  ∀ front segment back, segments = front ++ segment :: back →
    ∀ cause, ¬Offends front segment.text cause

theorem stands_nil : Stands [] := by
  intro front segment back shape
  simp at shape

theorem stands_concat_iff {segment : Segment} :
    Stands (former ++ [segment]) ↔
      Stands former ∧ ∀ cause, ¬Offends former segment.text cause := by
  constructor
  · intro stands
    refine ⟨?_, stands former segment [] rfl⟩
    rintro front other back rfl
    exact stands front other (back ++ [segment]) (by simp)
  · rintro ⟨stands, last⟩ front other back shape
    rcases List.eq_nil_or_concat' back with rfl | ⟨middle, final, rfl⟩
    · obtain ⟨rfl, same⟩ := List.append_inj' shape rfl
      obtain rfl := List.singleton_inj.mp same
      exact last
    · have regrouped : former ++ [segment] = (front ++ other :: middle) ++ [final] := by
        simpa using shape
      obtain ⟨rfl, _⟩ := List.append_inj' regrouped rfl
      exact stands front other middle rfl

theorem Stands.follows {segment : Segment} (stands : Stands (former ++ [segment])) :
    Follows former segment := by
  obtain ⟨_, last⟩ := stands_concat_iff.mp stands
  by_cases room : former.length < maxSegments
  · rcases offends_or_follows_of_segment segment room with ⟨cause, offends⟩ | follows
    · exact absurd offends (last cause)
    · exact follows
  · exact absurd (.tooManySegments (Nat.le_of_not_lt room)) (last .tooManySegments)

theorem Follows.not_offends {segment : Segment} (follows : Follows former segment) :
    ¬Offends former segment.text cause := by
  intro offends
  have refused := sumSegments_of_offends offends []
  rw [sumSegments_of_follows follows, sumSegments] at refused
  cases refused

theorem Stands.concat {segment : Segment} (stands : Stands former)
    (follows : Follows former segment) : Stands (former ++ [segment]) :=
  stands_concat_iff.mpr ⟨stands, fun _ => follows.not_offends⟩

theorem offends_or_stands (stands : Stands former) (pieces : List (List Char)) :
    (∃ more text later cause, pieces = more.map Segment.text ++ text :: later ∧
      Stands (former ++ more) ∧ Offends (former ++ more) text cause) ∨
      ∃ more, pieces = more.map Segment.text ∧ Stands (former ++ more) := by
  induction pieces generalizing former with
  | nil => exact Or.inr ⟨[], rfl, by simpa using stands⟩
  | cons piece pieces ih =>
      rcases offends_or_follows former piece with ⟨cause, offends⟩ | ⟨segment, rfl, follows⟩
      · exact Or.inl ⟨[], piece, pieces, cause, rfl, by simpa using stands, by simpa using offends⟩
      · rcases ih (stands.concat follows) with
          ⟨more, text, later, cause, rfl, moreStand, offends⟩ | ⟨more, rfl, moreStand⟩
        · exact Or.inl ⟨segment :: more, text, later, cause, rfl, by simpa using moreStand,
            by simpa using offends⟩
        · exact Or.inr ⟨segment :: more, rfl, by simpa using moreStand⟩

theorem sumSegments_of_stands (stands : Stands former) (rest : List (List Char)) :
    sumSegments [] [] 0 (former.map Segment.text ++ rest) =
      sumSegments (lead former) (former.map (·.unit)).reverse (total former) rest := by
  induction former using List.reverseRecOn generalizing rest with
  | nil => rfl
  | append_singleton former segment ih =>
      have earlier := (stands_concat_iff.mp stands).1
      rw [List.map_append, List.append_assoc, List.map_singleton, List.singleton_append,
        ih earlier, sumSegments_of_follows stands.follows]

structure FirstOffence (token : List Char) (former : List Segment) (text : List Char)
    (cause : Cause) : Prop where
  pieces : ∃ later, token.splitOn ':' = former.map Segment.text ++ text :: later
  stands : Stands former
  offends : Offends former text cause

/-- Why a token is refused, with the text in front of the first segment that offends. -/
inductive Refusal (token : List Char) : Error → Prop
  | empty : token = [] → Refusal token ⟨.empty, []⟩
  | trailingSeparator {front} : token = front ++ [':'] → Refusal token ⟨.trailingSeparator, front⟩
  | segment {former : List Segment} {text : List Char} {cause : Cause} : token ≠ [] →
      token.getLast? ≠ some ':' → FirstOffence token former text cause →
      Refusal token ⟨cause, lead former⟩

theorem parse_eq_sumSegments {token : List Char} (nonempty : token ≠ [])
    (ended : token.getLast? ≠ some ':') :
    parse token = sumSegments [] [] 0 (token.splitOn ':') := by
  simp only [parse, nonempty, ended, if_false]

theorem Refusal.parse_eq {token : List Char} {error : Error} (refusal : Refusal token error) :
    parse token = .error error := by
  cases refusal with
  | empty isEmpty => simp [parse, isEmpty]
  | trailingSeparator ended => simp [parse, ended]
  | segment nonempty ended first =>
      obtain ⟨later, pieces⟩ := first.pieces
      rw [parse_eq_sumSegments nonempty ended, pieces, sumSegments_of_stands first.stands,
        sumSegments_of_offends first.offends]

theorem parse_eq_error_iff {token : List Char} {error : Error} :
    parse token = .error error ↔ Refusal token error := by
  constructor
  · intro refused
    by_cases isEmpty : token = []
    · rw [(Refusal.empty isEmpty).parse_eq, Except.error.injEq] at refused
      exact refused ▸ .empty isEmpty
    · by_cases ended : token.getLast? = some ':'
      · obtain ⟨front, shape⟩ := List.getLast?_eq_some_iff.mp ended
        rw [(Refusal.trailingSeparator shape).parse_eq, Except.error.injEq] at refused
        exact refused ▸ .trailingSeparator shape
      · rcases offends_or_stands stands_nil (token.splitOn ':') with
          ⟨former, text, later, cause, pieces, stands, offends⟩ | ⟨segments, pieces, stands⟩
        · have refusal := Refusal.segment isEmpty ended ⟨⟨later, pieces⟩, stands, offends⟩
          rw [refusal.parse_eq, Except.error.injEq] at refused
          exact refused ▸ refusal
        · have summed := sumSegments_of_stands stands []
          rw [List.nil_append, List.append_nil, ← pieces] at summed
          rw [parse_eq_sumSegments isEmpty ended, summed, sumSegments] at refused
          cases refused
  · exact Refusal.parse_eq

theorem Offends.cause_ne (offends : Offends former text cause) :
    cause ≠ .empty ∧ cause ≠ .trailingSeparator := by
  cases offends <;> simp

namespace Refusal

variable {token : List Char} {error : Error}

theorem cause_eq_empty_iff (refusal : Refusal token error) : error.cause = .empty ↔ token = [] := by
  cases refusal with
  | empty isEmpty => simp [isEmpty]
  | trailingSeparator ended => simp [ended]
  | segment nonempty _ first => simp [nonempty, first.offends.cause_ne]

theorem cause_eq_trailingSeparator_iff (refusal : Refusal token error) :
    error.cause = .trailingSeparator ↔ token.getLast? = some ':' := by
  cases refusal with
  | empty isEmpty => simp [isEmpty]
  | trailingSeparator ended => simp [ended]
  | segment _ ended first => simp [ended, first.offends.cause_ne]

theorem exists_append (refusal : Refusal token error) :
    ∃ behind, token = error.before ++ behind ∧ (token ≠ [] → behind ≠ []) := by
  cases refusal with
  | empty isEmpty => exact ⟨[], by simp [isEmpty], by simp [isEmpty]⟩
  | trailingSeparator ended => exact ⟨[':'], ended, by simp⟩
  | segment nonempty ended first =>
      obtain ⟨later, pieces⟩ := first.pieces
      obtain ⟨behind, shape, more⟩ := exists_behind_pieces nonempty ended pieces
      rw [List.flatMap_map] at shape
      exact ⟨behind, shape, fun _ => more⟩

theorem offset_isValid (refusal : Refusal token error) :
    (String.Pos.Raw.mk error.offset).IsValid (String.ofList token) := by
  obtain ⟨behind, shape, _⟩ := refusal.exists_append
  refine String.Pos.Raw.isValid_iff_exists_append.mpr
    ⟨String.ofList error.before, String.ofList behind, ?_, rfl⟩
  rw [shape, String.ofList_append]

theorem offset_of_ended (refusal : Refusal token error) (ended : token.getLast? = some ':') :
    error.offset = byteLength token - 1 := by
  cases refusal with
  | empty isEmpty => simp [isEmpty] at ended
  | @trailingSeparator front shape =>
      rw [Error.offset_eq, shape, byteLength_append]
      rfl
  | segment _ notEnded _ => exact absurd ended notEnded

theorem offset_lt (refusal : Refusal token error) (nonempty : token ≠ []) :
    error.offset < byteLength token := by
  obtain ⟨behind, shape, more⟩ := refusal.exists_append
  have positive := byteLength_pos (more nonempty)
  rw [shape, byteLength_append, error.offset_eq]
  omega

end Refusal

end NoteClock.Timestamp
