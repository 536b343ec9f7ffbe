import NoteClock.Proofs.Spelling.Stage

/-!
Lines that are refused for their timestamp. A line is blocked for such a fault at its second word
only, and it is reported where the first offending segment starts in the line.
-/

namespace NoteClock.Rule

namespace Stage

variable {former later : List (List Char)} {last : Stage} {endCol col found : Nat}
  {cause : Timestamp.Cause}

theorem exists_trigger_of_leads (leads : Leads .trigger former .timestamp) :
    ∃ trigger : TriggerWord, former = [trigger.text] := by
  cases leads with
  | cons takes leads =>
  cases takes with | trigger trigger =>
  cases leads with
  | nil => exact ⟨trigger, rfl⟩
  | cons takes leads =>
      have passed : Stage.timestamp.index = 2 + _ := takes.index_eq ▸ leads.index_eq
      have place : Stage.timestamp.index = 1 := rfl
      omega

theorem Blocked.timestamp_cases
    (blocked : Blocked endCol last col later ⟨.timestamp cause, found⟩) :
    last = .timestamp ∧ ∃ token more refused, later = token :: more ∧
      (∀ keyword : Keyword, token ≠ keyword.spelling) ∧
      Timestamp.parse token = .error refused ∧ refused.cause = cause ∧
      col + refused.before.length = found := by
  generalize reported : LineError.mk (.timestamp cause) found = error at blocked
  cases blocked with
  | ended lacks => cases last <;> cases lacks <;> cases reported
  | misplaced later misplaced =>
      cases misplaced with
      | timestamp unspelled parsed =>
          cases reported
          exact ⟨rfl, _, later, _, rfl, unspelled, parsed, rfl, rfl⟩
      | _ => cases reported

end Stage

theorem compileLine_eq_error_timestamp_iff {line : List Char} {cause : Timestamp.Cause}
    {col : Nat} :
    compileLine line = .error ⟨.timestamp cause, col⟩ ↔
      ∃ (trigger : TriggerWord) (token : List Char) (more : List (List Char)),
        (∀ word ∈ trigger.text :: token :: more, IsWord word) ∧
        [' '].intercalate (trigger.text :: token :: more) = line ∧
        (∀ keyword : Keyword, token ≠ keyword.spelling) ∧
        ∃ refused, Timestamp.parse token = .error refused ∧ refused.cause = cause ∧
          trigger.text.length + 2 + refused.before.length = col := by
  rw [compileLine_eq_error_iff, Clauses.parse_eq_error_iff]
  constructor
  · rintro ((⟨_, misfit, _⟩ | ⟨words, areWords, rfl, former, last, later, rfl, leads, blocked⟩) |
      ⟨_, _, _, _, other⟩)
    · cases misfit
    · obtain ⟨rfl, token, more, refused, rfl, unspelled, parsed, causeEq, place⟩ :=
        blocked.timestamp_cases
      obtain ⟨trigger, rfl⟩ := Stage.exists_trigger_of_leads leads
      refine ⟨trigger, token, more, areWords, rfl, unspelled, refused, parsed, causeEq, ?_⟩
      rw [← place, Stage.behind, List.foldl_cons, List.foldl_nil]
      omega
    · cases other
  · rintro ⟨trigger, token, more, areWords, rfl, unspelled, refused, parsed, rfl, rfl⟩
    have place : trigger.text.length + 2 = Stage.behind 1 [trigger.text] := by
      rw [Stage.behind, List.foldl_cons, List.foldl_nil]
      omega
    rw [place]
    exact Or.inl (Or.inr ⟨_, areWords, rfl, [trigger.text], .timestamp, token :: more, rfl,
      .cons (.trigger trigger) (.nil _), .misplaced more (.timestamp unspelled parsed)⟩)

open Timestamp in
/-- A token is refused for being empty, for ending in a separator, or else for its first segment
that offends, whatever follows it, at the byte where that segment starts. The line is then refused
at the character that stands there. -/
theorem refused_at_first_offence :
    (∀ token error, Timestamp.parse token = .error error →
      (error.cause = .empty ↔ token = []) ∧
      (error.cause = .trailingSeparator ↔ token.getLast? = some ':') ∧
      (token.getLast? = some ':' → error.offset = byteLength token - 1) ∧
      (token ≠ [] → token.getLast? ≠ some ':' →
        ∃ former text, FirstOffence token former text error.cause ∧
          error.offset = byteLength (former.flatMap (·.text ++ [':'])) ∧
          ∀ other later, other ≠ [] → other.getLast? ≠ some ':' →
            other.splitOn ':' = former.map Segment.text ++ text :: later →
            Timestamp.parse other = .error error) ∧
      (String.Pos.Raw.mk error.offset).IsValid (String.ofList token) ∧
      (token ≠ [] → error.offset < byteLength token)) ∧
    ∀ line cause col, compileLine line = .error ⟨.timestamp cause, col⟩ ↔
      ∃ (trigger : TriggerWord) (token : List Char) (more : List (List Char)),
        (∀ word ∈ trigger.text :: token :: more, IsWord word) ∧
        [' '].intercalate (trigger.text :: token :: more) = line ∧
        (∀ keyword : Keyword, token ≠ keyword.spelling) ∧
        ∃ error, Timestamp.parse token = .error error ∧ error.cause = cause ∧
          ∃ before behind, before ++ behind = line ∧
            byteLength before = byteLength (trigger.text ++ [' ']) + error.offset ∧
            before.length + 1 = col := by
  constructor
  · intro token error refused
    have refusal := parse_eq_error_iff.mp refused
    refine ⟨refusal.cause_eq_empty_iff, refusal.cause_eq_trailingSeparator_iff,
      refusal.offset_of_ended, ?_, refusal.offset_isValid, refusal.offset_lt⟩
    intro nonempty notEnded
    cases refusal with
    | empty isEmpty => exact absurd isEmpty nonempty
    | trailingSeparator shape => simp [shape] at notEnded
    | @segment former text cause _ _ first =>
        refine ⟨former, text, first, rfl, ?_⟩
        intro other later otherNonempty otherNotEnded pieces
        exact (Refusal.segment otherNonempty otherNotEnded
          ⟨⟨later, pieces⟩, first.stands, first.offends⟩).parse_eq
  · intro line cause col
    rw [compileLine_eq_error_timestamp_iff]
    refine exists_congr fun trigger => exists_congr fun token => exists_congr fun more => ?_
    refine and_congr_right fun _ => and_congr_right fun joined => and_congr_right fun _ => ?_
    refine exists_congr fun error => and_congr_right fun refused => and_congr_right fun _ => ?_
    obtain ⟨behind, shape, _⟩ := (parse_eq_error_iff.mp refused).exists_append
    have cut : line = (trigger.text ++ [' '] ++ error.before) ++
        (behind ++ more.flatMap (' ' :: ·)) := by
      rw [← joined, intercalate_cons, List.flatMap_cons, shape]
      simp
    rw [error.offset_eq, ← byteLength_append, cut, exists_position_iff]
    simp only [List.length_append, List.length_singleton]
    omega

open Timestamp in
theorem refused_at_first_offence_behind_wide_characters :
    let token := "01m:2s:3m:é".toList
    let error : Timestamp.Error := ⟨.duplicateUnit .minute, "01m:2s:".toList⟩
    let ended := "1é:".toList
    let endedError : Timestamp.Error := ⟨.trailingSeparator, "1é".toList⟩
    (Timestamp.parse token = .error error ∧ token ≠ [] ∧ token.getLast? ≠ some ':' ∧
        Timestamp.parse ended = .error endedError ∧ ended.getLast? = some ':' ∧
        compileLine "at 1é: play C".toList = .error ⟨.timestamp .trailingSeparator, 6⟩) ∧
      (∃ former text, FirstOffence token former text error.cause ∧
        error.offset = byteLength (former.flatMap (·.text ++ [':'])) ∧
        ∀ other later, other ≠ [] → other.getLast? ≠ some ':' →
          other.splitOn ':' = former.map Segment.text ++ text :: later →
          Timestamp.parse other = .error error) ∧
      error.offset < byteLength token ∧ endedError.offset = byteLength ended - 1 ∧
      ∃ (trigger : TriggerWord) (token : List Char) (more : List (List Char)),
        (∀ word ∈ trigger.text :: token :: more, IsWord word) ∧
        [' '].intercalate (trigger.text :: token :: more) = "at 1é: play C".toList ∧
        (∀ keyword : Keyword, token ≠ keyword.spelling) ∧
        ∃ error, Timestamp.parse token = .error error ∧ error.cause = .trailingSeparator ∧
          ∃ before behind, before ++ behind = "at 1é: play C".toList ∧
            byteLength before = byteLength (trigger.text ++ [' ']) + error.offset ∧
            before.length + 1 = 6 := by
  intro token error ended endedError
  have refused : Timestamp.parse token = .error error := by decide +kernel
  have nonempty : token ≠ [] := by decide
  have notEnded : token.getLast? ≠ some ':' := by decide
  have endedRefused : Timestamp.parse ended = .error endedError := rfl
  have isEnded : ended.getLast? = some ':' := rfl
  have lineRefused :
      compileLine "at 1é: play C".toList = .error ⟨.timestamp .trailingSeparator, 6⟩ := rfl
  obtain ⟨_, _, _, first, _, inside⟩ := refused_at_first_offence.1 token error refused
  obtain ⟨_, _, last, _⟩ := refused_at_first_offence.1 ended endedError endedRefused
  exact ⟨⟨refused, nonempty, notEnded, endedRefused, isEnded, lineRefused⟩,
    first nonempty notEnded, inside nonempty, last isEnded,
    (refused_at_first_offence.2 _ _ _).mp lineRefused⟩

end NoteClock.Rule
