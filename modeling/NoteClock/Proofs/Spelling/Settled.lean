import NoteClock.Proofs.Spelling.Columns

/-!
How much of a line settles its fault. The tokens up to the one that the fault lies in do: every line
that starts with them is refused for the same fault in the same column. Only a zero period waits for
the rest of the line.
-/

namespace NoteClock.Rule

def Token.Holds (token : Token) (col : Nat) : Prop :=
  token.col ≤ col ∧ col ≤ token.col + (token.text.length - 1)

def LiesAt (tokens : List Token) (index col : Nat) : Prop :=
  ∃ token, tokens[index]? = some token ∧ token.Holds col

/-! Each column lies in one token at most -/

namespace Line

theorem le_col_of_mem_place {col : Nat} {texts : List (List Char)} {word : Word}
    (member : word ∈ place col texts) : col ≤ word.col := by
  induction texts generalizing col with
  | nil => cases member
  | cons text texts ih =>
      rcases List.mem_cons.mp member with rfl | later
      · exact Nat.le_refl col
      · have farther := ih later
        omega

theorem pairwise_place {col : Nat} {texts : List (List Char)} :
    (place col texts).Pairwise fun former later => former.col + former.text.length < later.col := by
  induction texts generalizing col with
  | nil => exact .nil
  | cons text texts ih =>
      refine .cons ?_ ih
      intro later member
      have farther := le_col_of_mem_place member
      exact farther

theorem end_le_of_mem_ofWords {words : List (List Char)} (areWords : ∀ word ∈ words, IsWord word)
    {word : Word} (member : word ∈ (ofWords words).words) :
    word.col + word.text.length ≤ (ofWords words).endCol ∧ word.text ≠ [] := by
  have accepted := read_eq_ok_iff.mpr ⟨words, areWords, rfl, rfl⟩
  obtain ⟨_, placed, ended⟩ := words_of_read accepted
  obtain ⟨former, later, cut⟩ := List.append_of_mem member
  obtain ⟨isWord, _, lead, more, joined, _, start⟩ := placed former word later cut
  refine ⟨?_, isWord.nonempty⟩
  rw [ended, ← joined, start, List.length_append, List.length_append]
  omega

theorem pairwise_tokens {words : List (List Char)} (areWords : ∀ word ∈ words, IsWord word) :
    (ofWords words).tokens.Pairwise fun former later =>
      former.col + (former.text.length - 1) < later.col := by
  rw [tokens, List.pairwise_append, List.pairwise_map]
  refine ⟨?_, List.pairwise_singleton _ _, ?_⟩
  · refine pairwise_place.imp ?_
    intro former later apart
    simp only [Token.col, Token.text]
    omega
  · intro token member lineEnd isEnd
    obtain ⟨word, wordMember, rfl⟩ := List.mem_map.mp member
    rw [List.mem_singleton.mp isEnd]
    obtain ⟨bound, nonempty⟩ := end_le_of_mem_ofWords areWords wordMember
    have positive := List.length_pos_iff.mpr nonempty
    simp only [Token.col, Token.text]
    omega

theorem map_text_tokens (words : List (List Char)) :
    (ofWords words).tokens.map Token.text = words ++ [[]] := by
  rw [tokens, List.map_append, List.map_map]
  exact congrArg (· ++ [[]]) (map_text_place 1 words)

end Line

theorem LiesAt.unique {tokens : List Token} {first second col : Nat}
    (apart : tokens.Pairwise fun former later =>
      former.col + (former.text.length - 1) < later.col)
    (inFirst : LiesAt tokens first col) (inSecond : LiesAt tokens second col) : first = second := by
  obtain ⟨firstToken, firstHere, firstHolds⟩ := inFirst
  obtain ⟨secondToken, secondHere, secondHolds⟩ := inSecond
  obtain ⟨firstBound, rfl⟩ := List.getElem?_eq_some_iff.mp firstHere
  obtain ⟨secondBound, rfl⟩ := List.getElem?_eq_some_iff.mp secondHere
  have ordered := List.pairwise_iff_getElem.mp apart
  rcases Nat.lt_trichotomy first second with before | same | behind
  · have gap := ordered first second firstBound secondBound before
    exact absurd (Nat.le_trans secondHolds.1 firstHolds.2) (Nat.not_le_of_lt gap)
  · exact same
  · have gap := ordered second first secondBound firstBound behind
    exact absurd (Nat.le_trans firstHolds.1 secondHolds.2) (Nat.not_le_of_lt gap)

/-! A line is blocked at the token its fault lies in -/

section Blocked

open Stage

variable {former later others : List (List Char)} {last : Stage} {error : LineError}

theorem blocked_of_parse {words : List (List Char)} (areWords : ∀ word ∈ words, IsWord word)
    (refused : Clauses.parse ([' '].intercalate words) = .error error) :
    ∃ former last later, former ++ later = words ∧ Leads .trigger former last ∧
      Blocked (([' '].intercalate words).length + 1) last (behind 1 former) later error := by
  rw [Clauses.parse, Line.read_eq_ok_iff.mpr ⟨words, areWords, rfl, rfl⟩] at refused
  exact Line.readClauses_eq_error_iff.mp refused

theorem liesAt_of_blocked (areWords : ∀ word ∈ former ++ later, IsWord word)
    (blocked : Blocked (([' '].intercalate (former ++ later)).length + 1) last (behind 1 former)
      later error) :
    LiesAt (Line.ofWords (former ++ later)).tokens former.length error.col := by
  cases blocked with
  | ended =>
      rw [List.append_nil]
      exact ⟨_, Line.getElem?_tokens_lineEnd former, Nat.le_refl _, Nat.le_refl _⟩
  | @misplaced word _ offset later misplaced =>
      have inside := misplaced.offset_lt (areWords word (by simp)).nonempty
      refine ⟨_, Line.getElem?_tokens_ofWords former word later, Nat.le_add_right _ _, ?_⟩
      simp only [Token.col, Token.text, Word.ofText]
      omega

theorem eq_or_exists_of_take {text : List Char} {more : List (List Char)}
    (same : (others ++ [[]]).take (former.length + 1) =
      (former ++ text :: more).take (former.length + 1)) :
    (others = former ∧ text = []) ∨ ∃ rest, others = former ++ text :: rest := by
  have start : (others ++ [[]]).take (former.length + 1) = former ++ [text] := by
    rw [same, List.take_length_add_append]
    rfl
  have cut := List.take_append_drop (former.length + 1) (others ++ [[]])
  rw [start, List.append_assoc, List.singleton_append] at cut
  rcases List.eq_nil_or_concat' ((others ++ [[]]).drop (former.length + 1)) with
    nothing | ⟨front, final, rest⟩
  · rw [nothing] at cut
    obtain ⟨sameWords, sameEnd⟩ := List.append_inj' cut rfl
    exact Or.inl ⟨sameWords.symm, List.singleton_inj.mp sameEnd⟩
  · rw [rest, ← List.cons_append, ← List.append_assoc] at cut
    exact Or.inr ⟨front, (List.append_inj' cut rfl).1.symm⟩

theorem parse_eq_error_of_take (areWords : ∀ word ∈ former ++ later, IsWord word)
    (otherAreWords : ∀ word ∈ others, IsWord word) (leads : Leads .trigger former last)
    (blocked : Blocked (([' '].intercalate (former ++ later)).length + 1) last (behind 1 former)
      later error)
    (same : (others ++ [[]]).take (former.length + 1) =
      (former ++ later ++ [[]]).take (former.length + 1)) :
    Clauses.parse ([' '].intercalate others) = .error error := by
  rw [Clauses.parse_eq_error_iff]
  refine Or.inr ⟨others, otherAreWords, rfl, former, last, ?_⟩
  cases blocked with
  | ended lacks =>
      rw [List.append_nil] at same ⊢
      rcases eq_or_exists_of_take same with ⟨rfl, _⟩ | ⟨rest, rfl⟩
      · exact ⟨[], List.append_nil others, leads, .ended lacks⟩
      · exact absurd rfl (otherAreWords [] (by simp)).nonempty
  | @misplaced word _ _ later misplaced =>
      rw [List.append_assoc, List.cons_append] at same
      rcases eq_or_exists_of_take same with ⟨_, empty⟩ | ⟨rest, rfl⟩
      · exact absurd empty (areWords word (by simp)).nonempty
      · exact ⟨word :: rest, rfl, leads, .misplaced rest misplaced⟩

end Blocked

theorem fault_ne_zeroPeriod_of_parse {line : List Char} {col : Nat} :
    Clauses.parse line ≠ .error ⟨.zeroPeriod, col⟩ := by
  intro refused
  rcases Clauses.parse_eq_error_iff.mp refused with
    misfit | ⟨words, _, _, former, last, later, _, _, blocked⟩
  · obtain ⟨_, misfit, _⟩ := misfit
    cases misfit
  · generalize reported : LineError.mk .zeroPeriod col = error at blocked
    cases blocked with
    | ended lacks => cases last <;> cases lacks <;> cases reported
    | misplaced later misplaced => cases misplaced <;> cases reported

/-- A line that repeats with a period of zero, as far as its first two tokens tell. -/
structure StandsStill (line : List Char) (second : Token) (rest : List Token) : Prop where
  tokens : ∃ first, tokenize line = .ok (first :: second :: rest) ∧
    first.text = TriggerWord.every.text
  zero : Timestamp.parse second.text = .ok 0

def IsRest (rest : List Token) : Prop :=
  ∃ (notes : List Note) (mode : ModeSpelling), notes ≠ [] ∧
    rest.map Token.text = Keyword.play.spelling :: Note.listText notes :: mode.words ++ [[]]

theorem exists_words_of_tokenize {line : List Char} {tokens : List Token}
    (accepted : tokenize line = .ok tokens) :
    ∃ words : List (List Char), (∀ word ∈ words, IsWord word) ∧ [' '].intercalate words = line ∧
      (Line.ofWords words).tokens = tokens := by
  obtain ⟨_, read, rfl⟩ := tokenize_eq_ok_iff.mp accepted
  obtain ⟨words, areWords, joined, rfl⟩ := Line.read_eq_ok_iff.mp read
  exact ⟨words, areWords, joined, rfl⟩

theorem StandsStill.unique {line : List Char} {second otherSecond : Token} {rest otherRest : List Token}
    (one : StandsStill line second rest) (other : StandsStill line otherSecond otherRest) :
    second = otherSecond ∧ rest = otherRest := by
  obtain ⟨first, accepted, _⟩ := one.tokens
  obtain ⟨otherFirst, otherAccepted, _⟩ := other.tokens
  rw [accepted] at otherAccepted
  cases otherAccepted
  exact ⟨rfl, rfl⟩

theorem standsStill_of_words {timestamp : Timestamp.Spelling} (zero : timestamp.millis = 0)
    (later : List (List Char))
    (areWords : ∀ word ∈ TriggerWord.every.text :: timestamp.text :: later, IsWord word) :
    ∃ rest, StandsStill ([' '].intercalate (TriggerWord.every.text :: timestamp.text :: later))
        (.word (.ofText timestamp.text 7)) rest ∧ rest.map Token.text = later ++ [[]] := by
  have accepted := tokenize_intercalate areWords
  have texts := Line.map_text_tokens (TriggerWord.every.text :: timestamp.text :: later)
  have parsed := Timestamp.parse_eq_ok_iff.mpr ⟨timestamp, rfl, zero⟩
  exact ⟨_, ⟨⟨_, accepted, rfl⟩, parsed⟩, congrArg (List.drop 2) texts⟩

theorem Spelling.standsStill {spelling : Spelling} (every : spelling.trigger = .every)
    (zero : spelling.timestamp.millis = 0) :
    ∃ rest, StandsStill spelling.text (.word (.ofText spelling.timestamp.text 7)) rest ∧
      IsRest rest := by
  obtain ⟨trigger, timestamp, notes, nonempty, mode⟩ := spelling
  subst every
  let spelling : Spelling := ⟨.every, timestamp, notes, nonempty, mode⟩
  obtain ⟨rest, standsStill, texts⟩ := standsStill_of_words zero _ spelling.isWord_of_mem_words
  rw [← spelling.intercalate_words]
  exact ⟨rest, standsStill, notes, mode, nonempty, texts⟩

theorem StandsStill.exists_spelling {line : List Char} {second : Token} {rest : List Token}
    (standsStill : StandsStill line second rest) (isRest : IsRest rest) :
    ∃ spelling : Spelling, spelling.text = line ∧ spelling.trigger = .every ∧
      spelling.timestamp.millis = 0 := by
  obtain ⟨⟨first, accepted, every⟩, parsed⟩ := standsStill
  obtain ⟨notes, mode, nonempty, restTexts⟩ := isRest
  obtain ⟨timestamp, timestampText, zero⟩ := Timestamp.parse_eq_ok_iff.mp parsed
  obtain ⟨words, _, joined, tokens⟩ := exists_words_of_tokenize accepted
  have spelled : words ++ [[]] =
      (⟨.every, timestamp, notes, nonempty, mode⟩ : Spelling).words ++ [[]] := by
    rw [← Line.map_text_tokens, tokens, List.map_cons, List.map_cons, every, restTexts,
      ← timestampText]
    rfl
  refine ⟨⟨.every, timestamp, notes, nonempty, mode⟩, ?_, rfl, zero⟩
  rw [← joined, List.append_cancel_right spelled, Spelling.intercalate_words]

theorem zeroPeriod_iff_isRest {line : List Char} {second : Token} {rest : List Token}
    (standsStill : StandsStill line second rest) :
    compileLine line = .error ⟨.zeroPeriod, second.col⟩ ↔ IsRest rest := by
  rw [compileLine_eq_error_iff]
  constructor
  · rintro (refused | ⟨spelling, rfl, every, zero, _⟩)
    · exact absurd refused fault_ne_zeroPeriod_of_parse
    · obtain ⟨_, again, isRest⟩ := spelling.standsStill every zero
      rwa [(standsStill.unique again).2]
  · intro isRest
    obtain ⟨spelling, rfl, every, zero⟩ := standsStill.exists_spelling isRest
    obtain ⟨_, again, _⟩ := spelling.standsStill every zero
    rw [(standsStill.unique again).1]
    exact Or.inr ⟨spelling, rfl, every, zero, rfl⟩

theorem exists_other_of_zeroPeriod {line : List Char} {col : Nat}
    (refused : compileLine line = .error ⟨.zeroPeriod, col⟩) :
    ∃ second rest, StandsStill line second rest ∧ second.col = col ∧
      ∃ other otherRest, StandsStill other second otherRest ∧
        compileLine other ≠ .error ⟨.zeroPeriod, col⟩ := by
  rcases compileLine_eq_error_iff.mp refused with parserRefused | ⟨spelling, rfl, every, zero, same⟩
  · exact absurd parserRefused fault_ne_zeroPeriod_of_parse
  · obtain ⟨rest, standsStill, _⟩ := spelling.standsStill every zero
    have areWords := spelling.isWord_of_mem_words
    rw [Spelling.words, every] at areWords
    obtain ⟨otherRest, otherStandsStill, texts⟩ := standsStill_of_words zero []
      (List.forall_mem_cons.mpr ⟨areWords _ (by simp), by simpa using areWords _ (by simp)⟩)
    cases same
    refine ⟨_, rest, standsStill, rfl, _, otherRest, otherStandsStill, ?_⟩
    intro again
    obtain ⟨notes, mode, _, restTexts⟩ := (zeroPeriod_iff_isRest otherStandsStill).mp again
    rw [texts] at restTexts
    cases restTexts

/-- The parser refuses a line for a fault that lies in exactly one token, and every other line with the
same tokens up to that one is refused for the same fault. The only other fault of a line that is cut
into tokens is a zero period, which is reported just when the rest of the line is in order. -/
theorem settled_by_the_tokens_up_to_the_fault :
    (∀ line tokens error, tokenize line = .ok tokens → Clauses.parse line = .error error →
      ∃ index, (∀ place, LiesAt tokens place error.col ↔ place = index) ∧
        ∀ other otherTokens, tokenize other = .ok otherTokens →
          (otherTokens.map Token.text).take (index + 1) =
            (tokens.map Token.text).take (index + 1) →
          Clauses.parse other = .error error ∧ compileLine other = .error error) ∧
    (∀ line tokens error, tokenize line = .ok tokens → compileLine line = .error error →
      Clauses.parse line = .error error ∨ error.fault = .zeroPeriod) ∧
    (∀ line second rest, StandsStill line second rest →
      (compileLine line = .error ⟨.zeroPeriod, second.col⟩ ↔ IsRest rest)) ∧
    ∀ line col, compileLine line = .error ⟨.zeroPeriod, col⟩ →
      ∃ second rest, StandsStill line second rest ∧ second.col = col ∧
        ∃ other otherRest, StandsStill other second otherRest ∧
          compileLine other ≠ .error ⟨.zeroPeriod, col⟩ := by
  refine ⟨?_, ?_, fun line second rest => zeroPeriod_iff_isRest,
    fun line col => exists_other_of_zeroPeriod⟩
  · intro line tokens error accepted refused
    obtain ⟨words, areWords, joined, rfl⟩ := exists_words_of_tokenize accepted
    obtain ⟨former, last, later, rfl, leads, blocked⟩ :=
      blocked_of_parse areWords (joined ▸ refused)
    have here := liesAt_of_blocked areWords blocked
    refine ⟨former.length, fun place => ⟨?_, ?_⟩, ?_⟩
    · intro lies
      exact lies.unique (Line.pairwise_tokens areWords) here
    · rintro rfl
      exact here
    · intro other otherTokens otherAccepted same
      obtain ⟨others, otherAreWords, rfl, rfl⟩ := exists_words_of_tokenize otherAccepted
      rw [Line.map_text_tokens, Line.map_text_tokens] at same
      have parserRefused := parse_eq_error_of_take areWords otherAreWords leads blocked same
      exact ⟨parserRefused, compileLine_eq_error_iff.mpr (Or.inl parserRefused)⟩
  · intro line tokens error _ refused
    rcases compileLine_eq_error_iff.mp refused with parserRefused | ⟨_, _, _, _, rfl⟩
    · exact Or.inl parserRefused
    · exact Or.inr rfl

theorem settled_by_the_tokens_up_to_the_fault_in_a_note_list :
    let line := "at 2h play C,Q x".toList
    let start : List Token := [.word (.ofText ['a', 't'] 1), .word (.ofText ['2', 'h'] 4),
      .word (.ofText ['p', 'l', 'a', 'y'] 7), .word (.ofText ['C', ',', 'Q'] 12)]
    let tokens := start ++ [.word (.ofText ['x'] 16), .lineEnd 17]
    let other := "at 2h play C,Q".toList
    let still := "every 0s play C".toList
    (tokenize line = .ok tokens ∧
        Clauses.parse line = .error ⟨.badNote ['Q'] (.notALetter 'Q'), 14⟩) ∧
      (∀ place, LiesAt tokens place 14 ↔ place = 3) ∧
      compileLine other = .error ⟨.badNote ['Q'] (.notALetter 'Q'), 14⟩ ∧
      ∃ second rest, StandsStill still second rest ∧ IsRest rest := by
  intro line start tokens other still
  have accepted : tokenize line = .ok tokens := rfl
  have refused : Clauses.parse line = .error ⟨.badNote ['Q'] (.notALetter 'Q'), 14⟩ := rfl
  have otherAccepted : tokenize other = .ok (start ++ [.lineEnd 15]) := rfl
  have zero : compileLine still = .error ⟨.zeroPeriod, 7⟩ := by decide +kernel
  obtain ⟨index, lies, settled⟩ :=
    settled_by_the_tokens_up_to_the_fault.1 line tokens _ accepted refused
  have here : LiesAt tokens 3 14 :=
    ⟨.word (.ofText ['C', ',', 'Q'] 12), rfl, by decide, by decide⟩
  obtain rfl : 3 = index := (lies 3).mp here
  have others := settled other _ otherAccepted rfl
  obtain ⟨second, rest, standsStill, col, _⟩ :=
    settled_by_the_tokens_up_to_the_fault.2.2.2 still 7 zero
  rw [← col] at zero
  exact ⟨⟨accepted, refused⟩, lies, others.2, second, rest, standsStill,
    (settled_by_the_tokens_up_to_the_fault.2.2.1 still second rest standsStill).mp zero⟩

end NoteClock.Rule
