import NoteClock.Proofs.Spelling.Rule

/-!
Digits behind a mode word. They are a number only if they fit into 64 bits: up to there a count is
judged by its value, and longer ones are a word for which the grammar has no place.
-/

namespace NoteClock.Rule

namespace Word

variable {digits : List Char}

theorem kind_eq_plain_of_digits (decimal : ∀ char ∈ digits, char.isDigit = true)
    (wide : Kind.maxNumber < Nat.ofDigitChars 10 digits 0) : Kind.ofText digits = .plain := by
  cases kind : Kind.ofText digits with
  | keyword keyword =>
      rw [kind_eq_keyword_iff.mp kind] at decimal
      exact absurd decimal (not_digits_spelling keyword)
  | number value =>
      obtain ⟨_, _, bounded⟩ := kind_eq_number_iff.mp kind
      omega
  | plain => rfl

theorem isWord_of_digits (nonempty : digits ≠ [])
    (decimal : ∀ char ∈ digits, char.isDigit = true) : IsWord digits :=
  ⟨nonempty, fun char member => isForbidden_of_isDigit (decimal char member)⟩

theorem isWord_spelling (keyword : Keyword) : IsWord keyword.spelling := by
  cases keyword <;> exact isWord_of_all (by decide) (by decide)

end Word

namespace Line

def readLastMode (line : Line) : Except LineError (Option ModeClause) := do
  let (mode, rest) ← line.readMode
  rest.readEnd
  return mode

theorem readClauses_eq (line : Line) :
    line.readClauses = (do
      let trigger ← line.readTrigger
      let millis ← (line.drop 1).readTimestamp
      (line.drop 2).readPlay
      let notes ← (line.drop 3).readNotes
      let mode ← (line.drop 4).readLastMode
      return ⟨trigger, millis, (line.drop 1).col, notes, mode⟩) := by
  simp only [readClauses, readLastMode, bind_assoc, pure_bind]

section Placed

variable {col endCol value : Nat} {first text : List Char} {mode : ModeClause}
  {later : List (List Char)}

theorem readPlainMode_of_number (kind : Word.Kind.ofText text = .number value) :
    readPlainMode ⟨place col (first :: text :: later), endCol⟩ mode =
      .error ⟨.countWithoutStack first, col + first.length + 1⟩ := by
  simp only [readPlainMode, place, Word.ofText, kind]

theorem readPlainMode_of_other (other : ∀ value, Word.Kind.ofText text ≠ .number value) :
    readPlainMode ⟨place col (first :: text :: later), endCol⟩ mode =
      .ok (some mode, ⟨place (col + first.length + 1) (text :: later), endCol⟩) := by
  simp only [readPlainMode, place, Word.ofText]
  split
  · rename_i same
    simp only [List.cons.injEq, Word.mk.injEq] at same
    exact absurd same.2.1.1 (other _)
  · rfl

theorem readCount_of_number (kind : Word.Kind.ofText text = .number value) :
    readCount ⟨place col (text :: later), endCol⟩ =
      if value = 0 then .error ⟨.zeroCount, col⟩
      else if maxCount < value then .error ⟨.hugeCount, col⟩
      else .ok (some (.stack (some value)), ⟨place (col + text.length + 1) later, endCol⟩) := by
  simp only [readCount, place, Word.ofText, kind]
  rfl

theorem readCount_of_other (other : ∀ value, Word.Kind.ofText text ≠ .number value) :
    readCount ⟨place col (text :: later), endCol⟩ =
      .ok (some (.stack none), ⟨place col (text :: later), endCol⟩) := by
  simp only [readCount, place, Word.ofText]
  split
  · rename_i same
    simp only [List.cons.injEq, Word.mk.injEq] at same
    exact absurd same.1.1 (other _)
  · rfl

theorem readLastMode_count (kind : Word.Kind.ofText text = .number value) :
    readLastMode ⟨place col (Keyword.stack.spelling :: text :: later), endCol⟩ =
      if value = 0 then .error ⟨.zeroCount, col + Keyword.stack.spelling.length + 1⟩
      else if maxCount < value then .error ⟨.hugeCount, col + Keyword.stack.spelling.length + 1⟩
      else do
        readEnd ⟨place (col + Keyword.stack.spelling.length + 1 + text.length + 1) later, endCol⟩
        return some (.stack (some value)) := by
  have read : readMode ⟨place col (Keyword.stack.spelling :: text :: later), endCol⟩ =
      readCount ⟨place (col + Keyword.stack.spelling.length + 1) (text :: later), endCol⟩ := rfl
  rw [readLastMode, read, readCount_of_number kind]
  split
  · rfl
  · split <;> rfl

theorem readLastMode_countWithoutStack {keyword : Keyword}
    (plainMode : keyword = .scale ∨ keyword = .arpeggio)
    (kind : Word.Kind.ofText text = .number value) :
    readLastMode ⟨place col (keyword.spelling :: text :: later), endCol⟩ =
      .error ⟨.countWithoutStack keyword.spelling, col + keyword.spelling.length + 1⟩ := by
  have refused : readMode ⟨place col (keyword.spelling :: text :: later), endCol⟩ =
      .error ⟨.countWithoutStack keyword.spelling, col + keyword.spelling.length + 1⟩ := by
    rcases plainMode with rfl | rfl
    · exact readPlainMode_of_number kind
    · exact readPlainMode_of_number kind
  exact bind_eq_error_iff.mpr (Or.inl refused)

theorem readLastMode_surplus {keyword : Keyword}
    (isMode : keyword = .stack ∨ keyword = .scale ∨ keyword = .arpeggio)
    (other : ∀ value, Word.Kind.ofText text ≠ .number value) :
    readLastMode ⟨place col (keyword.spelling :: text :: later), endCol⟩ =
      .error ⟨.surplus text, col + keyword.spelling.length + 1⟩ := by
  obtain ⟨mode, read⟩ : ∃ mode,
      readMode ⟨place col (keyword.spelling :: text :: later), endCol⟩ =
        .ok (mode, ⟨place (col + keyword.spelling.length + 1) (text :: later), endCol⟩) := by
    rcases isMode with rfl | rfl | rfl
    · exact ⟨some (.stack none), readCount_of_other other⟩
    · exact ⟨some .scale, readPlainMode_of_other other⟩
    · exact ⟨some .arpeggio, readPlainMode_of_other other⟩
  rw [readLastMode, read]
  rfl

end Placed

theorem readClauses_append {col endCol : Nat} {spelling : Spelling}
    (modeless : spelling.mode = .absent) (more : List (List Char)) :
    readClauses ⟨place col (spelling.words ++ more), endCol⟩ = (do
      let mode ← readLastMode ⟨place (col + spelling.text.length + 1) more, endCol⟩
      return { clausesOf col spelling with mode := mode }) := by
  have words : spelling.words ++ more = spelling.trigger.text :: spelling.timestamp.text ::
      ['p', 'l', 'a', 'y'] :: Note.listText spelling.notes :: more := by
    simp [Spelling.words, modeless, ModeSpelling.words]
  have after : colAfter col (spelling.words ++ more) 4 = col + spelling.text.length + 1 := by
    simp only [words, colAfter_succ_cons, colAfter_zero, Spelling.text, modeless,
      ModeSpelling.text, List.length_append, List.length_cons, List.length_nil]
    omega
  have trigger : readTrigger ⟨place col (spelling.words ++ more), endCol⟩ = .ok spelling.trigger :=
    readTrigger_eq_ok_iff.mpr rfl
  have timestamp : readTimestamp (drop ⟨place col (spelling.words ++ more), endCol⟩ 1) =
      .ok spelling.timestamp.millis := by
    rw [drop_place]
    exact readTimestamp_eq_ok_iff.mpr ⟨spelling.timestamp, rfl, rfl⟩
  have play : readPlay (drop ⟨place col (spelling.words ++ more), endCol⟩ 2) = .ok () := by
    rw [drop_place]
    exact readPlay_eq_ok_iff.mpr rfl
  have notes : readNotes (drop ⟨place col (spelling.words ++ more), endCol⟩ 3) =
      .ok spelling.notes := by
    rw [drop_place]
    exact readNotes_eq_ok_iff.mpr ⟨spelling.nonempty, rfl⟩
  have rest : drop ⟨place col (spelling.words ++ more), endCol⟩ 4 =
      ⟨place (col + spelling.text.length + 1) more, endCol⟩ := by
    rw [drop_place, after, words]
    rfl
  rw [readClauses_eq, trigger, timestamp, play, notes, rest]
  rfl

end Line

theorem ModeSpelling.eq_absent_of_clause {mode : ModeSpelling} (none : mode.clause = none) :
    mode = .absent := by
  cases mode with
  | absent => rfl
  | _ => cases none

namespace Clauses

variable {line : List Char} {clauses : Clauses} {command : Command}

theorem parse_append (parsed : Clauses.parse line = .ok clauses) (modeless : clauses.mode = none)
    {more : List (List Char)} (areWords : ∀ word ∈ more, IsWord word) :
    Clauses.parse (line ++ more.flatMap (' ' :: ·)) = (do
      let endCol := (line ++ more.flatMap (' ' :: ·)).length + 1
      let mode ← Line.readLastMode ⟨Line.place (line.length + 2) more, endCol⟩
      return { clauses with mode := mode }) := by
  obtain ⟨spelling, rfl, rfl⟩ := parse_eq_ok_iff.mp parsed
  have joined : [' '].intercalate (spelling.words ++ more) =
      spelling.text ++ more.flatMap (' ' :: ·) := by
    rw [← spelling.intercalate_words, Spelling.words, List.cons_append, intercalate_cons,
      intercalate_cons, List.flatMap_append, List.append_assoc]
  have allWords : ∀ word ∈ spelling.words ++ more, IsWord word := by
    intro word member
    rcases List.mem_append.mp member with front | back
    · exact spelling.isWord_of_mem_words word front
    · exact areWords word back
  have read := Line.read_eq_ok_iff.mpr ⟨spelling.words ++ more, allWords, joined, rfl⟩
  have behind : 1 + spelling.text.length + 1 = spelling.text.length + 2 := by omega
  rw [Clauses.parse, read, Line.ofWords, joined, ← behind]
  exact Line.readClauses_append (ModeSpelling.eq_absent_of_clause modeless) more

theorem exists_command_of_mode (accepted : clauses.command = .ok command)
    (mode : Option ModeClause) : ∃ other, { clauses with mode := mode }.command = .ok other := by
  unfold Clauses.command at accepted ⊢
  split at accepted
  · rename_i once
    simp [once]
  · rename_i every
    split at accepted
    · cases accepted
    · rename_i positive
      simp [every, positive]

end Clauses

def upToCount (line : List Char) (keyword : Keyword) : List Char :=
  line ++ ' ' :: keyword.spelling ++ [' ']

def Refuses (text : List Char) (kind : Fault.Kind) (col : Nat) (message : String) : Prop :=
  ∃ fault, compileLine text = .error ⟨fault, col⟩ ∧ fault.kind = kind ∧ fault.message = message

section Counted

variable {line digits : List Char} {clauses : Clauses} {value : Nat}
  (parsed : Clauses.parse line = .ok clauses) (modeless : clauses.mode = none)
  (isWord : IsWord digits)
include parsed modeless isWord

theorem parse_upToCount (keyword : Keyword) :
    ∃ endCol, Clauses.parse (upToCount line keyword ++ digits) = (do
      let mode ← Line.readLastMode
        ⟨Line.place (line.length + 2) [keyword.spelling, digits], endCol⟩
      return { clauses with mode := mode }) := by
  have areWords : ∀ word ∈ [keyword.spelling, digits], IsWord word := by
    simp only [List.forall_mem_cons]
    exact ⟨Word.isWord_spelling keyword, isWord, by simp⟩
  have text : upToCount line keyword ++ digits =
      line ++ [keyword.spelling, digits].flatMap (' ' :: ·) := by
    simp [upToCount]
  rw [text]
  exact ⟨_, Clauses.parse_append parsed modeless areWords⟩

theorem accepts_count {command : Command} (accepted : compileLine line = .ok command)
    (kind : Word.Kind.ofText digits = .number value) (positive : 1 ≤ value)
    (bounded : value ≤ maxCount) :
    Clauses.parse (upToCount line .stack ++ digits) =
        .ok { clauses with mode := some (.stack (some value)) } ∧
      ∃ counted, compileLine (upToCount line .stack ++ digits) = .ok counted := by
  have notZero : value ≠ 0 := Nat.ne_of_gt positive
  have notHuge : ¬maxCount < value := Nat.not_lt.mpr bounded
  obtain ⟨endCol, parsedOn⟩ := parse_upToCount parsed modeless isWord .stack
  rw [Line.readLastMode_count kind, if_neg notZero, if_neg notHuge] at parsedOn
  obtain ⟨found, foundParsed, foundAccepted⟩ := bind_eq_ok_iff.mp accepted
  obtain rfl : clauses = found := Except.ok.inj (parsed.symm.trans foundParsed)
  obtain ⟨counted, countedAccepted⟩ :=
    Clauses.exists_command_of_mode foundAccepted (some (.stack (some value)))
  exact ⟨parsedOn, counted, bind_eq_ok_iff.mpr ⟨_, parsedOn, countedAccepted⟩⟩

theorem refuses_upToCount (keyword : Keyword) (fault : Fault)
    (refused : ∀ endCol,
      Line.readLastMode ⟨Line.place (line.length + 2) [keyword.spelling, digits], endCol⟩ =
        .error ⟨fault, line.length + 2 + keyword.spelling.length + 1⟩) :
    Refuses (upToCount line keyword ++ digits) fault.kind ((upToCount line keyword).length + 1)
      fault.message := by
  have behind : line.length + 2 + keyword.spelling.length + 1 =
      (upToCount line keyword).length + 1 := by
    simp only [upToCount, List.length_append, List.length_cons, List.length_nil]
    omega
  obtain ⟨endCol, parsedOn⟩ := parse_upToCount parsed modeless isWord keyword
  refine ⟨fault, ?_, rfl, rfl⟩
  rw [compileLine, parsedOn, refused, behind]
  rfl

theorem refuses_zeroCount (kind : Word.Kind.ofText digits = .number 0) :
    Refuses (upToCount line .stack ++ digits) .playMode ((upToCount line .stack).length + 1)
      Fault.zeroCount.message := by
  refine refuses_upToCount parsed modeless isWord .stack .zeroCount ?_
  intro endCol
  rw [Line.readLastMode_count kind, if_pos rfl]

theorem refuses_hugeCount (kind : Word.Kind.ofText digits = .number value)
    (huge : maxCount < value) :
    Refuses (upToCount line .stack ++ digits) .playMode ((upToCount line .stack).length + 1)
      Fault.hugeCount.message := by
  have notZero : value ≠ 0 := Nat.ne_of_gt (Nat.zero_lt_of_lt huge)
  refine refuses_upToCount parsed modeless isWord .stack .hugeCount ?_
  intro endCol
  rw [Line.readLastMode_count kind, if_neg notZero, if_pos huge]

theorem refuses_countWithoutStack {keyword : Keyword}
    (plainMode : keyword = .scale ∨ keyword = .arpeggio)
    (kind : Word.Kind.ofText digits = .number value) :
    Refuses (upToCount line keyword ++ digits) .playMode ((upToCount line keyword).length + 1)
      (Fault.countWithoutStack keyword.spelling).message := by
  refine refuses_upToCount parsed modeless isWord keyword (.countWithoutStack _) ?_
  intro endCol
  exact Line.readLastMode_countWithoutStack plainMode kind

theorem refuses_surplus {keyword : Keyword}
    (isMode : keyword = .stack ∨ keyword = .scale ∨ keyword = .arpeggio)
    (kind : Word.Kind.ofText digits = .plain) :
    Refuses (upToCount line keyword ++ digits) .grammar ((upToCount line keyword).length + 1)
      (Fault.surplus digits).message := by
  refine refuses_upToCount parsed modeless isWord keyword (.surplus digits) ?_
  intro endCol
  exact Line.readLastMode_surplus isMode (by simp [kind])

end Counted

/-- Digits behind a line without a mode clause: after `repeat` they are judged by their value, and
after the other modes they are refused for being there, but only while the value fits into 64 bits.
From there on the same digits are refused as a word too many. -/
theorem count_judged_by_value_below_64_bits {line digits : List Char} {clauses : Clauses}
    {command : Command} (parsed : Clauses.parse line = .ok clauses)
    (modeless : clauses.mode = none) (accepted : compileLine line = .ok command)
    (nonempty : digits ≠ []) (decimal : ∀ char ∈ digits, char.isDigit = true) :
    let value := Nat.ofDigitChars 10 digits 0
    let refuses (keyword : Keyword) (kind : Fault.Kind) (message : String) :=
      Refuses (upToCount line keyword ++ digits) kind ((upToCount line keyword).length + 1) message
    (1 ≤ value → value < 2 ^ 32 →
      Clauses.parse (upToCount line .stack ++ digits) =
        .ok { clauses with mode := some (.stack (some value)) } ∧
      ∃ counted, compileLine (upToCount line .stack ++ digits) = .ok counted) ∧
    (value = 0 → refuses .stack .playMode "repeat count must be at least 1") ∧
    (2 ^ 32 ≤ value → value < 2 ^ 64 → refuses .stack .playMode "repeat count is too large") ∧
    (value < 2 ^ 64 →
      refuses .scale .playMode "a count is only allowed after 'repeat', not 'scale'" ∧
      refuses .arpeggio .playMode "a count is only allowed after 'repeat', not 'arpeggio'") ∧
    (2 ^ 64 ≤ value → ∀ keyword ∈ [Keyword.stack, .scale, .arpeggio],
      refuses keyword .grammar s!"unexpected {Fault.quote (some digits)} at end of rule") := by
  intro value refuses
  have isWord := Word.isWord_of_digits nonempty decimal
  have number : value < 2 ^ 64 → Word.Kind.ofText digits = .number value := by
    intro fits
    exact Word.kind_eq_number_iff.mpr ⟨decimal, rfl, Nat.le_of_lt_succ fits⟩
  refine ⟨?_, ?_, ?_, ?_, ?_⟩
  · intro positive bounded
    have kind := number (by omega)
    exact accepts_count parsed modeless isWord accepted kind positive (Nat.le_of_lt_succ bounded)
  · intro zero
    have kind := number (by omega)
    rw [zero] at kind
    exact refuses_zeroCount parsed modeless isWord kind
  · intro large fits
    exact refuses_hugeCount parsed modeless isWord (number fits) large
  · intro fits
    have kind := number fits
    exact ⟨refuses_countWithoutStack parsed modeless isWord (Or.inl rfl) kind,
      refuses_countWithoutStack parsed modeless isWord (Or.inr rfl) kind⟩
  · intro wide keyword isMode
    have kind := Word.kind_eq_plain_of_digits decimal wide
    exact refuses_surplus parsed modeless isWord (by simpa using isMode) kind

theorem count_judged_by_value_below_64_bits_at_the_limits :
    let line := "every 5s play C".toList
    let clauses : Clauses := ⟨.every, 5000, 7, [⟨.C, .natural⟩], none⟩
    let zeros := "000".toList
    let most := "0004294967295".toList
    let huge := "4294967296".toList
    let wide := "18446744073709551616".toList
    (Clauses.parse line = .ok clauses ∧
        compileLine line = .ok (.every 5000 [⟨.C, .natural⟩] (.stack 1)) ∧
        ∀ digits ∈ [zeros, most, huge, wide],
          digits ≠ [] ∧ ∀ char ∈ digits, char.isDigit = true) ∧
      Refuses (upToCount line .stack ++ zeros) .playMode 24 "repeat count must be at least 1" ∧
      Clauses.parse (upToCount line .stack ++ most) =
        .ok { clauses with mode := some (.stack (some 4294967295)) } ∧
      Refuses (upToCount line .stack ++ huge) .playMode 24 "repeat count is too large" ∧
      Refuses (upToCount line .scale ++ huge) .playMode 23
        "a count is only allowed after 'repeat', not 'scale'" ∧
      Refuses (upToCount line .stack ++ wide) .grammar 24
        "unexpected '18446744073709551616' at end of rule" := by
  intro line clauses zeros most huge wide
  have parsed : Clauses.parse line = .ok clauses := rfl
  have accepted : compileLine line = .ok (.every 5000 [⟨.C, .natural⟩] (.stack 1)) := by
    decide +kernel
  have written : ∀ digits ∈ [zeros, most, huge, wide],
      digits ≠ [] ∧ ∀ char ∈ digits, char.isDigit = true := by
    simp only [← List.all_eq_true]
    decide
  have judged := fun digits member =>
    count_judged_by_value_below_64_bits parsed rfl accepted
      (written digits member).1 (written digits member).2
  obtain ⟨_, zero, _⟩ := judged zeros (by simp)
  obtain ⟨counted, _⟩ := judged most (by simp)
  obtain ⟨_, _, tooLarge, misplaced, _⟩ := judged huge (by simp)
  obtain ⟨_, _, _, _, surplus⟩ := judged wide (by simp)
  have mostValue : Nat.ofDigitChars 10 most 0 = 4294967295 := by decide +kernel
  have mostCounted := (counted (by decide +kernel) (by decide +kernel)).1
  rw [mostValue] at mostCounted
  exact ⟨⟨parsed, accepted, written⟩, zero (by decide +kernel), mostCounted,
    tooLarge (by decide +kernel) (by decide +kernel), (misplaced (by decide +kernel)).1,
    surplus (by decide +kernel) .stack (by simp)⟩

/-- A count that does not fit into 64 bits is too large, but the line is not refused for that. -/
theorem count_of_65_bits_is_no_mode_fault :
    ¬ ∀ (line digits : List Char) (clauses : Clauses) (command : Command),
      Clauses.parse line = .ok clauses → clauses.mode = none → compileLine line = .ok command →
      digits ≠ [] → (∀ char ∈ digits, char.isDigit = true) →
      2 ^ 32 ≤ Nat.ofDigitChars 10 digits 0 →
      Refuses (upToCount line .stack ++ digits) .playMode ((upToCount line .stack).length + 1)
        "repeat count is too large" := by
  intro judged
  obtain ⟨fault, refused, kind, _⟩ := judged "every 5s play C".toList "18446744073709551616".toList
    ⟨.every, 5000, 7, [⟨.C, .natural⟩], none⟩ (.every 5000 [⟨.C, .natural⟩] (.stack 1))
    rfl rfl (by decide +kernel) (by decide) (List.all_eq_true.mp (by decide))
    (by decide +kernel)
  have surplus : compileLine
      (upToCount "every 5s play C".toList .stack ++ "18446744073709551616".toList) =
        .error ⟨.surplus "18446744073709551616".toList, 24⟩ := by decide +kernel
  rw [surplus] at refused
  cases refused
  cases kind

end NoteClock.Rule
