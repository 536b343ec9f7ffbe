import NoteClock.Proofs.Spelling.NoteList
import NoteClock.Proofs.Spelling.Timestamp
import NoteClock.Proofs.Spelling.Words

/-!
Rule lines as they are written. A line compiles exactly when it spells a trigger, a timestamp, `play`,
a note list and at most one mode clause between single spaces, and the command then has their meaning.
-/

namespace NoteClock

def Trigger.word : Trigger → Rule.TriggerWord
  | once _ => .once
  | every _ _ => .every

namespace Rule

namespace Word

theorem kind_eq_keyword_iff {text : List Char} {keyword : Keyword} :
    Kind.ofText text = .keyword keyword ↔ text = keyword.spelling := by
  rw [← Keyword.ofWord?_eq_some_iff, Kind.ofText]
  cases Keyword.ofWord? text with
  | some found => simp
  | none =>
      simp only [reduceCtorEq, iff_false]
      split <;> simp

theorem not_digits_spelling (keyword : Keyword) :
    ¬∀ char ∈ keyword.spelling, char.isDigit = true := by
  rw [← List.all_eq_true]
  cases keyword <;> decide

theorem kind_eq_number_iff {text : List Char} {value : Nat} :
    Kind.ofText text = .number value ↔
      (∀ char ∈ text, char.isDigit = true) ∧ Nat.ofDigitChars 10 text 0 = value ∧
        value ≤ Kind.maxNumber := by
  rw [Kind.ofText]
  cases found : Keyword.ofWord? text with
  | some keyword =>
      have spelled := Keyword.ofWord?_eq_some_iff.mp found
      simp only [reduceCtorEq, false_iff]
      rintro ⟨digits, _⟩
      rw [spelled] at digits
      exact not_digits_spelling keyword digits
  | none =>
      simp only [Bool.and_eq_true, List.all_eq_true, decide_eq_true_eq]
      constructor
      · intro kind
        split at kind
        · rename_i number
          simp only [Kind.number.injEq] at kind
          subst kind
          exact ⟨number.1, rfl, number.2⟩
        · simp at kind
      · rintro ⟨digits, rfl, bounded⟩
        rw [if_pos ⟨digits, bounded⟩]

theorem isOperand_ofText_iff {text : List Char} {col : Nat} :
    (ofText text col).isOperand = true ↔ ∀ keyword : Keyword, text ≠ keyword.spelling := by
  constructor
  · intro operand keyword spelled
    have kind : (ofText text col).kind = .keyword keyword := kind_eq_keyword_iff.mpr spelled
    rw [isOperand, kind] at operand
    exact Bool.noConfusion operand
  · intro unspelled
    rw [isOperand]
    split
    · rename_i keyword kind
      exact absurd (kind_eq_keyword_iff.mp kind) (unspelled keyword)
    · rfl
    · rfl

theorem isLower_of_isDigit {char : Char} (digit : char.isDigit = true) : char.isLower = false := by
  have upTo : char.toNat ≤ 57 := (Char.isDigit_iff_toNat.mp digit).2
  rw [Bool.eq_false_iff]
  intro lower
  have smallA : 97 ≤ char.toNat :=
    UInt32.le_iff_toNat_le.mp (of_decide_eq_true (Bool.and_eq_true_iff.mp lower).1)
  omega

theorem spelling_head_isLower (keyword : Keyword) :
    keyword.spelling.head?.any Char.isLower = true := by
  cases keyword <;> rfl

theorem isOperand_of_head {text : List Char} {col : Nat} {first : Char}
    (head : text.head? = some first) (other : first.isLower = false) :
    (ofText text col).isOperand = true := by
  refine isOperand_ofText_iff.mpr ?_
  rintro keyword rfl
  have lower := spelling_head_isLower keyword
  rw [head, Option.any_some, other] at lower
  exact Bool.noConfusion lower

end Word

def TriggerWord.text : TriggerWord → List Char
  | once => ['a', 't']
  | every => ['e', 'v', 'e', 'r', 'y']

/-- The count of a stack as written, with any number of leading zeros. -/
structure Count where
  digits : List Char
  nonempty : digits ≠ []
  decimal : ∀ char ∈ digits, char.isDigit = true
  positive : 1 ≤ Nat.ofDigitChars 10 digits 0
  bounded : Nat.ofDigitChars 10 digits 0 ≤ maxCount

def Count.value (count : Count) : Nat := Nat.ofDigitChars 10 count.digits 0

theorem Count.kind_digits (count : Count) : Word.Kind.ofText count.digits = .number count.value :=
  Word.kind_eq_number_iff.mpr ⟨count.decimal, rfl, Nat.le_trans count.bounded (by decide)⟩

inductive ModeSpelling where
  | absent
  | scale
  | arpeggio
  | stack
  | stackUpTo (count : Count)

namespace ModeSpelling

def text : ModeSpelling → List Char
  | absent => []
  | scale => [' ', 's', 'c', 'a', 'l', 'e']
  | arpeggio => [' ', 'a', 'r', 'p', 'e', 'g', 'g', 'i', 'o']
  | stack => [' ', 'r', 'e', 'p', 'e', 'a', 't']
  | stackUpTo count => [' ', 'r', 'e', 'p', 'e', 'a', 't', ' '] ++ count.digits

def playMode : ModeSpelling → PlayMode
  | absent => .stack 1
  | scale => .scale
  | arpeggio => .arpeggio
  | stack => .stack 1
  | stackUpTo count => .stack count.value

def words : ModeSpelling → List (List Char)
  | absent => []
  | scale => [['s', 'c', 'a', 'l', 'e']]
  | arpeggio => [['a', 'r', 'p', 'e', 'g', 'g', 'i', 'o']]
  | stack => [['r', 'e', 'p', 'e', 'a', 't']]
  | stackUpTo count => [['r', 'e', 'p', 'e', 'a', 't'], count.digits]

def clause : ModeSpelling → Option ModeClause
  | absent => none
  | scale => some .scale
  | arpeggio => some .arpeggio
  | stack => some (.stack none)
  | stackUpTo count => some (.stack (some count.value))

theorem text_eq (mode : ModeSpelling) : mode.text = mode.words.flatMap (' ' :: ·) := by
  cases mode with
  | stackUpTo count => simp [text, words]
  | _ => rfl

theorem isWord_of_mem_words (mode : ModeSpelling) : ∀ word ∈ mode.words, IsWord word := by
  cases mode with
  | absent => simp [words]
  | scale => simpa [words] using isWord_of_all (by decide) (by decide)
  | arpeggio => simpa [words] using isWord_of_all (by decide) (by decide)
  | stack => simpa [words] using isWord_of_all (by decide) (by decide)
  | stackUpTo count =>
      simp only [words, List.forall_mem_cons]
      refine ⟨isWord_of_all (by decide) (by decide), ⟨count.nonempty, ?_⟩, by simp⟩
      intro char member
      exact isForbidden_of_isDigit (count.decimal char member)

theorem meaning_clause (mode : ModeSpelling) :
    ModeClause.meaning mode.clause = mode.playMode := by
  cases mode <;> rfl

end ModeSpelling

structure Spelling where
  trigger : TriggerWord
  timestamp : Timestamp.Spelling
  notes : List Note
  nonempty : notes ≠ []
  mode : ModeSpelling

namespace Spelling

def text (spelling : Spelling) : List Char :=
  spelling.trigger.text ++ [' '] ++ spelling.timestamp.text ++ [' ', 'p', 'l', 'a', 'y', ' '] ++
    Note.listText spelling.notes ++ spelling.mode.text

def words (spelling : Spelling) : List (List Char) :=
  spelling.trigger.text :: spelling.timestamp.text :: ['p', 'l', 'a', 'y'] ::
    Note.listText spelling.notes :: spelling.mode.words

theorem intercalate_words (spelling : Spelling) :
    [' '].intercalate spelling.words = spelling.text := by
  rw [words, intercalate_cons, text, ModeSpelling.text_eq]
  simp

theorem isWord_of_mem_words (spelling : Spelling) : ∀ word ∈ spelling.words, IsWord word := by
  simp only [words, List.forall_mem_cons]
  refine ⟨?_, ?_, ?_, ?_, spelling.mode.isWord_of_mem_words⟩
  · cases spelling.trigger <;> exact isWord_of_all (by decide) (by decide)
  · obtain ⟨first, head, _⟩ := spelling.timestamp.head?_text
    refine ⟨fun empty => by simp [empty] at head, ?_⟩
    intro char member
    rcases Timestamp.Spelling.mem_text member with digit | letter
    · exact isForbidden_of_isDigit digit
    · exact isForbidden_of_mem (by decide) letter
  · exact isWord_of_all (by decide) (by decide)
  · obtain ⟨letter, head⟩ := Note.head?_listText spelling.nonempty
    refine ⟨fun empty => by simp [empty] at head, ?_⟩
    intro char member
    exact isForbidden_of_mem (by decide) (Note.listText_subset spelling.notes member)

end Spelling

namespace Line

def colAfter (col : Nat) (texts : List (List Char)) (count : Nat) : Nat :=
  col + ((texts.take count).map (·.length + 1)).sum

theorem colAfter_zero (col : Nat) (texts : List (List Char)) : colAfter col texts 0 = col := by
  simp [colAfter]

theorem colAfter_succ_cons (col : Nat) (text : List Char) (rest : List (List Char)) (count : Nat) :
    colAfter col (text :: rest) (count + 1) = colAfter (col + text.length + 1) rest count := by
  simp only [colAfter, List.take_succ_cons, List.map_cons, List.sum_cons]
  omega

theorem drop_place (col endCol count : Nat) (texts : List (List Char)) :
    drop ⟨place col texts, endCol⟩ count =
      ⟨place (colAfter col texts count) (texts.drop count), endCol⟩ := by
  rw [drop, mk.injEq]
  refine ⟨?_, rfl⟩
  induction texts generalizing col count with
  | nil => simp [place]
  | cons text texts ih =>
      cases count with
      | zero => simp [colAfter_zero]
      | succ count => rw [place, List.drop_succ_cons, ih, colAfter_succ_cons, List.drop_succ_cons]

variable {col endCol : Nat} {texts : List (List Char)}

theorem readTrigger_eq_ok_iff {trigger : TriggerWord} :
    readTrigger ⟨place col texts, endCol⟩ = .ok trigger ↔ texts.head? = some trigger.text := by
  cases texts with
  | nil => simp [readTrigger, place]
  | cons text rest =>
      simp only [readTrigger, place, List.head?_cons, Option.some.injEq]
      constructor
      · intro found
        split at found
        · rename_i kind
          simp only [Except.ok.injEq] at found
          subst found
          exact Word.kind_eq_keyword_iff.mp kind
        · rename_i kind
          simp only [Except.ok.injEq] at found
          subst found
          exact Word.kind_eq_keyword_iff.mp kind
        · simp at found
      · rintro rfl
        cases trigger <;> rfl

theorem operand?_eq_some_iff {word : Word} :
    operand? ⟨place col texts, endCol⟩ = some word ↔
      ∃ text, texts.head? = some text ∧ Word.ofText text col = word ∧ word.isOperand = true := by
  cases texts with
  | nil => simp [operand?, place]
  | cons text rest =>
      simp only [operand?, place, List.head?_cons, Option.filter_eq_some_iff, Option.some.injEq,
        exists_eq_left']

theorem readTimestamp_eq_ok_iff {millis : Nat} :
    readTimestamp ⟨place col texts, endCol⟩ = .ok millis ↔
      ∃ spelling : Timestamp.Spelling, texts.head? = some spelling.text ∧
        spelling.millis = millis := by
  rw [readTimestamp]
  constructor
  · intro found
    split at found
    · simp at found
    rename_i word operand
    obtain ⟨text, head, rfl, _⟩ := operand?_eq_some_iff.mp operand
    split at found
    · rename_i read
      simp only [Except.ok.injEq] at found
      obtain ⟨spelling, textEq, millisEq⟩ := Timestamp.parse_eq_ok_iff.mp read
      exact ⟨spelling, by rw [head, textEq]; rfl, millisEq.trans found⟩
    · simp at found
  · rintro ⟨spelling, head, rfl⟩
    obtain ⟨first, firstEq, digit⟩ := spelling.head?_text
    have operand : operand? ⟨place col texts, endCol⟩ = some (Word.ofText spelling.text col) :=
      operand?_eq_some_iff.mpr ⟨spelling.text, head, rfl,
        Word.isOperand_of_head firstEq (Word.isLower_of_isDigit digit)⟩
    have parsed : Timestamp.parse (Word.ofText spelling.text col).text = .ok spelling.millis :=
      Timestamp.parse_eq_ok_iff.mpr ⟨spelling, rfl, rfl⟩
    simp only [operand, parsed]

theorem readPlay_eq_ok_iff :
    readPlay ⟨place col texts, endCol⟩ = .ok () ↔ texts.head? = some ['p', 'l', 'a', 'y'] := by
  rw [readPlay]
  cases texts with
  | nil => simp [place]
  | cons text rest =>
      have spelled : (Word.ofText text col).kind = .keyword .play ↔ text = ['p', 'l', 'a', 'y'] :=
        Word.kind_eq_keyword_iff
      simp only [place, List.head?_cons, Option.any_some, decide_eq_true_eq, Option.some.injEq,
        spelled]
      split <;> simp_all

theorem readNotes_eq_ok_iff {notes : List Note} :
    readNotes ⟨place col texts, endCol⟩ = .ok notes ↔
      notes ≠ [] ∧ texts.head? = some (Note.listText notes) := by
  rw [readNotes]
  constructor
  · intro found
    split at found
    · simp at found
    rename_i word operand
    obtain ⟨text, head, rfl, _⟩ := operand?_eq_some_iff.mp operand
    split at found
    · simp at found
    have items : text.splitOn ',' = notes.map Note.spelling := readItems_eq_ok_iff.mp found
    have nonempty : notes ≠ [] := by
      rintro rfl
      exact List.splitOn_ne_nil ',' text items
    refine ⟨nonempty, ?_⟩
    rw [head, Note.listText, ← items, List.intercalate_splitOn]
  · rintro ⟨nonempty, head⟩
    obtain ⟨letter, letterEq⟩ := Note.head?_listText nonempty
    have capital : letter.toChar.isLower = false := by cases letter <;> rfl
    have operand : operand? ⟨place col texts, endCol⟩ =
        some (Word.ofText (Note.listText notes) col) :=
      operand?_eq_some_iff.mpr ⟨Note.listText notes, head, rfl,
        Word.isOperand_of_head letterEq capital⟩
    have items := Note.splitOn_listText nonempty
    have closed : (Word.ofText (Note.listText notes) col).text.getLast? ≠ some ',' := by
      intro last
      have emptyItem : [] ∈ (Note.listText notes).splitOn ',' := nil_mem_splitOn last
      rw [items] at emptyItem
      obtain ⟨note, _, empty⟩ := List.mem_map.mp emptyItem
      exact note.spelling_ne_nil empty
    simp only [operand, closed, if_false]
    exact readItems_eq_ok_iff.mpr items

theorem readEnd_eq_ok_iff : readEnd ⟨place col texts, endCol⟩ = .ok () ↔ texts = [] := by
  cases texts <;> simp [readEnd, place]

theorem readPlainMode_readEnd_iff {text : List Char} {clause : ModeClause}
    {mode : Option ModeClause} :
    (∃ rest, readPlainMode ⟨place col (text :: texts), endCol⟩ clause = .ok (mode, rest) ∧
        rest.readEnd = .ok ()) ↔
      texts = [] ∧ some clause = mode := by
  constructor
  · rintro ⟨rest, found, ended⟩
    simp only [readPlainMode] at found
    split at found
    · simp at found
    simp only [Except.ok.injEq, Prod.mk.injEq, drop_place] at found
    obtain ⟨modeEq, rfl⟩ := found
    exact ⟨readEnd_eq_ok_iff.mp ended, modeEq⟩
  · rintro ⟨rfl, rfl⟩
    exact ⟨⟨[], endCol⟩, rfl, rfl⟩

theorem readCount_readEnd_iff {mode : Option ModeClause} :
    (∃ rest, readCount ⟨place col texts, endCol⟩ = .ok (mode, rest) ∧ rest.readEnd = .ok ()) ↔
      (texts = [] ∧ some (.stack none) = mode) ∨
        ∃ count : Count, texts = [count.digits] ∧ some (.stack (some count.value)) = mode := by
  constructor
  · rintro ⟨rest, found, ended⟩
    cases texts with
    | nil =>
        simp only [readCount, place, Except.ok.injEq, Prod.mk.injEq] at found
        exact Or.inl ⟨rfl, found.1⟩
    | cons text others =>
        simp only [readCount] at found
        split at found
        · rename_i value _ _ _ wordsEq
          simp only [place, List.cons.injEq] at wordsEq
          have kind : Word.Kind.ofText text = .number value := congrArg Word.kind wordsEq.1
          obtain ⟨decimal, rfl, _⟩ := Word.kind_eq_number_iff.mp kind
          split at found
          · simp at found
          split at found
          · simp at found
          rename_i notZero notHuge
          simp only [Except.ok.injEq, Prod.mk.injEq, drop_place] at found
          obtain ⟨modeEq, rfl⟩ := found
          have alone : others = [] := readEnd_eq_ok_iff.mp ended
          have nonempty : text ≠ [] := by
            rintro rfl
            exact notZero rfl
          exact Or.inr ⟨⟨text, nonempty, decimal, by omega, by omega⟩, by rw [alone], modeEq⟩
        · simp only [Except.ok.injEq, Prod.mk.injEq] at found
          obtain ⟨_, rfl⟩ := found
          exact absurd (readEnd_eq_ok_iff.mp ended) (by simp)
  · rintro (⟨rfl, rfl⟩ | ⟨count, rfl, rfl⟩)
    · exact ⟨⟨[], endCol⟩, rfl, rfl⟩
    · have notZero : count.value ≠ 0 := Nat.ne_of_gt count.positive
      have notHuge : ¬maxCount < count.value := Nat.not_lt.mpr count.bounded
      refine ⟨⟨[], endCol⟩, ?_, rfl⟩
      simp only [readCount, place, Word.ofText, count.kind_digits, notZero, notHuge, if_false]
      rfl

theorem readMode_readEnd_iff {mode : Option ModeClause} :
    (∃ rest, readMode ⟨place col texts, endCol⟩ = .ok (mode, rest) ∧ rest.readEnd = .ok ()) ↔
      ∃ spelling : ModeSpelling, texts = spelling.words ∧ spelling.clause = mode := by
  cases texts with
  | nil =>
      simp only [readMode, place, Except.ok.injEq, Prod.mk.injEq]
      constructor
      · rintro ⟨rest, ⟨rfl, _⟩, _⟩
        exact ⟨.absent, rfl, rfl⟩
      · rintro ⟨spelling, wordsEq, rfl⟩
        cases spelling <;> simp only [ModeSpelling.words, reduceCtorEq] at wordsEq
        exact ⟨⟨[], endCol⟩, ⟨rfl, rfl⟩, rfl⟩
  | cons text others =>
      constructor
      · rintro ⟨rest, found, ended⟩
        simp only [readMode] at found
        split at found
        · rename_i noWords
          simp [place] at noWords
        rename_i word _ wordsEq
        simp only [place, List.cons.injEq] at wordsEq
        obtain ⟨rfl, _⟩ := wordsEq
        split at found
        · rename_i kind
          obtain ⟨rfl, rfl⟩ := readPlainMode_readEnd_iff.mp ⟨rest, found, ended⟩
          exact ⟨.scale, by rw [Word.kind_eq_keyword_iff.mp kind]; rfl, rfl⟩
        · rename_i kind
          obtain ⟨rfl, rfl⟩ := readPlainMode_readEnd_iff.mp ⟨rest, found, ended⟩
          exact ⟨.arpeggio, by rw [Word.kind_eq_keyword_iff.mp kind]; rfl, rfl⟩
        · rename_i kind
          have spelled : text = ['r', 'e', 'p', 'e', 'a', 't'] := Word.kind_eq_keyword_iff.mp kind
          rw [drop_place] at found
          rcases readCount_readEnd_iff.mp ⟨rest, found, ended⟩ with
            ⟨alone, rfl⟩ | ⟨count, digitsEq, rfl⟩
          · simp only [List.drop_succ_cons, List.drop_zero] at alone
            exact ⟨.stack, by rw [spelled, alone]; rfl, rfl⟩
          · simp only [List.drop_succ_cons, List.drop_zero] at digitsEq
            exact ⟨.stackUpTo count, by rw [spelled, digitsEq]; rfl, rfl⟩
        · simp at found
      · rintro ⟨spelling, wordsEq, rfl⟩
        rw [wordsEq]
        cases spelling with
        | absent => simp [ModeSpelling.words] at wordsEq
        | scale => exact ⟨⟨[], endCol⟩, rfl, rfl⟩
        | arpeggio => exact ⟨⟨[], endCol⟩, rfl, rfl⟩
        | stack => exact ⟨⟨[], endCol⟩, rfl, rfl⟩
        | stackUpTo count =>
            exact readCount_readEnd_iff.mpr (Or.inr ⟨count, rfl, rfl⟩)

def clausesOf (col : Nat) (spelling : Spelling) : Clauses :=
  ⟨spelling.trigger, spelling.timestamp.millis, col + spelling.trigger.text.length + 1,
    spelling.notes, spelling.mode.clause⟩

theorem readClauses_eq_ok_iff {clauses : Clauses} :
    readClauses ⟨place col texts, endCol⟩ = .ok clauses ↔
      ∃ spelling : Spelling, texts = spelling.words ∧ clausesOf col spelling = clauses := by
  simp only [readClauses, drop_place, bind_eq_ok_iff, pure, Except.pure, Except.ok.injEq]
  constructor
  · rintro ⟨trigger, triggerEq, millis, millisEq, _, playEq, notes, notesEq, ⟨mode, rest⟩, modeEq,
      _, endEq, rfl⟩
    obtain ⟨timestamp, timestampEq, rfl⟩ := readTimestamp_eq_ok_iff.mp millisEq
    obtain ⟨nonempty, notesEq⟩ := readNotes_eq_ok_iff.mp notesEq
    obtain ⟨clause, clauseEq, rfl⟩ := readMode_readEnd_iff.mp ⟨rest, modeEq, endEq⟩
    have triggerEq := readTrigger_eq_ok_iff.mp triggerEq
    have playEq := readPlay_eq_ok_iff.mp playEq
    match texts with
    | [] => simp at triggerEq
    | [_] => simp at timestampEq
    | [_, _] => simp at playEq
    | [_, _, _] => simp at notesEq
    | first :: second :: third :: fourth :: others =>
        simp only [List.head?_cons, List.drop_succ_cons, List.drop_zero, Option.some.injEq] at *
        subst triggerEq timestampEq playEq notesEq clauseEq
        exact ⟨⟨trigger, timestamp, notes, nonempty, clause⟩, rfl, rfl⟩
  · rintro ⟨spelling, rfl, rfl⟩
    obtain ⟨rest, modeEq, endEq⟩ : ∃ rest,
        readMode ⟨place (colAfter col spelling.words 4) spelling.mode.words, endCol⟩ =
          .ok (spelling.mode.clause, rest) ∧ rest.readEnd = .ok () :=
      readMode_readEnd_iff.mpr ⟨spelling.mode, rfl, rfl⟩
    exact ⟨spelling.trigger, readTrigger_eq_ok_iff.mpr rfl,
      spelling.timestamp.millis, readTimestamp_eq_ok_iff.mpr ⟨spelling.timestamp, rfl, rfl⟩,
      (), readPlay_eq_ok_iff.mpr rfl,
      spelling.notes, readNotes_eq_ok_iff.mpr ⟨spelling.nonempty, rfl⟩,
      ⟨spelling.mode.clause, rest⟩, modeEq, (), endEq, rfl⟩

end Line

theorem Clauses.parse_eq_ok_iff {text : List Char} {clauses : Clauses} :
    Clauses.parse text = .ok clauses ↔
      ∃ spelling : Spelling, spelling.text = text ∧ Line.clausesOf 1 spelling = clauses := by
  simp only [Clauses.parse, bind_eq_ok_iff, Line.read_eq_ok_iff]
  constructor
  · rintro ⟨line, ⟨texts, _, joined, rfl⟩, found⟩
    obtain ⟨spelling, rfl, clausesEq⟩ := Line.readClauses_eq_ok_iff.mp found
    exact ⟨spelling, by rw [← spelling.intercalate_words, joined], clausesEq⟩
  · rintro ⟨spelling, rfl, rfl⟩
    exact ⟨_, ⟨spelling.words, spelling.isWord_of_mem_words, spelling.intercalate_words, rfl⟩,
      Line.readClauses_eq_ok_iff.mpr ⟨spelling, rfl, rfl⟩⟩

namespace Spelling

def HasPeriod (spelling : Spelling) : Prop :=
  spelling.trigger = .every → spelling.timestamp.millis ≠ 0

/-- A single firing plays its chord once, whatever its mode clause says. -/
def playMode (spelling : Spelling) : PlayMode :=
  match spelling.trigger with
  | .once => .stack 1
  | .every => spelling.mode.playMode

structure Means (spelling : Spelling) (command : Command) : Prop where
  trigger : command.trigger.word = spelling.trigger
  millis : command.trigger.millis = spelling.timestamp.millis
  notes : command.notes = spelling.notes
  mode : command.mode = spelling.playMode
  cursor : command.cursor = 0

theorem every_playMode (period : Nat) (notes : List Note) (mode : ModeSpelling) :
    Command.every period notes mode.playMode = ⟨.every period mode.playMode, notes, 0⟩ := by
  cases mode with
  | stackUpTo count =>
      have positive : max count.value 1 = count.value := Nat.max_eq_left count.positive
      simp only [ModeSpelling.playMode, Command.every, positive]
  | _ => rfl

theorem means_once_iff {spelling : Spelling} {command : Command}
    (once : spelling.trigger = .once) :
    spelling.Means command ↔ .once spelling.timestamp.millis spelling.notes = command := by
  constructor
  · intro meaning
    obtain ⟨trigger, notes, cursor⟩ := command
    obtain ⟨triggerEq, millisEq, notesEq, _, cursorEq⟩ := meaning
    cases trigger with
    | once instant =>
        simp only [Trigger.millis] at millisEq notesEq cursorEq
        rw [millisEq, notesEq, cursorEq, Command.once]
    | every => simp [Trigger.word, once] at triggerEq
  · rintro rfl
    exact ⟨once.symm, rfl, rfl, by rw [playMode, once]; rfl, rfl⟩

theorem means_every_iff {spelling : Spelling} {command : Command}
    (every : spelling.trigger = .every) :
    spelling.Means command ↔
      .every spelling.timestamp.millis spelling.notes spelling.mode.playMode = command := by
  rw [every_playMode]
  constructor
  · intro meaning
    obtain ⟨trigger, notes, cursor⟩ := command
    obtain ⟨triggerEq, millisEq, notesEq, modeEq, cursorEq⟩ := meaning
    cases trigger with
    | once => simp [Trigger.word, every] at triggerEq
    | every period mode =>
        simp only [playMode, every, Command.mode] at modeEq
        simp only [Trigger.millis] at millisEq notesEq cursorEq
        rw [millisEq, notesEq, modeEq, cursorEq]
  · rintro rfl
    exact ⟨every.symm, rfl, rfl, by rw [playMode, every]; rfl, rfl⟩

theorem command_clausesOf_iff {spelling : Spelling} {col : Nat} {command : Command} :
    (Line.clausesOf col spelling).command = .ok command ↔
      spelling.HasPeriod ∧ spelling.Means command := by
  cases trigger : spelling.trigger with
  | once =>
      rw [means_once_iff trigger]
      simp [Line.clausesOf, Clauses.command, HasPeriod, trigger]
  | every =>
      rw [means_every_iff trigger]
      simp only [Line.clausesOf, Clauses.command, HasPeriod, trigger, ModeSpelling.meaning_clause,
        forall_const]
      split <;> simp_all

end Spelling

/-- A line compiles exactly when it is written by the grammar, and it compiles to what is written. -/
theorem compileLine_eq_ok_iff_means (line : List Char) (command : Command) :
    compileLine line = .ok command ↔
      ∃ spelling : Spelling, spelling.text = line ∧ spelling.HasPeriod ∧ spelling.Means command := by
  simp only [compileLine, bind_eq_ok_iff, Clauses.parse_eq_ok_iff]
  constructor
  · rintro ⟨clauses, ⟨spelling, rfl, rfl⟩, found⟩
    exact ⟨spelling, rfl, Spelling.command_clausesOf_iff.mp found⟩
  · rintro ⟨spelling, rfl, meaning⟩
    exact ⟨_, ⟨spelling, rfl, rfl⟩, Spelling.command_clausesOf_iff.mpr meaning⟩

end Rule

end NoteClock
