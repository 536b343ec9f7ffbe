import NoteClock.Proofs.Spelling.Count
import NoteClock.Proofs.Spelling.Misfit
import NoteClock.Proofs.Spelling.Offence

/-!
Lines of words that are refused. The words read so far lead a line to a stage, which has words of its
own that may follow. A line is blocked at the first word that may not, or at its end where a stage
still lacks a word, and nothing behind that place matters.
-/

namespace NoteClock.Rule

inductive Stage where
  | trigger
  | timestamp
  | play
  | notes
  | mode
  | afterMode (keyword : Keyword)
  | count
  | done
  deriving DecidableEq, Repr

namespace Stage

def index : Stage → Nat
  | trigger => 0
  | timestamp => 1
  | play => 2
  | notes => 3
  | mode => 4
  | afterMode _ | count => 5
  | done => 6

def lacks? : Stage → Option Fault
  | trigger => some .blankLine
  | timestamp => some (.notATimestamp none)
  | play => some (.notPlay none)
  | notes => some (.notANoteList none)
  | mode | afterMode _ | count | done => none

inductive Takes : Stage → List Char → Stage → Prop
  | trigger (word : TriggerWord) : Takes .trigger word.text .timestamp
  | timestamp (spelling : Timestamp.Spelling) : Takes .timestamp spelling.text .play
  | play : Takes .play Keyword.play.spelling .notes
  | notes {notes : List Note} : notes ≠ [] → Takes .notes (Note.listText notes) .mode
  | plainMode {keyword : Keyword} : keyword = .scale ∨ keyword = .arpeggio →
      Takes .mode keyword.spelling (.afterMode keyword)
  | stack : Takes .mode Keyword.stack.spelling .count
  | count (count : Count) : Takes .count count.digits .done

/-- A word that may not follow here, with the fault and how far into the word it lies. -/
inductive Misplaced : Stage → List Char → Fault → Nat → Prop
  | notATrigger {word} : (∀ trigger : TriggerWord, word ≠ trigger.text) →
      Misplaced .trigger word (.notATrigger word) 0
  | notATimestamp (keyword : Keyword) :
      Misplaced .timestamp keyword.spelling (.notATimestamp (some keyword.spelling)) 0
  | timestamp {word error} : (∀ keyword : Keyword, word ≠ keyword.spelling) →
      Timestamp.parse word = .error error →
      Misplaced .timestamp word (.timestamp error.cause) error.before.length
  | notPlay {word} : word ≠ Keyword.play.spelling → Misplaced .play word (.notPlay (some word)) 0
  | notANoteList (keyword : Keyword) :
      Misplaced .notes keyword.spelling (.notANoteList (some keyword.spelling)) 0
  | trailingComma (front : List Char) : Misplaced .notes (front ++ [',']) .trailingComma front.length
  | badNote {word item later cause} {notes : List Note} :
      (∀ keyword : Keyword, word ≠ keyword.spelling) → word.getLast? ≠ some ',' →
      word.splitOn ',' = notes.map Note.spelling ++ item :: later → Note.parse item = .error cause →
      Misplaced .notes word (.badNote item cause) (notes.flatMap (·.spelling ++ [','])).length
  | notAMode {word} : (∀ keyword ∈ [Keyword.scale, .arpeggio, .stack], word ≠ keyword.spelling) →
      Misplaced .mode word (.notAMode word) 0
  | countWithoutStack {keyword word value} : Word.Kind.ofText word = .number value →
      Misplaced (.afterMode keyword) word (.countWithoutStack keyword.spelling) 0
  | zeroCount {word} : Word.Kind.ofText word = .number 0 → Misplaced .count word .zeroCount 0
  | hugeCount {word value} : Word.Kind.ofText word = .number value → maxCount < value →
      Misplaced .count word .hugeCount 0
  | surplusAfterMode {keyword word} : (∀ value, Word.Kind.ofText word ≠ .number value) →
      Misplaced (.afterMode keyword) word (.surplus word) 0
  | surplusForCount {word} : (∀ value, Word.Kind.ofText word ≠ .number value) →
      Misplaced .count word (.surplus word) 0
  | surplus (word) : Misplaced .done word (.surplus word) 0

inductive Leads : Stage → List (List Char) → Stage → Prop
  | nil (stage) : Leads stage [] stage
  | cons {stage next last word words} : Takes stage word next → Leads next words last →
      Leads stage (word :: words) last

/-- Words that cannot go on from a stage, the first of them in column `col`. -/
inductive Blocked (endCol : Nat) (stage : Stage) (col : Nat) : List (List Char) → LineError → Prop
  | ended {fault} : stage.lacks? = some fault → Blocked endCol stage col [] ⟨fault, endCol⟩
  | misplaced {word fault offset} (later) : Misplaced stage word fault offset →
      Blocked endCol stage col (word :: later) ⟨fault, col + offset⟩

variable {stage next last : Stage} {word : List Char} {words : List (List Char)}

theorem Takes.index_eq (takes : Takes stage word next) : next.index = stage.index + 1 := by
  cases takes <;> rfl

theorem Leads.index_eq (leads : Leads stage words last) :
    last.index = stage.index + words.length := by
  induction leads with
  | nil => rfl
  | cons takes _ ih =>
      rw [ih, takes.index_eq, List.length_cons]
      omega

/-! At each stage a word may follow, or it is misplaced -/

theorem exists_bad_item (items : List (List Char)) :
    (∃ notes : List Note, items = notes.map Note.spelling) ∨
      ∃ (notes : List Note) (item : List Char) (later : List (List Char)) (cause : Note.Error),
        items = notes.map Note.spelling ++ item :: later ∧ Note.parse item = .error cause := by
  induction items with
  | nil => exact Or.inl ⟨[], rfl⟩
  | cons item rest ih =>
      cases parsed : Note.parse item with
      | error cause => exact Or.inr ⟨[], item, rest, cause, rfl, parsed⟩
      | ok note =>
          rw [Note.parse_eq_ok_iff.mp parsed]
          rcases ih with ⟨notes, rfl⟩ | ⟨notes, bad, later, cause, rfl, refused⟩
          · exact Or.inl ⟨note :: notes, rfl⟩
          · exact Or.inr ⟨note :: notes, bad, later, cause, rfl, refused⟩

theorem takes_or_misplaced_notes (word : List Char) :
    (∃ next, Takes .notes word next) ∨ ∃ fault offset, Misplaced .notes word fault offset := by
  by_cases spelled : ∃ keyword : Keyword, word = keyword.spelling
  · obtain ⟨keyword, rfl⟩ := spelled
    exact Or.inr ⟨_, _, .notANoteList keyword⟩
  · by_cases ended : word.getLast? = some ','
    · obtain ⟨front, rfl⟩ := List.getLast?_eq_some_iff.mp ended
      exact Or.inr ⟨_, _, .trailingComma front⟩
    · rcases exists_bad_item (word.splitOn ',') with
        ⟨notes, items⟩ | ⟨notes, item, later, cause, items, refused⟩
      · have nonempty : notes ≠ [] := by
          rintro rfl
          exact List.splitOn_ne_nil ',' word items
        have joined : Note.listText notes = word := by
          rw [Note.listText, ← items, List.intercalate_splitOn]
        rw [← joined]
        exact Or.inl ⟨_, .notes nonempty⟩
      · exact Or.inr ⟨_, _, .badNote (not_exists.mp spelled) ended items refused⟩

theorem takes_or_misplaced_count (word : List Char) :
    (∃ next, Takes .count word next) ∨ ∃ fault offset, Misplaced .count word fault offset := by
  by_cases number : ∃ value, Word.Kind.ofText word = .number value
  · obtain ⟨value, kind⟩ := number
    obtain ⟨decimal, rfl, _⟩ := Word.kind_eq_number_iff.mp kind
    by_cases zero : Nat.ofDigitChars 10 word 0 = 0
    · rw [zero] at kind
      exact Or.inr ⟨_, _, .zeroCount kind⟩
    · by_cases huge : maxCount < Nat.ofDigitChars 10 word 0
      · exact Or.inr ⟨_, _, .hugeCount kind huge⟩
      · have nonempty : word ≠ [] := by
          rintro rfl
          exact zero rfl
        exact Or.inl ⟨_, .count ⟨word, nonempty, decimal, by omega, by omega⟩⟩
  · exact Or.inr ⟨_, _, .surplusForCount (not_exists.mp number)⟩

theorem takes_or_misplaced_mode (word : List Char) :
    (∃ next, Takes .mode word next) ∨ ∃ fault offset, Misplaced .mode word fault offset := by
  by_cases isMode : ∃ keyword ∈ [Keyword.scale, .arpeggio, .stack], word = keyword.spelling
  · obtain ⟨keyword, member, rfl⟩ := isMode
    simp only [List.mem_cons, List.not_mem_nil, or_false] at member
    rcases member with rfl | rfl | rfl
    · exact Or.inl ⟨_, .plainMode (Or.inl rfl)⟩
    · exact Or.inl ⟨_, .plainMode (Or.inr rfl)⟩
    · exact Or.inl ⟨_, .stack⟩
  · refine Or.inr ⟨_, _, .notAMode ?_⟩
    intro keyword member spelled
    exact isMode ⟨keyword, member, spelled⟩

theorem takes_or_misplaced (stage : Stage) (word : List Char) :
    (∃ next, Takes stage word next) ∨ ∃ fault offset, Misplaced stage word fault offset := by
  cases stage with
  | trigger =>
      by_cases known : ∃ trigger : TriggerWord, word = trigger.text
      · obtain ⟨trigger, rfl⟩ := known
        exact Or.inl ⟨_, .trigger trigger⟩
      · exact Or.inr ⟨_, _, .notATrigger (not_exists.mp known)⟩
  | timestamp =>
      by_cases spelled : ∃ keyword : Keyword, word = keyword.spelling
      · obtain ⟨keyword, rfl⟩ := spelled
        exact Or.inr ⟨_, _, .notATimestamp keyword⟩
      · cases parsed : Timestamp.parse word with
        | error error => exact Or.inr ⟨_, _, .timestamp (not_exists.mp spelled) parsed⟩
        | ok millis =>
            obtain ⟨spelling, rfl, _⟩ := Timestamp.parse_eq_ok_iff.mp parsed
            exact Or.inl ⟨_, .timestamp spelling⟩
  | play =>
      by_cases spelled : word = Keyword.play.spelling
      · rw [spelled]
        exact Or.inl ⟨_, .play⟩
      · exact Or.inr ⟨_, _, .notPlay spelled⟩
  | notes => exact takes_or_misplaced_notes word
  | mode => exact takes_or_misplaced_mode word
  | afterMode keyword =>
      by_cases number : ∃ value, Word.Kind.ofText word = .number value
      · obtain ⟨value, kind⟩ := number
        exact Or.inr ⟨_, _, .countWithoutStack kind⟩
      · exact Or.inr ⟨_, _, .surplusAfterMode (not_exists.mp number)⟩
  | count => exact takes_or_misplaced_count word
  | done => exact Or.inr ⟨_, _, .surplus word⟩

def behind (col : Nat) (words : List (List Char)) : Nat :=
  words.foldl (fun col word => col + word.length + 1) col

theorem leads_or_blocked (endCol : Nat) (stage : Stage) (col : Nat) (words : List (List Char)) :
    (∃ last, Leads stage words last ∧ last.lacks? = none) ∨
      ∃ former last later error, former ++ later = words ∧ Leads stage former last ∧
        Blocked endCol last (behind col former) later error := by
  induction words generalizing stage col with
  | nil =>
      cases lacks : stage.lacks? with
      | none => exact Or.inl ⟨stage, .nil stage, lacks⟩
      | some fault => exact Or.inr ⟨[], stage, [], _, rfl, .nil stage, .ended lacks⟩
  | cons word words ih =>
      rcases takes_or_misplaced stage word with ⟨next, takes⟩ | ⟨fault, offset, misplaced⟩
      · rcases ih next (col + word.length + 1) with
          ⟨last, leads, ended⟩ | ⟨former, last, later, error, rfl, leads, blocked⟩
        · exact Or.inl ⟨last, .cons takes leads, ended⟩
        · exact Or.inr ⟨word :: former, last, later, error, rfl, .cons takes leads, blocked⟩
      · exact Or.inr ⟨[], stage, word :: words, _, rfl, .nil stage, .misplaced words misplaced⟩

theorem exists_modeSpelling_of_leads (leads : Leads .mode words last)
    (ended : last.lacks? = none) : ∃ mode : ModeSpelling, words = mode.words := by
  cases leads with
  | nil => exact ⟨.absent, rfl⟩
  | cons takes leads =>
      cases takes with
      | plainMode plain =>
          cases leads with
          | nil =>
              rcases plain with rfl | rfl
              · exact ⟨.scale, rfl⟩
              · exact ⟨.arpeggio, rfl⟩
          | cons takes => cases takes
      | stack =>
          cases leads with
          | nil => exact ⟨.stack, rfl⟩
          | cons takes leads =>
              cases takes with
              | count count =>
                  cases leads with
                  | nil => exact ⟨.stackUpTo count, rfl⟩
                  | cons takes => cases takes

theorem exists_spelling_of_leads (leads : Leads .trigger words last) (ended : last.lacks? = none) :
    ∃ spelling : Spelling, words = spelling.words := by
  cases leads with
  | nil => cases ended
  | cons takes leads =>
  cases takes with | trigger first =>
  cases leads with
  | nil => cases ended
  | cons takes leads =>
  cases takes with | timestamp second =>
  cases leads with
  | nil => cases ended
  | cons takes leads =>
  cases takes with | play =>
  cases leads with
  | nil => cases ended
  | cons takes leads =>
  cases takes with | notes nonempty =>
  obtain ⟨mode, rfl⟩ := exists_modeSpelling_of_leads leads ended
  exact ⟨⟨first, second, _, nonempty, mode⟩, rfl⟩

end Stage

/-! The readers stop where a line is blocked -/

namespace Line

open Stage

variable {col endCol : Nat} {texts : List (List Char)} {error : LineError}

theorem colAfter_eq_behind (col : Nat) (texts : List (List Char)) (count : Nat) :
    colAfter col texts count = behind col (texts.take count) := by
  induction texts generalizing col count with
  | nil => simp [colAfter, behind]
  | cons text texts ih =>
      cases count with
      | zero => exact colAfter_zero col _
      | succ count =>
          rw [colAfter_succ_cons, ih]
          rfl

theorem readTrigger_of_blocked (blocked : Blocked endCol .trigger col texts error) :
    readTrigger ⟨place col texts, endCol⟩ = .error error := by
  cases blocked with
  | ended lacks =>
      cases lacks
      rfl
  | @misplaced word _ _ later misplaced =>
      cases misplaced with
      | notATrigger unknown =>
          cases found : readTrigger ⟨place col (word :: later), endCol⟩ with
          | ok trigger =>
              have spelled := readTrigger_eq_ok_iff.mp found
              exact absurd (Option.some.inj spelled) (unknown trigger)
          | error other =>
              simp only [readTrigger, place] at found
              split at found <;> cases found
              rfl

theorem operand?_of_keyword (keyword : Keyword) (later : List (List Char)) :
    operand? ⟨place col (keyword.spelling :: later), endCol⟩ = none := by
  have notOperand : ¬(Word.ofText keyword.spelling col).isOperand = true :=
    fun operand => Word.isOperand_ofText_iff.mp operand keyword rfl
  simp [operand?, place, notOperand]

theorem operand?_of_other {text : List Char} (other : ∀ keyword : Keyword, text ≠ keyword.spelling)
    (later : List (List Char)) :
    operand? ⟨place col (text :: later), endCol⟩ = some (Word.ofText text col) :=
  operand?_eq_some_iff.mpr ⟨text, rfl, rfl, Word.isOperand_ofText_iff.mpr other⟩

theorem readTimestamp_of_blocked (blocked : Blocked endCol .timestamp col texts error) :
    readTimestamp ⟨place col texts, endCol⟩ = .error error := by
  cases blocked with
  | ended lacks =>
      cases lacks
      rfl
  | misplaced later misplaced =>
      cases misplaced with
      | notATimestamp keyword =>
          rw [readTimestamp, operand?_of_keyword]
          rfl
      | timestamp other refused =>
          simp only [readTimestamp, operand?_of_other other, Word.ofText, refused]

theorem readPlay_of_blocked (blocked : Blocked endCol .play col texts error) :
    readPlay ⟨place col texts, endCol⟩ = .error error := by
  cases blocked with
  | ended lacks =>
      cases lacks
      rfl
  | @misplaced word _ _ later misplaced =>
      cases misplaced with
      | notPlay other =>
          have unread : ¬readPlay ⟨place col (word :: later), endCol⟩ = .ok () :=
            fun read => other (Option.some.inj (readPlay_eq_ok_iff.mp read))
          unfold readPlay at unread ⊢
          split
          · simp_all
          · rfl

theorem readItems_of_bad {item : List Char} {later : List (List Char)} {cause : Note.Error}
    (refused : Note.parse item = .error cause) (notes : List Note) :
    readItems col (notes.map Note.spelling ++ item :: later) =
      .error ⟨.badNote item cause, col + (notes.flatMap (·.spelling ++ [','])).length⟩ := by
  induction notes generalizing col with
  | nil => simp only [List.map_nil, List.nil_append, readItems, refused]; rfl
  | cons note notes ih =>
      have behind : col + note.spelling.length + 1 + (notes.flatMap (·.spelling ++ [','])).length =
          col + ((note :: notes).flatMap (·.spelling ++ [','])).length := by
        simp only [List.flatMap_cons, List.length_append, List.length_singleton]
        omega
      simp only [List.map_cons, List.cons_append, readItems, Note.parse_spelling]
      rw [ih, behind]
      rfl

theorem readNotes_of_blocked (blocked : Blocked endCol .notes col texts error) :
    readNotes ⟨place col texts, endCol⟩ = .error error := by
  cases blocked with
  | ended lacks =>
      cases lacks
      rfl
  | misplaced later misplaced =>
      cases misplaced with
      | notANoteList keyword =>
          rw [readNotes, operand?_of_keyword]
          rfl
      | trailingComma front =>
          have other : ∀ keyword : Keyword, front ++ [','] ≠ keyword.spelling := by
            intro keyword same
            have last := congrArg List.getLast? same
            rw [List.getLast?_concat] at last
            cases keyword <;> cases last
          simp only [readNotes, operand?_of_other other, Word.ofText, List.getLast?_concat, if_true,
            List.length_append, List.length_singleton, Nat.add_sub_cancel]
      | badNote other ended items refused =>
          simp only [readNotes, operand?_of_other other, Word.ofText, ended, if_false, items]
          exact readItems_of_bad refused _

theorem readMode_of_misplaced {word : List Char} {fault : Fault} {offset : Nat}
    (misplaced : Misplaced .mode word fault offset) (later : List (List Char)) :
    readMode ⟨place col (word :: later), endCol⟩ = .error ⟨fault, col + offset⟩ := by
  cases misplaced with
  | notAMode other =>
      simp only [List.forall_mem_cons] at other
      simp only [readMode, place, Word.ofText]
      split <;> simp_all [Word.kind_eq_keyword_iff]

theorem readLastMode_of_plainMode {keyword : Keyword} (plain : keyword = .scale ∨ keyword = .arpeggio)
    (blocked : Blocked endCol (.afterMode keyword) (col + keyword.spelling.length + 1) texts error) :
    readLastMode ⟨place col (keyword.spelling :: texts), endCol⟩ = .error error := by
  cases blocked with
  | ended lacks => cases lacks
  | misplaced later misplaced =>
      cases misplaced with
      | countWithoutStack kind => exact readLastMode_countWithoutStack plain kind
      | surplusAfterMode other => exact readLastMode_surplus (Or.inr plain) other

theorem readLastMode_of_stack
    (blocked : Blocked endCol .count (col + Keyword.stack.spelling.length + 1) texts error) :
    readLastMode ⟨place col (Keyword.stack.spelling :: texts), endCol⟩ = .error error := by
  cases blocked with
  | ended lacks => cases lacks
  | misplaced later misplaced =>
      cases misplaced with
      | zeroCount kind =>
          rw [readLastMode_count kind, if_pos rfl]
      | hugeCount kind huge =>
          rw [readLastMode_count kind, if_neg (by omega), if_pos huge]
      | surplusForCount other => exact readLastMode_surplus (Or.inl rfl) other

theorem readLastMode_of_counted (count : Count) (word : List Char) (later : List (List Char)) :
    readLastMode ⟨place col (Keyword.stack.spelling :: count.digits :: word :: later), endCol⟩ =
      .error ⟨.surplus word, behind col [Keyword.stack.spelling, count.digits]⟩ := by
  have notZero : count.value ≠ 0 := Nat.ne_of_gt count.positive
  have notHuge : ¬maxCount < count.value := Nat.not_lt.mpr count.bounded
  rw [readLastMode_count count.kind_digits, if_neg notZero, if_neg notHuge]
  rfl

theorem readLastMode_of_blocked {former later : List (List Char)} {last : Stage}
    (leads : Leads .mode former last) (blocked : Blocked endCol last (behind col former) later error) :
    readLastMode ⟨place col (former ++ later), endCol⟩ = .error error := by
  cases leads with
  | nil =>
      cases blocked with
      | ended lacks => cases lacks
      | misplaced later misplaced =>
          exact bind_eq_error_iff.mpr (Or.inl (readMode_of_misplaced misplaced later))
  | cons takes leads =>
  cases takes with
  | plainMode plain =>
      cases leads with
      | nil => exact readLastMode_of_plainMode plain blocked
      | cons takes => cases takes
  | stack =>
  cases leads with
  | nil => exact readLastMode_of_stack blocked
  | cons takes leads =>
  cases takes with | count count =>
  cases leads with
  | cons takes => cases takes
  | nil =>
  cases blocked with
  | ended lacks => cases lacks
  | misplaced later misplaced =>
  cases misplaced with | surplus => exact readLastMode_of_counted count _ later

theorem readClauses_of_blocked {former later : List (List Char)} {last : Stage}
    (leads : Leads .trigger former last)
    (blocked : Blocked endCol last (behind col former) later error) :
    readClauses ⟨place col (former ++ later), endCol⟩ = .error error := by
  simp only [readClauses_eq, drop_place, colAfter_eq_behind, bind_eq_error_iff]
  cases leads with
  | nil => exact Or.inl (readTrigger_of_blocked blocked)
  | cons takes leads =>
  cases takes with | trigger first =>
  refine Or.inr ⟨first, readTrigger_eq_ok_iff.mpr rfl, ?_⟩
  cases leads with
  | nil => exact Or.inl (readTimestamp_of_blocked blocked)
  | cons takes leads =>
  cases takes with | timestamp second =>
  refine Or.inr ⟨second.millis, readTimestamp_eq_ok_iff.mpr ⟨second, rfl, rfl⟩, ?_⟩
  cases leads with
  | nil => exact Or.inl (readPlay_of_blocked blocked)
  | cons takes leads =>
  cases takes with | play =>
  refine Or.inr ⟨(), readPlay_eq_ok_iff.mpr rfl, ?_⟩
  cases leads with
  | nil => exact Or.inl (readNotes_of_blocked blocked)
  | cons takes leads =>
  cases takes with | notes nonempty =>
  refine Or.inr ⟨_, readNotes_eq_ok_iff.mpr ⟨nonempty, rfl⟩, ?_⟩
  exact Or.inl (readLastMode_of_blocked leads blocked)

theorem readClauses_eq_error_iff :
    readClauses ⟨place col texts, endCol⟩ = .error error ↔
      ∃ former last later, former ++ later = texts ∧ Leads .trigger former last ∧
        Blocked endCol last (behind col former) later error := by
  constructor
  · intro refused
    rcases leads_or_blocked endCol .trigger col texts with
      ⟨last, leads, ended⟩ | ⟨former, last, later, other, rfl, leads, blocked⟩
    · obtain ⟨spelling, rfl⟩ := exists_spelling_of_leads leads ended
      rw [readClauses_eq_ok_iff.mpr ⟨spelling, rfl, rfl⟩] at refused
      cases refused
    · rw [readClauses_of_blocked leads blocked] at refused
      obtain rfl := Except.error.inj refused
      exact ⟨former, last, later, rfl, leads, blocked⟩
  · rintro ⟨former, last, later, rfl, leads, blocked⟩
    exact readClauses_of_blocked leads blocked

end Line

theorem Clauses.parse_eq_error_iff {line : List Char} {error : LineError} :
    Clauses.parse line = .error error ↔
      FirstMisfit line error ∨
        ∃ words : List (List Char), (∀ word ∈ words, IsWord word) ∧ [' '].intercalate words = line ∧
          ∃ former last later, former ++ later = words ∧ Stage.Leads .trigger former last ∧
            Stage.Blocked (line.length + 1) last (Stage.behind 1 former) later error := by
  rw [Clauses.parse, bind_eq_error_iff, Line.read_eq_error_iff]
  refine or_congr_right ?_
  constructor
  · rintro ⟨cut, accepted, refused⟩
    obtain ⟨words, areWords, rfl, rfl⟩ := Line.read_eq_ok_iff.mp accepted
    exact ⟨words, areWords, rfl, Line.readClauses_eq_error_iff.mp refused⟩
  · rintro ⟨words, areWords, rfl, blocked⟩
    exact ⟨_, Line.read_eq_ok_iff.mpr ⟨words, areWords, rfl, rfl⟩,
      Line.readClauses_eq_error_iff.mpr blocked⟩

theorem Clauses.command_eq_error_iff {clauses : Clauses} {error : LineError} :
    clauses.command = .error error ↔
      clauses.trigger = .every ∧ clauses.millis = 0 ∧
        error = ⟨.zeroPeriod, clauses.timestampCol⟩ := by
  rw [Clauses.command]
  cases clauses.trigger with
  | once => simp
  | every =>
      by_cases zero : clauses.millis = 0
      · simp [zero, eq_comm]
      · simp [zero]

theorem compileLine_eq_error_iff {line : List Char} {error : LineError} :
    compileLine line = .error error ↔
      Clauses.parse line = .error error ∨
        ∃ spelling : Spelling, spelling.text = line ∧ spelling.trigger = .every ∧
          spelling.timestamp.millis = 0 ∧ error = ⟨.zeroPeriod, 7⟩ := by
  rw [compileLine, bind_eq_error_iff]
  refine or_congr_right ?_
  constructor
  · rintro ⟨clauses, parsed, refused⟩
    obtain ⟨spelling, joined, rfl⟩ := Clauses.parse_eq_ok_iff.mp parsed
    obtain ⟨every, zero, rfl⟩ := Clauses.command_eq_error_iff.mp refused
    have every : spelling.trigger = .every := every
    refine ⟨spelling, joined, every, zero, ?_⟩
    rw [Line.clausesOf, every]
    rfl
  · rintro ⟨spelling, joined, every, zero, rfl⟩
    refine ⟨_, Clauses.parse_eq_ok_iff.mpr ⟨spelling, joined, rfl⟩, ?_⟩
    refine Clauses.command_eq_error_iff.mpr ⟨every, zero, ?_⟩
    rw [Line.clausesOf, every]
    rfl

end NoteClock.Rule
