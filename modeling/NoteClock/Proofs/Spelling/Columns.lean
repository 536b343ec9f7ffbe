import NoteClock.Proofs.Spelling.Stage

/-!
Where faults are reported. A fault lies at the start of a word, or where a timestamp or a note list is
cut at its separators, or just past the end of a line that stops too early.
-/

namespace NoteClock.Rule

/-- Where a piece of a word starts that is cut at a separator, or where a separator ends the word. -/
inductive Mark (separator : Char) (word : List Char) : Nat → Prop
  | start : word ≠ [] → Mark separator word 0
  | behind {front back} : word = front ++ separator :: back → back ≠ [] →
      Mark separator word (front.length + 1)
  | last {front} : word = front ++ [separator] → Mark separator word front.length

variable {separator : Char} {word : List Char} {offset : Nat}

theorem Mark.lt_length (mark : Mark separator word offset) : offset < word.length := by
  cases mark with
  | start nonempty => exact List.length_pos_iff.mpr nonempty
  | behind shape more =>
      have positive := List.length_pos_iff.mpr more
      rw [shape, List.length_append, List.length_cons]
      omega
  | last shape => simp [shape]

theorem Mark.of_pieces {former later : List (List Char)} {piece : List Char} (nonempty : word ≠ [])
    (notEnded : word.getLast? ≠ some separator)
    (pieces : word.splitOn separator = former ++ piece :: later) :
    Mark separator word (former.flatMap (· ++ [separator])).length := by
  obtain ⟨back, shape, more⟩ := exists_behind_pieces nonempty notEnded pieces
  rcases List.eq_nil_or_concat' former with rfl | ⟨front, last, rfl⟩
  · exact .start nonempty
  · have regrouped : word = (front.flatMap (· ++ [separator]) ++ last) ++ separator :: back := by
      simpa using shape
    have mark := Mark.behind regrouped more
    simpa [Nat.add_assoc] using mark

theorem Mark.of_refusal {error : Timestamp.Error} (refusal : Timestamp.Refusal word error)
    (nonempty : word ≠ []) : Mark ':' word error.before.length := by
  cases refusal with
  | empty isEmpty => exact absurd isEmpty nonempty
  | trailingSeparator shape => exact .last shape
  | segment _ notEnded first =>
      obtain ⟨later, pieces⟩ := first.pieces
      have mark := Mark.of_pieces nonempty notEnded pieces
      rwa [List.flatMap_map] at mark

def separator? : Nat → Option Char
  | 1 => some ':'
  | 3 => some ','
  | _ => none

namespace Stage

variable {stage last : Stage} {fault : Fault} {words : List (List Char)}

theorem Misplaced.mark (misplaced : Misplaced stage word fault offset) (nonempty : word ≠ []) :
    offset = 0 ∨ ∃ separator, separator? stage.index = some separator ∧
      Mark separator word offset := by
  cases misplaced with
  | timestamp _ refused =>
      exact Or.inr ⟨':', rfl, .of_refusal (Timestamp.parse_eq_error_iff.mp refused) nonempty⟩
  | trailingComma front => exact Or.inr ⟨',', rfl, .last rfl⟩
  | badNote _ notEnded items _ =>
      have mark := Mark.of_pieces nonempty notEnded items
      rw [List.flatMap_map] at mark
      exact Or.inr ⟨',', rfl, mark⟩
  | _ => exact Or.inl rfl

theorem Misplaced.offset_lt (misplaced : Misplaced stage word fault offset) (nonempty : word ≠ []) :
    offset < word.length := by
  rcases misplaced.mark nonempty with rfl | ⟨_, _, mark⟩
  · exact List.length_pos_iff.mpr nonempty
  · exact mark.lt_length

theorem Misplaced.kind_ne (misplaced : Misplaced stage word fault offset) :
    fault.kind ≠ .lexical := by
  cases misplaced <;> exact Fault.Kind.noConfusion

theorem index_le_of_lacks (lacks : stage.lacks? = some fault) : stage.index ≤ 3 := by
  cases stage <;> first | decide | cases lacks

theorem behind_eq (col : Nat) (words : List (List Char)) :
    behind col words = col + (words.flatMap (· ++ [' '])).length := by
  induction words generalizing col with
  | nil => rfl
  | cons word words ih =>
      have step : behind col (word :: words) = behind (col + word.length + 1) words := rfl
      rw [step, ih, List.flatMap_cons, List.length_append, List.length_append,
        List.length_singleton]
      omega

end Stage

/-! Where the words of a line stand -/

namespace Line

open Stage

variable {former later : List (List Char)}

theorem place_append (col : Nat) (former later : List (List Char)) :
    place col (former ++ later) = place col former ++ place (behind col former) later := by
  induction former generalizing col with
  | nil => rfl
  | cons text former ih =>
      rw [List.cons_append, place, ih]
      rfl

theorem length_place (col : Nat) (texts : List (List Char)) :
    (place col texts).length = texts.length := by
  rw [← List.length_map (fun word : Word => word.text), map_text_place]

theorem getElem?_tokens_ofWords (former : List (List Char)) (word : List Char)
    (later : List (List Char)) :
    (ofWords (former ++ word :: later)).tokens[former.length]? =
      some (.word (.ofText word (behind 1 former))) := by
  rw [tokens, ofWords, place_append, List.map_append, List.append_assoc,
    List.getElem?_append_right (by simp [length_place])]
  simp [length_place, place]

theorem getElem?_tokens_lineEnd (words : List (List Char)) :
    (ofWords words).tokens[words.length]? =
      some (.lineEnd (([' '].intercalate words).length + 1)) := by
  rw [tokens, ofWords, List.getElem?_append_right (by simp [length_place])]
  simp [length_place]

theorem intercalate_split (former : List (List Char)) (word : List Char)
    (later : List (List Char)) :
    ∃ lead more, [' '].intercalate (former ++ word :: later) = lead ++ word ++ more ∧
      behind 1 former = lead.length + 1 :=
  ⟨_, _, intercalate_append_cons ' ' former word later, by rw [behind_eq, Nat.add_comm]⟩

theorem getElem?_intercalate (former later : List (List Char)) (inside : offset < word.length) :
    ([' '].intercalate (former ++ word :: later))[behind 1 former + offset - 1]? =
      word[offset]? := by
  obtain ⟨lead, more, joined, start⟩ := intercalate_split former word later
  have place : behind 1 former + offset - 1 = lead.length + offset := by omega
  rw [joined, place, List.append_assoc, List.getElem?_append_right (by omega),
    Nat.add_sub_cancel_left, List.getElem?_append_left inside]

theorem behind_add_le (former later : List (List Char)) (inside : offset < word.length) :
    behind 1 former + offset ≤ ([' '].intercalate (former ++ word :: later)).length := by
  obtain ⟨lead, more, joined, start⟩ := intercalate_split former word later
  rw [joined, List.length_append, List.length_append]
  omega

end Line

/-- The words of a line that stops in front of its note list, with nothing wrong so far. -/
inductive Unfinished : List (List Char) → Prop
  | blank : Unfinished []
  | trigger (trigger : TriggerWord) : Unfinished [trigger.text]
  | timestamp (trigger : TriggerWord) {token millis} : Timestamp.parse token = .ok millis →
      Unfinished [trigger.text, token]
  | play (trigger : TriggerWord) {token millis} : Timestamp.parse token = .ok millis →
      Unfinished [trigger.text, token, Keyword.play.spelling]

namespace Stage

variable {stage last : Stage} {fault : Fault} {words : List (List Char)}

theorem unfinished_iff :
    Unfinished words ↔ ∃ last fault, Leads .trigger words last ∧ last.lacks? = some fault := by
  constructor
  · intro unfinished
    cases unfinished with
    | blank => exact ⟨_, _, .nil _, rfl⟩
    | trigger trigger => exact ⟨_, _, .cons (.trigger trigger) (.nil _), rfl⟩
    | timestamp trigger parsed =>
        obtain ⟨spelling, rfl, _⟩ := Timestamp.parse_eq_ok_iff.mp parsed
        exact ⟨_, _, .cons (.trigger trigger) (.cons (.timestamp spelling) (.nil _)), rfl⟩
    | play trigger parsed =>
        obtain ⟨spelling, rfl, _⟩ := Timestamp.parse_eq_ok_iff.mp parsed
        exact ⟨_, _, .cons (.trigger trigger) (.cons (.timestamp spelling) (.cons .play (.nil _))),
          rfl⟩
  · rintro ⟨last, fault, leads, lacks⟩
    cases leads with
    | nil => exact .blank
    | cons takes leads =>
    cases takes with | trigger trigger =>
    cases leads with
    | nil => exact .trigger trigger
    | cons takes leads =>
    cases takes with | timestamp spelling =>
    have parsed : Timestamp.parse spelling.text = .ok spelling.millis :=
      Timestamp.parse_eq_ok_iff.mpr ⟨spelling, rfl, rfl⟩
    cases leads with
    | nil => exact .timestamp trigger parsed
    | cons takes leads =>
    cases takes with | play =>
    cases leads with
    | nil => exact .play trigger parsed
    | cons takes leads =>
        have early := index_le_of_lacks lacks
        have behindNotes : last.index = 4 + _ := takes.index_eq ▸ leads.index_eq
        omega

end Stage

/-- What a column may point at in a line that is cut into tokens. -/
inductive Landmark (text : List Char) (tokens : List Token) (col : Nat) : Prop
  | wordStart {index : Nat} {word : Word} : tokens[index]? = some (.word word) → word.col = col →
      Landmark text tokens col
  | behindSeparator {index : Nat} {separator : Char} {word : Word} :
      separator? index = some separator → tokens[index]? = some (.word word) → word.col < col →
      col < word.col + word.text.length → text[col - 2]? = some separator →
      Landmark text tokens col
  | lastSeparator {index : Nat} {separator : Char} {word : Word} :
      separator? index = some separator → tokens[index]? = some (.word word) →
      col + 1 = word.col + word.text.length → text[col - 1]? = some separator →
      Landmark text tokens col

open Stage Line in
theorem landmark_of_misplaced {former later : List (List Char)} {last : Stage} {fault : Fault}
    (leads : Leads .trigger former last) (misplaced : Misplaced last word fault offset)
    (nonempty : word ≠ []) :
    Landmark ([' '].intercalate (former ++ word :: later)) (ofWords (former ++ word :: later)).tokens
      (behind 1 former + offset) := by
  have here := getElem?_tokens_ofWords former word later
  have place : former.length = last.index := by
    rw [leads.index_eq, index, Nat.zero_add]
  rcases misplaced.mark nonempty with rfl | ⟨separator, cut, mark⟩
  · exact .wordStart here rfl
  · rw [← place] at cut
    have wordCol : (Word.ofText word (behind 1 former)).col = behind 1 former := rfl
    have wordText : (Word.ofText word (behind 1 former)).text = word := rfl
    cases mark with
    | start => exact .wordStart here rfl
    | @behind front back shape more =>
        have inside : front.length < word.length := by simp [shape]
        have notLast : front.length + 1 < word.length := (Mark.behind shape more).lt_length
        have previous : behind 1 former + (front.length + 1) - 2 =
            behind 1 former + front.length - 1 := by omega
        refine .behindSeparator cut here (by omega) (by rw [wordCol, wordText]; omega) ?_
        rw [previous, getElem?_intercalate former later inside, shape]
        simp
    | @last front shape =>
        have wordEnd : word.length = front.length + 1 := by simp [shape]
        refine .lastSeparator cut here (by rw [wordCol, wordText]; omega) ?_
        rw [getElem?_intercalate former later (by omega), shape]
        simp

theorem compileLine_of_unfinished {words : List (List Char)}
    (areWords : ∀ word ∈ words, IsWord word) (unfinished : Unfinished words) :
    ∃ fault, compileLine ([' '].intercalate words) =
      .error ⟨fault, ([' '].intercalate words).length + 1⟩ := by
  obtain ⟨last, fault, leads, lacks⟩ := Stage.unfinished_iff.mp unfinished
  have parsed := Clauses.parse_eq_error_iff.mpr
    (Or.inr ⟨words, areWords, rfl, words, last, [], List.append_nil words, leads, .ended lacks⟩)
  exact ⟨fault, compileLine_eq_error_iff.mpr (Or.inl parsed)⟩

/-- The fault lies on the line: on a character that no word holds if it is one of the characters, and
on a landmark of the tokens otherwise. -/
structure PointsInside (text : List Char) (error : LineError) : Prop where
  first : 1 ≤ error.col
  last : error.col ≤ text.length
  lexical : error.fault.kind = .lexical →
    ∃ char, text[error.col - 1]? = some char ∧ isForbidden char = true
  other : error.fault.kind ≠ .lexical →
    ∃ tokens, tokenize text = .ok tokens ∧ Landmark text tokens error.col

theorem tokenize_intercalate {words : List (List Char)} (areWords : ∀ word ∈ words, IsWord word) :
    tokenize ([' '].intercalate words) = .ok (Line.ofWords words).tokens :=
  tokenize_eq_ok_iff.mpr ⟨_, Line.read_eq_ok_iff.mpr ⟨words, areWords, rfl, rfl⟩, rfl⟩

variable {line : List Char} {error : LineError}

theorem FirstMisfit.pointsInside (misfit : FirstMisfit line error) : PointsInside line error := by
  obtain ⟨index, misfit, _, col⟩ := misfit
  obtain ⟨char, here, bad⟩ := misfit.exists_char
  obtain ⟨inside, _⟩ := List.getElem?_eq_some_iff.mp here
  refine ⟨by omega, by omega, fun _ => ⟨char, ?_, bad⟩, fun other => absurd misfit.kind other⟩
  rw [col, Nat.add_sub_cancel]
  exact here

open Stage in
theorem pointsInside_of_misplaced {former later : List (List Char)} {last : Stage} {fault : Fault}
    (areWords : ∀ text ∈ former ++ word :: later, IsWord text)
    (leads : Leads .trigger former last) (misplaced : Misplaced last word fault offset) :
    PointsInside ([' '].intercalate (former ++ word :: later)) ⟨fault, behind 1 former + offset⟩ := by
  have nonempty : word ≠ [] := (areWords word (by simp)).nonempty
  have first : 1 ≤ behind 1 former := by
    rw [behind_eq]
    exact Nat.le_add_right 1 _
  refine ⟨Nat.le_add_right_of_le first,
    Line.behind_add_le former later (misplaced.offset_lt nonempty),
    fun lexical => absurd lexical misplaced.kind_ne, fun _ => ?_⟩
  exact ⟨_, tokenize_intercalate areWords, landmark_of_misplaced leads misplaced nonempty⟩

theorem Spelling.pointsInside_of_zeroPeriod {spelling : Spelling}
    (every : spelling.trigger = .every) : PointsInside spelling.text ⟨.zeroPeriod, 7⟩ := by
  obtain ⟨first, head, _⟩ := spelling.timestamp.head?_text
  have nonempty : 0 < spelling.timestamp.text.length := by
    refine List.length_pos_iff.mpr ?_
    intro empty
    simp [empty] at head
  have cut : spelling.words = [TriggerWord.every.text] ++ spelling.timestamp.text ::
      Keyword.play.spelling :: Note.listText spelling.notes :: spelling.mode.words := by
    rw [Spelling.words, every]
    rfl
  have last := Line.behind_add_le [TriggerWord.every.text]
    (Keyword.play.spelling :: Note.listText spelling.notes :: spelling.mode.words) nonempty
  have here := Line.getElem?_tokens_ofWords [TriggerWord.every.text] spelling.timestamp.text
    (Keyword.play.spelling :: Note.listText spelling.notes :: spelling.mode.words)
  rw [← cut] at last here
  rw [spelling.intercalate_words] at last
  have tokens := tokenize_intercalate spelling.isWord_of_mem_words
  rw [spelling.intercalate_words] at tokens
  refine ⟨by decide, last, fun lexical => Fault.Kind.noConfusion lexical, fun _ => ?_⟩
  exact ⟨_, tokens, .wordStart here rfl⟩

theorem unfinished_or_pointsInside (refused : compileLine line = .error error) :
    (error.col = line.length + 1 ∧ ∃ words : List (List Char),
      (∀ word ∈ words, IsWord word) ∧ [' '].intercalate words = line ∧ Unfinished words) ∨
    PointsInside line error := by
  rcases compileLine_eq_error_iff.mp refused with parserRefused | ⟨spelling, rfl, every, _, rfl⟩
  · rcases Clauses.parse_eq_error_iff.mp parserRefused with
      misfit | ⟨words, areWords, rfl, former, last, later, rfl, leads, blocked⟩
    · exact Or.inr misfit.pointsInside
    · cases blocked with
      | ended lacks =>
          rw [List.append_nil] at areWords ⊢
          exact Or.inl ⟨rfl, former, areWords, rfl, Stage.unfinished_iff.mpr ⟨_, _, leads, lacks⟩⟩
      | misplaced later misplaced =>
          exact Or.inr (pointsInside_of_misplaced areWords leads misplaced)
  · exact Or.inr (Spelling.pointsInside_of_zeroPeriod every)

/-- A fault lies on its line, or just past the end if the line stops too early. On the line, a fault of
its characters points at one that no word holds, and any other at the start of a word, behind a
separator of the timestamp or of the note list, or at the separator that ends one of them. -/
theorem faults_point_at_pieces_of_the_line (line : List Char) (error : LineError)
    (refused : compileLine line = .error error) :
    (1 ≤ error.col ∧ error.col ≤ line.length + 1) ∧
    (error.col = line.length + 1 ↔ ∃ words : List (List Char),
      (∀ word ∈ words, IsWord word) ∧ [' '].intercalate words = line ∧ Unfinished words) ∧
    (error.col ≤ line.length → PointsInside line error) := by
  have atEnd : (∃ words : List (List Char), (∀ word ∈ words, IsWord word) ∧
      [' '].intercalate words = line ∧ Unfinished words) → error.col = line.length + 1 := by
    rintro ⟨words, areWords, rfl, unfinished⟩
    obtain ⟨fault, ended⟩ := compileLine_of_unfinished areWords unfinished
    rw [ended] at refused
    cases refused
    rfl
  rcases unfinished_or_pointsInside refused with ⟨past, unfinished⟩ | inside
  · exact ⟨by omega, ⟨fun _ => unfinished, atEnd⟩, by omega⟩
  · have first := inside.first
    have last := inside.last
    exact ⟨by omega, ⟨by omega, atEnd⟩, fun _ => inside⟩

theorem faults_point_at_pieces_of_the_line_behind_a_wide_character :
    let blocked := "at 1é: play C".toList
    let ended := "at 1h play".toList
    (compileLine blocked = .error ⟨.timestamp .trailingSeparator, 6⟩ ∧
        PointsInside blocked ⟨.timestamp .trailingSeparator, 6⟩) ∧
      compileLine ended = .error ⟨.notANoteList none, 11⟩ ∧
      ∃ words : List (List Char),
        (∀ word ∈ words, IsWord word) ∧ [' '].intercalate words = ended ∧ Unfinished words := by
  intro blocked ended
  have refused : compileLine blocked = .error ⟨.timestamp .trailingSeparator, 6⟩ := rfl
  have stopped : compileLine ended = .error ⟨.notANoteList none, 11⟩ := rfl
  obtain ⟨_, _, inside⟩ := faults_point_at_pieces_of_the_line blocked _ refused
  obtain ⟨_, past, _⟩ := faults_point_at_pieces_of_the_line ended _ stopped
  exact ⟨⟨refused, inside (by decide)⟩, stopped, past.mp rfl⟩

end NoteClock.Rule
