import NoteClock.Proofs.Spelling.Stage

/-!
Note lists cut into their items at the commas. A list is refused for ending in a comma, or else for the
first of its items that is not a note, and it is reported where this item starts.
-/

namespace NoteClock

theorem length_flatMap_separator (separator : Char) (pieces : List (List Char)) :
    (pieces.flatMap (· ++ [separator])).length =
      (pieces.map List.length).sum + pieces.length := by
  induction pieces with
  | nil => rfl
  | cons piece rest ih =>
      simp only [List.flatMap_cons, List.length_append, List.length_cons, List.length_nil, ih,
        List.map_cons, List.sum_cons]
      omega

namespace Letter

theorem exists_toChar_eq {char : Char} (member : char ∈ ['A', 'B', 'C', 'D', 'E', 'F', 'G']) :
    ∃ letter : Letter, letter.toChar = char := by
  simp only [List.mem_cons, List.not_mem_nil, or_false] at member
  rcases member with rfl | rfl | rfl | rfl | rfl | rfl | rfl
  exacts [⟨A, rfl⟩, ⟨B, rfl⟩, ⟨C, rfl⟩, ⟨D, rfl⟩, ⟨E, rfl⟩, ⟨F, rfl⟩, ⟨G, rfl⟩]

theorem toChar_mem (letter : Letter) : letter.toChar ∈ ['A', 'B', 'C', 'D', 'E', 'F', 'G'] := by
  cases letter <;> decide

end Letter

namespace Note

/-- A letter from A to G, with an accidental behind it or nothing. -/
def IsSpelling (text : List Char) : Prop :=
  ∃ letter ∈ ['A', 'B', 'C', 'D', 'E', 'F', 'G'],
    text = [letter] ∨ text = [letter, '#'] ∨ text = [letter, 'b']

variable {text : List Char}

theorem isSpelling_spelling (note : Note) : IsSpelling note.spelling := by
  obtain ⟨letter, accidental⟩ := note
  refine ⟨letter.toChar, letter.toChar_mem, ?_⟩
  cases accidental with
  | natural => exact Or.inl rfl
  | sharp => exact Or.inr (Or.inl rfl)
  | flat => exact Or.inr (Or.inr rfl)

theorem IsSpelling.exists_parse (spelled : IsSpelling text) : ∃ note, parse text = .ok note := by
  obtain ⟨char, member, shape⟩ := spelled
  obtain ⟨letter, rfl⟩ := Letter.exists_toChar_eq member
  rcases shape with rfl | rfl | rfl
  · exact ⟨_, parse_spelling ⟨letter, .natural⟩⟩
  · exact ⟨_, parse_spelling ⟨letter, .sharp⟩⟩
  · exact ⟨_, parse_spelling ⟨letter, .flat⟩⟩

theorem not_isSpelling_of_parse {cause : Error} (refused : parse text = .error cause) :
    ¬IsSpelling text := by
  intro spelled
  obtain ⟨note, parsed⟩ := spelled.exists_parse
  rw [parsed] at refused
  cases refused

theorem exists_listText_iff :
    (∃ notes, notes ≠ [] ∧ listText notes = text) ↔
      ∃ items, items ≠ [] ∧ (∀ item ∈ items, IsSpelling item) ∧ [','].intercalate items = text := by
  constructor
  · rintro ⟨notes, nonempty, joined⟩
    refine ⟨notes.map spelling, mt List.map_eq_nil_iff.mp nonempty, ?_, joined⟩
    intro item member
    obtain ⟨note, _, rfl⟩ := List.mem_map.mp member
    exact note.isSpelling_spelling
  · rintro ⟨items, nonempty, spelled, joined⟩
    rcases Rule.Stage.exists_bad_item items with ⟨notes, rfl⟩ | ⟨_, item, _, _, rfl, refused⟩
    · exact ⟨notes, mt List.map_eq_nil_iff.mpr nonempty, joined⟩
    · exact absurd (spelled item (by simp)) (not_isSpelling_of_parse refused)

theorem intercalate_toString (notes : List Note) :
    ",".intercalate (notes.map toString) = String.ofList (listText notes) := by
  apply String.toList_inj.mp
  simp only [String.toList_intercalate, String.toList_ofList, listText, List.map_map]
  congr 2
  funext note
  exact String.toList_ofList

theorem parse_eq_error_empty_iff : parse text = .error .empty ↔ text = [] := by
  constructor
  · intro refused
    unfold parse at refused
    split at refused
    · rfl
    split at refused
    · cases refused
    split at refused <;> cases refused
  · rintro rfl
    rfl

end Note

namespace Rule

variable {text item : List Char} {former : List (List Char)}

/-- The first of the items between the commas that is not a note, behind those that are. -/
structure FirstBadItem (text : List Char) (former : List (List Char)) (item : List Char) :
    Prop where
  pieces : ∃ later, text.splitOn ',' = former ++ item :: later
  spelled : ∀ other ∈ former, Note.IsSpelling other
  bad : ¬Note.IsSpelling item

theorem FirstBadItem.getElem?_start (first : FirstBadItem text former item) (nonempty : text ≠ [])
    (notEnded : text.getLast? ≠ some ',') :
    text[(former.flatMap (· ++ [','])).length]? = some (item.head?.getD ',') := by
  obtain ⟨later, pieces⟩ := first.pieces
  obtain ⟨behind, shape, more⟩ := exists_behind_pieces nonempty notEnded pieces
  have joined : [','].intercalate (text.splitOn ',') = text := List.intercalate_splitOn ','
  rw [pieces, intercalate_append_cons, List.append_assoc, shape, List.append_cancel_left_eq] at joined
  rw [shape, List.getElem?_append_right (Nat.le_refl _), Nat.sub_self, ← joined]
  cases item with
  | cons char item => rfl
  | nil =>
      cases later with
      | nil => exact absurd joined.symm more
      | cons piece later => rfl

theorem Fault.message_badNote_of_ne {cause : Note.Error} (other : cause ≠ .empty) :
    (Fault.badNote item cause).message =
      "invalid note " ++ (quote (some item) ++ (": " ++ cause.message)) := by
  have shape : (Fault.badNote item cause).message =
      "invalid note " ++ quote (some item) ++ ": " ++ cause.message := by
    cases cause with
    | empty => exact absurd rfl other
    | notALetter char => rfl
    | notAnAccidental char => rfl
    | trailing rest => rfl
  rw [shape, String.append_assoc, String.append_assoc]

theorem Fault.message_badNote_eq_iff {cause : Note.Error} (refused : Note.parse item = .error cause) :
    (Fault.badNote item cause).message = "empty note in note list" ↔ item = [] := by
  rw [← Note.parse_eq_error_empty_iff, refused, Except.error.injEq]
  constructor
  · intro same
    by_contra other
    rw [Fault.message_badNote_of_ne other] at same
    have heads := congrArg (·.toList.head?) same
    simp only [String.toList_append] at heads
    cases heads
  · rintro rfl
    rfl

namespace Stage

variable {fault : Fault} {offset : Nat}

theorem firstBadItem_keyword (keyword : Keyword) :
    FirstBadItem keyword.spelling [] keyword.spelling := by
  refine ⟨⟨[], ?_⟩, by simp, ?_⟩
  · cases keyword <;> rfl
  · cases keyword <;> exact Note.not_isSpelling_of_parse rfl

theorem Misplaced.firstBadItem (misplaced : Misplaced .notes text fault offset)
    (notEnded : text.getLast? ≠ some ',') :
    ∃ former item, FirstBadItem text former item ∧
      offset = (former.flatMap (· ++ [','])).length ∧
      (fault.message = "empty note in note list" ↔ item = []) := by
  cases misplaced with
  | notANoteList keyword =>
      refine ⟨[], keyword.spelling, firstBadItem_keyword keyword, rfl, ?_⟩
      cases keyword <;> decide
  | trailingComma front => exact absurd List.getLast?_concat notEnded
  | @badNote _ item later _ notes _ _ pieces refused =>
      refine ⟨notes.map Note.spelling, item, ⟨⟨later, pieces⟩, ?_, ?_⟩, ?_, ?_⟩
      · intro other member
        obtain ⟨note, _, rfl⟩ := List.mem_map.mp member
        exact note.isSpelling_spelling
      · exact Note.not_isSpelling_of_parse refused
      · rw [List.flatMap_map]
      · exact Fault.message_badNote_eq_iff refused

end Stage

namespace Line

variable {col endCol : Nat} {error : LineError}

theorem readNotes_cons (text : List Char) (col : Nat) (later : List Word) (endCol : Nat) :
    readNotes ⟨.ofText text col :: later, endCol⟩ = readNotes ⟨place col [text], endCol⟩ := rfl

theorem exists_misplaced_of_readNotes
    (refused : readNotes ⟨place col [text], endCol⟩ = .error error) :
    ∃ fault offset, Stage.Misplaced .notes text fault offset ∧ error = ⟨fault, col + offset⟩ := by
  rcases Stage.takes_or_misplaced_notes text with ⟨_, takes⟩ | ⟨fault, offset, misplaced⟩
  · cases takes with
    | notes nonempty =>
        rw [readNotes_eq_ok_iff.mpr ⟨nonempty, rfl⟩] at refused
        cases refused
  · rw [readNotes_of_blocked (.misplaced [] misplaced)] at refused
    exact ⟨fault, offset, misplaced, (Except.error.inj refused).symm⟩

/-- A word is read as a note list when it joins one or more notes with commas, and the notes joined
again are the word. Any other word is refused: at its last character if this is a comma, and else where
the first of its items starts that is not a note, in characters and not in bytes. -/
theorem note_list_is_refused_at_its_first_bad_item (nonempty : text ≠ []) (col : Nat)
    (later : List Word) (endCol : Nat) :
    let line : Line := ⟨.ofText text col :: later, endCol⟩
    ((∃ notes, line.readNotes = .ok notes) ↔
      ∃ items, items ≠ [] ∧ (∀ item ∈ items, Note.IsSpelling item) ∧
        [','].intercalate items = text) ∧
    (∀ notes, line.readNotes = .ok notes →
      notes ≠ [] ∧ ",".intercalate (notes.map toString) = String.ofList text) ∧
    ∀ error, line.readNotes = .error error →
      error.fault.kind = .noteList ∧
      (text.getLast? = some ',' →
        error.fault = .trailingComma ∧ error.col + 1 = col + text.length) ∧
      (text.getLast? ≠ some ',' →
        ∃ former item, FirstBadItem text former item ∧
          error.col = col + (former.map List.length).sum + former.length ∧
          text[error.col - col]? = some (item.head?.getD ',') ∧
          (error.message = "empty note in note list" ↔ item = [])) := by
  intro line
  have shown : line.readNotes = readNotes ⟨place col [text], endCol⟩ :=
    readNotes_cons text col later endCol
  rw [shown, ← Note.exists_listText_iff]
  simp only [readNotes_eq_ok_iff, List.head?_cons, Option.some.injEq]
  refine ⟨?_, ?_, ?_⟩
  · exact exists_congr fun notes => and_congr_right fun _ => eq_comm
  · rintro notes ⟨some, rfl⟩
    exact ⟨some, Note.intercalate_toString notes⟩
  · intro error refused
    obtain ⟨fault, offset, misplaced, rfl⟩ := exists_misplaced_of_readNotes refused
    refine ⟨?_, ?_, ?_⟩
    · cases misplaced <;> rfl
    · intro ended
      cases misplaced with
      | notANoteList keyword => cases keyword <;> cases ended
      | trailingComma front => simp [Nat.add_assoc]
      | badNote _ notEnded _ _ => exact absurd ended notEnded
    · intro notEnded
      obtain ⟨former, item, first, place, message⟩ := misplaced.firstBadItem notEnded
      refine ⟨former, item, first, ?_, ?_, message⟩
      · rw [place, length_flatMap_separator, Nat.add_assoc]
      · rw [Nat.add_sub_cancel_left, place]
        exact first.getElem?_start nonempty notEnded

theorem note_list_is_refused_at_its_first_bad_item_behind_a_wide_character :
    let line (text : String) : Line := ⟨[.ofText text.toList 16], 16 + text.length⟩
    let wide : LineError := ⟨.badNote ['é'] (.notALetter 'é'), 19⟩
    let missing : LineError := ⟨.badNote [] .empty, 18⟩
    let notes : List Note := [⟨.C, .sharp⟩, ⟨.E, .flat⟩, ⟨.G, .natural⟩]
    ((line "C#,Eb,G").readNotes = .ok notes ∧ (line "C#,é,,H").readNotes = .error wide ∧
        (line "C,,é").readNotes = .error missing ∧
        (line "é,,C,").readNotes = .error ⟨.trailingComma, 20⟩) ∧
      ",".intercalate (notes.map toString) = "C#,Eb,G" ∧
      20 + 1 = 16 + "é,,C,".toList.length ∧
      (∃ former item, FirstBadItem "C#,é,,H".toList former item ∧
        19 = 16 + (former.map List.length).sum + former.length ∧
        "C#,é,,H".toList[3]? = some (item.head?.getD ',')) ∧
      ∃ former item, FirstBadItem "C,,é".toList former item ∧
        18 = 16 + (former.map List.length).sum + former.length ∧
        "C,,é".toList[2]? = some (item.head?.getD ',') ∧ item = [] := by
  intro line wide missing notes
  have accepted : (line "C#,Eb,G").readNotes = .ok notes := rfl
  have wideRefused : (line "C#,é,,H").readNotes = .error wide := rfl
  have missingRefused : (line "C,,é").readNotes = .error missing := rfl
  have endedRefused : (line "é,,C,").readNotes = .error ⟨.trailingComma, 20⟩ := rfl
  have joined := (note_list_is_refused_at_its_first_bad_item (by decide) 16 [] _).2.1 notes accepted
  obtain ⟨_, _, wideReport⟩ :=
    (note_list_is_refused_at_its_first_bad_item (by decide) 16 [] _).2.2 wide wideRefused
  obtain ⟨_, _, missingReport⟩ :=
    (note_list_is_refused_at_its_first_bad_item (by decide) 16 [] _).2.2 missing missingRefused
  obtain ⟨_, endedReport, _⟩ :=
    (note_list_is_refused_at_its_first_bad_item (by decide) 16 [] _).2.2 _ endedRefused
  obtain ⟨former, item, first, place, char, _⟩ := wideReport (by decide)
  obtain ⟨front, gap, firstGap, gapPlace, comma, message⟩ := missingReport (by decide)
  exact ⟨⟨accepted, wideRefused, missingRefused, endedRefused⟩, joined.2, (endedReport rfl).2,
    ⟨former, item, first, place, char⟩, front, gap, firstGap, gapPlace, comma, message.mp rfl⟩

end Line

end Rule

end NoteClock
