import NoteClock.Proofs.Spelling.Reading
import NoteClock.Rule.Clause

/-!
Note lists as they are written. A list is read exactly when it joins the spellings of one or more
notes with commas, and it then stands for these notes in their order.
-/

namespace NoteClock

namespace Note

theorem parse_eq_ok_iff {text : List Char} {note : Note} :
    parse text = .ok note ↔ text = note.spelling := by
  constructor
  · intro parsed
    unfold parse at parsed
    split at parsed
    · simp at parsed
    split at parsed
    · simp at parsed
    rename_i first rest letter letterEq
    rw [Letter.ofChar?_eq_some letterEq]
    split at parsed <;> simp only [Except.ok.injEq, reduceCtorEq] at parsed
    · subst parsed
      rfl
    · subst parsed
      rfl
    · subst parsed
      rfl
  · rintro rfl
    exact parse_spelling note

theorem spelling_ne_nil (note : Note) : note.spelling ≠ [] := by
  simp [spelling]

theorem spelling_subset (note : Note) :
    note.spelling ⊆ ['C', 'D', 'E', 'F', 'G', 'A', 'B', '#', 'b'] := by
  obtain ⟨letter, accidental⟩ := note
  cases letter <;> cases accidental <;>
    simp [spelling, Letter.toChar, Accidental.spelling]

def listText (notes : List Note) : List Char := [','].intercalate (notes.map spelling)

theorem splitOn_listText {notes : List Note} (nonempty : notes ≠ []) :
    (listText notes).splitOn ',' = notes.map spelling := by
  apply List.splitOn_intercalate
  · intro text member comma
    obtain ⟨note, _, rfl⟩ := List.mem_map.mp member
    exact absurd (note.spelling_subset comma) (by decide)
  · simpa using nonempty

theorem head?_listText {notes : List Note} (nonempty : notes ≠ []) :
    ∃ letter : Letter, (listText notes).head? = some letter.toChar := by
  obtain ⟨note, rest, rfl⟩ := List.exists_cons_of_ne_nil nonempty
  refine ⟨note.letter, ?_⟩
  rw [listText, List.map_cons, intercalate_cons, spelling]
  rfl

theorem listText_subset (notes : List Note) :
    listText notes ⊆ ['C', 'D', 'E', 'F', 'G', 'A', 'B', '#', 'b', ','] := by
  intro char member
  rcases eq_or_mem_of_mem_intercalate member with rfl | ⟨piece, pieceMember, inside⟩
  · decide
  · obtain ⟨note, _, rfl⟩ := List.mem_map.mp pieceMember
    exact List.mem_append_left [','] (note.spelling_subset inside)

end Note

namespace Rule.Line

theorem readItems_eq_ok_iff {col : Nat} {items : List (List Char)} {notes : List Note} :
    readItems col items = .ok notes ↔ items = notes.map Note.spelling := by
  induction items generalizing col notes with
  | nil =>
      simp only [readItems, Except.ok.injEq]
      constructor
      · rintro rfl
        rfl
      · intro itemsEq
        exact (List.map_eq_nil_iff.mp itemsEq.symm).symm
  | cons item rest ih =>
      simp only [readItems]
      constructor
      · intro found
        split at found
        · simp at found
        rename_i note noteEq
        obtain ⟨others, restEq, built⟩ := bind_eq_ok_iff.mp found
        have whole : note :: others = notes := Except.ok.inj built
        subst whole
        rw [List.map_cons, ← Note.parse_eq_ok_iff.mp noteEq, ← ih.mp restEq]
      · intro itemsEq
        cases notes with
        | nil => simp at itemsEq
        | cons note others =>
            simp only [List.map_cons, List.cons.injEq] at itemsEq
            obtain ⟨rfl, restEq⟩ := itemsEq
            have restRead : readItems (col + note.spelling.length + 1) rest = .ok others :=
              ih.mpr restEq
            simp only [Note.parse_spelling]
            exact bind_eq_ok_iff.mpr ⟨others, restRead, rfl⟩

end Rule.Line

end NoteClock
