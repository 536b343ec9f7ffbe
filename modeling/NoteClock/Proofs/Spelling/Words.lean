import Mathlib.Data.List.TakeWhile
import NoteClock.Proofs.Spelling.Reading
import NoteClock.Rule.Line

/-!
Lines as words between single spaces. A line is cut exactly when it joins words of seen characters
with single spaces, and the words then stand where the line has them.
-/

namespace NoteClock.Rule

structure IsWord (text : List Char) : Prop where
  nonempty : text ≠ []
  seen : ∀ char ∈ text, isForbidden char = false

theorem isForbidden_space : isForbidden ' ' = true := by decide

theorem isForbidden_eq_false {char : Char} (above : 32 < char.toNat) (below : char.toNat < 127) :
    isForbidden char = false := by
  simp only [isForbidden, Text.isBlank, Text.isControl, Bool.or_eq_false_iff, Bool.and_eq_false_iff,
    decide_eq_false_iff_not]
  omega

theorem isForbidden_of_isDigit {char : Char} (digit : char.isDigit = true) :
    isForbidden char = false := by
  obtain ⟨from0, upTo9⟩ := Char.isDigit_iff_toNat.mp digit
  have lower : 48 ≤ char.toNat := from0
  have upper : char.toNat ≤ 57 := upTo9
  exact isForbidden_eq_false (by omega) (by omega)

theorem isForbidden_of_mem {allowed : List Char} {char : Char}
    (seen : allowed.all (!isForbidden ·) = true) (member : char ∈ allowed) :
    isForbidden char = false := by
  simpa using List.all_eq_true.mp seen char member

theorem isWord_of_all {text : List Char} (nonempty : text ≠ [])
    (seen : text.all (!isForbidden ·) = true) : IsWord text :=
  ⟨nonempty, fun _ member => isForbidden_of_mem seen member⟩

theorem IsWord.space_not_mem {text : List Char} (word : IsWord text) : ' ' ∉ text := by
  intro space
  have visible := word.seen ' ' space
  rw [isForbidden_space] at visible
  exact Bool.noConfusion visible

theorem Word.read_eq_ok_iff {text : List Char} {col : Nat} {word : Word} :
    Word.read text col = .ok word ↔
      (∀ char ∈ text, isForbidden char = false) ∧ Word.ofText text col = word := by
  have clean : text.dropWhile (!isForbidden ·) = [] ↔ ∀ char ∈ text, isForbidden char = false := by
    simp only [List.dropWhile_eq_nil_iff, Bool.not_eq_true']
  rw [← clean, Word.read]
  cases text.dropWhile (!isForbidden ·) with
  | nil => simp
  | cons => simp

namespace Line

/-- Words one after the other, the first in column `col`, a space behind each but the last. -/
def place (col : Nat) : List (List Char) → List Word
  | [] => []
  | text :: rest => Word.ofText text col :: place (col + text.length + 1) rest

def ofWords (texts : List (List Char)) : Line :=
  ⟨place 1 texts, ([' '].intercalate texts).length + 1⟩

theorem readRest_cons {col : Nat} {piece : List Char} (rest : List (List Char))
    (nonempty : piece ≠ []) :
    readRest col (piece :: rest) = (do
      let word ← Word.read piece (col + 1)
      let line ← readRest (col + 1 + piece.length) rest
      return ⟨word :: line.words, line.endCol⟩) := by
  cases piece with
  | nil => exact absurd rfl nonempty
  | cons => simp only [readRest]

theorem readRest_eq_ok_iff {col : Nat} {pieces : List (List Char)} {line : Line} :
    readRest col pieces = .ok line ↔
      (∀ piece ∈ pieces, IsWord piece) ∧
        ⟨place (col + 1) pieces, col + (pieces.flatMap (' ' :: ·)).length⟩ = line := by
  induction pieces generalizing col line with
  | nil => simp [readRest, place]
  | cons piece rest ih =>
      by_cases empty : piece = []
      · subst empty
        have notWord : ¬IsWord [] := fun word => word.nonempty rfl
        cases rest with
        | nil => simp [readRest, notWord]
        | cons => simp [readRest, notWord]
      · have placed : place (col + 1) (piece :: rest) =
            Word.ofText piece (col + 1) :: place (col + 1 + piece.length + 1) rest := rfl
        have ended : col + ((piece :: rest).flatMap (' ' :: ·)).length =
            col + 1 + piece.length + (rest.flatMap (' ' :: ·)).length := by
          simp only [List.flatMap_cons, List.length_append, List.length_cons]
          omega
        rw [readRest_cons rest empty, placed, ended, List.forall_mem_cons]
        simp only [bind_eq_ok_iff, Word.read_eq_ok_iff, ih, pure, Except.pure, Except.ok.injEq]
        constructor
        · rintro ⟨word, ⟨seen, rfl⟩, others, ⟨words, rfl⟩, rfl⟩
          exact ⟨⟨⟨empty, seen⟩, words⟩, rfl⟩
        · rintro ⟨⟨first, words⟩, rfl⟩
          exact ⟨_, ⟨first.seen, rfl⟩, _, ⟨words, rfl⟩, rfl⟩

theorem read_of_splitOn {text first : List Char} {rest : List (List Char)}
    (pieces : text.splitOn ' ' = first :: rest) (nonempty : first ≠ []) :
    read text = (do
      let word ← Word.read first 1
      let line ← readRest (1 + first.length) rest
      return ⟨word :: line.words, line.endCol⟩) := by
  cases first with
  | nil => exact absurd rfl nonempty
  | cons => simp only [read, pieces]

theorem ofWords_cons (first : List Char) (rest : List (List Char)) :
    ofWords (first :: rest) =
      ⟨Word.ofText first 1 :: place (1 + first.length + 1) rest,
        1 + first.length + (rest.flatMap (' ' :: ·)).length⟩ := by
  simp only [ofWords, intercalate_cons, place, List.length_append, mk.injEq, true_and]
  omega

theorem read_eq_ok_iff {text : List Char} {line : Line} :
    read text = .ok line ↔
      ∃ texts : List (List Char), (∀ word ∈ texts, IsWord word) ∧
        [' '].intercalate texts = text ∧ ofWords texts = line := by
  constructor
  · intro found
    have joined : [' '].intercalate (text.splitOn ' ') = text := List.intercalate_splitOn ' '
    obtain ⟨first, rest, pieces⟩ := List.exists_cons_of_ne_nil (List.splitOn_ne_nil ' ' text)
    rw [pieces] at joined
    by_cases empty : first = []
    · subst empty
      cases rest with
      | nil =>
          simp only [read, pieces, Except.ok.injEq] at found
          exact ⟨[], by simp, by simpa using joined, by simpa [ofWords, place] using found⟩
      | cons => simp [read, pieces] at found
    · rw [read_of_splitOn pieces empty] at found
      simp only [bind_eq_ok_iff, Word.read_eq_ok_iff, readRest_eq_ok_iff, pure, Except.pure,
        Except.ok.injEq] at found
      obtain ⟨word, ⟨seen, rfl⟩, others, ⟨words, rfl⟩, rfl⟩ := found
      exact ⟨first :: rest, List.forall_mem_cons.mpr ⟨⟨empty, seen⟩, words⟩, joined,
        ofWords_cons first rest⟩
  · rintro ⟨texts, words, rfl, rfl⟩
    cases texts with
    | nil => simp [read, ofWords, place]
    | cons first rest =>
        have pieces : ([' '].intercalate (first :: rest)).splitOn ' ' = first :: rest :=
          List.splitOn_intercalate ' ' (fun word member => (words word member).space_not_mem)
            (by simp)
        obtain ⟨firstWord, restWords⟩ := List.forall_mem_cons.mp words
        rw [read_of_splitOn pieces firstWord.nonempty, ofWords_cons]
        simp only [bind_eq_ok_iff, Word.read_eq_ok_iff, readRest_eq_ok_iff, pure, Except.pure,
          Except.ok.injEq]
        exact ⟨_, ⟨firstWord.seen, rfl⟩, _, ⟨restWords, rfl⟩, rfl⟩

end Line

end NoteClock.Rule
