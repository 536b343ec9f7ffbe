import Mathlib.Data.List.Basic
import NoteClock.Proofs.Spelling.Words

/-!
Lines that are not words between single spaces. Such a line is refused at its leftmost misfit: the
first character that no line may hold, or that is a space and does not stand alone between words.
-/

namespace NoteClock.Rule

inductive Misfit (text : List Char) : Nat → Fault → Prop
  | forbidden {index char} : text[index]? = some char → char ≠ ' ' → isForbidden char = true →
      Misfit text index (.forbidden char)
  | leadingSpace : text[0]? = some ' ' → Misfit text 0 .leadingSpace
  | doubledSpace {index} : text[index]? = some ' ' → text[index + 1]? = some ' ' →
      Misfit text (index + 1) .doubledSpace
  | trailingSpace {index char} : text[index]? = some char → char ≠ ' ' →
      text[index + 1]? = some ' ' → index + 2 = text.length → Misfit text (index + 1) .trailingSpace

def FirstMisfit (text : List Char) (error : LineError) : Prop :=
  ∃ index, Misfit text index error.fault ∧
    (∀ earlier, earlier < index → ∀ fault, ¬Misfit text earlier fault) ∧ error.col = index + 1

variable {text lead seen more : List Char} {index : Nat} {fault : Fault}

theorem Misfit.exists_char (misfit : Misfit text index fault) :
    ∃ char, text[index]? = some char ∧ isForbidden char = true := by
  cases misfit with
  | forbidden here _ bad => exact ⟨_, here, bad⟩
  | leadingSpace here => exact ⟨' ', here, isForbidden_space⟩
  | doubledSpace _ here => exact ⟨' ', here, isForbidden_space⟩
  | trailingSpace _ _ here _ => exact ⟨' ', here, isForbidden_space⟩

theorem Misfit.of_forbidden {char : Char} (bad : isForbidden char = true) (other : char ≠ ' ')
    (lead more : List Char) : Misfit (lead ++ char :: more) lead.length (.forbidden char) :=
  .forbidden (by simp) other bad

theorem Misfit.kind (misfit : Misfit text index fault) : fault.kind = .lexical := by
  cases misfit <;> rfl

theorem Misfit.fault_unique {other : Fault} (misfit : Misfit text index fault)
    (again : Misfit text index other) : fault = other := by
  cases misfit <;> cases again <;> grind

theorem FirstMisfit.unique {error other : LineError} (first : FirstMisfit text error)
    (second : FirstMisfit text other) : error = other := by
  obtain ⟨fault, col⟩ := error
  obtain ⟨otherFault, otherCol⟩ := other
  obtain ⟨index, misfit, none, rfl⟩ := first
  obtain ⟨otherIndex, otherMisfit, otherNone, rfl⟩ := second
  have notBefore : ¬index < otherIndex := fun before => otherNone index before fault misfit
  have notBehind : ¬otherIndex < index :=
    fun behind => none otherIndex behind otherFault otherMisfit
  obtain rfl : index = otherIndex := by omega
  have same : fault = otherFault := misfit.fault_unique otherMisfit
  rw [same]

structure Fits (lead : List Char) : Prop where
  nonempty : lead ≠ []
  closed : lead.getLast? ≠ some ' '
  clean : ∀ more index fault, index < lead.length → ¬Misfit (lead ++ more) index fault

theorem not_misfit_of_seen (lead : List Char) (visible : ∀ char ∈ seen, isForbidden char = false)
    (inside : index < seen.length) :
    ¬Misfit (lead ++ (seen ++ more)) (lead.length + index) fault := by
  intro misfit
  obtain ⟨char, here, bad⟩ := misfit.exists_char
  have member : char ∈ seen := by
    rw [List.getElem?_append_right (by omega), Nat.add_sub_cancel_left,
      List.getElem?_append_left inside] at here
    exact List.mem_of_getElem? here
  rw [visible char member] at bad
  exact Bool.noConfusion bad

theorem Fits.not_misfit_space (fits : Fits lead) (goesOn : more ≠ [])
    (inside : index < lead.length + 1) : ¬Misfit (lead ++ ' ' :: more) index fault := by
  have positive := List.length_pos_iff.mpr fits.nonempty
  have longer := List.length_pos_iff.mpr goesOn
  by_cases before : index < lead.length
  · exact fits.clean _ index fault before
  · have here : index = lead.length := by omega
    have space : (lead ++ ' ' :: more)[index]? = some ' ' := by simp [here]
    intro misfit
    cases misfit with
    | forbidden there other _ =>
        rw [space] at there
        exact other (Option.some.inj there).symm
    | leadingSpace => omega
    | @doubledSpace before previous _ =>
        apply fits.closed
        rw [List.getElem?_append_left (by omega)] at previous
        rw [List.getLast?_eq_getElem?, ← here]
        exact previous
    | @trailingSpace before char _ _ _ last =>
        simp only [List.length_append, List.length_cons] at last
        omega

theorem Fits.not_misfit (fits : Fits lead) (visible : ∀ char ∈ seen, isForbidden char = false)
    (goesOn : seen ++ more ≠ []) (inside : index < lead.length + 1 + seen.length) :
    ¬Misfit (lead ++ ' ' :: (seen ++ more)) index fault := by
  by_cases before : index < lead.length + 1
  · exact fits.not_misfit_space goesOn before
  · have behind : ∃ offset, index = (lead ++ [' ']).length + offset ∧ offset < seen.length := by
      refine ⟨index - (lead.length + 1), ?_, by omega⟩
      rw [List.length_append, List.length_singleton]
      omega
    obtain ⟨offset, rfl, bound⟩ := behind
    have regrouped : lead ++ ' ' :: (seen ++ more) = (lead ++ [' ']) ++ (seen ++ more) := by simp
    rw [regrouped]
    exact not_misfit_of_seen (lead ++ [' ']) visible bound

theorem Fits.firstMisfit_trailing (fits : Fits lead) :
    FirstMisfit (lead ++ [' ']) ⟨.trailingSpace, lead.length + 1⟩ := by
  obtain ⟨front, last, rfl⟩ := (List.eq_nil_or_concat' lead).resolve_left fits.nonempty
  have other : last ≠ ' ' := by simpa using fits.closed
  refine ⟨front.length + 1, ?_, ?_, by simp⟩
  · exact .trailingSpace (by simp) other (by simp) (by simp)
  · intro earlier before fault
    exact fits.clean _ earlier fault (by simpa using before)

theorem Fits.firstMisfit_doubled (fits : Fits lead) (more : List Char) :
    FirstMisfit (lead ++ ' ' :: ' ' :: more) ⟨.doubledSpace, lead.length + 2⟩ := by
  refine ⟨lead.length + 1, ?_, ?_, rfl⟩
  · exact .doubledSpace (by simp) (by simp)
  · intro earlier before fault
    exact fits.not_misfit_space (by simp) before

theorem Fits.firstMisfit_forbidden (fits : Fits lead)
    (visible : ∀ char ∈ seen, isForbidden char = false) {char : Char}
    (bad : isForbidden char = true) (other : char ≠ ' ') (more : List Char) :
    FirstMisfit (lead ++ ' ' :: (seen ++ char :: more))
      ⟨.forbidden char, lead.length + 2 + seen.length⟩ := by
  refine ⟨lead.length + 1 + seen.length, ?_, ?_, by simp only; omega⟩
  · have here := Misfit.of_forbidden bad other (lead ++ ' ' :: seen) more
    rw [List.append_assoc, List.cons_append, List.length_append, List.length_cons] at here
    rwa [Nat.add_assoc, Nat.add_comm 1]
  · intro earlier before fault
    exact fits.not_misfit visible (by simp) before

theorem IsWord.getLast? {word : List Char} (isWord : IsWord word) :
    word.getLast? ≠ some ' ' := fun last => isWord.space_not_mem (List.mem_of_getLast? last)

theorem IsWord.fits {word : List Char} (isWord : IsWord word) : Fits word where
  nonempty := isWord.nonempty
  closed := isWord.getLast?
  clean := by
    intro more index fault inside
    simpa using not_misfit_of_seen [] isWord.seen inside

theorem Fits.word (fits : Fits lead) {word : List Char} (isWord : IsWord word) :
    Fits (lead ++ ' ' :: word) where
  nonempty := by simp
  closed := by
    have last := isWord.getLast?
    rw [List.getLast?_append, List.getLast?_cons_of_ne_nil isWord.nonempty,
      List.getLast?_eq_some_getLast isWord.nonempty] at *
    simpa using last
  clean := by
    intro more index fault inside
    rw [List.append_assoc, List.cons_append]
    apply fits.not_misfit isWord.seen (by simp [isWord.nonempty])
    simpa [Nat.add_assoc, Nat.add_comm 1] using inside

theorem Fits.words (fits : Fits lead) {words : List (List Char)}
    (areWords : ∀ word ∈ words, IsWord word) : Fits (lead ++ words.flatMap (' ' :: ·)) := by
  induction words generalizing lead with
  | nil => simpa using fits
  | cons word words ih =>
      obtain ⟨first, others⟩ := List.forall_mem_cons.mp areWords
      have longer := ih (fits.word first) others
      simpa using longer

theorem Word.exists_of_read_eq_error {col : Nat} {error : LineError}
    (refused : Word.read text col = .error error) :
    ∃ seen char more, text = seen ++ char :: more ∧ (∀ char ∈ seen, isForbidden char = false) ∧
      isForbidden char = true ∧ error = ⟨.forbidden char, col + seen.length⟩ := by
  rw [Word.read] at refused
  split at refused
  · simp at refused
  · rename_i char more rest
    have shape : text = text.takeWhile (!isForbidden ·) ++ char :: more := by
      rw [← rest, List.takeWhile_append_dropWhile]
    have bad := List.head?_dropWhile_not (!isForbidden ·) text
    rw [rest] at bad
    refine ⟨_, char, more, shape, ?_, by simpa using bad, (Except.error.inj refused).symm⟩
    intro other member
    simpa using List.mem_takeWhile_imp member

namespace Line

theorem firstMisfit_of_readRest {pieces : List (List Char)} {error : LineError} (fits : Fits lead)
    (cut : ∀ piece ∈ pieces, ' ' ∉ piece)
    (refused : readRest (lead.length + 1) pieces = .error error) :
    FirstMisfit (lead ++ pieces.flatMap (' ' :: ·)) error := by
  -- The lead is what has been read so far. It fits, and a word that is read makes it longer.
  induction pieces generalizing lead with
  | nil => simp [readRest] at refused
  | cons piece rest ih =>
      obtain ⟨pieceCut, restCut⟩ := List.forall_mem_cons.mp cut
      by_cases empty : piece = []
      · subst empty
        cases rest with
        | nil =>
            simp only [readRest, Except.error.injEq] at refused
            subst refused
            exact fits.firstMisfit_trailing
        | cons next rest =>
            simp only [readRest, Except.error.injEq] at refused
            subst refused
            exact fits.firstMisfit_doubled _
      · rw [readRest_cons rest empty] at refused
        rcases bind_eq_error_iff.mp refused with wordRefused | ⟨word, wordRead, later⟩
        · obtain ⟨seen, char, more, rfl, visible, bad, rfl⟩ :=
            Word.exists_of_read_eq_error wordRefused
          have other : char ≠ ' ' := by
            rintro rfl
            exact pieceCut (by simp)
          have first := fits.firstMisfit_forbidden visible bad other
            (more ++ rest.flatMap (' ' :: ·))
          simpa using first
        · obtain ⟨visible, rfl⟩ := Word.read_eq_ok_iff.mp wordRead
          have isWord : IsWord piece := ⟨empty, visible⟩
          rcases bind_eq_error_iff.mp later with restRefused | ⟨line, _, done⟩
          · have longer :
                (lead ++ ' ' :: piece).length + 1 = lead.length + 1 + 1 + piece.length := by
              simp only [List.length_append, List.length_cons]
              omega
            rw [← longer] at restRefused
            have first := ih (fits.word isWord) restCut restRefused
            simpa using first
          · simp [pure, Except.pure] at done

theorem firstMisfit_of_read {error : LineError} (refused : read text = .error error) :
    FirstMisfit text error := by
  have joined : [' '].intercalate (text.splitOn ' ') = text := List.intercalate_splitOn ' '
  obtain ⟨first, rest, pieces⟩ := List.exists_cons_of_ne_nil (List.splitOn_ne_nil ' ' text)
  have cut : ∀ piece ∈ first :: rest, ' ' ∉ piece := by
    rw [← pieces]
    exact fun piece member => separator_not_mem_of_mem_splitOn member
  obtain ⟨firstCut, restCut⟩ := List.forall_mem_cons.mp cut
  rw [pieces, intercalate_cons] at joined
  by_cases empty : first = []
  · subst empty
    cases rest with
    | nil => simp [read, pieces] at refused
    | cons =>
        simp only [read, pieces, Except.error.injEq] at refused
        subst refused joined
        exact ⟨0, .leadingSpace (by simp), by simp, rfl⟩
  · rw [read_of_splitOn pieces empty] at refused
    rcases bind_eq_error_iff.mp refused with wordRefused | ⟨word, wordRead, later⟩
    · obtain ⟨seen, char, more, rfl, visible, bad, rfl⟩ := Word.exists_of_read_eq_error wordRefused
      have other : char ≠ ' ' := by
        rintro rfl
        exact firstCut (by simp)
      rw [← joined, List.append_assoc, List.cons_append]
      refine ⟨seen.length, .of_forbidden bad other seen _, ?_, Nat.add_comm 1 seen.length⟩
      intro earlier before fault
      simpa using not_misfit_of_seen [] visible before
    · obtain ⟨visible, rfl⟩ := Word.read_eq_ok_iff.mp wordRead
      have isWord : IsWord first := ⟨empty, visible⟩
      rcases bind_eq_error_iff.mp later with restRefused | ⟨line, _, done⟩
      · rw [Nat.add_comm] at restRefused
        rw [← joined]
        exact firstMisfit_of_readRest isWord.fits restCut restRefused
      · simp [pure, Except.pure] at done

theorem not_misfit_of_read {line : Line} (accepted : read text = .ok line) :
    ¬Misfit text index fault := by
  obtain ⟨words, areWords, rfl, _⟩ := read_eq_ok_iff.mp accepted
  intro misfit
  obtain ⟨char, here, _⟩ := misfit.exists_char
  obtain ⟨inside, _⟩ := List.getElem?_eq_some_iff.mp here
  cases words with
  | nil => simp at inside
  | cons first rest =>
      obtain ⟨firstIsWord, restAreWords⟩ := List.forall_mem_cons.mp areWords
      have fits := firstIsWord.fits.words restAreWords
      rw [intercalate_cons] at misfit inside
      exact fits.clean [] index fault inside (by simpa using misfit)

theorem read_eq_error_iff {error : LineError} :
    read text = .error error ↔ FirstMisfit text error := by
  constructor
  · exact firstMisfit_of_read
  · intro first
    cases found : read text with
    | ok line =>
        obtain ⟨index, misfit, _⟩ := first
        exact absurd misfit (not_misfit_of_read found)
    | error other => rw [first.unique (firstMisfit_of_read found)]

theorem map_text_place (col : Nat) (texts : List (List Char)) :
    (place col texts).map (·.text) = texts := by
  induction texts generalizing col with
  | nil => rfl
  | cons text texts ih =>
      rw [place, List.map_cons, ih]
      rfl

theorem eq_ofText_of_place {col : Nat} {texts : List (List Char)} {former later : List Word}
    {word : Word} (placed : place col texts = former ++ word :: later) :
    word = Word.ofText word.text (col + (former.flatMap (·.text ++ [' '])).length) := by
  induction former generalizing col texts with
  | nil =>
      cases texts with
      | nil => simp [place] at placed
      | cons text texts =>
          obtain ⟨rfl, _⟩ := List.cons.inj placed
          rfl
  | cons first former ih =>
      cases texts with
      | nil => simp [place] at placed
      | cons text texts =>
          obtain ⟨rfl, rest⟩ := List.cons.inj placed
          have behind : col + text.length + 1 + (former.flatMap (·.text ++ [' '])).length =
              col + ((Word.ofText text col :: former).flatMap (·.text ++ [' '])).length := by
            simp only [List.flatMap_cons, List.length_append, List.length_singleton, Word.ofText]
            omega
          rw [← behind]
          exact ih rest

theorem words_of_read {line : Line} (accepted : read text = .ok line) :
    [' '].intercalate (line.words.map (·.text)) = text ∧
      (∀ former word later, line.words = former ++ word :: later →
        IsWord word.text ∧ word.kind = Word.Kind.ofText word.text ∧
        ∃ lead more, lead ++ word.text ++ more = text ∧
          lead = former.flatMap (·.text ++ [' ']) ∧ word.col = lead.length + 1) ∧
      line.endCol = text.length + 1 := by
  obtain ⟨words, areWords, rfl, rfl⟩ := read_eq_ok_iff.mp accepted
  refine ⟨by rw [ofWords, map_text_place], ?_, rfl⟩
  intro former word later cut
  have texts : former.map (·.text) ++ word.text :: later.map (·.text) = words := by
    rw [← map_text_place 1 words, ← List.map_cons, ← List.map_append]
    exact congrArg (List.map (·.text)) cut.symm
  have placed := eq_ofText_of_place cut
  refine ⟨areWords word.text (by simp [← texts]), congrArg Word.kind placed,
    former.flatMap (·.text ++ [' ']), (later.map (·.text)).flatMap (' ' :: ·), ?_, rfl, ?_⟩
  · rw [← texts, intercalate_append_cons]
    simp only [List.flatMap_map]
  · exact (congrArg Word.col placed).trans (Nat.add_comm 1 _)

end Line

theorem tokenize_eq_ok_iff {tokens : List Token} :
    tokenize text = .ok tokens ↔ ∃ line, Line.read text = .ok line ∧ line.tokens = tokens := by
  simp only [tokenize, bind_eq_ok_iff, pure, Except.pure, Except.ok.injEq]

theorem tokenize_eq_error_iff {error : LineError} :
    tokenize text = .error error ↔ FirstMisfit text error := by
  rw [← Line.read_eq_error_iff, tokenize, bind_eq_error_iff]
  simp [pure, Except.pure]

/-- A line is cut exactly when it joins words with single spaces. The tokens are then those words,
which stand where the line has them and give it back, and its end behind its last character. Any
other line is refused at its leftmost misfit. -/
theorem cut_exactly_at_single_spaces :
    (∀ text, (∃ tokens, tokenize text = .ok tokens) ↔
      ∃ words : List (List Char), (∀ word ∈ words, IsWord word) ∧ [' '].intercalate words = text) ∧
    (∀ text tokens, tokenize text = .ok tokens →
      [' '].intercalate (tokens.dropLast.map Token.text) = text ∧
      ∃ words : List Word, tokens = words.map Token.word ++ [.lineEnd (text.length + 1)] ∧
        ∀ former word later, words = former ++ word :: later →
          IsWord word.text ∧ word.kind = Word.Kind.ofText word.text ∧
          ∃ lead more, lead ++ word.text ++ more = text ∧
            lead = former.flatMap (·.text ++ [' ']) ∧ word.col = lead.length + 1) ∧
    ∀ text error, tokenize text = .error error ↔ FirstMisfit text error := by
  refine ⟨?_, ?_, fun text error => tokenize_eq_error_iff⟩
  · intro text
    simp only [tokenize_eq_ok_iff, Line.read_eq_ok_iff]
    constructor
    · rintro ⟨tokens, line, ⟨words, areWords, joined, _⟩, _⟩
      exact ⟨words, areWords, joined⟩
    · rintro ⟨words, areWords, joined⟩
      exact ⟨_, _, ⟨words, areWords, joined, rfl⟩, rfl⟩
  · intro text tokens accepted
    obtain ⟨line, read, rfl⟩ := tokenize_eq_ok_iff.mp accepted
    obtain ⟨joined, placed, ended⟩ := Line.words_of_read read
    refine ⟨?_, line.words, by rw [Line.tokens, ended], placed⟩
    rw [Line.tokens, List.dropLast_concat, List.map_map]
    exact joined

theorem cut_exactly_at_single_spaces_up_to_a_doubled_one :
    let text := "at 1é: play".toList
    let first : Word := .ofText ['a', 't'] 1
    let second : Word := .ofText ['1', 'é', ':'] 4
    let tokens : List Token :=
      [.word first, .word second, .word (.ofText ['p', 'l', 'a', 'y'] 8), .lineEnd 12]
    let bad := "at 1é:  \tplay ".toList
    (tokenize text = .ok tokens ∧ tokenize bad = .error ⟨.doubledSpace, 8⟩) ∧
      (∃ words : List (List Char),
        (∀ word ∈ words, IsWord word) ∧ [' '].intercalate words = text) ∧
      [' '].intercalate (tokens.dropLast.map Token.text) = text ∧
      FirstMisfit bad ⟨.doubledSpace, 8⟩ := by
  intro text first second tokens bad
  have accepted : tokenize text = .ok tokens := rfl
  have refused : tokenize bad = .error ⟨.doubledSpace, 8⟩ := rfl
  exact ⟨⟨accepted, refused⟩, (cut_exactly_at_single_spaces.1 text).mp ⟨tokens, accepted⟩,
    (cut_exactly_at_single_spaces.2.1 text tokens accepted).1,
    (cut_exactly_at_single_spaces.2.2 bad _).mp refused⟩

end NoteClock.Rule
