import NoteClock.Proofs.Guarded.Operation
import NoteClock.Proofs.Spelling.Misfit

/-!
The scanner, character by character. It stands at a position in its line and takes the characters one
at a time, each of them by its position. No position lies past the end, and the tokens are those that
the line is cut into at its spaces.
-/

namespace NoteClock.Guarded

open Rule

structure Scan (start : Nat) where
  text : List Char
  stop : Nat
  stop_eq : stop = start + text.length

structure Lexeme (start : Nat) where
  word : Word
  stop : Nat
  advances : start < stop

def Lexeme.behindSeparator {pos : Nat} (lexeme : Lexeme (pos + 1)) : Lexeme pos :=
  ⟨lexeme.word, lexeme.stop, Nat.lt_of_succ_lt lexeme.advances⟩

namespace Scan

variable {start : Nat}

def new (start : Nat) : Scan start := ⟨[], start, rfl⟩

def push (scan : Scan start) (char : Char) : Scan start :=
  ⟨scan.text ++ [char], scan.stop + 1, by
    rw [scan.stop_eq, List.length_append, List.length_singleton, Nat.add_assoc]⟩

theorem advances (scan : Scan start) (nonempty : scan.text ≠ []) : start < scan.stop := by
  have positive := List.length_pos_iff.mpr nonempty
  rw [scan.stop_eq]
  omega

end Scan

def expectSeparator (line : List Char) (pos : Nat) : Guarded LineError Unit := do
  let _ ← element line pos
  if pos + 1 < line.length then
    let next ← element line (pos + 1)
    if next = ' ' then refuse ⟨.doubledSpace, pos + 2⟩ else return
  else refuse ⟨.trailingSpace, pos + 1⟩

def scanWord (line : List Char) {start : Nat} (scan : Scan start) : Guarded LineError (Scan start) :=
  if scan.stop < line.length then do
    let char ← element line scan.stop
    if char = ' ' then return scan
    else if isForbidden char then refuse ⟨.forbidden char, scan.stop + 1⟩
    else
      let taken ← element line scan.stop
      scanWord line (scan.push taken)
  else return scan
termination_by line.length - scan.stop
decreasing_by
  simp only [Scan.push]
  omega

def lexWord (line : List Char) (start : Nat) : Guarded LineError (Lexeme start) := do
  let scan ← scanWord line (Scan.new start)
  if nonempty : scan.text ≠ [] then
    return ⟨Word.ofText scan.text (start + 1), scan.stop, scan.advances nonempty⟩
  else refuse ⟨.leadingSpace, start + 1⟩

def lexNext (line : List Char) (tokens : List Token) (pos : Nat) :
    Guarded LineError (Lexeme pos) :=
  if tokens = [] then lexWord line pos
  else do
    expectSeparator line pos
    let lexeme ← lexWord line (pos + 1)
    return lexeme.behindSeparator

def tokenizeFrom (line : List Char) (tokens : List Token) (pos : Nat) :
    Guarded LineError (List Token) :=
  if pos < line.length then do
    let lexeme ← lexNext line tokens pos
    tokenizeFrom line (tokens ++ [.word lexeme.word]) lexeme.stop
  else return tokens ++ [.lineEnd (pos + 1)]
termination_by line.length - pos
decreasing_by
  have advances := lexeme.advances
  omega

def tokenize (line : List Char) : Guarded LineError (List Token) := tokenizeFrom line [] 0

/-! What the scanner makes of the characters that are still ahead of it -/

section Ahead

variable {line seen rest : List Char} {char : Char} {pos start : Nat}

theorem element_of_drop (ahead : line.drop pos = char :: rest) :
    (element line pos : Guarded LineError Char) = .ok char := by
  refine element_of_getElem? ?_
  rw [← List.head?_drop, ahead, List.head?_cons]

theorem lt_length_of_drop (ahead : line.drop pos = char :: rest) : pos < line.length := by
  by_contra past
  rw [List.drop_eq_nil_of_le (Nat.le_of_not_lt past)] at ahead
  cases ahead

theorem drop_succ (ahead : line.drop pos = char :: rest) : line.drop (pos + 1) = rest := by
  rw [← List.drop_drop, ahead, List.drop_succ_cons, List.drop_zero]

theorem scanWord_of_seen (visible : ∀ char ∈ seen, isForbidden char = false) (scan : Scan start)
    (ahead : line.drop scan.stop = seen ++ rest) :
    ∃ next : Scan start, next.text = scan.text ++ seen ∧ line.drop next.stop = rest ∧
      scanWord line scan = scanWord line next := by
  induction seen generalizing scan with
  | nil => exact ⟨scan, (List.append_nil scan.text).symm, ahead, rfl⟩
  | cons char seen ih =>
      obtain ⟨charVisible, seenVisible⟩ := List.forall_mem_cons.mp visible
      have notSpace : char ≠ ' ' := by
        rintro rfl
        rw [isForbidden_space] at charVisible
        cases charVisible
      have step : scanWord line scan = scanWord line (scan.push char) := by
        rw [scanWord, if_pos (lt_length_of_drop ahead), element_of_drop ahead]
        simp only [bind, Except.bind, notSpace, charVisible, if_false, Bool.false_eq_true]
      obtain ⟨next, text, behind, goesOn⟩ := ih seenVisible (scan.push char) (drop_succ ahead)
      refine ⟨next, ?_, behind, step.trans goesOn⟩
      rw [text, Scan.push, List.append_assoc, List.singleton_append]

theorem scanWord_of_stopped {scan : Scan start} (ahead : line.drop scan.stop = rest)
    (stopped : rest = [] ∨ rest.head? = some ' ') : scanWord line scan = .ok scan := by
  rw [scanWord]
  rcases stopped with rfl | space
  · have past := List.drop_eq_nil_iff.mp ahead
    rw [if_neg (Nat.not_lt.mpr past)]
    rfl
  · obtain ⟨more, rfl⟩ := List.head?_eq_some_iff.mp space
    rw [if_pos (lt_length_of_drop ahead), element_of_drop ahead]
    rfl

theorem scanWord_of_forbidden {scan : Scan start} (ahead : line.drop scan.stop = char :: rest)
    (bad : isForbidden char = true) (other : char ≠ ' ') :
    scanWord line scan = refuse ⟨.forbidden char, scan.stop + 1⟩ := by
  rw [scanWord, if_pos (lt_length_of_drop ahead), element_of_drop ahead]
  simp only [bind, Except.bind, other, bad, if_false, if_true]

theorem lexWord_eq {piece : List Char} (nonempty : piece ≠ []) (cut : ' ' ∉ piece)
    (ahead : line.drop start = piece ++ rest) (stopped : rest = [] ∨ rest.head? = some ' ') :
    (∃ lexeme : Lexeme start, lexWord line start = .ok lexeme ∧
        Word.read piece (start + 1) = .ok lexeme.word ∧ lexeme.stop = start + piece.length ∧
        line.drop lexeme.stop = rest) ∨
      ∃ error, lexWord line start = refuse error ∧ Word.read piece (start + 1) = .error error := by
  cases found : Word.read piece (start + 1) with
  | ok word =>
      obtain ⟨visible, rfl⟩ := Word.read_eq_ok_iff.mp found
      obtain ⟨scan, text, behind, same⟩ := scanWord_of_seen visible (Scan.new start) ahead
      have scanned := same.trans (scanWord_of_stopped behind stopped)
      have text : scan.text = piece := text
      have textNonempty : scan.text ≠ [] := text ▸ nonempty
      refine Or.inl ⟨⟨Word.ofText scan.text (start + 1), scan.stop, scan.advances textNonempty⟩,
        ?_, by rw [text], by rw [← text]; exact scan.stop_eq, behind⟩
      rw [lexWord, scanned]
      exact dif_pos textNonempty
  | error error =>
      obtain ⟨seen, char, more, rfl, visible, bad, rfl⟩ := Word.exists_of_read_eq_error found
      have other : char ≠ ' ' := by
        rintro rfl
        exact cut (by simp)
      rw [List.append_assoc] at ahead
      obtain ⟨scan, text, behind, same⟩ := scanWord_of_seen visible (Scan.new start) ahead
      have text : scan.text = seen := text
      have place : scan.stop + 1 = start + 1 + seen.length := by
        rw [scan.stop_eq, text]
        omega
      refine Or.inr ⟨_, ?_, rfl⟩
      rw [lexWord, same, scanWord_of_forbidden behind bad other, place]
      rfl

theorem expectSeparator_at_end (ahead : line.drop pos = [' ']) :
    expectSeparator line pos = refuse ⟨.trailingSpace, pos + 1⟩ := by
  have past := List.drop_eq_nil_iff.mp (drop_succ ahead)
  rw [expectSeparator, element_of_drop ahead]
  exact if_neg (Nat.not_lt.mpr past)

theorem expectSeparator_of_doubled (ahead : line.drop pos = ' ' :: ' ' :: rest) :
    expectSeparator line pos = refuse ⟨.doubledSpace, pos + 2⟩ := by
  have behind := drop_succ ahead
  simp only [expectSeparator, element_of_drop ahead, element_of_drop behind,
    lt_length_of_drop behind, bind, Except.bind, if_true]

theorem expectSeparator_of_word (ahead : line.drop pos = ' ' :: char :: rest) (other : char ≠ ' ') :
    expectSeparator line pos = .ok () := by
  have behind := drop_succ ahead
  simp only [expectSeparator, element_of_drop ahead, element_of_drop behind,
    lt_length_of_drop behind, bind, Except.bind, other, if_true, if_false]
  rfl

theorem stopped_flatMap (pieces : List (List Char)) :
    pieces.flatMap (' ' :: ·) = [] ∨ (pieces.flatMap (' ' :: ·)).head? = some ' ' := by
  cases pieces with
  | nil => exact Or.inl rfl
  | cons => exact Or.inr rfl

variable {tokens : List Token} {pieces : List (List Char)}

theorem lexNext_of_refused {error : LineError} (started : tokens ≠ [])
    (refused : expectSeparator line pos = refuse error) :
    lexNext line tokens pos = refuse error := by
  rw [lexNext, if_neg started, refused]
  rfl

theorem lexNext_of_separated (started : tokens ≠ []) (separated : expectSeparator line pos = .ok ()) :
    lexNext line tokens pos = (lexWord line (pos + 1)).map Lexeme.behindSeparator := by
  rw [lexNext, if_neg started, separated]
  rfl

theorem tokenizeFrom_of_ok {lexeme : Lexeme pos} (inside : pos < line.length)
    (read : lexNext line tokens pos = .ok lexeme) :
    tokenizeFrom line tokens pos =
      tokenizeFrom line (tokens ++ [.word lexeme.word]) lexeme.stop := by
  rw [tokenizeFrom, if_pos inside, read]
  rfl

theorem tokenizeFrom_of_refused {error : LineError} (inside : pos < line.length)
    (refused : lexNext line tokens pos = refuse error) :
    tokenizeFrom line tokens pos = refuse error := by
  rw [tokenizeFrom, if_pos inside, refused]
  rfl

theorem tokenizeFrom_at_end (past : line.drop pos = []) :
    tokenizeFrom line tokens pos = .ok (tokens ++ [.lineEnd (pos + 1)]) := by
  have past := List.drop_eq_nil_iff.mp past
  rw [tokenizeFrom, if_neg (Nat.not_lt.mpr past)]
  rfl

theorem map_tokens_of_word (tokens : List Token) (word : Word) (rest : Except LineError Line) :
    (rest.map fun line : Line => tokens ++ [.word word] ++ line.tokens) =
      (do let line ← rest; return (⟨word :: line.words, line.endCol⟩ : Line) : Except _ _).map
        fun line : Line => tokens ++ line.tokens := by
  cases rest with
  | error => rfl
  | ok line => simp [Except.map, Line.tokens, bind, Except.bind, pure, Except.pure]

theorem tokenizeFrom_eq (started : tokens ≠ []) (cut : ∀ piece ∈ pieces, ' ' ∉ piece)
    (ahead : line.drop pos = pieces.flatMap (' ' :: ·)) :
    tokenizeFrom line tokens pos =
      of ((Line.readRest (pos + 1) pieces).map fun rest => tokens ++ rest.tokens) := by
  -- Ahead of the scanner are the pieces of the line that it has not read, each behind a space.
  induction pieces generalizing tokens pos with
  | nil => exact tokenizeFrom_at_end ahead
  | cons piece pieces ih =>
      obtain ⟨pieceCut, piecesCut⟩ := List.forall_mem_cons.mp cut
      have inside : pos < line.length := lt_length_of_drop ahead
      by_cases empty : piece = []
      · subst empty
        cases pieces with
        | nil =>
            exact tokenizeFrom_of_refused inside
              (lexNext_of_refused started (expectSeparator_at_end ahead))
        | cons next pieces =>
            exact tokenizeFrom_of_refused inside
              (lexNext_of_refused started (expectSeparator_of_doubled ahead))
      · obtain ⟨first, others, rfl⟩ := List.exists_cons_of_ne_nil empty
        have other : first ≠ ' ' := by
          rintro rfl
          exact pieceCut List.mem_cons_self
        have next := lexNext_of_separated started (expectSeparator_of_word ahead other)
        rw [Line.readRest_cons pieces empty]
        rcases lexWord_eq empty pieceCut (drop_succ ahead) (stopped_flatMap pieces) with
          ⟨lexeme, read, same, stop, behind⟩ | ⟨error, refused, same⟩
        · rw [read] at next
          have goesOn : tokenizeFrom line (tokens ++ [.word lexeme.word]) lexeme.stop = _ :=
            ih (by simp) piecesCut behind
          have place : lexeme.stop + 1 = pos + 1 + 1 + (first :: others).length := by omega
          refine (tokenizeFrom_of_ok inside next).trans (goesOn.trans ?_)
          rw [same, place, map_tokens_of_word]
          rfl
        · rw [refused] at next
          rw [tokenizeFrom_of_refused inside next, same]
          rfl

theorem lexWord_of_space (ahead : line.drop start = ' ' :: rest) :
    lexWord line start = refuse ⟨.leadingSpace, start + 1⟩ := by
  have stopped : scanWord line (Scan.new start) = .ok (Scan.new start) :=
    scanWord_of_stopped ahead (Or.inr rfl)
  rw [lexWord, stopped]
  rfl

theorem tokenize_eq_map (line : List Char) :
    Rule.tokenize line = (Line.read line).map Line.tokens := by
  rw [Rule.tokenize]
  cases Line.read line <;> rfl

theorem tokenize_eq (line : List Char) : tokenize line = of (Rule.tokenize line) := by
  have joined : [' '].intercalate (line.splitOn ' ') = line := List.intercalate_splitOn ' '
  obtain ⟨first, pieces, split⟩ := List.exists_cons_of_ne_nil (List.splitOn_ne_nil ' ' line)
  have cut : ∀ piece ∈ first :: pieces, ' ' ∉ piece := by
    rw [← split]
    exact fun piece member => separator_not_mem_of_mem_splitOn member
  obtain ⟨firstCut, piecesCut⟩ := List.forall_mem_cons.mp cut
  rw [split, intercalate_cons] at joined
  have ahead : line.drop 0 = first ++ pieces.flatMap (' ' :: ·) := joined.symm
  rw [tokenize_eq_map, tokenize]
  by_cases empty : first = []
  · subst empty
    cases pieces with
    | nil =>
        rw [Line.read, split]
        exact tokenizeFrom_at_end ahead
    | cons next pieces =>
        have inside : 0 < line.length := lt_length_of_drop ahead
        rw [Line.read, split]
        exact tokenizeFrom_of_refused inside (lexWord_of_space ahead)
  · obtain ⟨char, others, rfl⟩ := List.exists_cons_of_ne_nil empty
    have inside : 0 < line.length := lt_length_of_drop ahead
    rw [Line.read_of_splitOn split empty]
    rcases lexWord_eq empty firstCut ahead (stopped_flatMap pieces) with
      ⟨lexeme, read, same, stop, behind⟩ | ⟨error, refused, same⟩
    · have goesOn : tokenizeFrom line [.word lexeme.word] lexeme.stop = _ :=
        tokenizeFrom_eq (by simp) piecesCut behind
      have place : lexeme.stop + 1 = 1 + (char :: others).length := by omega
      have next : lexNext line [] 0 = .ok lexeme := read
      refine (tokenizeFrom_of_ok inside next).trans (goesOn.trans ?_)
      rw [same, place]
      exact congrArg of (map_tokens_of_word [] lexeme.word _)
    · rw [same]
      exact tokenizeFrom_of_refused inside refused

end Ahead

end NoteClock.Guarded
