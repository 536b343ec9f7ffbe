import NoteClock.Proofs.Guarded.Scanner
import NoteClock.Proofs.Guarded.Timestamp
import NoteClock.Proofs.Spelling.Rule

/-!
The parser over a stream of tokens. It stands at a position in the stream and looks at the token there,
or at the last one if it has passed them all. Over the tokens of a line it reads what the words of the
line are read as.
-/

namespace NoteClock

namespace Rule.Token

def found? : Token → Option (List Char)
  | word found => some found.text
  | lineEnd _ => none

def operand? : Token → Option Word
  | word found => if found.isOperand then some found else none
  | lineEnd _ => none

def number? : Token → Option Nat
  | word ⟨.number value, _, _⟩ => some value
  | _ => none

def isPlay : Token → Bool
  | word found => found.kind = .keyword .play
  | lineEnd _ => false

def behind (token : Token) (pos : Nat) : Nat :=
  match token with
  | word _ => pos + 1
  | lineEnd _ => pos

end Rule.Token

namespace Guarded

open Rule

def peek (tokens : List Token) (pos : Nat) : Guarded LineError Token := do
  let last ← difference tokens.length 1
  element tokens (min pos last)

def advance (tokens : List Token) (pos : Nat) : Guarded LineError (Token × Nat) := do
  let token ← peek tokens pos
  return (token, token.behind pos)

def parseTrigger (tokens : List Token) (pos : Nat) : Guarded LineError (TriggerWord × Nat) := do
  let (token, next) ← advance tokens pos
  match token with
  | .lineEnd col => refuse ⟨.blankLine, col⟩
  | .word word =>
      match word.kind with
      | .keyword .once => return (.once, next)
      | .keyword .every => return (.every, next)
      | _ => refuse ⟨.notATrigger word.text, word.col⟩

def parseMillis (tokens : List Token) (pos : Nat) : Guarded LineError (Nat × Nat) := do
  let (token, next) ← advance tokens pos
  match token.operand? with
  | none => refuse ⟨.notATimestamp token.found?, token.col⟩
  | some word =>
      match parseTimestamp word.text with
      | .ok millis => return (millis, next)
      | .error (.trapped trap) => Guarded.trap trap
      | .error (.refused (cause, offset)) => do
          let (before, _) ← cutAt word.text offset
          refuse ⟨.timestamp cause, word.col + before.length⟩

def expectPlay (tokens : List Token) (pos : Nat) : Guarded LineError Nat := do
  let token ← peek tokens pos
  if token.isPlay then
    let (_, next) ← advance tokens pos
    return next
  else refuse ⟨.notPlay token.found?, token.col⟩

def parseNotes (tokens : List Token) (pos : Nat) : Guarded LineError (List Note × Nat) := do
  let (token, next) ← advance tokens pos
  match token.operand? with
  | none => refuse ⟨.notANoteList token.found?, token.col⟩
  | some word =>
      if word.text.getLast? = some ',' then
        let col ← difference (word.col + word.text.length) 1
        refuse ⟨.trailingComma, col⟩
      else
        let notes ← of (Line.readItems word.col (word.text.splitOn ','))
        return (notes, next)

def parsePlainMode (tokens : List Token) (pos : Nat) (word : Word) (mode : ModeClause) :
    Guarded LineError (Option ModeClause × Nat) := do
  let (_, next) ← advance tokens pos
  let token ← peek tokens next
  match token.number? with
  | some _ => refuse ⟨.countWithoutStack word.text, token.col⟩
  | none => return (some mode, next)

def parseCount (tokens : List Token) (pos : Nat) : Guarded LineError (Option Nat × Nat) := do
  let token ← peek tokens pos
  match token.number? with
  | none => return (none, pos)
  | some value =>
      let (_, next) ← advance tokens pos
      if value = 0 then refuse ⟨.zeroCount, token.col⟩
      else if maxCount < value then refuse ⟨.hugeCount, token.col⟩
      else return (some value, next)

def parseMode (tokens : List Token) (pos : Nat) :
    Guarded LineError (Option ModeClause × Nat) := do
  let token ← peek tokens pos
  match token with
  | .lineEnd _ => return (none, pos)
  | .word word =>
      match word.kind with
      | .keyword .scale => parsePlainMode tokens pos word .scale
      | .keyword .arpeggio => parsePlainMode tokens pos word .arpeggio
      | .keyword .stack =>
          let (_, next) ← advance tokens pos
          let (count, last) ← parseCount tokens next
          return (some (.stack count), last)
      | _ => refuse ⟨.notAMode word.text, word.col⟩

def expectEnd (tokens : List Token) (pos : Nat) : Guarded LineError Unit := do
  let token ← peek tokens pos
  match token with
  | .lineEnd _ => return
  | .word word => refuse ⟨.surplus word.text, word.col⟩

def parseClauses (tokens : List Token) : Guarded LineError Clauses := do
  let (trigger, pos) ← parseTrigger tokens 0
  let second ← peek tokens pos
  let (millis, pos) ← parseMillis tokens pos
  let pos ← expectPlay tokens pos
  let (notes, pos) ← parseNotes tokens pos
  let (mode, pos) ← parseMode tokens pos
  expectEnd tokens pos
  return ⟨trigger, millis, second.col, notes, mode⟩

end Guarded

/-! Over the tokens of a line -/

namespace Rule.Line

def token (line : Line) : Token :=
  match line.words with
  | [] => .lineEnd line.endCol
  | word :: _ => .word word

theorem drop_drop (line : Line) (first second : Nat) :
    (line.drop first).drop second = line.drop (first + second) := by
  simp only [drop, List.drop_drop]

end Rule.Line

namespace Guarded

open Rule

variable (line : Line) (pos : Nat)

theorem peek_tokens : peek line.tokens pos = .ok (line.drop pos).token := by
  have counted : line.tokens.length = line.words.length + 1 := by simp [Line.tokens]
  rw [peek, counted, difference_of_le (Nat.le_add_left 1 _)]
  refine element_of_getElem? ?_
  rw [Nat.add_sub_cancel, Line.tokens, Line.token, Line.drop]
  by_cases inside : pos < line.words.length
  · rw [Nat.min_eq_left (Nat.le_of_lt inside), List.getElem?_append_left (by simpa using inside),
      List.getElem?_map, List.getElem?_eq_getElem inside, List.drop_eq_getElem_cons inside]
    rfl
  · have past := Nat.le_of_not_lt inside
    rw [Nat.min_eq_right past, List.getElem?_append_right (by simp), List.drop_eq_nil_of_le past]
    simp

theorem advance_tokens :
    advance line.tokens pos = .ok ((line.drop pos).token, (line.drop pos).token.behind pos) := by
  rw [advance, peek_tokens]
  rfl

theorem parseTrigger_eq :
    parseTrigger line.tokens pos = of ((line.drop pos).readTrigger.map (·, pos + 1)) := by
  rw [parseTrigger, advance_tokens, Line.readTrigger]
  generalize line.drop pos = here
  obtain ⟨words, endCol⟩ := here
  cases words with
  | nil => rfl
  | cons word rest =>
      obtain ⟨kind, text, col⟩ := word
      cases kind with
      | keyword keyword => cases keyword <;> rfl
      | number value => rfl
      | plain => rfl

theorem operand?_token (here : Line) : here.token.operand? = here.operand? := by
  obtain ⟨words, endCol⟩ := here
  cases words with
  | nil => rfl
  | cons word rest => simp [Line.token, Token.operand?, Line.operand?, Option.filter]

theorem found?_token (here : Line) : here.token.found? = here.found := by
  obtain ⟨words, endCol⟩ := here
  cases words <;> rfl

theorem col_token (here : Line) : here.token.col = here.col := by
  obtain ⟨words, endCol⟩ := here
  cases words <;> rfl

theorem behind_of_operand {here : Line} {word : Word} (operand : here.operand? = some word) :
    here.token.behind pos = pos + 1 := by
  obtain ⟨words, endCol⟩ := here
  cases words with
  | nil => cases operand
  | cons => rfl

theorem cutAt_offset {token : List Char} {error : Timestamp.Error}
    (refused : Timestamp.parse token = .error error) :
    ∃ behind, (cutAt token error.offset : Guarded LineError _) = .ok (error.before, behind) := by
  obtain ⟨behind, shape, _⟩ := (Timestamp.parse_eq_error_iff.mp refused).exists_append
  exact ⟨behind, cutAt_eq_ok_iff.mpr ⟨shape.symm, rfl⟩⟩

theorem parseMillis_eq :
    parseMillis line.tokens pos = of ((line.drop pos).readTimestamp.map (·, pos + 1)) := by
  rw [parseMillis, advance_tokens, Line.readTimestamp]
  generalize line.drop pos = here
  simp only [bind, Except.bind, operand?_token, found?_token, col_token]
  cases operand : here.operand? with
  | none => rfl
  | some word =>
      simp only [behind_of_operand pos operand, parseTimestamp_eq]
      cases parsed : Timestamp.parse word.text with
      | ok millis => rfl
      | error error =>
          obtain ⟨behind, cut⟩ := cutAt_offset parsed
          simp only [of, Except.mapError, located, cut]
          rfl

theorem expectPlay_eq :
    expectPlay line.tokens pos = of ((line.drop pos).readPlay.map fun _ => pos + 1) := by
  rw [expectPlay, peek_tokens, advance_tokens, Line.readPlay]
  generalize line.drop pos = here
  obtain ⟨words, endCol⟩ := here
  cases words with
  | nil => rfl
  | cons word rest =>
      obtain ⟨kind, text, col⟩ := word
      cases kind with
      | keyword keyword => cases keyword <;> rfl
      | number value => rfl
      | plain => rfl

theorem parseNotes_eq :
    parseNotes line.tokens pos = of ((line.drop pos).readNotes.map (·, pos + 1)) := by
  rw [parseNotes, advance_tokens, Line.readNotes]
  generalize line.drop pos = here
  simp only [bind, Except.bind, operand?_token, found?_token, col_token]
  cases operand : here.operand? with
  | none => rfl
  | some word =>
      simp only [behind_of_operand pos operand]
      split
      · rename_i ended
        obtain ⟨front, shape⟩ := List.getLast?_eq_some_iff.mp ended
        have positive : 1 ≤ word.text.length := by simp [shape]
        rw [difference_of_le (by omega), Nat.add_sub_assoc positive]
        rfl
      · cases Line.readItems word.col (word.text.splitOn ',') <;> rfl

/-! The parser goes on in a line from where it stands -/

def standing (read : Option ModeClause × Nat) : Option ModeClause × Line :=
  (read.1, line.drop read.2)

variable {line pos}

theorem map_standing_ok {here : Line} (stands : line.drop pos = here) (mode : Option ModeClause) :
    (.ok (mode, pos) : Guarded LineError _).map (standing line) = of (.ok (mode, here)) := by
  rw [← stands]
  rfl

theorem peek_behind {here : Line} (stands : line.drop pos = here) :
    peek line.tokens (pos + 1) = .ok (here.drop 1).token := by
  rw [peek_tokens, ← stands, Line.drop_drop]

theorem map_standing_parsePlainMode {here : Line} {word : Word} {rest : List Word} (mode : ModeClause)
    (stands : line.drop pos = here) (ahead : here.words = word :: rest) :
    (parsePlainMode line.tokens pos word mode).map (standing line) =
      of (here.readPlainMode mode) := by
  have behind : line.drop (pos + 1) = here.drop 1 := by rw [← stands, Line.drop_drop]
  have token : here.token = .word word := by rw [Line.token, ahead]
  simp only [parsePlainMode, advance_tokens, stands, token, Token.behind, bind, Except.bind,
    peek_behind stands]
  obtain ⟨words, endCol⟩ := here
  subst ahead
  cases rest with
  | nil => exact map_standing_ok behind (some mode)
  | cons second rest =>
      obtain ⟨kind, text, col⟩ := second
      cases kind with
      | number value => rfl
      | keyword => exact map_standing_ok behind (some mode)
      | plain => exact map_standing_ok behind (some mode)

theorem map_standing_parseCount {here : Line} (stands : line.drop pos = here) :
    ((parseCount line.tokens pos).map fun read => (some (.stack read.1), read.2)).map
        (standing line) = of here.readCount := by
  have behind : line.drop (pos + 1) = here.drop 1 := by rw [← stands, Line.drop_drop]
  simp only [parseCount, advance_tokens, peek_tokens, stands, bind, Except.bind]
  obtain ⟨words, endCol⟩ := here
  cases words with
  | nil => exact map_standing_ok stands (some (.stack none))
  | cons word rest =>
      obtain ⟨kind, text, col⟩ := word
      cases kind with
      | number value =>
          simp only [Line.readCount, Line.token, Token.number?]
          split
          · rfl
          · split
            · rfl
            · exact map_standing_ok behind (some (.stack (some value)))
      | keyword => exact map_standing_ok stands (some (.stack none))
      | plain => exact map_standing_ok stands (some (.stack none))

theorem map_standing_parseMode {here : Line} (stands : line.drop pos = here) :
    (parseMode line.tokens pos).map (standing line) = of here.readMode := by
  have behind : line.drop (pos + 1) = here.drop 1 := by rw [← stands, Line.drop_drop]
  simp only [parseMode, advance_tokens, peek_tokens, stands, bind, Except.bind]
  obtain ⟨words, endCol⟩ := here
  cases words with
  | nil => exact map_standing_ok stands none
  | cons word rest =>
      obtain ⟨kind, text, col⟩ := word
      cases kind with
      | number value => rfl
      | plain => rfl
      | keyword keyword =>
          cases keyword with
          | scale => exact map_standing_parsePlainMode .scale stands rfl
          | arpeggio => exact map_standing_parsePlainMode .arpeggio stands rfl
          | stack =>
              refine Eq.trans ?_ (map_standing_parseCount behind)
              dsimp only [Line.token, Token.behind]
              cases parseCount line.tokens (pos + 1) <;> rfl
          | once | every | play => rfl

theorem parseMode_cases (line : Line) (pos : Nat) :
    (∃ error, parseMode line.tokens pos = refuse error ∧
        (line.drop pos).readMode = .error error) ∨
      ∃ mode next, parseMode line.tokens pos = .ok (mode, next) ∧
        (line.drop pos).readMode = .ok (mode, line.drop next) := by
  have same : _ = of (line.drop pos).readMode := map_standing_parseMode rfl
  cases parsed : parseMode line.tokens pos with
  | error halt =>
      rw [parsed] at same
      cases read : (line.drop pos).readMode with
      | error error =>
          rw [read] at same
          cases same
          exact Or.inl ⟨error, rfl, rfl⟩
      | ok =>
          rw [read] at same
          cases same
  | ok found =>
      rw [parsed] at same
      cases read : (line.drop pos).readMode with
      | error =>
          rw [read] at same
          cases same
      | ok =>
          rw [read] at same
          cases same
          exact Or.inr ⟨_, _, rfl, rfl⟩

theorem expectEnd_eq : expectEnd line.tokens pos = of (line.drop pos).readEnd := by
  rw [expectEnd, peek_tokens, Line.readEnd, Line.token]
  cases (line.drop pos).words <;> rfl

theorem parseClauses_eq (line : Line) : parseClauses line.tokens = of line.readClauses := by
  have start : line.drop 0 = line := rfl
  rw [parseClauses, Line.readClauses, parseTrigger_eq, start]
  cases line.readTrigger with
  | error => rfl
  | ok trigger =>
  dsimp only [of, Except.map, Except.mapError, bind, Except.bind]
  simp only [peek_tokens, parseMillis_eq, Nat.zero_add]
  cases (line.drop 1).readTimestamp with
  | error => rfl
  | ok millis =>
  dsimp only [of, Except.map, Except.mapError]
  simp only [expectPlay_eq, Nat.reduceAdd]
  cases (line.drop 2).readPlay with
  | error => rfl
  | ok =>
  dsimp only [of, Except.map, Except.mapError]
  simp only [parseNotes_eq, Nat.reduceAdd]
  cases (line.drop 3).readNotes with
  | error => rfl
  | ok notes =>
  dsimp only [of, Except.map, Except.mapError]
  rcases parseMode_cases line 4 with ⟨error, refused, same⟩ | ⟨mode, next, parsed, same⟩
  · simp only [refused, same]
    rfl
  · simp only [parsed, same, expectEnd_eq, col_token]
    cases (line.drop next).readEnd <;> rfl

end Guarded

end NoteClock
