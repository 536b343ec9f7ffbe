import NoteClock.Yaml.Scalar

/-!
Flow scalars: single-quoted, double-quoted and plain. Each reader starts behind the opening quote, or
at the first plain character, and answers with the pieces of the scalar and what is left of the text.
-/

namespace NoteClock.Yaml

def readSingleQuoted : List Cell → Option (List Piece × List Cell)
  | [] => none
  | ⟨'\'', _⟩ :: ⟨'\'', _⟩ :: rest => do
      let (pieces, after) ← readSingleQuoted rest
      some (.char '\'' :: pieces, after)
  | ⟨'\'', _⟩ :: rest => some ([], rest)
  | cell :: rest => do
      if atDocumentMark (cell :: rest) then failure
      let (pieces, after) ← readSingleQuoted rest
      some (Piece.ofCell cell :: pieces, after)

def escaped? : Char → Option Char
  | '0' => some '\x00'
  | 'a' => some '\x07'
  | 'b' => some '\x08'
  | 't' | '\t' => some '\t'
  | 'n' => some '\n'
  | 'v' => some '\x0B'
  | 'f' => some '\x0C'
  | 'r' => some '\r'
  | 'e' => some '\x1B'
  | ' ' => some ' '
  | '"' => some '"'
  | '/' => some '/'
  | '\\' => some '\\'
  | 'N' => some '\x85'
  | '_' => some '\xA0'
  | 'L' => some '\u2028'
  | 'P' => some '\u2029'
  | _ => none

def codeLength? : Char → Option Nat
  | 'x' => some 2
  | 'u' => some 4
  | 'U' => some 8
  | _ => none

inductive Escape where
  | none
  | begun
  | code (missing value : Nat)

def readDoubleQuoted (state : Escape) : List Cell → Option (List Piece × List Cell)
  | [] => none
  | cell :: rest =>
      match state with
      | .begun =>
          if cell.isBreak then do
            let (pieces, after) ← readDoubleQuoted .none rest
            some (.joinedBreak :: pieces, after)
          else
            match codeLength? cell.char with
            | some length => readDoubleQuoted (.code length 0) rest
            | none => do
                let char ← escaped? cell.char
                let (pieces, after) ← readDoubleQuoted .none rest
                some (.char char :: pieces, after)
      | .code missing value => do
          let digit ← readDigits.hexDigit? cell.char
          let value := value * 16 + digit
          if 1 < missing then readDoubleQuoted (.code (missing - 1) value) rest
          else if valid : value.isValidChar then
            let (pieces, after) ← readDoubleQuoted .none rest
            some (.char (Char.ofNatAux value valid) :: pieces, after)
          else failure
      | .none =>
          if cell.char = '"' then some ([], rest)
          else if cell.char = '\\' then readDoubleQuoted .begun rest
          else if atDocumentMark (cell :: rest) then none
          else do
            let (pieces, after) ← readDoubleQuoted .none rest
            some (Piece.ofCell cell :: pieces, after)

def isFlowIndicator (char : Char) : Bool :=
  char = ',' || char = '[' || char = ']' || char = '{' || char = '}'

/-- A plain scalar ends before a colon with a gap behind it, and inside brackets before their marks.
Inside brackets a colon right before such a mark is refused. -/
def plainStops (inFlow : Bool) (char : Char) (rest : List Cell) : Option Bool :=
  let marked := rest.head?.any fun next => isFlowIndicator next.char || next.char = '?'
  if inFlow && char = ':' && marked then none
  else some ((char = ':' && atGap rest) || (inFlow && isFlowIndicator char))

/-- The pieces of a plain scalar whose lines are indented by at least `indent`, what is left, and
whether a break stands before that. `gap` is the blank space read last. -/
def readPlain (inFlow : Bool) (indent : Nat) (gap : Gap) :
    List Cell → Option (List Piece × List Cell × Bool)
  | [] => some ([], [], gap.hasBreak)
  | cell :: rest =>
      let stop := some ([], cell :: rest, gap.hasBreak)
      if cell.isBlank then
        if gap.hasBreak && cell.column < indent && cell.char = '\t' then none
        else do
          let (pieces, after) ← readPlain inFlow indent (gap.addBlank cell.char) rest
          some (.blank cell.char :: pieces, after)
      else if cell.isBreak then do
        let (pieces, after) ← readPlain inFlow indent (gap.addBreak cell.char) rest
        some (.lineBreak cell.char :: pieces, after)
      else if gap ≠ .none &&
          ((!inFlow && cell.column < indent) || atDocumentMark (cell :: rest) || cell.char = '#') then
        stop
      else
        match plainStops inFlow cell.char rest with
        | none => none
        | some true => stop
        | some false => do
            let (pieces, after) ← readPlain inFlow indent .none rest
            some (.char cell.char :: pieces, after)

end NoteClock.Yaml
