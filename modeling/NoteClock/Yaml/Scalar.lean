import NoteClock.Yaml.Cell

/-!
Scalars, and the folding of the lines that flow scalars run over: a single break between two lines is a
space, and blank lines stand for breaks.
-/

namespace NoteClock.Yaml

inductive Style where
  | plain
  | quoted
  | literal
  | folded
  deriving DecidableEq, Repr

/-- `tag` is the full name of a written tag, in bytes. -/
structure Scalar where
  style : Style
  text : List Char
  tag : Option (List UInt8)
  deriving DecidableEq, Repr

inductive Piece where
  | char (char : Char)
  | blank (char : Char)
  | lineBreak (char : Char)
  | joinedBreak
  deriving DecidableEq, Repr

def Piece.ofCell (cell : Cell) : Piece :=
  if cell.isBlank then blank cell.char
  else if cell.isBreak then lineBreak cell.char
  else char cell.char

/-- What separates the text read so far from the next character. The first of its breaks is missing when
it was escaped. -/
inductive Gap where
  | none
  | blanks (chars : List Char)
  | breaks (first : Option Char) (later : List Char)
  deriving DecidableEq, Repr

namespace Gap

def fold : Gap → List Char
  | none => []
  | blanks chars => chars
  | breaks (some '\n') [] => [' ']
  | breaks (some '\n') later => later
  | breaks first later => first.toList ++ later

def addBlank (char : Char) : Gap → Gap
  | none => blanks [char]
  | blanks chars => blanks (chars ++ [char])
  | breaks first later => breaks first later

def addBreak (char : Char) : Gap → Gap
  | none | blanks _ => breaks (some char) []
  | breaks first later => breaks first (later ++ [char])

def hasBreak : Gap → Bool
  | breaks _ _ => true
  | none | blanks _ => false

end Gap

structure Folding where
  text : Array Char
  gap : Gap

def Folding.add (folding : Folding) : Piece → Folding
  | .char char => ⟨(folding.text.appendList folding.gap.fold).push char, .none⟩
  | .blank char => { folding with gap := folding.gap.addBlank char }
  | .lineBreak char => { folding with gap := folding.gap.addBreak char }
  | .joinedBreak => ⟨folding.text.appendList folding.gap.fold, .breaks none []⟩

def Folding.ofPieces (pieces : List Piece) : Folding := pieces.foldl Folding.add ⟨#[], .none⟩

def foldPlain (pieces : List Piece) : List Char := (Folding.ofPieces pieces).text.toList

def foldQuoted (pieces : List Piece) : List Char :=
  let folding := Folding.ofPieces pieces
  folding.text.toList ++ folding.gap.fold

def readDigits (base limit : Nat) (digits : List Char) : Option Nat := do
  if digits = [] then failure
  let value ← digits.foldlM (fun value char => do
    let digit ← hexDigit? char
    if digit < base then some (value * base + digit) else none) 0
  if value ≤ limit then some value else none
where
  hexDigit? (char : Char) : Option Nat :=
    if char.isDigit then some (char.toNat - '0'.toNat)
    else if 'a' ≤ char ∧ char ≤ 'f' then some (char.toNat - 'a'.toNat + 10)
    else if 'A' ≤ char ∧ char ≤ 'F' then some (char.toNat - 'A'.toNat + 10)
    else none

/-- A natural number as a plain scalar spells it: after an optional plus sign in hexadecimal, octal or
binary digits with their marks, or in decimal digits without superfluous zeros. -/
def readNatural (limit : Nat) (text : List Char) : Option Nat :=
  let unsigned := match text with
    | '+' :: rest => rest
    | _ => text
  match unsigned with
  | '0' :: 'x' :: digits => readDigits 16 limit digits
  | '0' :: 'o' :: digits => readDigits 8 limit digits
  | '0' :: 'b' :: digits => readDigits 2 limit digits
  | '0' :: _ :: _ => none
  | digits => readDigits 10 limit digits

def integerTag : List UInt8 := asciiBytes "tag:yaml.org,2002:int".toList

/-- The number that a scalar stands for. A quoted text is no number, and a block of text is one only
when it is tagged so. -/
def Scalar.natural? (scalar : Scalar) (limit : Nat) : Option Nat :=
  match scalar.style with
  | .plain => readNatural limit scalar.text
  | .literal => if scalar.tag = some integerTag then readNatural limit scalar.text else none
  | .quoted | .folded => none

end NoteClock.Yaml
