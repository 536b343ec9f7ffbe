/-!
A YAML text as a row of characters that know where they stand. Line breaks are put into one form, so
that the rest of the reading sees a single character for each.
-/

namespace NoteClock.Yaml

structure Mark where
  index : Nat
  line : Nat
  column : Nat
  deriving DecidableEq, Repr

structure Cell where
  char : Char
  mark : Mark
  deriving DecidableEq, Repr

def isBreak (char : Char) : Bool :=
  char = '\n' || char = '\r' || char = '\x85' || char = '\u2028' || char = '\u2029'

def isBlank (char : Char) : Bool := char = ' ' || char = '\t'

def isName (char : Char) : Bool := char.isAlphanum || char = '_' || char = '-'

def asciiBytes (chars : List Char) : List UInt8 := chars.map fun char => char.toNat.toUInt8

def isAllowed (char : Char) : Bool :=
  let code := char.toNat
  char = '\t' || char = '\n' || char = '\r' || (0x20 ≤ code && code ≤ 0x7E) || code = 0x85
    || (0xA0 ≤ code && code ≤ 0xFFFD) || 0x10000 ≤ code

namespace Mark

def origin : Mark := ⟨0, 0, 0⟩

def next (mark : Mark) (char : Char) : Mark :=
  { mark with index := mark.index + char.utf8Size, column := mark.column + 1 }

def nextLine (mark : Mark) (width : Nat) : Mark := ⟨mark.index + width, mark.line + 1, 0⟩

end Mark

namespace Cell

/-- A break is one line feed, except for the two Unicode separators, which stay as they are. -/
def breakChar (char : Char) : Char := if char = '\u2028' || char = '\u2029' then char else '\n'

def ofText (mark : Mark) : List Char → List Cell
  | [] => []
  | '\r' :: '\n' :: rest => ⟨'\n', mark⟩ :: ofText (mark.nextLine 2) rest
  | char :: rest =>
      if isBreak char then ⟨breakChar char, mark⟩ :: ofText (mark.nextLine char.utf8Size) rest
      else ⟨char, mark⟩ :: ofText (mark.next char) rest

def isBreak (cell : Cell) : Bool := Yaml.isBreak cell.char

def isBlank (cell : Cell) : Bool := Yaml.isBlank cell.char

def column (cell : Cell) : Nat := cell.mark.column

end Cell

def atGap : List Cell → Bool
  | [] => true
  | cell :: _ => cell.isBlank || cell.isBreak

def atFence (char : Char) : List Cell → Bool
  | first :: second :: third :: rest =>
      first.column = 0 && first.char = char && second.char = char && third.char = char && atGap rest
  | _ => false

def atDocumentMark (cells : List Cell) : Bool := atFence '-' cells || atFence '.' cells

end NoteClock.Yaml
