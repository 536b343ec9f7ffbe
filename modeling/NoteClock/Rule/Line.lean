import NoteClock.Rule.Fault

/-!
A rule line cut into words at single spaces. Nothing is lost: the texts of the words, joined with
single spaces, are the line again. The leftmost character that fits nowhere is the one reported.
-/

namespace NoteClock.Text

/-- The characters with the Unicode property `White_Space`. -/
def isBlank (char : Char) : Bool :=
  let code := char.toNat
  (9 ≤ code && code ≤ 13) || code = 32 || code = 0x85 || code = 0xA0 || code = 0x1680
    || (0x2000 ≤ code && code ≤ 0x200A) || code = 0x2028 || code = 0x2029 || code = 0x202F
    || code = 0x205F || code = 0x3000

/-- The characters of the Unicode category `Cc`. -/
def isControl (char : Char) : Bool :=
  let code := char.toNat
  code < 32 || (127 ≤ code && code < 160)

end NoteClock.Text

namespace NoteClock.Rule

/-- The words of a line, and the column just past its last character. -/
structure Line where
  words : List Word
  endCol : Nat
  deriving DecidableEq, Repr

def isForbidden (char : Char) : Bool := Text.isBlank char || Text.isControl char

def Word.read (text : List Char) (col : Nat) : Except LineError Word :=
  match text.dropWhile (!isForbidden ·) with
  | [] => .ok (Word.ofText text col)
  | char :: _ => .error ⟨.forbidden char, col + (text.takeWhile (!isForbidden ·)).length⟩

namespace Line

/-- The words after the first: each piece follows a space, and `col` is the column of that space. -/
def readRest (col : Nat) : List (List Char) → Except LineError Line
  | [] => .ok ⟨[], col⟩
  | [[]] => .error ⟨.trailingSpace, col⟩
  | [] :: _ => .error ⟨.doubledSpace, col + 1⟩
  | piece :: rest => do
      let word ← Word.read piece (col + 1)
      let line ← readRest (col + 1 + piece.length) rest
      return ⟨word :: line.words, line.endCol⟩

def read (text : List Char) : Except LineError Line :=
  match text.splitOn ' ' with
  | [] | [[]] => .ok ⟨[], 1⟩
  | [] :: _ => .error ⟨.leadingSpace, 1⟩
  | first :: rest => do
      let word ← Word.read first 1
      let line ← readRest (1 + first.length) rest
      return ⟨word :: line.words, line.endCol⟩

def drop (line : Line) (count : Nat) : Line := { line with words := line.words.drop count }

def col (line : Line) : Nat :=
  match line.words with
  | [] => line.endCol
  | word :: _ => word.col

def found (line : Line) : Option (List Char) := line.words.head?.map (·.text)

end Line

inductive Token where
  | word (word : Word)
  | lineEnd (col : Nat)
  deriving DecidableEq, Repr

namespace Token

def text : Token → List Char
  | word found => found.text
  | lineEnd _ => []

def col : Token → Nat
  | word found => found.col
  | lineEnd col => col

def describe : Token → String
  | word found => found.kind.describe
  | lineEnd _ => "end of line"

end Token

def Line.tokens (line : Line) : List Token := line.words.map .word ++ [.lineEnd line.endCol]

def tokenize (text : List Char) : Except LineError (List Token) := do
  return (← Line.read text).tokens

end NoteClock.Rule
