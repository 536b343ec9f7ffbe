/-!
The words of a rule line. Some words are keywords; a word of digits that fits into 64 bits is a
number; any other word stands for itself.
-/

namespace NoteClock.Rule

inductive Keyword where
  | once
  | every
  | play
  | scale
  | arpeggio
  | stack
  deriving DecidableEq, Repr

namespace Keyword

def all : List Keyword := [once, every, play, scale, arpeggio, stack]

def spelling : Keyword → List Char
  | once => ['a', 't']
  | every => ['e', 'v', 'e', 'r', 'y']
  | play => ['p', 'l', 'a', 'y']
  | scale => ['s', 'c', 'a', 'l', 'e']
  | arpeggio => ['a', 'r', 'p', 'e', 'g', 'g', 'i', 'o']
  | stack => ['r', 'e', 'p', 'e', 'a', 't']

def ofWord? (word : List Char) : Option Keyword := all.find? (·.spelling == word)

theorem ofWord?_spelling (keyword : Keyword) : ofWord? keyword.spelling = some keyword := by
  cases keyword <;> rfl

theorem ofWord?_eq_some_iff {word : List Char} {keyword : Keyword} :
    ofWord? word = some keyword ↔ word = keyword.spelling := by
  constructor
  · intro found
    have spelled := List.find?_some found
    exact (beq_iff_eq.mp spelled).symm
  · rintro rfl
    exact ofWord?_spelling keyword

end Keyword

inductive Word.Kind where
  | keyword (keyword : Keyword)
  | number (value : Nat)
  | plain
  deriving DecidableEq, Repr

namespace Word.Kind

def maxNumber : Nat := 18446744073709551615

def ofText (text : List Char) : Kind :=
  match Keyword.ofWord? text with
  | some found => keyword found
  | none =>
      if text.all Char.isDigit && Nat.ofDigitChars 10 text 0 ≤ maxNumber then
        number (Nat.ofDigitChars 10 text 0)
      else plain

def describe : Kind → String
  | keyword found => s!"'{String.ofList found.spelling}'"
  | number _ => "integer"
  | plain => "word"

end Word.Kind

structure Word where
  kind : Word.Kind
  text : List Char
  col : Nat
  deriving DecidableEq, Repr

def Word.ofText (text : List Char) (col : Nat) : Word := ⟨Word.Kind.ofText text, text, col⟩

end NoteClock.Rule
