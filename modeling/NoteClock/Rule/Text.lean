import NoteClock.Rule.Clause

/-!
Whole rule texts, one rule a line. A text compiles when each of its lines does; otherwise its first bad
line is reported and nothing is kept.
-/

namespace NoteClock.Rule

structure TextError where
  index : Nat
  text : List Char
  error : LineError
  deriving DecidableEq, Repr

def TextError.message (error : TextError) : String :=
  s!"invalid rule at line {error.index}, column {error.error.col}: {error.error.message}\n"
    ++ String.ofList error.text

def isTerminator (char : Char) : Bool := char = '\n' || char = '\r'

def chompReturn (line : List Char) : List Char :=
  if line.getLast? = some '\r' then line.dropLast else line

/-- The lines of a text. Line ends after the last line are dropped, while an empty line in front of
another is kept, so that it is refused. -/
def lines (text : List Char) : List (List Char) :=
  ((text.reverse.dropWhile isTerminator).reverse.splitOn '\n').map chompReturn

def compileNumbered (line : List Char × Nat) : Except TextError Command :=
  (compileLine line.1).mapError fun error => ⟨line.2, line.1, error⟩

def compile (text : List Char) : Except TextError (List Command) :=
  (lines text).zipIdx.mapM compileNumbered

end NoteClock.Rule
