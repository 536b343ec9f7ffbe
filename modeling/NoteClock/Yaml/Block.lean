import NoteClock.Yaml.Scalar

/-!
Block scalars: text set off by its indentation. A header tells how far the text is indented and what
becomes of the breaks that trail it.
-/

namespace NoteClock.Yaml.Block

inductive Chomping where
  | strip
  | clip
  | keep
  deriving DecidableEq, Repr

/-- `indent` is the written indentation, relative to the enclosing collection. -/
structure Header where
  chomping : Chomping
  indent : Option Nat
  deriving DecidableEq, Repr

def chomping? : Char → Option Chomping
  | '+' => some .keep
  | '-' => some .strip
  | _ => none

def readMarks (header : Header) : List Cell → Option (Header × List Cell)
  | first :: second :: rest =>
      match chomping? first.char, chomping? second.char with
      | some chomping, none =>
          if second.char.isDigit then do
            let indent ← indent? second.char
            some (⟨chomping, some indent⟩, rest)
          else some ({ header with chomping }, second :: rest)
      | some chomping, some _ => some ({ header with chomping }, second :: rest)
      | none, chomping =>
          if first.char.isDigit then do
            let indent ← indent? first.char
            match chomping with
            | some chomping => some (⟨chomping, some indent⟩, rest)
            | none => some ({ header with indent := some indent }, second :: rest)
          else some (header, first :: second :: rest)
  | [only] =>
      match chomping? only.char with
      | some chomping => some ({ header with chomping }, [])
      | none =>
          if only.char.isDigit then do
            let indent ← indent? only.char
            some ({ header with indent := some indent }, [])
          else some (header, [only])
  | [] => some (header, [])
where
  indent? (char : Char) : Option Nat :=
    if char = '0' then none else some (char.toNat - '0'.toNat)

def readLineEnd (cells : List Cell) : Option (List Cell) :=
  let cells := cells.dropWhile (·.isBlank)
  let cells := if cells.head?.any (·.char = '#') then cells.dropWhile (!·.isBreak) else cells
  match cells with
  | [] => some []
  | cell :: rest => if cell.isBreak then some rest else none

inductive Piece where
  | line (blank : Bool)
  | char (char : Char)
  | lineBreak (char : Char)
  | emptyBreak (char : Char)
  deriving DecidableEq, Repr

inductive Place where
  | indentation (widest : Nat)
  | text
  deriving DecidableEq, Repr

/-- The lines of the scalar, and what is left. `indent` is their indentation once it is known, and
`least` the smallest it may be. -/
def readLines (least : Nat) (indent : Option Nat) (place : Place) :
    List Cell → Option (List Piece × List Cell)
  | [] => some ([], [])
  | cell :: rest =>
      match place with
      | .text =>
          if cell.isBreak then do
            let (pieces, after) ← readLines least indent (.indentation 0) rest
            some (.lineBreak cell.char :: pieces, after)
          else do
            let (pieces, after) ← readLines least indent .text rest
            some (.char cell.char :: pieces, after)
      | .indentation widest =>
          let short := indent.all (cell.column < ·)
          if short && cell.char = ' ' then readLines least indent (.indentation widest) rest
          else if short && cell.char = '\t' then none
          else
            let widest := max widest cell.column
            if cell.isBreak then do
              let (pieces, after) ← readLines least indent (.indentation widest) rest
              some (.emptyBreak cell.char :: pieces, after)
            else
              let indent := indent.getD (max widest least)
              if cell.column = indent then do
                let (pieces, after) ← readLines least (some indent) .text rest
                some (.line cell.isBlank :: .char cell.char :: pieces, after)
              else some ([], cell :: rest)

structure Building where
  text : Array Char
  lastBreak : Option Char
  lastBlank : Bool
  empties : Array Char

/-- Where lines are folded, the break between two lines that do not begin with a blank is a space, or
nothing when empty lines stand between them. -/
def Building.add (folded : Bool) (building : Building) : Piece → Building
  | .line blank =>
      let join :=
        if folded && building.lastBreak = some '\n' && !building.lastBlank && !blank then
          if building.empties.isEmpty then [' '] else []
        else building.lastBreak.toList
      ⟨building.text.appendList join ++ building.empties, none, blank, #[]⟩
  | .char char => { building with text := building.text.push char }
  | .lineBreak char => { building with lastBreak := some char }
  | .emptyBreak char => { building with empties := building.empties.push char }

def Building.finish (chomping : Chomping) (building : Building) : List Char :=
  match chomping with
  | .strip => building.text.toList
  | .clip => building.text.toList ++ building.lastBreak.toList
  | .keep => building.text.toList ++ building.lastBreak.toList ++ building.empties.toList

def read (folded : Bool) (parent : Option Nat) (cells : List Cell) :
    Option (List Char × List Cell) := do
  let (header, cells) ← readMarks ⟨.clip, none⟩ cells
  let cells ← readLineEnd cells
  let least := max 1 (parent.elim 0 (· + 1))
  let indent := header.indent.map (parent.getD 0 + ·)
  let (pieces, after) ← readLines least indent (.indentation 0) cells
  let building := pieces.foldl (Building.add folded) ⟨#[], none, false, #[]⟩
  some (building.finish header.chomping, after)

end NoteClock.Yaml.Block
