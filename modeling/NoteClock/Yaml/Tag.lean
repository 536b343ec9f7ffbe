import NoteClock.Yaml.Scalar

/-!
Tags and directives. A tag is written whole between angle brackets, or as a handle and a suffix; a
directive says what a handle stands for. Since bytes of a tag may be escaped one by one, tags are rows of
bytes, which need not be UTF-8.
-/

namespace NoteClock.Yaml

structure Tag where
  handle : List Char
  suffix : List UInt8
  deriving DecidableEq, Repr

inductive Directive where
  | version (major minor : Nat)
  | handle (handle : List Char) (expansion : List UInt8)
  deriving DecidableEq, Repr

namespace Tag

def isUri (bracketed : Bool) (char : Char) : Bool :=
  isName char || ";/?:@&=+$.!~*'()".toList.contains char ||
    (bracketed && (char = ',' || char = '[' || char = ']'))

def readByte : List Cell → Option (Nat × List Cell)
  | percent :: high :: low :: rest => do
      if percent.char ≠ '%' then failure
      let value ← readDigits 16 255 [high.char, low.char]
      some (value, rest)
  | _ => none

def byteLength? (first : Nat) : Option Nat :=
  if first < 0x80 then some 1
  else if first / 32 = 6 then some 2
  else if first / 16 = 14 then some 3
  else if first / 8 = 30 then some 4
  else none

def readTrailingBytes : Nat → List Cell → Option (List UInt8 × List Cell)
  | 0, cells => some ([], cells)
  | count + 1, cells => do
      let (value, cells) ← readByte cells
      if value / 64 ≠ 2 then failure
      let (bytes, after) ← readTrailingBytes count cells
      some (value.toUInt8 :: bytes, after)

def readEscapedChar (cells : List Cell) : Option (List UInt8 × List Cell) := do
  let (first, cells) ← readByte cells
  let length ← byteLength? first
  let (bytes, after) ← readTrailingBytes (length - 1) cells
  some (first.toUInt8 :: bytes, after)

def readUri (bracketed : Bool) : Nat → List Cell → Option (List UInt8 × List Cell)
  | 0, cells => some ([], cells)
  | _ + 1, [] => some ([], [])
  | steps + 1, cell :: rest =>
      if cell.char = '%' then do
        let (bytes, after) ← readEscapedChar (cell :: rest)
        let (more, after) ← readUri bracketed steps after
        some (bytes ++ more, after)
      else if isUri bracketed cell.char then do
        let (more, after) ← readUri bracketed steps rest
        some (asciiBytes [cell.char] ++ more, after)
      else some ([], cell :: rest)

def readWholeUri (bracketed : Bool) (cells : List Cell) : Option (List UInt8 × List Cell) :=
  readUri bracketed cells.length cells

def untilZero (bytes : List UInt8) : List UInt8 := bytes.takeWhile (· ≠ 0)

def unspecific : Tag := ⟨[], asciiBytes ['!']⟩

def readHandle (cells : List Cell) : Option (List Char × List Cell) :=
  match cells with
  | [] => none
  | first :: rest =>
      if first.char ≠ '!' then none
      else
        let name := (rest.takeWhile (isName ·.char)).map (·.char)
        match rest.dropWhile (isName ·.char) with
        | [] => some ('!' :: name, [])
        | last :: after =>
            if last.char = '!' then some ('!' :: name ++ ['!'], after)
            else some ('!' :: name, last :: after)

def read (cells : List Cell) : Option (Tag × List Cell) := do
  match cells with
  | _ :: ⟨'<', _⟩ :: rest =>
      let (uri, after) ← readWholeUri true rest
      match after with
      | ⟨'>', _⟩ :: after => if uri = [] then failure else some (⟨[], untilZero uri⟩, after)
      | _ => failure
  | _ =>
      let (handle, after) ← readHandle cells
      if handle.length ≥ 2 && handle.getLast? = some '!' then
        let (suffix, after) ← readWholeUri false after
        if suffix = [] then failure else some (⟨handle, untilZero suffix⟩, after)
      else
        let (more, after) ← readWholeUri false after
        match untilZero (asciiBytes (handle.drop 1) ++ more) with
        | [] => some (unspecific, after)
        | suffix => some (⟨['!'], suffix⟩, after)

end Tag

namespace Directive

def readNumber (cells : List Cell) : Option (Nat × List Cell) :=
  let digits := cells.takeWhile (·.char.isDigit)
  if digits = [] || 9 < digits.length then none
  else some (Nat.ofDigitChars 10 (digits.map (·.char)) 0, cells.dropWhile (·.char.isDigit))

def readVersion (cells : List Cell) : Option (Directive × List Cell) := do
  let (major, cells) ← readNumber cells
  match cells with
  | ⟨'.', _⟩ :: cells =>
      let (minor, cells) ← readNumber cells
      some (version major minor, cells)
  | _ => failure

def readExpansion (cells : List Cell) : Option (Directive × List Cell) := do
  let (name, cells) ← Tag.readHandle cells
  if name ≠ ['!'] && name.getLast? ≠ some '!' then failure
  if !cells.head?.any (·.isBlank) then failure
  let (expansion, cells) ← Tag.readWholeUri true (cells.dropWhile (·.isBlank))
  if expansion = [] || !atGap cells then failure
  some (handle name (Tag.untilZero expansion), cells)

def read (cells : List Cell) : Option (Directive × List Cell) := do
  let name := (cells.takeWhile (isName ·.char)).map (·.char)
  let cells := cells.dropWhile (isName ·.char)
  if !atGap cells then failure
  let cells := cells.dropWhile (·.isBlank)
  if name = ['Y', 'A', 'M', 'L'] then readVersion cells
  else if name = ['T', 'A', 'G'] then readExpansion cells
  else failure

end Directive

end NoteClock.Yaml
