import NoteClock.Yaml.Block
import NoteClock.Yaml.Flow
import NoteClock.Yaml.Tag

/-!
The lexemes of a YAML text. Block collections are set off by indentation, so their starts and ends are
lexemes that no character spells; and a key is often known as one only when its colon comes up, so the
lexeme that announces it is put in front of it afterwards.
-/

namespace NoteClock.Yaml

inductive Lexeme where
  | directive (directive : Directive)
  | documentStart
  | documentEnd
  | blockSequence
  | blockMapping
  | blockEnd
  | flowSequence
  | flowSequenceEnd
  | flowMapping
  | flowMappingEnd
  | blockEntry
  | flowEntry
  | key
  | value
  | alias (name : List Char)
  | anchor (name : List Char)
  | tag (tag : Tag)
  | scalar (style : Style) (text : List Char)
  deriving DecidableEq, Repr

/-- A lexeme that may turn out to be a key: its place among the lexemes and in the text. A required one
stands where only a key can. -/
structure Candidate where
  place : Nat
  mark : Mark
  required : Bool

/-- `indents` holds the columns of the open block collections, the innermost first. `candidate` belongs
to the innermost open bracket, `outer` to those around it. -/
structure Scanner where
  cells : List Cell
  lexemes : Array Lexeme
  indents : List Nat
  candidate : Option Candidate
  outer : List (Option Candidate)
  keyAllowed : Bool

namespace Scanner

def start (cells : List Cell) : Scanner := ⟨cells, #[], [], none, [], true⟩

def inFlow (scanner : Scanner) : Bool := !scanner.outer.isEmpty

def textIndent (scanner : Scanner) : Nat := scanner.indents.head?.elim 0 (· + 1)

def emit (scanner : Scanner) (lexeme : Lexeme) : Scanner :=
  { scanner with lexemes := scanner.lexemes.push lexeme }

def skip (scanner : Scanner) (count : Nat) : Scanner :=
  { scanner with cells := scanner.cells.drop count }

/-- The text from the next lexeme on, and whether a line has begun on the way. Tabs are skipped where
they do not stand for indentation. `inComment` says that a comment runs to the end of the line. -/
def skipGap (inFlow : Bool) (inComment fresh : Bool) : List Cell → List Cell × Bool
  | [] => ([], fresh)
  | cell :: rest =>
      if cell.isBreak then skipGap inFlow false (fresh || !inFlow) rest
      else if inComment then skipGap inFlow true fresh rest
      else if cell.char = '\uFEFF' && cell.column = 0 then skipGap inFlow false fresh rest
      else if cell.char = ' ' then skipGap inFlow false fresh rest
      else if cell.char = '\t' && (inFlow || !fresh) then skipGap inFlow false fresh rest
      else if cell.char = '#' then skipGap inFlow true fresh rest
      else (cell :: rest, fresh)

def toNext (scanner : Scanner) : Scanner :=
  let (cells, fresh) := skipGap scanner.inFlow false scanner.keyAllowed scanner.cells
  { scanner with cells := cells, keyAllowed := fresh }

def maxKeyLength : Nat := 1024

def refreshCandidate (mark : Mark) : Option Candidate → Option (Option Candidate)
  | none => some none
  | some candidate =>
      if candidate.mark.line < mark.line || candidate.mark.index + maxKeyLength < mark.index then
        if candidate.required then none else some none
      else some (some candidate)

def refresh (scanner : Scanner) (mark : Mark) : Option Scanner := do
  let candidate ← refreshCandidate mark scanner.candidate
  let outer ← scanner.outer.mapM (refreshCandidate mark)
  some { scanner with candidate, outer }

def dropCandidate (scanner : Scanner) : Option Scanner :=
  if scanner.candidate.any (·.required) then none else some { scanner with candidate := none }

def addCandidate (scanner : Scanner) (mark : Mark) : Option Scanner :=
  if scanner.keyAllowed then do
    let scanner ← scanner.dropCandidate
    let required := !scanner.inFlow && scanner.indents.head? = some mark.column
    some { scanner with candidate := some ⟨scanner.lexemes.size, mark, required⟩ }
  else some scanner

def unindent (scanner : Scanner) (column : Option Nat) : Scanner :=
  if scanner.inFlow then scanner
  else
    let ends := scanner.indents.takeWhile fun indent => column.all (· < indent)
    { scanner with
      lexemes := scanner.lexemes ++ ends.map fun _ => Lexeme.blockEnd
      indents := scanner.indents.drop ends.length }

def indent (scanner : Scanner) (column place : Nat) (lexeme : Lexeme) : Scanner :=
  if scanner.inFlow || scanner.indents.head?.any (column ≤ ·) then scanner
  else
    { scanner with
      lexemes := scanner.lexemes.insertIdxIfInBounds place lexeme
      indents := column :: scanner.indents }

def readBlockIndicator (scanner : Scanner) (column : Nat) (collection lexeme : Lexeme) :
    Option Scanner := do
  if !scanner.inFlow && !scanner.keyAllowed then failure
  let scanner := scanner.indent column scanner.lexemes.size collection
  let scanner ← scanner.dropCandidate
  some ((scanner.emit lexeme).skip 1)

def readBlockEntry (scanner : Scanner) (column : Nat) : Option Scanner := do
  let scanner ← scanner.readBlockIndicator column .blockSequence .blockEntry
  some { scanner with keyAllowed := true }

def readKey (scanner : Scanner) (column : Nat) : Option Scanner := do
  let scanner ← scanner.readBlockIndicator column .blockMapping .key
  some { scanner with keyAllowed := !scanner.inFlow }

def readValue (scanner : Scanner) (column : Nat) : Option Scanner :=
  match scanner.candidate with
  | some candidate =>
      let lexemes := scanner.lexemes.insertIdxIfInBounds candidate.place .key
      let scanner := { scanner with lexemes := lexemes, candidate := none, keyAllowed := false }
      let scanner := scanner.indent candidate.mark.column candidate.place .blockMapping
      some ((scanner.emit .value).skip 1)
  | none => do
      if !scanner.inFlow && !scanner.keyAllowed then failure
      let scanner := scanner.indent column scanner.lexemes.size .blockMapping
      some (({ scanner with keyAllowed := !scanner.inFlow }.emit .value).skip 1)

def openFlow (scanner : Scanner) (mark : Mark) (lexeme : Lexeme) : Option Scanner := do
  let scanner ← scanner.addCandidate mark
  let scanner := { scanner with
    candidate := none, outer := scanner.candidate :: scanner.outer, keyAllowed := true }
  some ((scanner.emit lexeme).skip 1)

def closeFlow (scanner : Scanner) (lexeme : Lexeme) : Option Scanner := do
  let scanner ← scanner.dropCandidate
  let scanner := match scanner.outer with
    | [] => scanner
    | candidate :: outer => { scanner with candidate, outer }
  some (({ scanner with keyAllowed := false }.emit lexeme).skip 1)

def readFlowEntry (scanner : Scanner) : Option Scanner := do
  let scanner ← scanner.dropCandidate
  some (({ scanner with keyAllowed := true }.emit .flowEntry).skip 1)

def readDocumentMark (scanner : Scanner) (lexeme : Lexeme) : Option Scanner := do
  let scanner ← (scanner.unindent none).dropCandidate
  some (({ scanner with keyAllowed := false }.emit lexeme).skip 3)

def readDirective (scanner : Scanner) : Option Scanner := do
  let scanner ← (scanner.unindent none).dropCandidate
  let (directive, cells) ← Directive.read (scanner.cells.drop 1)
  let cells ← Block.readLineEnd cells
  some ({ scanner with cells := cells, keyAllowed := false }.emit (.directive directive))

def endsName (cells : List Cell) : Bool :=
  atGap cells || cells.head?.any fun cell => "?:,]\x7d%@\x60".toList.contains cell.char

def readContent (scanner : Scanner) (mark : Mark)
    (read : List Cell → Option (Lexeme × List Cell)) : Option Scanner := do
  let scanner ← scanner.addCandidate mark
  let (lexeme, cells) ← read scanner.cells
  some ({ scanner with cells := cells, keyAllowed := false }.emit lexeme)

def readName (toLexeme : List Char → Lexeme) (cells : List Cell) : Option (Lexeme × List Cell) :=
  let name := ((cells.drop 1).takeWhile (isName ·.char)).map (·.char)
  let after := (cells.drop 1).dropWhile (isName ·.char)
  if name = [] || !endsName after then none else some (toLexeme name, after)

def readTag (inFlow : Bool) (cells : List Cell) : Option (Lexeme × List Cell) := do
  let (tag, after) ← Tag.read cells
  if atGap after || (inFlow && after.head?.any (·.char = ',')) then some (.tag tag, after)
  else failure

def readSingle (cells : List Cell) : Option (Lexeme × List Cell) := do
  let (pieces, after) ← readSingleQuoted (cells.drop 1)
  some (.scalar .quoted (foldQuoted pieces), after)

def readDouble (cells : List Cell) : Option (Lexeme × List Cell) := do
  let (pieces, after) ← readDoubleQuoted .none (cells.drop 1)
  some (.scalar .quoted (foldQuoted pieces), after)

def readBlockText (scanner : Scanner) (style : Style) : Option Scanner := do
  let scanner ← scanner.dropCandidate
  let (text, cells) ← Block.read (style = .folded) scanner.indents.head? (scanner.cells.drop 1)
  some ({ scanner with cells := cells, keyAllowed := true }.emit (.scalar style text))

def readPlainText (scanner : Scanner) (mark : Mark) : Option Scanner := do
  let scanner ← scanner.addCandidate mark
  let (pieces, cells, broken) ← readPlain scanner.inFlow scanner.textIndent .none scanner.cells
  some ({ scanner with cells := cells, keyAllowed := broken }.emit (.scalar .plain (foldPlain pieces)))

def beginsPlain (inFlow : Bool) (cell : Cell) (rest : List Cell) : Bool :=
  !(cell.isBlank || "-?:,[]\x7b\x7d#&*!|>'\"%@\x60".toList.contains cell.char)
    || (cell.char = '-' && !rest.head?.any (·.isBlank))
    || (!inFlow && (cell.char = '?' || cell.char = ':') && !atGap rest)

def readLexeme (scanner : Scanner) (cell : Cell) (rest : List Cell) : Option Scanner :=
  let indicated := scanner.inFlow || atGap rest
  if cell.column = 0 && cell.char = '%' then scanner.readDirective
  else if atFence '-' scanner.cells then scanner.readDocumentMark .documentStart
  else if atFence '.' scanner.cells then scanner.readDocumentMark .documentEnd
  else
    match cell.char with
    | '[' => scanner.openFlow cell.mark .flowSequence
    | '{' => scanner.openFlow cell.mark .flowMapping
    | ']' => scanner.closeFlow .flowSequenceEnd
    | '}' => scanner.closeFlow .flowMappingEnd
    | ',' => scanner.readFlowEntry
    | '*' => scanner.readContent cell.mark (readName .alias)
    | '&' => scanner.readContent cell.mark (readName .anchor)
    | '!' => scanner.readContent cell.mark (readTag scanner.inFlow)
    | '\'' => scanner.readContent cell.mark readSingle
    | '"' => scanner.readContent cell.mark readDouble
    | char =>
        if char = '-' && atGap rest then scanner.readBlockEntry cell.column
        else if char = '?' && indicated then scanner.readKey cell.column
        else if char = ':' && indicated then scanner.readValue cell.column
        else if char = '|' && !scanner.inFlow then scanner.readBlockText .literal
        else if char = '>' && !scanner.inFlow then scanner.readBlockText .folded
        else if beginsPlain scanner.inFlow cell rest then scanner.readPlainText cell.mark
        else none

def finish (scanner : Scanner) : Option (Array Lexeme) := do
  let scanner ← (scanner.unindent none).dropCandidate
  some scanner.lexemes

/-- Reads up to `steps` lexemes, and then expects the end of the text. -/
def run : Nat → Scanner → Option (Array Lexeme)
  | 0, _ => none
  | steps + 1, scanner => do
      let scanner := scanner.toNext
      match scanner.cells with
      | [] => scanner.finish
      | cell :: rest =>
          let scanner ← scanner.refresh cell.mark
          let scanner ← (scanner.unindent (some cell.column)).readLexeme cell rest
          run steps scanner

end Scanner

def Lexeme.ofText (text : List Char) : Option (List Lexeme) := do
  if !text.all isAllowed then failure
  let lexemes ← (Scanner.start (Cell.ofText .origin text)).run (text.length + 1)
  some lexemes.toList

end NoteClock.Yaml
