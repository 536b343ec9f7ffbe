import NoteClock.Yaml.Lexeme

/-!
The nodes of a YAML document, put together from its lexemes. A node that is left out is an empty
scalar. An anchor is numbered by how many names there are before it, so that one which takes a name again
shares its number with the next new name; and an alias stands for the last node of its number.
-/

namespace NoteClock.Yaml

inductive Node where
  | scalar (scalar : Scalar)
  | sequence (items : List Node)
  | mapping (pairs : List (Node × Node))
  | alias (number : Nat)

/-- A document with its numbered nodes, the latest first. Those that are no scalars are left out. -/
structure Document where
  root : Option Node
  numbered : List (Nat × Option Scalar)

def Document.scalar? (document : Document) : Node → Option Scalar
  | .scalar scalar => some scalar
  | .alias number => (document.numbered.lookup number).join
  | .sequence _ | .mapping _ => none

/-- `anchors` holds the number of each name, the latest first, and `names` counts different names. -/
structure Reader where
  lexemes : List Lexeme
  anchors : List (List Char × Nat)
  names : Nat
  numbered : List (Nat × Option Scalar)
  handles : List (List Char × List UInt8)

abbrev Read := StateT Reader Option

structure Properties where
  anchor : Option (List Char)
  tag : Option (List UInt8)

namespace Read

def peek : Read (Option Lexeme) := do return (← get).lexemes.head?

def skip : Read Unit := modify fun reader => { reader with lexemes := reader.lexemes.tail }

def accept (lexeme : Lexeme) : Read Bool := do
  if (← peek) = some lexeme then
    skip
    return true
  else return false

def sees (lexemes : List Lexeme) : Read Bool := do
  return (← peek).any lexemes.contains

def expand (handle : List Char) : Read (List UInt8) := do
  match (← get).handles.lookup handle with
  | some expansion => return expansion
  | none =>
      if handle = ['!'] then return asciiBytes ['!']
      else if handle = ['!', '!'] then return asciiBytes "tag:yaml.org,2002:".toList
      else failure

def fullTag (tag : Tag) : Read (List UInt8) := do
  if tag.handle = [] then return tag.suffix
  else return (← expand tag.handle) ++ tag.suffix

def properties : Read Properties := do
  match ← peek with
  | some (.anchor name) =>
      skip
      match ← peek with
      | some (.tag tag) =>
          skip
          return ⟨some name, some (← fullTag tag)⟩
      | _ => return ⟨some name, none⟩
  | some (.tag tag) =>
      skip
      match ← peek with
      | some (.anchor name) =>
          skip
          return ⟨some name, some (← fullTag tag)⟩
      | _ => return ⟨none, some (← fullTag tag)⟩
  | _ => return ⟨none, none⟩

def setAnchor (name : Option (List Char)) (scalar : Option Scalar) : Read Unit :=
  match name with
  | none => return
  | some name => modify fun reader => { reader with
      anchors := (name, reader.names) :: reader.anchors
      names := if (reader.anchors.lookup name).isSome then reader.names else reader.names + 1
      numbered := (reader.names, scalar) :: reader.numbered }

def empty : Node := .scalar ⟨.plain, [], none⟩

def resolve (name : List Char) : Read Node := do
  match (← get).anchors.lookup name with
  | some number => return .alias number
  | none => failure

def scalar (properties : Properties) (style : Style) (text : List Char) : Read Node := do
  let scalar : Scalar := ⟨style, text, properties.tag⟩
  setAnchor properties.anchor (some scalar)
  return .scalar scalar

inductive Place where
  | flow
  | block
  | blockPair
  deriving DecidableEq

def bare (properties : Properties) : Read Node :=
  if properties.anchor.isSome || properties.tag.isSome then scalar properties .plain [] else failure

mutual

def node (depth : Nat) (place : Place) : Read Node :=
  match depth with
  | 0 => failure
  | depth + 1 => do
      if let some (.alias name) ← peek then
        skip
        return ← resolve name
      let properties ← properties
      match ← peek with
      | some (.scalar style text) =>
          skip
          scalar properties style text
      | some .flowSequence =>
          setAnchor properties.anchor none
          skip
          return .sequence (← flowItems depth true)
      | some .flowMapping =>
          setAnchor properties.anchor none
          skip
          return .mapping (← flowPairs depth true)
      | some .blockSequence =>
          if place = .flow then bare properties
          else
            setAnchor properties.anchor none
            skip
            return .sequence (← blockItems depth)
      | some .blockMapping =>
          if place = .flow then bare properties
          else
            setAnchor properties.anchor none
            skip
            return .mapping (← blockPairs depth)
      | some .blockEntry =>
          if place = .blockPair then
            setAnchor properties.anchor none
            return .sequence (← bareItems depth)
          else bare properties
      | _ => bare properties

def optional (depth : Nat) (place : Place) (followers : List Lexeme) : Read Node :=
  match depth with
  | 0 => failure
  | depth + 1 => do
      if ← sees followers then return empty
      else node depth place

def blockItems (depth : Nat) : Read (List Node) :=
  match depth with
  | 0 => failure
  | depth + 1 => do
      if ← accept .blockEntry then
        let item ← optional depth .block [.blockEntry, .blockEnd]
        return item :: (← blockItems depth)
      else if ← accept .blockEnd then return []
      else failure

def bareItems (depth : Nat) : Read (List Node) :=
  match depth with
  | 0 => failure
  | depth + 1 => do
      if ← accept .blockEntry then
        let item ← optional depth .block [.blockEntry, .key, .value, .blockEnd]
        return item :: (← bareItems depth)
      else return []

def blockPairs (depth : Nat) : Read (List (Node × Node)) :=
  match depth with
  | 0 => failure
  | depth + 1 => do
      let followers := [.key, .value, .blockEnd]
      if ← accept .key then
        let key ← optional depth .blockPair followers
        let value ← if ← accept .value then optional depth .blockPair followers else pure empty
        return (key, value) :: (← blockPairs depth)
      else if ← accept .blockEnd then return []
      else failure

def flowItems (depth : Nat) (first : Bool) : Read (List Node) :=
  match depth with
  | 0 => failure
  | depth + 1 => do
      if ← accept .flowSequenceEnd then return []
      if !first then
        if !(← accept .flowEntry) then failure
        if ← accept .flowSequenceEnd then return []
      let item ←
        if ← accept .key then
          let pair ← flowPair depth
          pure (.mapping [pair])
        else node depth .flow
      return item :: (← flowItems depth false)

def flowPair (depth : Nat) : Read (Node × Node) :=
  match depth with
  | 0 => failure
  | depth + 1 => do
      let key ←
        if ← sees [.value, .flowEntry, .flowSequenceEnd] then
          skip
          pure empty
        else node depth .flow
      let value ←
        if ← accept .value then optional depth .flow [.flowEntry, .flowSequenceEnd]
        else pure empty
      return (key, value)

def flowPairs (depth : Nat) (first : Bool) : Read (List (Node × Node)) :=
  match depth with
  | 0 => failure
  | depth + 1 => do
      if ← accept .flowMappingEnd then return []
      if !first then
        if !(← accept .flowEntry) then failure
        if ← accept .flowMappingEnd then return []
      let pair ←
        if ← accept .key then
          let key ← optional depth .flow [.value, .flowEntry, .flowMappingEnd]
          let value ←
            if ← accept .value then optional depth .flow [.flowEntry, .flowMappingEnd]
            else pure empty
          pure (key, value)
        else do
          let key ← node depth .flow
          pure (key, empty)
      return pair :: (← flowPairs depth false)

end

def directives (versioned : Bool) : List Lexeme → Read Unit
  | .directive (.version major minor) :: rest => do
      if versioned || major ≠ 1 || (minor ≠ 1 && minor ≠ 2) then failure
      skip
      directives true rest
  | .directive (.handle handle expansion) :: rest => do
      if ((← get).handles.lookup handle).isSome then failure
      skip
      modify fun reader => { reader with handles := (handle, expansion) :: reader.handles }
      directives versioned rest
  | _ => return

def isDirective : Lexeme → Bool
  | .directive _ => true
  | _ => false

def root (depth : Nat) : Read Node := do
  let lexeme ← peek
  if lexeme.any isDirective || lexeme = some .documentStart then
    directives false (← get).lexemes
    if !(← accept .documentStart) then failure
    let next ← peek
    if next.all fun lexeme => isDirective lexeme || [.documentStart, .documentEnd].contains lexeme then
      return empty
    else node depth .block
  else node depth .block

def finish : Read Unit := do
  if (← get).lexemes.all (· = .documentEnd) then return else failure

def document : Read Document := do
  let lexemes := (← get).lexemes
  if lexemes = [] then return ⟨none, []⟩
  let node ← root (4 * lexemes.length + 4)
  finish
  return ⟨some node, (← get).numbered⟩

end Read

def readDocument (text : List Char) : Option Document := do
  let lexemes ← Lexeme.ofText text
  let (document, _) ← Read.document.run ⟨lexemes, [], 0, [], []⟩
  some document

end NoteClock.Yaml
