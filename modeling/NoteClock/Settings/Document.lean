import NoteClock.Settings
import NoteClock.Yaml.Node

/-!
Settings as a YAML document writes them: a mapping from the names of settings to natural numbers. What
is not set keeps its default, and names that are none are passed over.
-/

namespace NoteClock.Settings

inductive Name where
  | interNoteDelay
  | tick
  | noteDuration
  | sampleRate
  deriving DecidableEq, Repr

namespace Name

def spelling : Name → List Char
  | interNoteDelay => "inter_note_delay_ms".toList
  | tick => "tick_ms".toList
  | noteDuration => "note_duration_ms".toList
  | sampleRate => "sample_rate".toList

def all : List Name := [interNoteDelay, tick, noteDuration, sampleRate]

def ofText? (text : List Char) : Option Name := all.find? (·.spelling == text)

/-- The largest number that a document may give: one of 64 bits, and one of 32 bits for the rate. -/
def limit : Name → Nat
  | interNoteDelay | tick | noteDuration => 18446744073709551615
  | sampleRate => 4294967295

def set (name : Name) (value : Nat) (settings : Settings) : Settings :=
  match name with
  | interNoteDelay => { settings with interNoteDelay := value }
  | tick => { settings with tick := value }
  | noteDuration => { settings with noteDuration := value }
  | sampleRate => { settings with sampleRate := value }

end Name

def ofPairs (document : Yaml.Document) (seen : List Name) (settings : Settings) :
    List (Yaml.Node × Yaml.Node) → Option Settings
  | [] => some settings
  | (key, value) :: rest => do
      let key ← document.scalar? key
      match Name.ofText? key.text with
      | none => ofPairs document seen settings rest
      | some name =>
          if name ∈ seen then failure
          let value ← document.scalar? value
          let number ← value.natural? name.limit
          ofPairs document (name :: seen) (name.set number settings) rest

def ofDocument (document : Yaml.Document) : Option Settings :=
  match document.root with
  | none => some default
  | some (.mapping pairs) => ofPairs document [] default pairs
  | some (.scalar scalar) => if scalar.style = .plain && scalar.text.isEmpty then some default else none
  | some _ => none

def ofText? (text : List Char) : Option Settings := (Yaml.readDocument text).bind ofDocument

end NoteClock.Settings
