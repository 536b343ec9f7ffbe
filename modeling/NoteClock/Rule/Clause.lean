import NoteClock.Command
import NoteClock.Rule.Line

/-!
The grammar of a rule line.

    rule      := trigger " " timestamp " play " notes (" " mode)?
    trigger   := "at" | "every"
    notes     := note ("," note)*
    mode      := "scale" | "arpeggio" | "repeat" (" " digits)?

A line is refused at the first word that does not fit.
-/

namespace NoteClock.Rule

inductive TriggerWord where
  | once
  | every
  deriving DecidableEq, Repr

inductive ModeClause where
  | scale
  | arpeggio
  | stack (count : Option Nat)
  deriving DecidableEq, Repr

structure Clauses where
  trigger : TriggerWord
  millis : Nat
  timestampCol : Nat
  notes : List Note
  mode : Option ModeClause
  deriving DecidableEq, Repr

def maxCount : Nat := 4294967295

def Word.isOperand (word : Word) : Bool :=
  match word.kind with
  | .keyword _ => false
  | .number _ | .plain => true

namespace Line

def readTrigger (line : Line) : Except LineError TriggerWord :=
  match line.words with
  | [] => .error ⟨.blankLine, line.endCol⟩
  | word :: _ =>
      match word.kind with
      | .keyword .once => .ok .once
      | .keyword .every => .ok .every
      | _ => .error ⟨.notATrigger word.text, word.col⟩

def operand? (line : Line) : Option Word := line.words.head?.filter Word.isOperand

def readTimestamp (line : Line) : Except LineError Nat :=
  match line.operand? with
  | none => .error ⟨.notATimestamp line.found, line.col⟩
  | some word =>
      match Timestamp.parse word.text with
      | .ok millis => .ok millis
      | .error error => .error ⟨.timestamp error.cause, word.col + error.before.length⟩

def readPlay (line : Line) : Except LineError Unit :=
  if line.words.head?.any (·.kind = .keyword .play) then .ok ()
  else .error ⟨.notPlay line.found, line.col⟩

/-- Reads the items of a note list, the first of which starts in column `col`. -/
def readItems (col : Nat) : List (List Char) → Except LineError (List Note)
  | [] => .ok []
  | item :: rest =>
      match Note.parse item with
      | .error cause => .error ⟨.badNote item cause, col⟩
      | .ok note => do
          let notes ← readItems (col + item.length + 1) rest
          return note :: notes

def readNotes (line : Line) : Except LineError (List Note) :=
  match line.operand? with
  | none => .error ⟨.notANoteList line.found, line.col⟩
  | some word =>
      if word.text.getLast? = some ',' then
        .error ⟨.trailingComma, word.col + (word.text.length - 1)⟩
      else readItems word.col (word.text.splitOn ',')

def readPlainMode (line : Line) (mode : ModeClause) : Except LineError (Option ModeClause × Line) :=
  match line.words with
  | word :: ⟨.number _, _, col⟩ :: _ => .error ⟨.countWithoutStack word.text, col⟩
  | _ => .ok (some mode, line.drop 1)

def readCount (line : Line) : Except LineError (Option ModeClause × Line) :=
  match line.words with
  | ⟨.number value, _, col⟩ :: _ =>
      if value = 0 then .error ⟨.zeroCount, col⟩
      else if maxCount < value then .error ⟨.hugeCount, col⟩
      else .ok (some (.stack (some value)), line.drop 1)
  | _ => .ok (some (.stack none), line)

def readMode (line : Line) : Except LineError (Option ModeClause × Line) :=
  match line.words with
  | [] => .ok (none, line)
  | word :: _ =>
      match word.kind with
      | .keyword .scale => line.readPlainMode .scale
      | .keyword .arpeggio => line.readPlainMode .arpeggio
      | .keyword .stack => (line.drop 1).readCount
      | _ => .error ⟨.notAMode word.text, word.col⟩

def readEnd (line : Line) : Except LineError Unit :=
  match line.words with
  | [] => .ok ()
  | word :: _ => .error ⟨.surplus word.text, word.col⟩

def readClauses (line : Line) : Except LineError Clauses := do
  let trigger ← line.readTrigger
  let millis ← (line.drop 1).readTimestamp
  (line.drop 2).readPlay
  let notes ← (line.drop 3).readNotes
  let (mode, rest) ← (line.drop 4).readMode
  rest.readEnd
  return ⟨trigger, millis, (line.drop 1).col, notes, mode⟩

end Line

def Clauses.parse (text : List Char) : Except LineError Clauses := do
  (← Line.read text).readClauses

/-- Without a mode clause, and without a count, a chord is stacked once. -/
def ModeClause.meaning : Option ModeClause → PlayMode
  | some .scale => .scale
  | some .arpeggio => .arpeggio
  | some (.stack count) => .stack (count.getD 1)
  | none => .stack 1

def Clauses.command (clauses : Clauses) : Except LineError Command :=
  match clauses.trigger with
  | .once => .ok (.once clauses.millis clauses.notes)
  | .every =>
      if clauses.millis = 0 then .error ⟨.zeroPeriod, clauses.timestampCol⟩
      else .ok (.every clauses.millis clauses.notes (ModeClause.meaning clauses.mode))

def compileLine (text : List Char) : Except LineError Command := do
  (← Clauses.parse text).command

end NoteClock.Rule
