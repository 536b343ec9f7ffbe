import NoteClock.Proofs.Guarded.Parser
import NoteClock.Proofs.Timeline.Compiled

/-!
Rule texts compiled with all their operations guarded. Each line is cut into tokens, the tokens are
read, and a command is made of what they say, which is only made with notes. None of this is ever
trapped.
-/

namespace NoteClock

def Halt.map {ε δ : Type} (wrap : ε → δ) : Halt ε → Halt δ
  | refused error => refused (wrap error)
  | trapped trap => trapped trap

namespace Guarded

variable {ε δ α β : Type}

def asserted (command : Command) : Guarded ε Command :=
  match command.checked with
  | .ok made => .ok made
  | .error .noNotes => trap .noNotes

def compileLine (line : List Char) : Guarded Rule.LineError Command := do
  let tokens ← tokenize line
  let clauses ← parseClauses tokens
  let command ← of clauses.command
  asserted command

def compileNumbered (line : List Char × Nat) : Guarded Rule.TextError Command :=
  (compileLine line.1).mapError (Halt.map fun error => ⟨line.2, line.1, error⟩)

def compile (text : List Char) : Guarded Rule.TextError (List Command) :=
  (Rule.lines text).zipIdx.mapM compileNumbered

def ofText (text : List Char) (spacing : Nat) : Guarded Rule.TextError RuleSet := do
  return ⟨← compile text, spacing⟩

theorem asserted_of_notes {command : Command} (nonempty : command.notes ≠ []) :
    (asserted command : Guarded ε Command) = .ok command := by
  rw [asserted, Command.checked, if_neg nonempty]

theorem mapError_of (result : Except ε α) (wrap : ε → δ) :
    (of result).mapError (Halt.map wrap) = of (result.mapError wrap) := by
  cases result <;> rfl

theorem mapM_of (step : α → Except ε β) (items : List α) :
    (items.mapM fun item => of (step item)) = of (items.mapM step) := by
  induction items with
  | nil => rfl
  | cons item items ih =>
      rw [List.mapM_cons, List.mapM_cons, of_bind, ih]
      cases step item with
      | error => rfl
      | ok value => cases items.mapM step <;> rfl

theorem compileLine_of_read {line : List Char} {cut : Rule.Line}
    (read : Rule.Line.read line = .ok cut) :
    compileLine line = of (Rule.compileLine line) >>= asserted := by
  rw [compileLine, tokenize_eq, tokenize_eq_map, read, Rule.compileLine, Rule.Clauses.parse, read]
  change (parseClauses cut.tokens >>= fun clauses => of clauses.command >>= asserted) =
    of (cut.readClauses >>= Rule.Clauses.command) >>= asserted
  rw [parseClauses_eq, of_bind]
  cases cut.readClauses <;> rfl

theorem compileLine_eq (line : List Char) : compileLine line = of (Rule.compileLine line) := by
  cases read : Rule.Line.read line with
  | error error =>
      rw [compileLine, tokenize_eq, tokenize_eq_map, Rule.compileLine, Rule.Clauses.parse, read]
      rfl
  | ok cut =>
      rw [compileLine_of_read read]
      cases compiled : Rule.compileLine line with
      | error => rfl
      | ok command => exact asserted_of_notes (Rule.fresh_of_compileLine compiled).sound.notes_ne_nil

theorem compile_eq (text : List Char) : compile text = of (Rule.compile text) := by
  have numbered : compileNumbered = fun line => of (Rule.compileNumbered line) := by
    funext line
    rw [compileNumbered, compileLine_eq, mapError_of]
    rfl
  rw [compile, numbered, mapM_of]
  rfl

/-- Whatever the text, no operation of its compilation is trapped, and what it comes to is what it
comes to without guards. -/
theorem compilation_is_never_trapped (text : List Char) (spacing : Nat) :
    ofText text spacing = of (RuleSet.ofText text spacing) ∧
      ∀ trap, ofText text spacing ≠ .error (.trapped trap) := by
  have same : ofText text spacing = of (RuleSet.ofText text spacing) := by
    rw [ofText, compile_eq, RuleSet.ofText]
    cases Rule.compile text <;> rfl
  refine ⟨same, fun trap => ?_⟩
  rw [same]
  exact of_ne_trapped _ trap

end Guarded

end NoteClock
