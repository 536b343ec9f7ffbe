import Mathlib.Data.List.Forall2
import NoteClock.Proofs.Spelling.Lines
import NoteClock.Proofs.Spelling.Reading

/-!
Whole rule texts. A text stands for the commands of its lines, or for the fault of its first bad line,
and a text in two parts stands for what its parts do.
-/

namespace NoteClock.Rule

def compileFrom (start : Nat) (lines : List (List Char)) : Except TextError (List Command) :=
  (lines.zipIdx start).mapM compileNumbered

theorem compileFrom_cons_of_error {line : List Char} {error : LineError}
    (refused : compileLine line = .error error) (start : Nat) (rest : List (List Char)) :
    compileFrom start (line :: rest) = .error ⟨start, line, error⟩ := by
  rw [compileFrom, List.zipIdx_cons, List.mapM_cons, compileNumbered, refused]
  rfl

theorem compileFrom_cons_eq_ok_iff {line : List Char} {rest : List (List Char)} {start : Nat}
    {commands : List Command} :
    compileFrom start (line :: rest) = .ok commands ↔
      ∃ command others, compileLine line = .ok command ∧
        compileFrom (start + 1) rest = .ok others ∧ command :: others = commands := by
  cases compiled : compileLine line with
  | error error =>
      rw [compileFrom_cons_of_error compiled]
      simp
  | ok command =>
      rw [compileFrom, List.zipIdx_cons, List.mapM_cons, compileNumbered, compiled]
      simp [Except.mapError, bind_eq_ok_iff, pure, Except.pure, compileFrom]

theorem compileFrom_cons_eq_error_iff {line : List Char} {command : Command}
    (compiled : compileLine line = .ok command) {rest : List (List Char)} {start : Nat}
    {error : TextError} :
    compileFrom start (line :: rest) = .error error ↔
      compileFrom (start + 1) rest = .error error := by
  rw [compileFrom, List.zipIdx_cons, List.mapM_cons, compileNumbered, compiled, compileFrom]
  cases (rest.zipIdx (start + 1)).mapM compileNumbered <;>
    simp [Except.mapError, bind, Except.bind, pure, Except.pure]

theorem compileFrom_eq_ok_iff {lines : List (List Char)} {start : Nat} {commands : List Command} :
    compileFrom start lines = .ok commands ↔
      List.Forall₂ (fun line command => compileLine line = .ok command) lines commands := by
  induction lines generalizing start commands with
  | nil => simp [compileFrom, pure, Except.pure, eq_comm]
  | cons line rest ih =>
      simp only [compileFrom_cons_eq_ok_iff, ih]
      constructor
      · rintro ⟨command, others, compiled, restCompiled, rfl⟩
        exact List.Forall₂.cons compiled restCompiled
      · rintro (_ | ⟨compiled, restCompiled⟩)
        exact ⟨_, _, compiled, restCompiled, rfl⟩

theorem compile_eq_ok_iff {text : List Char} {commands : List Command} :
    compile text = .ok commands ↔
      List.Forall₂ (fun line command => compileLine line = .ok command) (lines text) commands :=
  compileFrom_eq_ok_iff

/-- The first bad line comes after lines that compile, and it does not matter what follows it. The lines
are counted from `start`. -/
def FirstBad (start : Nat) (lines : List (List Char)) (error : TextError) : Prop :=
  ∃ good later, lines = good ++ error.text :: later ∧ error.index = start + good.length ∧
    (∀ line ∈ good, ∃ command, compileLine line = .ok command) ∧
    compileLine error.text = .error error.error

theorem FirstBad.of_error {line : List Char} {fault : LineError}
    (refused : compileLine line = .error fault) (start : Nat) (rest : List (List Char)) :
    FirstBad start (line :: rest) ⟨start, line, fault⟩ :=
  ⟨[], rest, rfl, rfl, by simp, refused⟩

theorem firstBad_cons_iff {line : List Char} {command : Command}
    (compiled : compileLine line = .ok command) {start : Nat} {rest : List (List Char)}
    {error : TextError} :
    FirstBad start (line :: rest) error ↔ FirstBad (start + 1) rest error := by
  constructor
  · rintro ⟨good, later, cut, index, goodCompile, refused⟩
    cases good with
    | nil =>
        obtain ⟨rfl, _⟩ := List.cons.inj cut
        rw [compiled] at refused
        cases refused
    | cons first good =>
        obtain ⟨_, restCut⟩ := List.cons.inj cut
        refine ⟨good, later, restCut, ?_, (List.forall_mem_cons.mp goodCompile).2, refused⟩
        rw [index, List.length_cons]
        omega
  · rintro ⟨good, later, rfl, index, goodCompile, refused⟩
    refine ⟨line :: good, later, rfl, ?_, ?_, refused⟩
    · rw [index, List.length_cons]
      omega
    · exact List.forall_mem_cons.mpr ⟨⟨command, compiled⟩, goodCompile⟩

theorem FirstBad.eq_of_error {line : List Char} {fault : LineError}
    (refused : compileLine line = .error fault) {start : Nat} {rest : List (List Char)}
    {error : TextError} (firstBad : FirstBad start (line :: rest) error) :
    error = ⟨start, line, fault⟩ := by
  obtain ⟨index, text, errorFault⟩ := error
  obtain ⟨good, later, cut, indexEq, goodCompile, errorRefused⟩ := firstBad
  cases good with
  | nil =>
      obtain ⟨rfl, _⟩ := List.cons.inj cut
      have same : fault = errorFault := Except.error.inj (refused.symm.trans errorRefused)
      have first : index = start := indexEq
      rw [same, first]
  | cons first good =>
      obtain ⟨rfl, _⟩ := List.cons.inj cut
      obtain ⟨command, compiled⟩ := goodCompile line List.mem_cons_self
      rw [refused] at compiled
      cases compiled

theorem compileFrom_eq_error_iff {lines : List (List Char)} {start : Nat} {error : TextError} :
    compileFrom start lines = .error error ↔ FirstBad start lines error := by
  induction lines generalizing start with
  | nil => simp [compileFrom, pure, Except.pure, FirstBad]
  | cons line rest ih =>
      cases compiled : compileLine line with
      | error fault =>
          rw [compileFrom_cons_of_error compiled, Except.error.injEq]
          constructor
          · rintro rfl
            exact FirstBad.of_error compiled start rest
          · intro firstBad
            exact (firstBad.eq_of_error compiled).symm
      | ok command =>
          rw [compileFrom_cons_eq_error_iff compiled, ih, firstBad_cons_iff compiled]

theorem compile_eq_error_iff {text : List Char} {error : TextError} :
    compile text = .error error ↔ FirstBad 0 (lines text) error :=
  compileFrom_eq_error_iff

theorem FirstBad.append {start : Nat} {lines : List (List Char)} {error : TextError}
    (firstBad : FirstBad start lines error) (more : List (List Char)) :
    FirstBad start (lines ++ more) error := by
  obtain ⟨good, later, rfl, index, goodCompile, refused⟩ := firstBad
  exact ⟨good, later ++ more, by simp, index, goodCompile, refused⟩

theorem FirstBad.after {lines : List (List Char)} {error : TextError}
    (firstBad : FirstBad 0 lines error) {former : List (List Char)}
    (formerCompile : ∀ line ∈ former, ∃ command, compileLine line = .ok command) :
    FirstBad 0 (former ++ lines) { error with index := former.length + error.index } := by
  obtain ⟨good, later, rfl, index, goodCompile, refused⟩ := firstBad
  refine ⟨former ++ good, later, by simp, ?_, ?_, refused⟩
  · simp only [index, List.length_append, Nat.zero_add]
  · intro line member
    rcases List.mem_append.mp member with inside | inside
    · exact formerCompile line inside
    · exact goodCompile line inside

theorem exists_compileFrom_iff {lines : List (List Char)} {start : Nat} :
    (∃ commands, compileFrom start lines = .ok commands) ↔
      ∀ line ∈ lines, ∃ command, compileLine line = .ok command := by
  simp only [compileFrom_eq_ok_iff]
  induction lines with
  | nil => simp
  | cons line rest ih =>
      rw [List.forall_mem_cons, ← ih]
      constructor
      · rintro ⟨_, _ | ⟨compiled, restCompiled⟩⟩
        exact ⟨⟨_, compiled⟩, ⟨_, restCompiled⟩⟩
      · rintro ⟨⟨command, compiled⟩, commands, restCompiled⟩
        exact ⟨command :: commands, List.Forall₂.cons compiled restCompiled⟩

/-- A text compiles to the commands of its lines, in their order, when each line compiles. Otherwise it
is refused for its first bad line. Two texts that a newline joins compile, or are refused, as they do
apart, with the lines of the second counted on from those of the first. -/
theorem compile_is_line_by_line :
    (∀ text,
      (∀ commands, compile text = .ok commands ↔
        List.Forall₂ (fun line command => compileLine line = .ok command) (lines text) commands) ∧
      ((∃ commands, compile text = .ok commands) ↔
        ∀ line ∈ lines text, ∃ command, compileLine line = .ok command) ∧
      ∀ error, compile text = .error error ↔ FirstBad 0 (lines text) error) ∧
    ∀ former later, (∀ char, former.getLast? = some char → isTerminator char = false) →
      (∃ char ∈ later, isTerminator char = false) →
      (∀ error, compile former = .error error → compile (former ++ '\n' :: later) = .error error) ∧
      ∀ commands, compile former = .ok commands →
        (∀ others, compile later = .ok others →
          compile (former ++ '\n' :: later) = .ok (commands ++ others)) ∧
        ∀ error, compile later = .error error →
          compile (former ++ '\n' :: later) =
            .error { error with index := (lines former).length + error.index } := by
  constructor
  · intro text
    exact ⟨fun _ => compile_eq_ok_iff, exists_compileFrom_iff, fun _ => compile_eq_error_iff⟩
  · intro former later ended remains
    have joined := lines_append_newline ended remains
    simp only [compile_eq_ok_iff, compile_eq_error_iff, joined]
    refine ⟨fun error firstBad => firstBad.append (lines later), ?_⟩
    intro commands compiled
    refine ⟨fun others othersCompiled => List.rel_append compiled othersCompiled, ?_⟩
    intro error firstBad
    apply firstBad.after
    exact exists_compileFrom_iff.mp ⟨commands, compile_eq_ok_iff.mpr compiled⟩

theorem compile_is_line_by_line_up_to_a_bad_line :
    let good := "every 1s play C\r\nat 2s play D".toList
    let bad := "at 0s play E\nevery 0s play C\n\nat".toList
    let last := "every 0s play C".toList
    ((∀ char, good.getLast? = some char → isTerminator char = false) ∧
        (∀ char, bad.getLast? = some char → isTerminator char = false) ∧
        (∃ char ∈ good, isTerminator char = false) ∧ ∃ char ∈ bad, isTerminator char = false) ∧
      (∃ commands, compile good = .ok commands ∧
        compile (good ++ '\n' :: good) = .ok (commands ++ commands)) ∧
      compile bad = .error ⟨1, last, ⟨.zeroPeriod, 7⟩⟩ ∧
      compile (bad ++ '\n' :: good) = .error ⟨1, last, ⟨.zeroPeriod, 7⟩⟩ ∧
      compile (good ++ '\n' :: bad) = .error ⟨3, last, ⟨.zeroPeriod, 7⟩⟩ := by
  intro good bad last
  have goodEnded : ∀ char, good.getLast? = some char → isTerminator char = false := by
    intro char found
    have same : 'D' = char := Option.some.inj found
    rw [← same]
    rfl
  have badEnded : ∀ char, bad.getLast? = some char → isTerminator char = false := by
    intro char found
    have same : 't' = char := Option.some.inj found
    rw [← same]
    rfl
  have goodRemains : ∃ char ∈ good, isTerminator char = false := ⟨'e', by decide, rfl⟩
  have badRemains : ∃ char ∈ bad, isTerminator char = false := ⟨'a', by decide, rfl⟩
  obtain ⟨commands, compiled⟩ : ∃ commands, compile good = .ok commands := ⟨_, rfl⟩
  have refused : compile bad = .error ⟨1, last, ⟨.zeroPeriod, 7⟩⟩ := rfl
  have twice := (compile_is_line_by_line.2 good good goodEnded goodRemains).2 commands compiled
  have badFirst := compile_is_line_by_line.2 bad good badEnded goodRemains
  have badLast := (compile_is_line_by_line.2 good bad goodEnded badRemains).2 commands compiled
  exact ⟨⟨goodEnded, badEnded, goodRemains, badRemains⟩, ⟨commands, compiled, twice.1 commands compiled⟩,
    refused, badFirst.1 _ refused, badLast.2 _ refused⟩

end NoteClock.Rule
