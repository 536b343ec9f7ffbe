import Mathlib.Data.List.DropRight
import NoteClock.Rule.Text

/-!
The lines of a text. A line can be ended in two ways, and terminators may follow the last line in any
number: however lines are written down, the text is cut into these lines again.
-/

namespace NoteClock.Rule

theorem lines_eq (text : List Char) :
    lines text = ((text.rdropWhile isTerminator).splitOn '\n').map chompReturn := rfl

theorem rdropWhile_append_terminators {text surplus : List Char}
    (terminators : ∀ char ∈ surplus, isTerminator char = true) :
    (text ++ surplus).rdropWhile isTerminator = text.rdropWhile isTerminator := by
  have reversed : ∀ char ∈ surplus.reverse, isTerminator char = true := by
    intro char member
    exact terminators char (List.mem_reverse.mp member)
  rw [List.rdropWhile, List.reverse_append, List.dropWhile_append_of_pos reversed, List.rdropWhile]

theorem rdropWhile_of_getLast? {text : List Char}
    (kept : ∀ char, text.getLast? = some char → isTerminator char = false) :
    text.rdropWhile isTerminator = text := by
  rw [List.rdropWhile_eq_self_iff]
  intro nonempty
  rw [kept _ (List.getLast?_eq_some_getLast nonempty)]
  decide

theorem rdropWhile_append_of_mem {text more : List Char} {char : Char} (member : char ∈ more)
    (kept : isTerminator char = false) :
    (text ++ more).rdropWhile isTerminator = text ++ more.rdropWhile isTerminator := by
  have remains : ¬(more.reverse.dropWhile isTerminator).isEmpty = true := by
    intro empty
    have dropped := List.dropWhile_eq_nil_iff.mp (List.isEmpty_iff.mp empty)
    have terminator := dropped char (List.mem_reverse.mpr member)
    simp [kept] at terminator
  rw [List.rdropWhile, List.reverse_append, List.dropWhile_append, if_neg remains,
    List.reverse_append, List.reverse_reverse, List.rdropWhile]

theorem lines_append_newline {text more : List Char}
    (ended : ∀ char, text.getLast? = some char → isTerminator char = false)
    (remains : ∃ char ∈ more, isTerminator char = false) :
    lines (text ++ '\n' :: more) = lines text ++ lines more := by
  obtain ⟨char, member, kept⟩ := remains
  have joined : text ++ '\n' :: more = (text ++ ['\n']) ++ more := by simp
  have trimmed : (text ++ '\n' :: more).rdropWhile isTerminator =
      text ++ '\n' :: more.rdropWhile isTerminator := by
    rw [joined, rdropWhile_append_of_mem member kept, List.append_assoc, List.singleton_append]
  rw [lines_eq, trimmed, List.splitOn_append_cons_self, List.map_append, lines_eq, lines_eq,
    rdropWhile_of_getLast? ended]

/-! Lines as they are written down -/

inductive LineEnd where
  | newline
  | returnNewline
  deriving DecidableEq, Repr

def LineEnd.returns : LineEnd → List Char
  | newline => []
  | returnNewline => ['\r']

def LineEnd.text (ending : LineEnd) : List Char := ending.returns ++ ['\n']

/-- A line that is not cut in two, and that keeps its last character. -/
structure IsLine (line : List Char) : Prop where
  noNewline : '\n' ∉ line
  noReturn : line.getLast? ≠ some '\r'

theorem IsLine.ended {line : List Char} (isLine : IsLine line) :
    ∀ char, line.getLast? = some char → isTerminator char = false := by
  intro char last
  have noNewline : char ≠ '\n' := by
    rintro rfl
    exact isLine.noNewline (List.mem_of_getLast? last)
  have noReturn : char ≠ '\r' := by
    rintro rfl
    exact isLine.noReturn last
  simp [isTerminator, noNewline, noReturn]

theorem map_chompReturn_splitOn {line : List Char} (isLine : IsLine line) (ending : LineEnd) :
    ((line ++ ending.returns).splitOn '\n').map chompReturn = [line] := by
  have whole : '\n' ∉ line ++ ending.returns := by
    rw [List.mem_append, not_or]
    exact ⟨isLine.noNewline, by cases ending <;> decide⟩
  rw [List.splitOn_eq_singleton whole, List.map_singleton]
  cases ending with
  | newline => simp [LineEnd.returns, chompReturn, isLine.noReturn]
  | returnNewline => simp [LineEnd.returns, chompReturn]

/-- A way to write lines down: the first of them, each further one behind a line end of its own, and
surplus terminators after the last. -/
structure Layout where
  first : List Char
  rest : List (LineEnd × List Char)
  surplus : List Char
  deriving DecidableEq, Repr

namespace Layout

def lines (layout : Layout) : List (List Char) := layout.first :: layout.rest.map (·.2)

def further (rest : List (LineEnd × List Char)) : List Char :=
  rest.flatMap fun (ending, line) => ending.text ++ line

def text (layout : Layout) : List Char := layout.first ++ further layout.rest ++ layout.surplus

structure Proper (layout : Layout) : Prop where
  isLine : ∀ line ∈ layout.lines, IsLine line
  last : layout.lines.getLast? ≠ some [] ∨ layout.lines = [[]]
  surplus : ∀ char ∈ layout.surplus, isTerminator char = true

theorem map_chompReturn_splitOn_further {first : List Char} {rest : List (LineEnd × List Char)}
    (isLine : ∀ line ∈ first :: rest.map (·.2), IsLine line) :
    ((first ++ further rest).splitOn '\n').map chompReturn = first :: rest.map (·.2) := by
  induction rest generalizing first with
  | nil => exact map_chompReturn_splitOn (isLine first List.mem_cons_self) .newline
  | cons next rest ih =>
      obtain ⟨ending, line⟩ := next
      obtain ⟨firstIsLine, restIsLine⟩ := List.forall_mem_cons.mp isLine
      have cut : first ++ further ((ending, line) :: rest) =
          (first ++ ending.returns) ++ '\n' :: (line ++ further rest) := by
        simp [further, LineEnd.text]
      rw [cut, List.splitOn_append_cons_self, List.map_append, map_chompReturn_splitOn firstIsLine,
        ih restIsLine]
      rfl

theorem Proper.rdropWhile_text {layout : Layout} (proper : layout.Proper) :
    layout.text.rdropWhile isTerminator = layout.first ++ further layout.rest := by
  rw [text, rdropWhile_append_terminators proper.surplus]
  apply rdropWhile_of_getLast?
  obtain ⟨first, rest, surplus⟩ := layout
  rcases List.eq_nil_or_concat' rest with rfl | ⟨front, ⟨ending, line⟩, rfl⟩
  · simpa [further] using (proper.isLine first List.mem_cons_self).ended
  · have isLine : IsLine line := proper.isLine line (by simp [lines])
    have nonempty : line ≠ [] := by
      rintro rfl
      have last := proper.last
      simp [lines, List.getLast?_cons] at last
    intro char last
    apply isLine.ended char
    rw [← last]
    simp [further, List.getLast?_append, List.getLast?_eq_some_getLast nonempty]

theorem Proper.lines_text {layout : Layout} (proper : layout.Proper) :
    Rule.lines layout.text = layout.lines := by
  rw [lines_eq, proper.rdropWhile_text, map_chompReturn_splitOn_further proper.isLine, lines]

end Layout

theorem compile_eq_of_lines_eq {text other : List Char} (same : lines text = lines other) :
    compile text = compile other := by
  rw [compile, same, compile]

/-- However its lines are ended, and whatever terminators follow the last of them, a text is cut into
these lines, and compiles to the same commands or is refused for the same fault. -/
theorem line_ends_make_no_difference (layout : Layout) (proper : layout.Proper) :
    lines layout.text = layout.lines ∧
      ∀ other : Layout, other.Proper → other.lines = layout.lines →
        compile other.text = compile layout.text := by
  refine ⟨proper.lines_text, ?_⟩
  intro other otherProper same
  apply compile_eq_of_lines_eq
  rw [otherProper.lines_text, proper.lines_text, same]

theorem line_ends_make_no_difference_around_blank_lines :
    let blank : List Char := []
    let rule := "every 1s play C".toList
    let bad := "at 2s\rplay D".toList
    let one : Layout :=
      ⟨rule, [(.newline, blank), (.returnNewline, blank), (.newline, bad)], "\n\r\r\n\n".toList⟩
    let other : Layout :=
      ⟨rule, [(.returnNewline, blank), (.newline, blank), (.returnNewline, bad)], []⟩
    (one.Proper ∧ other.Proper ∧ other.lines = one.lines) ∧
      lines one.text = [rule, blank, blank, bad] ∧ lines other.text = [rule, blank, blank, bad] ∧
      compile other.text = compile one.text ∧
      compile one.text = .error ⟨1, blank, ⟨.blankLine, 1⟩⟩ := by
  intro blank rule bad one other
  have isLine : ∀ line ∈ [rule, blank, blank, bad], IsLine line := by
    intro line member
    constructor
    · revert line
      decide
    · revert line
      decide
  have proper : one.Proper := ⟨isLine, by decide, List.all_eq_true.mp rfl⟩
  have otherProper : other.Proper := ⟨isLine, by decide, List.all_eq_true.mp rfl⟩
  have result := line_ends_make_no_difference one proper
  have same : other.lines = one.lines := rfl
  have otherResult := line_ends_make_no_difference other otherProper
  exact ⟨⟨proper, otherProper, same⟩, result.1, otherResult.1, result.2 other otherProper same, rfl⟩

end NoteClock.Rule
