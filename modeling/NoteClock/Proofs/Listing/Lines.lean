import NoteClock.CommandLine.Ending
import NoteClock.Proofs.Listing.Face
import NoteClock.Proofs.Spelling.Value
import NoteClock.Proofs.Timeline.Compiled

/-!
What a listing tells. Commands that were compiled are listed alike only if they are equal, so that a
listing stands for the rules it was made from.
-/

namespace NoteClock

namespace Note

theorem spelling_inj {first second : Note} :
    first.spelling = second.spelling ↔ first = second := by
  constructor
  · intro same
    have parsed := parse_spelling first
    rw [same, parse_spelling] at parsed
    exact (Except.ok.inj parsed).symm
  · rintro rfl
    rfl

theorem listText_inj {notes others : List Note} (nonempty : notes ≠ []) (othersNonempty : others ≠ []) :
    listText notes = listText others ↔ notes = others := by
  constructor
  · intro same
    have pieces := congrArg (·.splitOn ',') same
    simp only [splitOn_listText nonempty, splitOn_listText othersNonempty] at pieces
    exact List.map_injective_iff.mpr (fun _ _ => spelling_inj.mp) pieces
  · rintro rfl
    rfl

end Note

namespace Listing

/-- What compiled commands have in common, without which some of them would be listed alike. -/
structure Listable (command : Command) : Prop where
  whole : 100 ∣ command.trigger.millis
  nonempty : command.notes ≠ []
  cursor : command.cursor = 0

theorem listable_of_compileLine {line : List Char} {command : Command}
    (compiled : Rule.compileLine line = .ok command) : Listable command := by
  have fresh := Rule.fresh_of_compileLine compiled
  obtain ⟨clauses, parsed, lowered⟩ := bind_eq_ok_iff.mp compiled
  obtain ⟨spelling, _, rfl⟩ := Rule.Clauses.parse_eq_ok_iff.mp parsed
  obtain ⟨_, meaning⟩ := Rule.Spelling.command_clausesOf_iff.mp lowered
  refine ⟨?_, fresh.sound.notes_ne_nil, fresh.cursor⟩
  rw [meaning.millis]
  exact spelling.timestamp.hundred_dvd_millis

theorem listable_of_compile {text : List Char} {commands : List Command}
    (compiled : Rule.compile text = .ok commands) : ∀ command ∈ commands, Listable command := by
  intro command member
  obtain ⟨line, lineCompiled⟩ := Rule.exists_line_of_compile compiled command member
  exact listable_of_compileLine lineCompiled

theorem describeCommand_eq (command : Command) :
    describeCommand command =
      command.trigger.word.text ++ ' ' :: (Elapsed.face command.trigger.millis ++ ' ' ::
        ("play".toList ++ ' ' :: (Note.listText command.notes ++
          ' ' :: ('(' :: (describeMode command ++ [')']))))) := by
  have trigger : describeTrigger command.trigger = command.trigger.word.text ++ [' '] := by
    cases command.trigger <;> rfl
  have play : " play ".toList = ' ' :: ("play".toList ++ [' ']) := rfl
  have opening : " (".toList = [' ', '('] := rfl
  simp only [describeCommand, trigger, play, opening, describeNotes, Note.listText,
    List.append_assoc, List.cons_append, List.nil_append]

section Blanks

variable {char : Char} (blank : char = ' ' ∨ char = '\n')

include blank

theorem blank_not_mem_word (trigger : Trigger) : char ∉ trigger.word.text := by
  rcases blank with rfl | rfl
  · cases trigger.word <;> decide
  · cases trigger.word <;> decide

theorem blank_not_mem_face (millis : Nat) : char ∉ Elapsed.face millis := by
  rcases blank with rfl | rfl
  · exact Elapsed.not_mem_face rfl (by decide) (by decide) millis
  · exact Elapsed.not_mem_face rfl (by decide) (by decide) millis

theorem blank_not_mem_listText (notes : List Note) : char ∉ Note.listText notes := by
  intro member
  have inside := Note.listText_subset notes member
  rcases blank with rfl | rfl
  · exact absurd inside (by decide)
  · exact absurd inside (by decide)

end Blanks

theorem describeCommand_parts {command other : Command} :
    describeCommand command = describeCommand other ↔
      command.trigger.word.text = other.trigger.word.text ∧
        Elapsed.face command.trigger.millis = Elapsed.face other.trigger.millis ∧
        Note.listText command.notes = Note.listText other.notes ∧
        describeMode command = describeMode other := by
  have words := blank_not_mem_word (Or.inl rfl)
  have faces := blank_not_mem_face (Or.inl rfl)
  have play : ' ' ∉ "play".toList := by decide
  have lists := blank_not_mem_listText (Or.inl rfl)
  rw [describeCommand_eq, describeCommand_eq, append_separator_inj (words _) (words _),
    append_separator_inj (faces _) (faces _), append_separator_inj play play,
    append_separator_inj (lists _) (lists _)]
  simp

theorem word_text_inj {trigger other : Trigger} (same : trigger.word.text = other.word.text) :
    trigger.word = other.word := by
  revert same
  cases trigger.word <;> cases other.word <;> decide

def readMode : List Char → PlayMode
  | 's' :: _ => .scale
  | 'a' :: _ => .arpeggio
  | 'r' :: rest => .stack (Nat.ofDigitChars 10 (rest.drop 12) 0)
  | _ => .stack 1

theorem readMode_describeMode (command : Command) : readMode (describeMode command) = command.mode := by
  obtain ⟨trigger, notes, cursor⟩ := command
  rcases trigger with instant | ⟨period, mode⟩
  · rfl
  · cases mode with
    | scale => rfl
    | arpeggio => rfl
    | stack limit =>
        change PlayMode.stack (Nat.ofDigitChars 10 (Nat.toDigits 10 limit) 0) = .stack limit
        rw [Nat.ofDigitChars_ten_toDigits]

theorem mode_of_describeMode {command other : Command}
    (same : describeMode command = describeMode other) : command.mode = other.mode := by
  rw [← readMode_describeMode, same, readMode_describeMode]

theorem Listable.millis_of_face {command other : Command} (listable : Listable command)
    (otherListable : Listable other)
    (same : Elapsed.face command.trigger.millis = Elapsed.face other.trigger.millis) :
    command.trigger.millis = other.trigger.millis := by
  have steps := Elapsed.face_inj.mp same
  have whole := listable.whole
  have otherWhole := otherListable.whole
  omega

theorem Listable.describeCommand_inj {command other : Command} (listable : Listable command)
    (otherListable : Listable other) :
    describeCommand command = describeCommand other ↔ command = other := by
  constructor
  · intro same
    obtain ⟨words, faces, lists, modes⟩ := describeCommand_parts.mp same
    have word := word_text_inj words
    have millis := listable.millis_of_face otherListable faces
    have notes := (Note.listText_inj listable.nonempty otherListable.nonempty).mp lists
    have mode := mode_of_describeMode modes
    have cursor := listable.cursor.trans otherListable.cursor.symm
    obtain ⟨trigger, _, _⟩ := command
    obtain ⟨otherTrigger, _, _⟩ := other
    simp only at notes cursor
    subst notes cursor
    cases trigger with
    | once instant =>
        cases otherTrigger with
        | once otherInstant => simpa [Trigger.millis] using millis
        | every => simp [Trigger.word] at word
    | every period mode =>
        cases otherTrigger with
        | once => simp [Trigger.word] at word
        | every => simpa [Trigger.millis, Command.mode] using And.intro millis mode
  · rintro rfl
    rfl

theorem newline_not_mem_describeMode (command : Command) : '\n' ∉ describeMode command := by
  rw [describeMode]
  split
  · decide
  · decide
  · decide
  · rename_i limit _
    have digits : '\n' ∉ Nat.toDigits 10 limit := not_mem_toDigits rfl limit
    simp [digits]

theorem newline_not_mem_describeCommand (command : Command) : '\n' ∉ describeCommand command := by
  have word := blank_not_mem_word (Or.inr rfl) command.trigger
  have face := blank_not_mem_face (Or.inr rfl) command.trigger.millis
  have notes := blank_not_mem_listText (Or.inr rfl) command.notes
  have mode := newline_not_mem_describeMode command
  simp [describeCommand_eq, word, face, notes, mode]

theorem newline_not_mem_lines (commands : List Command) :
    ∀ line ∈ lines commands, '\n' ∉ line := by
  have digits : ∀ number, '\n' ∉ Nat.toDigits 10 number := not_mem_toDigits rfl
  rw [lines, List.forall_mem_cons, List.forall_mem_map]
  constructor
  · simp [digits]
  · intro entry _
    simp [line, digits, newline_not_mem_describeCommand]

theorem line_inj {command other : Command} (index : Nat) :
    line (command, index) = line (other, index) ↔ describeCommand command = describeCommand other := by
  simp only [line, List.append_cancel_left_eq]

variable {commands others : List Command} (listable : ∀ command ∈ commands, Listable command)
  (othersListable : ∀ command ∈ others, Listable command)

include listable othersListable

theorem map_line_inj (start : Nat)
    (same : (commands.zipIdx start).map line = (others.zipIdx start).map line) :
    commands = others := by
  induction commands generalizing others start with
  | nil =>
      cases others with
      | nil => rfl
      | cons => simp at same
  | cons command rest ih =>
      cases others with
      | nil => simp at same
      | cons other more =>
          obtain ⟨first, restListable⟩ := List.forall_mem_cons.mp listable
          obtain ⟨otherFirst, moreListable⟩ := List.forall_mem_cons.mp othersListable
          simp only [List.zipIdx_cons, List.map_cons, List.cons.injEq, line_inj,
            first.describeCommand_inj otherFirst] at same
          rw [same.1, ih restListable moreListable (start + 1) same.2]

theorem text_inj : text commands = text others ↔ commands = others := by
  constructor
  · intro same
    rw [text, text, String.ofList_inj, flatMap_separator_inj (newline_not_mem_lines commands)
      (newline_not_mem_lines others), lines, lines, List.cons.injEq] at same
    exact map_line_inj listable othersListable 0 same.2
  · rintro rfl
    rfl

end Listing

end NoteClock
