/-!
Notes as a rule names them: a letter and an optional accidental, always in the octave of middle C.
Reading accepts exactly the spellings. Pitches are in equal temperament, with the A above middle C at
440 Hz.
-/

namespace NoteClock

inductive Letter where
  | C | D | E | F | G | A | B
  deriving DecidableEq, Repr

inductive Accidental where
  | natural
  | sharp
  | flat
  deriving DecidableEq, Repr

structure Note where
  letter : Letter
  accidental : Accidental
  deriving DecidableEq, Repr

namespace Letter

def toChar : Letter → Char
  | C => 'C' | D => 'D' | E => 'E' | F => 'F' | G => 'G' | A => 'A' | B => 'B'

def ofChar? : Char → Option Letter
  | 'C' => some C | 'D' => some D | 'E' => some E | 'F' => some F
  | 'G' => some G | 'A' => some A | 'B' => some B
  | _ => none

def semitone : Letter → Nat
  | C => 0 | D => 2 | E => 4 | F => 5 | G => 7 | A => 9 | B => 11

theorem ofChar?_eq_some {char : Char} {letter : Letter} (found : ofChar? char = some letter) :
    char = letter.toChar := by
  unfold ofChar? at found
  split at found <;> simp_all [toChar] <;> subst found <;> rfl

end Letter

namespace Accidental

def spelling : Accidental → List Char
  | natural => []
  | sharp => ['#']
  | flat => ['b']

end Accidental

namespace Note

inductive Error where
  | empty
  | notALetter (char : Char)
  | notAnAccidental (char : Char)
  | trailing (rest : List Char)
  deriving DecidableEq, Repr

def Error.message : Error → String
  | empty => "empty note"
  | notALetter char => s!"'{char}' is not a note letter (A-G)"
  | notAnAccidental char => s!"'{char}' is not an accidental (expected '#' or 'b')"
  | trailing rest => s!"unexpected '{String.ofList rest}' after note"

def spelling (note : Note) : List Char := note.letter.toChar :: note.accidental.spelling

instance : ToString Note := ⟨fun note => String.ofList note.spelling⟩

def parse : List Char → Except Error Note
  | [] => .error .empty
  | first :: rest =>
      match Letter.ofChar? first with
      | none => .error (.notALetter first)
      | some letter =>
          match rest with
          | [] => .ok ⟨letter, .natural⟩
          | ['#'] => .ok ⟨letter, .sharp⟩
          | ['b'] => .ok ⟨letter, .flat⟩
          | '#' :: more => .error (.trailing more)
          | 'b' :: more => .error (.trailing more)
          | other :: _ => .error (.notAnAccidental other)

def midi (note : Note) : Nat :=
  match note.accidental with
  | .natural => 60 + note.letter.semitone
  | .sharp => 61 + note.letter.semitone
  | .flat => 59 + note.letter.semitone

def concertPitch : Float := 440.0

def frequency (note : Note) : Float :=
  concertPitch * Float.pow 2.0 ((Float.ofNat note.midi - 69.0) / 12.0)

theorem parse_spelling (note : Note) : parse note.spelling = .ok note := by
  obtain ⟨letter, accidental⟩ := note
  cases letter <;> cases accidental <;> rfl

end Note

end NoteClock
