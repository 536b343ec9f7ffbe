import NoteClock.Proofs.Spelling.Reading
import NoteClock.Time.Millis

/-!
Reading a clock face back. Its digits say how many deciseconds have passed, and nothing else.
-/

namespace NoteClock

theorem toDigits_inj {first second : Nat} :
    Nat.toDigits 10 first = Nat.toDigits 10 second ↔ first = second := by
  have back : Function.LeftInverse (Nat.ofDigitChars 10 · 0) (Nat.toDigits 10) :=
    fun _ => Nat.ofDigitChars_ten_toDigits
  exact back.injective.eq_iff

theorem not_mem_toDigits {char : Char} (other : char.isDigit = false) (number : Nat) :
    char ∉ Nat.toDigits 10 number := by
  intro member
  have digit := Nat.isDigit_of_mem_toDigits (by omega) (by omega) member
  rw [other] at digit
  cases digit

namespace Elapsed

theorem ofDigitChars_twoDigits (number : Nat) : Nat.ofDigitChars 10 (twoDigits number) 0 = number := by
  rw [twoDigits]
  by_cases short : number < 10
  · rw [if_pos short, Nat.ofDigitChars_cons]
    exact Nat.ofDigitChars_ten_toDigits
  · rw [if_neg short]
    exact Nat.ofDigitChars_ten_toDigits

theorem twoDigits_inj {first second : Nat} : twoDigits first = twoDigits second ↔ first = second := by
  have back : Function.LeftInverse (Nat.ofDigitChars 10 · 0) twoDigits := ofDigitChars_twoDigits
  exact back.injective.eq_iff

theorem not_mem_twoDigits {char : Char} (other : char.isDigit = false) (number : Nat) :
    char ∉ twoDigits number := by
  rw [twoDigits]
  split
  · rw [List.mem_cons, not_or]
    refine ⟨?_, not_mem_toDigits other number⟩
    rintro rfl
    cases other
  · exact not_mem_toDigits other number

theorem face_eq (millis : Nat) :
    face millis = twoDigits (hours millis) ++ ':' :: (twoDigits (minutes millis) ++
      ':' :: (twoDigits (seconds millis) ++ '.' :: Nat.toDigits 10 (deciseconds millis))) := by
  simp only [face, List.append_assoc, List.cons_append]

theorem not_mem_face {char : Char} (noDigit : char.isDigit = false) (noColon : char ≠ ':')
    (noPoint : char ≠ '.') (millis : Nat) : char ∉ face millis := by
  simp [face_eq, not_mem_twoDigits noDigit, not_mem_toDigits noDigit, noColon, noPoint]

theorem face_inj {first second : Nat} : face first = face second ↔ first / 100 = second / 100 := by
  have colon : ∀ number, ':' ∉ twoDigits number := not_mem_twoDigits rfl
  have point : ∀ number, '.' ∉ twoDigits number := not_mem_twoDigits rfl
  rw [face_eq, face_eq, append_separator_inj (colon _) (colon _),
    append_separator_inj (colon _) (colon _), append_separator_inj (point _) (point _),
    twoDigits_inj, twoDigits_inj, twoDigits_inj, toDigits_inj]
  simp only [hours, minutes, seconds, deciseconds, TimeUnit.millis]
  omega

end Elapsed

end NoteClock
