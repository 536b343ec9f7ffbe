import NoteClock.Proofs.Spelling.Offence

/-!
Operations that are not defined everywhere. Used outside its domain such an operation is trapped, which
is told apart from a refusal. Where the domain is kept, the guarded computation comes to what the plain
one does.
-/

namespace NoteClock

inductive Trap where
  | pastEnd
  | belowZero
  | noBoundary
  | byZero
  | noNotes
  deriving DecidableEq, Repr

inductive Halt (ε : Type) where
  | refused (error : ε)
  | trapped (trap : Trap)
  deriving DecidableEq, Repr

abbrev Guarded (ε α : Type) := Except (Halt ε) α

namespace Guarded

variable {ε α β : Type}

def refuse (error : ε) : Guarded ε α := .error (.refused error)

def trap (trap : Trap) : Guarded ε α := .error (.trapped trap)

def element (items : List α) (index : Nat) : Guarded ε α :=
  match items[index]? with
  | some item => .ok item
  | none => trap .pastEnd

def through (items : List α) (index : Nat) : Guarded ε (List α) :=
  if index < items.length then .ok (items.take (index + 1)) else trap .pastEnd

def difference (total part : Nat) : Guarded ε Nat :=
  if part ≤ total then .ok (total - part) else trap .belowZero

def remainder (total divisor : Nat) : Guarded ε Nat :=
  if divisor = 0 then trap .byZero else .ok (total % divisor)

/-- Cuts a text in two at a number of bytes, between two characters. -/
def cutAt : List Char → Nat → Guarded ε (List Char × List Char)
  | text, 0 => .ok ([], text)
  | [], _ + 1 => trap .noBoundary
  | char :: rest, bytes + 1 =>
      if char.utf8Size ≤ bytes + 1 then do
        let (front, back) ← cutAt rest (bytes + 1 - char.utf8Size)
        return (char :: front, back)
      else trap .noBoundary

theorem element_of_getElem? {items : List α} {index : Nat} {item : α}
    (found : items[index]? = some item) : (element items index : Guarded ε α) = .ok item := by
  rw [element, found]

theorem difference_of_le {total part : Nat} (le : part ≤ total) :
    (difference total part : Guarded ε Nat) = .ok (total - part) := by
  rw [difference, if_pos le]

theorem remainder_of_pos {divisor : Nat} (positive : 0 < divisor) (total : Nat) :
    (remainder total divisor : Guarded ε Nat) = .ok (total % divisor) := by
  rw [remainder, if_neg (Nat.ne_of_gt positive)]

section Cut

open Timestamp

theorem byteLength_cons (char : Char) (rest : List Char) :
    byteLength (char :: rest) = char.utf8Size + byteLength rest := by
  simp only [byteLength, String.ofList_cons, String.utf8ByteSize_append,
    String.utf8ByteSize_singleton]

theorem byteLength_eq_zero_iff {text : List Char} : byteLength text = 0 ↔ text = [] := by
  constructor
  · intro zero
    by_contra nonempty
    have positive := byteLength_pos nonempty
    omega
  · rintro rfl
    rfl

theorem cutAt_zero_eq_ok_iff {text front back : List Char} :
    (cutAt text 0 : Guarded ε _) = .ok (front, back) ↔
      front ++ back = text ∧ byteLength front = 0 := by
  rw [cutAt, byteLength_eq_zero_iff, Except.ok.injEq, Prod.mk.injEq]
  constructor
  · rintro ⟨rfl, rfl⟩
    exact ⟨rfl, rfl⟩
  · rintro ⟨rfl, rfl⟩
    exact ⟨rfl, rfl⟩

theorem cutAt_eq_ok_iff {text front back : List Char} {bytes : Nat} :
    (cutAt text bytes : Guarded ε _) = .ok (front, back) ↔
      front ++ back = text ∧ byteLength front = bytes := by
  induction text generalizing front bytes with
  | nil =>
      cases bytes with
      | zero => exact cutAt_zero_eq_ok_iff
      | succ bytes =>
          simp only [cutAt, trap, reduceCtorEq, List.append_eq_nil_iff, false_iff]
          rintro ⟨⟨rfl, _⟩, none⟩
          cases none
  | cons char rest ih =>
      cases bytes with
      | zero => exact cutAt_zero_eq_ok_iff
      | succ bytes =>
          rw [cutAt]
          constructor
          · intro cut
            split at cut
            · rename_i fits
              obtain ⟨⟨inner, others⟩, restCut, same⟩ := bind_eq_ok_iff.mp cut
              cases same
              obtain ⟨joined, counted⟩ := ih.mp restCut
              rw [byteLength_cons, counted, List.cons_append, joined]
              exact ⟨rfl, by omega⟩
            · cases cut
          · rintro ⟨joined, counted⟩
            cases front with
            | nil => cases counted
            | cons first inner =>
                obtain ⟨rfl, tail⟩ := List.cons.inj joined
                rw [byteLength_cons] at counted
                rw [if_pos (by omega), ih.mpr ⟨tail, Nat.eq_sub_of_add_eq' counted⟩]
                rfl

end Cut

/-! Plain computations among guarded ones -/

def of (result : Except ε α) : Guarded ε α := result.mapError .refused

theorem of_error (error : ε) : of (.error error : Except ε α) = refuse error := rfl

theorem of_bind (first : Except ε α) (next : α → Except ε β) :
    of (first >>= next) = of first >>= fun value => of (next value) := by
  cases first <;> rfl

theorem of_ne_trapped (result : Except ε α) (trap : Trap) :
    of result ≠ .error (.trapped trap) := by
  cases result <;> simp [of, Except.mapError]

end Guarded

end NoteClock
