import NoteClock.Proofs.Guarded.Operation

/-!
Timestamps read by their bytes. A segment is cut where its digits end, and the offset of a fault is
counted up segment by segment; it is the length in bytes of the text in front of the fault.
-/

namespace NoteClock.Guarded

open Timestamp

def digitsEnd (text : List Char) : Nat :=
  match text.dropWhile Char.isDigit with
  | [] => byteLength text
  | _ :: _ => byteLength (text.takeWhile Char.isDigit)

def parseSegment (segment : List Char) (offset : Nat) : Guarded (Cause × Nat) (Nat × TimeUnit) := do
  let (digits, symbol) ← cutAt segment (digitsEnd segment)
  if digits = [] then refuse (.missingValue segment, offset)
  else
    match TimeUnit.ofSymbol? symbol with
    | none => refuse (.invalidUnit segment, offset)
    | some unit =>
        let value := Nat.ofDigitChars 10 digits 0
        if value ≤ maxMillis then return (value, unit) else refuse (.overflow, offset)

def sumSegments (offset : Nat) (seen : List TimeUnit) (sum : Nat) :
    List (List Char) → Guarded (Cause × Nat) Nat
  | [] => .ok sum
  | segment :: rest =>
      if maxSegments ≤ seen.length then refuse (.tooManySegments, offset)
      else if segment = [] then refuse (.emptySegment, offset)
      else do
        let (value, unit) ← parseSegment segment offset
        if unit ∈ seen then refuse (.duplicateUnit unit, offset)
        else if maxMillis < sum + value * unit.millis then refuse (.overflow, offset)
        else
          sumSegments (offset + (byteLength segment + 1)) (unit :: seen) (sum + value * unit.millis)
            rest

def parseTimestamp (token : List Char) : Guarded (Cause × Nat) Nat :=
  if token = [] then refuse (.empty, 0)
  else if token.getLast? = some ':' then do
    let offset ← difference (byteLength token) 1
    refuse (.trailingSeparator, offset)
  else sumSegments 0 [] 0 (token.splitOn ':')

def located (error : Error) : Cause × Nat := (error.cause, error.offset)

theorem byteLength_takeWhile_digits (text : List Char) :
    byteLength (text.takeWhile Char.isDigit) = digitsEnd text := by
  have whole : text.takeWhile Char.isDigit ++ text.dropWhile Char.isDigit = text :=
    List.takeWhile_append_dropWhile
  rw [digitsEnd]
  split
  · rename_i nothing
    rw [nothing, List.append_nil] at whole
    rw [whole]
  · rfl

theorem cutAt_digitsEnd (text : List Char) :
    (cutAt text (digitsEnd text) : Guarded (Cause × Nat) _) =
      .ok (text.takeWhile Char.isDigit, text.dropWhile Char.isDigit) :=
  cutAt_eq_ok_iff.mpr ⟨List.takeWhile_append_dropWhile, byteLength_takeWhile_digits text⟩

theorem parseSegment_eq (segment : List Char) (offset : Nat) :
    parseSegment segment offset =
      of ((Timestamp.parseSegment segment).mapError fun cause => (cause, offset)) := by
  rw [parseSegment, cutAt_digitsEnd, Timestamp.parseSegment]
  simp only [bind, Except.bind]
  split
  · rfl
  · cases TimeUnit.ofSymbol? (segment.dropWhile Char.isDigit) with
    | none => rfl
    | some unit =>
        dsimp only
        split <;> rfl

theorem sumSegments_eq (before : List Char) (seen : List TimeUnit) (sum : Nat)
    (pieces : List (List Char)) :
    sumSegments (byteLength before) seen sum pieces =
      of ((Timestamp.sumSegments before seen sum pieces).mapError located) := by
  induction pieces generalizing before seen sum with
  | nil => rfl
  | cons segment rest ih =>
      rw [sumSegments, Timestamp.sumSegments, parseSegment_eq]
      split
      · rfl
      · split
        · rfl
        · cases Timestamp.parseSegment segment with
          | error cause => rfl
          | ok read =>
              obtain ⟨value, unit⟩ := read
              have longer : byteLength before + (byteLength segment + 1) =
                  byteLength (before ++ segment ++ [':']) := by
                rw [byteLength_append, byteLength_append, Nat.add_assoc]
                rfl
              rw [longer]
              dsimp only [of, Except.mapError, bind, Except.bind]
              split
              · rfl
              · split
                · rfl
                · exact ih _ _ _

theorem parseTimestamp_eq (token : List Char) :
    parseTimestamp token = of ((Timestamp.parse token).mapError located) := by
  rw [parseTimestamp, Timestamp.parse]
  split
  · rfl
  · rename_i nonempty
    split
    · rename_i ended
      obtain ⟨front, rfl⟩ := List.getLast?_eq_some_iff.mp ended
      have counted : byteLength (front ++ [':']) = byteLength front + 1 := byteLength_append _ _
      rw [counted, difference_of_le (Nat.le_add_left 1 _), List.dropLast_concat]
      rfl
    · exact sumSegments_eq [] [] 0 _

end NoteClock.Guarded
