/-! What the readers share: steps that may refuse, and texts that are cut at separators. -/

namespace NoteClock

theorem bind_eq_ok_iff {ε α β : Type} {first : Except ε α} {next : α → Except ε β} {result : β} :
    (first >>= next) = .ok result ↔ ∃ value, first = .ok value ∧ next value = .ok result := by
  cases first with
  | error error => simp [bind, Except.bind]
  | ok value => simp [bind, Except.bind]

theorem bind_eq_error_iff {ε α β : Type} {first : Except ε α} {next : α → Except ε β} {error : ε} :
    (first >>= next) = .error error ↔
      first = .error error ∨ ∃ value, first = .ok value ∧ next value = .error error := by
  cases first with
  | error other => simp [bind, Except.bind]
  | ok value => simp [bind, Except.bind]

theorem mapError_eq_ok_iff {ε δ α : Type} {result : Except ε α} {wrap : ε → δ} {value : α} :
    result.mapError wrap = .ok value ↔ result = .ok value := by
  cases result with
  | error error => exact ⟨nofun, nofun⟩
  | ok found =>
      have kept : (Except.ok found : Except ε α).mapError wrap = .ok found := rfl
      rw [kept, Except.ok.injEq, Except.ok.injEq]

theorem separator_not_mem_of_mem_splitOn {text piece : List Char} {separator : Char}
    (member : piece ∈ text.splitOn separator) : separator ∉ piece := by
  induction text generalizing piece with
  | nil =>
      rw [List.splitOn_nil, List.mem_singleton] at member
      simp [member]
  | cons char text ih =>
      obtain ⟨first, rest, pieces⟩ := List.exists_cons_of_ne_nil (List.splitOn_ne_nil separator text)
      rw [List.splitOn_cons_eq_if_modifyHead, pieces] at member
      rw [pieces] at ih
      split at member
      · rcases List.mem_cons.mp member with rfl | later
        · simp
        · exact ih later
      · rename_i different
        rcases List.mem_cons.mp member with rfl | later
        · rw [List.mem_cons, not_or]
          exact ⟨fun same => different (beq_iff_eq.mpr same.symm), ih List.mem_cons_self⟩
        · exact ih (List.mem_cons_of_mem first later)

theorem nil_mem_splitOn {text : List Char} {separator : Char}
    (last : text.getLast? = some separator) : [] ∈ text.splitOn separator := by
  obtain ⟨front, rfl⟩ := List.getLast?_eq_some_iff.mp last
  rw [List.splitOn_append_cons_self]
  simp

theorem intercalate_cons (separator : Char) (first : List Char) (rest : List (List Char)) :
    [separator].intercalate (first :: rest) = first ++ rest.flatMap (separator :: ·) := by
  induction rest generalizing first with
  | nil => simp
  | cons second rest ih => simp [ih]

theorem intercalate_append_cons (separator : Char) (front : List (List Char)) (piece : List Char)
    (back : List (List Char)) :
    [separator].intercalate (front ++ piece :: back) =
      front.flatMap (· ++ [separator]) ++ piece ++ back.flatMap (separator :: ·) := by
  induction front with
  | nil => exact intercalate_cons separator piece back
  | cons first front ih =>
      have more : front ++ piece :: back ≠ [] := by simp
      rw [List.cons_append, List.intercalate_cons_of_ne_nil more, ih]
      simp

theorem append_separator_inj {separator : Char} {first other rest more : List Char}
    (free : separator ∉ first) (otherFree : separator ∉ other) :
    first ++ separator :: rest = other ++ separator :: more ↔ first = other ∧ rest = more := by
  induction first generalizing other with
  | nil =>
      cases other with
      | nil => simp
      | cons char other =>
          rw [List.mem_cons, not_or] at otherFree
          simp [otherFree.1]
  | cons char first ih =>
      rw [List.mem_cons, not_or] at free
      cases other with
      | nil => simp [Ne.symm free.1]
      | cons otherChar other =>
          rw [List.mem_cons, not_or] at otherFree
          simp [ih free.2 otherFree.2, and_assoc]

theorem flatMap_separator_inj {separator : Char} {pieces others : List (List Char)}
    (free : ∀ piece ∈ pieces, separator ∉ piece) (otherFree : ∀ piece ∈ others, separator ∉ piece) :
    pieces.flatMap (· ++ [separator]) = others.flatMap (· ++ [separator]) ↔ pieces = others := by
  induction pieces generalizing others with
  | nil => cases others <;> simp
  | cons first rest ih =>
      cases others with
      | nil => simp
      | cons other more =>
          obtain ⟨firstFree, restFree⟩ := List.forall_mem_cons.mp free
          obtain ⟨otherFirstFree, moreFree⟩ := List.forall_mem_cons.mp otherFree
          simp only [List.flatMap_cons, List.append_assoc, List.singleton_append,
            append_separator_inj firstFree otherFirstFree, ih restFree moreFree, List.cons.injEq]

theorem exists_behind_pieces {text piece : List Char} {separator : Char}
    {former later : List (List Char)} (nonempty : text ≠ [])
    (notEnded : text.getLast? ≠ some separator)
    (pieces : text.splitOn separator = former ++ piece :: later) :
    ∃ behind, text = former.flatMap (· ++ [separator]) ++ behind ∧ behind ≠ [] := by
  have joined : [separator].intercalate (text.splitOn separator) = text :=
    List.intercalate_splitOn separator
  rw [pieces, intercalate_append_cons, List.append_assoc] at joined
  refine ⟨_, joined.symm, fun nothing => ?_⟩
  rw [nothing, List.append_nil] at joined
  rcases List.eq_nil_or_concat former with rfl | ⟨front, last, rfl⟩
  · exact nonempty joined.symm
  · apply notEnded
    rw [← joined]
    simp

theorem eq_or_mem_of_mem_intercalate {separator char : Char} {pieces : List (List Char)}
    (member : char ∈ [separator].intercalate pieces) :
    char = separator ∨ ∃ piece ∈ pieces, char ∈ piece := by
  cases pieces with
  | nil => simp at member
  | cons first rest =>
      rw [intercalate_cons, List.mem_append, List.mem_flatMap] at member
      rcases member with inside | ⟨piece, pieceMember, inside⟩
      · exact Or.inr ⟨first, List.mem_cons_self, inside⟩
      · rcases List.mem_cons.mp inside with same | deeper
        · exact Or.inl same
        · exact Or.inr ⟨piece, List.mem_cons_of_mem first pieceMember, deeper⟩

end NoteClock
