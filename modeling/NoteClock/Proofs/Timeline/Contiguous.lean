import NoteClock.Time.Millis

/-! Windows that follow each other without a gap or an overlap, none of them reversed. -/

namespace NoteClock

inductive Contiguous : Nat → List Window → Prop
  | nil (start : Nat) : Contiguous start []
  | cons {start stop : Nat} {rest : List Window} : start ≤ stop → Contiguous stop rest →
      Contiguous start (⟨start, stop⟩ :: rest)

/-- The end of the last window, or `start` if there is none. -/
def endOf (start : Nat) (windows : List Window) : Nat :=
  (windows.getLast?.map Window.stop).getD start

theorem endOf_cons (start : Nat) (window : Window) (rest : List Window) :
    endOf start (window :: rest) = endOf window.stop rest := by
  cases rest with
  | nil => rfl
  | cons second rest => simp [endOf, List.getLast?_cons]

theorem Contiguous.le_endOf {start : Nat} {windows : List Window}
    (contiguous : Contiguous start windows) : start ≤ endOf start windows := by
  induction contiguous with
  | nil => exact Nat.le_refl _
  | cons le _ ih =>
      rw [endOf_cons]
      exact Nat.le_trans le ih

theorem Contiguous.bounds {start : Nat} {windows : List Window}
    (contiguous : Contiguous start windows) :
    ∀ window ∈ windows,
      start ≤ window.start ∧ window.start ≤ window.stop ∧ window.stop ≤ endOf start windows := by
  induction contiguous with
  | nil => simp
  | cons le tail ih =>
      intro window member
      rw [endOf_cons]
      rcases List.mem_cons.mp member with rfl | later
      · exact ⟨Nat.le_refl _, le, tail.le_endOf⟩
      · have bounds := ih window later
        exact ⟨Nat.le_trans le bounds.1, bounds.2⟩

theorem Contiguous.filter_contains_of_lt {start instant : Nat} {windows : List Window}
    (contiguous : Contiguous start windows) (lt : instant < start) :
    windows.filter (·.contains instant) = [] := by
  rw [List.filter_eq_nil_iff]
  intro window member
  have bounds := contiguous.bounds window member
  rw [Window.contains_eq_true_iff]
  omega

theorem Contiguous.filter_contains_of_le {start instant : Nat} {windows : List Window}
    (contiguous : Contiguous start windows) (le : endOf start windows ≤ instant) :
    windows.filter (·.contains instant) = [] := by
  rw [List.filter_eq_nil_iff]
  intro window member
  have bounds := contiguous.bounds window member
  rw [Window.contains_eq_true_iff]
  omega

theorem Contiguous.exists_filter_contains {start instant : Nat} {windows : List Window}
    (contiguous : Contiguous start windows) (le : start ≤ instant)
    (lt : instant < endOf start windows) :
    ∃ window, window.contains instant = true ∧ windows.filter (·.contains instant) = [window] := by
  induction contiguous with
  | nil => exact absurd lt (Nat.not_lt.mpr le)
  | @cons start stop rest _ tail ih =>
      rw [endOf_cons] at lt
      rcases Nat.lt_or_ge instant stop with inside | later
      · have holds : Window.contains ⟨start, stop⟩ instant = true :=
          Window.contains_eq_true_iff.mpr ⟨le, inside⟩
        refine ⟨⟨start, stop⟩, holds, ?_⟩
        rw [List.filter_cons, if_pos holds, tail.filter_contains_of_lt inside]
      · obtain ⟨window, holds, only⟩ := ih later lt
        refine ⟨window, holds, ?_⟩
        have misses : ¬Window.contains ⟨start, stop⟩ instant = true := by
          rw [Window.contains_eq_true_iff]
          exact fun inside => Nat.not_lt.mpr later inside.2
        rw [List.filter_cons, if_neg misses, only]

end NoteClock
