import Mathlib.Algebra.Order.Floor.Div
import Mathlib.GroupTheory.GroupAction.Ring
import NoteClock.Sound

/-!
The voices of a mix. Tones are added into one buffer, a placement at a time, and every sample comes out
as the sum of the tones that cover it, taken in the order of the placements.
-/

namespace NoteClock

namespace Tone

theorem size_ofNote (note : Note) (millis rate : Nat) :
    (ofNote note millis rate).size = sampleCount millis rate := Array.size_ofFn

theorem sampleCount_eq_ceilDiv {millis rate : Nat} (bounded : millis * rate ≤ maxMillis) :
    sampleCount millis rate = millis * rate ⌈/⌉ 1000 := by
  rw [sampleCount, saturate_of_le bounded, Nat.ceilDiv_eq_add_pred_div]
  omega

theorem mul_le_maxMillis {millis rate : Nat} (short : millis ≤ Mix.maxLength)
    (rateBound : rate < 2 ^ 32) : millis * rate ≤ maxMillis :=
  calc
    millis * rate ≤ Mix.maxLength * 2 ^ 32 := Nat.mul_le_mul short (Nat.le_of_lt rateBound)
    _ ≤ maxMillis := by decide

end Tone

namespace Mix

theorem getElem?_fold_modify {count : Nat} (offset : Nat)
    (change : (step : Nat) → step < count → Float32 → Float32) (buffer : Array Float32)
    (index : Nat) :
    (count.fold (fun step below mixed => mixed.modify (offset + step) (change step below))
        buffer)[index]? =
      buffer[index]?.map fun sum =>
        if covered : offset ≤ index ∧ index < offset + count then
          change (index - offset) (by omega) sum
        else sum := by
  induction count with
  | zero =>
      have never : ¬(offset ≤ index ∧ index < offset + 0) := by omega
      simp only [Nat.fold_zero, dif_neg never, Option.map_id']
  | succ count ih =>
      rw [Nat.fold_succ, Array.getElem?_modify, ih]
      by_cases last : offset + count = index
      · have before : ¬(offset ≤ index ∧ index < offset + count) := by omega
        have now : offset ≤ index ∧ index < offset + (count + 1) := by omega
        have step : index - offset = count := by omega
        simp only [if_pos last, dif_neg before, dif_pos now, step, Option.map_map]
        rfl
      · have same : (offset ≤ index ∧ index < offset + (count + 1)) ↔
            (offset ≤ index ∧ index < offset + count) := by omega
        simp only [if_neg last, same]

variable (format : Format)

namespace Format

def offset (placement : Placement) : Nat :=
  Tone.sampleCount placement.instant format.sampleRate

def tone (placement : Placement) : Array Float32 :=
  Tone.ofNote placement.note format.toneLength format.sampleRate

/-- The tone of the placement sounds in this sample. -/
def Covers (placement : Placement) (index : Nat) : Prop :=
  format.offset placement ≤ index ∧
    index < format.offset placement + (format.tone placement).size

instance (placement : Placement) (index : Nat) : Decidable (format.Covers placement index) :=
  inferInstanceAs (Decidable (_ ∧ _))

variable {format} in
theorem Covers.below {placement : Placement} {index : Nat}
    (covered : format.Covers placement index) :
    index - format.offset placement < (format.tone placement).size := by
  obtain ⟨begun, sounding⟩ := covered
  omega

/-- The sum in one sample, with the voice of a placement added if it covers the sample. -/
def addTo (index : Nat) (sum : Float32) (placement : Placement) : Float32 :=
  if covered : format.Covers placement index then
    have below := covered.below
    sum + (format.tone placement)[index - format.offset placement] * voiceGain
  else sum

theorem addTo_of_not_covers {placement : Placement} {index : Nat}
    (silent : ¬format.Covers placement index) (sum : Float32) :
    format.addTo index sum placement = sum := by
  rw [addTo, dif_neg silent]

end Format

theorem getElem?_addVoice (buffer : Array Float32) (placement : Placement) (index : Nat) :
    (addVoice buffer (format.offset placement) (format.tone placement))[index]? =
      buffer[index]?.map (format.addTo index · placement) := by
  rw [addVoice, getElem?_fold_modify]
  by_cases inside : index < buffer.size
  · have cut : (format.offset placement ≤ index ∧ index < format.offset placement +
        min (format.tone placement).size (buffer.size - format.offset placement)) ↔
        format.Covers placement index := by
      rw [Format.Covers]
      omega
    simp only [cut]
    rfl
  · rw [Array.getElem?_eq_none (by omega)]
    rfl

theorem getElem?_addPlacement (buffer : Array Float32) (placement : Placement) (index : Nat) :
    (addPlacement format buffer placement)[index]? =
      buffer[index]?.map (format.addTo index · placement) := by
  by_cases late : buffer.size ≤ format.offset placement
  · have skipped : addPlacement format buffer placement = buffer := if_pos late
    rw [skipped]
    by_cases inside : index < buffer.size
    · have silent : ¬format.Covers placement index := fun covered => by
        have begun := covered.1
        omega
      rw [Array.getElem?_eq_getElem inside, Option.map_some, format.addTo_of_not_covers silent]
    · rw [Array.getElem?_eq_none (by omega)]
      rfl
  · have added : addPlacement format buffer placement =
        addVoice buffer (format.offset placement) (format.tone placement) := if_neg late
    rw [added, getElem?_addVoice]

theorem getElem?_foldl_addPlacement (placements : List Placement) (buffer : Array Float32)
    (index : Nat) :
    (placements.foldl (addPlacement format) buffer)[index]? =
      buffer[index]?.map fun sum => placements.foldl (format.addTo index) sum := by
  induction placements generalizing buffer with
  | nil => simp
  | cons placement rest ih =>
      rw [List.foldl_cons, ih, getElem?_addPlacement, Option.map_map]
      rfl

theorem foldl_addTo_filter {index : Nat} {heard : Placement → Bool} {placements : List Placement}
    (unheard : ∀ placement ∈ placements, heard placement = false → ¬format.Covers placement index)
    (sum : Float32) :
    (placements.filter heard).foldl (format.addTo index) sum =
      placements.foldl (format.addTo index) sum := by
  induction placements generalizing sum with
  | nil => rfl
  | cons placement rest ih =>
      obtain ⟨first, others⟩ := List.forall_mem_cons.mp unheard
      rw [List.foldl_cons]
      by_cases loud : heard placement = true
      · rw [List.filter_cons_of_pos loud, List.foldl_cons, ih others]
      · have silent := first (Bool.eq_false_iff.mpr loud)
        rw [List.filter_cons_of_neg loud, ih others, format.addTo_of_not_covers silent]

theorem foldl_addTo_of_not_covers {index : Nat} {placements : List Placement}
    (silent : ∀ placement ∈ placements, ¬format.Covers placement index) (sum : Float32) :
    placements.foldl (format.addTo index) sum = sum := by
  have unheard : ∀ placement ∈ placements, false = false → ¬format.Covers placement index :=
    fun placement member _ => silent placement member
  rw [← foldl_addTo_filter format unheard, List.filter_false, List.foldl_nil]

/-- The samples of a mix before they are clamped. -/
def mixed (placements : List Placement) : Array Float32 :=
  placements.foldl (addPlacement format)
    (Array.replicate (Tone.sampleCount format.length format.sampleRate) 0.0)

theorem mixed_eq_ofFn (placements : List Placement) :
    mixed format placements =
      Array.ofFn fun index : Fin (Tone.sampleCount format.length format.sampleRate) =>
        placements.foldl (format.addTo index) 0.0 := by
  apply Array.ext_getElem?
  intro index
  rw [mixed, getElem?_foldl_addPlacement, Array.getElem?_replicate, Array.getElem?_ofFn]
  split <;> rfl

variable {format}

theorem render_of_le (rules : RuleSet) (lengthBound : format.length ≤ maxLength)
    (toneBound : format.toneLength ≤ maxLength) :
    render rules format =
      .ok ((mixed format (schedule rules format.length format.tick).1).map clamp,
        (schedule rules format.length format.tick).2) := by
  rw [render, if_neg (Nat.not_lt.mpr lengthBound), if_neg (Nat.not_lt.mpr toneBound)]
  rfl

/-- A mix of up to an hour has the samples of its length. Each is the sum of the voices that cover it,
in the order of the schedule, clamped at the end: a voice past the end is not heard, one that runs past
the end is cut, and where there is no voice there is silence. -/
theorem each_sample_sums_its_voices (rules : RuleSet) (lengthBound : format.length ≤ 3600000)
    (toneBound : format.toneLength ≤ 3600000) (rateBound : format.sampleRate < 2 ^ 32) :
    let placements := (schedule rules format.length format.tick).1
    ∃ samples,
      render rules format = .ok (samples, (schedule rules format.length format.tick).2) ∧
      samples.size = format.length * format.sampleRate ⌈/⌉ 1000 ∧
      (∀ placement, (format.tone placement).size =
        format.toneLength * format.sampleRate ⌈/⌉ 1000) ∧
      ∀ index (inside : index < samples.size),
        samples[index] = clamp (placements.foldl (format.addTo index) 0.0) ∧
        samples[index] = clamp ((placements.filter (format.offset · < samples.size)).foldl
          (format.addTo index) 0.0) ∧
        ((∀ placement ∈ placements, ¬format.Covers placement index) →
          samples[index] = clamp 0.0) := by
  intro placements
  have lengthFits := Tone.mul_le_maxMillis lengthBound rateBound
  have toneFits := Tone.mul_le_maxMillis toneBound rateBound
  have size : ((mixed format placements).map clamp).size =
      Tone.sampleCount format.length format.sampleRate := by
    rw [Array.size_map, mixed_eq_ofFn, Array.size_ofFn]
  refine ⟨_, render_of_le rules lengthBound toneBound, ?_, ?_, ?_⟩
  · exact size.trans (Tone.sampleCount_eq_ceilDiv lengthFits)
  · intro placement
    exact (Tone.size_ofNote _ _ _).trans (Tone.sampleCount_eq_ceilDiv toneFits)
  · intro index inside
    have sample : ((mixed format placements).map clamp)[index] =
        clamp (placements.foldl (format.addTo index) 0.0) := by
      simp only [Array.getElem_map, mixed_eq_ofFn, Array.getElem_ofFn]
    refine ⟨sample, ?_, ?_⟩
    · rw [foldl_addTo_filter, sample]
      intro placement _ late covered
      have begun := covered.1
      have past := Nat.not_lt.mp (of_decide_eq_false late)
      omega
    · intro silent
      rw [sample, foldl_addTo_of_not_covers format silent]

theorem each_sample_sums_its_voices_up_to_the_end :
    let rules : RuleSet :=
      ⟨[.once 0 [⟨.A, .natural⟩, ⟨.B, .flat⟩], .every 3 [⟨.C, .natural⟩] (.stack 1),
        .once 3 [⟨.D, .natural⟩]], 250⟩
    let format : Format := ⟨4, 1, 2, 1000⟩
    let placements := (schedule rules 4 1).1
    (format.length ≤ 3600000 ∧ format.toneLength ≤ 3600000 ∧ format.sampleRate < 2 ^ 32) ∧
      placements = [⟨1, ⟨.A, .natural⟩⟩, ⟨1, ⟨.B, .flat⟩⟩, ⟨3, ⟨.C, .natural⟩⟩, ⟨4, ⟨.D, .natural⟩⟩] ∧
      ∃ samples, render rules format = .ok (samples, (schedule rules 4 1).2) ∧ samples.size = 4 ∧
        (∀ placement, (format.tone placement).size = 2) ∧
        samples[0]? = some (clamp 0.0) ∧
        (∀ index, index < 4 →
          samples[index]? = some (clamp (placements.foldl (format.addTo index) 0.0))) ∧
        placements.filter (format.offset · < samples.size) = placements.take 3 := by
  intro rules format placements
  have lengthBound : format.length ≤ 3600000 := by decide
  have toneBound : format.toneLength ≤ 3600000 := by decide
  have rateBound : format.sampleRate < 2 ^ 32 := by decide
  have silent : ∀ placement ∈ placements, ¬format.Covers placement 0 := by decide
  obtain ⟨samples, rendered, size, toneSize, sums⟩ :=
    each_sample_sums_its_voices rules lengthBound toneBound rateBound
  have four : samples.size = 4 := size.trans (by decide)
  refine ⟨⟨lengthBound, toneBound, rateBound⟩, by decide, samples, rendered, four, ?_, ?_, ?_, ?_⟩
  · intro placement
    exact (toneSize placement).trans (by decide)
  · rw [Array.getElem?_eq_getElem (by omega), (sums 0 (by omega)).2.2 silent]
  · intro index below
    rw [Array.getElem?_eq_getElem (by omega), (sums index (by omega)).1]
  · rw [four]
    decide

end Mix

end NoteClock
