import NoteClock.Proofs.Guarded.Operation
import NoteClock.Proofs.Sound.Voices

/-!
Where notes stand in a mix. The count of samples never falls when a duration grows, not even where it is
cut off, so that a note behind the length of a mix lies behind its samples as well and is left out.
-/

namespace NoteClock

namespace Tone

theorem sampleCount_of_past {millis rate : Nat} (past : maxMillis ≤ millis * rate) :
    sampleCount millis rate = maxMillis ⌈/⌉ 1000 := by
  rw [sampleCount, saturate, Nat.min_eq_right past]
  rfl

theorem sampleCount_le_maxMillis (millis rate : Nat) : sampleCount millis rate ≤ maxMillis := by
  have bound := saturate_le (millis * rate)
  rw [sampleCount]
  unfold maxMillis at *
  omega

theorem sampleCount_mono {millis longer rate faster : Nat} (le : millis ≤ longer)
    (rateLe : rate ≤ faster) : sampleCount millis rate ≤ sampleCount longer faster := by
  have product := saturate_mono (Nat.mul_le_mul le rateLe)
  exact Nat.div_le_div_right (Nat.add_le_add_right product 999)

theorem sampleCount_add {first second rate : Nat} (bounded : (first + second) * rate ≤ maxMillis) :
    sampleCount (first + second) rate ≤ sampleCount first rate + sampleCount second rate ∧
      sampleCount first rate + sampleCount second rate ≤ sampleCount (first + second) rate + 1 := by
  rw [Nat.add_mul] at bounded
  simp only [sampleCount, Nat.add_mul, saturate]
  omega

end Tone

namespace Mix

variable {format : Format}

theorem le_offset_of_late {placement : Placement} (late : format.length ≤ placement.instant) :
    Tone.sampleCount format.length format.sampleRate ≤ format.offset placement :=
  Tone.sampleCount_mono late (Nat.le_refl _)

theorem size_fold_modify {count : Nat} (offset : Nat)
    (change : (step : Nat) → step < count → Float32 → Float32) (buffer : Array Float32) :
    (count.fold (fun step below mixed => mixed.modify (offset + step) (change step below))
      buffer).size = buffer.size := by
  induction count with
  | zero => rfl
  | succ count ih => rw [Nat.fold_succ, Array.size_modify, ih]

theorem size_addPlacement (placement : Placement) (buffer : Array Float32) :
    (addPlacement format buffer placement).size = buffer.size := by
  rw [addPlacement]
  split
  · rfl
  · rw [addVoice, size_fold_modify]

theorem mixed_filter_instant_lt (placements : List Placement) :
    mixed format (placements.filter (·.instant < format.length)) = mixed format placements := by
  rw [mixed_eq_ofFn, mixed_eq_ofFn]
  congr 1
  funext index
  apply foldl_addTo_filter
  intro placement _ unheard covered
  have behind := le_offset_of_late (Nat.not_lt.mp (of_decide_eq_false unheard))
  have begun := covered.1
  have inside := index.isLt
  omega

end Mix

namespace Guarded

open Mix (Format voiceGain)

variable {ε : Type} {format : Format} {buffer : Array Float32}

def splitAt (samples : Array Float32) (index : Nat) :
    Guarded ε (Array Float32 × Array Float32) :=
  if index ≤ samples.size then .ok (samples.extract 0 index, samples.extract index)
  else trap .pastEnd

def overlay (samples tone : Array Float32) : Array Float32 :=
  samples.mapIdx fun index sample =>
    match tone[index]? with
    | some voice => sample + voice * voiceGain
    | none => sample

/-- A placement is skipped by the samples of the whole mix, not by those of the buffer at hand. -/
def addPlacement (format : Format) (buffer : Array Float32) (placement : Placement) :
    Guarded ε (Array Float32) :=
  if Tone.sampleCount format.length format.sampleRate ≤ format.offset placement then return buffer
  else do
    let (front, back) ← splitAt buffer (format.offset placement)
    return front ++ overlay back (format.tone placement)

def render (rules : RuleSet) (format : Format) : Guarded Mix.Error (Array Float32 × RuleSet) :=
  if Mix.maxLength < format.length then refuse (.tooLong .mix format.length)
  else if Mix.maxLength < format.toneLength then refuse (.tooLong .tone format.toneLength)
  else do
    let silence := Array.replicate (Tone.sampleCount format.length format.sampleRate) 0.0
    let (placements, after) := schedule rules format.length format.tick
    let mixed ← placements.foldlM (addPlacement format) silence
    return (mixed.map Mix.clamp, after)

theorem splitAt_of_le {samples : Array Float32} {index : Nat} (within : index ≤ samples.size) :
    (splitAt samples index : Guarded ε _) =
      .ok (samples.extract 0 index, samples.extract index) :=
  if_pos within

theorem getElem?_overlay_extract (placement : Placement) {index : Nat}
    (begun : format.offset placement ≤ index) :
    (overlay (buffer.extract (format.offset placement)) (format.tone placement))[
        index - format.offset placement]? =
      buffer[index]?.map (format.addTo index · placement) := by
  have back : (buffer.extract (format.offset placement))[index - format.offset placement]? =
      buffer[index]? := by
    grind
  rw [overlay, Array.getElem?_mapIdx, back]
  congr 1
  funext sum
  by_cases covered : format.Covers placement index
  · rw [Array.getElem?_eq_getElem covered.below, Format.addTo, dif_pos covered]
  · have silent : (format.tone placement).size ≤ index - format.offset placement := by
      rw [Format.Covers] at covered
      omega
    rw [Array.getElem?_eq_none silent, format.addTo_of_not_covers covered]

theorem overlay_extract (placement : Placement) (within : format.offset placement ≤ buffer.size) :
    buffer.extract 0 (format.offset placement) ++
        overlay (buffer.extract (format.offset placement)) (format.tone placement) =
      Mix.addVoice buffer (format.offset placement) (format.tone placement) := by
  have front : (buffer.extract 0 (format.offset placement)).size = format.offset placement := by
    rw [Array.size_extract, Nat.min_eq_left within, Nat.sub_zero]
  apply Array.ext_getElem?
  intro index
  rw [Mix.getElem?_addVoice, Array.getElem?_append, front]
  split
  · rename_i before
    have silent : ¬format.Covers placement index := fun covered => Nat.not_lt.mpr covered.1 before
    have kept : (buffer.extract 0 (format.offset placement))[index]? = buffer[index]? := by
      grind
    simp only [kept, format.addTo_of_not_covers silent, Option.map_id']
  · rename_i reached
    exact getElem?_overlay_extract placement (Nat.not_lt.mp reached)

theorem addPlacement_eq (placement : Placement)
    (size : buffer.size = Tone.sampleCount format.length format.sampleRate) :
    (addPlacement format buffer placement : Guarded ε _) =
      .ok (Mix.addPlacement format buffer placement) := by
  by_cases late : buffer.size ≤ format.offset placement
  · have skipped : Mix.addPlacement format buffer placement = buffer := if_pos late
    rw [addPlacement, if_pos (size ▸ late), skipped]
    rfl
  · have within := Nat.le_of_not_le late
    have added : Mix.addPlacement format buffer placement =
      Mix.addVoice buffer (format.offset placement) (format.tone placement) := if_neg late
    rw [addPlacement, if_neg (size ▸ late), splitAt_of_le within, added,
      ← overlay_extract placement within]
    rfl

theorem foldlM_addPlacement_eq (placements : List Placement)
    (size : buffer.size = Tone.sampleCount format.length format.sampleRate) :
    (placements.foldlM (addPlacement format) buffer : Guarded ε _) =
      .ok (placements.foldl (Mix.addPlacement format) buffer) := by
  -- The buffer keeps its size from one placement to the next, so that no split is past its end.
  induction placements generalizing buffer with
  | nil => rfl
  | cons placement rest ih =>
      rw [List.foldlM_cons, addPlacement_eq placement size, List.foldl_cons]
      exact ih ((Mix.size_addPlacement placement buffer).trans size)

theorem render_eq (rules : RuleSet) : render rules format = of (Mix.render rules format) := by
  rw [render, Mix.render]
  split
  · rfl
  split
  · rfl
  · simp only [foldlM_addPlacement_eq _ Array.size_replicate]
    rfl

end Guarded

namespace Mix

open Tone

/-- The count of samples is the product of the duration and the rate, rounded up, and the product is cut
off at 64 bits. It never falls, and a duration cut in two gains one sample at most. A note that is not
placed in front of the end of a mix is past its samples then, even at the last instant there is: it is
skipped, the mix is that of the notes in front of the end, and no split of its samples is trapped. -/
theorem late_notes_never_reach_the_samples :
    (∀ millis rate, sampleCount millis rate < 2 ^ 64 ∧
      (millis * rate < 2 ^ 64 → sampleCount millis rate = millis * rate ⌈/⌉ 1000) ∧
      (2 ^ 64 ≤ millis * rate → sampleCount millis rate = (2 ^ 64 - 1) ⌈/⌉ 1000)) ∧
    (∀ millis longer rate faster, millis ≤ longer → rate ≤ faster →
      sampleCount millis rate ≤ sampleCount longer faster) ∧
    (∀ first second rate, (first + second) * rate < 2 ^ 64 →
      sampleCount (first + second) rate ≤ sampleCount first rate + sampleCount second rate ∧
      sampleCount first rate + sampleCount second rate ≤ sampleCount (first + second) rate + 1) ∧
    ∀ (rules : RuleSet) (format : Format),
      let placements := (schedule rules format.length format.tick).1
      (∀ placement buffer, format.length ≤ placement.instant →
        buffer.size = sampleCount format.length format.sampleRate →
          buffer.size ≤ format.offset placement ∧
          (Guarded.addPlacement format buffer placement : Guarded Empty _) = .ok buffer) ∧
      Guarded.render rules format = Guarded.of (render rules format) ∧
      (∀ trap, Guarded.render rules format ≠ .error (.trapped trap)) ∧
      (format.length ≤ 3600000 → format.toneLength ≤ 3600000 →
        Guarded.render rules format =
          .ok ((mixed format (placements.filter (·.instant < format.length))).map clamp,
            (schedule rules format.length format.tick).2)) := by
  refine ⟨?_, ?_, ?_, ?_⟩
  · intro millis rate
    refine ⟨?_, ?_, ?_⟩
    · exact Nat.lt_of_le_of_lt (sampleCount_le_maxMillis millis rate) (by decide)
    · exact fun below => sampleCount_eq_ceilDiv (Nat.le_pred_of_lt below)
    · exact fun past => sampleCount_of_past (Nat.le_trans (by decide) past)
  · exact fun _ _ _ _ le rateLe => sampleCount_mono le rateLe
  · exact fun _ _ _ below => sampleCount_add (Nat.le_pred_of_lt below)
  · intro rules format placements
    have same : Guarded.render rules format = Guarded.of (render rules format) :=
      Guarded.render_eq rules
    refine ⟨?_, same, ?_, ?_⟩
    · intro placement buffer late size
      have past := le_offset_of_late late
      exact ⟨size ▸ past, if_pos past⟩
    · intro trap
      rw [same]
      exact Guarded.of_ne_trapped _ trap
    · intro lengthBound toneBound
      rw [same, render_of_le rules lengthBound toneBound, mixed_filter_instant_lt]
      rfl

theorem late_notes_never_reach_the_samples_at_the_last_instant :
    let rules : RuleSet := ⟨[.every 1 [⟨.A, .natural⟩, ⟨.B, .flat⟩] .arpeggio], maxMillis⟩
    let format : Format := ⟨3, 1, 2, 1000⟩
    let late : Placement := ⟨maxMillis, ⟨.B, .flat⟩⟩
    let silence := Array.replicate 3 0.0
    (schedule rules 3 1).1 = [⟨1, ⟨.A, .natural⟩⟩, ⟨2, ⟨.A, .natural⟩⟩, late, ⟨3, ⟨.A, .natural⟩⟩] ∧
      sampleCount 2305843009213693 8000 = 18446744073709544 ∧
      sampleCount 2305843009213694 8000 = 18446744073709552 ∧
      sampleCount maxMillis 4294967295 = 18446744073709552 ∧
      sampleCount 2305843009213693 8000 ≤ sampleCount maxMillis 4294967295 ∧
      sampleCount 1 44100 + sampleCount 1 44100 ≤ sampleCount 2 44100 + 1 ∧
      3 ≤ format.offset late ∧
      (Guarded.addPlacement format silence late : Guarded Empty _) = .ok silence ∧
      Guarded.render rules format =
        .ok ((mixed format [⟨1, ⟨.A, .natural⟩⟩, ⟨2, ⟨.A, .natural⟩⟩]).map clamp,
          (schedule rules 3 1).2) := by
  intro rules format late silence
  obtain ⟨counts, mono, parts, mixes⟩ := late_notes_never_reach_the_samples
  obtain ⟨skipped, _, _, rendered⟩ := mixes rules format
  have size : silence.size = sampleCount format.length format.sampleRate := by decide
  obtain ⟨past, kept⟩ := skipped late silence (by decide) size
  have early : (schedule rules 3 1).1.filter (·.instant < 3) =
      [⟨1, ⟨.A, .natural⟩⟩, ⟨2, ⟨.A, .natural⟩⟩] := by decide
  refine ⟨by decide, ?_, ?_, ?_, ?_, ?_, past, kept, ?_⟩
  · exact ((counts 2305843009213693 8000).2.1 (by decide)).trans (by decide)
  · exact ((counts 2305843009213694 8000).2.2 (by decide)).trans (by decide)
  · exact ((counts maxMillis 4294967295).2.2 (by decide)).trans (by decide)
  · exact mono _ _ _ _ (by decide) (by decide)
  · exact (parts 1 1 44100 (by decide)).2
  · rw [← early]
    exact rendered (by decide) (by decide)

end Mix

end NoteClock
