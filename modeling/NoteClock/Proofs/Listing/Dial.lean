import NoteClock.Proofs.Listing.Face
import NoteClock.Proofs.Spelling.Value

/-!
Clock faces taken for timestamps. The digits of a face, each group behind its colon put in front of a
unit, spell the time that the face shows, which is the one it was made of up to a decisecond.
-/

namespace NoteClock.Elapsed

theorem isDigit_of_mem_twoDigits {char : Char} {number : Nat} (member : char ∈ twoDigits number) :
    char.isDigit = true := by
  cases digit : char.isDigit with
  | true => rfl
  | false => exact absurd member (not_mem_twoDigits digit number)

theorem two_le_length_twoDigits (number : Nat) : 2 ≤ (twoDigits number).length := by
  rw [twoDigits]
  by_cases short : number < 10
  · rw [if_pos short, List.length_cons]
    exact Nat.succ_le_succ Nat.length_toDigits_pos
  · rw [if_neg short]
    have long : ¬(Nat.toDigits 10 number).length ≤ 1 := by
      rw [Nat.length_toDigits_le_iff (by omega) (by omega)]
      omega
    omega

theorem length_twoDigits {number : Nat} (short : number < 100) : (twoDigits number).length = 2 := by
  apply Nat.le_antisymm _ (two_le_length_twoDigits number)
  rw [twoDigits]
  by_cases single : number < 10
  · rw [if_pos single, Nat.toDigits_of_lt_base single]
    exact Nat.le_refl _
  · rw [if_neg single, Nat.length_toDigits_le_iff (by omega) (by omega)]
    exact short

theorem minutes_lt (millis : Nat) : minutes millis < 60 := Nat.mod_lt _ (by omega)

theorem seconds_lt (millis : Nat) : seconds millis < 60 := Nat.mod_lt _ (by omega)

theorem deciseconds_lt (millis : Nat) : deciseconds millis < 10 := Nat.mod_lt _ (by omega)

/-- The digits on a clock face. Minutes and seconds take two each, hours two or more. -/
@[ext]
structure Dial where
  hours : List Char
  minutes : List Char
  seconds : List Char
  deciseconds : List Char
  decimal_hours : ∀ char ∈ hours, char.isDigit = true
  decimal_minutes : ∀ char ∈ minutes, char.isDigit = true
  decimal_seconds : ∀ char ∈ seconds, char.isDigit = true
  decimal_deciseconds : ∀ char ∈ deciseconds, char.isDigit = true
  two_le_length_hours : 2 ≤ hours.length
  length_minutes : minutes.length = 2
  minutes_lt : Nat.ofDigitChars 10 minutes 0 < 60
  length_seconds : seconds.length = 2
  seconds_lt : Nat.ofDigitChars 10 seconds 0 < 60
  length_deciseconds : deciseconds.length = 1

namespace Dial

def face (dial : Dial) : List Char :=
  dial.hours ++ ':' :: (dial.minutes ++ ':' :: (dial.seconds ++ '.' :: dial.deciseconds))

def token (dial : Dial) : List Char :=
  dial.hours ++ "h:".toList ++ dial.minutes ++ "m:".toList ++ dial.seconds ++ "s:".toList ++
    dial.deciseconds ++ "ds".toList

theorem not_mem_of_decimal {char : Char} (other : char.isDigit = false) {text : List Char}
    (decimal : ∀ char ∈ text, char.isDigit = true) : char ∉ text := by
  intro member
  rw [decimal char member] at other
  cases other

theorem face_inj {dial other : Dial} : dial.face = other.face ↔ dial = other := by
  rw [face, face,
    append_separator_inj (not_mem_of_decimal rfl dial.decimal_hours)
      (not_mem_of_decimal rfl other.decimal_hours),
    append_separator_inj (not_mem_of_decimal rfl dial.decimal_minutes)
      (not_mem_of_decimal rfl other.decimal_minutes),
    append_separator_inj (not_mem_of_decimal rfl dial.decimal_seconds)
      (not_mem_of_decimal rfl other.decimal_seconds), Dial.ext_iff]

theorem hours_ne_nil (dial : Dial) : dial.hours ≠ [] :=
  List.ne_nil_of_length_pos (Nat.lt_of_lt_of_le (by omega) dial.two_le_length_hours)

theorem minutes_ne_nil (dial : Dial) : dial.minutes ≠ [] :=
  List.ne_nil_of_length_eq_add_one dial.length_minutes

theorem seconds_ne_nil (dial : Dial) : dial.seconds ≠ [] :=
  List.ne_nil_of_length_eq_add_one dial.length_seconds

theorem deciseconds_ne_nil (dial : Dial) : dial.deciseconds ≠ [] :=
  List.ne_nil_of_length_eq_add_one dial.length_deciseconds

def segments (dial : Dial) : List Timestamp.Segment :=
  [⟨dial.hours, .hour, dial.hours_ne_nil, dial.decimal_hours⟩,
    ⟨dial.minutes, .minute, dial.minutes_ne_nil, dial.decimal_minutes⟩,
    ⟨dial.seconds, .second, dial.seconds_ne_nil, dial.decimal_seconds⟩,
    ⟨dial.deciseconds, .decisecond, dial.deciseconds_ne_nil, dial.decimal_deciseconds⟩]

def millis (dial : Dial) : Nat := (dial.segments.map Timestamp.Segment.millis).sum

def spelling (dial : Dial) (bounded : dial.millis ≤ maxMillis) : Timestamp.Spelling where
  segments := dial.segments
  nonempty := by simp [segments]
  few := by simp [segments, Timestamp.maxSegments]
  distinct := by simp [segments]
  bounded := bounded

theorem text_spelling (dial : Dial) (bounded : dial.millis ≤ maxMillis) :
    (dial.spelling bounded).text = dial.token := by
  simp [Timestamp.Spelling.text, spelling, segments, Timestamp.Segment.text, TimeUnit.symbol, token]

theorem parse_token (dial : Dial) (bounded : dial.millis ≤ maxMillis) :
    Timestamp.parse dial.token = .ok dial.millis :=
  Timestamp.parse_eq_ok_iff.mpr ⟨dial.spelling bounded, dial.text_spelling bounded, rfl⟩

def of (millis : Nat) : Dial where
  hours := twoDigits (Elapsed.hours millis)
  minutes := twoDigits (Elapsed.minutes millis)
  seconds := twoDigits (Elapsed.seconds millis)
  deciseconds := Nat.toDigits 10 (Elapsed.deciseconds millis)
  decimal_hours := fun _ => isDigit_of_mem_twoDigits
  decimal_minutes := fun _ => isDigit_of_mem_twoDigits
  decimal_seconds := fun _ => isDigit_of_mem_twoDigits
  decimal_deciseconds := fun _ => Nat.isDigit_of_mem_toDigits (by decide) (by decide)
  two_le_length_hours := two_le_length_twoDigits _
  length_minutes := length_twoDigits (Nat.lt_trans (Elapsed.minutes_lt millis) (by decide))
  minutes_lt := by
    rw [ofDigitChars_twoDigits]
    exact Elapsed.minutes_lt millis
  length_seconds := length_twoDigits (Nat.lt_trans (Elapsed.seconds_lt millis) (by decide))
  seconds_lt := by
    rw [ofDigitChars_twoDigits]
    exact Elapsed.seconds_lt millis
  length_deciseconds := by
    rw [Nat.toDigits_of_lt_base (deciseconds_lt millis)]
    rfl

theorem face_of (millis : Nat) : (of millis).face = Elapsed.face millis := (face_eq millis).symm

theorem sum_millis_of_four (first second third fourth : Timestamp.Segment) :
    ([first, second, third, fourth].map Timestamp.Segment.millis).sum =
      first.value * first.unit.millis + (second.value * second.unit.millis +
        (third.value * third.unit.millis + fourth.value * fourth.unit.millis)) := rfl

theorem millis_of (millis : Nat) : (of millis).millis = millis - millis % 100 := by
  have hours : Nat.ofDigitChars 10 (of millis).hours 0 = Elapsed.hours millis :=
    ofDigitChars_twoDigits _
  have minutes : Nat.ofDigitChars 10 (of millis).minutes 0 = Elapsed.minutes millis :=
    ofDigitChars_twoDigits _
  have seconds : Nat.ofDigitChars 10 (of millis).seconds 0 = Elapsed.seconds millis :=
    ofDigitChars_twoDigits _
  have deciseconds : Nat.ofDigitChars 10 (of millis).deciseconds 0 = Elapsed.deciseconds millis :=
    Nat.ofDigitChars_ten_toDigits
  rw [Dial.millis, segments, sum_millis_of_four]
  simp only [Timestamp.Segment.value, hours, minutes, seconds, deciseconds, Elapsed.hours,
    Elapsed.minutes, Elapsed.seconds, Elapsed.deciseconds, TimeUnit.millis]
  omega

theorem eq_of_display {dial : Dial} {millis : Nat}
    (shown : display millis = String.ofList dial.face) : dial = of millis := by
  rw [display, String.ofList_inj, ← face_of, face_inj] at shown
  exact shown.symm

theorem parse_token_of_display {dial : Dial} {millis : Nat} (bounded : millis ≤ maxMillis)
    (shown : display millis = String.ofList dial.face) :
    Timestamp.parse dial.token = .ok (millis - millis % 100) := by
  obtain rfl := eq_of_display shown
  rw [← millis_of]
  apply parse_token
  rw [millis_of]
  exact Nat.le_trans (Nat.sub_le _ _) bounded

end Dial

theorem display_inj {first second : Nat} :
    display first = display second ↔ first / 100 = second / 100 := by
  rw [display, display, String.ofList_inj, face_inj]

/-- Every face is that of a dial, whose digits are read back to the time up to a decisecond. So two
times are shown alike within a decisecond and nowhere else, and what a timestamp stands for can be told
from its face. -/
theorem faces_are_read_back_as_timestamps :
    (∀ millis, millis ≤ maxMillis →
      (∃ dial : Dial, display millis = String.ofList dial.face) ∧
      ∀ dial : Dial, display millis = String.ofList dial.face →
        Timestamp.parse dial.token = .ok (millis - millis % 100)) ∧
    (∀ first second, display first = display second ↔ first / 100 = second / 100) ∧
    ∀ token millis, Timestamp.parse token = .ok millis →
      (∀ dial : Dial, display millis = String.ofList dial.face →
        Timestamp.parse dial.token = .ok millis) ∧
      ∀ other otherMillis, Timestamp.parse other = .ok otherMillis →
        display otherMillis = display millis → otherMillis = millis := by
  refine ⟨?_, fun _ _ => display_inj, ?_⟩
  · intro millis bounded
    refine ⟨⟨Dial.of millis, ?_⟩, fun dial shown => Dial.parse_token_of_display bounded shown⟩
    rw [Dial.face_of, display]
  · intro token millis accepted
    obtain ⟨spelling, _, rfl⟩ := Timestamp.parse_eq_ok_iff.mp accepted
    have whole := spelling.hundred_dvd_millis
    have bounded : spelling.millis ≤ maxMillis := spelling.bounded
    refine ⟨?_, ?_⟩
    · intro dial shown
      have read := Dial.parse_token_of_display bounded shown
      rw [Nat.mod_eq_zero_of_dvd whole, Nat.sub_zero] at read
      exact read
    · intro other otherMillis otherAccepted shown
      obtain ⟨otherSpelling, _, rfl⟩ := Timestamp.parse_eq_ok_iff.mp otherAccepted
      have otherWhole := otherSpelling.hundred_dvd_millis
      have steps := display_inj.mp shown
      omega

theorem faces_are_read_back_as_timestamps_up_to_the_end_of_time :
    let last := 18446744073709551615
    let dial := Dial.of last
    let early := "1h:30m".toList
    let late := "90m".toList
    (last ≤ maxMillis ∧ display last = String.ofList dial.face ∧
        Timestamp.parse early = .ok 5400000 ∧ Timestamp.parse late = .ok 5400000) ∧
      display last = "5124095576030:25:51.6" ∧ dial.token = "5124095576030h:25m:51s:6ds".toList ∧
      Timestamp.parse dial.token = .ok (last - last % 100) ∧
      last - last % 100 = 18446744073709551600 ∧
      Timestamp.parse "01h:30m:00s:0ds".toList = .ok 5400000 := by
  intro last dial early late
  have shown : display last = String.ofList dial.face := by rw [Dial.face_of, display]
  have earlyRead : Timestamp.parse early = .ok 5400000 := by decide +kernel
  have lateRead : Timestamp.parse late = .ok 5400000 := by decide +kernel
  have token : (Dial.of 5400000).token = "01h:30m:00s:0ds".toList := by decide +kernel
  obtain ⟨faces, _, values⟩ := faces_are_read_back_as_timestamps
  refine ⟨⟨by decide, shown, earlyRead, lateRead⟩, by decide +kernel, by decide +kernel,
    (faces last (by decide)).2 dial shown, by decide, ?_⟩
  rw [← token]
  exact (values early 5400000 earlyRead).1 (Dial.of 5400000) (by rw [Dial.face_of, display])

end NoteClock.Elapsed
