import NoteClock.Schedule

/-!
Sound: every placed note becomes a tone, a sine wave that fades in and out linearly, and the tones are
added up in one buffer. What runs past the end is cut, and the sum is kept between -1 and 1. A wave file
holds one channel of 16-bit samples behind a header of 44 bytes, all in little-endian order.
-/

namespace NoteClock

namespace Tone

def fadeFraction : Float := 0.05

def pi : Float := 3.14159265358979323846

def fadeLength (length : Nat) : Nat := (Float.ofNat length * fadeFraction).toUInt64.toNat

def gain (index length : Nat) : Float :=
  let fade := fadeLength length
  if fade = 0 then 1.0
  else if index < fade then Float.ofNat index / Float.ofNat fade
  else if length - fade ≤ index then Float.ofNat (length - index) / Float.ofNat fade
  else 1.0

/-- The samples that a duration takes, the last one counted whole. -/
def sampleCount (millis rate : Nat) : Nat := (saturate (millis * rate) + 999) / 1000

def sample (frequency : Float) (rate length index : Nat) : Float32 :=
  let phase := frequency * Float.ofNat index / Float.ofNat rate
  (Float.sin (phase * 2.0 * pi) * gain index length).toFloat32

def render (frequency : Float) (millis rate : Nat) : Array Float32 :=
  let length := sampleCount millis rate
  Array.ofFn fun index : Fin length => sample frequency rate length index

def ofNote (note : Note) (millis rate : Nat) : Array Float32 := render note.frequency millis rate

end Tone

namespace Mix

def voiceGain : Float32 := 0.3

def maxLength : Nat := 3600000

inductive Part where
  | mix
  | tone
  deriving DecidableEq, Repr

def Part.describe : Part → String
  | mix => "render length"
  | tone => "note duration"

inductive Error where
  | tooLong (part : Part) (millis : Nat)
  deriving DecidableEq, Repr

def Error.message : Error → String
  | tooLong part millis => s!"{part.describe} of {millis}ms is longer than one hour"

/-- `tick` is the width of the windows that the rules are polled with, `toneLength` that of a note. -/
structure Format where
  length : Nat
  tick : Nat
  toneLength : Nat
  sampleRate : Nat
  deriving DecidableEq, Repr

def addVoice (buffer : Array Float32) (offset : Nat) (tone : Array Float32) : Array Float32 :=
  Nat.fold (min tone.size (buffer.size - offset)) (fun index below mixed =>
    mixed.modify (offset + index) (· + tone[index] * voiceGain)) buffer

def addPlacement (format : Format) (buffer : Array Float32) (placement : Placement) :
    Array Float32 :=
  let offset := Tone.sampleCount placement.instant format.sampleRate
  if buffer.size ≤ offset then buffer
  else addVoice buffer offset (Tone.ofNote placement.note format.toneLength format.sampleRate)

def clamp (sample : Float32) : Float32 :=
  if sample < -1.0 then -1.0 else if 1.0 < sample then 1.0 else sample

def render (rules : RuleSet) (format : Format) : Except Error (Array Float32 × RuleSet) :=
  if maxLength < format.length then .error (.tooLong .mix format.length)
  else if maxLength < format.toneLength then .error (.tooLong .tone format.toneLength)
  else
    let silence := Array.replicate (Tone.sampleCount format.length format.sampleRate) 0.0
    let (placements, after) := schedule rules format.length format.tick
    .ok ((placements.foldl (addPlacement format) silence).map clamp, after)

end Mix

namespace WaveFile

/-- The sample as an integer: the fraction is dropped, and what does not fit is cut off. -/
def quantize (sample : Float32) : Int16 := (sample * 32767.0).toInt16

def bytes16 (value : UInt16) : List UInt8 := [value.toUInt8, (value >>> 8).toUInt8]

def bytes32 (value : UInt32) : List UInt8 :=
  [value.toUInt8, (value >>> 8).toUInt8, (value >>> 16).toUInt8, (value >>> 24).toUInt8]

def tag (name : String) : List UInt8 := name.toUTF8.toList

def header (count rate : Nat) : List UInt8 :=
  let size := (2 * count).toUInt32
  tag "RIFF" ++ bytes32 (36 + size) ++ tag "WAVE"
    ++ tag "fmt " ++ bytes32 16 ++ bytes16 1 ++ bytes16 1
    ++ bytes32 rate.toUInt32 ++ bytes32 (2 * rate).toUInt32 ++ bytes16 2 ++ bytes16 16
    ++ tag "data" ++ bytes32 size

def encode (samples : Array Float32) (rate : Nat) : ByteArray :=
  samples.foldl (fun bytes sample =>
      let value := (quantize sample).toUInt16
      (bytes.push value.toUInt8).push (value >>> 8).toUInt8)
    ⟨(header samples.size rate).toArray⟩

end WaveFile

end NoteClock
