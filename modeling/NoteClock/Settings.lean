/-! The settings of playing and rendering, with their limits. -/

namespace NoteClock

structure Settings where
  interNoteDelay : Nat
  tick : Nat
  noteDuration : Nat
  sampleRate : Nat
  deriving DecidableEq, Repr

namespace Settings

def default : Settings := ⟨250, 16, 500, 8000⟩

def maxInterNoteDelay : Nat := 3600000

def maxNoteDuration : Nat := 60000

def maxSampleRate : Nat := 192000

inductive Fault where
  | interNoteDelay
  | tick
  | noteDuration
  | sampleRate
  deriving DecidableEq, Repr

def Fault.message : Fault → String
  | interNoteDelay => s!"inter_note_delay_ms must be at most {maxInterNoteDelay}"
  | tick => "tick_ms must be positive"
  | noteDuration => s!"note_duration_ms must be between 1 and {maxNoteDuration}"
  | sampleRate => s!"sample_rate must be between 1 and {maxSampleRate}"

structure Valid (settings : Settings) : Prop where
  interNoteDelay_le : settings.interNoteDelay ≤ maxInterNoteDelay
  tick_pos : 0 < settings.tick
  noteDuration_pos : 0 < settings.noteDuration
  noteDuration_le : settings.noteDuration ≤ maxNoteDuration
  sampleRate_pos : 0 < settings.sampleRate
  sampleRate_le : settings.sampleRate ≤ maxSampleRate

def validate (settings : Settings) : Except Fault Settings :=
  if maxInterNoteDelay < settings.interNoteDelay then .error .interNoteDelay
  else if settings.tick = 0 then .error .tick
  else if settings.noteDuration = 0 ∨ maxNoteDuration < settings.noteDuration then
    .error .noteDuration
  else if settings.sampleRate = 0 ∨ maxSampleRate < settings.sampleRate then .error .sampleRate
  else .ok settings

theorem valid_of_validate {settings result : Settings} (accepted : settings.validate = .ok result) :
    result = settings ∧ settings.Valid := by
  unfold validate at accepted
  split at accepted
  · contradiction
  split at accepted
  · contradiction
  split at accepted
  · contradiction
  split at accepted
  · contradiction
  · cases accepted
    exact ⟨rfl, by omega, by omega, by omega, by omega, by omega, by omega⟩

end Settings

end NoteClock
