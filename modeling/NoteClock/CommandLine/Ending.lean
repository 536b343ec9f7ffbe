import NoteClock.CommandLine.Plan
import NoteClock.Playback
import NoteClock.Sound

/-!
Carrying plans out on a directory of files. A rendering is made in full before the first file is
touched.
-/

namespace NoteClock.CommandLine

structure Ending where
  code : Nat
  output : String
  errors : String
  files : Files

def Ending.refused (refusal : Refusal) (files : Files) : Ending := ⟨1, "", refusal.text, files⟩

def savedMessage (path : String) (length sampleRate : Nat) : String :=
  s!"wrote {path} ({Elapsed.display length}, {sampleRate} Hz)\n"

def renderWave (rules : RuleSet) (settings : Settings) (length : Nat) : Except Refusal ByteArray :=
  let format : Mix.Format := ⟨length, settings.tick, settings.noteDuration, settings.sampleRate⟩
  match Mix.render rules format with
  | .error error => .error (.reported (.mix error))
  | .ok (samples, _) => .ok (WaveFile.encode samples settings.sampleRate)

def transcript (rules : RuleSet) (length : Option Nat) (readings : List Nat) : List String :=
  let (lines, playback) := (Playback.start rules).follow length readings
  Playback.opening :: lines ++ [playback.closing (readings.getLast?.getD 0)]

def Plan.carryOut (plan : Plan) (files : Files) (readings : List Nat) : Ending :=
  match plan with
  | .print text => ⟨0, text, "", files⟩
  | .play rules _ length =>
      ⟨0, String.join ((transcript rules length readings).map (· ++ "\n")), "", files⟩
  | .render rules settings length output =>
      match renderWave rules settings length with
      | .error refusal => .refused refusal files
      | .ok wave =>
          match files.write output wave with
          | (none, after) => ⟨0, savedMessage output length settings.sampleRate, "", after⟩
          | (some fault, after) => .refused (.reported (.unwritable fault)) after

def Invocation.carryOut (invocation : Invocation) (decode : Settings.Decoder) (files : Files)
    (usual : String) (readings : List Nat) : Ending :=
  match invocation.plan decode files.read usual with
  | .error refusal => .refused refusal files
  | .ok plan => plan.carryOut files readings

end NoteClock.CommandLine
