import NoteClock.CommandLine.Failure
import NoteClock.CommandLine.Invocation
import NoteClock.Listing
import NoteClock.Rule.Guide

/-!
What an invocation comes to. The settings and the rules are read and checked before there is a plan,
so that a plan never holds settings out of their range.
-/

namespace NoteClock.CommandLine

inductive Plan where
  | print (text : String)
  | play (rules : RuleSet) (settings : Settings) (length : Option Nat)
  | render (rules : RuleSet) (settings : Settings) (length : Nat) (output : String)
  deriving DecidableEq, Repr

def loadSettings (decode : Settings.Decoder) (read : Files.Reader) (usual : String)
    (named : Option String) : Except Settings.LoadError Settings :=
  match named with
  | some path => Settings.load decode read path
  | none => .ok (Settings.loadOrDefault decode read usual)

structure Overrides where
  delay : Option Nat
  tick : Option Nat
  sampleRate : Option Nat
  deriving DecidableEq, Repr

def Overrides.apply (overrides : Overrides) (settings : Settings) : Settings :=
  { settings with
    interNoteDelay := overrides.delay.getD settings.interNoteDelay
    tick := overrides.tick.getD settings.tick
    sampleRate := overrides.sampleRate.getD settings.sampleRate }

def Overrides.validate (overrides : Overrides) (settings : Settings) : Except Failure Settings :=
  (overrides.apply settings).validate.mapError fun fault => .settings (.invalid fault)

def readText (read : Files.Reader) (path : String) : Except FileFault String :=
  match read path with
  | .error fault => .error fault
  | .ok bytes =>
      match String.fromUTF8? bytes with
      | some text => .ok text
      | none => .error .notText

def loadRules (read : Files.Reader) (path : String) (spacing : Nat) : Except Failure RuleSet :=
  match readText read path with
  | .error fault => .error (.unreadable fault)
  | .ok text => (RuleSet.ofText text.toList spacing).mapError .rules

def Request.rules? : Request → Option String
  | check rules | run rules _ _ _ | render rules _ _ _ _ => some rules
  | guide => none

def Request.plan (request : Request) (read : Files.Reader) (settings : Settings) :
    Except Refusal Plan :=
  match request with
  | .guide => .ok (.print Rule.guide)
  | .check path => do
      let rules ← (loadRules read path settings.interNoteDelay).mapError .told
      return .print (Listing.text rules.commands)
  | .run path delay tick length => do
      let settings ← (Overrides.validate ⟨delay, tick, none⟩ settings).mapError .reported
      let rules ← (loadRules read path settings.interNoteDelay).mapError .reported
      return .play rules settings length
  | .render path output length delay sampleRate => do
      let settings ← (Overrides.validate ⟨delay, none, sampleRate⟩ settings).mapError .reported
      let rules ← (loadRules read path settings.interNoteDelay).mapError .reported
      return .render rules settings length output

def Invocation.inputs (invocation : Invocation) (usual : String) : List String :=
  invocation.settings.getD usual :: invocation.request.rules?.toList

/-- The plan of an invocation. `usual` is the path of the settings file when none is named. -/
def Invocation.plan (invocation : Invocation) (decode : Settings.Decoder) (read : Files.Reader)
    (usual : String) : Except Refusal Plan := do
  let settings ← (loadSettings decode read usual invocation.settings).mapError fun error =>
    .reported (.settings error)
  invocation.request.plan read settings

end NoteClock.CommandLine
