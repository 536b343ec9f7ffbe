import NoteClock.Proofs.CommandLine.SettingsInForce

/-!
Renderings that come to nothing. What can be amiss with the settings, with the rules or with the length
is found out by steps that only look at the files, and the first step that writes stands behind them.
-/

namespace NoteClock.CommandLine

open Settings (Found)

structure Desk where
  files : Files
  output : String

/-- Steps of a command line, each of which may refuse to go on. What was done before it stays done. -/
abbrev Steps := ExceptT Refusal (StateM Desk)

namespace Steps

variable {α β : Type}

def look (answer : Files.Reader → Except Refusal α) : Steps α :=
  ExceptT.mk do return answer (← get).files.read

def save (path : String) (bytes : ByteArray) : Steps Unit :=
  ExceptT.mk <| modifyGet fun desk =>
    match desk.files.write path bytes with
    | (none, files) => (.ok (), { desk with files })
    | (some fault, files) => (.error (.reported (.unwritable fault)), { desk with files })

def say (text : String) : Steps Unit :=
  modify fun desk => { desk with output := desk.output ++ text }

def ending (steps : Steps Unit) (files : Files) : Ending :=
  match steps.run.run ⟨files, ""⟩ with
  | (.ok (), desk) => ⟨0, desk.output, "", desk.files⟩
  | (.error refusal, desk) => ⟨1, desk.output, refusal.text, desk.files⟩

theorem run_look (answer : Files.Reader → Except Refusal α) (desk : Desk) :
    (look answer).run.run desk = (answer desk.files.read, desk) := rfl

theorem run_save (path : String) (bytes : ByteArray) (desk : Desk) :
    (save path bytes).run.run desk =
      match desk.files.write path bytes with
      | (none, files) => (.ok (), { desk with files })
      | (some fault, files) => (.error (.reported (.unwritable fault)), { desk with files }) := rfl

theorem run_say (text : String) (desk : Desk) :
    (say text).run.run desk = (.ok (), { desk with output := desk.output ++ text }) := rfl

theorem run_bind_of_error {first : Steps α} {next : α → Steps β} {desk after : Desk}
    {refusal : Refusal} (ran : first.run.run desk = (.error refusal, after)) :
    (first >>= next).run.run desk = (.error refusal, after) := by
  simp only [ExceptT.run_bind, StateT.run_bind, ran]
  rfl

theorem run_bind_of_ok {first : Steps α} {next : α → Steps β} {desk after : Desk} {value : α}
    (ran : first.run.run desk = (.ok value, after)) :
    (first >>= next).run.run desk = (next value).run.run after := by
  simp only [ExceptT.run_bind, StateT.run_bind, ran]
  rfl

theorem look_bind_look (answer : Files.Reader → Except Refusal α)
    (next : α → Files.Reader → Except Refusal β) :
    (look answer >>= fun value => look (next value)) =
      look fun read => answer read >>= fun value => next value read := by
  refine ExceptT.ext (funext fun desk => ?_)
  change (look answer >>= fun value => look (next value)).run.run desk = (look _).run.run desk
  rw [run_look]
  cases answered : answer desk.files.read with
  | error refusal => exact run_bind_of_error (by rw [run_look, answered])
  | ok value => exact run_bind_of_ok (by rw [run_look, answered])

end Steps

section Preparing

variable {read : Files.Reader} {path : String} {spacing : Nat} {rules : RuleSet}

theorem loadRules_eq_ok_iff :
    loadRules read path spacing = .ok rules ↔
      ∃ bytes text commands, read path = .ok bytes ∧ String.fromUTF8? bytes = some text ∧
        Rule.compile text.toList = .ok commands ∧ rules = ⟨commands, spacing⟩ := by
  rw [loadRules, readText]
  cases answer : read path with
  | error fault => simp
  | ok bytes =>
      cases decoded : String.fromUTF8? bytes with
      | none => simp [decoded]
      | some text =>
          simp [decoded, RuleSet.ofText, mapError_eq_ok_iff, bind_eq_ok_iff, pure, Except.pure,
            @eq_comm _ rules]

theorem exists_renderWave_iff {settings : Settings} {length : Nat} (valid : settings.Valid) :
    (∃ wave, renderWave rules settings length = .ok wave) ↔ length ≤ 3600000 := by
  rw [renderWave]
  cases rendered : Mix.render rules
      ⟨length, settings.tick, settings.noteDuration, settings.sampleRate⟩ with
  | error error =>
      obtain ⟨long, _⟩ := (render_eq_error_iff_of_valid valid rules length).mp rendered
      simp [Nat.not_le.mpr long]
  | ok made =>
      have short : ¬3600000 < length := fun long => by
        cases rendered.symm.trans
          ((render_eq_error_iff_of_valid valid rules length).mpr ⟨long, rfl⟩)
      simp [Nat.not_lt.mp short]

end Preparing

/-- A command line that has a rule file rendered, the files that it finds, and what reads the settings
in them. -/
structure Rendering where
  decode : Settings.Decoder
  files : Files
  usual : String
  named : Option String
  rules : String
  output : String
  length : Nat
  delay : Option Nat
  sampleRate : Option Nat

namespace Rendering

def overrides (rendering : Rendering) : Overrides := ⟨rendering.delay, none, rendering.sampleRate⟩

def request (rendering : Rendering) : Request :=
  .render rendering.rules rendering.output rendering.length rendering.delay rendering.sampleRate

def ending (rendering : Rendering) (readings : List Nat) : Ending :=
  Invocation.carryOut ⟨rendering.named, rendering.request⟩ rendering.decode rendering.files
    rendering.usual readings

section Stages

variable (rendering : Rendering)

def load (read : Files.Reader) : Except Refusal Settings :=
  (loadSettings rendering.decode read rendering.usual rendering.named).mapError fun error =>
    .reported (.settings error)

def override (base : Settings) (_ : Files.Reader) : Except Refusal Settings :=
  (rendering.overrides.validate base).mapError .reported

def compile (settings : Settings) (read : Files.Reader) : Except Refusal RuleSet :=
  (loadRules read rendering.rules settings.interNoteDelay).mapError .reported

def mix (settings : Settings) (rules : RuleSet) (_ : Files.Reader) : Except Refusal ByteArray :=
  renderWave rules settings rendering.length

end Stages

/-- The rendering step by step, with each file read when its turn comes. -/
def steps (rendering : Rendering) : Steps Unit := do
  let base ← Steps.look rendering.load
  let settings ← Steps.look (rendering.override base)
  let rules ← Steps.look (rendering.compile settings)
  let wave ← Steps.look (rendering.mix settings rules)
  Steps.save rendering.output wave
  Steps.say (savedMessage rendering.output rendering.length settings.sampleRate)

def prepared (rendering : Rendering) (read : Files.Reader) :
    Except Refusal (Settings × ByteArray) := do
  let base ← rendering.load read
  let settings ← rendering.override base read
  let rules ← rendering.compile settings read
  let wave ← rendering.mix settings rules read
  return (settings, wave)

theorem look_prepared (rendering : Rendering) :
    Steps.look rendering.prepared = (do
      let base ← Steps.look rendering.load
      let settings ← Steps.look (rendering.override base)
      let rules ← Steps.look (rendering.compile settings)
      let wave ← Steps.look (rendering.mix settings rules)
      Steps.look fun _ => return (settings, wave)) := by
  simp only [Steps.look_bind_look]
  rfl

theorem steps_eq (rendering : Rendering) :
    rendering.steps = (do
      let (settings, wave) ← Steps.look rendering.prepared
      Steps.save rendering.output wave
      Steps.say (savedMessage rendering.output rendering.length settings.sampleRate)) := by
  rw [look_prepared]
  simp only [bind_assoc]
  rfl

def written (rendering : Rendering) (settings : Settings) (wave : ByteArray) : Ending :=
  match rendering.files.write rendering.output wave with
  | (none, after) =>
      ⟨0, savedMessage rendering.output rendering.length settings.sampleRate, "", after⟩
  | (some fault, after) => .refused (.reported (.unwritable fault)) after

section Ending

variable {rendering : Rendering}

theorem ending_steps_of_error {refusal : Refusal}
    (refused : rendering.prepared rendering.files.read = .error refusal) :
    rendering.steps.ending rendering.files = .refused refusal rendering.files := by
  have looked : (Steps.look rendering.prepared).run.run ⟨rendering.files, ""⟩ =
      (.error refusal, ⟨rendering.files, ""⟩) := by
    rw [Steps.run_look, refused]
  rw [steps_eq, Steps.ending, Steps.run_bind_of_error looked]
  rfl

theorem ending_steps_of_ok {settings : Settings} {wave : ByteArray}
    (prepared : rendering.prepared rendering.files.read = .ok (settings, wave)) :
    rendering.steps.ending rendering.files = rendering.written settings wave := by
  have looked : (Steps.look rendering.prepared).run.run ⟨rendering.files, ""⟩ =
      (.ok (settings, wave), ⟨rendering.files, ""⟩) := by
    rw [Steps.run_look, prepared]
  rw [steps_eq, Steps.ending, Steps.run_bind_of_ok looked, written]
  have ran := Steps.run_save rendering.output wave ⟨rendering.files, ""⟩
  cases saved : rendering.files.write rendering.output wave with
  | mk fault after =>
      cases fault with
      | none =>
          simp only [saved] at ran
          simp only [Steps.run_bind_of_ok ran, Steps.run_say, String.empty_append]
      | some fault =>
          simp only [saved] at ran
          simp only [Steps.run_bind_of_error ran]
          rfl

theorem ending_eq_match (rendering : Rendering) (readings : List Nat) :
    rendering.ending readings =
      match rendering.prepared rendering.files.read with
      | .error refusal => .refused refusal rendering.files
      | .ok (settings, wave) => rendering.written settings wave := by
  simp only [ending, Invocation.carryOut, Invocation.plan, request, Request.plan, prepared, load,
    override, compile, mix, overrides, bind, Except.bind, pure, Except.pure]
  cases loadSettings rendering.decode rendering.files.read rendering.usual rendering.named with
  | error error => rfl
  | ok base =>
      dsimp only [Except.mapError]
      cases Overrides.validate ⟨rendering.delay, none, rendering.sampleRate⟩ base with
      | error failure => rfl
      | ok settings =>
          dsimp only
          cases loadRules rendering.files.read rendering.rules settings.interNoteDelay with
          | error failure => rfl
          | ok rules =>
              dsimp only [Plan.carryOut]
              cases renderWave rules settings rendering.length <;> rfl

theorem ending_eq (rendering : Rendering) (readings : List Nat) :
    rendering.ending readings = rendering.steps.ending rendering.files := by
  rw [ending_eq_match]
  cases prepared : rendering.prepared rendering.files.read with
  | error refusal => exact (ending_steps_of_error prepared).symm
  | ok made => exact (ending_steps_of_ok prepared).symm

end Ending

/-- What is amiss with a rendering before it has anything to write: its settings, its rule file, the
text in it, or its length. -/
inductive Hindered (rendering : Rendering) : Prop
  | settings {path} : rendering.named = some path →
      Found rendering.decode rendering.files.read path .broken → Hindered rendering
  | outOfRange {base} :
      InForce rendering.decode rendering.files.read rendering.usual rendering.named base →
      ¬(rendering.overrides.apply base).Valid → Hindered rendering
  | unreadable {fault} : rendering.files.read rendering.rules = .error fault → Hindered rendering
  | notText {bytes} : rendering.files.read rendering.rules = .ok bytes →
      String.fromUTF8? bytes = none → Hindered rendering
  | refused {bytes text error} : rendering.files.read rendering.rules = .ok bytes →
      String.fromUTF8? bytes = some text → Rule.compile text.toList = .error error →
      Hindered rendering
  | tooLong : 3600000 < rendering.length → Hindered rendering

/-- What a rendering writes: the wave file of the rules in its rule file, by settings in range. -/
structure Makes (rendering : Rendering) (settings : Settings) (wave : ByteArray) : Prop where
  inForce : ∃ base,
    InForce rendering.decode rendering.files.read rendering.usual rendering.named base ∧
    settings = rendering.overrides.apply base
  valid : settings.Valid
  wave : ∃ rules, loadRules rendering.files.read rendering.rules settings.interNoteDelay =
    .ok rules ∧ renderWave rules settings rendering.length = .ok wave

section Hindered

variable {rendering : Rendering} {settings : Settings} {wave : ByteArray}

theorem prepared_eq_ok_iff :
    rendering.prepared rendering.files.read = .ok (settings, wave) ↔
      rendering.Makes settings wave := by
  simp only [prepared, load, override, compile, mix, bind_eq_ok_iff, mapError_eq_ok_iff,
    loadSettings_eq_ok_iff, Overrides.validate_eq_ok_iff, pure, Except.pure, Except.ok.injEq,
    Prod.mk.injEq]
  constructor
  · rintro ⟨base, inForce, _, ⟨rfl, valid⟩, rules, loaded, _, rendered, rfl, rfl⟩
    exact ⟨⟨base, inForce, rfl⟩, valid, rules, loaded, rendered⟩
  · rintro ⟨⟨base, inForce, rfl⟩, valid, rules, loaded, rendered⟩
    exact ⟨base, inForce, _, ⟨rfl, valid⟩, rules, loaded, _, rendered, rfl, rfl⟩

theorem Hindered.not_makes (hindered : rendering.Hindered) : ¬rendering.Makes settings wave := by
  rintro ⟨⟨base, inForce, rfl⟩, valid, rules, loaded, rendered⟩
  obtain ⟨bytes, text, commands, answer, decoded, compiled, rfl⟩ := loadRules_eq_ok_iff.mp loaded
  cases hindered with
  | settings isNamed found => exact not_inForce_of_broken found (isNamed ▸ inForce)
  | outOfRange otherInForce outOfRange =>
      exact outOfRange (inForce.unique otherInForce ▸ valid)
  | unreadable other => cases answer.symm.trans other
  | notText other undecoded =>
      cases answer.symm.trans other
      cases decoded.symm.trans undecoded
  | refused other otherDecoded refused =>
      cases answer.symm.trans other
      cases decoded.symm.trans otherDecoded
      cases compiled.symm.trans refused
  | tooLong long =>
      have short := (exists_renderWave_iff valid).mp ⟨_, rendered⟩
      exact absurd long (Nat.not_lt.mpr short)

theorem hindered_or_makes (rendering : Rendering) :
    rendering.Hindered ∨ ∃ settings wave, rendering.Makes settings wave := by
  rcases inForce_or_broken rendering.decode rendering.files.read rendering.usual rendering.named with
    ⟨base, inForce⟩ | ⟨path, isNamed, found⟩
  · by_cases valid : (rendering.overrides.apply base).Valid
    · cases answer : rendering.files.read rendering.rules with
      | error fault => exact Or.inl (.unreadable answer)
      | ok bytes =>
          cases decoded : String.fromUTF8? bytes with
          | none => exact Or.inl (.notText answer decoded)
          | some text =>
              cases compiled : Rule.compile text.toList with
              | error error => exact Or.inl (.refused answer decoded compiled)
              | ok commands =>
                  rcases Nat.lt_or_ge 3600000 rendering.length with long | short
                  · exact Or.inl (.tooLong long)
                  · obtain ⟨wave, rendered⟩ := (exists_renderWave_iff valid).mpr short
                    exact Or.inr ⟨_, wave, ⟨base, inForce, rfl⟩, valid, _, loadRules_eq_ok_iff.mpr
                      ⟨bytes, text, commands, answer, decoded, compiled, rfl⟩, rendered⟩
    · exact Or.inl (.outOfRange inForce valid)
  · exact Or.inl (.settings isNamed found)

theorem Hindered.ending (hindered : rendering.Hindered) (readings : List Nat) :
    ∃ refusal, rendering.ending readings = .refused refusal rendering.files := by
  rw [ending_eq]
  cases prepared : rendering.prepared rendering.files.read with
  | error refusal => exact ⟨refusal, ending_steps_of_error prepared⟩
  | ok made => exact absurd (prepared_eq_ok_iff.mp prepared) hindered.not_makes

theorem Makes.ending (makes : rendering.Makes settings wave) (readings : List Nat) :
    rendering.ending readings = rendering.written settings wave := by
  rw [ending_eq, ending_steps_of_ok (prepared_eq_ok_iff.mpr makes)]

end Hindered

/-- A rendering with anything amiss in its settings, its rules or its length fails, prints nothing and
leaves every file and directory as it was. Any other rendering gets as far as writing its wave file. -/
theorem hindered_renderings_leave_no_trace (rendering : Rendering) (readings : List Nat) :
    rendering.ending readings = rendering.steps.ending rendering.files ∧
      (rendering.Hindered →
        (rendering.ending readings).code = 1 ∧ (rendering.ending readings).output = "" ∧
          (rendering.ending readings).files = rendering.files) ∧
      (¬rendering.Hindered → ∃ settings wave, rendering.Makes settings wave ∧
        rendering.ending readings = rendering.written settings wave) := by
  refine ⟨ending_eq rendering readings, ?_, ?_⟩
  · intro hindered
    obtain ⟨refusal, ended⟩ := hindered.ending readings
    rw [ended]
    exact ⟨rfl, rfl, rfl⟩
  · intro unhindered
    obtain ⟨settings, wave, makes⟩ := (hindered_or_makes rendering).resolve_left unhindered
    exact ⟨settings, wave, makes, makes.ending readings⟩

theorem hindered_renderings_leave_no_trace_at_each_stage :
    let files : Files := ⟨[(⟨.above 0, ["rules"]⟩, "every 1s play C".toUTF8),
      (⟨.above 0, ["kept"]⟩, "play".toUTF8)], []⟩
    let decode : Settings.Decoder := Settings.ofText?
    let misconfigured : Rendering :=
      ⟨decode, files, "none", some "kept", "rules", "kept", 0, none, none⟩
    let rushed : Rendering := ⟨decode, files, "none", none, "rules", "kept", 0, none, some 192001⟩
    let lost : Rendering := ⟨decode, files, "none", none, "lost", "kept", 0, none, none⟩
    let misspelt : Rendering := ⟨decode, files, "none", none, "kept", "kept", 0, none, none⟩
    let long : Rendering := ⟨decode, files, "none", none, "rules", "new/out", 3600001, none, none⟩
    let short : Rendering := ⟨decode, files, "none", none, "rules", "new/out", 0, none, none⟩
    (∀ rendering ∈ [misconfigured, rushed, lost, misspelt, long], rendering.Hindered ∧
        (rendering.ending []).code = 1 ∧ (rendering.ending []).output = "" ∧
          (rendering.ending []).files = rendering.files) ∧
      ∃ settings wave, short.Makes settings wave ∧ short.ending [] = short.written settings wave := by
  intro files decode misconfigured rushed lost misspelt long short
  have rulesRead : files.read "rules" = .ok "every 1s play C".toUTF8 := rfl
  have keptRead : files.read "kept" = .ok "play".toUTF8 := rfl
  have lostRead : files.read "lost" = .error .notFound := rfl
  have rulesDecoded : String.fromUTF8? "every 1s play C".toUTF8 = some "every 1s play C" := by
    decide
  have keptDecoded : String.fromUTF8? "play".toUTF8 = some "play" := by decide
  obtain ⟨error, refused⟩ : ∃ error, Rule.compile "play".toList = .error error := ⟨_, rfl⟩
  have defaults : InForce decode files.read "none" none Settings.default :=
    .missing (.missing rfl rfl)
  have hindered : ∀ rendering ∈ [misconfigured, rushed, lost, misspelt, long],
      rendering.Hindered := by
    simp only [List.forall_mem_cons]
    refine ⟨?_, ?_, ?_, ?_, ?_, List.forall_mem_nil _⟩
    · exact .settings rfl (.malformed keptRead keptDecoded (by decide +kernel))
    · exact .outOfRange defaults fun valid => absurd valid.sampleRate_le (by decide)
    · exact .unreadable lostRead
    · exact .refused keptRead keptDecoded refused
    · exact .tooLong (by decide)
  have makes : ∃ settings wave, short.Makes settings wave := by
    have loaded : loadRules files.read "rules" 250 =
        .ok ⟨[.every 1000 [⟨.C, .natural⟩] (.stack 1)], 250⟩ :=
      loadRules_eq_ok_iff.mpr ⟨_, _, _, rulesRead, rulesDecoded, rfl, rfl⟩
    obtain ⟨wave, rendered⟩ := (exists_renderWave_iff Settings.valid_default).mpr (Nat.zero_le _)
    exact ⟨_, wave, ⟨_, defaults, rfl⟩, Settings.valid_default, _, loaded, rendered⟩
  refine ⟨fun rendering member => ?_, ?_⟩
  · obtain ⟨_, ended, _⟩ := hindered_renderings_leave_no_trace rendering []
    exact ⟨hindered rendering member, ended (hindered rendering member)⟩
  · obtain ⟨_, _, ended⟩ := hindered_renderings_leave_no_trace short []
    obtain ⟨_, _, made⟩ := makes
    exact ended fun isHindered => isHindered.not_makes made

end Rendering

end NoteClock.CommandLine
