import NoteClock.CommandLine.Ending
import NoteClock.Proofs.Spelling.Reading
import NoteClock.Settings.Document

/-!
The settings that a command line goes by. Each of them comes from an option, from a file or from the
defaults, in this order, and whatever is played or rendered has all of them in range.
-/

namespace NoteClock

namespace Settings

theorem validate_eq_ok_iff {settings result : Settings} :
    settings.validate = .ok result ↔ result = settings ∧ settings.Valid := by
  constructor
  · exact valid_of_validate
  · rintro ⟨rfl, valid⟩
    have noteDuration : ¬(result.noteDuration = 0 ∨ maxNoteDuration < result.noteDuration) :=
      not_or.mpr ⟨Nat.ne_of_gt valid.noteDuration_pos, Nat.not_lt.mpr valid.noteDuration_le⟩
    have sampleRate : ¬(result.sampleRate = 0 ∨ maxSampleRate < result.sampleRate) :=
      not_or.mpr ⟨Nat.ne_of_gt valid.sampleRate_pos, Nat.not_lt.mpr valid.sampleRate_le⟩
    rw [validate, if_neg (Nat.not_lt.mpr valid.interNoteDelay_le),
      if_neg (Nat.ne_of_gt valid.tick_pos), if_neg noteDuration, if_neg sampleRate]

theorem exists_fault_of_not_valid {settings : Settings} (outOfRange : ¬settings.Valid) :
    ∃ fault, settings.validate = .error fault := by
  cases checked : settings.validate with
  | error fault => exact ⟨fault, rfl⟩
  | ok result => exact absurd (validate_eq_ok_iff.mp checked).2 outOfRange

theorem valid_default : default.Valid := (valid_of_validate rfl).2

theorem valid_iff {settings : Settings} :
    settings.Valid ↔ settings.interNoteDelay ≤ 3600000 ∧ 1 ≤ settings.tick ∧
      1 ≤ settings.noteDuration ∧ settings.noteDuration ≤ 60000 ∧
      1 ≤ settings.sampleRate ∧ settings.sampleRate ≤ 192000 := by
  constructor
  · intro valid
    exact ⟨valid.interNoteDelay_le, valid.tick_pos, valid.noteDuration_pos, valid.noteDuration_le,
      valid.sampleRate_pos, valid.sampleRate_le⟩
  · rintro ⟨interNoteDelay, tick, noteDuration, noteDurationMax, sampleRate, sampleRateMax⟩
    exact ⟨interNoteDelay, tick, noteDuration, noteDurationMax, sampleRate, sampleRateMax⟩

inductive Source where
  | missing
  | broken
  | holds (settings : Settings)

/-- A file that is there is broken when it cannot be read, when it is not text or writes no settings,
and when the settings that it writes are out of range. -/
inductive Found (decode : Decoder) (read : Files.Reader) (path : String) : Source → Prop
  | missing {fault} : read path = .error fault → fault.isPresent = false →
      Found decode read path .missing
  | unreadable {fault} : read path = .error fault → fault.isPresent = true →
      Found decode read path .broken
  | notText {bytes} : read path = .ok bytes → String.fromUTF8? bytes = none →
      Found decode read path .broken
  | malformed {bytes text} : read path = .ok bytes → String.fromUTF8? bytes = some text →
      decode text.toList = none → Found decode read path .broken
  | outOfRange {bytes text settings} : read path = .ok bytes → String.fromUTF8? bytes = some text →
      decode text.toList = some settings → ¬settings.Valid → Found decode read path .broken
  | holds {bytes text settings} : read path = .ok bytes → String.fromUTF8? bytes = some text →
      decode text.toList = some settings → settings.Valid →
      Found decode read path (.holds settings)

section Loading

variable {decode : Decoder} {read : Files.Reader} {path : String}

theorem exists_found (decode : Decoder) (read : Files.Reader) (path : String) :
    ∃ source, Found decode read path source := by
  cases answer : read path with
  | error fault =>
      cases present : fault.isPresent with
      | false => exact ⟨_, .missing answer present⟩
      | true => exact ⟨_, .unreadable answer present⟩
  | ok bytes =>
      cases decoded : String.fromUTF8? bytes with
      | none => exact ⟨_, .notText answer decoded⟩
      | some text =>
          cases written : decode text.toList with
          | none => exact ⟨_, .malformed answer decoded written⟩
          | some settings =>
              by_cases valid : settings.Valid
              · exact ⟨_, .holds answer decoded written valid⟩
              · exact ⟨_, .outOfRange answer decoded written valid⟩

theorem load_of_missing (found : Found decode read path .missing) :
    load decode read path = .ok default := by
  cases found with
  | missing answer absent => simp [load, answer, absent]

theorem load_of_holds {settings : Settings} (found : Found decode read path (.holds settings)) :
    load decode read path = .ok settings := by
  cases found with
  | holds answer decoded written valid =>
      simp only [load, answer, ofBytes, decoded, written, mapError_eq_ok_iff]
      exact validate_eq_ok_iff.mpr ⟨rfl, valid⟩

theorem load_of_broken (found : Found decode read path .broken) :
    ∃ error, load decode read path = .error error := by
  cases found with
  | @unreadable fault answer present => exact ⟨.unreadable fault, by simp [load, answer, present]⟩
  | notText answer decoded => exact ⟨.unreadable .notText, by simp [load, answer, ofBytes, decoded]⟩
  | malformed answer decoded written =>
      exact ⟨.malformed, by simp [load, answer, ofBytes, decoded, written]⟩
  | outOfRange answer decoded written outOfRange =>
      obtain ⟨fault, refused⟩ := exists_fault_of_not_valid outOfRange
      refine ⟨.invalid fault, ?_⟩
      simp only [load, answer, ofBytes, decoded, written, refused]
      rfl

end Loading

end Settings

namespace CommandLine

open Settings (Found)

/-- The settings of a command line before its options change them. The file is the named one, or the
usual one if none is named, and only the usual one may be broken. -/
inductive InForce (decode : Settings.Decoder) (read : Files.Reader) (usual : String) :
    Option String → Settings → Prop
  | held {named settings} : Found decode read (named.getD usual) (.holds settings) →
      InForce decode read usual named settings
  | missing {named} : Found decode read (named.getD usual) .missing →
      InForce decode read usual named Settings.default
  | passedOver : Found decode read usual .broken → InForce decode read usual none Settings.default

section Settings

variable {decode : Settings.Decoder} {read : Files.Reader} {usual : String} {named : Option String}
  {settings : Settings}

theorem loadSettings_of_load
    (loaded : Settings.load decode read (named.getD usual) = .ok settings) :
    loadSettings decode read usual named = .ok settings := by
  cases named with
  | none =>
      rw [Option.getD_none] at loaded
      simp only [loadSettings, Settings.loadOrDefault, loaded]
  | some path => exact loaded

theorem loadSettings_of_inForce (inForce : InForce decode read usual named settings) :
    loadSettings decode read usual named = .ok settings := by
  cases inForce with
  | held found => exact loadSettings_of_load (Settings.load_of_holds found)
  | missing found => exact loadSettings_of_load (Settings.load_of_missing found)
  | passedOver found =>
      obtain ⟨error, refused⟩ := Settings.load_of_broken found
      simp only [loadSettings, Settings.loadOrDefault, refused]

theorem loadSettings_of_broken {path : String} (found : Found decode read path .broken)
    (usual : String) : ∃ error, loadSettings decode read usual (some path) = .error error :=
  Settings.load_of_broken found

theorem inForce_or_broken (decode : Settings.Decoder) (read : Files.Reader) (usual : String)
    (named : Option String) :
    (∃ settings, InForce decode read usual named settings) ∨
      ∃ path, named = some path ∧ Found decode read path .broken := by
  obtain ⟨source, found⟩ := Settings.exists_found decode read (named.getD usual)
  cases source with
  | missing => exact Or.inl ⟨_, .missing found⟩
  | holds settings => exact Or.inl ⟨settings, .held found⟩
  | broken =>
      cases named with
      | none => exact Or.inl ⟨_, .passedOver found⟩
      | some path => exact Or.inr ⟨path, rfl, found⟩

theorem loadSettings_eq_ok_iff :
    loadSettings decode read usual named = .ok settings ↔
      InForce decode read usual named settings := by
  constructor
  · intro loaded
    rcases inForce_or_broken decode read usual named with ⟨other, inForce⟩ | ⟨path, rfl, found⟩
    · rw [loadSettings_of_inForce inForce, Except.ok.injEq] at loaded
      exact loaded ▸ inForce
    · obtain ⟨error, refused⟩ := loadSettings_of_broken found usual
      cases loaded.symm.trans refused
  · exact loadSettings_of_inForce

theorem InForce.valid (inForce : InForce decode read usual named settings) : settings.Valid := by
  cases inForce with
  | held found =>
      cases found with
      | holds _ _ _ valid => exact valid
  | missing => exact Settings.valid_default
  | passedOver => exact Settings.valid_default

theorem InForce.unique {other : Settings} (inForce : InForce decode read usual named settings)
    (otherInForce : InForce decode read usual named other) : settings = other := by
  have loaded := loadSettings_of_inForce inForce
  rw [loadSettings_of_inForce otherInForce, Except.ok.injEq] at loaded
  exact loaded.symm

theorem not_inForce_of_broken {path : String} (found : Found decode read path .broken) :
    ¬InForce decode read usual (some path) settings := by
  intro inForce
  obtain ⟨error, refused⟩ := loadSettings_of_broken found usual
  cases (loadSettings_of_inForce inForce).symm.trans refused

end Settings

/-- The requests that make sound. Each has a rule file and options, and comes to a plan for the rules
and the settings. -/
inductive Sounds : Request → String → Overrides → (RuleSet → Settings → Plan) → Prop
  | run {path delay tick length} :
      Sounds (.run path delay tick length) path ⟨delay, tick, none⟩
        fun rules settings => .play rules settings length
  | render {path output length delay sampleRate} :
      Sounds (.render path output length delay sampleRate) path ⟨delay, none, sampleRate⟩
        fun rules settings => .render rules settings length output

theorem Overrides.validate_eq_ok_iff {overrides : Overrides} {base settings : Settings} :
    overrides.validate base = .ok settings ↔
      settings = overrides.apply base ∧ (overrides.apply base).Valid := by
  rw [Overrides.validate, mapError_eq_ok_iff, Settings.validate_eq_ok_iff]

section Plan

variable {decode : Settings.Decoder} {read : Files.Reader} {usual path : String}
  {named : Option String} {request : Request} {overrides : Overrides} {enter : RuleSet → Settings → Plan}

theorem request_plan_eq_ok_iff (sounds : Sounds request path overrides enter) {base : Settings}
    {plan : Plan} :
    request.plan read base = .ok plan ↔
      ∃ rules, (overrides.apply base).Valid ∧
        loadRules read path (overrides.apply base).interNoteDelay = .ok rules ∧
        plan = enter rules (overrides.apply base) := by
  have steps : request.plan read base = .ok plan ↔
      ∃ settings, overrides.validate base = .ok settings ∧
        ∃ rules, loadRules read path settings.interNoteDelay = .ok rules ∧
          enter rules settings = plan := by
    cases sounds <;>
      simp only [Request.plan, bind_eq_ok_iff, mapError_eq_ok_iff, pure, Except.pure,
        Except.ok.injEq]
  rw [steps]
  constructor
  · rintro ⟨settings, validated, rules, loaded, rfl⟩
    obtain ⟨rfl, valid⟩ := Overrides.validate_eq_ok_iff.mp validated
    exact ⟨rules, valid, loaded, rfl⟩
  · rintro ⟨rules, valid, loaded, rfl⟩
    exact ⟨_, Overrides.validate_eq_ok_iff.mpr ⟨rfl, valid⟩, rules, loaded, rfl⟩

theorem plan_eq_ok_iff (sounds : Sounds request path overrides enter) {plan : Plan} :
    Invocation.plan ⟨named, request⟩ decode read usual = .ok plan ↔
      ∃ base rules, InForce decode read usual named base ∧ (overrides.apply base).Valid ∧
        loadRules read path (overrides.apply base).interNoteDelay = .ok rules ∧
        plan = enter rules (overrides.apply base) := by
  simp only [Invocation.plan, bind_eq_ok_iff, mapError_eq_ok_iff, loadSettings_eq_ok_iff,
    request_plan_eq_ok_iff sounds, exists_and_left]

theorem plan_of_broken (found : Found decode read path .broken) (usual : String)
    (request : Request) :
    ∃ error, Invocation.plan ⟨some path, request⟩ decode read usual =
      .error (.reported (.settings error)) := by
  obtain ⟨error, refused⟩ := loadSettings_of_broken found usual
  exact ⟨error, by rw [Invocation.plan, refused]; rfl⟩

end Plan

theorem render_eq_error_iff_of_valid {settings : Settings} (valid : settings.Valid) (rules : RuleSet)
    (length : Nat) {error : Mix.Error} :
    Mix.render rules ⟨length, settings.tick, settings.noteDuration, settings.sampleRate⟩ =
        .error error ↔ 3600000 < length ∧ error = .tooLong .mix length := by
  have short : ¬Mix.maxLength < settings.noteDuration :=
    Nat.not_lt.mpr (Nat.le_trans valid.noteDuration_le (by decide))
  rw [Mix.render]
  by_cases long : Mix.maxLength < length
  · rw [if_pos long, Except.error.injEq]
    exact ⟨fun same => ⟨long, same.symm⟩, fun refused => refused.2.symm⟩
  · rw [if_neg long, if_neg short]
    exact ⟨nofun, fun refused => absurd refused.1 long⟩

/-- Whatever settings a decoder reads in the files, what is played or rendered goes by settings in
range, each of which is the one of its option, or else the one in force without it. Then only its length
can have a rendering refused. In force is what the file holds, or the defaults when there is none, or
when the usual one is broken, and a named file that is broken has every request refused. -/
theorem only_valid_settings_are_played (decode : Settings.Decoder) (read : Files.Reader)
    (usual : String) (named : Option String) :
    (∀ request path overrides enter, Sounds request path overrides enter → ∀ plan,
      Invocation.plan ⟨named, request⟩ decode read usual = .ok plan ↔
        ∃ base rules settings, InForce decode read usual named base ∧
          settings = ⟨overrides.delay.getD base.interNoteDelay, overrides.tick.getD base.tick,
            base.noteDuration, overrides.sampleRate.getD base.sampleRate⟩ ∧
          (settings.interNoteDelay ≤ 3600000 ∧ 1 ≤ settings.tick ∧
            1 ≤ settings.noteDuration ∧ settings.noteDuration ≤ 60000 ∧
            1 ≤ settings.sampleRate ∧ settings.sampleRate ≤ 192000) ∧
          loadRules read path settings.interNoteDelay = .ok rules ∧ plan = enter rules settings) ∧
    (∀ path output length delay sampleRate rules settings,
      Invocation.plan ⟨named, .render path output length delay sampleRate⟩ decode read usual =
          .ok (.render rules settings length output) →
        ∀ error, Mix.render rules
            ⟨length, settings.tick, settings.noteDuration, settings.sampleRate⟩ = .error error ↔
          3600000 < length ∧ error = .tooLong .mix length) ∧
    (∀ base, InForce decode read usual named base →
      base.Valid ∧
      (Found decode read (named.getD usual) .missing → base = Settings.default) ∧
      (∀ settings, Found decode read (named.getD usual) (.holds settings) → base = settings) ∧
      (Found decode read (named.getD usual) .broken → named = none ∧ base = Settings.default)) ∧
    ((∃ base, InForce decode read usual named base) ∨
      ∃ path, named = some path ∧ Found decode read path .broken) ∧
    ∀ path, named = some path → Found decode read path .broken → ∀ request,
      (∃ error, Invocation.plan ⟨named, request⟩ decode read usual =
        .error (.reported (.settings error))) ∧
      ∀ files readings, files.read = read →
        (Invocation.carryOut ⟨named, request⟩ decode files usual readings).code = 1 := by
  refine ⟨?_, ?_, ?_, inForce_or_broken decode read usual named, ?_⟩
  · intro request path overrides enter sounds plan
    rw [plan_eq_ok_iff sounds]
    constructor
    · rintro ⟨base, rules, inForce, valid, loaded, rfl⟩
      exact ⟨base, rules, _, inForce, rfl, Settings.valid_iff.mp valid, loaded, rfl⟩
    · rintro ⟨base, rules, _, inForce, rfl, valid, loaded, rfl⟩
      exact ⟨base, rules, inForce, Settings.valid_iff.mpr valid, loaded, rfl⟩
  · intro path output length delay sampleRate rules settings planned error
    obtain ⟨base, _, _, valid, _, same⟩ := (plan_eq_ok_iff .render).mp planned
    obtain ⟨rfl, rfl⟩ : rules = _ ∧ settings = _ := by
      simpa using same
    exact render_eq_error_iff_of_valid valid rules length
  · intro base inForce
    refine ⟨inForce.valid, ?_, ?_, ?_⟩
    · exact fun found => inForce.unique (.missing found)
    · exact fun settings found => inForce.unique (.held found)
    · intro found
      cases named with
      | none => exact ⟨rfl, inForce.unique (.passedOver found)⟩
      | some path => exact absurd inForce (not_inForce_of_broken found)
  · rintro path rfl found request
    obtain ⟨error, refused⟩ := plan_of_broken found usual request
    refine ⟨⟨error, refused⟩, ?_⟩
    rintro files readings rfl
    rw [Invocation.carryOut, refused]
    rfl

theorem only_valid_settings_are_played_from_each_source :
    let decode : Settings.Decoder := Settings.ofText?
    let good := "note_duration_ms: 60000\ntick_ms: 20\n"
    let bad := "tick_ms: 0\n"
    let files : Files := ⟨[(⟨.above 0, ["good"]⟩, good.toUTF8), (⟨.above 0, ["bad"]⟩, bad.toUTF8),
      (⟨.above 0, ["rules"]⟩, "every 1s play C".toUTF8)], []⟩
    let rules : RuleSet := ⟨[.every 1000 [⟨.C, .natural⟩] (.stack 1)], 3600000⟩
    let run : Request := .run "rules" (some 3600000) (some 5) none
    let render : Request := .render "rules" "out" 3600001 (some 3600000) (some 192000)
    (Found decode files.read "good" (.holds ⟨250, 20, 60000, 8000⟩) ∧
        Found decode files.read "bad" .broken ∧ Found decode files.read "none" .missing) ∧
      Invocation.plan ⟨some "good", run⟩ decode files.read "bad" =
        .ok (.play rules ⟨3600000, 5, 60000, 8000⟩ none) ∧
      Invocation.plan ⟨some "none", render⟩ decode files.read "bad" =
        .ok (.render rules ⟨3600000, 16, 500, 192000⟩ 3600001 "out") ∧
      Mix.render rules ⟨3600001, 16, 500, 192000⟩ = .error (.tooLong .mix 3600001) ∧
      InForce decode files.read "bad" none Settings.default ∧
      (∀ base, InForce decode files.read "bad" none base → base = Settings.default) ∧
      (Invocation.carryOut ⟨some "bad", run⟩ decode files "none" []).code = 1 := by
  intro decode good bad files rules run render
  have goodWritten : decode good.toList = some ⟨250, 20, 60000, 8000⟩ := by
    decide +kernel
  have badWritten : decode bad.toList = some ⟨250, 0, 500, 8000⟩ := by decide +kernel
  have goodFound : Found decode files.read "good" (.holds ⟨250, 20, 60000, 8000⟩) :=
    .holds rfl (by decide) goodWritten (Settings.valid_iff.mpr (by decide))
  have badFound : Found decode files.read "bad" .broken :=
    .outOfRange rfl (by decide) badWritten fun valid => absurd valid.tick_pos (by decide)
  have noneFound : Found decode files.read "none" .missing := .missing rfl rfl
  have rulesRead : files.read "rules" = .ok "every 1s play C".toUTF8 := rfl
  have decoded : String.fromUTF8? "every 1s play C".toUTF8 = some "every 1s play C" := by decide
  have loaded : loadRules files.read "rules" 3600000 = .ok rules := by
    simp only [loadRules, readText, rulesRead, decoded]
    rfl
  obtain ⟨plansOfGood, _, _, _, _⟩ :=
    only_valid_settings_are_played decode files.read "bad" (some "good")
  obtain ⟨plansOfNone, refusals, _, _, _⟩ :=
    only_valid_settings_are_played decode files.read "bad" (some "none")
  obtain ⟨_, _, usual, _, _⟩ := only_valid_settings_are_played decode files.read "bad" none
  obtain ⟨_, _, _, _, broken⟩ := only_valid_settings_are_played decode files.read "none" (some "bad")
  have rendered : Invocation.plan ⟨some "none", render⟩ decode files.read "bad" =
      .ok (.render rules ⟨3600000, 16, 500, 192000⟩ 3600001 "out") :=
    (plansOfNone _ _ _ _ .render _).mpr
      ⟨_, rules, _, .missing noneFound, rfl, by decide, loaded, rfl⟩
  refine ⟨⟨goodFound, badFound, noneFound⟩, ?_, rendered, ?_, .passedOver badFound, ?_, ?_⟩
  · exact (plansOfGood _ _ _ _ .run _).mpr
      ⟨_, rules, _, .held goodFound, rfl, by decide, loaded, rfl⟩
  · exact (refusals _ _ _ _ _ _ _ rendered _).mpr ⟨by decide, rfl⟩
  · exact fun base inForce => ((usual base inForce).2.2.2 badFound).2
  · exact (broken "bad" rfl badFound run).2 files [] rfl

end CommandLine

end NoteClock
