import NoteClock.Proofs.Listing.Lines
import NoteClock.Settings.Document

/-!
What `check` says of a rule file. It prints the listing of the rules, so that two files of rules are
told apart by what is printed of them, unless they hold the same commands.
-/

namespace NoteClock.CommandLine

/-- A command line that has a rule file checked, the files that it finds, and what reads the settings
in them. -/
structure Check where
  decode : Settings.Decoder
  files : Files
  usual : String
  named : Option String
  path : String

namespace Check

def ending (check : Check) (readings : List Nat) : Ending :=
  Invocation.carryOut ⟨check.named, .check check.path⟩ check.decode check.files check.usual readings

structure Finds (check : Check) (text : List Char) : Prop where
  settings : ∃ settings,
    loadSettings check.decode check.files.read check.usual check.named = .ok settings
  text : readText check.files.read check.path = .ok (String.ofList text)

theorem ending_eq {check : Check} {text : List Char} {commands : List Command}
    (finds : check.Finds text) (compiled : Rule.compile text = .ok commands) (readings : List Nat) :
    check.ending readings = ⟨0, Listing.text commands, "", check.files⟩ := by
  obtain ⟨settings, loaded⟩ := finds.settings
  have rules : loadRules check.files.read check.path settings.interNoteDelay =
      .ok ⟨commands, settings.interNoteDelay⟩ := by
    rw [loadRules, finds.text]
    simp [RuleSet.ofText, compiled, bind, Except.bind, pure, Except.pure, Except.mapError]
  simp [ending, Invocation.carryOut, Invocation.plan, loaded, Request.plan, rules, Plan.carryOut,
    bind, Except.bind, pure, Except.pure, Except.mapError]

/-- Two checks print the same only of the same commands. No two commands are described alike, and
neither are different times, notes or play modes. -/
theorem output_identifies_commands {check otherCheck : Check} {text otherText : List Char}
    {commands otherCommands : List Command}
    (finds : check.Finds text) (otherFinds : otherCheck.Finds otherText)
    (compiled : Rule.compile text = .ok commands)
    (otherCompiled : Rule.compile otherText = .ok otherCommands) (readings otherReadings : List Nat) :
    check.ending readings = ⟨0, Listing.text commands, "", check.files⟩ ∧
      ((check.ending readings).output = (otherCheck.ending otherReadings).output ↔
        commands = otherCommands) ∧
      ∀ command ∈ commands, ∀ other ∈ otherCommands,
        (Listing.describeCommand command = Listing.describeCommand other ↔ command = other) ∧
        (Elapsed.face command.trigger.millis = Elapsed.face other.trigger.millis →
          command.trigger.millis = other.trigger.millis) ∧
        (Listing.describeNotes command.notes = Listing.describeNotes other.notes →
          command.notes = other.notes) ∧
        (Listing.describeMode command = Listing.describeMode other → command.mode = other.mode) := by
  have listable := Listing.listable_of_compile compiled
  have otherListable := Listing.listable_of_compile otherCompiled
  have ended := ending_eq finds compiled readings
  have otherEnded := ending_eq otherFinds otherCompiled otherReadings
  refine ⟨ended, ?_, ?_⟩
  · rw [ended, otherEnded]
    exact Listing.text_inj listable otherListable
  · intro command member other otherMember
    have first := listable command member
    have second := otherListable other otherMember
    exact ⟨first.describeCommand_inj second, first.millis_of_face second,
      (Note.listText_inj first.nonempty second.nonempty).mp, Listing.mode_of_describeMode⟩

theorem output_identifies_commands_of_two_spellings :
    let short := "at 3s play Bb\nevery 1m play C,E".toList
    let long := "at 30ds play Bb scale\r\nevery 60s play C,E repeat 1\n".toList
    let twice := "at 3s play Bb\nevery 1m play C,E repeat 2".toList
    let once : Command := .once 3000 [⟨.B, .flat⟩]
    let chord : List Note := [⟨.C, .natural⟩, ⟨.E, .natural⟩]
    let check (text : List Char) : Check :=
      ⟨Settings.ofText?, ⟨[(⟨.above 0, ["rules"]⟩, (String.ofList text).toUTF8)], []⟩, "settings",
        none, "rules"⟩
    ((check short).Finds short ∧ (check long).Finds long ∧ (check twice).Finds twice) ∧
      (Rule.compile short = .ok [once, .every 60000 chord (.stack 1)] ∧
        Rule.compile long = .ok [once, .every 60000 chord (.stack 1)] ∧
        Rule.compile twice = .ok [once, .every 60000 chord (.stack 2)]) ∧
      ((check short).ending []).output = ((check long).ending [5]).output ∧
      ((check short).ending []).output ≠ ((check twice).ending []).output := by
  intro short long twice once chord check
  have shortFinds : (check short).Finds short := ⟨⟨_, rfl⟩, by decide⟩
  have longFinds : (check long).Finds long := ⟨⟨_, rfl⟩, by decide⟩
  have twiceFinds : (check twice).Finds twice := ⟨⟨_, rfl⟩, by decide⟩
  have shortCompiled : Rule.compile short = .ok [once, .every 60000 chord (.stack 1)] := by rfl
  have longCompiled : Rule.compile long = .ok [once, .every 60000 chord (.stack 1)] := by rfl
  have twiceCompiled : Rule.compile twice = .ok [once, .every 60000 chord (.stack 2)] := by rfl
  obtain ⟨_, alike, _⟩ :=
    output_identifies_commands shortFinds longFinds shortCompiled longCompiled [] [5]
  obtain ⟨_, different, _⟩ :=
    output_identifies_commands shortFinds twiceFinds shortCompiled twiceCompiled [] []
  refine ⟨⟨shortFinds, longFinds, twiceFinds⟩, ⟨shortCompiled, longCompiled, twiceCompiled⟩,
    alike.mpr rfl, ?_⟩
  intro same
  exact absurd (different.mp same) (by decide)

end Check

end NoteClock.CommandLine
