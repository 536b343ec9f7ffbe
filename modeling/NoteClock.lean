import NoteClock.Rule.Text
import NoteClock.Rule.Guide
import NoteClock.Time.Millis
import NoteClock.Note
import NoteClock.RuleSet
import NoteClock.Clock
import NoteClock.Schedule
import NoteClock.Settings.Load
import NoteClock.Sound
import NoteClock.CommandLine.Ending
import NoteClock.CommandLine.Invocation
import NoteClock.Main
import NoteClock.Proofs.Spelling.Rule
import NoteClock.Proofs.Spelling.Text
import NoteClock.Proofs.Timeline.LivePlay
import NoteClock.Proofs.Timeline.Pauses
import NoteClock.Proofs.Timeline.LiveSchedule
import NoteClock.Proofs.Timeline.Independence
import NoteClock.Proofs.Timeline.Compiled
import NoteClock.Proofs.Timeline.Tiling
import NoteClock.Proofs.Timeline.Timetable
import NoteClock.Proofs.Spelling.Misfit
import NoteClock.Proofs.Spelling.Value
import NoteClock.Proofs.Spelling.Offence
import NoteClock.Proofs.Spelling.Refusals
import NoteClock.Proofs.Spelling.Count
import NoteClock.Proofs.Spelling.Settled
import NoteClock.Proofs.Guarded.Operation
import NoteClock.Proofs.Guarded.Scanner
import NoteClock.Proofs.Guarded.Timestamp
import NoteClock.Proofs.Guarded.Compilation
import NoteClock.Proofs.Guarded.Polling
import NoteClock.Proofs.Timeline.Restart
import NoteClock.Proofs.Sound.Voices
import NoteClock.Proofs.Sound.Renders
import NoteClock.Proofs.Listing.Check
import NoteClock.Proofs.CommandLine.SettingsInForce
import NoteClock.Proofs.Guarded.Timekeeping
import NoteClock.Proofs.Listing.Dial
import NoteClock.Proofs.CommandLine.FailedRender
import NoteClock.Proofs.Timeline.Headroom
import NoteClock.Proofs.Timeline.Walk
import NoteClock.Proofs.Sound.Positions
import NoteClock.Proofs.Spelling.NoteItems
