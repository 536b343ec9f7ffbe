/-! The reference of the rule grammar, as it is shown to users. -/

namespace NoteClock.Rule

def guideLines : List String := [
  "Rule syntax (one rule per line):",
  "",
  "  <at|every> <timestamp> play <notes> [<mode>]",
  "",
  "- at: play once, at the given time",
  "- every: play again each time the given period elapses",
  "",
  "- timestamp: segments joined by ':' such as 1h:30m or 5s:5ds",
  "   * units: h (hours), m (minutes), s (seconds), ds (deciseconds)",
  "   * each unit at most once, in any order",
  "",
  "- notes: comma-separated list such as C,E,G or F#,Bb",
  "   * letters A to G, optionally followed by # or b",
  "",
  "- mode (every only, has no effect on at):",
  "   * repeat [n] (default): the whole chord, stacked one more time",
  "     on each firing, up to n times (default 1)",
  "   * scale: one note per firing, walking the list",
  "   * arpeggio: one more note of the list on each firing",
  "",
  "examples:",
  "",
  "- every 5s play C,E,G arpeggio",
  "   * (C then CE then CEG then C...)",
  "- every 1m play C repeat 3",
  "   * (C then CC then CCC then C...)",
  "- every 1h play C,E,G repeat 2",
  "   * (CEG then CEGCEG then CEG...)",
  "- at 1m:30s play C",
  "   * (plays C once)"
]

def guide : String := String.join (guideLines.map (· ++ "\n"))

end NoteClock.Rule
