import NoteClock.CommandLine.Arguments

/-!
Invocations: what the arguments of the command line ask for. A subcommand stands between arguments of
the whole program and arguments of its own.
-/

namespace NoteClock.CommandLine

def programName : String := "melodic-chrono"

def version : String := programName ++ " 0.1.0\n"

def usageLines : List String := [
  "Usage: " ++ programName ++ " [-c <config>] <command>",
  "",
  "Commands:",
  "  check <rules>            compile a rule file and list its commands",
  "  run <rules>              play a rule file in real time",
  "      [-d <delay>] [-t <tick>] [-l <length>]",
  "  render <rules> <output>  render a rule file to a wave file",
  "      [-l <length>] [-d <delay>] [-s <sample-rate>]",
  "  syntax                   print the rule syntax reference"]

def usage : String := String.join (usageLines.map (· ++ "\n"))

def usualSettings : String := "." ++ programName ++ "/config.yaml"

inductive Request where
  | check (rules : String)
  | run (rules : String) (delay tick length : Option Nat)
  | render (rules output : String) (length : Nat) (delay sampleRate : Option Nat)
  | guide
  deriving DecidableEq, Repr

structure Invocation where
  settings : Option String
  request : Request
  deriving DecidableEq, Repr

inductive Subcommand where
  | check
  | run
  | render
  | guide
  deriving DecidableEq, Repr

def Scope.program : Scope := ⟨true, [.settings], 0⟩

def defaultLength : Nat := 30000

namespace Subcommand

def all : List Subcommand := [check, run, render, guide]

def name : Subcommand → String
  | check => "check"
  | run => "run"
  | render => "render"
  | guide => "syntax"

def usageName : String := "help"

def ofName? (name : String) : Option Subcommand := all.find? (·.name = name)

def scope : Subcommand → Scope
  | check => ⟨false, [.settings], 1⟩
  | run => ⟨false, [.settings, .delay, .tick, .length], 1⟩
  | render => ⟨false, [.settings, .delay, .length, .sampleRate], 2⟩
  | guide => ⟨false, [.settings], 0⟩

def request (subcommand : Subcommand) (arguments : Arguments) : Except Detour Request :=
  let values := arguments.values
  let delay := values.findSome? OptionValue.delay?
  let tick := values.findSome? OptionValue.tick?
  let length := values.findSome? OptionValue.length?
  let sampleRate := values.findSome? OptionValue.sampleRate?
  match subcommand, arguments.operands with
  | check, [rules] => .ok (.check rules)
  | run, [rules] => .ok (.run rules delay tick length)
  | render, [rules, output] =>
      .ok (.render rules output (length.getD defaultLength) delay sampleRate)
  | guide, [] => .ok .guide
  | _, _ => .error .misuse

def usageOf (topics : List String) : Detour :=
  match topics with
  | [] => .usage
  | [topic] => if topic = usageName || (ofName? topic).isSome then .usage else .misuse
  | _ => .misuse

end Subcommand

def Arguments.settings? (arguments : Arguments) : Option String :=
  arguments.values.findSome? OptionValue.settings?

/-- The invocation that the arguments spell. The path of a settings file may stand in front of the
subcommand or behind it, and the one behind it counts. A value that stands right in front of the
subcommand is looked at last. -/
def Invocation.parse (arguments : List String) : Except Detour Invocation := do
  let (outer, rest) ← Arguments.empty.read .program arguments
  match rest with
  | [] => throw .misuse
  | name :: rest =>
      match Subcommand.ofName? name with
      | none => throw (if name = Subcommand.usageName then Subcommand.usageOf rest else .misuse)
      | some subcommand =>
          let (inner, _) ← Arguments.empty.read subcommand.scope rest
          let inner ← inner.settle
          let request ← subcommand.request inner
          let outer ← outer.settle
          return ⟨inner.settings?.or outer.settings?, request⟩

end NoteClock.CommandLine
