import NoteClock.CommandLine.OptionValue

/-!
Arguments of the command line, sorted into operands and options. Options take a value each, behind an
equals sign or as the next argument; what does not begin with a hyphen is an operand, and so is
everything behind a double hyphen.

Arguments are looked at in their order, and the first that is amiss or asks for something else decides
what comes of them. A value that was an argument of its own is looked at a step later, when the argument
behind it has been recognised.
-/

namespace NoteClock.CommandLine

inductive Detour where
  | misuse
  | usage
  | version
  deriving DecidableEq, Repr

/-- Where arguments stand. The outer scope is in front of the subcommand, which is its first operand
and ends it; `room` is the number of operands that others take. -/
structure Scope where
  outer : Bool
  options : List OptionName
  room : Nat
  deriving DecidableEq, Repr

inductive Shape where
  | separator
  | long (name : String) (text : Option String)
  | short (name : Char) (text : Option String)
  | operand
  deriving DecidableEq, Repr

namespace Shape

def ofArgument (argument : String) : Shape :=
  match argument.toList with
  | ['-', '-'] => separator
  | '-' :: '-' :: rest =>
      match rest.dropWhile (· ≠ '=') with
      | [] => long (String.ofList rest) none
      | _ :: text => long (String.ofList (rest.takeWhile (· ≠ '='))) (some (String.ofList text))
  | ['-', name] => short name none
  | '-' :: name :: '=' :: text => short name (some (String.ofList text))
  | '-' :: name :: text => short name (some (String.ofList text))
  | _ => operand

def text? : Shape → Option String
  | long _ text | short _ text => text
  | separator | operand => none

def matchesOption (shape : Shape) (name : OptionName) : Bool :=
  match shape with
  | long word _ => name.long = word
  | short letter _ => name.short = letter
  | separator | operand => false

end Shape

namespace Scope

def option? (scope : Scope) (shape : Shape) : Option OptionName :=
  scope.options.find? shape.matchesOption

def detour (scope : Scope) : Shape → Detour
  | .long "help" none | .short 'h' _ => .usage
  | .long "version" none | .short 'V' _ => if scope.outer then .version else .misuse
  | _ => .misuse

end Scope

inductive Pending where
  | name (name : OptionName)
  | value (name : OptionName) (text : String)
  deriving DecidableEq, Repr

/-- The operands and the options among some arguments, each in order. Behind a double hyphen they are
literal. -/
structure Arguments where
  operands : List String
  values : List OptionValue
  pending : Option Pending
  literal : Bool
  deriving DecidableEq, Repr

namespace Arguments

def empty : Arguments := ⟨[], [], none, false⟩

def addValue (arguments : Arguments) (name : OptionName) (text : String) :
    Except Detour Arguments :=
  if arguments.values.any (·.name = name) then .error .misuse
  else
    match OptionValue.read name text with
    | none => .error .misuse
    | some value => .ok { arguments with values := arguments.values ++ [value] }

def settle (arguments : Arguments) : Except Detour Arguments :=
  match arguments.pending with
  | none => .ok arguments
  | some (.name _) => .error .misuse
  | some (.value name text) => { arguments with pending := none }.addValue name text

def addOperand (arguments : Arguments) (scope : Scope) (operand : String) :
    Except Detour Arguments :=
  match readPath operand with
  | none => .error .misuse
  | some path =>
      if arguments.operands.length < scope.room then
        .ok { arguments with operands := arguments.operands ++ [path] }
      else .error .misuse

def addShape (arguments : Arguments) (scope : Scope) (argument : String) (shape : Shape) :
    Except Detour Arguments := do
  let arguments ← arguments.settle
  match shape with
  | .separator => if scope.outer then throw .misuse else return { arguments with literal := true }
  | .operand => arguments.addOperand scope argument
  | .long _ _ | .short _ _ =>
      match scope.option? shape, shape.text? with
      | none, _ => throw (scope.detour shape)
      | some name, some text => arguments.addValue name text
      | some name, none => return { arguments with pending := some (.name name) }

def add (arguments : Arguments) (scope : Scope) (argument : String) : Except Detour Arguments :=
  if arguments.literal then arguments.addOperand scope argument
  else
    let shape := Shape.ofArgument argument
    match arguments.pending with
    | some (.name name) =>
        if shape = .operand then .ok { arguments with pending := some (.value name argument) }
        else .error .misuse
    | _ => arguments.addShape scope argument shape

def endsAt (arguments : Arguments) (scope : Scope) (argument : String) : Bool :=
  match arguments.pending with
  | some (.name _) => false
  | _ => scope.outer && Shape.ofArgument argument = .operand

/-- Sorts the arguments of a scope, and returns those that are left. The last value may be pending
still. -/
def read (scope : Scope) (arguments : Arguments) :
    List String → Except Detour (Arguments × List String)
  | [] => .ok (arguments, [])
  | argument :: rest =>
      if arguments.endsAt scope argument then .ok (arguments, argument :: rest)
      else
        match arguments.add scope argument with
        | .error detour => .error detour
        | .ok arguments => read scope arguments rest

end Arguments

end NoteClock.CommandLine
