/-!
# Arguments

The arguments of a command are options, which begin with a dash, and operands. They are read from left
to right, and the first one that asks for help, asks for the version or is wrong ends the reading.

* `-x` is a short option. Several without values may share one dash; what follows one that takes a
  value is its value, an equals sign between them left out.
* `--name` and `--name=value` are long options.
* A value may also be the next argument, if that is not an option; a dash alone is not.
* All that follows `--` are operands.
-/

namespace SchemaSnippets.CommandLine

/-- What is wrong with some arguments. -/
inductive UsageError where
  | unknownOption (text : String)
  | unexpectedValue (option : String)
  | missingValue (option : String)
  | invalidValue (value : String)
  | repeated (option : String)
  | surplusOperand (operand : String)
  | missingOperand
  | missingOption (option : String)
  | missingCommand
  | unknownCommand (name : String)
deriving DecidableEq, Repr

def UsageError.message : UsageError → String
  | .unknownOption text => s!"unknown option {text}"
  | .unexpectedValue option => s!"--{option} takes no value"
  | .missingValue option => s!"--{option} needs a value"
  | .invalidValue value => s!"invalid value '{value}'"
  | .repeated option => s!"--{option} is given more than once"
  | .surplusOperand operand => s!"unexpected argument '{operand}'"
  | .missingOperand => "an argument is missing"
  | .missingOption option => s!"--{option} is needed as well"
  | .missingCommand => "a command is missing"
  | .unknownCommand name => s!"unknown command '{name}'"

/-- Why arguments are not read to their end. -/
inductive Halt where
  | help
  | version
  | misuse (e : UsageError)
deriving DecidableEq, Repr

/-! ## What a command takes -/

/-- The value of an option: whether it may be given again, and which texts it may be. -/
structure ValueRule where
  repeatable : Bool
  accepts : String → Bool

/-- What an option stands for. -/
inductive OptionKind where
  | help
  | version
  | flag
  | value (rule : ValueRule)

structure OptionSpec where
  short : Option Char
  name : String
  kind : OptionKind

/-- The options of a command, and which texts each of its operands may be. -/
structure Grammar where
  options : List OptionSpec
  operands : List (String → Bool)

/-! ## What is given -/

/-- The arguments that were read, each kind in its order. -/
structure Arguments where
  flags : List String
  values : List (String × String)
  operands : List String
deriving DecidableEq, Repr

namespace Arguments

def empty : Arguments := ⟨[], [], []⟩

/-- The values of an option. -/
def valuesOf (a : Arguments) (name : String) : List String :=
  (a.values.filter (·.1 == name)).map (·.2)

/-- The value of an option that is given at most once. -/
def value? (a : Arguments) (name : String) : Option String :=
  (a.valuesOf name).head?

def addFlag (a : Arguments) (name : String) : Except Halt Arguments :=
  if name ∈ a.flags then .error (.misuse (.repeated name))
  else .ok { a with flags := a.flags ++ [name] }

def addValue (a : Arguments) (name : String) (rule : ValueRule) (value : String) :
    Except Halt Arguments :=
  if !rule.accepts value then .error (.misuse (.invalidValue value))
  else if !rule.repeatable && (a.value? name).isSome then .error (.misuse (.repeated name))
  else .ok { a with values := a.values ++ [(name, value)] }

/-- The arguments with one more operand, if the grammar has a place for it. -/
def addOperand (g : Grammar) (a : Arguments) (operand : String) : Except Halt Arguments :=
  match g.operands[a.operands.length]? with
  | none => .error (.misuse (.surplusOperand operand))
  | some accepts =>
    if accepts operand then .ok { a with operands := a.operands ++ [operand] }
    else .error (.misuse (.invalidValue operand))

end Arguments

/-- An option whose value is still to come. -/
abbrev Pending := Option (String × ValueRule)

/-- Whether an argument is an option, or ends the options. -/
def isOption (arg : String) : Bool :=
  match arg.toList with
  | '-' :: _ :: _ => true
  | _ => false

namespace Grammar

/-- Reads a long option behind its dashes. -/
def readLong (g : Grammar) (a : Arguments) (cs : List Char) : Except Halt (Arguments × Pending) :=
  let name := String.ofList (cs.takeWhile (· != '='))
  let value := (cs.dropWhile (· != '=')).tail?.map String.ofList
  match g.options.find? (·.name == name) with
  | none => .error (.misuse (.unknownOption ("--" ++ name)))
  | some o =>
    match o.kind, value with
    | .value rule, some v => return (← a.addValue name rule v, none)
    | .value rule, none => .ok (a, some (name, rule))
    | _, some _ => .error (.misuse (.unexpectedValue name))
    | .help, none => .error .help
    | .version, none => .error .version
    | .flag, none => return (← a.addFlag name, none)

/-- Reads the short options behind a dash. -/
def readShort (g : Grammar) (a : Arguments) : List Char → Except Halt (Arguments × Pending)
  | [] => .ok (a, none)
  | c :: cs =>
    match g.options.find? (·.short == some c) with
    | none => .error (.misuse (.unknownOption (String.ofList ['-', c])))
    | some o =>
      match o.kind with
      | .help => .error .help
      | .version => .error .version
      | .flag => do g.readShort (← a.addFlag o.name) cs
      | .value rule =>
        match cs with
        | [] => .ok (a, some (o.name, rule))
        | '=' :: value => return (← a.addValue o.name rule (String.ofList value), none)
        | value => return (← a.addValue o.name rule (String.ofList value), none)

/-- Reads an argument that is an option. -/
def readOption (g : Grammar) (a : Arguments) (arg : String) : Except Halt (Arguments × Pending) :=
  match arg.toList with
  | '-' :: '-' :: cs => g.readLong a cs
  | cs => g.readShort a cs.tail

/-- Reads the arguments of a command behind those that were read before. -/
def read (g : Grammar) : Arguments → Pending → List String → Except Halt Arguments
  | a, none, [] => .ok a
  | _, some (name, _), [] => .error (.misuse (.missingValue name))
  | a, none, arg :: args =>
    if arg = "--" then args.foldlM (Arguments.addOperand g) a
    else if isOption arg then do
      let (a, pending) ← g.readOption a arg
      g.read a pending args
    else do g.read (← a.addOperand g arg) none args
  | a, some (name, rule), arg :: args =>
    if isOption arg then .error (.misuse (.missingValue name))
    else do g.read (← a.addValue name rule arg) none args

end Grammar

end SchemaSnippets.CommandLine
