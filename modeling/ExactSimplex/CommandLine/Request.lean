import ExactSimplex.Benchmark
import ExactSimplex.CommandLine.Options

/-! What a command line asks for: to solve the model in a file, to run a benchmark, or for help. -/

namespace ExactSimplex.CommandLine

/-- What ends a command line before it asks for anything. -/
inductive Stop where
  | help
  | misuse
deriving DecidableEq, Repr

/-- The arguments of the command that solves a model. -/
structure SolveArguments where
  path : Option String := none
  /-- The sense that is used whatever the model says. -/
  maximize : Option Bool := none
  limit : StepLimit := .standard
  debug : Bool := false
  graph : Bool := false
  surplus : Bool := false
deriving DecidableEq, Repr

/-- The arguments of the command that runs a benchmark.  A number is missing when its option has an
empty value. -/
structure BenchArguments where
  programCount : Option Int := some Benchmark.Parameters.standard.programCount
  seed : Option Int := some Benchmark.Parameters.standard.seed
  limit : StepLimit := .standard
  variableCount : Option Int := some ProgramShape.standard.variableCount
  constraintCount : Option Int := some ProgramShape.standard.constraintCount
  verbose : Bool := false
  surplus : Bool := false
deriving DecidableEq, Repr

/-- What a command line asks for. -/
inductive Request where
  | solve (path : String) (arguments : SolveArguments)
  | bench (arguments : BenchArguments)
deriving DecidableEq, Repr

/-- The option that asks for help. -/
def helpRule : Rule := ⟨["-h", "--help"], false⟩

/-- The options of the command that solves a model. -/
def solveRules : List Rule :=
  [helpRule, ⟨["--sense"], true⟩, ⟨["--max-steps"], true⟩, ⟨["--debug"], false⟩,
    ⟨["--graph"], false⟩]

/-- The options of the command that runs a benchmark. -/
def benchRules : List Rule :=
  [helpRule, ⟨["--program-count"], true⟩, ⟨["--seed"], true⟩, ⟨["--max-steps"], true⟩,
    ⟨["--variables"], true⟩, ⟨["--constraints"], true⟩, ⟨["-v", "--verbose"], false⟩]

/-- The whole number that the value of an option has to be, none for an empty value.  One with too
many digits is misuse like a text that is no number. -/
def wholeNumber (digits : DigitLimit) : Option String → Except Stop (Option Int)
  | none => .ok none
  | some text =>
    match (Text.parseInt? text).map digits.read with
    | some (.ok n) => .ok (some n)
    | some (.error _) | none => .error .misuse

/-- The limit of steps that the value of an option states. -/
def stepLimit (digits : DigitLimit) (value : Option String) : Except Stop StepLimit := do
  match ← wholeNumber digits value with
  | some n => return .steps n
  | none => return .incomparable

/-- Whether the value of an option asks for the greatest value of the objective; an empty value does
not. -/
def sense : Option String → Except Stop Bool
  | none => .ok false
  | some text =>
    if text = "max" then .ok true else if text = "min" then .ok false else .error .misuse

namespace SolveArguments

/-- The arguments after one more event. -/
def take (digits : DigitLimit) (a : SolveArguments) : Event → Except Stop SolveArguments
  | .flag "--debug" => .ok { a with debug := true }
  | .flag "--graph" => .ok { a with graph := true }
  | .flag _ => .error .help
  | .setting "--sense" value => do return { a with maximize := some (← sense value) }
  | .setting _ value => do return { a with limit := ← stepLimit digits value }
  | .positional text => .ok { a with path := some text }
  | .surplus => .ok { a with surplus := true }
  | .broken => .error .misuse

/-- The arguments that events ask for. -/
def ofEvents (digits : DigitLimit) (events : List Event) : Except Stop SolveArguments :=
  events.foldlM (take digits) {}

/-- The request, which needs a path and nothing that is too much. -/
def request (a : SolveArguments) : Except Stop Request :=
  match a.path with
  | some path => if a.surplus then .error .misuse else .ok (.solve path a)
  | none => .error .misuse

end SolveArguments

namespace BenchArguments

/-- The arguments after one more event. -/
def take (digits : DigitLimit) (a : BenchArguments) : Event → Except Stop BenchArguments
  | .flag "-v" | .flag "--verbose" => .ok { a with verbose := true }
  | .flag _ => .error .help
  | .setting "--program-count" value => do
    return { a with programCount := ← wholeNumber digits value }
  | .setting "--seed" value => do return { a with seed := ← wholeNumber digits value }
  | .setting "--max-steps" value => do return { a with limit := ← stepLimit digits value }
  | .setting "--variables" value => do return { a with variableCount := ← wholeNumber digits value }
  | .setting _ value => do return { a with constraintCount := ← wholeNumber digits value }
  | .positional _ | .surplus => .ok { a with surplus := true }
  | .broken => .error .misuse

/-- The arguments that events ask for. -/
def ofEvents (digits : DigitLimit) (events : List Event) : Except Stop BenchArguments :=
  events.foldlM (take digits) {}

/-- The request, which must have nothing that is too much. -/
def request (a : BenchArguments) : Except Stop Request :=
  if a.surplus then .error .misuse else .ok (.bench a)

end BenchArguments

/-- Reads the arguments of the command called `name`. -/
def readCommand (digits : DigitLimit) (name : String) (arguments : List String) :
    Except Stop Request :=
  match name with
  | "solve" => do (← SolveArguments.ofEvents digits (read solveRules true arguments)).request
  | "bench" => do (← BenchArguments.ofEvents digits (read benchRules false arguments)).request
  | _ => .error .misuse

/-- Whether an option before the name of the command asks for help. -/
def asksHelp (name : String) (attached : Option (List Char)) : Bool :=
  match attached with
  | none => true
  | some text => (withAttached [helpRule] helpRule name text).isSome

/-- Reads a command line: the first argument that is no option names the command.  Options in front
of it are not known but for the one that asks for help. -/
def readRequest (digits : DigitLimit) : List String → Except Stop Request
  | [] => .error .misuse
  | "--" :: _ => .error .misuse
  | argument :: rest =>
    match readArgument helpRule.names argument with
    | some (.value name) => readCommand digits name rest
    | some (.option name attached) => .error (if asksHelp name attached then .help else .misuse)
    | some .stranger =>
      match readRequest digits rest with
      | .error .help => .error .help
      | _ => .error .misuse
    | some .marker | none => .error .misuse

end ExactSimplex.CommandLine
