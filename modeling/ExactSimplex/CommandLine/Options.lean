import ExactSimplex.Text.Digit

/-! The rules by which a command line is read.  An argument that starts with a dash names an option;
a long name may be shortened as far as it stays clear, and its value follows after an equals sign or
as the next argument.  Short options without values may be joined behind one dash, the first of them
with an equals sign behind it or without.  Negative numbers, arguments with a space in them, and all
that follows a double dash are values.  A double dash as an attached value stands for an empty
one. -/

namespace ExactSimplex.CommandLine

/-- An option: its names, and whether a value follows. -/
structure Rule where
  names : List String
  takesValue : Bool

/-- What one argument is taken for. -/
inductive Reading where
  | value (text : String)
  | marker
  /-- An option, and the text attached to its name, directly or after an equals sign. -/
  | option (name : String) (attached : Option (List Char))
  /-- An argument in the form of an option that there is not. -/
  | stranger

/-- What the arguments ask for, in order. -/
inductive Event where
  | flag (name : String)
  /-- An option with its value, which may be empty. -/
  | setting (name : String) (value : Option String)
  | positional (text : String)
  | surplus
  /-- An argument that breaks the rules; nothing comes after it. -/
  | broken

/-- Whether the text after a dash makes it a negative number; a line break may end it. -/
def isNumber (cs : List Char) : Bool :=
  let body := if cs.getLast? = some '\n' then cs.dropLast else cs
  match body.dropWhile Text.isDigit with
  | [] => !body.isEmpty
  | '.' :: fraction => !fraction.isEmpty && fraction.all Text.isDigit
  | _ => false

/-- An argument before its first equals sign, and after it if there is one. -/
def splitSign (cs : List Char) : List Char × Option (List Char) :=
  match cs.dropWhile (· ≠ '=') with
  | [] => (cs, none)
  | _ :: after => (cs.takeWhile (· ≠ '='), some after)

/-- The options that an argument, which is not the full name of one, may mean. -/
def candidates (names : List String) (cs : List Char) : List (String × Option (List Char)) :=
  match cs with
  | '-' :: '-' :: _ =>
    let (stem, after) := splitSign cs
    (names.filter fun name => stem.isPrefixOf name.toList).map fun name => (name, after)
  | dash :: letter :: rest =>
    names.filterMap fun name =>
      if name.toList = [dash, letter] then some (name, some rest)
      else if cs.isPrefixOf name.toList then some (name, none)
      else none
  | _ => []

/-- An argument that is in question as an option; none if its meaning is not clear. -/
def readOption (names : List String) (argument : String) : Option Reading :=
  let cs := argument.toList
  let (stem, after) := splitSign cs
  if names.contains argument then some (.option argument none)
  else if after.isSome && names.contains (String.ofList stem) then
    some (.option (String.ofList stem) after)
  else
    match candidates names cs with
    | [(name, attached)] => some (.option name attached)
    | _ :: _ :: _ => none
    | [] =>
      if isNumber (cs.drop 1) || cs.contains ' ' then some (.value argument) else some .stranger

/-- What an argument before a double dash is. -/
def readArgument (names : List String) (argument : String) : Option Reading :=
  match argument.toList with
  | '-' :: _ :: _ => readOption names argument
  | _ => some (.value argument)

/-- What the arguments are; none if the meaning of one is not clear. -/
def readAll (names : List String) : List String → Option (List Reading)
  | [] => some []
  | "--" :: rest => some (.marker :: rest.map .value)
  | argument :: rest => do
    return (← readArgument names argument) :: (← readAll names rest)

/-- The first rule that has a name. -/
def ruleOf? (rules : List Rule) (name : String) : Option Rule :=
  rules.find? fun rule => rule.names.contains name

/-- Options without values joined behind the one called `name`; none if a letter names no such
option. -/
def joined (rules : List Rule) (name : String) : List Char → Option (List Event)
  | [] => some [.flag name]
  | letter :: rest =>
    let next := String.ofList ['-', letter]
    match ruleOf? rules next with
    | none => none
    | some rule =>
      if rule.takesValue then none else (joined rules next rest).map (.flag name :: ·)

/-- A text attached to an option as its value; a double dash leaves the value empty. -/
def attachedValue (text : List Char) : Option String :=
  if text = ['-', '-'] then none else some (String.ofList text)

/-- An option with a text attached; none if it has no use for one. -/
def withAttached (rules : List Rule) (rule : Rule) (name : String) (text : List Char) :
    Option (List Event) :=
  if rule.takesValue then some [.setting name (attachedValue text)]
  else if name.length = 2 && !text.isEmpty then joined rules name text
  else none

/-- The events of arguments, where `pending` tells that a positional argument is still to come.  A
double dash next to that argument belongs to it. -/
def events (rules : List Rule) (pending : Bool) : List Reading → List Event
  | [] => []
  | .value text :: .marker :: rest =>
    if pending then .positional text :: events rules false rest
    else .surplus :: .surplus :: events rules false rest
  | .value text :: rest =>
    if pending then .positional text :: events rules false rest
    else .surplus :: events rules false rest
  | .marker :: .value text :: rest =>
    if pending then .positional text :: events rules false rest
    else .surplus :: .surplus :: events rules false rest
  | .marker :: rest => .surplus :: events rules pending rest
  | .stranger :: rest => .surplus :: events rules pending rest
  | .option name none :: rest =>
    match ruleOf? rules name with
    | none => [.broken]
    | some rule =>
      if rule.takesValue then
        match rest with
        | .value text :: after => .setting name (some text) :: events rules pending after
        | _ => [.broken]
      else .flag name :: events rules pending rest
  | .option name (some attached) :: rest =>
    match (ruleOf? rules name).bind fun rule => withAttached rules rule name attached with
    | none => [.broken]
    | some found => found ++ events rules pending rest

/-- Reads the arguments; `pending` says whether a positional one is expected. -/
def read (rules : List Rule) (pending : Bool) (arguments : List String) : List Event :=
  match readAll (rules.flatMap (·.names)) arguments with
  | some readings => events rules pending readings
  | none => [.broken]

end ExactSimplex.CommandLine
