/-!
# Arguments of the command line

A command comes first and its options follow, each of them at most once, as `--name value` or
`--name=value`.  A value is not empty, and behind a blank it starts with a dash only if it is
nothing else.
-/

namespace QueryPlanner

/-- What the program is asked for. -/
inductive Command where
  /-- The plan of a statement as a document. -/
  | compile (catalog config : Option String)
  /-- The plan of a statement as a text for readers. -/
  | explain (catalog config : Option String)
  /-- The list of collations. -/
  | collations (config : Option String)
  deriving DecidableEq

/-- What the arguments of the program amount to. -/
inductive Invocation where
  | run (command : Command)
  | version
  | help
  | usageError
  deriving DecidableEq

namespace Invocation

/-- The options of a command. -/
inductive Flag where
  | catalog
  | config
  deriving DecidableEq

/-- How an option is written. -/
def Flag.word : Flag → String
  | .catalog => "--catalog"
  | .config => "--config"

/-- Values of options that have been read. -/
structure Options where
  catalog : Option String := none
  config : Option String := none

namespace Options

def value? (o : Options) : Flag → Option String
  | .catalog => o.catalog
  | .config => o.config

/-- Sets an option that has no value so far. -/
def set? (o : Options) (flag : Flag) (value : String) : Option Options :=
  if value = "" ∨ (o.value? flag).isSome then none
  else
    match flag with
    | .catalog => some { o with catalog := some value }
    | .config => some { o with config := some value }

end Options

/-- Whether an argument cannot be the value of the option before it. -/
def startsOption (argument : String) : Bool := argument.startsWith "-" && argument != "-"

/-- The option that an argument sets with an equality sign, and its value. -/
def assigned? (flags : List Flag) (argument : String) : Option (Flag × String) :=
  flags.findSome? fun flag =>
    let front := flag.word ++ "="
    if argument.startsWith front then
      some (flag, String.ofList (argument.toList.drop front.length))
    else none

/-- Whether an argument asks for help. -/
def asksForHelp (argument : String) : Bool :=
  argument == "--help" || argument.startsWith "-h"

/-- Reads the arguments behind a command that has the given options. -/
def ofOptions (flags : List Flag) (make : Options → Command) (o : Options) :
    List String → Invocation
  | [] => .run (make o)
  | ["--"] => .run (make o)
  | argument :: rest =>
      if asksForHelp argument then .help
      else
        match flags.find? (·.word == argument) with
        | some flag =>
            match rest with
            | [] => .usageError
            | value :: rest =>
                if startsOption value then .usageError
                else
                  match o.set? flag value with
                  | some o => ofOptions flags make o rest
                  | none => .usageError
        | none =>
            match assigned? flags argument with
            | none => .usageError
            | some (flag, value) =>
                match o.set? flag value with
                | some o => ofOptions flags make o rest
                | none => .usageError

/-- The commands, with their names, their options and what they make of them. -/
def commands : List (String × List Flag × (Options → Command)) :=
  [("compile", [.catalog, .config], fun o => .compile o.catalog o.config),
    ("explain", [.catalog, .config], fun o => .explain o.catalog o.config),
    ("collations", [.config], fun o => .collations o.config)]

/-- Reads the arguments of the program. -/
def ofArguments : List String → Invocation
  | [] => .usageError
  | first :: rest =>
      if asksForHelp first then .help
      else if first == "--version" || first.startsWith "-V" then .version
      else if first == "help" then
        match rest with
        | [] => .help
        | [name] => if (commands.map (·.1)).contains name || name == "help" then .help
            else .usageError
        | _ => .usageError
      else
        match commands.find? (·.1 == first) with
        | some (_, flags, make) => ofOptions flags make {} rest
        | none => .usageError

end Invocation

end QueryPlanner
