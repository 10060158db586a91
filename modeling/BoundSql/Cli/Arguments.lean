import BoundSql.Cli.Grammar

/-!
# The arguments of the program

The commands of the program, their options, and what arguments ask for.

## Main definitions

* `BoundSql.Cli.Command` — what is asked for.
* `BoundSql.Cli.Settings` — how it is to be done.
* `BoundSql.Cli.Invocation.ofArguments` — what arguments ask for.
-/

namespace BoundSql.Cli

/-- Which rows are meant. -/
structure Filter where
  /-- Assignments of a value to a field that has to equal it. -/
  conditions : List String := []
  /-- Fields that have to be empty. -/
  nulls : List String := []
  /-- Whether one of the conditions is enough. -/
  any : Bool := false
deriving DecidableEq, Repr

/-- Whether every row is meant. -/
def Filter.isEmpty (filter : Filter) : Bool := filter.conditions.isEmpty && filter.nulls.isEmpty

/-- How rows are read. -/
structure ReadOptions where
  /-- The rows. -/
  filter : Filter := {}
  /-- The field to sort by. -/
  sort? : Option String := none
  /-- Whether the largest value comes first. -/
  descending : Bool := false
  /-- The fields to read; if there are none, all of them. -/
  columns : List String := []
  /-- The number of rows returned at most. -/
  limit? : Option Nat := none
  /-- The number of rows skipped. -/
  offset? : Option Nat := none
deriving DecidableEq, Repr

/-- What is asked for. -/
inductive Command where
  /-- Write a sample schema. -/
  | init
  /-- List the declared tables. -/
  | tables
  /-- Read rows. -/
  | select (table : String) (options : ReadOptions)
  /-- Count rows. -/
  | count (table : String) (filter : Filter)
  /-- Insert records given as JSON. -/
  | insert (table : String) (records : String) (replace : Bool)
  /-- Assign values to fields. -/
  | update (table : String) (assignments : List String) (filter : Filter)
  /-- Delete rows. -/
  | delete (table : String) (filter : Filter)
  /-- Remove every row. -/
  | truncate (table : String)
deriving DecidableEq, Repr

/-- How the program does its work. -/
structure Settings where
  /-- How much it tells. -/
  verbosity : Nat := 0
  /-- Whether it tells nothing. -/
  quiet : Bool := false
  /-- Whether it writes JSON. -/
  json : Bool := false
  /-- Whether it writes without colours. -/
  noColor : Bool := false
  /-- The schema file. -/
  schema? : Option String := none
deriving DecidableEq, Repr

/-- What arguments ask for. -/
structure Invocation where
  /-- How. -/
  settings : Settings
  /-- What. -/
  command : Command
deriving DecidableEq, Repr

/-! ## Rules -/

/-- The option that asks for help; every command has it. -/
def helpOption : OptionRule := ⟨"help", some 'h', .help⟩

/-- The options that may stand before and behind the name of a command. -/
def sharedOptions : List OptionRule :=
  [⟨"verbose", some 'v', .counter⟩, ⟨"quiet", some 'q', .flag⟩, ⟨"json", some 'j', .flag⟩,
    ⟨"no-color", none, .flag⟩, ⟨"schema", some 's', .text⟩]

/-- The options that choose rows. -/
def filterOptions : List OptionRule :=
  [⟨"where", some 'w', .texts⟩, ⟨"null", none, .texts⟩, ⟨"any", none, .flag⟩]

/-- The commands. -/
def commandRules : List CommandRule :=
  [{ names := ["init"] },
    { names := ["tables", "ls"] },
    { names := ["select", "s"]
      options := filterOptions ++
        [⟨"sort", none, .text⟩, ⟨"desc", none, .flag⟩, ⟨"columns", none, .list⟩,
          ⟨"limit", none, .number⟩, ⟨"offset", none, .number⟩]
      places := ["TABLE"]
      needs := [("desc", "sort")]
      helpIfEmpty := true },
    { names := ["count"], options := filterOptions, places := ["TABLE"], helpIfEmpty := true },
    { names := ["insert", "i"]
      options := [⟨"replace", none, .flag⟩]
      places := ["TABLE", "JSON"]
      helpIfEmpty := true },
    { names := ["update", "u"]
      options := ⟨"set", none, .texts⟩ :: filterOptions
      places := ["TABLE"]
      required := ["set"]
      helpIfEmpty := true },
    { names := ["delete", "rm"]
      options := filterOptions
      places := ["TABLE"]
      helpIfEmpty := true },
    { names := ["truncate"], places := ["TABLE"], helpIfEmpty := true }]

/-- The rule of a command with the options that every command has. -/
def CommandRule.withShared (rule : CommandRule) : CommandRule :=
  { rule with options := rule.options ++ sharedOptions ++ [helpOption] }

/-- The name of the command that explains others. -/
def helpCommand : String := "help"

/-- The names of all commands. -/
def commandNames : List String := helpCommand :: commandRules.flatMap CommandRule.names

/-- The program before the name of a command. -/
def programRule : CommandRule where
  names := []
  options := sharedOptions ++ [helpOption, ⟨"version", some 'V', .version⟩]
  helpIfEmpty := true
  subcommands := commandNames

/-! ## Meaning -/

/-- How often an option counts at most. -/
def counterLimit : Nat := 255

/-- The settings that shared options make. What is given behind the name of a command replaces what
is given before it. -/
def Settings.ofGiven (before behind : Given) : Settings :=
  let given (name : String) : Given := if behind.has name then behind else before
  { verbosity := min counterLimit ((given "verbose").count "verbose")
    quiet := (given "quiet").has "quiet"
    json := (given "json").has "json"
    noColor := (given "no-color").has "no-color"
    schema? := (given "schema").value? "schema" }

/-- The rows that options choose. -/
def Filter.ofGiven (given : Given) : Filter :=
  ⟨given.values "where", given.values "null", given.has "any"⟩

/-- The options of a read. -/
def ReadOptions.ofGiven (given : Given) : ReadOptions where
  filter := .ofGiven given
  sort? := given.value? "sort"
  descending := given.has "desc"
  columns := given.values "columns"
  limit? := given.value? "limit" >>= numberOfText?
  offset? := given.value? "offset" >>= numberOfText?

/-- The command of a name, with what is given behind it. -/
def Command.ofGiven (name : String) (given : Given) : Command :=
  let table := (given.value? "TABLE").getD ""
  match name with
  | "select" => .select table (.ofGiven given)
  | "count" => .count table (.ofGiven given)
  | "insert" => .insert table ((given.value? "JSON").getD "") (given.has "replace")
  | "update" => .update table (given.values "set") (.ofGiven given)
  | "delete" => .delete table (.ofGiven given)
  | "truncate" => .truncate table
  | "tables" => .tables
  | _ => .init

/-- What asking for the help of a command means: the command has to exist, and has no subcommands
itself. -/
def readHelp (words : List String) : UsageError :=
  match words with
  | [] => .helpRequested
  | [word] => if word ∈ commandNames then .helpRequested else .unknownCommand
  | _ => .unknownCommand

/-- What the words behind the name of a command give, and the name it is best known by. -/
def readCommand (name : String) (words : List String) : Except UsageError (String × Given) :=
  match commandRules.find? (name ∈ ·.names) with
  | none => .error (readHelp words)
  | some rule => do
    let rule := rule.withShared
    let (reading, _) ← rule.read words
    return (rule.names.headD name, ← rule.finish reading false)

/-- What arguments ask for. What is wrong behind the name of a command comes before what is wrong
with the last option in front of it. -/
def Invocation.ofArguments (words : List String) : Except UsageError Invocation := do
  let (reading, rest?) ← programRule.read words
  match rest? with
  | none =>
    discard (programRule.finish reading false)
    throw .missingCommand
  | some (name, rest) =>
    let (name, behind) ← readCommand name rest
    let before ← programRule.finish reading true
    return ⟨.ofGiven before behind, .ofGiven name behind⟩

end BoundSql.Cli
