import BoundSql.Cli.Report
import BoundSql.Json.Reader
import BoundSql.Schema.Store
import BoundSql.Toml.Editing

/-!
# Runs of the program

A run takes arguments, reads or writes a schema file, and leaves a report.

## Main definitions

* `BoundSql.Cli.perform` — does what a command asks for.
* `BoundSql.Cli.run` — a run from arguments to its report.
-/

namespace BoundSql.Cli

variable {m : Type → Type} [Monad m] [FileSystem m]

/-- The variable of the environment that names the schema file. -/
def schemaVariable : String := "SQLCHAIN_SCHEMA"

/-- The report of words that are no use of the program, or that ask for help or the version. What is
written then is up to the library that reads the words, and left out. -/
def UsageError.report : UsageError → Report
  | .helpRequested => ⟨0, "", "", none⟩
  | .versionRequested => ⟨0, "", "", none⟩
  | _ => ⟨2, "", "", none⟩

/-- The schema file: the one that the arguments name, else the one that the environment names. -/
def Settings.schemaPath (settings : Settings) (fromEnvironment : Option String) : String :=
  settings.schema?.getD (fromEnvironment.getD Schema.defaultPath)

/-- Does what a command asks for, with the schema file at a path. -/
def perform (settings : Settings) (path : String) (command : Command) :
    m (List Event × Except CommandError (Option Statement)) := do
  match command with
  | .init =>
    match ← Schema.generate path with
    | .error e => return ([], .error (.schema e))
    | .ok () => return ([.savedSchema path, .generatedSchema path], .ok none)
  | command =>
    match ← Schema.load path with
    | .error e => return ([], .error (.schema e))
    | .ok schema =>
      let events :=
        if command = .tables then settings.listing path schema else command.events schema
      return (.loadedSchema path schema :: events, command.compile schema)

/-- A run from arguments to its report. -/
def run (fromEnvironment : Option String) (words : List String) : m Report :=
  match Invocation.ofArguments words with
  | .error e => return e.report
  | .ok invocation => do
    let path := invocation.settings.schemaPath fromEnvironment
    let (events, result) ← perform invocation.settings path invocation.command
    return invocation.settings.report (.usingSchema path :: events) result

end BoundSql.Cli
