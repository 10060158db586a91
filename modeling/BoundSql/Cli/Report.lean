import BoundSql.Cli.Event
import BoundSql.Json.Basic

/-!
# Reports

How results and events are written: as text, with colours unless they are not wanted, or as JSON.

## Main definitions

* `BoundSql.Cli.Report` — what a run of the program leaves.
* `BoundSql.Cli.Settings.eventLine` — the line of an event.
* `BoundSql.Cli.Settings.statementText` — the text of a statement.
* `BoundSql.Cli.Settings.report` — the report of a run.
-/

namespace BoundSql.Cli

/-! ## Colours -/

/-- A colour of a terminal. -/
inductive Color where
  | green
  | blue
  | magenta
  | cyan
deriving DecidableEq, Repr

/-- The number that selects a colour. -/
def Color.code : Color → Nat
  | .green => 32
  | .blue => 34
  | .magenta => 35
  | .cyan => 36

/-- A text in a colour, if colours are wanted. -/
def Settings.paint (settings : Settings) (color : Color) (text : String) : String :=
  if settings.noColor then text else s!"\x1b[{color.code}m{text}\x1b[0m"

/-! ## Events -/

/-- The name of a level. -/
def Level.name : Level → String
  | .info => "INFO"
  | .debug => "DEBUG"
  | .trace => "TRACE"

/-- Whether events of a level are told. -/
def Settings.tells (settings : Settings) (level : Level) : Bool :=
  !settings.quiet &&
    match level with
    | .info => true
    | .debug => 1 ≤ settings.verbosity
    | .trace => 2 ≤ settings.verbosity

/-- The text of a detail. -/
def Detail.text : Detail → String
  | .name text => "\"" ++ text ++ "\""
  | .path text => text
  | .number n => toString n
  | .truth b => toString b

/-- A detail as a value. -/
def Detail.value : Detail → Value
  | .name text => .text text
  | .path text => .text text
  | .number n => .integer (Int64.ofNat n)
  | .truth b => .bool b

/-- The mark in front of a message. -/
def Settings.levelMark (settings : Settings) : Level → String
  | .info => ""
  | .debug => settings.paint .blue "[DEBUG]" ++ " "
  | .trace => settings.paint .magenta "[TRACE]" ++ " "

/-- The values behind a message. -/
def Settings.detailsText (settings : Settings) (details : List (String × Detail)) : String :=
  if details.isEmpty then ""
  else
    " " ++ settings.paint .blue
      (String.intercalate " " (details.map fun (name, detail) => name ++ "=" ++ detail.text))

/-- An event as a document. -/
def Event.toJson (event : Event) : Json Value :=
  .object (("level", .scalar (.text event.level.name)) ::
    ("message", .scalar (.text event.message)) ::
    event.details.map fun (name, detail) => (name, .scalar detail.value))

/-- The line of an event. -/
def Settings.eventLine [Json.Library] (settings : Settings) (event : Event) : String :=
  if settings.json then Json.Library.compact event.toJson ++ "\n"
  else
    settings.levelMark event.level ++ event.message ++ settings.detailsText event.details ++ "\n"

/-! ## Results -/

/-- The line of a bound parameter. -/
def Settings.parameterLine (settings : Settings) (position : Nat) (value : Value) : String :=
  "  " ++ settings.paint .cyan (toString position ++ ".") ++ " " ++ value.display ++ "\n"

/-- The text of a statement. -/
def Settings.statementText [Json.Library] (settings : Settings) (statement : Statement) : String :=
  if settings.json then Json.Library.pretty statement.toJson ++ "\n"
  else
    let parameters := statement.params.toList
    statement.sql ++ "\n" ++
      if parameters.isEmpty then settings.paint .magenta "parameters: (none)" ++ "\n"
      else
        settings.paint .magenta "parameters:" ++ "\n" ++
          String.join (parameters.zipIdx.map fun (value, index) =>
            settings.parameterLine (index + 1) value)

/-- The events that list the tables of a schema. -/
def Settings.listing (settings : Settings) (path : String) (schema : Schema) : List Event :=
  if schema.tables.isEmpty then [⟨.info, s!"No tables declared in {path}", []⟩]
  else
    schema.tables.flatMap fun table =>
      ⟨.info, settings.paint .green table.name, []⟩ ::
        table.columns.map fun column =>
          ⟨.info, "  " ++ settings.paint .cyan column.field ++ " -> " ++ column.column, []⟩

/-! ## Reports -/

/-- What a run of the program leaves. -/
structure Report where
  /-- The status with which the program ends. -/
  status : Nat
  /-- What it writes as its results. -/
  output : String
  /-- What it tells about its work. -/
  log : String
  /-- Why it failed. -/
  failure? : Option Diagnostic
deriving DecidableEq, Repr

/-- Whether events of a level go to the log. -/
def Level.inLog : Level → Bool
  | .info => false
  | .debug => true
  | .trace => true

/-- The lines of the events that are told. -/
def Settings.eventLines [Json.Library] (settings : Settings) (events : List Event) : String :=
  String.join ((events.filter (settings.tells ·.level)).map settings.eventLine)

/-- The report of a run. Events of the first level go with the results, the others to the log. -/
def Settings.report [Json.Library] (settings : Settings) (events : List Event)
    (result : Except CommandError (Option Statement)) : Report :=
  let lines (inLog : Bool) : String := settings.eventLines
    (events.filter fun event => event.level.inLog == inLog)
  match result with
  | .error e => ⟨e.status, lines false, lines true, some e.diagnostic⟩
  | .ok none => ⟨0, lines false, lines true, none⟩
  | .ok (some statement) => ⟨0, lines false ++ settings.statementText statement, lines true, none⟩

end BoundSql.Cli
