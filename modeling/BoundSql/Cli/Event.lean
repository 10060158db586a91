import BoundSql.Cli.Compile

/-!
# Events

What the program tells about its work, apart from its results. Which events a command causes is a
function of the command and of the schema, like its result.

## Main definitions

* `BoundSql.Cli.Event` — a message with named values.
* `BoundSql.Cli.Command.events` — the events of compiling a command, also of one that fails.
-/

namespace BoundSql.Cli

/-- How much telling an event belongs to. -/
inductive Level where
  /-- It is told unless the program is to be quiet. -/
  | info
  /-- It is told if the program is to tell more. -/
  | debug
  /-- It is told if the program is to tell everything. -/
  | trace
deriving DecidableEq, Repr

/-- A value of an event. -/
inductive Detail where
  /-- A name, which stands in quotes. -/
  | name (text : String)
  /-- A path, which stands as it is. -/
  | path (text : String)
  /-- A number. -/
  | number (n : Nat)
  /-- A truth value. -/
  | truth (b : Bool)
deriving DecidableEq, Repr

/-- A message with named values. -/
structure Event where
  /-- How much telling it belongs to. -/
  level : Level
  /-- The message. -/
  message : String
  /-- The values, in order. -/
  details : List (String × Detail) := []
deriving DecidableEq, Repr

namespace Event

/-- The schema file is known. -/
def usingSchema (path : String) : Event := ⟨.debug, "using schema", [("path", .path path)]⟩

/-- The schema file is read. -/
def loadedSchema (path : String) (schema : Schema) : Event :=
  ⟨.debug, "loaded schema", [("path", .path path), ("tables", .number schema.tables.length)]⟩

/-- A schema file is written. -/
def savedSchema (path : String) : Event := ⟨.info, s!"Schema saved to {path}", []⟩

/-- The sample schema is written. -/
def generatedSchema (path : String) : Event :=
  ⟨.info, s!"Default schema generated with documentation at: {path}", []⟩

/-- The options that choose rows are read. -/
def builtFilter (conditions : Nat) (any : Bool) : Event :=
  ⟨.debug, "built filter", [("conditions", .number conditions), ("any", .truth any)]⟩

/-- A statement is compiled. -/
def compiled (kind : String) (details : List (String × Detail)) (statement : Statement) : Event :=
  ⟨.trace, s!"compiled {kind} statement",
    details ++ [("parameters", .number statement.params.size)]⟩

/-- A query has its statement. -/
def generatedQuery (isCount : Bool) (statement : Statement) : Event :=
  ⟨.debug, "generated select statement",
    [("count", .truth isCount), ("parameters", .number statement.params.size)]⟩

/-- A statement that changes a table is about to be compiled. -/
def generating (kind table : String) (details : List (String × Detail)) : Event :=
  ⟨.debug, s!"generating {kind} statement", ("table", .name table) :: details⟩

end Event

/-- The events of a success. -/
def whenOk {ε α : Type} (result : Except ε α) (events : α → List Event) : List Event :=
  match result with
  | .ok a => events a
  | .error _ => []

/-- The events of reading the options that choose rows. -/
def Filter.events (filter : Filter) (table : Table) : List Event :=
  if filter.isEmpty then []
  else whenOk (filter.leaves table) fun leaves => [.builtFilter leaves.length filter.any]

/-- The events of compiling a command about a table. -/
def Command.eventsFor [Json.Library] (table : Table) : Command → List Event
  | .init => []
  | .tables => []
  | .select _ options =>
    options.filter.events table ++ whenOk (compileSelect table options) fun statement =>
      [.compiled "select" [("joins", .number 0)] statement, .generatedQuery false statement]
  | .count _ filter =>
    filter.events table ++ whenOk (compileCount table filter) fun statement =>
      [.compiled "count" [] statement, .generatedQuery true statement]
  | .insert _ text replace =>
    whenOk (parseRecords text) fun records =>
      .generating (if replace then "replace" else "insert") table.name [] ::
        whenOk (compileInsert table text replace) fun statement =>
          [.compiled "insert" [("rows", .number records.length)] statement]
  | .update _ assignments filter =>
    whenOk (assignments.mapM parseAssignment) fun record =>
      filter.events table ++
        match compileUpdate table assignments filter with
        | .ok statement =>
          [.generating "update" table.name
              [("index", .number 0), ("assignments", .number record.length)],
            .compiled "update" [("assignments", .number record.length)] statement]
        | .error (.table (.compile _)) =>
          [.generating "update" table.name
            [("index", .number 0), ("assignments", .number record.length)]]
        | .error _ => []
  | .delete _ filter =>
    filter.events table ++ whenOk (filter.leaves table) fun leaves =>
      (if leaves.isEmpty then [] else [.generating "delete" table.name []]) ++
        whenOk (compileDelete table filter) fun statement => [.compiled "delete" [] statement]
  | .truncate _ => []

/-- The events of compiling a command against a schema. -/
def Command.events [Json.Library] (schema : Schema) (command : Command) : List Event :=
  match command.table? with
  | none => []
  | some name => whenOk (schema.table name) fun entry => command.eventsFor entry.toTable

end BoundSql.Cli
