import BoundSql.Files.Basic
import BoundSql.Table.Handle

/-!
# Schemas

A schema declares the tables that statements can be compiled against. Names of tables and columns
and field keys go into SQL text without quotes, so they have to be identifiers.

## Main definitions

* `BoundSql.Schema` — the declared tables.
* `BoundSql.SchemaError` — why a schema is refused, or cannot be read or written.
* `BoundSql.Schema.resolve` — accepts a schema, or tells its first defect.
* `BoundSql.Schema.table` — the declared table of a name.
-/

namespace BoundSql

/-- A field key and the column it stands for. -/
structure ColumnEntry where
  /-- The key that callers use. -/
  field : String
  /-- The name of the column in storage. -/
  column : String
deriving DecidableEq, Repr

/-- A declared table. -/
structure TableEntry where
  /-- The name of the table in storage. -/
  name : String
  /-- Field keys and columns, in the order of declaration. -/
  columns : List ColumnEntry
deriving DecidableEq, Repr

/-- Declared tables. -/
structure Schema where
  /-- The tables, in the order of declaration. -/
  tables : List TableEntry := []
deriving DecidableEq, Repr

/-- Why a schema is refused, or cannot be read or written. -/
inductive SchemaError where
  /-- The text does not describe a schema. -/
  | malformed
  /-- The text that a schema is written as cannot be read for editing. -/
  | unreadable
  /-- There is a file where a new one was to be made. -/
  | alreadyExists (path : String)
  /-- There is no file to read. -/
  | notFound (path : String)
  /-- Two tables have one name. -/
  | duplicateTable (table : String)
  /-- Two columns of a table have one field key. -/
  | duplicateField (table field : String)
  /-- A table has no columns. -/
  | emptyTable (table : String)
  /-- A field key is empty. -/
  | emptyField (table : String)
  /-- A name or a key is no identifier. -/
  | invalidIdentifier (name : String)
  /-- No table of the name is declared. -/
  | unknownTable (table : String)
  /-- An operation on files failed. -/
  | file (error : FileError)
deriving DecidableEq, Repr

/-- The words of a schema error. -/
def SchemaError.diagnostic : SchemaError → Diagnostic
  | .malformed =>
    { message := "TOML deserialization error"
      code := "sqlchain_config::toml_deserialize"
      help := some "Check your sqlchain.toml syntax and structure" }
  | .unreadable =>
    { message := "Failed to parse TOML"
      code := "sqlchain_config::toml"
      help := none }
  | .alreadyExists path =>
    { message := s!"Schema file already exists: {path}"
      code := "sqlchain_config::already_exists"
      help := some "Remove the existing schema file or pass a different --schema path" }
  | .notFound path =>
    { message := s!"Schema file not found: {path}"
      code := "sqlchain_config::not_found"
      help := some "Run `sqlchain init` to generate one, or set SQLCHAIN_SCHEMA" }
  | .duplicateTable table =>
    { message := s!"Duplicate table name: {table}"
      code := "sqlchain_config::duplicate_table"
      help := some "Each [[tables]] entry must have a unique name" }
  | .duplicateField table field =>
    { message := s!"Duplicate field `{field}` in table `{table}`"
      code := "sqlchain_config::duplicate_field"
      help := some "Field keys must be unique within a table" }
  | .emptyTable table =>
    { message := s!"Table `{table}` declares no columns"
      code := "sqlchain_config::empty_table"
      help := none }
  | .emptyField table =>
    { message := s!"Empty field key in table `{table}`"
      code := "sqlchain_config::empty_field"
      help := none }
  | .invalidIdentifier name =>
    { message := s!"Invalid identifier: `{name}`"
      code := "sqlchain_config::invalid_identifier"
      help := some "Table and column names must match ^[A-Za-z_][A-Za-z0-9_]*$" }
  | .unknownTable table =>
    { message := s!"Unknown table: {table}"
      code := "sqlchain_config::unknown_table"
      help := some "Run `sqlchain tables` to list the tables declared in the schema" }
  | .file error =>
    { message := s!"IO error: {error.message}"
      code := "sqlchain_config::io"
      help := none }

/-! ## Identifiers -/

/-- Whether a text is a letter or an underscore, followed by letters, digits and underscores. Only
the letters and digits of ASCII count. -/
def isIdentifier (text : String) : Bool :=
  match text.toList with
  | [] => false
  | c :: rest => (c.isAlpha || c = '_') && rest.all fun c => c.isAlphanum || c = '_'

/-- Refuses a text that is no identifier. -/
def checkIdentifier (text : String) : Except SchemaError Unit :=
  if isIdentifier text then .ok () else .error (.invalidIdentifier text)

/-! ## Defects -/

/-- Checks a column of a table: its key is not empty, and the key and the column are identifiers. -/
def ColumnEntry.check (table : String) (entry : ColumnEntry) : Except SchemaError Unit := do
  if entry.field.isEmpty then
    throw (.emptyField table)
  checkIdentifier entry.field
  checkIdentifier entry.column

/-- Checks columns of a table, the keys of the columns before them being given. -/
def checkColumns (table : String) (seen : List String) : List ColumnEntry → Except SchemaError Unit
  | [] => .ok ()
  | entry :: rest => do
    entry.check table
    if entry.field ∈ seen then
      throw (.duplicateField table entry.field)
    checkColumns table (entry.field :: seen) rest

/-- Checks a table on its own: its name first, then that it has columns, then the columns. -/
def TableEntry.check (entry : TableEntry) : Except SchemaError Unit := do
  checkIdentifier entry.name
  if entry.columns.isEmpty then
    throw (.emptyTable entry.name)
  checkColumns entry.name [] entry.columns

/-- Checks tables, the names of the tables before them being given. -/
def checkTables (seen : List String) : List TableEntry → Except SchemaError Unit
  | [] => .ok ()
  | entry :: rest => do
    entry.check
    if entry.name ∈ seen then
      throw (.duplicateTable entry.name)
    checkTables (entry.name :: seen) rest

namespace Schema

/-- Accepts a schema, or tells its first defect in the order of declaration. -/
def resolve (schema : Schema) : Except SchemaError Unit := checkTables [] schema.tables

end Schema

/-! ## Tables -/

/-- The definition of a declared table. -/
def TableEntry.toTableDef (entry : TableEntry) : TableDef :=
  ⟨entry.name, entry.columns.map fun column => (column.field, column.column)⟩

/-- The handle of a declared table. -/
def TableEntry.toTable (entry : TableEntry) : Table := ⟨entry.toTableDef⟩

namespace Schema

/-- The declared table of a name. -/
def table (schema : Schema) (name : String) : Except SchemaError TableEntry :=
  match schema.tables.find? (·.name = name) with
  | some entry => .ok entry
  | none => .error (.unknownTable name)

/-- The schema that a new schema file holds. -/
def sample : Schema where
  tables :=
    [⟨"blog", [⟨"id", "id"⟩, ⟨"title", "title"⟩, ⟨"authorId", "author_id"⟩,
        ⟨"categoryId", "category_id"⟩, ⟨"publishedAt", "published_at"⟩]⟩,
      ⟨"authors", [⟨"id", "id"⟩, ⟨"name", "name"⟩]⟩]

end Schema

end BoundSql
