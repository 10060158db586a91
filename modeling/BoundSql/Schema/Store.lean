import BoundSql.Files.Path
import BoundSql.Schema.Reader
import BoundSql.Schema.Writer

/-!
# Schema files

Reading schemas from files and writing them to files.

## Main definitions

* `BoundSql.Schema.load` — the schema of a file.
* `BoundSql.Schema.save` — writes a schema to a file, making the directories on the way.
* `BoundSql.Schema.generate` — writes the sample schema to a file that does not exist yet.
-/

namespace BoundSql.Schema

variable {m : Type → Type} [Monad m] [FileSystem m] [Toml.Library]

/-- The file in which a schema is looked for by default. -/
def defaultPath : String := "sqlchain.toml"

/-- The schema of a file. -/
def load (path : String) : m (Except SchemaError Schema) := do
  match ← FileSystem.readText path with
  | .ok text => return ofText text
  | .error .notFound => return .error (.notFound path)
  | .error e => return .error (.file e)

/-- Makes the directory that a file is to stand in. -/
def makeParent (path : String) : m (Except FileError Unit) :=
  match Path.parent? path with
  | some parent => if parent.isEmpty then return .ok () else FileSystem.makeDirectories parent
  | none => return .ok ()

/-- Writes a schema to a file, making the directories on the way. No file is touched if the schema
cannot be written as a text. -/
def save (schema : Schema) (path : String) : m (Except SchemaError Unit) := do
  match schema.toText with
  | .error e => return .error e
  | .ok text =>
    match ← makeParent path with
    | .error e => return .error (.file e)
    | .ok () => return (← FileSystem.writeFile path text.toUTF8).mapError .file

/-- Writes the sample schema to a file that does not exist yet. -/
def generate (path : String) : m (Except SchemaError Unit) := do
  if ← FileSystem.pathExists path then return .error (.alreadyExists path)
  else sample.save path

end BoundSql.Schema
