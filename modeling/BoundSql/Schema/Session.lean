import BoundSql.Files.Tree
import BoundSql.Schema.Store

/-!
# Sessions with schema files

A session works on a tree of files and remembers where the schema file is. It can be told another
place, and schemas can be read from files and written to files, there or elsewhere.

## Main definitions

* `BoundSql.Schema.Session` — the files and the path of the schema file.
* `BoundSql.Schema.Action` — what can be done in a session.
* `BoundSql.Schema.Session.perform`, `BoundSql.Schema.Session.run` — what one action does, and what
  several do one after the other.
-/

namespace BoundSql.Schema

/-- Files, and where the schema file is among them. -/
structure Session where
  /-- The files. -/
  files : FileTree
  /-- The path of the schema file. -/
  path : String := defaultPath

/-- What can be done in a session. -/
inductive Action where
  /-- Tells another path of the schema file. -/
  | setPath (path : String)
  /-- Writes the sample schema to the schema file, if there is none yet. -/
  | generate
  /-- Reads the schema file. -/
  | loadCurrent
  /-- Reads the schema of a file. -/
  | load (path : String)
  /-- Writes a schema to a file. -/
  | save (path : String) (schema : Schema)

namespace Session

/-- Works on the files of a session. -/
def onFiles {α : Type} (session : Session) (operation : FileTree.Run (Except SchemaError α))
    (answer : α → Option Schema) : Except SchemaError (Option Schema) × Session :=
  let (result, files) := operation.run session.files
  (result.map answer, { session with files })

variable [Toml.Library]

/-- What an action does. It is answered with the schema that it reads, if it reads one. -/
def perform (session : Session) : Action → Except SchemaError (Option Schema) × Session
  | .setPath path => (.ok none, { session with path })
  | .generate => session.onFiles (Schema.generate session.path) fun _ => none
  | .loadCurrent => session.onFiles (Schema.load session.path) some
  | .load path => session.onFiles (Schema.load path) some
  | .save path schema => session.onFiles (schema.save path) fun _ => none

/-- The session after some actions, one after the other. -/
def run (session : Session) (actions : List Action) : Session :=
  actions.foldl (fun session action => (session.perform action).2) session

end Session

end BoundSql.Schema
