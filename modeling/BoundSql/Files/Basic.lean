/-!
# File systems

What the library needs of a file system: whether a path leads to something, the content of a file,
making directories and writing a file. Failures are causes with the words a reader knows from the
operating system.

## Main definitions

* `BoundSql.FileError` — why an operation on files fails.
* `BoundSql.FileSystem` — the operations, in a monad that may be pure.
-/

namespace BoundSql

/-- Why an operation on files fails. -/
inductive FileError where
  /-- The path, or a directory on the way, does not exist. -/
  | notFound
  /-- There is something at the path already. -/
  | alreadyExists
  /-- A step of the path goes through something that is no directory. -/
  | notDirectory
  /-- A directory stands where a file is needed. -/
  | isDirectory
  /-- A name or the whole path is too long. -/
  | nameTooLong
  /-- The path holds the null character. -/
  | nullInPath
  /-- The content is no text. -/
  | notText
  /-- Another cause, in the words of the system. -/
  | other (message : String)
deriving DecidableEq, Repr

/-- The words of a file error. -/
def FileError.message : FileError → String
  | .notFound => "No such file or directory (os error 2)"
  | .alreadyExists => "File exists (os error 17)"
  | .notDirectory => "Not a directory (os error 20)"
  | .isDirectory => "Is a directory (os error 21)"
  | .nameTooLong => "File name too long (os error 36)"
  | .nullInPath => "file name contained an unexpected NUL byte"
  | .notText => "stream did not contain valid UTF-8"
  | .other message => message

/-- Access to files by the text of their paths. -/
class FileSystem (m : Type → Type) where
  /-- Whether a path leads to a file or a directory. -/
  pathExists : String → m Bool
  /-- The content of a file. -/
  readFile : String → m (Except FileError ByteArray)
  /-- Makes a directory and those on the way to it; directories that exist already stay. -/
  makeDirectories : String → m (Except FileError Unit)
  /-- Makes a file, or replaces the content of one. -/
  writeFile : String → ByteArray → m (Except FileError Unit)

/-- The text of a file. -/
def FileSystem.readText {m : Type → Type} [Monad m] [FileSystem m] (path : String) :
    m (Except FileError String) := do
  match ← readFile path with
  | .error e => return .error e
  | .ok content =>
    match String.fromUTF8? content with
    | some text => return .ok text
    | none => return .error .notText

end BoundSql
