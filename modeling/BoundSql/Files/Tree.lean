import BoundSql.Files.Basic
import BoundSql.Files.Path

/-!
# A tree of files

A file system as a value: files and directories by the names that lead to them from the root, and a
directory in which relative paths start. There are no links, so a file has one such list of names.

## Main definitions

* `BoundSql.FileTree` — the tree.
* `BoundSql.FileTree.resolve` — the place that a path leads to.
* `BoundSql.FileTree.read`, `BoundSql.FileTree.makeDirectories`, `BoundSql.FileTree.write` — the
  operations; what was changed before a failure stays changed.
-/

namespace BoundSql

/-- What stands at a place. -/
inductive FileEntry where
  /-- A file and its content. -/
  | file (content : ByteArray)
  /-- A directory. -/
  | directory

/-- Files and directories. -/
structure FileTree where
  /-- Where relative paths start. -/
  here : List String := []
  /-- What stands at each place other than the root. -/
  entries : List (List String × FileEntry) := []

namespace FileTree

/-! ## Places -/

/-- What stands at a place. The root is a directory. -/
def entryAt? (tree : FileTree) (place : List String) : Option FileEntry :=
  if place.isEmpty then some .directory else tree.entries.lookup place

/-- Puts an entry at a place, instead of the one that is there. -/
def put (tree : FileTree) (place : List String) (entry : FileEntry) : FileTree :=
  { tree with entries := (place, entry) :: tree.entries.filter (·.1 ≠ place) }

/-- The place that a name leads to. -/
def step (place : List String) (name : String) : List String :=
  if Path.isHere name then place
  else if name = ".." then place.dropLast
  else place ++ [name]

/-- A place that has to be a directory. -/
def directory (tree : FileTree) (place : List String) : Except FileError (List String) :=
  match tree.entryAt? place with
  | some .directory => .ok place
  | some (.file _) => .error .notDirectory
  | none => .error .notFound

/-- The length in bytes from which a name is too long. -/
def nameLimit : Nat := 256

/-- The length in bytes from which a path is too long. -/
def pathLimit : Nat := 4096

/-- The place that a name in a directory leads to. -/
def stepInto (tree : FileTree) (place : List String) (name : String) :
    Except FileError (List String) := do
  let place ← tree.directory place
  if nameLimit ≤ name.utf8ByteSize then
    throw .nameTooLong
  return step place name

/-- The place that names lead to. Every step but the last has to end in a directory. -/
def follow (tree : FileTree) (place : List String) (names : List String) :
    Except FileError (List String) :=
  names.foldlM tree.stepInto place

/-- Refuses texts that are no paths. -/
def checkPath (path : String) : Except FileError Unit :=
  if path.toList.contains '\x00' then .error .nullInPath
  else if path.isEmpty then .error .notFound
  else if pathLimit ≤ path.utf8ByteSize then .error .nameTooLong
  else .ok ()

/-- Where a path starts. -/
def start (tree : FileTree) (path : String) : List String :=
  if Path.isAbsolute path then [] else tree.here

/-- The place that a path leads to. There may be nothing. -/
def resolve (tree : FileTree) (path : String) : Except FileError (List String) := do
  checkPath path
  tree.follow (tree.start path) (Path.names path)

/-- What a path leads to. -/
def find (tree : FileTree) (path : String) : Except FileError FileEntry := do
  match tree.entryAt? (← tree.resolve path) with
  | some entry => return entry
  | none => throw .notFound

/-- Whether a path leads to something. -/
def has (tree : FileTree) (path : String) : Bool := (tree.find path).toOption.isSome

/-- Whether a path leads to a directory. -/
def hasDirectory (tree : FileTree) (path : String) : Bool :=
  match tree.find path with
  | .ok .directory => true
  | _ => false

/-! ## Operations -/

/-- The content of the file that a path leads to. -/
def read (tree : FileTree) (path : String) : Except FileError ByteArray := do
  match ← tree.find path with
  | .file content => return content
  | .directory => throw .isDirectory

/-- The place at which a path names something new: a name in a directory, and whether slashes follow
it. Paths that end in dots or at the root name nothing. -/
def newPlace? (tree : FileTree) (path : String) :
    Except FileError (Option (List String × Bool)) := do
  checkPath path
  let names := Path.names path
  let trimmed := (names.reverse.dropWhile (·.isEmpty)).reverse
  match trimmed.getLast? with
  | none => return none
  | some name =>
    let place ← tree.follow (tree.start path) trimmed.dropLast
    let place ← tree.directory place
    if name = "." || name = ".." then return none
    else return some (← tree.stepInto place name, trimmed.length < names.length)

/-- Makes a directory in a directory. -/
def makeDirectory (tree : FileTree) (path : String) : Except FileError FileTree := do
  match ← tree.newPlace? path with
  | none => throw .alreadyExists
  | some (place, _) =>
    match tree.entryAt? place with
    | some _ => throw .alreadyExists
    | none => return tree.put place .directory

/-- Makes the directory that steps lead to, the last one first, and those on the way to it. A
directory is tried before those above it; what fails because they are missing is tried again. -/
def makeAll (tree : FileTree) (absolute : Bool) : List String → Except FileError Unit × FileTree
  | [] => (.ok (), tree)
  | name :: above =>
    let path := Path.ofSteps absolute (name :: above).reverse
    match tree.makeDirectory path with
    | .ok tree => (.ok (), tree)
    | .error .notFound =>
      match makeAll tree absolute above with
      | (.error e, tree) => (.error e, tree)
      | (.ok (), tree) =>
        match tree.makeDirectory path with
        | .ok tree => (.ok (), tree)
        | .error e => (if tree.hasDirectory path then .ok () else .error e, tree)
    | .error e => (if tree.hasDirectory path then .ok () else .error e, tree)

/-- Makes a directory and those on the way to it. -/
def makeDirectories (tree : FileTree) (path : String) : Except FileError Unit × FileTree :=
  if path.toList.contains '\x00' then (.error .nullInPath, tree)
  else tree.makeAll (Path.isAbsolute path) (Path.steps path).reverse

/-- Makes a file, or replaces the content of one. -/
def write (tree : FileTree) (path : String) (content : ByteArray) : Except FileError FileTree := do
  match ← tree.newPlace? path with
  | none => throw .isDirectory
  | some (_, true) => throw .isDirectory
  | some (place, false) =>
    match tree.entryAt? place with
    | some .directory => throw .isDirectory
    | _ => return tree.put place (.file content)

/-! ## The tree as a file system -/

/-- Operations on a tree of files. -/
abbrev Run := StateM FileTree

instance : FileSystem Run where
  pathExists path := return (← get).has path
  readFile path := return (← get).read path
  makeDirectories path := modifyGet (·.makeDirectories path)
  writeFile path content := modifyGet fun tree =>
    match tree.write path content with
    | .ok changed => (.ok (), changed)
    | .error e => (.error e, tree)

end FileTree

end BoundSql
