import BoundSql.Text.Split

/-!
# Paths

A path is a text of names with slashes between them. Empty names and names that are a single dot
stay where they are; two dots lead to the directory above.

## Main definitions

* `BoundSql.Path.names` — the names of a path, the empty ones between adjacent slashes included.
* `BoundSql.Path.parent?` — the path without its last name.
-/

namespace BoundSql.Path

/-- The names of a path. -/
def names (path : String) : List String := Text.split '/' path

/-- Whether a path starts at the root. -/
def isAbsolute (path : String) : Bool := path.toList.head? = some '/'

/-- Whether a name stays in its directory. -/
def isHere (name : String) : Bool := name.isEmpty || name = "."

/-- The names of a path that lead somewhere. A dot counts only at the very front. -/
def steps (path : String) : List String :=
  match names path with
  | "." :: rest => "." :: rest.filter (!isHere ·)
  | names => names.filter (!isHere ·)

/-- The path of the given steps. -/
def ofSteps (absolute : Bool) (steps : List String) : String :=
  (if absolute then "/" else "") ++ String.intercalate "/" steps

/-- The path without its last step; the root and the empty path have none. -/
def parent? (path : String) : Option String :=
  if (steps path).isEmpty then none else some (ofSteps (isAbsolute path) (steps path).dropLast)

end BoundSql.Path
