import BoundSql.Expr.Column

/-!
# Projections

What a read returns: every column, one column, or an ordered mapping from output keys to columns and
nested mappings. A mapping is flattened depth first; each leaf column is written with its own key as
a quoted alias, and the path of keys that leads to it is kept for putting nested results together.

## Main definitions

* `BoundSql.ProjectionNode`, `BoundSql.ProjectionMap` — mappings, kept in the order of insertion.
* `BoundSql.ProjectionMap.insert` — a key inserted again keeps its place and takes the new node.
* `BoundSql.ProjectionMap.flatten` — the leaves with their paths.
* `BoundSql.Projection` — what stands behind `SELECT`.
-/

namespace BoundSql

/-- What an output key stands for. -/
inductive ProjectionNode where
  /-- A column. -/
  | column (column : ColumnRef)
  /-- A mapping of its own. -/
  | nested (entries : List (String × ProjectionNode))

/-- Output keys with what they stand for, in the order of insertion. -/
structure ProjectionMap where
  /-- The keys and their nodes. -/
  entries : List (String × ProjectionNode) := []

/-- A leaf of a mapping. -/
structure FlatColumn where
  /-- The keys from the outermost mapping to the leaf. -/
  path : List String
  /-- The column at the leaf. -/
  column : ColumnRef
deriving DecidableEq, Repr

/-- A leaf is labelled with the last key of its path. -/
def FlatColumn.label (leaf : FlatColumn) : String := leaf.path.getLast?.getD ""

namespace ProjectionMap

/-- The mapping without keys. -/
def empty : ProjectionMap := {}

/-- Puts a node under a key: in place if the key is there, else at the end. -/
def insertEntry (key : String) (node : ProjectionNode) :
    List (String × ProjectionNode) → List (String × ProjectionNode)
  | [] => [(key, node)]
  | (k, n) :: rest => if k = key then (k, node) :: rest else (k, n) :: insertEntry key node rest

/-- Maps a key to a node. -/
def insert (map : ProjectionMap) (key : String) (node : ProjectionNode) : ProjectionMap :=
  ⟨insertEntry key node map.entries⟩

/-- Maps a key to a column. -/
def column (map : ProjectionMap) (key : String) (column : ColumnRef) : ProjectionMap :=
  map.insert key (.column column)

/-- Maps a key to a mapping. -/
def nested (map : ProjectionMap) (key : String) (inner : ProjectionMap) : ProjectionMap :=
  map.insert key (.nested inner.entries)

/-- The mapping that inserts the pairs of a list one after the other. -/
def ofList (pairs : List (String × ColumnRef)) : ProjectionMap :=
  pairs.foldl (fun map (key, column) => map.column key column) empty

mutual

/-- The leaves of a node that `path` leads to. -/
def flattenNode (path : List String) : ProjectionNode → List FlatColumn
  | .column c => [⟨path, c⟩]
  | .nested entries => flattenEntries path entries

/-- The leaves below the entries of a mapping that `path` leads to. -/
def flattenEntries (path : List String) : List (String × ProjectionNode) → List FlatColumn
  | [] => []
  | (key, node) :: rest => flattenNode (path ++ [key]) node ++ flattenEntries path rest

end

/-- The leaves of a mapping, depth first. -/
def flatten (map : ProjectionMap) : List FlatColumn := flattenEntries [] map.entries

end ProjectionMap

/-- Whether an output key can stand as a column alias: a question mark in it would read as a
placeholder. -/
def isLabel (key : String) : Bool := !key.isEmpty && !key.toList.contains '?'

/-- An output key as a quoted identifier. -/
def quoteLabel (key : String) : Compile String :=
  if isLabel key then return Text.doubled '"' key else throw (.invalidAlias key)

/-- A leaf with its alias; the column is checked before the key. -/
def FlatColumn.compile (ctx : Context) (leaf : FlatColumn) : Compile String := do
  let column ← leaf.column.compile ctx
  let label ← quoteLabel leaf.label
  return s!"{column} AS {label}"

/-- The leaves of a mapping as a select list. -/
def ProjectionMap.compile (ctx : Context) (map : ProjectionMap) : Compile String := do
  let columns ← map.flatten.mapM (·.compile ctx)
  return commaList columns

/-- What a read returns. -/
inductive Projection where
  /-- Every column. -/
  | wildcard
  /-- One column. -/
  | column (column : ColumnRef)
  /-- A mapping of output keys. -/
  | map (map : ProjectionMap)

/-- The text behind `SELECT`. -/
def Projection.compile (ctx : Context) : Projection → Compile String
  | .wildcard => return "*"
  | .column c => c.compile ctx
  | .map m => m.compile ctx

end BoundSql
