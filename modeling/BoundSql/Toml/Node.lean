import BoundSql.Toml.Library

/-!
# The data of a document while it is read

The data that the lines of a TOML document add up to. Tables remember how they came about, because
that decides whether later lines may still add to them: a table written in braces is closed, a table
with a header takes no dotted keys from elsewhere, a table implied by the header of one of its
children may still get a header, and one made by dotted keys may get more of those.

## Main definitions

* `BoundSql.Toml.Node` — the data; `BoundSql.Toml.Node.data` forgets how tables came about.
* `BoundSql.Toml.Node.addPair?` — adds a key and its value below a path of dotted keys.
* `BoundSql.Toml.Node.addTable?` — adds a table, or an item of an array of tables, below a path.
-/

namespace BoundSql.Toml

/-- How a table came about. -/
inductive Origin where
  /-- Written in braces. -/
  | inline
  /-- Opened by a header. -/
  | header
  /-- Implied by the header of a table below it. -/
  | implied
  /-- Made by dotted keys. -/
  | dotted
deriving DecidableEq, Repr

/-- A piece of TOML data. -/
inductive Node where
  /-- A string. -/
  | text (s : String)
  /-- A whole number. -/
  | integer (n : Int)
  /-- A real number. -/
  | real (x : Binary64)
  /-- A truth value. -/
  | boolean (b : Bool)
  /-- A date, a time or both, as written. -/
  | moment (s : String)
  /-- Items in order; the flag says whether headers opened them as an array of tables. -/
  | list (ofTables : Bool) (items : List Node)
  /-- Keys and their data in order. -/
  | table (origin : Origin) (entries : List (String × Node))

/-- Keys and their data in order. -/
abbrev Entries := List (String × Node)

mutual

/-- The data, however its tables came about. -/
def Node.data : Node → Data
  | .text s => .text s
  | .integer n => .integer n
  | .real x => .real x
  | .boolean b => .boolean b
  | .moment s => .moment s
  | .list _ items => .list (itemsData items)
  | .table _ entries => .table (entriesData entries)

/-- The data of items. -/
def itemsData : List Node → List Data
  | [] => []
  | item :: rest => item.data :: itemsData rest

/-- The data of entries. -/
def entriesData : List (String × Node) → Fields
  | [] => []
  | (key, node) :: rest => (key, node.data) :: entriesData rest

end

mutual

/-- Data as they are written in one place: no header opens a table of them. -/
def Node.ofData : Data → Node
  | .text s => .text s
  | .integer n => .integer n
  | .real x => .real x
  | .boolean b => .boolean b
  | .moment s => .moment s
  | .list items => .list false (itemsOfData items)
  | .table fields => .table .inline (entriesOfData fields)

/-- Items as they are written in one place. -/
def itemsOfData : List Data → List Node
  | [] => []
  | item :: rest => .ofData item :: itemsOfData rest

/-- Entries as they are written in one place. -/
def entriesOfData : List (String × Data) → Entries
  | [] => []
  | (key, data) :: rest => (key, .ofData data) :: entriesOfData rest

end

/-- Changes the entry of a key by `present`, or puts `absent` at the end if there is none. -/
def Entries.update? (key : String) (absent : Option Node) (present : Node → Option Node) :
    Entries → Option Entries
  | [] => absent.map fun node => [(key, node)]
  | (k, node) :: rest =>
    if k = key then (present node).map fun node => (k, node) :: rest
    else (update? key absent present rest).map ((k, node) :: ·)

/-- Changes the last item of a list. -/
def updateLast? (change : Node → Option Node) : List Node → Option (List Node)
  | [] => none
  | [node] => (change node).map ([·])
  | node :: rest => (updateLast? change rest).map (node :: ·)

/-- The entries of a table that dotted keys may go through; `isLast` says whether the path of dotted
keys ends in it. -/
def openedByKeys? (isLast : Bool) : Node → Option (Origin × Entries)
  | .table .dotted entries => some (.dotted, entries)
  | .table .implied entries => if isLast then none else some (.implied, entries)
  | _ => none

namespace Node

/-- Adds a key and its value to the table that a path of dotted keys leads to. Tables that are not
there yet are made; a key that is there already, or a table that is closed to dotted keys, fails. -/
def addPair? (key : String) (value : Node) : List String → Entries → Option Entries
  | [], entries => entries.update? key (some value) fun _ => none
  | step :: path, entries =>
    entries.update? step ((addPair? key value path []).map (.table .dotted ·)) fun
      | .list true items =>
        (updateLast? · items) (fun
          | .table origin entries =>
            if path.isEmpty then none
            else (addPair? key value path entries).map (.table origin ·)
          | _ => none) |>.map (.list true ·)
      | node =>
        match openedByKeys? path.isEmpty node with
        | some (origin, entries) => (addPair? key value path entries).map (.table origin ·)
        | none => none

/-- Adds the table of a header under its last key. A table that is only implied so far is filled
further and moves to the end. -/
def addHeader? (key : String) (fill : Entries → Option Entries) (entries : Entries) :
    Option Entries :=
  match entries.lookup key with
  | none => (fill []).map fun filled => entries ++ [(key, .table .header filled)]
  | some (.table .implied implied) =>
    (fill implied).map fun filled =>
      entries.filter (fun entry => entry.1 ≠ key) ++ [(key, .table .header filled)]
  | some _ => none

/-- Adds an item to the array of tables under a key. -/
def addItem? (key : String) (fill : Entries → Option Entries) (entries : Entries) :
    Option Entries :=
  entries.update? key ((fill []).map fun filled => .list true [.table .header filled]) fun
    | .list true items => (fill []).map fun filled => .list true (items ++ [.table .header filled])
    | _ => none

/-- Adds what a header opens below a path. The path leads through tables, and through the last items
of arrays of tables; tables that are not there yet are implied. -/
def addTable? (add : Entries → Option Entries) : List String → Entries → Option Entries
  | [], entries => add entries
  | step :: path, entries =>
    entries.update? step ((addTable? add path []).map (.table .implied ·)) fun
      | .table .inline _ => none
      | .table origin entries => (addTable? add path entries).map (.table origin ·)
      | .list true items =>
        (updateLast? · items) (fun
          | .table origin entries => (addTable? add path entries).map (.table origin ·)
          | _ => none) |>.map (.list true ·)
      | _ => none

end Node

end BoundSql.Toml
