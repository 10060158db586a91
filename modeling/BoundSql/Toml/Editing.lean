import BoundSql.Toml.Comments
import BoundSql.Toml.Reader
import BoundSql.Toml.Writer

/-!
# Editing documents

A table of a document is that of the document itself, or one that a section opens. Its keys are
those of its pairs and those of the headers inside of it, as far as they are printed: a table that
is only implied, or made by dotted keys, has no header. What stands in front of a pair or a header
can be changed, and pairs and sections can be taken out of a table and put into it.

## Main definitions

* `BoundSql.Toml.Cursor`, `BoundSql.Toml.Spot` — the tables of a document and its places.
* `BoundSql.Toml.Document.entries` — the keys of a table.
* `BoundSql.Toml.Document.setBefore` — changes what stands in front of a pair or header.
* `BoundSql.Toml.Document.remove?`, `BoundSql.Toml.Document.insert` — take something out of a table
  and put it in.
-/

namespace BoundSql.Toml

/-! ## Tables and places -/

/-- A table of a document. -/
inductive Cursor where
  /-- The table of the document itself. -/
  | root
  /-- The table that a section opens. -/
  | part (index : Nat)
deriving DecidableEq, Repr

/-- A place of a document. -/
inductive Spot where
  /-- On top of the document. -/
  | top
  /-- In front of a pair of a table. -/
  | pair (table : Cursor) (index : Nat)
  /-- In front of the header of a section. -/
  | header (index : Nat)
deriving DecidableEq, Repr

/-- The path of the table that a header opens. -/
def Header.full (header : Header) : List String := header.path ++ [header.key]

/-- Whether a section opens another item of an array of tables that a path leads through, so that
what follows is no longer inside the table of the path. -/
def Section.closes (path : List String) (part : Section) : Bool :=
  part.header.ofArray && part.header.full.isPrefixOf path

namespace Document

/-- The path of a table. -/
def path (document : Document) : Cursor → List String
  | .root => []
  | .part index => ((document.sections[index]?).map (·.header.full)).getD []

/-- The pairs of a table. -/
def pairsOf (document : Document) : Cursor → List Pair
  | .root => document.pairs
  | .part index => ((document.sections[index]?).map Section.pairs).getD []

/-- Changes the pairs of a table. -/
def modifyPairs (change : List Pair → List Pair) (document : Document) : Cursor → Document
  | .root => { document with pairs := change document.pairs }
  | .part index =>
    { document with
      sections := document.sections.modify index fun part =>
        { part with pairs := change part.pairs } }

/-- The sections in front of what is inside a table, those inside, and those behind. -/
def around (document : Document) : Cursor → List Section × List Section × List Section
  | .root => ([], document.sections, [])
  | .part index =>
    let path := document.path (.part index)
    let below := document.sections.drop (index + 1)
    (document.sections.take (index + 1), below.takeWhile (!·.closes path),
      below.dropWhile (!·.closes path))

/-! ## Keys -/

/-- The keys of headers and what they open. The headers of one key open one array of tables; `seen`
are the keys that had a header before. -/
def headerEntries (seen : List String) :
    List (Section × Nat) → List (String × Entry Spot Cursor)
  | [] => []
  | (part, index) :: rest =>
    let key := part.header.key
    if key ∈ seen then headerEntries seen rest
    else
      let others := (rest.filter fun other => other.1.header.key = key).map fun other => .part other.2
      let entry := if part.header.ofArray then .tables (.part index :: others)
        else .table (.part index)
      (key, entry) :: headerEntries (key :: seen) rest

/-- The keys of a table: those of its pairs that have no dots, and those of the headers inside. -/
def entries (document : Document) (table : Cursor) : List (String × Entry Spot Cursor) :=
  let (front, inside, _) := document.around table
  let headers := (inside.zipIdx front.length).filter (·.1.header.path = document.path table)
  (document.pairsOf table).zipIdx.filterMap (fun (pair, index) =>
    if pair.path.isEmpty then some (pair.key, .value (.pair table index)) else none) ++
    headerEntries [] headers

/-! ## Texts -/

/-- What stands at a place. -/
def before (document : Document) : Spot → String
  | .top => document.about
  | .pair table index => (((document.pairsOf table)[index]?).map Pair.before).getD ""
  | .header index => ((document.sections[index]?).map (·.header.before)).getD ""

/-- Changes what stands at a place. -/
def setBefore (place : Spot) (text : String) (document : Document) : Document :=
  match place with
  | .top => { document with about := text }
  | .pair table index =>
    document.modifyPairs (·.modify index fun pair => { pair with before := text }) table
  | .header index =>
    { document with
      sections := document.sections.modify index fun part =>
        { part with header := { part.header with before := text } } }

end Document

/-! ## Items -/

/-- An element of an array. -/
structure Element where
  /-- The blanks in front of it. -/
  before : String := ""
  /-- The element. -/
  value : Node

/-- What a key holds. -/
inductive Holding where
  /-- A pair that was in a document. -/
  | line (pair : Pair)
  /-- An array made of elements, with a text in front of the closing bracket. -/
  | array (elements : List Element) (trailing : String)
  /-- Sections that were in a document. -/
  | sections (parts : List Section)

/-- The pairs of a section as a table in braces. -/
def Section.toInline (part : Section) : Node :=
  .table .inline (part.pairs.map fun pair => (pair.key, pair.value))

/-- Whether sections open the items of one array of tables. -/
def opensItems : List Section → Bool
  | [] => false
  | part :: rest =>
    part.header.ofArray && rest.all fun other =>
      other.header.ofArray && other.header.full = part.header.full

/-- The elements of an array, which lose the text that they were written as. -/
def Holding.elements? : Holding → Option (List Element)
  | .line pair =>
    match pair.value with
    | .list _ items => some (items.map ({ value := · }))
    | _ => none
  | .array elements _ => some elements
  | .sections parts =>
    if opensItems parts then some (parts.map ({ value := ·.toInline })) else none

/-- An array under a key, with a comma behind each element. -/
def arrayPair (key : String) (elements : List Element) (trailing : String) : Pair where
  before := ""
  path := []
  key := key
  value := .list false (elements.map Element.value)
  written := keyText key ++ " = [" ++
    String.join (elements.map fun element => element.before ++ element.value.inlineText ++ ",") ++
    trailing ++ "]"

namespace Document

/-- Takes out what a key of a table holds. -/
def remove? (table : Cursor) (key : String) (document : Document) : Option (Holding × Document) :=
  let holds (pair : Pair) : Bool := pair.path.isEmpty && pair.key = key
  match (document.pairsOf table).find? holds with
  | some pair => some (.line pair, document.modifyPairs (·.filter (!holds ·)) table)
  | none =>
    let target := document.path table ++ [key]
    let (front, inside, behind) := document.around table
    let taken := inside.filter fun part => target.isPrefixOf part.header.full
    if taken.isEmpty then none
    else
      let rest := inside.filter fun part => !target.isPrefixOf part.header.full
      some (.sections taken, { document with sections := front ++ (rest ++ behind) })

/-- Puts something under a key of a table. -/
def insert (table : Cursor) (key : String) (item : Holding) (document : Document) : Document :=
  match item with
  | .line pair => document.modifyPairs (· ++ [pair]) table
  | .array elements trailing =>
    document.modifyPairs (· ++ [arrayPair key elements trailing]) table
  | .sections parts =>
    let (front, inside, behind) := document.around table
    { document with sections := front ++ (inside ++ (parts ++ behind)) }

end Document

/-! ## The library -/

/-- Reading, writing and editing line by line as a library. -/
instance : Library where
  Document := Document
  Table := Cursor
  Place := Spot
  Item := Holding
  Element := Element
  read? text := (Entries.ofText? text).map entriesData
  write fields := (documentOf fields).text
  parse? := Document.ofText?
  print := Document.text
  root := .root
  entries := Document.entries
  decor
    | .root => .top
    | .part index => .header index
  before := Document.before
  setBefore := Document.setBefore
  remove? := Document.remove?
  insert := Document.insert
  elements? := Holding.elements?
  setElementBefore text element := { element with before := text }
  ofElements := .array

/-- Explains the keys of a document, and the document itself on top if `withAbout` says so. -/
def Document.annotate (manual : Manual) (withAbout : Bool) (document : Document) : Document :=
  annotateTable manual withAbout Library.root document

/-- Explains the keys of the first item of the array of tables under a key of a document. -/
def Document.annotateItems (manual : Manual) (key : String) (document : Document) : Document :=
  Toml.annotateItems manual (tablesUnder key document) document

end BoundSql.Toml
