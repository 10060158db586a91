import BoundSql.Binary64.Shortest
import BoundSql.Toml.Quoted
import BoundSql.Toml.Reader

/-!
# Writing TOML

Data are written as a document: what fits on a line behind its key, each other table under a header,
and each array of tables under one header an item.

## Main definitions

* `BoundSql.Toml.Node.inlineText` — data on one line.
* `BoundSql.Toml.writtenPair` — a key with its value.
* `BoundSql.Toml.documentOf` — the document of some data.
-/

namespace BoundSql.Toml

/-! ## Values on one line -/

/-- A key as it is written. -/
def keyText (key : String) : String :=
  if !key.isEmpty && key.toList.all isKeyChar then key else quote key

/-- A real number as it is written: a whole one shows that it is real. -/
def realText (x : Binary64) : String :=
  match x with
  | .nan => "nan"
  | .infinite _ => x.plainText
  | .finite _ _ => if x.plainText.toList.contains '.' then x.plainText else x.plainText ++ ".0"

mutual

/-- Data on one line. -/
def Node.inlineText : Node → String
  | .text s => quote s
  | .integer n => toString n
  | .real x => realText x
  | .boolean true => "true"
  | .boolean false => "false"
  | .moment s => s
  | .list _ items => "[" ++ ", ".intercalate (itemTexts items) ++ "]"
  | .table _ entries => "\x7b " ++ ", ".intercalate (entryTexts entries) ++ " \x7d"

/-- The texts of items. -/
def itemTexts : List Node → List String
  | [] => []
  | item :: rest => item.inlineText :: itemTexts rest

/-- The texts of entries. -/
def entryTexts : List (String × Node) → List String
  | [] => []
  | (key, node) :: rest => (keyText key ++ " = " ++ node.inlineText) :: entryTexts rest

end

/-- A key with its value. -/
def writtenPair (key : String) (value : Node) : Pair where
  before := ""
  path := []
  key := key
  value := value
  written := keyText key ++ " = " ++ value.inlineText

/-! ## Documents -/

/-- Whether a piece of data is a table. -/
def Data.isTable : Data → Bool
  | .table _ => true
  | _ => false

/-- Whether headers open a piece of data: a table, or an array of at least one table. -/
def Data.hasHeaders : Data → Bool
  | .table _ => true
  | .list items => !items.isEmpty && items.all Data.isTable
  | _ => false

/-- The pairs of a table. -/
def pairsOf (fields : Fields) : List Pair :=
  (fields.filter (!·.2.hasHeaders)).map fun (key, data) => writtenPair key (.ofData data)

/-- The header of a table. -/
def writtenHeader (ofArray : Bool) (path : List String) (key : String) : Header where
  before := "\n"
  ofArray := ofArray
  path := path
  key := key
  written :=
    let keys := ".".intercalate ((path ++ [key]).map keyText)
    if ofArray then "[[" ++ keys ++ "]]" else "[" ++ keys ++ "]"

mutual

/-- The sections that a key with some data opens below a path. -/
def Data.sections (path : List String) (key : String) : Data → List Section
  | .table fields =>
    ⟨writtenHeader false path key, pairsOf fields⟩ :: fieldsSections (path ++ [key]) fields
  | .list items => if items.all Data.isTable then itemsSections path key items else []
  | _ => []

/-- The sections of the items of an array of tables. -/
def itemsSections (path : List String) (key : String) : List Data → List Section
  | [] => []
  | .table fields :: rest =>
    ⟨writtenHeader true path key, pairsOf fields⟩ ::
      (fieldsSections (path ++ [key]) fields ++ itemsSections path key rest)
  | _ :: rest => itemsSections path key rest

/-- The sections of a table. -/
def fieldsSections (path : List String) : List (String × Data) → List Section
  | [] => []
  | (key, data) :: rest => data.sections path key ++ fieldsSections path rest

end

/-- Sections at the top of a text: no empty line stands in front of the first one. -/
def atTop : List Section → List Section
  | [] => []
  | part :: rest => { part with header := { part.header with before := "" } } :: rest

/-- The document of some data. -/
def documentOf (fields : Fields) : Document :=
  let pairs := pairsOf fields
  let sections := fieldsSections [] fields
  { pairs, sections := if pairs.isEmpty then atTop sections else sections }

end BoundSql.Toml
