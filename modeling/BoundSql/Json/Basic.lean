import BoundSql.Statement.Basic

/-!
# JSON documents

A JSON document is a tree whose leaves are scalars. The members of an object keep their order and
their repetitions. Documents that are written have bound values as their leaves; documents that are
read have scalars as a reader hands them on, with whole numbers of 64 bits apart from reals.

Printing and reading JSON is the work of a library, of which no more is fixed here than its
operations.

## Main definitions

* `BoundSql.Json` — the documents.
* `BoundSql.Json.Number`, `BoundSql.Json.Numeral` — number literals, and numbers that were read.
* `BoundSql.Json.Scalar` — the scalars of a document.
* `BoundSql.Json.Library` — the operations of a library for JSON.
* `BoundSql.Value.ofScalar` — the value that a scalar stands for.
* `BoundSql.Value.ofJson`, `BoundSql.Record.ofJson` — texts read as a value or as records.
* `BoundSql.Statement.toJson` — a statement as a document.
-/

namespace BoundSql

/-- A JSON document. -/
inductive Json (σ : Type) where
  /-- A scalar. -/
  | scalar (value : σ)
  /-- Documents in order. -/
  | array (items : List (Json σ))
  /-- Keys and documents in order. -/
  | object (members : List (String × Json σ))

namespace Json

/-! ## Scalars -/

/-- A number literal. -/
structure Number where
  /-- Whether a minus sign stands in front. -/
  negative : Bool
  /-- The digits before the point. -/
  whole : List Char
  /-- The digits behind the point. -/
  fraction : List Char
  /-- The power of ten behind `e`, if there is one. -/
  exponent? : Option Int
deriving DecidableEq, Repr

/-- A number as a reader hands it on. -/
inductive Numeral where
  /-- A whole number that is not negative. -/
  | unsigned (n : UInt64)
  /-- A negative whole number. -/
  | signed (n : Int64)
  /-- Any other number. -/
  | real (x : Binary64)
deriving DecidableEq, Repr

/-- A scalar of a document, its numbers being of some kind. -/
inductive Scalar (ν : Type) where
  /-- The missing value. -/
  | null
  /-- A truth value. -/
  | bool (b : Bool)
  /-- A number. -/
  | number (n : ν)
  /-- A text. -/
  | text (s : String)

/-! ## Libraries -/

/-- Why a text is refused. -/
inductive ReadError where
  /-- The text is no JSON document. -/
  | malformed
  /-- The document has another shape than the one asked for. -/
  | shape
deriving DecidableEq, Repr

/-- A library that prints and reads JSON. -/
class Library where
  /-- The text of a document on one line. -/
  compact : Json Value → String
  /-- The text of a document with every item and member on a line of its own. -/
  pretty : Json Value → String
  /-- A text as a document of a shape. -/
  readAs {α : Type} (shape : Json (Scalar Numeral) → Option α) (text : String) : Except ReadError α
  /-- The literal that is printed for a finite real. -/
  printReal : Binary64 → Number
  /-- The number that is read for a literal, if it is in range. -/
  readNumber? : Number → Option Numeral

end Json

/-! ## Shapes -/

open Json in
/-- The value that a scalar stands for: the first kind of values that fits it. A whole number that
is too large for the whole numbers of 64 bits with a sign is a real. -/
def Value.ofScalar : Scalar Numeral → Value
  | .null => .null
  | .bool b => .bool b
  | .number (.unsigned n) =>
    if n.toNat < Nat.pow 2 63 then .integer (Int64.ofInt n.toNat) else .real (.ofNat n.toNat)
  | .number (.signed n) => .integer n
  | .number (.real x) => .real x
  | .text s => .text s

namespace Json

/-- A document that is a scalar. -/
def value? : Json (Scalar Numeral) → Option Value
  | scalar s => some (.ofScalar s)
  | _ => none

/-- A document that is an object of scalars. -/
def record? : Json (Scalar Numeral) → Option (List (String × Value))
  | object members => members.mapM fun (key, item) => item.value?.map (key, ·)
  | _ => none

/-- A document that is an object of scalars, or an array of such objects. -/
def records? (document : Json (Scalar Numeral)) : Option (List (List (String × Value))) :=
  match document.record?, document with
  | some record, _ => some [record]
  | none, array items => items.mapM record?
  | none, _ => none

end Json

section Texts

variable [Json.Library]

/-- A text read as a value. -/
def Value.ofJson (text : String) : Except Json.ReadError Value :=
  Json.Library.readAs Json.value? text

/-- A text read as one record or an array of records. Keys keep their order and repetitions. -/
def Record.ofJson (text : String) : Except Json.ReadError (List (List (String × Value))) :=
  Json.Library.readAs Json.records? text

end Texts

/-- A statement as a document: its text, then its parameters. -/
def Statement.toJson (statement : Statement) : Json Value :=
  .object [("sql", .scalar (.text statement.sql)),
    ("params", .array (statement.params.toList.map .scalar))]

end BoundSql
