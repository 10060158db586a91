import BoundSql.Binary64.Shortest
import BoundSql.Text.Doubled

/-!
# Bound values

A value is a scalar that a statement binds to one of its placeholders. It is never written into the
statement's text.

## Main definitions

* `BoundSql.Value` — the scalars.
* `BoundSql.Value.display` — the literal that stands for a value where statements are shown to
  people.
* `BoundSql.Value.equal` — equality of values of the same sort.
-/

namespace BoundSql

/-- A scalar bound to a placeholder. -/
inductive Value where
  /-- The missing value. -/
  | null
  /-- A truth value. -/
  | bool (b : Bool)
  /-- A whole number of 64 bits. -/
  | integer (n : Int64)
  /-- A real number. -/
  | real (x : Binary64)
  /-- A text. -/
  | text (s : String)
deriving DecidableEq

namespace Value

/-- Whether a value is the missing one. -/
def isNull : Value → Bool
  | null => true
  | _ => false

/-- The literal that stands for a value: texts in single quotes, reals without an exponent. -/
def display : Value → String
  | null => "NULL"
  | bool true => "true"
  | bool false => "false"
  | integer n => toString n.toInt
  | real x => x.plainText
  | text s => Text.doubled '\'' s

/-- Equality of values: values of different sorts differ, reals compare as numbers. -/
def equal : Value → Value → Bool
  | null, null => true
  | bool a, bool b => a == b
  | integer a, integer b => a == b
  | real a, real b => a.equal b
  | text a, text b => a == b
  | _, _ => false

end Value

end BoundSql
