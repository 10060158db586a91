import BoundSql.Text.Blank
import BoundSql.Value

/-!
# Literals of a command line

A word of a command line is read as a value: as the missing value, a truth value, an integer, a
real, and otherwise as the text it is. An assignment is a field key and a literal with an equals
sign between them.

## Main definitions

* `BoundSql.Value.ofLiteral` — the value of a word.
* `BoundSql.readAssignment?` — the field key and the value of an assignment.
-/

namespace BoundSql

/-- The 64-bit integer that an optional sign and digits write. -/
def integerOfText? (text : String) : Option Int64 :=
  let (negative, digits) := splitSign text.toList
  let magnitude : Int := digitsValue 0 digits
  let value := if negative then -magnitude else magnitude
  if !digits.isEmpty && digits.all isDigit && Int64.minValue.toInt ≤ value &&
      value ≤ Int64.maxValue.toInt then
    some (Int64.ofInt value)
  else none

/-- The finite real that a word spells. -/
def finiteOfText? (text : String) : Option Binary64 :=
  (Binary64.ofText? text).filter Binary64.isFinite

/-- The value of a word. -/
def Value.ofLiteral (text : String) : Value :=
  if text = "null" || text = "NULL" then .null
  else if text = "true" then .bool true
  else if text = "false" then .bool false
  else
    match integerOfText? text, finiteOfText? text with
    | some n, _ => .integer n
    | none, some x => .real x
    | none, none => .text text

/-- The field key and the value of an assignment, split at the first equals sign. Blanks around the
key do not belong to it, and it may not be empty. -/
def readAssignment? (text : String) : Option (String × Value) :=
  match text.toList.dropWhile (· ≠ '=') with
  | '=' :: value =>
    let field := Text.trim (String.ofList (text.toList.takeWhile (· ≠ '=')))
    if field.isEmpty then none else some (field, .ofLiteral (String.ofList value))
  | _ => none

end BoundSql
