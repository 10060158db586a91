import BoundSql.Json.Basic
import BoundSql.Json.Character

/-!
# Printing JSON

Strings are quoted with as few escapes as there have to be, whole numbers are written in decimal
digits, and a finite real by the fewest digits that read back to it, always with a point or an
exponent. JSON has no number for the other reals.

## Main definitions

* `BoundSql.Json.quote` — a text as a JSON string.
* `BoundSql.Json.Number.spell` — the characters of a number literal.
* `BoundSql.Json.printReal` — the literal of a real.
* `BoundSql.Json.compact`, `BoundSql.Json.pretty` — the text of a document.
-/

namespace BoundSql.Json

/-! ## Strings -/

/-- The lower-case hexadecimal digit of a number below 16. -/
def hexDigit (n : Nat) : Char := Nat.digitChar n

/-- A character inside a JSON string. Quotes, backslashes and controls are escaped. -/
def escape (c : Char) : List Char :=
  if c = '"' then ['\\', '"']
  else if c = '\\' then ['\\', '\\']
  else if c = '\x08' then ['\\', 'b']
  else if c = '\x0c' then ['\\', 'f']
  else if c = '\n' then ['\\', 'n']
  else if c = '\r' then ['\\', 'r']
  else if c = '\t' then ['\\', 't']
  else if c.toNat < 0x20 then
    ['\\', 'u', '0', '0', hexDigit (c.toNat / 16), hexDigit (c.toNat % 16)]
  else [c]

/-- A text as a JSON string. -/
def quote (text : String) : String :=
  String.ofList ('"' :: text.toList.flatMap escape ++ ['"'])

/-! ## Numbers -/

/-- The characters of the power of ten of a literal. Powers from zero on carry a plus. -/
def exponentChars : Option Int → List Char
  | none => []
  | some e => 'e' :: (if e < 0 then ['-'] else ['+']) ++ Nat.toDigits 10 e.natAbs

namespace Number

/-- The characters of a literal. -/
def spell (number : Number) : List Char :=
  Binary64.signChars number.negative ++ number.whole ++ fractionChars number.fraction ++
    exponentChars number.exponent?

/-- The literal of `digits * 10 ^ k` without an exponent. -/
def positional (negative : Bool) (digits : List Char) (k : Int) : Number :=
  if 0 ≤ k then ⟨negative, digits ++ Binary64.zeros k.natAbs, ['0'], none⟩
  else if k.natAbs < digits.length then
    ⟨negative, digits.take (digits.length - k.natAbs), digits.drop (digits.length - k.natAbs), none⟩
  else ⟨negative, ['0'], Binary64.zeros (k.natAbs - digits.length) ++ digits, none⟩

/-- The literal with one digit before the point. -/
def scientific (negative : Bool) (digits : List Char) (exponent : Int) : Number :=
  ⟨negative, digits.take 1, digits.drop 1, some exponent⟩

/-- The literal of a finite real: a point between `1e-5` and `1e16`, an exponent outside. -/
def ofRank (negative : Bool) (rank : Nat) : Number :=
  if rank = 0 then ⟨negative, ['0'], ['0'], none⟩
  else
    let (digits, k) := Binary64.shortest .even rank
    let text := Nat.toDigits 10 digits
    let leading := k + text.length - 1
    if -5 ≤ leading && leading < 16 then positional negative text k
    else scientific negative text leading

end Number

/-- The literal of a real. Only finite reals have one of their own. -/
def printReal : Binary64 → Number
  | .finite negative rank => .ofRank negative rank
  | _ => .ofRank false 0

/-! ## Documents -/

/-- The text of a scalar. Reals always show that they are real; JSON has no text for a real that is
not finite, so it is written as the missing value. -/
def scalarText : Value → String
  | .null => "null"
  | .bool true => "true"
  | .bool false => "false"
  | .integer n => toString n.toInt
  | .real (.finite negative rank) => String.ofList (Number.ofRank negative rank).spell
  | .real _ => "null"
  | .text s => quote s

mutual

/-- The text of a document on one line without blanks. -/
def compact : Json Value → String
  | scalar value => scalarText value
  | array items => "[" ++ String.intercalate "," (compactItems items) ++ "]"
  | object members => "\x7b" ++ String.intercalate "," (compactMembers members) ++ "\x7d"

/-- The one-line texts of an array's items. -/
def compactItems : List (Json Value) → List String
  | [] => []
  | item :: rest => item.compact :: compactItems rest

/-- The one-line texts of an object's members. -/
def compactMembers : List (String × Json Value) → List String
  | [] => []
  | (key, item) :: rest => s!"{quote key}:{item.compact}" :: compactMembers rest

end

/-- The line break in front of a line at a depth of indentation. -/
def lineBreak (depth : Nat) : String := "\n" ++ String.ofList (List.replicate (2 * depth) ' ')

/-- Parts on lines of their own between two brackets; nothing stands between the brackets if there
are no parts. -/
def bracketed (left right : String) (depth : Nat) (parts : List String) : String :=
  if parts.isEmpty then left ++ right
  else
    left ++ lineBreak (depth + 1) ++ String.intercalate ("," ++ lineBreak (depth + 1)) parts ++
      lineBreak depth ++ right

mutual

/-- The text of a document with every item and member on a line of its own. -/
def prettyAt (depth : Nat) : Json Value → String
  | scalar value => scalarText value
  | array items => bracketed "[" "]" depth (prettyItems (depth + 1) items)
  | object members => bracketed "\x7b" "\x7d" depth (prettyMembers (depth + 1) members)

/-- The indented texts of an array's items. -/
def prettyItems (depth : Nat) : List (Json Value) → List String
  | [] => []
  | item :: rest => item.prettyAt depth :: prettyItems depth rest

/-- The indented texts of an object's members. -/
def prettyMembers (depth : Nat) : List (String × Json Value) → List String
  | [] => []
  | (key, item) :: rest => s!"{quote key}: {item.prettyAt depth}" :: prettyMembers depth rest

end

/-- The text of a document, indented by two blanks a level. -/
def pretty (document : Json Value) : String := document.prettyAt 0

end BoundSql.Json
