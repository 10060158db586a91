import BoundSql.Json.Character
import BoundSql.Json.Number
import BoundSql.Json.Printer

/-!
# Reading JSON

The reader splits one document off the front of a text. Number literals are converted by a function
that is given, and which may refuse them. Containers may be nested 127 deep. What follows the
document is looked at last, so a document of the wrong shape is refused as such even if more text
stands behind it.

With the printer the reader makes up a library for JSON.

## Main definitions

* `BoundSql.Json.read?` — one document and the text behind it.
* `BoundSql.Json.readAs` — a text as a document of a given shape.
-/

namespace BoundSql.Json

/-! ## Strings -/

/-- A text without the blanks in front. -/
def skipSpace (chars : List Char) : List Char := chars.dropWhile isSpace

/-- A piece of a string: a character, or a code unit given by its number. -/
inductive Piece where
  /-- A character that stands for itself or is named by a letter. -/
  | char (c : Char)
  /-- A code unit. -/
  | unit (n : Nat)

/-- The pieces of a string up to its closing quote, and the text behind it. -/
def readPieces? : List Char → Option (List Piece × List Char)
  | [] => none
  | '"' :: rest => some ([], rest)
  | '\\' :: 'u' :: a :: b :: c :: d :: rest => do
    let n ← hexNumber? [a, b, c, d]
    let (pieces, rest) ← readPieces? rest
    return (.unit n :: pieces, rest)
  | '\\' :: c :: rest => do
    let c ← escaped? c
    let (pieces, rest) ← readPieces? rest
    return (.char c :: pieces, rest)
  | c :: rest =>
    if c.toNat < 0x20 || c = '\\' then none
    else (readPieces? rest).map fun (pieces, rest) => (.char c :: pieces, rest)

/-- The characters of pieces. A surrogate stands only in a pair. -/
def joinPieces? : List Piece → Option (List Char)
  | [] => some []
  | .char c :: rest => (joinPieces? rest).map (c :: ·)
  | .unit n :: .unit m :: rest =>
    if isHighSurrogate n then
      if isLowSurrogate m then
        (joinPieces? rest).map
          (Char.ofNat (0x10000 + (n - 0xD800) * 0x400 + (m - 0xDC00)) :: ·)
      else none
    else if isLowSurrogate n then none
    else (joinPieces? (.unit m :: rest)).map (Char.ofNat n :: ·)
  | .unit n :: rest =>
    if isHighSurrogate n || isLowSurrogate n then none
    else (joinPieces? rest).map (Char.ofNat n :: ·)

/-- A string behind its opening quote, and the text behind its closing one. -/
def readString? (chars : List Char) : Option (String × List Char) := do
  let (pieces, rest) ← readPieces? chars
  let text ← joinPieces? pieces
  return (String.ofList text, rest)

/-! ## Documents -/

section Documents

variable {ν : Type}

/-- A word with the scalar it stands for. -/
def readWord? (word : String) (scalar : Scalar ν) (chars : List Char) :
    Option (Json (Scalar ν) × List Char) :=
  if word.toList.isPrefixOf chars then some (.scalar scalar, chars.drop word.length) else none

variable (convert : Number → Option ν)

/-- A document that is no container. -/
def readScalar? : List Char → Option (Json (Scalar ν) × List Char)
  | '"' :: rest => do
    let (text, rest) ← readString? rest
    return (.scalar (.text text), rest)
  | 'n' :: rest => readWord? "null" .null ('n' :: rest)
  | 't' :: rest => readWord? "true" (.bool true) ('t' :: rest)
  | 'f' :: rest => readWord? "false" (.bool false) ('f' :: rest)
  | chars => do
    let (literal, rest) ← readNumber? chars
    let number ← convert literal
    return (.scalar (.number number), rest)

mutual

/-- One document in which containers are nested at most `depth` deep. -/
def readDocument? : Nat → Nat → List Char → Option (Json (Scalar ν) × List Char)
  | 0, _, _ => none
  | fuel + 1, depth, chars =>
    match skipSpace chars, depth with
    | '[' :: _, 0 => none
    | '{' :: _, 0 => none
    | '[' :: rest, depth + 1 =>
      match skipSpace rest with
      | ']' :: rest => some (.array [], rest)
      | chars => (readItems? fuel depth chars).map fun (items, rest) => (.array items, rest)
    | '{' :: rest, depth + 1 =>
      match skipSpace rest with
      | '}' :: rest => some (.object [], rest)
      | chars => (readMembers? fuel depth chars).map fun (members, rest) => (.object members, rest)
    | chars, _ => readScalar? convert chars

/-- The items of an array up to its closing bracket; there is at least one. -/
def readItems? : Nat → Nat → List Char → Option (List (Json (Scalar ν)) × List Char)
  | 0, _, _ => none
  | fuel + 1, depth, chars =>
    match readDocument? fuel depth chars with
    | none => none
    | some (item, rest) =>
      match skipSpace rest with
      | ',' :: rest => (readItems? fuel depth rest).map fun (items, rest) => (item :: items, rest)
      | ']' :: rest => some ([item], rest)
      | _ => none

/-- The members of an object up to its closing brace; there is at least one. -/
def readMembers? : Nat → Nat → List Char → Option (List (String × Json (Scalar ν)) × List Char)
  | 0, _, _ => none
  | fuel + 1, depth, chars =>
    match skipSpace chars with
    | '"' :: rest =>
      match readString? rest with
      | none => none
      | some (key, rest) =>
        match skipSpace rest with
        | ':' :: rest =>
          match readDocument? fuel depth rest with
          | none => none
          | some (item, rest) =>
            match skipSpace rest with
            | ',' :: rest =>
              (readMembers? fuel depth rest).map fun (members, rest) =>
                ((key, item) :: members, rest)
            | '}' :: rest => some ([(key, item)], rest)
            | _ => none
        | _ => none
    | _ => none

end

/-- One document and the text behind it. Every call of the reader takes at least one character off
the text or is followed by one that does, which bounds their number. -/
def read? (chars : List Char) : Option (Json (Scalar ν) × List Char) :=
  readDocument? convert (2 * chars.length + 2) maxDepth chars

end Documents

/-! ## Shapes -/

/-- A text as a document of a shape. -/
def readAs {α : Type} (shape : Json (Scalar Numeral) → Option α) (text : String) :
    Except ReadError α :=
  match read? Number.toNumeral? text.toList with
  | none => .error .malformed
  | some (document, rest) =>
    match shape document with
    | none => .error .shape
    | some a => if (skipSpace rest).isEmpty then .ok a else .error .malformed

/-- The printer and the reader as a library. -/
instance : Library where
  compact := compact
  pretty := pretty
  readAs := readAs
  printReal := printReal
  readNumber? := Number.toNumeral?

end BoundSql.Json
