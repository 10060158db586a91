import BoundSql.Toml.Document
import BoundSql.Toml.Scalar

/-!
# Reading TOML

The reader goes line by line: blanks and comments, then a header or a pair, then the end of the
line. Only the values of pairs are nested.

## Main definitions

* `BoundSql.Toml.readValue?` — a value.
* `BoundSql.Toml.readKeys?` — a key with dots.
* `BoundSql.Toml.Document.ofText?` — a document in which no key is defined twice.
-/

namespace BoundSql.Toml

/-! ## Blanks and comments -/

/-- Blanks, line ends and comments at the front of a text, and what follows them; `inComment` says
whether a comment has begun. Comments hold no controls, and a carriage return stands only before a
line feed. -/
def readTrivia? (inComment : Bool) : List Char → Option (List Char × List Char)
  | [] => some ([], [])
  | '\r' :: '\n' :: rest =>
    (readTrivia? false rest).map fun (trivia, rest) => ('\r' :: '\n' :: trivia, rest)
  | c :: rest =>
    if c = '\n' then withChar (some c) (readTrivia? false rest)
    else if inComment then if isPlain c then withChar (some c) (readTrivia? true rest) else none
    else if isSpace c then withChar (some c) (readTrivia? false rest)
    else if c = '#' then withChar (some c) (readTrivia? true rest)
    else some ([], c :: rest)

/-- The text behind blanks, line ends and comments. -/
def skipTrivia? (chars : List Char) : Option (List Char) := (readTrivia? false chars).map Prod.snd

/-! ## Keys -/

/-- Whether a character may stand in a key without quotes. -/
def isKeyChar (c : Char) : Bool := c.isAlphanum || c = '_' || c = '-'

/-- One key. -/
def readKey? : List Char → Option (String × List Char)
  | '"' :: rest => (readBasic? false false rest).map fun (key, rest) => (String.ofList key, rest)
  | '\'' :: rest => (readLiteral? false rest).map fun (key, rest) => (String.ofList key, rest)
  | chars =>
    let key := chars.takeWhile isKeyChar
    if key.isEmpty then none else some (String.ofList key, chars.dropWhile isKeyChar)

/-- Keys with dots between them: the ones in front, the last one, and the text behind them and the
blanks that follow. -/
def readKeys? : Nat → List Char → Option (List String × String × List Char)
  | 0, _ => none
  | fuel + 1, chars =>
    match readKey? (skipSpace chars) with
    | none => none
    | some (key, rest) =>
      match skipSpace rest with
      | '.' :: rest => (readKeys? fuel rest).map fun (path, last, rest) => (key :: path, last, rest)
      | rest => some ([], key, rest)

/-! ## Values -/

/-- A value that is no array and no table in braces. -/
def readScalar? (chars : List Char) : Option (Node × List Char) :=
  match chars with
  | '"' :: _ => (readText? chars).map fun (text, rest) => (.text (String.ofList text), rest)
  | '\'' :: _ => (readText? chars).map fun (text, rest) => (.text (String.ofList text), rest)
  | _ =>
    let (token, rest) := readToken chars
    (Node.ofToken? token).map (·, rest)

mutual

/-- A value in which arrays and tables are nested at most `depth` deep. -/
def readValue? : Nat → Nat → List Char → Option (Node × List Char)
  | 0, _, _ => none
  | fuel + 1, depth, chars =>
    match chars, depth with
    | '[' :: _, 0 => none
    | '{' :: _, 0 => none
    | '[' :: rest, depth + 1 =>
      (readItems? fuel depth rest).map fun (items, rest) => (.list false items, rest)
    | '{' :: rest, depth + 1 =>
      (readMembers? fuel depth [] rest).map fun (entries, rest) => (.table .inline entries, rest)
    | chars, _ => readScalar? chars

/-- The items of an array up to its closing bracket; a comma may follow the last one. -/
def readItems? : Nat → Nat → List Char → Option (List Node × List Char)
  | 0, _, _ => none
  | fuel + 1, depth, chars =>
    match skipTrivia? chars with
    | none => none
    | some (']' :: rest) => some ([], rest)
    | some chars =>
      match readValue? fuel depth chars with
      | none => none
      | some (item, rest) =>
        match skipTrivia? rest with
        | some (',' :: rest) =>
          (readItems? fuel depth rest).map fun (items, rest) => (item :: items, rest)
        | some (']' :: rest) => some ([item], rest)
        | _ => none

/-- The pairs of a table in braces up to the closing one, added to the entries read before. -/
def readMembers? : Nat → Nat → Entries → List Char → Option (Entries × List Char)
  | 0, _, _, _ => none
  | fuel + 1, depth, entries, chars =>
    match skipTrivia? chars with
    | none => none
    | some ('}' :: rest) => some (entries, rest)
    | some chars =>
      match readKeys? chars.length chars with
      | some (path, key, '=' :: rest) =>
        match readValue? fuel depth (skipSpace rest) with
        | none => none
        | some (value, rest) =>
          match Node.addPair? key value path entries, skipTrivia? rest with
          | some entries, some (',' :: rest) => readMembers? fuel depth entries rest
          | some entries, some ('}' :: rest) => some (entries, rest)
          | _, _ => none
      | _ => none

end

/-- How deep arrays and tables in braces may be nested. -/
def maxDepth : Nat := 80

/-! ## Lines -/

/-- The front of a text that is not part of its end `rest`. -/
def consumed (chars rest : List Char) : String :=
  String.ofList (chars.take (chars.length - rest.length))

/-- The text in front of the end of a line, where nothing but a comment may stand. -/
def readLineEnd? (chars : List Char) : Option (List Char) :=
  match skipSpace chars with
  | '#' :: comment =>
    if (comment.takeWhile isPlain).length = comment.length then some []
    else
      let rest := comment.dropWhile isPlain
      if startsBreak rest then some rest else none
  | [] => some []
  | rest => if startsBreak rest then some rest else none

/-- The brackets that open a header: whether they are two, and what follows them. -/
def openHeader? : List Char → Option (Bool × List Char)
  | '[' :: '[' :: inner => some (true, inner)
  | '[' :: inner => some (false, inner)
  | _ => none

/-- The text behind the brackets that close a header. -/
def closeHeader? : Bool → List Char → Option (List Char)
  | true, ']' :: ']' :: rest => some rest
  | false, ']' :: rest => some rest
  | _, _ => none

/-- A header up to the end of its line. -/
def readHeader? (before : String) (chars : List Char) : Option (Header × List Char) := do
  let (ofArray, inner) ← openHeader? chars
  let (path, key, rest) ← readKeys? inner.length inner
  let rest ← readLineEnd? (← closeHeader? ofArray rest)
  return (⟨before, ofArray, path, key, consumed chars rest⟩, rest)

/-- A pair up to the end of its line. -/
def readPair? (before : String) (chars : List Char) : Option (Pair × List Char) := do
  let (path, key, rest) ← readKeys? chars.length chars
  let inner ← behind? '=' rest
  let (value, rest) ← readValue? (2 * inner.length + 2) maxDepth (skipSpace inner)
  let rest ← readLineEnd? rest
  return (⟨before, path, key, value, consumed chars rest⟩, rest)

/-- The lines of a document: the pairs up to the first header, the sections, and the end. -/
def readLines? : Nat → List Char → Option (List Pair × List Section × String)
  | 0, _ => none
  | fuel + 1, chars =>
    match readTrivia? false chars with
    | none => none
    | some (trivia, []) => some ([], [], String.ofList trivia)
    | some (trivia, '[' :: rest) => do
      let (header, rest) ← readHeader? (String.ofList trivia) ('[' :: rest)
      let (pairs, sections, trailing) ← readLines? fuel (skipBreak rest)
      return ([], ⟨header, pairs⟩ :: sections, trailing)
    | some (trivia, rest) => do
      let (pair, rest) ← readPair? (String.ofList trivia) rest
      let (pairs, sections, trailing) ← readLines? fuel (skipBreak rest)
      return (pair :: pairs, sections, trailing)

/-- A text without the byte order mark that may stand in front. -/
def skipMark : List Char → List Char
  | '\ufeff' :: rest => rest
  | chars => chars

/-- The parts of a text that is a document line by line. -/
def Document.parse? (text : String) : Option Document := do
  let chars := skipMark text.toList
  let (pairs, sections, trailing) ← readLines? (chars.length + 1) chars
  return { pairs, sections, trailing }

mutual

/-- Whether every whole number in some data lies in a range. -/
def Node.integersIn (low high : Int) : Node → Bool
  | .integer n => low ≤ n && n ≤ high
  | .list _ items => itemsIn low high items
  | .table _ entries => entriesIn low high entries
  | _ => true

/-- Whether every whole number in the items of a list lies in a range. -/
def itemsIn (low high : Int) : List Node → Bool
  | [] => true
  | item :: rest => item.integersIn low high && itemsIn low high rest

/-- Whether every whole number in the entries of a table lies in a range. -/
def entriesIn (low high : Int) : List (String × Node) → Bool
  | [] => true
  | (_, node) :: rest => node.integersIn low high && entriesIn low high rest

end

/-- A document for editing: no key is defined twice, and whole numbers have 64 bits. -/
def Document.ofText? (text : String) : Option Document := do
  let document ← parse? text
  let entries ← document.entries?
  if entriesIn Int64.minValue.toInt Int64.maxValue.toInt entries then return document else none

/-- The data of a text: no key is defined twice, and whole numbers have 128 bits. -/
def Entries.ofText? (text : String) : Option Entries := do
  let document ← Document.parse? text
  let entries ← document.entries?
  if entriesIn (-Nat.pow 2 127) (Nat.pow 2 128 - 1) entries then return entries else none

end BoundSql.Toml
