/-!
# Quotes by doubling

SQL writes a text literal between single quotes and a quoted identifier between double quotes, and a
quote inside either one twice. The closing quote is then the first one that no second quote follows.

## Main definitions

* `BoundSql.Text.doubled` — a text between two quotes, every quote inside written twice.
-/

namespace BoundSql.Text

/-- Writes every `quote` twice and any other character once. -/
def double (quote : Char) : List Char → List Char
  | [] => []
  | c :: rest => if c = quote then quote :: quote :: double quote rest else c :: double quote rest

/-- A text between quotes. -/
def doubled (quote : Char) (text : String) : String :=
  String.ofList (quote :: double quote text.toList ++ [quote])

end BoundSql.Text
