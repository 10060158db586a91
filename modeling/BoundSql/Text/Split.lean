/-!
# Splitting texts

The parts of a text between the places where a character stands.

## Main definitions

* `BoundSql.Text.splitChars` — the parts as lists of characters; there is always one.
* `BoundSql.Text.split` — the parts as texts.

## Main results

* `BoundSql.Text.splitChars_ne_nil` — there is always a part.
-/

namespace BoundSql.Text

/-- The parts of a list of characters between the places where `mark` stands. -/
def splitChars (mark : Char) : List Char → List (List Char)
  | [] => [[]]
  | c :: rest =>
    if c = mark then [] :: splitChars mark rest
    else
      match splitChars mark rest with
      | [] => [[c]]
      | part :: parts => (c :: part) :: parts

/-- There is always a part. -/
theorem splitChars_ne_nil (mark : Char) (chars : List Char) : splitChars mark chars ≠ [] := by
  cases chars with
  | nil => simp [splitChars]
  | cons c rest =>
    rw [splitChars]
    split
    · simp
    · split <;> simp

/-- The parts of a text between the places where `mark` stands. -/
def split (mark : Char) (text : String) : List String :=
  (splitChars mark text.toList).map String.ofList

end BoundSql.Text
