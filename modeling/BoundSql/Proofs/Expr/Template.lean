import BoundSql.Proofs.Expr.Text
import BoundSql.Proofs.Statement.Names

/-!
# Conditions with open columns

Where a condition stands decides how its columns are written, and nothing else of its text. With the
spelling of its columns left open, the condition is a list of pieces that no longer depends on the
statement. The text where columns have the alias of their table and the text where they are bare are
two ways to fill in the same columns.

## Main definitions

* `BoundSql.Piece` — characters as they stand, or a column whose spelling is open.
* `BoundSql.Piece.fill` — the text of pieces, given how columns are written.
* `BoundSql.Predicate.pieces` — the pieces of a condition.

## Main results

* `BoundSql.Predicate.fill_pieces` — the text of a condition fills in its pieces.
* `BoundSql.Predicate.columns_pieces` — the open columns are those of the condition.
-/

namespace BoundSql

/-! ## Pieces -/

/-- A piece of a text. -/
inductive Piece where
  /-- Characters as they stand. -/
  | plain (text : String)
  /-- A column whose spelling is open. -/
  | column (column : ColumnRef)

namespace Piece

/-- The column of a piece. -/
def column? : Piece → Option ColumnRef
  | plain _ => none
  | column c => some c

/-- The columns whose spelling is open. -/
def columns (pieces : List Piece) : List ColumnRef := pieces.filterMap column?

/-- The text of pieces, given how columns are written. -/
def fill (write : ColumnRef → String) : List Piece → String
  | [] => ""
  | plain text :: rest => text ++ fill write rest
  | column c :: rest => write c ++ fill write rest

section Fill

variable {write write' : ColumnRef → String}

/-- Two templates are filled one after the other. -/
lemma fill_append (p q : List Piece) : fill write (p ++ q) = fill write p ++ fill write q := by
  induction p with
  | nil => simp [fill]
  | cons piece rest ih => cases piece <;> simp [fill, ih, String.append_assoc]

/-- Only the spelling of the open columns matters. -/
lemma fill_congr {pieces : List Piece} (h : ∀ c ∈ columns pieces, write c = write' c) :
    fill write pieces = fill write' pieces := by
  induction pieces with
  | nil => rfl
  | cons piece rest ih =>
    cases piece with
    | plain text => rw [fill, fill, ih h]
    | column c =>
      obtain ⟨hc, hrest⟩ := List.forall_mem_cons.1 h
      rw [fill, fill, hc, ih hrest]

/-- Parts with a text between them are filled in one by one. -/
lemma fill_intercalate (seam : String) (parts : List (List Piece)) :
    fill write ([plain seam].intercalate parts) = seam.intercalate (parts.map (fill write)) := by
  match parts with
  | [] => rfl
  | [part] => simp
  | part :: next :: rest =>
    have hrest := fill_intercalate seam (next :: rest)
    rw [List.map_cons] at hrest
    rw [List.intercalate_cons_cons, List.map_cons, List.map_cons, String.intercalate_cons_cons,
      fill_append, fill_append, hrest]
    simp [fill]

/-- The columns of two templates stand one after the other. -/
lemma columns_append (p q : List Piece) : columns (p ++ q) = columns p ++ columns q :=
  List.filterMap_append

/-- The open columns of parts with a text between them. -/
lemma columns_intercalate (seam : String) (parts : List (List Piece)) :
    columns ([plain seam].intercalate parts) = parts.flatMap columns := by
  match parts with
  | [] => rfl
  | [part] => simp
  | part :: next :: rest =>
    rw [List.intercalate_cons_cons, columns_append, columns_append,
      columns_intercalate seam (next :: rest), List.flatMap_cons]
    simp [columns, column?]

end Fill

end Piece

/-! ## Conditions -/

/-- The pieces of an operand. -/
def Operand.pieces : Operand → List Piece
  | .column c => [.column c]
  | .value _ => [.plain "?"]

/-- The pieces of a comparison. -/
def Comparison.pieces : Comparison → List Piece
  | .binary op left right => left.pieces ++ .plain s!" {op.symbol} " :: right.pieces
  | .isNull c => [.column c, .plain " IS NULL"]
  | .isNotNull c => [.column c, .plain " IS NOT NULL"]

namespace Predicate

/-- The pieces of a member of a group: a group stands in parentheses. -/
def enclosePieces (member : Predicate) (pieces : List Piece) : List Piece :=
  if member.isGroup then .plain "(" :: (pieces ++ [.plain ")"]) else pieces

mutual

/-- The pieces of a condition. -/
def pieces : Predicate → List Piece
  | comparison leaf => leaf.pieces
  | group connective members =>
    [.plain s!" {connective.keyword} "].intercalate (memberPieces members)

/-- The pieces of the members of a group. -/
def memberPieces : List Predicate → List (List Piece)
  | [] => []
  | member :: rest => member.enclosePieces member.pieces :: memberPieces rest

end

end Predicate

section Filled

variable (ctx : Context)

/-- The template of an operand, filled with its columns, is its text. -/
lemma Operand.fill_pieces (operand : Operand) :
    Piece.fill (·.text ctx) operand.pieces = operand.text Value.placeholder ctx := by
  cases operand <;> simp [pieces, text, Piece.fill, Value.placeholder]

/-- The template of a comparison, filled with its columns, is its text. -/
lemma Comparison.fill_pieces (comparison : Comparison) :
    Piece.fill (·.text ctx) comparison.pieces = comparison.text Value.placeholder ctx := by
  cases comparison with
  | binary op left right =>
    rw [pieces, text, Piece.fill_append, left.fill_pieces, Piece.fill, right.fill_pieces]
    simp [toString, String.append_assoc]
  | isNull c => simp [pieces, text, Piece.fill, toString]
  | isNotNull c => simp [pieces, text, Piece.fill, toString]

/-- The template of an operand leaves its columns open. -/
lemma Operand.columns_pieces (operand : Operand) :
    Piece.columns operand.pieces = operand.columns := by
  cases operand <;> rfl

/-- The template of a comparison leaves its columns open. -/
lemma Comparison.columns_pieces (comparison : Comparison) :
    Piece.columns comparison.pieces = comparison.columns := by
  cases comparison with
  | binary op left right =>
    rw [pieces, columns, Piece.columns_append, left.columns_pieces, ← right.columns_pieces]
    rfl
  | isNull c => rfl
  | isNotNull c => rfl

namespace Predicate

/-- Parentheses are put around the template or around its text. -/
lemma fill_enclosePieces (write : ColumnRef → String) (member : Predicate) (pieces : List Piece) :
    Piece.fill write (member.enclosePieces pieces) = member.enclose (Piece.fill write pieces) := by
  unfold enclosePieces enclose
  split
  · simp [Piece.fill, Piece.fill_append, toString, String.append_assoc]
  · rfl

/-- Parentheses leave no column open. -/
lemma columns_enclosePieces (member : Predicate) (pieces : List Piece) :
    Piece.columns (member.enclosePieces pieces) = Piece.columns pieces := by
  unfold enclosePieces
  split
  · exact (Piece.columns_append pieces [.plain ")"]).trans (List.append_nil _)
  · rfl

mutual

/-- **The text of a condition** fills in its columns as they are written in its place. -/
theorem fill_pieces (p : Predicate) :
    Piece.fill (·.text ctx) p.pieces = p.text Value.placeholder ctx := by
  cases p with
  | comparison leaf => exact leaf.fill_pieces ctx
  | group connective members =>
    rw [pieces, text, Piece.fill_intercalate, map_fill_memberPieces members]

/-- The texts of the members of a group fill in their columns. -/
theorem map_fill_memberPieces (members : List Predicate) :
    (memberPieces members).map (Piece.fill (·.text ctx)) =
      memberTexts Value.placeholder ctx members := by
  cases members with
  | nil => rfl
  | cons member rest =>
    rw [memberPieces, memberTexts, List.map_cons, fill_enclosePieces, fill_pieces member,
      map_fill_memberPieces rest]

end

mutual

/-- The open columns of a condition are its columns, in order. -/
theorem columns_pieces (p : Predicate) : Piece.columns p.pieces = p.columns := by
  cases p with
  | comparison leaf => exact leaf.columns_pieces
  | group connective members =>
    rw [pieces, columns, Piece.columns_intercalate, flatMap_columns_memberPieces members]

/-- The open columns of the members of a group are their columns. -/
theorem flatMap_columns_memberPieces (members : List Predicate) :
    (memberPieces members).flatMap Piece.columns = memberColumns members := by
  cases members with
  | nil => rfl
  | cons member rest =>
    rw [memberPieces, memberColumns, List.flatMap_cons, columns_enclosePieces,
      columns_pieces member, flatMap_columns_memberPieces rest]

end

/-- The text of a condition on the primary table has the alias of this table at each column. -/
lemma text_qualified_eq_fill {p : Predicate} (h : ∀ c ∈ p.columns, c.table = 0) (tables : Nat) :
    p.text Value.placeholder (.qualified tables) =
      Piece.fill (fun c => "t1." ++ c.name) p.pieces := by
  rw [← p.fill_pieces]
  apply Piece.fill_congr
  intro c hc
  rw [columns_pieces] at hc
  have halias : tableAlias c.table ++ "." = "t1." := by
    rw [h c hc]
    rfl
  calc
    c.text (.qualified tables) = tableAlias c.table ++ "." ++ c.name := rfl
    _ = "t1." ++ c.name := by rw [halias]

/-- The bare text of a condition has nothing but names at its columns. -/
lemma text_bare_eq_fill (p : Predicate) :
    p.text Value.placeholder .bare = Piece.fill (·.name) p.pieces :=
  (p.fill_pieces .bare).symm

end Predicate

end Filled

end BoundSql
