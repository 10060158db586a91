import BoundSql.Proofs.Sql.Layout
import BoundSql.Value

/-!
# Items that end by themselves

An item of a list is written as tokens and binds values. If one can tell from the tokens alone where
the item ends, whatever stands behind it, then a list of such items is read back item by item: the
commas show that another item follows, and what closes the list is no comma.

Items may be written in two ways, as in two statements with different contexts.

## Main definitions

* `BoundSql.Sql.SelfDelimiting` — tokens and values that begin with an item begin with no other.

## Main results

* `BoundSql.Sql.SelfDelimiting.commaTokens_unique` — lists of such items are told apart.
* `BoundSql.Sql.SelfDelimiting.tuple` — a list in parentheses is such an item itself.
-/

namespace BoundSql

namespace Sql

variable {α : Type}

/-- Tokens and values that begin with an item begin with no other one, whatever follows. -/
def SelfDelimiting (item item' : α → List Token) (bound : α → List Value) : Prop :=
  ∀ ⦃x y : α⦄ ⦃a b : List Token⦄ ⦃m n : List Value⦄, item x ++ a = item' y ++ b →
    bound x ++ m = bound y ++ n → x = y ∧ a = b ∧ m = n

/-- A list of one item more has a comma and the item in front of the others. -/
lemma commaTokens_cons (part : List Token) (parts : List (List Token)) :
    commaTokens (part :: parts) = part ++ parts.flatMap (.symbol "," :: ·) := by
  induction parts generalizing part with
  | nil => simp [commaTokens]
  | cons next rest ih =>
    have hrest := ih next
    rw [commaTokens] at hrest ⊢
    rw [List.intercalate_cons_cons, hrest, List.flatMap_cons]
    simp

/-- Tokens in parentheses with commas between them. -/
def tupleTokens (parts : List (List Token)) : List Token :=
  .symbol "(" :: (commaTokens parts ++ [.symbol ")"])

namespace SelfDelimiting

variable {item item' : α → List Token} {bound : α → List Value} {stop : List Token → Prop}
  {l l' : List α} {a b : List Token} {m n : List Value}

/-- Items that stand behind commas are read back, up to what does not begin with a comma. -/
lemma tail_unique (hitem : SelfDelimiting item item' bound)
    (ha : a.head? ≠ some (.symbol ",")) (hb : b.head? ≠ some (.symbol ","))
    (ht : (l.map item).flatMap (.symbol "," :: ·) ++ a =
      (l'.map item').flatMap (.symbol "," :: ·) ++ b)
    (hv : l.flatMap bound ++ m = l'.flatMap bound ++ n) : l = l' ∧ a = b ∧ m = n := by
  induction l generalizing l' with
  | nil =>
    cases l' with
    | nil => exact ⟨rfl, ht, hv⟩
    | cons y rest' =>
      obtain rfl : a = .symbol "," :: _ := ht
      exact absurd rfl ha
  | cons x rest ih =>
    cases l' with
    | nil =>
      obtain rfl : b = .symbol "," :: _ := ht.symm
      exact absurd rfl hb
    | cons y rest' =>
      simp only [List.map_cons, List.flatMap_cons, List.cons_append, List.append_assoc,
        List.cons.injEq, true_and] at ht hv
      obtain ⟨rfl, ht', hv'⟩ := hitem ht hv
      obtain ⟨rfl, rfl, rfl⟩ := ih ht' hv'
      exact ⟨rfl, rfl, rfl⟩

/-- **Lists of items** are told apart, if what stands behind them begins neither with a comma nor
like an item. -/
theorem commaTokens_unique (hitem : SelfDelimiting item item' bound)
    (hcomma : ∀ rest, stop rest → rest.head? ≠ some (.symbol ","))
    (hfresh : ∀ x rest, ¬ stop (item x ++ rest)) (hfresh' : ∀ x rest, ¬ stop (item' x ++ rest))
    (ha : stop a) (hb : stop b)
    (ht : commaTokens (l.map item) ++ a = commaTokens (l'.map item') ++ b)
    (hv : l.flatMap bound ++ m = l'.flatMap bound ++ n) : l = l' ∧ a = b ∧ m = n := by
  match l, l' with
  | [], [] => exact ⟨rfl, ht, hv⟩
  | [], y :: rest' =>
    rw [List.map_cons, commaTokens_cons, List.append_assoc] at ht
    obtain rfl : a = item' y ++ _ := ht
    exact absurd ha (hfresh' y _)
  | x :: rest, [] =>
    rw [List.map_cons, commaTokens_cons, List.append_assoc] at ht
    obtain rfl : b = item x ++ _ := ht.symm
    exact absurd hb (hfresh x _)
  | x :: rest, y :: rest' =>
    simp only [List.map_cons, commaTokens_cons, List.flatMap_cons, List.append_assoc] at ht hv
    obtain ⟨rfl, ht', hv'⟩ := hitem ht hv
    obtain ⟨rfl, rfl, rfl⟩ := hitem.tail_unique (hcomma a ha) (hcomma b hb) ht' hv'
    exact ⟨rfl, rfl, rfl⟩

/-- Items that bind no values bind none together. -/
lemma flatMap_valueless (l : List α) : l.flatMap (fun _ => ([] : List Value)) = [] :=
  List.flatMap_eq_nil_iff.2 fun _ _ => rfl

/-- Lists of items that bind no values are told apart by their tokens. -/
lemma commaTokens_unique_of_valueless (hitem : SelfDelimiting item item' fun _ => [])
    (hcomma : ∀ rest, stop rest → rest.head? ≠ some (.symbol ","))
    (hfresh : ∀ x rest, ¬ stop (item x ++ rest)) (hfresh' : ∀ x rest, ¬ stop (item' x ++ rest))
    (ha : stop a) (hb : stop b)
    (ht : commaTokens (l.map item) ++ a = commaTokens (l'.map item') ++ b) : l = l' ∧ a = b := by
  have hv : l.flatMap (fun _ => ([] : List Value)) ++ [] = l'.flatMap (fun _ => []) ++ [] := by
    rw [flatMap_valueless l, flatMap_valueless l']
  obtain ⟨hll, hab, -⟩ := hitem.commaTokens_unique hcomma hfresh hfresh' ha hb ht hv
  exact ⟨hll, hab⟩

/-- **A list in parentheses** ends by itself, if no item begins with a closing one. -/
theorem tuple (hitem : SelfDelimiting item item' bound)
    (hfresh : ∀ x rest, (item x ++ rest).head? ≠ some (.symbol ")"))
    (hfresh' : ∀ x rest, (item' x ++ rest).head? ≠ some (.symbol ")")) :
    SelfDelimiting (fun l : List α => tupleTokens (l.map item))
      (fun l => tupleTokens (l.map item')) (fun l => l.flatMap bound) := by
  intro l l' a b m n ht hv
  simp only [tupleTokens, List.cons_append, List.append_assoc, List.nil_append, List.cons.injEq,
    true_and] at ht
  have hcomma : ∀ rest : List Token, rest.head? = some (.symbol ")") →
      rest.head? ≠ some (.symbol ",") := by
    intro rest hrest
    simp [hrest]
  obtain ⟨rfl, hab, rfl⟩ := hitem.commaTokens_unique hcomma hfresh hfresh' rfl rfl ht hv
  exact ⟨rfl, List.tail_eq_of_cons_eq hab, rfl⟩

/-- Single tokens that tell the items apart. -/
lemma singleton {token : α → Token} (h : Function.Injective token) :
    SelfDelimiting (fun x => [token x]) (fun x => [token x]) (fun _ => []) := by
  intro x y a b m n ht hv
  obtain ⟨hxy, hab⟩ := List.cons.inj ht
  exact ⟨h hxy, hab, hv⟩

/-- Placeholders, each with the value that it binds. -/
lemma placeholder :
    SelfDelimiting (fun _ : Value => [.placeholder]) (fun _ => [.placeholder]) (fun v => [v]) := by
  intro x y a b m n ht hv
  obtain ⟨hxy, hmn⟩ := List.cons.inj hv
  exact ⟨hxy, List.tail_eq_of_cons_eq ht, hmn⟩

end SelfDelimiting

end Sql

end BoundSql
