import BoundSql.Cli.Compile
import BoundSql.Proofs.Except

/-!
# Outcomes of commands

A command may be refused for what it asks for: a name that is not declared, a text that cannot be
read, too little said about the rows. It must not fail for any other reason, and what it yields must
be right. Both are stated at once, of every step of a command and of steps in a row. What two
commands have in common is stated in the same way, of the outcomes of both.

## Main definitions

* `BoundSql.Cli.CommandError.IsRefusal` — the errors that tell what is wrong with a request.
* `BoundSql.Cli.Yields` — every result has a property and every error is an expected one.
* `BoundSql.Cli.Alike` — two outcomes that are related results or related errors.

## Main results

* `BoundSql.Cli.Yields.bind`, `BoundSql.Cli.Yields.mapM`, `BoundSql.Cli.Yields.foldlM` — the outcome
  of steps in a row.
* `BoundSql.Cli.Alike.bind`, `BoundSql.Cli.Alike.mapM` — two outcomes of steps in a row.
-/

namespace BoundSql

/-- The errors of a table that tell what is wrong with a request. -/
inductive TableError.IsRefusal : TableError → Prop
  | unknownField (table field : String) : IsRefusal (.unknownField table field)
  | missingField (table field : String) : IsRefusal (.missingField table field)
  | emptyInsert (table : String) : IsRefusal (.emptyInsert table)
  | emptyUpdate (table : String) : IsRefusal (.emptyUpdate table)

namespace Cli

/-- The errors of a command that tell what is wrong with the request. -/
inductive CommandError.IsRefusal : CommandError → Prop
  | unknownTable (name : String) : IsRefusal (.schema (.unknownTable name))
  | table {error : TableError} (h : error.IsRefusal) : IsRefusal (.table error)
  | invalidAssignment (text : String) : IsRefusal (.invalidAssignment text)
  | invalidRecord (error : Json.ReadError) : IsRefusal (.invalidRecord error)
  | missingFilter (command : String) : IsRefusal (.missingFilter command)

variable {ε δ α β : Type}

/-- Every result has the property and every error is an expected one. -/
def Yields (expected : ε → Prop) (property : α → Prop) : Except ε α → Prop
  | .ok a => property a
  | .error e => expected e

namespace Yields

variable {expected : ε → Prop} {property : α → Prop} {m : Except ε α}

/-- A result with the property. -/
lemma pure {a : α} (h : property a) : Yields expected property (Pure.pure a) := h

/-- A weaker property. -/
lemma mono {other : α → Prop} (hm : Yields expected property m)
    (h : ∀ a, property a → other a) : Yields expected other m := by
  cases m with
  | ok a => exact h a hm
  | error e => exact hm

/-- **Two steps in a row**: the second one may rely on what the first one yields. -/
theorem bind {other : β → Prop} {f : α → Except ε β} (hm : Yields expected property m)
    (hf : ∀ a, property a → Yields expected other (f a)) : Yields expected other (m >>= f) := by
  cases m with
  | ok a => exact hf a hm
  | error e => exact hm

/-- A function of the result. -/
lemma map {other : β → Prop} {f : α → β} (hm : Yields expected property m)
    (h : ∀ a, property a → other (f a)) : Yields expected other (m.map f) := by
  cases m with
  | ok a => exact h a hm
  | error e => exact hm

/-- An error told as another one. -/
lemma mapError {wider : δ → Prop} {f : ε → δ} (hm : Yields expected property m)
    (h : ∀ e, expected e → wider (f e)) : Yields wider property (m.mapError f) := by
  cases m with
  | ok a => exact hm
  | error e => exact h e hm

/-- **The steps of a list**: every result has the property, and there is one for each member. -/
theorem mapM {other : β → Prop} {f : α → Except ε β} {l : List α}
    (h : ∀ x ∈ l, Yields expected other (f x)) :
    Yields expected (fun ys => ys.length = l.length ∧ ∀ y ∈ ys, other y) (l.mapM f) := by
  induction l with
  | nil => exact Yields.pure ⟨rfl, fun _ hy => (nomatch hy)⟩
  | cons x l ih =>
    rw [List.forall_mem_cons] at h
    obtain ⟨hx, hl⟩ := h
    rw [List.mapM_cons]
    apply hx.bind
    intro y hy
    apply (ih hl).bind
    intro ys hys
    obtain ⟨hlength, hall⟩ := hys
    apply Yields.pure
    exact ⟨by simp [hlength], List.forall_mem_cons.2 ⟨hy, hall⟩⟩

/-- The steps of a list that yield nothing. -/
lemma forM {f : α → Except ε PUnit} {l : List α}
    (h : ∀ x ∈ l, Yields expected (fun _ => True) (f x)) :
    Yields expected (fun _ => True) (l.forM f) := by
  induction l with
  | nil => trivial
  | cons x l ih =>
    rw [List.forall_mem_cons] at h
    obtain ⟨hx, hl⟩ := h
    change Yields _ _ (f x >>= fun _ => l.forM f)
    apply hx.bind
    intro _ _
    exact ih hl

/-- **The steps of a list** that build on each other: what every step keeps holds at the end. -/
theorem foldlM {invariant : β → Prop} {f : β → α → Except ε β} {l : List α} {start : β}
    (hstart : invariant start)
    (h : ∀ b, invariant b → ∀ x ∈ l, Yields expected invariant (f b x)) :
    Yields expected invariant (l.foldlM f start) := by
  induction l generalizing start with
  | nil => exact Yields.pure hstart
  | cons x l ih =>
    rw [List.foldlM_cons]
    apply (h start hstart x List.mem_cons_self).bind
    intro b hb
    apply ih hb
    intro c hc y hy
    exact h c hc y (List.mem_cons_of_mem x hy)

end Yields

/-! ## Two outcomes -/

/-- Two outcomes are alike: both are results that are related, or both are errors that are. -/
inductive Alike (errors : ε → ε → Prop) (results : α → α → Prop) :
    Except ε α → Except ε α → Prop
  | ok {a b : α} (h : results a b) : Alike errors results (.ok a) (.ok b)
  | error {e e' : ε} (h : errors e e') : Alike errors results (.error e) (.error e')

namespace Alike

variable {errors : ε → ε → Prop} {results : α → α → Prop} {m n : Except ε α}

/-- An outcome is like itself. -/
lemma refl (herrors : ∀ e, errors e e) (hresults : ∀ a, results a a) (m : Except ε α) :
    Alike errors results m m := by
  cases m with
  | ok a => exact .ok (hresults a)
  | error e => exact .error (herrors e)

/-- Outcomes that a function makes equal. -/
lemma of_map_eq {f : α → β} (herrors : ∀ e, errors e e) (h : n.map f = m.map f) :
    Alike errors (fun a b => f b = f a) m n := by
  cases m with
  | ok a =>
    cases n with
    | ok b => exact .ok (Except.ok.inj h)
    | error e => cases h
  | error e =>
    cases n with
    | ok b => cases h
    | error e' =>
      obtain rfl : e' = e := Except.error.inj h
      exact .error (herrors e')

/-- **Two steps in a row**: the second steps may rely on how the first results are related. -/
theorem bind {others : β → β → Prop} {f g : α → Except ε β} (h : Alike errors results m n)
    (hnext : ∀ a b, results a b → Alike errors others (f a) (g b)) :
    Alike errors others (m >>= f) (n >>= g) := by
  cases h with
  | ok hresults => exact hnext _ _ hresults
  | error herrors => exact .error herrors

/-- Functions of the results. -/
lemma map {others : β → β → Prop} {f g : α → β} (h : Alike errors results m n)
    (hnext : ∀ a b, results a b → others (f a) (g b)) :
    Alike errors others (m.map f) (n.map g) := by
  cases h with
  | ok hresults => exact .ok (hnext _ _ hresults)
  | error herrors => exact .error herrors

/-- Errors told as other ones. -/
lemma mapError {others : δ → δ → Prop} {f : ε → δ} (h : Alike errors results m n)
    (herror : ∀ e e', errors e e' → others (f e) (f e')) :
    Alike others results (m.mapError f) (n.mapError f) := by
  cases h with
  | ok hresults => exact .ok hresults
  | error herrors => exact .error (herror _ _ herrors)

/-- **The steps of two lists** whose members are related one by one. -/
theorem mapM {related : α → α → Prop} {others : β → β → Prop} {f : α → Except ε β} {l l' : List α}
    (h : List.Forall₂ related l l')
    (hstep : ∀ x y, related x y → Alike errors others (f x) (f y)) :
    Alike errors (List.Forall₂ others) (l.mapM f) (l'.mapM f) := by
  induction h with
  | nil => exact .ok .nil
  | cons hhead _ ih =>
    rw [List.mapM_cons, List.mapM_cons]
    apply (hstep _ _ hhead).bind
    intro y y' hy
    apply ih.bind
    intro ys ys' hys
    exact .ok (.cons hy hys)

end Alike

end Cli

end BoundSql
