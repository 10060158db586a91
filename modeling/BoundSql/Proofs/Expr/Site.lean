import BoundSql.Expr.Compile
import Mathlib.Tactic.Lemma

/-!
# Sites of a compilation

A compilation walks a description from left to right. What it does on the way can be read off the
list of the *sites* it passes: a value is bound at some of them, and a fault is met at others. The
list is a function of the description alone, so one statement about each kind of expression — which
sites it has and which text it yields — answers every question about its parameters and its errors.

## Main definitions

* `BoundSql.Site` — a place where a value is bound or a fault is met.
* `BoundSql.Site.values`, `BoundSql.Site.fault?` — the values, and the first fault, of some sites.
* `BoundSql.Compile.outcome` — what passing some sites comes to.
* `BoundSql.Compile.Visits` — a compilation passes exactly the given sites, and yields a result.

## Main results

* `BoundSql.Compile.Visits.bind`, `BoundSql.Compile.Visits.mapM` — sites of compilations one after
  the other stand one after the other.
* `BoundSql.Compile.outcome_of_fault?_eq_none` — without a fault, exactly the values are appended.
-/

namespace BoundSql

/-- A place of a description at which its compilation has an effect. -/
inductive Site where
  /-- A value is bound. -/
  | value (value : Value)
  /-- A fault is met, and nothing behind it is compiled. -/
  | fault (error : CompileError)
deriving DecidableEq

namespace Site

/-- The value bound at a site. -/
def value? : Site → Option Value
  | value v => some v
  | fault _ => none

/-- The fault met at a site. -/
def error? : Site → Option CompileError
  | value _ => none
  | fault e => some e

/-- The values bound at sites, in order. -/
def values (sites : List Site) : List Value := sites.filterMap value?

/-- The first fault among sites. -/
def fault? (sites : List Site) : Option CompileError := sites.findSome? error?

/-- No sites have no values. -/
@[simp] lemma values_nil : values [] = [] := rfl

/-- A value comes before the values behind it. -/
@[simp] lemma values_value_cons (v : Value) (sites : List Site) :
    values (.value v :: sites) = v :: values sites := rfl

/-- A fault has no value. -/
@[simp] lemma values_fault_cons (e : CompileError) (sites : List Site) :
    values (.fault e :: sites) = values sites := rfl

/-- The values of two lists stand one after the other. -/
@[simp] lemma values_append (s t : List Site) : values (s ++ t) = values s ++ values t :=
  List.filterMap_append

/-- Values are collected list by list. -/
@[simp] lemma values_flatMap {α : Type} (l : List α) (s : α → List Site) :
    values (l.flatMap s) = l.flatMap fun x => values (s x) := by
  induction l with
  | nil => rfl
  | cons x l ih => simp [ih]

/-- No sites have no fault. -/
@[simp] lemma fault?_nil : fault? [] = none := rfl

/-- A value is no fault. -/
@[simp] lemma fault?_value_cons (v : Value) (sites : List Site) :
    fault? (.value v :: sites) = fault? sites := rfl

/-- The first fault is reported. -/
@[simp] lemma fault?_fault_cons (e : CompileError) (sites : List Site) :
    fault? (.fault e :: sites) = some e := rfl

/-- Sites have no fault exactly when neither part of them has one. -/
@[simp] lemma fault?_append_eq_none {s t : List Site} :
    fault? (s ++ t) = none ↔ fault? s = none ∧ fault? t = none := by
  simp [fault?]

/-- The sites of a list of parts have no fault exactly when no part has one. -/
@[simp] lemma fault?_flatMap_eq_none {α : Type} {l : List α} {s : α → List Site} :
    fault? (l.flatMap s) = none ↔ ∀ x ∈ l, fault? (s x) = none := by
  induction l with
  | nil => simp
  | cons x l ih => simp [ih]

end Site

namespace Compile

variable {α β : Type}

/-- What a compilation comes to that passes the given sites and then yields `a`: values are appended
to the parameters until a fault is met. -/
def outcome (a : α) : List Site → Array Value → EStateM.Result CompileError (Array Value) α
  | [], params => .ok a params
  | .value v :: rest, params => outcome a rest (params.push v)
  | .fault e :: _, params => .error e params

/-- A compilation passes exactly the given sites, whatever is bound already, and yields `a` if none
of them is a fault. -/
def Visits (m : Compile α) (sites : List Site) (a : α) : Prop :=
  ∀ params, m.run params = outcome a sites params

/-- Passing sites in two parts: the second part is reached only if the first one has no fault. -/
lemma outcome_append (a : α) (b : β) (s t : List Site) (params : Array Value) :
    outcome b (s ++ t) params =
      match outcome a s params with
      | .ok _ params => outcome b t params
      | .error e params => .error e params := by
  induction s generalizing params with
  | nil => rfl
  | cons site s ih =>
    cases site with
    | value v => exact ih (params.push v)
    | fault e => rfl

/-- **Without a fault** exactly the values of the sites are appended. -/
theorem outcome_of_fault?_eq_none (a : α) {sites : List Site} (h : Site.fault? sites = none)
    (params : Array Value) :
    outcome a sites params = .ok a (params ++ (Site.values sites).toArray) := by
  induction sites generalizing params with
  | nil => simp [outcome]
  | cons site sites ih =>
    cases site with
    | value v =>
      have hrest : Site.fault? sites = none := h
      rw [outcome, ih hrest, Site.values_value_cons]
      simp
    | fault e => simp at h

/-- **With a fault** the compilation fails with the first one. -/
theorem outcome_of_fault?_eq_some (a : α) {sites : List Site} {e : CompileError}
    (h : Site.fault? sites = some e) (params : Array Value) :
    ∃ after, outcome a sites params = .error e after := by
  induction sites generalizing params with
  | nil => simp at h
  | cons site sites ih =>
    cases site with
    | value v => exact ih h (params.push v)
    | fault e' =>
      obtain rfl : e' = e := by simpa using h
      exact ⟨params, rfl⟩

namespace Visits

variable {m : Compile α} {sites : List Site} {a : α}

/-- A result without effects passes no site. -/
lemma pure (a : α) : Visits (Pure.pure a : Compile α) [] a := fun _ => rfl

/-- Binding a value is a site. -/
lemma parameter (v : Value) : Visits (Compile.parameter v) [.value v] "?" := fun _ => rfl

/-- A thrown error is a site, whatever would have been yielded. -/
lemma throw (e : CompileError) (a : α) : Visits (MonadExcept.throw e : Compile α) [.fault e] a :=
  fun _ => rfl

/-- **The sites of two compilations in a row** stand one after the other.

**Proof sketch.** If the first compilation fails, so does the whole, with the same parameters, and
the sites behind its fault are not passed (`outcome_append`). Otherwise the second one starts with
the parameters that the first one left. -/
theorem bind {f : α → Compile β} {t : List Site} {b : β} (hm : m.Visits sites a)
    (hf : (f a).Visits t b) : (m >>= f).Visits (sites ++ t) b := by
  intro params
  rw [EStateM.run_bind, hm params, outcome_append a]
  cases h : outcome a sites params with
  | error e after => rfl
  | ok a' after =>
    obtain rfl : a' = a := by
      cases hfault : Site.fault? sites with
      | none =>
        rw [outcome_of_fault?_eq_none a hfault] at h
        exact (EStateM.Result.ok.inj h).1.symm
      | some e =>
        obtain ⟨after', he⟩ := outcome_of_fault?_eq_some a hfault params
        rw [he] at h
        cases h
    exact hf after

/-- A function of the result changes no site. -/
lemma map (hm : m.Visits sites a) (f : α → β) :
    (m >>= fun x => Pure.pure (f x) : Compile β).Visits sites (f a) := by
  have h := hm.bind (f := fun x => Pure.pure (f x)) (Visits.pure (f a))
  rwa [List.append_nil] at h

/-- **The sites of a list of compilations** are those of its members in order. -/
theorem mapM {f : α → Compile β} {s : α → List Site} {g : α → β} {l : List α}
    (h : ∀ x ∈ l, (f x).Visits (s x) (g x)) : (l.mapM f).Visits (l.flatMap s) (l.map g) := by
  induction l with
  | nil => exact Visits.pure []
  | cons x l ih =>
    rw [List.mapM_cons, List.flatMap_cons, List.map_cons]
    have hx := h x List.mem_cons_self
    have hl := ih fun y hy => h y (List.mem_cons_of_mem x hy)
    exact hx.bind (hl.map (g x :: ·))

/-- **A compilation that succeeds** has met no fault, and has appended the values of its sites. -/
theorem eq_of_run_eq_ok (hm : m.Visits sites a) {before after : Array Value} {b : α}
    (h : m.run before = .ok b after) :
    Site.fault? sites = none ∧ b = a ∧ after = before ++ (Site.values sites).toArray := by
  rw [hm before] at h
  cases hfault : Site.fault? sites with
  | none =>
    rw [outcome_of_fault?_eq_none a hfault] at h
    obtain ⟨ha, hafter⟩ := EStateM.Result.ok.inj h
    exact ⟨rfl, ha.symm, hafter.symm⟩
  | some e =>
    obtain ⟨params, he⟩ := outcome_of_fault?_eq_some a hfault before
    rw [he] at h
    cases h

end Visits

end Compile

end BoundSql
