import Mathlib.Data.List.Forall2

/-!
# Steps that may fail

When steps in a row succeed, and with which error they fail.

## Main results

* `BoundSql.bind_eq_ok_iff`, `BoundSql.mapError_eq_ok_iff` — when two steps in a row succeed.
* `BoundSql.mapM_eq_ok_iff`, `BoundSql.mapM_eq_error_iff` — the results and the error of the steps
  of a list.
* `BoundSql.forM_eq_ok_iff`, `BoundSql.forM_eq_error_iff` — the same for checks.
-/

namespace BoundSql

variable {ε δ α β : Type}

/-- Two steps succeed exactly when the first one does and so does the second one behind it. -/
lemma bind_eq_ok_iff {m : Except ε α} {f : α → Except ε β} {b : β} :
    (m >>= f) = .ok b ↔ ∃ a, m = .ok a ∧ f a = .ok b := by
  cases m with
  | error e => exact ⟨nofun, fun ⟨_, h, _⟩ => nomatch h⟩
  | ok a =>
    constructor
    · intro h
      exact ⟨a, rfl, h⟩
    · rintro ⟨a', ha, h⟩
      obtain rfl := Except.ok.inj ha
      exact h

/-- A step whose error is told as another one has the same results. -/
lemma mapError_eq_ok_iff {m : Except ε α} {f : ε → δ} {a : α} :
    m.mapError f = .ok a ↔ m = .ok a := by
  cases m with
  | ok _ => simp [Except.mapError]
  | error _ => exact ⟨nofun, nofun⟩

section Lists

variable {f : α → Except ε β} {l : List α}

/-- The steps of a list succeed exactly when each of them does, with a result of its own. -/
lemma mapM_eq_ok_iff {ys : List β} :
    l.mapM f = .ok ys ↔ List.Forall₂ (fun x y => f x = .ok y) l ys := by
  induction l generalizing ys with
  | nil =>
    rw [List.mapM_nil, List.forall₂_nil_left_iff]
    exact ⟨fun h => (Except.ok.inj h).symm, fun h => congrArg Except.ok h.symm⟩
  | cons x rest ih =>
    rw [List.mapM_cons, List.forall₂_cons_left_iff]
    simp only [bind_eq_ok_iff, ih]
    constructor
    · rintro ⟨y, hy, zs, hzs, h⟩
      exact ⟨y, zs, hy, hzs, (Except.ok.inj h).symm⟩
    · rintro ⟨y, zs, hy, hzs, rfl⟩
      exact ⟨y, hy, zs, hzs, rfl⟩

/-- The steps of a list fail exactly with the error of the first one that fails. -/
lemma mapM_eq_error_iff {e : ε} :
    l.mapM f = .error e ↔
      ∃ front x back, l = front ++ x :: back ∧ (∀ y ∈ front, ∃ z, f y = .ok z) ∧
        f x = .error e := by
  induction l with
  | nil => exact ⟨nofun, fun ⟨front, x, back, h, _⟩ => by simp at h⟩
  | cons x rest ih =>
    rw [List.mapM_cons]
    cases hx : f x with
    | error e' =>
      constructor
      · intro h
        obtain rfl : e' = e := Except.error.inj h
        exact ⟨[], x, rest, rfl, nofun, hx⟩
      · rintro ⟨front, y, back, heq, hfront, hy⟩
        cases front with
        | nil =>
          obtain ⟨rfl, -⟩ := List.cons.inj heq
          obtain rfl : e' = e := Except.error.inj (hx.symm.trans hy)
          rfl
        | cons first front =>
          obtain ⟨rfl, -⟩ := List.cons.inj heq
          obtain ⟨z, hz⟩ := hfront x List.mem_cons_self
          cases hx.symm.trans hz
    | ok y =>
      have hstep : (do let ys ← rest.mapM f; pure (y :: ys)) = .error e ↔
          rest.mapM f = .error e := by
        cases rest.mapM f with
        | error e' => exact ⟨fun h => congrArg _ (Except.error.inj h), fun h => h ▸ rfl⟩
        | ok ys => exact ⟨nofun, nofun⟩
      refine hstep.trans (ih.trans ?_)
      constructor
      · rintro ⟨front, z, back, rfl, hfront, hz⟩
        exact ⟨x :: front, z, back, rfl, List.forall_mem_cons.2 ⟨⟨y, hx⟩, hfront⟩, hz⟩
      · rintro ⟨front, z, back, heq, hfront, hz⟩
        cases front with
        | nil =>
          obtain ⟨rfl, -⟩ := List.cons.inj heq
          cases hx.symm.trans hz
        | cons first front =>
          obtain ⟨rfl, rfl⟩ := List.cons.inj heq
          exact ⟨front, z, back, rfl, (List.forall_mem_cons.1 hfront).2, hz⟩

section Checks

variable {check : α → Except ε Unit}

/-- Checks are steps whose results are dropped. -/
lemma forM_eq_map_mapM : l.forM check = (l.mapM check).map fun _ => () := by
  induction l with
  | nil => rfl
  | cons x rest ih =>
    change (check x >>= fun _ => rest.forM check) = _
    rw [List.mapM_cons, ih]
    cases check x with
    | error e => rfl
    | ok _ => cases rest.mapM check <;> rfl

/-- The checks of a list pass exactly when each of them does. -/
lemma forM_eq_ok_iff : l.forM check = .ok () ↔ ∀ x ∈ l, check x = .ok () := by
  induction l with
  | nil => exact ⟨fun _ _ h => (nomatch h), fun _ => rfl⟩
  | cons x rest ih =>
    change (check x >>= fun _ => rest.forM check) = _ ↔ _
    rw [bind_eq_ok_iff, List.forall_mem_cons, ih]
    exact ⟨fun ⟨_, hx, hrest⟩ => ⟨hx, hrest⟩, fun ⟨hx, hrest⟩ => ⟨(), hx, hrest⟩⟩

/-- The checks of a list fail exactly with the error of the first one that fails. -/
lemma forM_eq_error_iff {e : ε} :
    l.forM check = .error e ↔
      ∃ front x back, l = front ++ x :: back ∧ (∀ y ∈ front, check y = .ok ()) ∧
        check x = .error e := by
  have hmap : (l.mapM check).map (fun _ => ()) = .error e ↔ l.mapM check = .error e := by
    cases l.mapM check with
    | error _ => exact ⟨fun h => congrArg _ (Except.error.inj h), fun h => h ▸ rfl⟩
    | ok _ => exact ⟨nofun, nofun⟩
  have hpasses : ∀ m : Except ε Unit, (∃ z, m = .ok z) ↔ m = .ok () := fun _ =>
    ⟨fun ⟨(), h⟩ => h, fun h => ⟨(), h⟩⟩
  rw [forM_eq_map_mapM, hmap, mapM_eq_error_iff]
  simp only [hpasses]

end Checks

end Lists

end BoundSql
