import Mathlib.Data.List.Nodup
import Mathlib.Tactic.Lemma

/-!
# Look-ups in lists of pairs

A look-up takes the first pair with a key. If no key repeats, this is the only one.

## Main results

* `BoundSql.lookup_eq_some_iff_mem` — without repeated keys, what is found is what is listed.
-/

namespace BoundSql

variable {α β γ : Type} [BEq α] [LawfulBEq α]

/-- The first pair is found if it has the key, and otherwise the look-up goes on behind it. -/
lemma lookup_cons_eq_ite [DecidableEq α] (pair : α × β) (rest : List (α × β)) (key : α) :
    (pair :: rest).lookup key = if key = pair.1 then some pair.2 else rest.lookup key := by
  rw [List.lookup_cons]
  by_cases hkey : key = pair.1
  · simp [hkey]
  · have hother : (key == pair.1) = false := beq_eq_false_iff_ne.2 hkey
    simp [hother, hkey]

omit [LawfulBEq α] in
/-- A look-up among changed values finds the changed value. -/
lemma lookup_map (f : β → γ) (l : List (α × β)) (key : α) :
    (l.map fun pair => (pair.1, f pair.2)).lookup key = (l.lookup key).map f := by
  induction l with
  | nil => rfl
  | cons pair rest ih =>
    rw [List.map_cons, List.lookup_cons, List.lookup_cons, ih]
    cases key == pair.1 <;> rfl

/-- A key that is not listed is not found. -/
lemma lookup_eq_none_of_not_mem {l : List (α × β)} {key : α} (h : key ∉ l.map (·.1)) :
    l.lookup key = none := by
  rw [List.lookup_eq_none_iff]
  intro pair hpair
  rw [bne_iff_ne]
  rintro rfl
  exact h (List.mem_map.2 ⟨pair, hpair, rfl⟩)

/-- **Without repeated keys**, a key is found with a value exactly if it is listed with it. -/
theorem lookup_eq_some_iff_mem [DecidableEq α] {l : List (α × β)} {key : α} {value : β}
    (hnodup : (l.map (·.1)).Nodup) : l.lookup key = some value ↔ (key, value) ∈ l := by
  induction l with
  | nil => simp
  | cons pair rest ih =>
    obtain ⟨k, v⟩ := pair
    rw [List.map_cons, List.nodup_cons] at hnodup
    obtain ⟨hnew, hrest⟩ := hnodup
    rw [lookup_cons_eq_ite, List.mem_cons]
    by_cases hkey : key = k
    · subst hkey
      have habsent : (key, value) ∉ rest := by
        intro hmem
        exact hnew (List.mem_map.2 ⟨(key, value), hmem, rfl⟩)
      simp [habsent, eq_comm]
    · simp [hkey, ih hrest]

end BoundSql
