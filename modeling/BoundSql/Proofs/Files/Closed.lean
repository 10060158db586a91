import BoundSql.Proofs.Files.Growth

/-!
# Missing directories

A path leads nowhere if a directory on its way is missing. When that directory is made, the path may
lead somewhere, and what stands there need not be new: two dots behind the missing directory lead
back to what was there before.

## Main definitions

* `BoundSql.FileTree.IsClosed` — whatever stands in a tree stands in a directory.
* `BoundSql.FileTree.LeadsBack` — a path goes through a missing directory back to a file.

## Main results

* `BoundSql.FileTree.GainsDirectories.resolve_before` — what is found after directories were made
  was found before, or a directory was missing.
* `BoundSql.FileTree.IsClosed.dots_of_leadsBack` — paths without two dots do not lead back.
-/

namespace BoundSql.FileTree

variable {tree before after : FileTree} {path : String} {place other : List String}

/-! ## Paths before directories were made -/

/-- A place that becomes a directory by making directories was one before, or nothing stood
there. -/
lemma GainsDirectories.entryAt?_before (h : before.GainsDirectories after)
    (hplace : after.entryAt? place = some .directory) :
    before.entryAt? place = some .directory ∨ before.entryAt? place = none := by
  cases hbefore : before.entryAt? place with
  | none => exact .inr rfl
  | some entry =>
    cases entry with
    | directory => exact .inl rfl
    | file content =>
      have hfile := h.files place
      rw [file?, file?, hplace, hbefore] at hfile
      cases hfile

/-- Where nothing stands, no step leads on. -/
lemma follow_eq_notFound (h : tree.entryAt? place = none) (name : String) (names : List String) :
    tree.follow place (name :: names) = .error .notFound := by
  rw [follow_cons, stepInto, directory, h]
  rfl

/-- Names that lead to a place once directories are made led there before, or one was missing. -/
lemma GainsDirectories.follow_before (h : before.GainsDirectories after) {names : List String}
    (hfollow : after.follow place names = .ok other) :
    before.follow place names = .ok other ∨ before.follow place names = .error .notFound := by
  induction names generalizing place with
  | nil => exact .inl hfollow
  | cons name names ih =>
    rw [follow_cons, bind_eq_ok_iff] at hfollow
    obtain ⟨next, hstep, hrest⟩ := hfollow
    obtain ⟨hplace, hname, hnext⟩ := stepInto_eq_ok_iff.1 hstep
    rcases h.entryAt?_before hplace with hbefore | hbefore
    · have hstep : before.stepInto place name = .ok next :=
        stepInto_eq_ok_iff.2 ⟨hbefore, hname, hnext⟩
      rw [follow_cons, hstep]
      exact ih hrest
    · exact .inr (follow_eq_notFound hbefore name names)

/-- The names of a path go through a directory that is missing. -/
def MissesDirectory (tree : FileTree) (path : String) : Prop :=
  tree.follow (tree.start path) (Path.names path) = .error .notFound

/-- **A path that leads to a place** once directories are made led there before, or a directory on
its way was missing. -/
theorem GainsDirectories.resolve_before (h : before.GainsDirectories after)
    (hresolve : after.resolve path = .ok place) :
    before.resolve path = .ok place ∨ before.MissesDirectory path := by
  obtain ⟨hcheck, hfollow⟩ := resolve_eq_ok_iff.1 hresolve
  rw [h.start_eq] at hfollow
  exact (h.follow_before hfollow).imp_left fun hbefore => resolve_eq_ok_iff.2 ⟨hcheck, hbefore⟩

/-! ## Closed trees -/

/-- Whatever stands in a tree stands in a directory. -/
def IsClosed (tree : FileTree) : Prop :=
  ∀ place name, tree.entryAt? (place ++ [name]) ≠ none → tree.entryAt? place = some .directory

/-- A path leads back: it goes through a directory that is missing, but its names spell out the
place of a file. -/
def LeadsBack (tree : FileTree) (path : String) : Prop :=
  tree.MissesDirectory path ∧ (tree.file? (tree.spelled path)).isSome

namespace IsClosed

variable (h : tree.IsClosed)

include h

/-- Nothing stands below a place at which nothing stands. -/
lemma entryAt?_append (hplace : tree.entryAt? place = none) (below : List String) :
    tree.entryAt? (place ++ below) = none := by
  induction below generalizing place with
  | nil => rwa [List.append_nil]
  | cons name below ih =>
    have hname : tree.entryAt? (place ++ [name]) = none := by
      by_contra hname
      cases hplace.symm.trans (h place name hname)
    rw [List.append_cons]
    exact ih hname

omit h in
/-- Names without two dots lead further down. -/
lemma exists_foldl_step_eq {names : List String} (hdots : ".." ∉ names) (place : List String) :
    ∃ below, names.foldl step place = place ++ below := by
  induction names generalizing place with
  | nil => exact ⟨[], (List.append_nil place).symm⟩
  | cons name names ih =>
    rw [List.mem_cons, not_or] at hdots
    obtain ⟨below, hbelow⟩ := ih hdots.2 (step place name)
    rw [List.foldl_cons, hbelow, step, if_neg (Ne.symm hdots.1)]
    split
    · exact ⟨below, rfl⟩
    · exact ⟨name :: below, (List.append_cons place name below).symm⟩

/-- Where names without two dots miss a directory, nothing stands at the place that they
spell out. -/
lemma entryAt?_of_follow_eq_notFound {names : List String} (hdots : ".." ∉ names)
    (hfollow : tree.follow place names = .error .notFound) :
    tree.entryAt? (names.foldl step place) = none := by
  induction names generalizing place with
  | nil => cases hfollow
  | cons name names ih =>
    cases hplace : tree.entryAt? place with
    | none =>
      obtain ⟨below, hbelow⟩ := exists_foldl_step_eq hdots place
      rw [hbelow]
      exact h.entryAt?_append hplace below
    | some entry =>
      rw [follow_cons] at hfollow
      cases entry with
      | file content =>
        rw [stepInto, directory, hplace] at hfollow
        cases hfollow
      | directory =>
        rw [stepInto_of_directory hplace] at hfollow
        split at hfollow
        · cases hfollow
        · exact ih (List.not_mem_of_not_mem_cons hdots) hfollow

/-- **Paths without two dots do not lead back.** -/
theorem dots_of_leadsBack (hback : tree.LeadsBack path) : ".." ∈ Path.names path := by
  by_contra hdots
  have hentry := h.entryAt?_of_follow_eq_notFound hdots hback.1
  have hfile := hback.2
  rw [file?, spelled, hentry] at hfile
  cases hfile

end IsClosed

end BoundSql.FileTree
