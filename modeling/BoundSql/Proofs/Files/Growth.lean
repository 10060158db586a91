import BoundSql.Files.Tree
import BoundSql.Proofs.Except
import Mathlib.Tactic.Lemma

/-!
# What operations leave as it is

No operation on a tree of files takes a directory away, so a path that leads to a place goes on
leading there. Directories that are made are all that is made with them, and a file that is written
is all that changes.

## Main definitions

* `BoundSql.FileTree.file?` — the content of the file at a place.
* `BoundSql.FileTree.spelled` — the place that the names of a path spell out.
* `BoundSql.FileTree.KeepsDirectories` — the directories of a tree are directories of another.
* `BoundSql.FileTree.GainsDirectories` — besides, both have the same files.

## Main results

* `BoundSql.FileTree.KeepsDirectories.resolve_eq_ok` — a path goes on leading to its place.
* `BoundSql.FileTree.makeDirectories_gains` — making directories makes nothing else.
* `BoundSql.FileTree.exists_put_of_write_eq_ok` — a file is written at the place that its path leads
  to.
-/

namespace BoundSql

/-- The content of an entry, if it is a file. -/
def FileEntry.content? : FileEntry → Option ByteArray
  | file content => some content
  | directory => none

/-- Of the entries only files have a content. -/
lemma FileEntry.content?_eq_some_iff {entry : FileEntry} {content : ByteArray} :
    entry.content? = some content ↔ entry = file content := by
  cases entry with
  | file found => rw [content?, Option.some.injEq, file.injEq]
  | directory => exact iff_of_false nofun nofun

namespace FileTree

variable {tree before middle after : FileTree} {path : String} {place other : List String}

/-! ## Entries -/

/-- The content of the file at a place. -/
def file? (tree : FileTree) (place : List String) : Option ByteArray :=
  (tree.entryAt? place).bind FileEntry.content?

/-- There is a file at a place exactly when its entry is one. -/
lemma file?_eq_some_iff {content : ByteArray} :
    tree.file? place = some content ↔ tree.entryAt? place = some (.file content) := by
  rw [file?, Option.bind_eq_some_iff]
  constructor
  · rintro ⟨entry, hentry, hcontent⟩
    rwa [FileEntry.content?_eq_some_iff.1 hcontent] at hentry
  · intro h
    exact ⟨_, h, rfl⟩

/-- Entries of other places are looked up behind one that is left out. -/
lemma lookup_filter_of_ne {entries : List (List String × FileEntry)} (h : other ≠ place) :
    (entries.filter (·.1 ≠ place)).lookup other = entries.lookup other := by
  induction entries with
  | nil => rfl
  | cons first rest ih =>
    by_cases hfirst : first.1 = place
    · have hother : (other == first.1) = false := by simpa [hfirst] using h
      rw [List.filter_cons_of_neg (by simpa using hfirst), ih, List.lookup_cons, hother]
    · rw [List.filter_cons_of_pos (by simpa using hfirst), List.lookup_cons, List.lookup_cons, ih]

/-- What is put at a place stands there, and nothing else changes. -/
lemma entryAt?_put {entry : FileEntry} (h : place ≠ []) (other : List String) :
    (tree.put place entry).entryAt? other =
      if other = place then some entry else tree.entryAt? other := by
  cases other with
  | nil => rw [if_neg (Ne.symm h)]; rfl
  | cons name rest =>
    change ((place, entry) :: tree.entries.filter (·.1 ≠ place)).lookup (name :: rest) = _
    rw [List.lookup_cons]
    split
    · next heq => rw [if_pos (by simpa using heq)]
    · next hne =>
      have hplace : name :: rest ≠ place := by simpa using hne
      rw [if_neg hplace, lookup_filter_of_ne hplace]
      rfl

/-- A file that is put at a place stands there, a directory does not count as one, and no other file
changes. -/
lemma file?_put {entry : FileEntry} (h : place ≠ []) (other : List String) :
    (tree.put place entry).file? other =
      if other = place then entry.content? else tree.file? other := by
  rw [file?, entryAt?_put h]
  split <;> rfl

/-! ## Ways through a tree -/

/-- A place is a directory if one stands there, and leads to itself. -/
lemma directory_eq_ok_iff :
    tree.directory place = .ok other ↔ tree.entryAt? place = some .directory ∧ place = other := by
  unfold directory
  split
  · next h => simp [h]
  · next h => simp [h]
  · next h => simp [h]

/-- A step out of a directory leads on, unless the name is too long. -/
lemma stepInto_of_directory (h : tree.entryAt? place = some .directory) (name : String) :
    tree.stepInto place name =
      if nameLimit ≤ name.utf8ByteSize then .error .nameTooLong else .ok (step place name) := by
  rw [stepInto, directory_eq_ok_iff.2 ⟨h, rfl⟩]
  change (if nameLimit ≤ name.utf8ByteSize then
      (throw .nameTooLong : Except FileError Unit) >>= fun _ => return step place name
    else return step place name) = _
  split <;> rfl

/-- A step leads out of a directory, by a name that is not too long. -/
lemma stepInto_eq_ok_iff {name : String} :
    tree.stepInto place name = .ok other ↔
      tree.entryAt? place = some .directory ∧ name.utf8ByteSize < nameLimit ∧
        step place name = other := by
  by_cases hplace : tree.entryAt? place = some .directory
  · rw [stepInto_of_directory hplace]
    split
    · next hlong => exact iff_of_false nofun fun hshort => absurd hshort.2.1 (Nat.not_lt.2 hlong)
    · next hshort => simp [hplace, Nat.lt_of_not_le hshort]
  · refine iff_of_false (fun hok => ?_) fun hok => hplace hok.1
    obtain ⟨_, hdirectory, -⟩ := bind_eq_ok_iff.1 hok
    exact hplace (directory_eq_ok_iff.1 hdirectory).1

/-- The first name is followed first. -/
lemma follow_cons (name : String) (names : List String) :
    tree.follow place (name :: names) =
      tree.stepInto place name >>= fun next => tree.follow next names :=
  List.foldlM_cons

/-- The last name is followed from where the names before it lead. -/
lemma follow_concat (names : List String) (name : String) :
    tree.follow place (names ++ [name]) =
      tree.follow place names >>= fun next => tree.stepInto next name := by
  rw [follow, List.foldlM_append]
  refine bind_congr fun next => ?_
  rw [List.foldlM_cons]
  exact bind_pure _

/-- The place that the names of a path spell out, whatever stands on the way. -/
def spelled (tree : FileTree) (path : String) : List String :=
  (Path.names path).foldl step (tree.start path)

/-- Names lead to the place that they spell out, if they lead to any. -/
lemma foldl_step_of_follow_eq_ok {names : List String} (h : tree.follow place names = .ok other) :
    names.foldl step place = other := by
  induction names generalizing place with
  | nil => exact Except.ok.inj h
  | cons name names ih =>
    rw [follow_cons, bind_eq_ok_iff] at h
    obtain ⟨next, hstep, hrest⟩ := h
    obtain ⟨-, -, rfl⟩ := stepInto_eq_ok_iff.1 hstep
    exact ih hrest

/-- A path leads to a place if it can be looked up and its names lead there. -/
lemma resolve_eq_ok_iff :
    tree.resolve path = .ok place ↔
      checkPath path = .ok () ∧ tree.follow (tree.start path) (Path.names path) = .ok place := by
  rw [resolve, bind_eq_ok_iff]
  exact ⟨fun ⟨_, hcheck, hfollow⟩ => ⟨hcheck, hfollow⟩, fun h => ⟨(), h⟩⟩

/-- A path leads to the place that its names spell out, if it leads to any. -/
lemma spelled_of_resolve_eq_ok (h : tree.resolve path = .ok place) : tree.spelled path = place :=
  foldl_step_of_follow_eq_ok (resolve_eq_ok_iff.1 h).2

/-- What a path leads to is the entry at its place. -/
lemma find_of_resolve_eq_ok (h : tree.resolve path = .ok place) :
    tree.find path = (tree.entryAt? place).elim (.error .notFound) .ok := by
  rw [find, h]
  dsimp only [Bind.bind, Except.bind]
  cases tree.entryAt? place <;> rfl

/-- Nothing is dropped at the end of a list that keeps its length. -/
lemma reverse_dropWhile_eq_self {α : Type} {p : α → Bool} {l : List α}
    (h : l.length ≤ (l.reverse.dropWhile p).reverse.length) :
    (l.reverse.dropWhile p).reverse = l := by
  have hsuffix := List.dropWhile_suffix p (l := l.reverse)
  have hlength : l.reverse.length ≤ (l.reverse.dropWhile p).length := by
    rw [List.length_reverse] at h ⊢
    exact h
  rw [hsuffix.eq_of_length_le hlength, List.reverse_reverse]

/-- A path without slashes at its end leads to the place at which it names something new. -/
lemma resolve_eq_ok_of_newPlace? (h : tree.newPlace? path = .ok (some (place, false))) :
    tree.resolve path = .ok place := by
  obtain ⟨⟨⟩, hcheck, h⟩ := bind_eq_ok_iff.1 h
  dsimp only at h
  split at h
  · cases h
  · next name hlast =>
    obtain ⟨above, habove, h⟩ := bind_eq_ok_iff.1 h
    obtain ⟨_, hdirectory, h⟩ := bind_eq_ok_iff.1 h
    obtain ⟨-, rfl⟩ := directory_eq_ok_iff.1 hdirectory
    split at h
    · cases h
    · obtain ⟨found, hstep, h⟩ := bind_eq_ok_iff.1 h
      obtain ⟨rfl, hlength⟩ := Prod.mk.inj (Option.some.inj (Except.ok.inj h))
      have hnames := reverse_dropWhile_eq_self (Nat.not_lt.1 (of_decide_eq_false hlength))
      rw [hnames] at hlast habove
      refine resolve_eq_ok_iff.2 ⟨hcheck, ?_⟩
      rw [← List.dropLast_append_getLast? name hlast, follow_concat, habove]
      exact hstep

/-! ## Directories that stay -/

/-- Relative paths start at the same place, and directories of the one tree are directories of the
other. -/
structure KeepsDirectories (before after : FileTree) : Prop where
  /-- Relative paths start at the same place. -/
  here : after.here = before.here
  /-- Directories stay. -/
  directories : ∀ place, before.entryAt? place = some .directory →
    after.entryAt? place = some .directory

/-- What is put at a place leaves the directories, unless it stands in for one. -/
lemma keepsDirectories_put {entry : FileEntry} (hplace : place ≠ [])
    (hentry : tree.entryAt? place ≠ some .directory) :
    tree.KeepsDirectories (tree.put place entry) := by
  refine ⟨rfl, fun other hother => ?_⟩
  rw [entryAt?_put hplace, if_neg, hother]
  rintro rfl
  exact hentry hother

namespace KeepsDirectories

/-- Every tree keeps its own directories. -/
lemma refl (tree : FileTree) : tree.KeepsDirectories tree := ⟨rfl, fun _ h => h⟩

/-- Directories that are kept twice are kept. -/
lemma trans (first : before.KeepsDirectories middle) (second : middle.KeepsDirectories after) :
    before.KeepsDirectories after :=
  ⟨second.here.trans first.here, fun place h => second.directories place (first.directories place h)⟩

variable (h : before.KeepsDirectories after)

include h

/-- Where a path starts does not depend on the entries. -/
lemma start_eq (path : String) : after.start path = before.start path := by
  rw [start, start, h.here]

/-- How a path is spelled does not depend on the entries. -/
lemma spelled_eq (path : String) : after.spelled path = before.spelled path := by
  rw [spelled, spelled, h.start_eq]

/-- Names go on leading to their place. -/
lemma follow_eq_ok {names : List String} (hfollow : before.follow place names = .ok other) :
    after.follow place names = .ok other := by
  induction names generalizing place with
  | nil => exact hfollow
  | cons name names ih =>
    rw [follow_cons, bind_eq_ok_iff] at hfollow ⊢
    obtain ⟨next, hstep, hrest⟩ := hfollow
    obtain ⟨hplace, hname, hnext⟩ := stepInto_eq_ok_iff.1 hstep
    exact ⟨next, stepInto_eq_ok_iff.2 ⟨h.directories place hplace, hname, hnext⟩, ih hrest⟩

/-- **A path goes on leading to its place.** -/
theorem resolve_eq_ok (hresolve : before.resolve path = .ok place) :
    after.resolve path = .ok place := by
  obtain ⟨hcheck, hfollow⟩ := resolve_eq_ok_iff.1 hresolve
  rw [← h.start_eq] at hfollow
  exact resolve_eq_ok_iff.2 ⟨hcheck, h.follow_eq_ok hfollow⟩

end KeepsDirectories

/-! ## Making directories -/

/-- All directories of the one tree are directories of the other, and both have the same files. -/
structure GainsDirectories (before after : FileTree) : Prop extends
    KeepsDirectories before after where
  /-- The files are the same. -/
  files : ∀ place, after.file? place = before.file? place

namespace GainsDirectories

/-- Every tree gains nothing over itself. -/
lemma refl (tree : FileTree) : tree.GainsDirectories tree := ⟨.refl tree, fun _ => rfl⟩

/-- Directories that are gained one after the other are gained. -/
lemma trans (first : before.GainsDirectories middle) (second : middle.GainsDirectories after) :
    before.GainsDirectories after :=
  ⟨first.toKeepsDirectories.trans second.toKeepsDirectories,
    fun place => (second.files place).trans (first.files place)⟩

end GainsDirectories

/-- A directory is made where nothing stands. -/
lemma makeDirectory_gains (h : tree.makeDirectory path = .ok after) :
    tree.GainsDirectories after := by
  obtain ⟨found, -, h⟩ := bind_eq_ok_iff.1 h
  split at h
  · cases h
  · next place _ =>
    split at h
    · cases h
    · next hnone =>
      obtain rfl := Except.ok.inj h
      have hplace : place ≠ [] := by
        rintro rfl
        cases hnone
      refine ⟨keepsDirectories_put hplace (by simp [hnone]), fun other => ?_⟩
      rw [file?_put hplace]
      split
      · next heq => rw [heq, file?, hnone]; rfl
      · rfl

/-- Making a directory and those above it makes nothing else, whether it succeeds or not. -/
lemma makeAll_gains (absolute : Bool) (steps : List String) :
    tree.GainsDirectories (tree.makeAll absolute steps).2 := by
  induction steps with
  | nil => exact .refl tree
  | cons name above ih =>
    rw [makeAll]
    split
    · next h => exact makeDirectory_gains h
    · -- The directories above were made first, and then this one is tried again.
      split
      · next h => rwa [h] at ih
      · next middle h =>
        have hmiddle : tree.GainsDirectories middle := by rwa [h] at ih
        split
        · next hagain => exact hmiddle.trans (makeDirectory_gains hagain)
        · exact hmiddle
    · exact .refl tree

/-- **Making directories** makes nothing else, whether it succeeds or not. -/
theorem makeDirectories_gains (tree : FileTree) (path : String) :
    tree.GainsDirectories (tree.makeDirectories path).2 := by
  rw [makeDirectories]
  split
  · exact .refl tree
  · exact makeAll_gains _ _

/-! ## Writing files -/

/-- **A file is written** at the place that its path leads to. -/
theorem exists_put_of_write_eq_ok {content : ByteArray} (h : tree.write path content = .ok after) :
    ∃ place, tree.resolve path = .ok place ∧ place ≠ [] ∧ tree.entryAt? place ≠ some .directory ∧
      after = tree.put place (.file content) := by
  obtain ⟨found, hfound, h⟩ := bind_eq_ok_iff.1 h
  split at h
  · cases h
  · cases h
  · next place =>
    split at h
    · cases h
    · next hentry =>
      refine ⟨place, resolve_eq_ok_of_newPlace? hfound, ?_, hentry, (Except.ok.inj h).symm⟩
      rintro rfl
      exact hentry rfl

/-- A file is written where its path names something new and no directory stands. -/
lemma write_eq_ok {content : ByteArray} (hplace : tree.newPlace? path = .ok (some (place, false)))
    (hentry : tree.entryAt? place ≠ some .directory) :
    tree.write path content = .ok (tree.put place (.file content)) := by
  refine bind_eq_ok_iff.2 ⟨_, hplace, ?_⟩
  dsimp only
  split
  · next hdirectory => exact absurd hdirectory hentry
  · rfl

end FileTree

end BoundSql
