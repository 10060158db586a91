import BoundSql.Proofs.Files.Closed
import BoundSql.Proofs.Schema.RoundTrip
import BoundSql.Schema.Session

/-!
# Schemas in files

Loading a schema only reads. Saving one makes the directory of its file, then writes the file; what
fails on the way leaves at most directories behind. Generating the sample first looks whether the
path leads to something. That spares the files that are there, with one exception: a path that goes
into a missing directory and out of it again leads to nothing until the directory is made.

## Main definitions

* `BoundSql.Schema.loaded` — what is loaded, given what is read.
* `BoundSql.FileTree.Wrote` — between two trees, a file was written and all else was kept.
* `BoundSql.Schema.SparesFiles` — generating changes no file that is there.

## Main results

* `BoundSql.Schema.load_run`, `BoundSql.Schema.save_cases`, `BoundSql.Schema.generate_cases` — what
  loading, saving and generating do to the files.
* `BoundSql.Schema.sparesFiles_iff` — when generating spares the files.
* `BoundSql.Schema.generate_overwrites` — a file that it does not spare.
-/

namespace BoundSql

open FileTree

/-! ## Files that are written -/

namespace FileTree

/-- Between two trees a content was written to the file that a path denotes. Directories on the way
may have been made for it, and all else is as it was. -/
structure Wrote (before after : FileTree) (path : String) (place : List String)
    (content : ByteArray) : Prop extends KeepsDirectories before after where
  /-- The path denotes the place of the file. -/
  resolve : after.resolve path = .ok place
  /-- The file has the content, and no other file changed. -/
  files : ∀ other, after.file? other = if other = place then some content else before.file? other
  /-- The path denoted the place before, too, unless a directory was missing. -/
  before : before.resolve path = .ok place ∨ before.MissesDirectory path

/-- A file is written behind directories that are made. -/
lemma GainsDirectories.exists_wrote {before middle after : FileTree} {path : String}
    {content : ByteArray} (h : before.GainsDirectories middle)
    (hwrite : middle.write path content = .ok after) :
    ∃ place, before.Wrote after path place content := by
  obtain ⟨place, hresolve, hplace, hentry, rfl⟩ := exists_put_of_write_eq_ok hwrite
  have hkeeps : middle.KeepsDirectories (middle.put place (.file content)) :=
    keepsDirectories_put hplace hentry
  refine ⟨place, h.toKeepsDirectories.trans hkeeps, hkeeps.resolve_eq_ok hresolve, ?_,
    h.resolve_before hresolve⟩
  intro other
  rw [file?_put hplace, h.files]
  rfl

end FileTree

namespace Schema

/-! ## Files -/

section Files

variable {tree : FileTree} {path : String} {place : List String}

/-- The directory of a file is made, and nothing else. -/
lemma makeParent_gains (path : String) (tree : FileTree) :
    tree.GainsDirectories ((makeParent path : FileTree.Run _).run tree).2 := by
  rw [makeParent]
  split
  · split
    · exact .refl tree
    · exact tree.makeDirectories_gains _
  · exact .refl tree

/-- A file is written, or its tree stays as it is. -/
lemma writeFile_run (path : String) (content : ByteArray) (tree : FileTree) :
    (FileSystem.writeFile path content : FileTree.Run _).run tree =
      match tree.write path content with
      | .ok changed => (.ok (), changed)
      | .error e => (.error e, tree) :=
  rfl

/-- Where a path leads to nothing, no file stands. -/
lemma file?_of_has_eq_false (hhas : tree.has path = false)
    (hresolve : tree.resolve path = .ok place) :
    tree.file? place = none := by
  rw [has, find_of_resolve_eq_ok hresolve] at hhas
  rw [file?]
  cases hentry : tree.entryAt? place with
  | none => rfl
  | some entry => simp [hentry, Except.toOption] at hhas

end Files

section Library

variable [Toml.Library] {tree : FileTree} {path text : String} {schema : Schema}
  {place : List String}

/-! ## Loading -/

/-- What is loaded from a path, given what is read there. -/
def loaded (path : String) : Except FileError ByteArray → Except SchemaError Schema
  | .ok content =>
    match String.fromUTF8? content with
    | some text => ofText text
    | none => .error (.file .notText)
  | .error .notFound => .error (.notFound path)
  | .error e => .error (.file e)

/-- Loading a schema reads one file and changes nothing. -/
lemma load_run (path : String) (tree : FileTree) :
    (load path : FileTree.Run _).run tree = (loaded path (tree.read path), tree) := by
  have hread : (FileSystem.readText path : FileTree.Run _).run tree =
      ((tree.read path).bind fun content =>
        (String.fromUTF8? content).elim (Except.error FileError.notText) Except.ok, tree) := by
    have hfile : (FileSystem.readFile path : FileTree.Run _).run tree = (tree.read path, tree) := rfl
    rw [FileSystem.readText, StateT.run_bind, hfile]
    cases tree.read path with
    | ok content =>
      change (match String.fromUTF8? content with | some text => _ | none => _ : FileTree.Run _).run
        tree = ((String.fromUTF8? content).elim (Except.error FileError.notText) Except.ok, tree)
      cases String.fromUTF8? content <;> rfl
    | error e => rfl
  rw [load, StateT.run_bind, hread]
  cases tree.read path with
  | ok content =>
    dsimp only [Except.bind, loaded]
    cases String.fromUTF8? content <;> rfl
  | error e => cases e <;> rfl

/-- The schema that a text describes is loaded from a file that holds the text. -/
lemma load_run_of_file? (hresolve : tree.resolve path = .ok place)
    (hfile : tree.file? place = some text.toUTF8) :
    (load path : FileTree.Run _).run tree = (ofText text, tree) := by
  have hfind : tree.find path = .ok (.file text.toUTF8) := by
    rw [find_of_resolve_eq_ok hresolve, file?_eq_some_iff.1 hfile]
    rfl
  have hread : tree.read path = .ok text.toUTF8 := by
    rw [FileTree.read, hfind]
    rfl
  have htext : String.fromUTF8? text.toUTF8 = some text := dif_pos text.isValidUTF8
  rw [load_run, hread, loaded, htext]

/-! ## Saving -/

/-- Without a text, nothing is done. -/
lemma save_run_of_error {e : SchemaError} (htext : schema.toText = .error e) (path : String)
    (tree : FileTree) : (schema.save path : FileTree.Run _).run tree = (.error e, tree) := by
  delta save
  rw [htext]
  rfl

/-- A schema is saved by making the directory of its file, then writing the file. -/
lemma save_run (htext : schema.toText = .ok text) (path : String) (tree : FileTree) :
    (schema.save path : FileTree.Run _).run tree =
      match (makeParent path : FileTree.Run _).run tree with
      | (.error e, middle) => (.error (.file e), middle)
      | (.ok _, middle) =>
        match middle.write path text.toUTF8 with
        | .error e => (.error (.file e), middle)
        | .ok after => (.ok (), after) := by
  delta save
  rw [htext]
  simp only [StateT.run_bind]
  cases (makeParent path : FileTree.Run _).run tree with
  | mk result middle =>
    cases result with
    | error e => rfl
    | ok _ =>
      change (FileSystem.writeFile path text.toUTF8 >>= fun written =>
        pure (written.mapError SchemaError.file) : FileTree.Run _).run middle = _
      rw [StateT.run_bind, writeFile_run]
      dsimp only
      cases middle.write path text.toUTF8 <;> rfl

/-- A schema is saved over a file that is there. -/
lemma save_run_of_file? {middle : FileTree} {old : ByteArray} (htext : schema.toText = .ok text)
    (hparent : (makeParent path : FileTree.Run _).run tree = (.ok (), middle))
    (hplace : middle.newPlace? path = .ok (some (place, false)))
    (hfile : tree.file? place = some old) :
    (schema.save path : FileTree.Run _).run tree =
      (.ok (), middle.put place (.file text.toUTF8)) := by
  have hentry : middle.entryAt? place = some (.file old) := by
    have hgains := makeParent_gains path tree
    rw [hparent] at hgains
    exact file?_eq_some_iff.1 ((hgains.files place).trans hfile)
  rw [save_run htext, hparent]
  dsimp only
  rw [write_eq_ok hplace (by simp [hentry])]

/-- **What saving does**: it fails, and at most directories were made, or the text of the schema was
written to the file that the path denotes. -/
theorem save_cases (schema : Schema) (path : String) (tree : FileTree) :
    (∃ e after, (schema.save path : FileTree.Run _).run tree = (.error e, after) ∧
      tree.GainsDirectories after) ∨
    ∃ text after place, schema.toText = .ok text ∧
      (schema.save path : FileTree.Run _).run tree = (.ok (), after) ∧
      tree.Wrote after path place text.toUTF8 := by
  cases htext : schema.toText with
  | error e => exact .inl ⟨e, tree, save_run_of_error htext path tree, .refl tree⟩
  | ok text =>
    have hparent := makeParent_gains path tree
    rw [save_run htext]
    cases hrun : (makeParent path : FileTree.Run _).run tree with
    | mk result middle =>
      rw [hrun] at hparent
      cases result with
      | error e => exact .inl ⟨.file e, middle, rfl, hparent⟩
      | ok _ =>
        dsimp only
        cases hwrite : middle.write path text.toUTF8 with
        | error e => exact .inl ⟨.file e, middle, rfl, hparent⟩
        | ok after =>
          obtain ⟨place, hwrote⟩ := hparent.exists_wrote hwrite
          exact .inr ⟨text, after, place, rfl, rfl, hwrote⟩

/-! ## Generating -/

/-- The sample is saved unless the path leads to something. -/
lemma generate_run (path : String) (tree : FileTree) :
    (generate path : FileTree.Run _).run tree =
      if tree.has path then (.error (.alreadyExists path), tree)
      else (sample.save path : FileTree.Run _).run tree := by
  change (if tree.has path then pure (.error (.alreadyExists path))
    else sample.save path : FileTree.Run _).run tree = _
  split <;> rfl

/-- What is asked of generating a schema file: no file that is there changes, and if it succeeds,
there is one new file, which holds the text of the sample. -/
structure SparesFiles (tree : FileTree) (path : String) : Prop where
  /-- The files that are there keep their content. -/
  kept : ∀ place content, tree.file? place = some content →
    ((generate path : FileTree.Run _).run tree).2.file? place = some content
  /-- Success makes a file that was not there, and nothing else. -/
  created : ((generate path : FileTree.Run _).run tree).1 = .ok () →
    ∃ text place, sample.toText = .ok text ∧ tree.file? place = none ∧
      ∀ other, ((generate path : FileTree.Run _).run tree).2.file? other =
        if other = place then some text.toUTF8 else tree.file? other

/-- **What generating does**: it fails, and at most directories were made, or the text of the sample
was written to the file that the path denotes, though the path led to nothing. -/
theorem generate_cases (path : String) (tree : FileTree) :
    (∃ e after, (generate path : FileTree.Run _).run tree = (.error e, after) ∧
      tree.GainsDirectories after) ∨
    ∃ text after place, sample.toText = .ok text ∧
      (generate path : FileTree.Run _).run tree = (.ok (), after) ∧
      tree.Wrote after path place text.toUTF8 ∧ tree.has path = false := by
  rw [generate_run]
  split
  · exact .inl ⟨_, tree, rfl, .refl tree⟩
  · next hhas =>
    rcases save_cases sample path tree with hfails | ⟨text, after, place, htext, hrun, hwrote⟩
    · exact .inl hfails
    · exact .inr ⟨text, after, place, htext, hrun, hwrote, Bool.eq_false_iff.2 hhas⟩

/-- A run that fails spares the files that are there. -/
lemma sparesFiles_of_error {e : SchemaError} {after : FileTree}
    (hrun : (generate path : FileTree.Run _).run tree = (.error e, after))
    (hgains : tree.GainsDirectories after) : SparesFiles tree path := by
  refine ⟨fun place content hfile => ?_, fun hok => ?_⟩
  · rw [hrun]
    exact (hgains.files place).trans hfile
  · rw [hrun] at hok
    cases hok

/-- A run that writes where the path led to nothing spares the files that are there, unless the path
leads back to one of them. -/
lemma sparesFiles_iff_of_wrote {after : FileTree} (htext : sample.toText = .ok text)
    (hrun : (generate path : FileTree.Run _).run tree = (.ok (), after))
    (hwrote : tree.Wrote after path place text.toUTF8) (hhas : tree.has path = false) :
    SparesFiles tree path ↔ ¬ tree.LeadsBack path := by
  have hplace : tree.spelled path = place :=
    (hwrote.spelled_eq path).symm.trans (spelled_of_resolve_eq_ok hwrote.resolve)
  constructor
  · rintro hspares ⟨-, hfile⟩
    -- The new file can only be the one that was written, and there was a file at its place.
    have hcreated := hspares.created
    rw [hrun] at hcreated
    obtain ⟨_, new, -, hnone, hfiles⟩ := hcreated rfl
    have hnew := hfiles new
    rw [hwrote.files, if_pos rfl] at hnew
    split at hnew
    · next heq =>
      rw [hplace, ← heq, hnone] at hfile
      cases hfile
    · cases hnone.symm.trans hnew
  · intro hback
    have hnone : tree.file? place = none := by
      rcases hwrote.before with hresolve | hmisses
      · exact file?_of_has_eq_false hhas hresolve
      · by_contra hfile
        refine hback ⟨hmisses, ?_⟩
        rwa [hplace, Option.isSome_iff_ne_none]
    refine ⟨fun other content hfile => ?_, fun _ => ⟨text, place, htext, hnone, ?_⟩⟩
    · rw [hrun, hwrote.files, if_neg]
      · exact hfile
      · rintro rfl
        cases hnone.symm.trans hfile
    · rw [hrun]
      exact hwrote.files

/-- **Generating spares the files that are there**, unless it succeeds with a path that leads
through a missing directory back to one of them. In a tree of files and directories, such a path
goes through two dots.

**Proof sketch.** Success writes to the place that the path spells out (`generate_cases`). If the
path denoted that place before, nothing stood there, or else the path would have led to something.
If it did not, a directory on its way was missing, and whether there is a file at the place is just
whether the path leads back. -/
theorem sparesFiles_iff (tree : FileTree) (path : String) :
    (SparesFiles tree path ↔
      ¬ (tree.LeadsBack path ∧ ((generate path : FileTree.Run _).run tree).1 = .ok ())) ∧
    (tree.IsClosed → tree.LeadsBack path → ".." ∈ Path.names path) := by
  refine ⟨?_, fun hclosed hback => hclosed.dots_of_leadsBack hback⟩
  rcases generate_cases path tree with
    ⟨e, after, hrun, hgains⟩ | ⟨text, after, place, htext, hrun, hwrote, hhas⟩
  · refine iff_of_true (sparesFiles_of_error hrun hgains) fun hok => ?_
    rw [hrun] at hok
    cases hok.2
  · rw [sparesFiles_iff_of_wrote htext hrun hwrote hhas, hrun]
    simp

end Library

/-- A tree with one file, which holds a schema without tables. -/
def emptySchemaFile : FileTree where
  entries := [(["x.toml"], .file "tables = []\n".toUTF8)]

/-- The one file stands in a directory. -/
lemma isClosed_emptySchemaFile : emptySchemaFile.IsClosed := by
  intro place name hentry
  cases place with
  | nil => rfl
  | cons first rest =>
    have hne : (first :: rest ++ [name] == ["x.toml"]) = false := by simp
    refine absurd ?_ hentry
    change List.lookup (first :: rest ++ [name]) [(["x.toml"], _)] = none
    rw [List.lookup_cons, hne]
    rfl

/-- A path through a directory that is missing leads back to the file. -/
lemma leadsBack_emptySchemaFile : emptySchemaFile.LeadsBack "a/../x.toml" := by
  have hmisses : emptySchemaFile.follow (emptySchemaFile.start "a/../x.toml")
      (Path.names "a/../x.toml") = .error .notFound := by decide +kernel
  exact ⟨hmisses, by decide +kernel⟩

/-- **Generating overwrites a file** to which a path leads back. -/
theorem generate_overwrites :
    emptySchemaFile.IsClosed ∧
      emptySchemaFile.file? ["x.toml"] = some "tables = []\n".toUTF8 ∧
      (∃ text after, sample.toText = .ok text ∧ text ≠ "tables = []\n" ∧
        (generate "a/../x.toml" : FileTree.Run _).run emptySchemaFile = (.ok (), after) ∧
        after.file? ["x.toml"] = some text.toUTF8) ∧
      ¬ ∀ tree : FileTree, tree.IsClosed → ∀ path, SparesFiles tree path := by
  have hfile : emptySchemaFile.file? ["x.toml"] = some "tables = []\n".toUTF8 := by decide +kernel
  obtain ⟨text, htext, hread⟩ := exists_toText (by rfl : sample.resolve = .ok ())
  have hold : text ≠ "tables = []\n" := by
    rintro rfl
    have hempty : ofText "tables = []\n" = .ok {} := by decide +kernel
    cases hempty.symm.trans hread
  -- The directory `a` is made, and from it the path leads to the file.
  obtain ⟨middle, hparent, hplace⟩ : ∃ middle,
      (makeParent "a/../x.toml" : FileTree.Run _).run emptySchemaFile = (.ok (), middle) ∧
        middle.newPlace? "a/../x.toml" = .ok (some (["x.toml"], false)) := by
    refine ⟨_, Prod.ext (?_ : _ = Except.ok ()) rfl, ?_⟩ <;> decide +kernel
  have hrun : (generate "a/../x.toml" : FileTree.Run _).run emptySchemaFile =
      (.ok (), middle.put ["x.toml"] (.file text.toUTF8)) := by
    have hhas : emptySchemaFile.has "a/../x.toml" = false := by decide +kernel
    rw [generate_run, hhas, if_neg Bool.false_ne_true]
    exact save_run_of_file? htext hparent hplace hfile
  have hafter : (middle.put ["x.toml"] (.file text.toUTF8)).file? ["x.toml"] =
      some text.toUTF8 := by
    rw [file?_put (by simp), if_pos rfl]
    rfl
  refine ⟨isClosed_emptySchemaFile, hfile, ⟨text, _, htext, hold, hrun, hafter⟩, fun hspares => ?_⟩
  have hkept := (hspares _ isClosed_emptySchemaFile "a/../x.toml").kept _ _ hfile
  rw [hrun, hafter] at hkept
  exact hold (String.toByteArray_inj.1 (Option.some.inj hkept))

/-- A path that leads back, and one that does not. -/
theorem sparesFiles_iff_emptySchemaFile :
    emptySchemaFile.IsClosed ∧ emptySchemaFile.LeadsBack "a/../x.toml" ∧
      ".." ∈ Path.names "a/../x.toml" ∧ SparesFiles emptySchemaFile "conf/x.toml" := by
  obtain ⟨-, hdots⟩ := sparesFiles_iff emptySchemaFile "a/../x.toml"
  obtain ⟨hspares, hnever⟩ := sparesFiles_iff emptySchemaFile "conf/x.toml"
  refine ⟨isClosed_emptySchemaFile, leadsBack_emptySchemaFile,
    hdots isClosed_emptySchemaFile leadsBack_emptySchemaFile, hspares.2 fun hback => ?_⟩
  exact absurd (hnever isClosed_emptySchemaFile hback.1) (by decide +kernel)

end Schema

end BoundSql
