import BoundSql.Proofs.Schema.Storage

/-!
# Runs of sessions

Whatever is done in a session, in any order, a schema file changes only when an action that saves a
schema succeeds, and then no other file does. So what was saved is loaded again until the file is
written once more, by whatever path.

## Main definitions

* `BoundSql.Schema.Session.target?` — the path and the schema that an action saves.
* `BoundSql.Schema.Session.Writes` — an action succeeds and writes the file at a place.
* `BoundSql.Schema.Session.Spares` — none of some actions writes the file at a place.
* `BoundSql.FileTree.Holds` — a path leads to a file with a content.

## Main results

* `BoundSql.Schema.Session.perform_cases` — what one action does to the files.
* `BoundSql.Schema.Session.holds_run` — what several actions leave as it is.
* `BoundSql.Schema.Session.run_contract` — what is written, and what is loaded again.
-/

namespace BoundSql

/-- A path leads to a file with a content. -/
structure FileTree.Holds (tree : FileTree) (path : String) (place : List String)
    (content : ByteArray) : Prop where
  /-- The path leads to the place. -/
  resolve : tree.resolve path = .ok place
  /-- The file at the place has the content. -/
  file : tree.file? place = some content

namespace Schema.Session

section Library

variable [Toml.Library] {session : Session} {path : String} {place : List String}
  {content : ByteArray}

/-! ## Single actions -/

/-- The path and the schema that an action saves, if it saves one. -/
def target? (session : Session) : Action → Option (String × Schema)
  | .generate => some (session.path, sample)
  | .save path schema => some (path, schema)
  | .setPath _ => none
  | .loadCurrent => none
  | .load _ => none

/-- Saving a schema in a session is saving it among the files. -/
lemma perform_save {schema : Schema} {after : FileTree}
    (h : (schema.save path : FileTree.Run _).run session.files = (.ok (), after)) :
    session.perform (.save path schema) = (.ok none, { session with files := after }) := by
  rw [perform, onFiles, h]
  rfl

/-- **What one action does to the files**: nothing, if it saves no schema. If it saves one, it
fails, and at most directories were made, or the text of the schema was written to the file that the
path denotes. -/
theorem perform_cases (session : Session) (action : Action) :
    (session.target? action = none ∧ (session.perform action).2.files = session.files) ∨
    ∃ path schema, session.target? action = some (path, schema) ∧
      ((∃ e, (session.perform action).1 = .error e ∧
          session.files.GainsDirectories (session.perform action).2.files) ∨
        ∃ text place, schema.toText = .ok text ∧ (session.perform action).1 = .ok none ∧
          session.files.Wrote (session.perform action).2.files path place text.toUTF8) := by
  cases action with
  | setPath path => exact .inl ⟨rfl, rfl⟩
  | loadCurrent => exact .inl ⟨rfl, congrArg Prod.snd (load_run session.path session.files)⟩
  | load path => exact .inl ⟨rfl, congrArg Prod.snd (load_run path session.files)⟩
  | generate =>
    refine .inr ⟨session.path, sample, rfl, ?_⟩
    rcases generate_cases session.path session.files with
      ⟨e, after, hrun, hgains⟩ | ⟨text, after, place, htext, hrun, hwrote, -⟩
    · left
      rw [perform, onFiles, hrun]
      exact ⟨e, rfl, hgains⟩
    · right
      rw [perform, onFiles, hrun]
      exact ⟨text, place, htext, rfl, hwrote⟩
  | save path schema =>
    refine .inr ⟨path, schema, rfl, ?_⟩
    rcases save_cases schema path session.files with
      ⟨e, after, hrun, hgains⟩ | ⟨text, after, place, htext, hrun, hwrote⟩
    · left
      rw [perform, onFiles, hrun]
      exact ⟨e, rfl, hgains⟩
    · right
      rw [perform_save hrun]
      exact ⟨text, place, htext, rfl, hwrote⟩

/-- A schema is loaded by a path, and as the schema of the session while that is its path. -/
structure Reloads (session : Session) (path : String) (schema : Schema) : Prop where
  /-- The schema is loaded by the path. -/
  load : session.perform (.load path) = (.ok (some schema), session)
  /-- The schema is that of the session if the path is. -/
  current : session.path = path → session.perform .loadCurrent = (.ok (some schema), session)

/-- The schema that a text describes is loaded by the path of a file that holds the text. -/
lemma reloads_of_holds {text : String} {schema : Schema}
    (h : session.files.Holds path place text.toUTF8) (htext : ofText text = .ok schema) :
    session.Reloads path schema := by
  have hload := load_run_of_file? h.resolve h.file
  rw [htext] at hload
  constructor
  · rw [perform, onFiles, hload]
    rfl
  · rintro rfl
    rw [perform, onFiles, hload]
    rfl

/-! ## Several actions -/

/-- An action succeeds and writes the file at a place. -/
def Writes (session : Session) (action : Action) (place : List String) : Prop :=
  (∃ answer, (session.perform action).1 = .ok answer) ∧
    ∃ path schema, session.target? action = some (path, schema) ∧
      (session.perform action).2.files.resolve path = .ok place

/-- None of the actions, done one after the other, writes the file at a place. -/
def Spares (place : List String) : Session → List Action → Prop
  | _, [] => True
  | session, action :: rest =>
    ¬ session.Writes action place ∧ Spares place (session.perform action).2 rest

/-- A path goes on leading to a file with a content while an action does not write the file. -/
lemma holds_perform {action : Action} (h : session.files.Holds path place content)
    (hspares : ¬ session.Writes action place) :
    (session.perform action).2.files.Holds path place content := by
  rcases session.perform_cases action with ⟨-, hfiles⟩ | ⟨target, schema, htarget, hsave⟩
  · rwa [hfiles]
  · rcases hsave with ⟨e, -, hgains⟩ | ⟨text, written, -, hok, hwrote⟩
    · exact ⟨hgains.resolve_eq_ok h.resolve, (hgains.files place).trans h.file⟩
    · refine ⟨hwrote.resolve_eq_ok h.resolve, ?_⟩
      rw [hwrote.files, if_neg]
      · exact h.file
      · rintro rfl
        exact hspares ⟨⟨_, hok⟩, target, schema, htarget, hwrote.resolve⟩

/-- **What several actions leave as it is**: a path goes on leading to a file with a content while
none of them writes the file. -/
theorem holds_run {actions : List Action} (h : session.files.Holds path place content)
    (hspares : Spares place session actions) :
    (session.run actions).files.Holds path place content := by
  -- By induction on the actions; what the next one must spare is the same place.
  induction actions generalizing session with
  | nil => exact h
  | cons action rest ih => exact ih (holds_perform h hspares.1) hspares.2

/-- A session performs its actions in order. -/
lemma run_append (session : Session) (actions : List Action) (action : Action)
    (later : List Action) : session.run (actions ++ action :: later) =
      ((session.run actions).perform action).2.run later := by
  rw [run, List.foldl_append]
  rfl

/-- **What is written in a session, and what is loaded again.** After any actions from any start,
the next one leaves the files as they are unless it saves a schema. If it fails, no file has changed
and none is new. If it saves a schema and succeeds, the file that the path denotes holds the text of
the schema and no other file has changed; and if the schema is an accepted one, it is loaded again
as long as no further action writes the file.

**Proof sketch.** One action changes at most the file that it writes (`perform_cases`), and none
takes a directory away. So the path goes on leading to the file with the text (`holds_run`), from
which the schema is read back (`exists_toText`). -/
theorem run_contract [Toml.LawfulLibrary] {start before after : Session} {actions : List Action}
    {action : Action}
    {answer : Except SchemaError (Option Schema)} (hbefore : start.run actions = before)
    (hafter : before.perform action = (answer, after)) :
    (before.target? action = none → after.files = before.files) ∧
    (∀ e, answer = .error e → ∀ place, after.files.file? place = before.files.file? place) ∧
    ∀ path schema told, before.target? action = some (path, schema) → answer = .ok told →
      ∃ text place, schema.toText = .ok text ∧ after.files.resolve path = .ok place ∧
        (∀ other, after.files.file? other =
          if other = place then some text.toUTF8 else before.files.file? other) ∧
        (schema.resolve = .ok () → ∀ later, Spares place after later →
          (start.run (actions ++ action :: later)).Reloads path schema) := by
  have hcases := before.perform_cases action
  rw [hafter] at hcases
  rcases hcases with ⟨hnone, hfiles⟩ | ⟨path, schema, htarget, hfails | hsaves⟩
  · refine ⟨fun _ => hfiles, fun _ _ place => by rw [hfiles], fun path schema told htarget => ?_⟩
    cases hnone.symm.trans htarget
  · obtain ⟨e, hanswer, hgains⟩ := hfails
    refine ⟨fun hnone => ?_, fun _ _ => hgains.files, fun _ _ told _ hok => ?_⟩
    · cases hnone.symm.trans htarget
    · cases hanswer.symm.trans hok
  · obtain ⟨text, place, htext, hanswer, hwrote⟩ := hsaves
    refine ⟨fun hnone => ?_, fun e herror => ?_, fun path' schema' told htarget' hok => ?_⟩
    · cases hnone.symm.trans htarget
    · cases hanswer.symm.trans herror
    · obtain ⟨rfl, rfl⟩ := Prod.mk.inj (Option.some.inj (htarget.symm.trans htarget'))
      refine ⟨text, place, htext, hwrote.resolve, hwrote.files, fun haccepted later hspares => ?_⟩
      obtain ⟨text', htext', hread⟩ := exists_toText haccepted
      obtain rfl : text = text' := Except.ok.inj (htext.symm.trans htext')
      have hholds : after.files.Holds path place text.toUTF8 :=
        ⟨hwrote.resolve, (hwrote.files place).trans (if_pos rfl)⟩
      have hrun : start.run (actions ++ action :: later) = after.run later := by
        rw [run_append, hbefore, hafter]
      rw [hrun]
      exact reloads_of_holds (holds_run hholds hspares) hread

end Library

/-- A schema is saved over another one, and loaded again after the session went on elsewhere. -/
theorem run_contract_emptySchemaFile :
    sample.resolve = .ok () ∧ ∃ after : Session,
      (Session.run { files := emptySchemaFile } [.setPath "x.toml"]).perform
        (.save "x.toml" sample) = (.ok none, after) ∧
      (∀ place, Spares place after [.setPath "y.toml", .loadCurrent]) ∧
      (Session.run { files := emptySchemaFile } [.setPath "x.toml", .save "x.toml" sample,
        .setPath "y.toml", .loadCurrent]).Reloads "x.toml" sample := by
  have hresolve : sample.resolve = .ok () := by rfl
  obtain ⟨text, htext, -⟩ := exists_toText hresolve
  obtain ⟨middle, hparent, hplace⟩ : ∃ middle,
      (makeParent "x.toml" : FileTree.Run _).run emptySchemaFile = (.ok (), middle) ∧
        middle.newPlace? "x.toml" = .ok (some (["x.toml"], false)) := by
    refine ⟨_, Prod.ext (?_ : _ = Except.ok ()) rfl, ?_⟩ <;> decide +kernel
  have hrun := save_run_of_file? htext hparent hplace
    (by decide +kernel : emptySchemaFile.file? ["x.toml"] = some "tables = []\n".toUTF8)
  have hperform : (Session.run { files := emptySchemaFile } [.setPath "x.toml"]).perform
      (.save "x.toml" sample) =
        (.ok none, ⟨middle.put ["x.toml"] (.file text.toUTF8), "x.toml"⟩) :=
    perform_save hrun
  have hspares : ∀ place, Spares place ⟨middle.put ["x.toml"] (.file text.toUTF8), "x.toml"⟩
      [.setPath "y.toml", .loadCurrent] := by
    intro place
    refine ⟨?_, ?_, trivial⟩
    · rintro ⟨-, path, schema, htarget, -⟩
      cases htarget
    · rintro ⟨-, path, schema, htarget, -⟩
      cases htarget
  refine ⟨hresolve, _, hperform, hspares, ?_⟩
  obtain ⟨-, -, hcontract⟩ := run_contract rfl hperform
  obtain ⟨_, place, -, -, -, hreloads⟩ := hcontract "x.toml" sample none rfl rfl
  exact hreloads hresolve _ (hspares place)

end Schema.Session

end BoundSql
