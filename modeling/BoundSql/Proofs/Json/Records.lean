import BoundSql.Proofs.Json.Lossless
import BoundSql.Table.Definition

/-!
# Which texts are read as records

A text is read as records exactly if it writes an object of scalars or an array of such objects. The
records are the members of these objects, with every key in the order of the text. Nothing is read
of a text with a bad element or a bad field in it.

With a lawful library the text printed for records is read as these records, apart from reals: a
number reader may round more than once, so a real can come back as one of its neighbours.

## Main definitions

* `BoundSql.Record.toJson`, `BoundSql.Record.arrayJson` — the documents of a record and of records.
* `BoundSql.Json.IsRecord`, `BoundSql.Json.IsRecords` — the documents that are read as records.
* `BoundSql.Record.ComesBackAs` — what a field of a record is read back as.

## Main results

* `BoundSql.Record.ofJson_eq_ok_iff` — which texts are read as which records.
* `BoundSql.Record.ofJson_of_isText_arrayJson`, `BoundSql.Record.ofJson_of_isText_toJson` — the
  printed texts of records.
* `BoundSql.Record.ofJson_exact` — what is read of records, and of which texts.
-/

namespace BoundSql

/-! ## The documents of records -/

/-- The document of a record. -/
def Record.toJson (record : Record) : Json Value :=
  .object (record.map fun (key, v) => (key, .scalar v))

/-- The document of records. -/
def Record.arrayJson (records : List Record) : Json Value := .array (records.map Record.toJson)

namespace Json

/-- An object all of whose values are scalars. -/
def IsRecord {σ : Type} (document : Json σ) : Prop :=
  ∃ members, document = .object members ∧ ∀ member ∈ members, ∃ v, member.2 = .scalar v

/-- Such an object, or an array all of whose elements are such objects. -/
def IsRecords {σ : Type} (document : Json σ) : Prop :=
  document.IsRecord ∨ ∃ items, document = .array items ∧ ∀ item ∈ items, item.IsRecord

/-! ## Shapes -/

/-- The members of a list are converted one by one. -/
lemma mapM_eq_some_iff {α β : Type} {f : α → Option β} {l : List α} {l' : List β} :
    l.mapM f = some l' ↔ List.Forall₂ (fun a b => f a = some b) l l' := by
  induction l generalizing l' with
  | nil => cases l' <;> simp
  | cons a l ih =>
    simp only [List.mapM_cons, Option.bind_eq_bind, Option.bind_eq_some_iff, ih,
      List.forall₂_cons_left_iff]
    constructor
    · rintro ⟨b, hb, bs, hbs, hl'⟩
      exact ⟨b, bs, hb, hbs, (Option.some.inj hl').symm⟩
    · rintro ⟨b, bs, hb, hbs, rfl⟩
      exact ⟨b, hb, bs, hbs, rfl⟩

/-- Related members of a list make a related list. -/
lemma exists_forall₂ {α β : Type} {R : α → β → Prop} {l : List α} (h : ∀ a ∈ l, ∃ b, R a b) :
    ∃ l', List.Forall₂ R l l' := by
  induction l with
  | nil => exact ⟨[], .nil⟩
  | cons a l ih =>
    obtain ⟨b, hb⟩ := h a List.mem_cons_self
    obtain ⟨l', hl'⟩ := ih fun a ha => h a (List.mem_cons_of_mem _ ha)
    exact ⟨b :: l', .cons hb hl'⟩

/-- A list is converted exactly if each of its members can be. -/
lemma exists_mapM_eq_some_iff {α β : Type} {f : α → Option β} {l : List α} :
    (∃ l', l.mapM f = some l') ↔ ∀ a ∈ l, ∃ b, f a = some b := by
  simp only [mapM_eq_some_iff]
  constructor
  · rintro ⟨l', hl'⟩
    induction hl' with
    | nil => exact nofun
    | cons hab _ ih => exact List.forall_mem_cons.2 ⟨⟨_, hab⟩, ih⟩
  · exact exists_forall₂

section Shapes

variable {document : Json (Scalar Numeral)} {depth : ℕ}

/-- A field of a record is one of an object, with the value that its scalar stands for. -/
lemma map_value?_eq_some_iff {member : String × Json (Scalar Numeral)} {entry : String × Value} :
    member.2.value?.map (member.1, ·) = some entry ↔ entry.1 = member.1 ∧
      Relates (fun s v => Value.ofScalar s = v) depth member.2 (.scalar entry.2) := by
  obtain ⟨key, item⟩ := member
  obtain ⟨key', v⟩ := entry
  rw [relates_scalar_iff]
  cases item with
  | scalar s => simp [value?, eq_comm]
  | array items => simp [value?]
  | object members => simp [value?]

/-- A document is a record if it is an object of scalars. -/
lemma record?_eq_some_iff {record : Record} : document.record? = some record ↔
    Relates (fun s v => Value.ofScalar s = v) (depth + 1) document record.toJson := by
  rw [Record.toJson, relates_object_iff]
  cases document with
  | scalar s => simp [record?]
  | array items => simp [record?]
  | object members =>
    simp only [record?, mapM_eq_some_iff, object.injEq, exists_eq_right',
      List.forall₂_map_right_iff]
    exact ⟨.imp fun _ _ => map_value?_eq_some_iff.1, .imp fun _ _ => map_value?_eq_some_iff.2⟩

/-- **The documents that are read as records.** -/
lemma records?_eq_some_iff {records : List Record} : document.records? = some records ↔
    Relates (fun s v => Value.ofScalar s = v) (depth + 2) document (Record.arrayJson records) ∨
      ∃ record : Record, records = [record] ∧
        Relates (fun s v => Value.ofScalar s = v) (depth + 2) document record.toJson := by
  simp only [← record?_eq_some_iff]
  rw [Record.arrayJson, relates_array_iff]
  cases document with
  | scalar s => simp [records?, record?]
  | array items =>
    simp only [records?, record?, mapM_eq_some_iff, array.injEq, exists_eq_right',
      List.forall₂_map_right_iff, reduceCtorEq, and_false, exists_false, or_false]
    exact ⟨.imp fun _ _ => record?_eq_some_iff.1, .imp fun _ _ => record?_eq_some_iff.2⟩
  | object members =>
    cases hrecord : (Json.object members).record? with
    | none => simp [records?, hrecord]
    | some record => simp [records?, hrecord, eq_comm]

/-- An object is read as a record exactly if its values are scalars. -/
lemma exists_record?_eq_some_iff : (∃ record, document.record? = some record) ↔
    document.IsRecord := by
  cases document with
  | scalar s => simp [record?, IsRecord]
  | array items => simp [record?, IsRecord]
  | object members =>
    simp only [record?, exists_mapM_eq_some_iff, IsRecord, object.injEq, exists_eq_left']
    refine forall₂_congr fun member _ => ?_
    obtain ⟨key, item⟩ := member
    cases item <;> simp [value?]

/-- A document of any other shape is not read. -/
lemma exists_records?_eq_some_iff : (∃ records, document.records? = some records) ↔
    document.IsRecords := by
  unfold IsRecords
  rw [← exists_record?_eq_some_iff]
  simp only [← exists_record?_eq_some_iff]
  cases document with
  | scalar s => simp [records?, record?]
  | array items =>
    simp only [records?, record?, exists_mapM_eq_some_iff, array.injEq, exists_eq_left',
      reduceCtorEq, exists_false, false_or]
  | object members =>
    cases hrecord : (Json.object members).record? with
    | none => simp [records?, hrecord]
    | some record => simp [records?, hrecord]

end Shapes

end Json

/-! ## Texts -/

namespace Record

open Json

/-- A field comes back with its key. A value that is no real comes back as it is, and a finite real
as a finite real, which is the same one if and only if the printer and the reader of numbers agree
on it. -/
structure ComesBackAs [Library] (entry entry' : String × Value) : Prop where
  /-- The key. -/
  key : entry'.1 = entry.1
  /-- A value that is no real. -/
  same : (∀ x, entry.2 ≠ .real x) → entry'.2 = entry.2
  /-- A real. -/
  real : ∀ x, entry.2 = .real x → ∃ y : Binary64, y.isFinite = true ∧ entry'.2 = .real y ∧
    (y = x ↔ AgreeOn x)

section Library

variable [Library] [LawfulLibrary] {record record' : Record} {records records' : List Record}
  {text : String}

/-- **The texts that are read as records.** -/
theorem ofJson_eq_ok_iff : ofJson text = .ok records ↔ Tells text (arrayJson records) ∨
    ∃ record : Record, records = [record] ∧ Tells text record.toJson := by
  rw [ofJson, LawfulLibrary.readAs_eq_ok_iff]
  constructor
  · rintro ⟨read, hread, hshape⟩
    obtain harray | ⟨record, hrecord, hobject⟩ := records?_eq_some_iff.1 hshape
    · exact .inl ⟨read, hread, harray⟩
    · exact .inr ⟨record, hrecord, read, hread, hobject⟩
  · rintro (⟨read, hread, harray⟩ | ⟨record, hrecord, read, hread, hobject⟩)
    · exact ⟨read, hread, records?_eq_some_iff.2 (.inl harray)⟩
    · exact ⟨read, hread, records?_eq_some_iff.2 (.inr ⟨record, hrecord, hobject⟩)⟩

/-- Of a document of another shape nothing is read. -/
lemma exists_ofJson_eq_ok_iff {read : Json (Scalar Numeral)}
    (h : Writes Library.readNumber? maxDepth text.toList read) :
    (∃ records, ofJson text = .ok records) ↔ read.IsRecords := by
  simp only [← exists_records?_eq_some_iff, ofJson, LawfulLibrary.readAs_eq_ok_iff]
  constructor
  · rintro ⟨records, read', hread', hshape⟩
    rw [hread'.unique h] at hshape
    exact ⟨records, hshape⟩
  · rintro ⟨records, hshape⟩
    exact ⟨records, read, h, hshape⟩

/-! ## Printed records -/

/-- A field is read back as one with the key, and with the value that its text is read as. -/
def Rereads (entry entry' : String × Value) : Prop :=
  entry'.1 = entry.1 ∧ entry.2.Rereads entry'.2

omit [LawfulLibrary] in
/-- A record that is read back has the shape of the record. -/
lemma relates_toJson (depth : ℕ) (h : List.Forall₂ Rereads record record') :
    Relates Value.Rereads (depth + 1) record.toJson record'.toJson := by
  refine relates_object ?_
  rw [List.forall₂_map_left_iff, List.forall₂_map_right_iff]
  exact h.imp fun _ _ hentry => ⟨hentry.1, relates_scalar hentry.2 depth⟩

/-- The text of an array of records is read as these records, with the values that their texts are
read as. -/
theorem ofJson_of_isText_arrayJson (h : List.Forall₂ (List.Forall₂ Rereads) records records')
    (htext : (arrayJson records).IsText text) : ofJson text = .ok records' := by
  refine ofJson_eq_ok_iff.2 (.inl (htext.tells (relates_array ?_)))
  rw [List.forall₂_map_left_iff, List.forall₂_map_right_iff]
  exact h.imp fun _ _ => relates_toJson 125

/-- The text of a record is read as this record alone. -/
theorem ofJson_of_isText_toJson (h : List.Forall₂ Rereads record record')
    (htext : record.toJson.IsText text) : ofJson text = .ok [record'] :=
  ofJson_eq_ok_iff.2 (.inr ⟨record', rfl, htext.tells (relates_toJson 126 h)⟩)

/-! ## What comes back -/

/-- The field that a field is read back as. -/
lemma exists_comesBackAs {entry : String × Value} (h : entry.2.IsFinite) :
    ∃ entry', Rereads entry entry' ∧ ComesBackAs entry entry' := by
  obtain ⟨key, v⟩ := entry
  obtain ⟨hother, hread⟩ | ⟨x, y, hreal, -, hy, hread, hsame⟩ := Value.exists_rereads h
  · exact ⟨(key, v), ⟨rfl, hread⟩, rfl, fun _ => rfl, fun x hx => absurd hx (hother x)⟩
  · obtain rfl : v = .real x := hreal
    refine ⟨(key, .real y), ⟨rfl, hread⟩, rfl, fun hother => absurd rfl (hother _), ?_⟩
    rintro _ ⟨⟩
    exact ⟨y, hy, rfl, hsame⟩

/-- The record that a record is read back as. -/
lemma exists_forall₂_comesBackAs (h : ∀ entry ∈ record, entry.2.IsFinite) :
    ∃ record', List.Forall₂ Rereads record record' ∧ List.Forall₂ ComesBackAs record record' := by
  obtain ⟨record', hrecord⟩ :=
    exists_forall₂ fun entry hentry => exists_comesBackAs (h entry hentry)
  exact ⟨record', hrecord.imp fun _ _ => And.left, hrecord.imp fun _ _ => And.right⟩

/-- **Records are read from JSON.** The text of an array of records with finite reals is read as as
many records with the same fields in the same order, repeated keys included. The values that are no
reals are the same; a real comes back as a finite real, which is the same one exactly if the printer
and the reader of numbers agree on it. The text of a record is read as this record alone. A text is
read as records exactly if it says an array of them or a single one, so nothing is read if an
element is no object or a field no scalar.

**Proof sketch.** The reader accepts the texts of the grammar and answers with the documents that
they write, and such a document is taken apart without loss. The text printed for records writes
their literals, which are converted one by one. -/
theorem ofJson_exact :
    (∀ records : List Record, (∀ record ∈ records, ∀ entry ∈ record, entry.2.IsFinite) →
      ∃ records', List.Forall₂ (List.Forall₂ ComesBackAs) records records' ∧
        ∀ text, (arrayJson records).IsText text → ofJson text = .ok records') ∧
    (∀ record : Record, (∀ entry ∈ record, entry.2.IsFinite) →
      ∃ record', List.Forall₂ ComesBackAs record record' ∧
        ∀ text, record.toJson.IsText text → ofJson text = .ok [record']) ∧
    (∀ (text : String) (records : List Record), ofJson text = .ok records ↔
      Tells text (arrayJson records) ∨
        ∃ record : Record, records = [record] ∧ Tells text record.toJson) ∧
    (∀ (text : String) (read : Json (Scalar Numeral)),
      Writes Library.readNumber? maxDepth text.toList read →
      ((∃ records, ofJson text = .ok records) ↔ read.IsRecords)) := by
  refine ⟨?_, ?_, fun text records => ofJson_eq_ok_iff,
    fun text read h => exists_ofJson_eq_ok_iff h⟩
  · intro records hfinite
    obtain ⟨records', hrecords⟩ :=
      exists_forall₂ fun record hrecord => exists_forall₂_comesBackAs (hfinite record hrecord)
    exact ⟨records', hrecords.imp fun _ _ => And.right,
      fun text htext => ofJson_of_isText_arrayJson (hrecords.imp fun _ _ => And.left) htext⟩
  · intro record hfinite
    obtain ⟨record', hread, hback⟩ := exists_forall₂_comesBackAs hfinite
    exact ⟨record', hback, fun text htext => ofJson_of_isText_toJson hread htext⟩

end Library

/-- The real two and a half. -/
def twoAndAHalf : Binary64 := .finite false ⟨0x4004000000000000, by decide⟩

/-- Two records, one of them with a key that stands in it twice, the other one with a real. -/
def samples : List Record :=
  [[("id", .integer 1), ("id", .text "\"")], [("rank", .real twoAndAHalf)]]

/-- A key that stands twice, a quote and a real with a short literal are read back. -/
theorem ofJson_exact_samples : ofJson (arrayJson samples).compact = .ok samples := by
  have hfinite : ∀ record ∈ samples, ∀ entry ∈ record, entry.2.IsFinite := by
    simp only [samples, List.forall_mem_cons]
    refine ⟨⟨nofun, nofun, nofun⟩, ⟨?_, nofun⟩, nofun⟩
    rintro x ⟨⟩
    rfl
  obtain ⟨records', hback, hread⟩ := ofJson_exact.1 samples hfinite
  have hliteral : Number.ofRank false 0x4004000000000000 = ⟨false, ['2'], ['5'], none⟩ := by
    decide +kernel
  have hagree : AgreeOn twoAndAHalf := agreeOn_of_lt hliteral (by decide) (by decide)
  obtain _ | ⟨hfirst, _ | ⟨hsecond, _ | _⟩⟩ := hback
  obtain _ | ⟨hid, _ | ⟨hagain, _ | _⟩⟩ := hfirst
  obtain _ | ⟨hrank, _ | _⟩ := hsecond
  obtain ⟨y, -, hy, hsame⟩ := hrank.real _ rfl
  have hsamples := hread (arrayJson samples).compact (.inl rfl)
  rw [hsamples, Prod.ext hid.key (hid.same nofun), Prod.ext hagain.key (hagain.same nofun),
    Prod.ext hrank.key (hy.trans (congrArg Value.real (hsame.2 hagree)))]
  rfl

/-- The real nearest to `1e-28`. -/
def tiny : Binary64 := .finite false ⟨0x3A1FB0F6BE506019, by decide⟩

/-- A library can be lawful although the real `1e-28` comes back as its neighbour, since its literal
is rounded more than once, and a number beyond the largest real is refused although it is a
scalar. -/
theorem ofJson_inexact :
    tiny.isFinite = true ∧ ∃ _ : Library, LawfulLibrary ∧
      ofJson (Library.compact (arrayJson [[("a", .real tiny)]])) ≠ .ok [[("a", .real tiny)]] ∧
      ofJson "[\x7b\"a\":1e400\x7d]" = .error .malformed := by
  refine ⟨rfl, inferInstance, inferInstance, ?_, ?_⟩
  · decide +kernel
  · decide +kernel

end Record

end BoundSql
