import BoundSql.Proofs.Json.Agreement
import BoundSql.Proofs.Json.Lawful

/-!
# The JSON of values and statements loses nothing

With a lawful library the text of a value is read back as the value. For reals this needs that the
printer and the reader of numbers agree, which is a property of the real: without it a finite real
is still read as some finite real. The text of a statement needs no such condition, since it
determines what is printed for every parameter, and this determines the parameter.

## Main definitions

* `BoundSql.Json.IsText` — the texts that are printed for a document.
* `BoundSql.Value.Rereads` — what the text of a value is read as.
* `BoundSql.Statement.IsFinite` — no parameter is a real beyond the finite ones.

## Main results

* `BoundSql.Value.literal_injective` — what is printed for a finite value determines it.
* `BoundSql.Json.ofJson_of_isText` — the text of a value is read as a value.
* `BoundSql.Json.isText_unique` — the text of a statement determines it.
* `BoundSql.Json.lossless` — what the texts of values and statements keep.
-/

namespace BoundSql

open Json

/-- A value that is no real beyond the finite ones. -/
def Value.IsFinite (v : Value) : Prop := ∀ x, v = .real x → x.isFinite = true

/-- A statement none of whose parameters is a real beyond the finite ones. -/
def Statement.IsFinite (s : Statement) : Prop := ∀ v ∈ s.params, v.IsFinite

section Library

variable [Library]

/-- A text is printed for a document, on one line or on several. -/
def Json.IsText (document : Json Value) (text : String) : Prop :=
  text = Library.compact document ∨ text = Library.pretty document

/-- What is printed for a value is read as a value. -/
def Value.Rereads (v w : Value) : Prop :=
  ∃ s, v.literal.ConvertsTo Library.readNumber? s ∧ Value.ofScalar s = w

/-- Values for which the same is printed are read as the same value. -/
lemma Value.Rereads.unique {v v' w w' : Value} (h : v.Rereads w) (h' : v'.Rereads w')
    (hliteral : v.literal = v'.literal) : w = w' := by
  obtain ⟨s, hs, rfl⟩ := h
  obtain ⟨s', hs', rfl⟩ := h'
  rw [hliteral] at hs
  rw [hs.unique hs']

/-! ## Values -/

namespace Value

/-- What is printed for a finite real. -/
lemma literal_real {x : Binary64} (h : x.isFinite = true) :
    (real x).literal = .number (Library.printReal x) := if_pos h

/-- What is printed for a real that is not finite is read as the missing value. -/
lemma rereads_null {x : Binary64} (h : x.isFinite = false) : (real x).Rereads null := by
  have hliteral : (real x).literal = .null := if_neg (by simp [h])
  refine ⟨.null, ?_, rfl⟩
  rw [hliteral]
  exact .null

variable [LawfulLibrary]

/-- What is printed for an integer is read as this integer. -/
lemma rereads_integer (n : Int64) : (integer n).Rereads (integer n) := by
  obtain hneg | hnonneg := lt_or_ge n.toInt 0
  · exact ⟨_, .number (LawfulLibrary.readNumber?_negative n hneg), rfl⟩
  · -- a number that is not negative is read without a sign, and fits the signed ones
    obtain ⟨k, hk⟩ := Int.eq_ofNat_of_zero_le hnonneg
    have hlt : k < 2 ^ 63 := by
      have hupper := n.toInt_lt
      omega
    have hunsigned : (UInt64.ofNat k).toNat = k := 
      UInt64.toNat_ofNat_of_lt' (hlt.trans (by decide))
    have hread := LawfulLibrary.readNumber?_natural (UInt64.ofNat k)
    rw [hunsigned, ← hk] at hread
    refine ⟨_, .number hread, ?_⟩
    rw [ofScalar, hunsigned, if_pos (by simpa using hlt), ← hk, Int64.ofInt_toInt]

/-- What is printed for a value that is no real is read as this value. -/
lemma rereads_self {v : Value} (h : ∀ x, v ≠ .real x) : v.Rereads v := by
  cases v with
  | null => exact ⟨_, .null, rfl⟩
  | bool b => exact ⟨_, .bool b, rfl⟩
  | integer n => exact rereads_integer n
  | real x => exact absurd rfl (h x)
  | text s => exact ⟨_, .text s, rfl⟩

/-- What is printed for a finite real is read as a finite real, and as the same one exactly if the
printer and the reader of numbers agree on it. -/
lemma exists_rereads_real {x : Binary64} (h : x.isFinite = true) :
    ∃ y : Binary64, y.isFinite = true ∧ (real x).Rereads (real y) ∧ (y = x ↔ AgreeOn x) := by
  obtain ⟨n, hn⟩ := Option.isSome_iff_exists.1 (LawfulLibrary.readNumber?_printReal x h)
  have hmarked : (Library.printReal x).IsMarked := by
    cases x with
    | nan => cases h
    | infinite negative => cases h
    | finite negative rank =>
      obtain ⟨m, -, hdenotes⟩ := LawfulLibrary.printReal_denotes negative rank
      exact hdenotes.isMarked
  obtain ⟨y, hy, rfl⟩ := LawfulLibrary.readNumber?_marked hmarked hn
  refine ⟨y, hy, ⟨.number (.real y), ?_, rfl⟩, ?_⟩
  · rw [literal_real h]
    exact .number hn
  · rw [AgreeOn, hn, Option.some.injEq, Numeral.real.injEq]
    exact ⟨fun heq _ => heq, fun hagree => hagree h⟩

/-- A value that is no real is read as itself, a finite real as a finite real. -/
lemma exists_rereads {v : Value} (h : v.IsFinite) :
    ((∀ x, v ≠ .real x) ∧ v.Rereads v) ∨
    ∃ x y : Binary64, v = .real x ∧ x.isFinite = true ∧ y.isFinite = true ∧
      v.Rereads (.real y) ∧ (y = x ↔ AgreeOn x) := by
  by_cases hreal : ∃ x, v = .real x
  · obtain ⟨x, rfl⟩ := hreal
    obtain ⟨y, hy, hread, hsame⟩ := exists_rereads_real (h x rfl)
    exact .inr ⟨x, y, rfl, h x rfl, hy, hread, hsame⟩
  · exact .inl ⟨not_exists.1 hreal, rereads_self (not_exists.1 hreal)⟩

end Value

section Literals

variable [LawfulLibrary]

/-- The literal of a finite real determines it: it is nearest to what the literal denotes. -/
theorem Json.printReal_injective {x y : Binary64} (hx : x.isFinite = true) (hy : y.isFinite = true)
    (h : Library.printReal x = Library.printReal y) : x = y := by
  cases x with
  | nan => cases hx
  | infinite => cases hx
  | finite negative rank =>
    cases y with
    | nan => cases hy
    | infinite => cases hy
    | finite negative' rank' =>
      obtain ⟨m, hcell, hm⟩ := LawfulLibrary.printReal_denotes negative rank
      obtain ⟨m', hcell', hm'⟩ := LawfulLibrary.printReal_denotes negative' rank'
      rw [h] at hm
      obtain rfl := hm.magnitude.symm.trans hm'.magnitude
      rw [hm.negative.symm.trans hm'.negative, Fin.ext (Binary64.eq_of_mem_cell hcell hcell')]

/-- **What is printed for a finite value determines it.** Two values with the same literal are read
as the same value, so both are real or none is, and the literal of a real determines it. -/
theorem Value.literal_injective {v w : Value} (hv : v.IsFinite) (hw : w.IsFinite)
    (h : v.literal = w.literal) : v = w := by
  obtain ⟨hv_real, hv_read⟩ | ⟨x, y, rfl, hx, -, hv_read, -⟩ := exists_rereads hv
  · obtain ⟨-, hw_read⟩ | ⟨x, y, rfl, -, -, hw_read, -⟩ := exists_rereads hw
    · exact hv_read.unique hw_read h
    · exact absurd (hv_read.unique hw_read h) (hv_real y)
  · obtain ⟨hw_real, hw_read⟩ | ⟨x', y', rfl, hx', -, -, -⟩ := exists_rereads hw
    · exact absurd (hw_read.unique hv_read h.symm) (hw_real y)
    · rw [Value.literal_real hx, Value.literal_real hx', Scalar.number.injEq] at h
      rw [printReal_injective hx hx' h]

/-- What is printed for a list of finite values determines them. -/
lemma Value.map_literal_injective {vs ws : List Value} (hvs : ∀ v ∈ vs, v.IsFinite)
    (hws : ∀ w ∈ ws, w.IsFinite) (h : vs.map literal = ws.map literal) : vs = ws := by
  induction vs generalizing ws with
  | nil => exact (List.map_eq_nil_iff.1 h.symm).symm
  | cons v vs ih =>
    obtain ⟨w, ws, rfl, hhead, htail⟩ := List.map_eq_cons_iff.1 h.symm
    obtain ⟨hv, hvs⟩ := List.forall_mem_cons.1 hvs
    obtain ⟨hw, hws⟩ := List.forall_mem_cons.1 hws
    rw [literal_injective hv hw hhead.symm, ih hvs hws htail.symm]

end Literals

/-! ## Texts -/

namespace Json

/-- What is printed for the values of a statement. -/
def printedStatement (s : Statement) : Json (Scalar Number) :=
  .object [("sql", .scalar (.text s.sql)),
    ("params", .array ((s.params.toList.map Value.literal).map .scalar))]

/-- A printed statement has the shape of its document, values apart. -/
lemma relates_printedStatement (s : Statement) :
    Relates Value.PrintsAs 2 s.toJson (printedStatement s) := by
  have hparams : List.Forall₂ (Relates Value.PrintsAs 0)
      (s.params.toList.map .scalar) ((s.params.toList.map Value.literal).map .scalar) := by
    rw [List.forall₂_map_left_iff, List.forall₂_map_right_iff, List.forall₂_map_right_iff]
    exact List.forall₂_same.2 fun v _ => relates_scalar v.printsAs_literal 0
  exact relates_object (.cons ⟨rfl, relates_scalar (Value.printsAs_literal _) 1⟩
    (.cons ⟨rfl, relates_array hparams⟩ .nil))

variable [LawfulLibrary]

/-- The texts of a document write what is printed for its values. -/
lemma IsText.writes {depth : ℕ} {document : Json Value} {printed : Json (Scalar Number)}
    {text : String} (htext : document.IsText text)
    (h : Relates Value.PrintsAs depth document printed) :
    Writes some depth text.toList printed := by
  obtain rfl | rfl := htext
  · exact LawfulLibrary.compact_writes h
  · exact LawfulLibrary.pretty_writes h

/-- A text says a document of values if it writes a document whose scalars stand for them. -/
def Tells (text : String) (document : Json Value) : Prop :=
  ∃ read, Writes Library.readNumber? maxDepth text.toList read ∧
    Relates (fun s v => Value.ofScalar s = v) maxDepth read document

/-- **The texts of a document say what its values are read as.** -/
theorem IsText.tells {document document' : Json Value} {text : String}
    (htext : document.IsText text) (h : Relates Value.Rereads maxDepth document document') :
    Tells text document' := by
  have hprints : Relates (fun v w => ∃ p, Value.PrintsAs v p ∧
      ∃ s, Scalar.ConvertsTo Library.readNumber? p s ∧ Value.ofScalar s = w) maxDepth document
      document' := h.imp fun v w hvw => ⟨v.literal, v.printsAs_literal, hvw⟩
  obtain ⟨printed, hprinted, hrest⟩ := hprints.exists_mid
  obtain ⟨read, hread, hvalues⟩ := hrest.exists_mid
  exact ⟨read, (htext.writes hprinted).converted hread, hvalues⟩

/-- A text is read as the value that it says. -/
lemma ofJson_eq_ok_iff_tells {w : Value} {text : String} :
    Value.ofJson text = .ok w ↔ Tells text (.scalar w) := by
  rw [Value.ofJson, LawfulLibrary.readAs_eq_ok_iff]
  refine exists_congr fun read => and_congr_right fun _ => ?_
  rw [relates_scalar_iff]
  cases read with
  | scalar s => simp [value?]
  | array items => simp [value?]
  | object members => simp [value?]

/-- The texts of a value are read as a value. -/
theorem ofJson_of_isText {v w : Value} (h : v.Rereads w) {text : String}
    (htext : (Json.scalar v).IsText text) : Value.ofJson text = .ok w :=
  ofJson_eq_ok_iff_tells.2 (htext.tells (relates_scalar h maxDepth))

/-- The text of a statement determines it, the kinds of its parameters included. -/
theorem isText_unique {s s' : Statement} (hs : s.IsFinite) (hs' : s'.IsFinite) {text : String}
    (htext : s.toJson.IsText text) (htext' : s'.toJson.IsText text) : s = s' := by
  have hprinted : printedStatement s = printedStatement s' :=
    (htext.writes (relates_printedStatement s)).unique
      (htext'.writes (relates_printedStatement s'))
  simp only [printedStatement, object.injEq, List.cons.injEq, Prod.mk.injEq, scalar.injEq,
    Scalar.text.injEq, array.injEq, true_and, and_true] at hprinted
  obtain ⟨hsql, hparams⟩ := hprinted
  have hinjective : Function.Injective (scalar : Scalar Number → Json (Scalar Number)) :=
    fun _ _ => scalar.inj
  have hlist : s.params.toList = s'.params.toList :=
    Value.map_literal_injective (fun v hv => hs v (Array.mem_toList_iff.1 hv))
      (fun v hv => hs' v (Array.mem_toList_iff.1 hv)) (List.map_injective_iff.2 hinjective hparams)
  obtain ⟨sql, params⟩ := s
  obtain ⟨sql', params'⟩ := s'
  rw [Statement.mk.injEq]
  exact ⟨hsql, Array.toList_inj.1 hlist⟩

/-! ## What is kept -/

/-- **JSON loses nothing.** The texts of a value that is no real are read back as the value. The
texts of a finite real are read as a finite real, and as the same one if the printer and the reader
of numbers agree on it; a real that is not finite is read as the missing value. A text of a
statement with finite reals determines its SQL and its parameters.

**Proof sketch.** A text writes what is printed for the values of the document, and it writes one
document only. The reader converts the literals in it. The literal of a finite real shows that it is
real and is in the reader's range. What is printed for a statement holds its SQL and the literals of
its parameters, and a literal determines its value. -/
theorem lossless :
    (∀ (v : Value) (text : String), (∀ x, v ≠ .real x) → (Json.scalar v).IsText text →
      Value.ofJson text = .ok v) ∧
    (∀ x : Binary64, x.isFinite = true →
      ∃ y : Binary64, y.isFinite = true ∧ (AgreeOn x → y = x) ∧
        ∀ text, (Json.scalar (.real x)).IsText text → Value.ofJson text = .ok (.real y)) ∧
    (∀ (x : Binary64) (text : String), x.isFinite = false →
      (Json.scalar (.real x)).IsText text → Value.ofJson text = .ok .null) ∧
    (∀ (s s' : Statement) (text : String), s.IsFinite → s'.IsFinite → s.toJson.IsText text →
      s'.toJson.IsText text → s = s') := by
  refine ⟨?_, ?_, ?_, ?_⟩
  · intro v text hv htext
    exact ofJson_of_isText (Value.rereads_self hv) htext
  · intro x hx
    obtain ⟨y, hy, hread, hsame⟩ := Value.exists_rereads_real hx
    exact ⟨y, hy, hsame.2, fun text htext => ofJson_of_isText hread htext⟩
  · intro x text hx htext
    exact ofJson_of_isText (Value.rereads_null hx) htext
  · intro s s' text hs hs' htext htext'
    exact isText_unique hs hs' htext htext'

end Json

end Library

namespace Json

/-- The real nearest to a tenth. -/
def oneTenth : Binary64 := .finite false ⟨0x3FB999999999999A, by decide⟩

/-- The real one. -/
def one : Binary64 := .finite false ⟨0x3FF0000000000000, by decide⟩

/-- A text with a quote, a backslash, a line break and a control character, the least integer, a
tenth and an infinity; and a statement that binds the integer one is not written as the statement
that binds the real one. -/
theorem lossless_samples :
    Value.ofJson (Json.scalar (.text "\"\\\n\x01")).compact = .ok (.text "\"\\\n\x01") ∧
    Value.ofJson (Json.scalar (.integer Int64.minValue)).compact =
      .ok (.integer Int64.minValue) ∧
    Value.ofJson (Json.scalar (.real oneTenth)).compact = .ok (.real oneTenth) ∧
    Value.ofJson (Json.scalar (.real (.infinite true))).compact = .ok .null ∧
    (Statement.mk "?" #[.integer 1]).toJson.pretty ≠
      (Statement.mk "?" #[.real one]).toJson.pretty := by
  have hcompact : ∀ document : Json Value, document.IsText document.compact := fun _ => .inl rfl
  have hpretty : ∀ document : Json Value, document.IsText document.pretty := fun _ => .inr rfl
  refine ⟨lossless.1 _ _ (by simp) (hcompact _), lossless.1 _ _ (by simp) (hcompact _), ?_,
    lossless.2.2.1 _ _ rfl (hcompact _), ?_⟩
  · obtain ⟨y, -, hsame, hread⟩ := lossless.2.1 oneTenth rfl
    have hliteral : Number.ofRank false 0x3FB999999999999A = ⟨false, ['0'], ['1'], none⟩ := by
      decide +kernel
    have hagree : AgreeOn oneTenth := agreeOn_of_lt hliteral (by decide) (by decide)
    rw [hread _ (hcompact _), hsame hagree]
  · intro h
    have hinteger : (Statement.mk "?" #[.integer 1]).IsFinite := by
      simp [Statement.IsFinite, Value.IsFinite]
    have hone : (Statement.mk "?" #[.real one]).IsFinite := by
      simp only [Statement.IsFinite, Value.IsFinite, List.mem_toArray, List.mem_singleton,
        forall_eq]
      rintro x ⟨⟩
      rfl
    have hequal := lossless.2.2.2 _ _ _ hinteger hone (hpretty _) (.inr h)
    exact absurd hequal (by decide)

end Json

end BoundSql
