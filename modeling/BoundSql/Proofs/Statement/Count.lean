import BoundSql.Proofs.Statement.Alignment

/-!
# Counts and the reads that they count

The count of a read is put together beside the read, and has to stay in step with it. Without a
window it is the read of every column in any order, under another head. With a window it is the
windowed read of a constant, set in parentheses. Either way it meets the same faults and binds the
same values.

## Main definitions

* `BoundSql.below` — the text of lines that stand below another line.
* `BoundSql.SelectStatement.unsorted` — a read without its sort keys.
* `BoundSql.Statement.Rewrites` — one compilation comes to what another one does, its text
  rewritten.

## Main results

* `BoundSql.SelectStatement.countSites_eq_unsorted`, `BoundSql.SelectStatement.countSites_eq_select`
  — a count passes the sites of the read of every column.
* `BoundSql.SelectStatement.buildCount_rewrites` — a count is a rewritten read, and binds the values
  of the read.
-/

namespace BoundSql

/-! ## Lines below a line -/

/-- The text of lines that stand below another line. -/
def below (lines : List String) : String := String.join (lines.map ("\n" ++ ·))

/-- The first of some lines, and the others below it. -/
lemma intercalate_newline_cons (head : String) (lines : List String) :
    "\n".intercalate (head :: lines) = head ++ below lines := by
  induction lines generalizing head with
  | nil => simp [below]
  | cons line rest ih =>
    rw [String.intercalate_cons_cons, ih, below, below, List.map_cons, String.join_cons]
    simp only [String.append_assoc]

/-- Lines below a line, in two parts. -/
lemma below_append (above lines : List String) :
    below (above ++ lines) = below above ++ below lines := by
  rw [below, List.map_append, String.join_append]
  rfl

/-! ## Rewritten compilations -/

/-- The compilation `result` comes to what the read of every column comes to, its text rewritten:
both fail for the same reason, or they bind the same values and what the read has below `SELECT *`
is rewritten. -/
def Statement.Rewrites (rewrite : String → String) (read result : Except CompileError Statement) :
    Prop :=
  (∃ e, read = .error e ∧ result = .error e) ∨
    ∃ tail params, read = .ok ⟨"SELECT *" ++ tail, params⟩ ∧ result = .ok ⟨rewrite tail, params⟩

/-- Two texts over the same sites. -/
lemma Statement.rewrites_assemble (rewrite : String → String) (sites : List Site) (tail : String) :
    Rewrites rewrite (assemble sites ("SELECT *" ++ tail)) (assemble sites (rewrite tail)) := by
  unfold assemble
  cases Site.fault? sites with
  | none => exact .inr ⟨tail, (Site.values sites).toArray, rfl, rfl⟩
  | some e => exact .inl ⟨e, rfl, rfl⟩

namespace SelectStatement

/-- A read without its sort keys. -/
def unsorted (s : SelectStatement) : SelectStatement := { s with orderBy := [] }

variable (s : SelectStatement)

/-- A read has no window if it has neither a limit nor an offset. -/
lemma isWindowed_eq_false_iff : s.isWindowed = false ↔ s.limit? = none ∧ s.offset? = none := by
  simp [isWindowed]

/-- A read has a window if it has a limit or an offset. -/
lemma isWindowed_iff : s.isWindowed ↔ s.limit? ≠ none ∨ s.offset? ≠ none := by
  simp [isWindowed, Option.isSome_iff_ne_none]

/-! ## Sites and lines of counts -/

/-- The projection of every column has no sites. -/
lemma rowSites_select_wildcard :
    (s.select .wildcard).rowSites =
      joinOrderSites 0 s.joins ++ (s.sourceSites ++ s.windowSites) := rfl

/-- A count without a window passes the sites of the read of every column in any order. -/
lemma countSites_eq_unsorted (h : s.isWindowed = false) :
    s.countSites = (s.select .wildcard).unsorted.rowSites := by
  have hwindow : s.unsorted.windowSites = [] := rfl
  have hread : (s.select .wildcard).unsorted.rowSites =
      joinOrderSites 0 s.joins ++ (s.sourceSites ++ s.unsorted.windowSites) := rfl
  rw [hread, hwindow, countSites, if_neg (by simp [h])]

/-- A count with a window passes the sites of the read of every column. -/
lemma countSites_eq_select (h : s.isWindowed) :
    s.countSites = (s.select .wildcard).rowSites := by
  rw [rowSites_select_wildcard, countSites, if_pos h]

/-- A read of every column has its lines below `SELECT *`. -/
lemma rowTexts_select_wildcard (spell : Value → String) :
    (s.select .wildcard).rowTexts spell =
      "SELECT *" :: (s.sourceTexts spell ++ s.windowTexts) := rfl

/-- A read without sort keys and without a window ends with its source. -/
lemma windowTexts_unsorted (h : s.isWindowed = false) : s.unsorted.windowTexts = [] := by
  obtain ⟨hlimit, hoffset⟩ := s.isWindowed_eq_false_iff.1 h
  simp [unsorted, windowTexts, listTexts, hlimit, hoffset]

/-- A count without a window is the read of every column in any order, under another head. -/
lemma buildCount_rewrites_of_not_isWindowed (h : s.isWindowed = false) :
    Statement.Rewrites ("SELECT COUNT(*)" ++ ·) (s.select .wildcard).unsorted.build
      s.buildCount := by
  have hread : (s.select .wildcard).unsorted.rowTexts Value.placeholder =
      "SELECT *" :: s.sourceTexts Value.placeholder := by
    have hlines : (s.select .wildcard).unsorted.rowTexts Value.placeholder =
        "SELECT *" :: (s.sourceTexts Value.placeholder ++ s.unsorted.windowTexts) := rfl
    rw [hlines, s.windowTexts_unsorted h, List.append_nil]
  have hcount : s.countTexts Value.placeholder =
      "SELECT COUNT(*)" :: s.sourceTexts Value.placeholder := by
    rw [countTexts, if_neg (by simp [h])]
  rw [build_eq_assemble, buildCount_eq_assemble, s.countSites_eq_unsorted h, hread, hcount,
    intercalate_newline_cons, intercalate_newline_cons]
  exact Statement.rewrites_assemble _ _ _

/-- A count with a window is the read of a constant in place of every column, in parentheses. -/
lemma buildCount_rewrites_of_isWindowed (h : s.isWindowed) :
    Statement.Rewrites (fun tail => "SELECT COUNT(*) FROM (\n" ++ ("SELECT 1" ++ tail) ++
      "\n) counted") (s.select .wildcard).build s.buildCount := by
  have hcount : "\n".intercalate (s.countTexts Value.placeholder) =
      "SELECT COUNT(*) FROM (\n" ++
        ("SELECT 1" ++ below (s.sourceTexts Value.placeholder ++ s.windowTexts)) ++
          "\n) counted" := by
    have hlines : s.countTexts Value.placeholder =
        "SELECT COUNT(*) FROM (" :: "SELECT 1" ::
          ((s.sourceTexts Value.placeholder ++ s.windowTexts) ++ [") counted"]) := by
      rw [countTexts, if_pos h]
      simp
    have hopen : "SELECT COUNT(*) FROM (\n" = "SELECT COUNT(*) FROM (" ++ "\n" := rfl
    have hclose : below [") counted"] = "\n) counted" := rfl
    rw [hlines, String.intercalate_cons_cons, intercalate_newline_cons, below_append, hclose, hopen]
    simp only [String.append_assoc]
  rw [build_eq_assemble, buildCount_eq_assemble, s.countSites_eq_select h, hcount,
    rowTexts_select_wildcard, intercalate_newline_cons]
  exact Statement.rewrites_assemble _ _ _

/-! ## Parameters of counts -/

/-- Sort keys bind nothing. -/
@[simp] lemma values_windowSites : Site.values s.windowSites = [] := by
  simp [windowSites, SortKey.sites]

/-- What is returned binds nothing. -/
@[simp] lemma values_projectionSites : Site.values s.projectionSites = [] := by
  simp [projectionSites]

/-- A count binds the values of the read. -/
lemma values_countSites : Site.values s.countSites = Site.values s.rowSites := by
  unfold countSites rowSites
  split <;> simp

/-- A count has no fault if the read has none. -/
lemma fault?_countSites_eq_none (h : Site.fault? s.rowSites = none) :
    Site.fault? s.countSites = none := by
  simp only [rowSites, Site.fault?_append_eq_none] at h
  obtain ⟨horder, -, hsource, hwindow⟩ := h
  unfold countSites
  split
  · simp [horder, hsource, hwindow]
  · simp [horder, hsource]

/-- **A count agrees with the read that it counts.** Without a limit and an offset it comes to the
read of every column without sort keys, with `SELECT COUNT(*)` in place of `SELECT *`. Otherwise it
comes to the read of every column, with `SELECT 1` in place of `SELECT *` and set in parentheses.
Whenever the read itself compiles, whatever it returns, so does the count, with the same parameters.

**Proof sketch.** The projection of every column has no sites, and a read without sort keys has none
in its window. So the count passes exactly the sites of the read that it is compared with, and only
the lines at both ends differ. A projection and sort keys bind nothing, so that leaving them out
takes no value away. -/
theorem buildCount_rewrites :
    (s.limit? = none → s.offset? = none →
      Statement.Rewrites (fun tail => "SELECT COUNT(*)" ++ tail)
        (s.select .wildcard).unsorted.build s.buildCount) ∧
    (s.limit? ≠ none ∨ s.offset? ≠ none →
      Statement.Rewrites
        (fun tail => "SELECT COUNT(*) FROM (\n" ++ ("SELECT 1" ++ tail) ++ "\n) counted")
        (s.select .wildcard).build s.buildCount) ∧
    ∀ statement, s.build = .ok statement →
      ∃ counted, s.buildCount = .ok counted ∧ counted.params = statement.params := by
  refine ⟨?_, ?_, ?_⟩
  · intro hlimit hoffset
    exact s.buildCount_rewrites_of_not_isWindowed (s.isWindowed_eq_false_iff.2 ⟨hlimit, hoffset⟩)
  · intro hwindow
    exact s.buildCount_rewrites_of_isWindowed (s.isWindowed_iff.2 hwindow)
  · intro statement hbuild
    obtain ⟨hfault, rfl⟩ := Description.build_eq_ok_iff (d := .select s).1 hbuild
    have hcount : Site.fault? (Description.count s).sites = none := s.fault?_countSites_eq_none hfault
    refine ⟨_, Description.build_eq_ok_iff (d := .count s).2 ⟨hcount, rfl⟩, ?_⟩
    exact congrArg List.toArray s.values_countSites

/-- The third ten of the titles that a join and a condition leave. -/
def pagedRead : SelectStatement where
  projection := some (.column ⟨0, "title"⟩)
  table := some "blog"
  joins := [⟨⟨1, "authors"⟩, (⟨1, "rank"⟩ : ColumnRef).equals (.value (.integer 7))⟩]
  where? := some ((⟨0, "draft"⟩ : ColumnRef).equals (.value (.bool false)))
  orderBy := [⟨⟨0, "title"⟩, .ascending⟩]
  limit? := some 10
  offset? := some 20

/-- What their read has below its head. -/
def pagedTail : String :=
  "\nFROM blog t1\nINNER JOIN authors t2 ON t2.rank = ?\nWHERE t1.draft = ?\n" ++
    "ORDER BY t1.title ASC\nLIMIT 10\nOFFSET 20"

/-- A read with a join, a filter and a window is counted as a subquery. -/
theorem buildCount_rewrites_pagedRead :
    pagedRead.limit? ≠ none ∧
      (pagedRead.select .wildcard).build =
        .ok ⟨"SELECT *" ++ pagedTail, #[.integer 7, .bool false]⟩ ∧
      pagedRead.buildCount =
        .ok ⟨"SELECT COUNT(*) FROM (\n" ++ ("SELECT 1" ++ pagedTail) ++ "\n) counted",
          #[.integer 7, .bool false]⟩ ∧
      (∃ statement, pagedRead.build = .ok statement) ∧
      ∀ statement, pagedRead.build = .ok statement →
        statement.params = #[.integer 7, .bool false] := by
  have hlimit : pagedRead.limit? ≠ none := nofun
  have hread : (pagedRead.select .wildcard).build =
      .ok ⟨"SELECT *" ++ pagedTail, #[.integer 7, .bool false]⟩ := rfl
  obtain ⟨-, hwindowed, hparams⟩ := pagedRead.buildCount_rewrites
  rcases hwindowed (.inl hlimit) with ⟨e, herror, -⟩ | ⟨tail, params, hsame, hcount⟩
  · cases hread.symm.trans herror
  · have hstatement := Except.ok.inj (hread.symm.trans hsame)
    obtain ⟨htail, rfl⟩ := Statement.mk.inj hstatement
    rw [← (String.append_right_inj _).1 htail] at hcount
    refine ⟨hlimit, hread, hcount, ⟨_, rfl⟩, ?_⟩
    intro statement hbuild
    obtain ⟨counted, hcounted, hsame⟩ := hparams statement hbuild
    rw [hcount] at hcounted
    rw [← hsame, ← Except.ok.inj hcounted]

end SelectStatement

end BoundSql
