import BoundSql.Expr.Projection
import BoundSql.Proofs.Lookup
import Mathlib.Data.List.Induction

/-!
# Mappings of output keys

How a mapping depends on the insertions that built it, and what is left of it when it is flattened.
A mapping is built by a recipe: it is collected from pairs of keys and columns, and then columns and
mappings are put under further keys. Whatever was inserted under a key last stands there, at the
place of the first insertion under that key; this holds for the mapping and for every mapping
inside. So the keys of a mapping are distinct at every level, and no path to a column goes on behind
another one. From the paths and columns alone the mapping can be put together again, unless a
mapping inside is empty: an empty mapping has no leaf that would tell of it.

## Main definitions

* `BoundSql.ProjectionMap.Recipe` — how a mapping is built, and `Recipe.build`, what comes of it.
* `BoundSql.ProjectionMap.nodeAt?` — what stands at the end of a path of keys.
* `BoundSql.ProjectionMap.nodeLeaves`, `BoundSql.ProjectionMap.entryLeaves` — the columns of a
  mapping, depth first, with their paths.
* `BoundSql.ProjectionMap.ofLeaves` — the mapping that has given columns at the end of given paths.

## Main results

* `BoundSql.ProjectionMap.nodeAt?_node` — a path leads to what was inserted last along it.
* `BoundSql.ProjectionMap.flatten_eq` — a mapping is flattened to its columns, depth first.
* `BoundSql.ProjectionMap.ofLeaves_flatten` — a flattened mapping is put together again.
* `BoundSql.ProjectionMap.build_shape` — all of this about a mapping that was built by a recipe.
-/

namespace BoundSql

namespace ProjectionMap

/-! ## Insertions -/

section Insertions

variable {key : String} {node : ProjectionNode} {entries : List (String × ProjectionNode)}

/-- A new key comes last, and a known one keeps its place. -/
lemma map_fst_insertEntry :
    (insertEntry key node entries).map (·.1) =
      if key ∈ entries.map (·.1) then entries.map (·.1) else entries.map (·.1) ++ [key] := by
  induction entries with
  | nil => rfl
  | cons entry rest ih =>
    obtain ⟨k, n⟩ := entry
    rw [insertEntry]
    by_cases hk : k = key
    · simp [hk]
    · have hkey : key ≠ k := fun h => hk h.symm
      rw [if_neg hk, List.map_cons, ih]
      split
      · next hmem => simp_all
      · next hmem => simp_all

/-- The inserted node stands under its key, and under other keys nothing changes. -/
lemma lookup_insertEntry (k : String) :
    (insertEntry key node entries).lookup k = if k = key then some node else entries.lookup k := by
  induction entries with
  | nil => rw [insertEntry, lookup_cons_eq_ite]
  | cons entry rest ih =>
    obtain ⟨first, n⟩ := entry
    rw [insertEntry]
    by_cases hfirst : first = key
    · rw [if_pos hfirst, lookup_cons_eq_ite, lookup_cons_eq_ite]
      by_cases hk : k = key <;> simp [hk, hfirst]
    · rw [if_neg hfirst, lookup_cons_eq_ite, lookup_cons_eq_ite, ih]
      by_cases hk : k = first <;> simp [hk, hfirst]

/-- An insertion brings no other entry than the inserted one. -/
lemma mem_insertEntry {entry : String × ProjectionNode}
    (h : entry ∈ insertEntry key node entries) : entry = (key, node) ∨ entry ∈ entries := by
  induction entries with
  | nil => exact .inl (List.mem_singleton.1 h)
  | cons first rest ih =>
    rw [insertEntry] at h
    split at h
    · next hkey =>
      rcases List.mem_cons.1 h with rfl | hrest
      · exact .inl (by rw [hkey])
      · exact .inr (List.mem_cons_of_mem _ hrest)
    · rcases List.mem_cons.1 h with rfl | hrest
      · exact .inr List.mem_cons_self
      · exact (ih hrest).imp id (List.mem_cons_of_mem _)

/-- A node under a new key comes last. -/
lemma insertEntry_of_not_mem (h : key ∉ entries.map (·.1)) :
    insertEntry key node entries = entries ++ [(key, node)] := by
  induction entries with
  | nil => rfl
  | cons entry rest ih =>
    rw [List.map_cons, List.mem_cons, not_or] at h
    obtain ⟨hentry, hrest⟩ := h
    rw [insertEntry, if_neg (Ne.symm hentry), ih hrest, List.cons_append]

/-- The last node is replaced, if its key stands there only. -/
lemma insertEntry_append_singleton (h : key ∉ entries.map (·.1)) (old : ProjectionNode) :
    insertEntry key node (entries ++ [(key, old)]) = entries ++ [(key, node)] := by
  induction entries with
  | nil => simp [insertEntry]
  | cons entry rest ih =>
    rw [List.map_cons, List.mem_cons, not_or] at h
    obtain ⟨hentry, hrest⟩ := h
    rw [List.cons_append, insertEntry, if_neg (Ne.symm hentry), ih hrest, List.cons_append]

end Insertions

/-- The entries that a list of insertions leaves. -/
def insertAll (pairs : List (String × ProjectionNode)) : List (String × ProjectionNode) :=
  pairs.foldl (fun entries pair => insertEntry pair.1 pair.2 entries) []

/-- The last pair is inserted last. -/
lemma insertAll_concat (pairs : List (String × ProjectionNode)) (key : String)
    (node : ProjectionNode) :
    insertAll (pairs ++ [(key, node)]) = insertEntry key node (insertAll pairs) := by
  rw [insertAll, List.foldl_append]
  rfl

/-- **The keys of a mapping** are those of the insertions, in the order of the first ones. -/
theorem map_fst_insertAll (pairs : List (String × ProjectionNode)) :
    (insertAll pairs).map (·.1) = (pairs.map (·.1)).eraseDups := by
  induction pairs using List.reverseRecOn with
  | nil => rfl
  | append_singleton pairs pair ih =>
    obtain ⟨key, node⟩ := pair
    rw [insertAll_concat, map_fst_insertEntry, ih, List.map_append, List.eraseDups_append]
    by_cases hkey : key ∈ pairs.map (·.1)
    · rw [if_pos (List.mem_eraseDups.2 hkey)]
      simp [List.removeAll, hkey]
    · rw [if_neg (mt List.mem_eraseDups.1 hkey)]
      simp [List.removeAll, hkey, List.eraseDups_cons]

/-- **The node under a key** is the one that was inserted last under it. -/
theorem lookup_insertAll (pairs : List (String × ProjectionNode)) (key : String) :
    (insertAll pairs).lookup key = pairs.reverse.lookup key := by
  induction pairs using List.reverseRecOn with
  | nil => rfl
  | append_singleton pairs pair ih =>
    obtain ⟨k, node⟩ := pair
    rw [insertAll_concat, lookup_insertEntry, ih, List.reverse_append, List.reverse_singleton,
      List.singleton_append, lookup_cons_eq_ite]

/-- A list without its repetitions has none. -/
lemma nodup_eraseDups (l : List String) : l.eraseDups.Nodup := by
  induction l using List.reverseRecOn with
  | nil => simp
  | append_singleton l x ih =>
    rw [List.eraseDups_append]
    by_cases hx : x ∈ l
    · simpa [List.removeAll, hx] using ih
    · have hnew : x ∉ l.eraseDups := mt List.mem_eraseDups.1 hx
      have hlast : ([x].removeAll l).eraseDups = [x] := by
        simp [List.removeAll, hx, List.eraseDups_cons]
      rw [hlast, ← List.concat_eq_append, List.nodup_concat]
      exact ⟨hnew, ih⟩

/-! ## Recipes -/

/-- How a mapping is built. -/
inductive Recipe where
  /-- Collected from pairs of keys and columns, possibly none. -/
  | collect (pairs : List (String × ColumnRef))
  /-- A column is put under a key. -/
  | column (recipe : Recipe) (key : String) (column : ColumnRef)
  /-- A mapping that was built by a recipe of its own is put under a key. -/
  | nested (recipe : Recipe) (key : String) (inner : Recipe)

namespace Recipe

/-- The mapping that a recipe builds. -/
def build : Recipe → ProjectionMap
  | collect pairs => .ofList pairs
  | column recipe key c => recipe.build.column key c
  | nested recipe key inner => recipe.build.nested key inner.build

/-- What a recipe puts under keys: columns, and recipes for mappings. -/
abbrev Content := ColumnRef ⊕ Recipe

/-- What stands in a mapping for a content. -/
def Content.node : Content → ProjectionNode
  | .inl c => .column c
  | .inr inner => .nested inner.build.entries

/-- The insertions of a recipe into the mapping that it builds, in their order. -/
def insertions : Recipe → List (String × Content)
  | collect pairs => pairs.map fun pair => (pair.1, .inl pair.2)
  | column recipe key c => recipe.insertions ++ [(key, .inl c)]
  | nested recipe key inner => recipe.insertions ++ [(key, .inr inner)]

/-- What a recipe puts under a key last. -/
def last? (recipe : Recipe) (key : String) : Option Content := recipe.insertions.reverse.lookup key

/-- What is put last at the end of a path, by the recipe that is put last at its beginning. -/
def at? : Content → List String → Option Content
  | content, [] => some content
  | .inl _, _ :: _ => none
  | .inr recipe, key :: path => (recipe.last? key).bind (at? · path)

/-- A recipe makes its insertions one after the other. -/
lemma entries_build (recipe : Recipe) :
    recipe.build.entries = insertAll (recipe.insertions.map fun i => (i.1, i.2.node)) := by
  induction recipe with
  | collect pairs =>
    have hfold : ∀ map : ProjectionMap,
        (pairs.foldl (fun map pair => map.column pair.1 pair.2) map).entries =
          pairs.foldl (fun entries pair => insertEntry pair.1 (.column pair.2) entries)
            map.entries := by
      intro map
      exact (List.foldl_hom ProjectionMap.entries fun _ _ => rfl).symm
    rw [insertions, List.map_map, insertAll, List.foldl_map]
    exact hfold .empty
  | column recipe key c ih =>
    rw [insertions, List.map_append, List.map_singleton, insertAll_concat, ← ih]
    rfl
  | nested recipe key inner ih =>
    rw [insertions, List.map_append, List.map_singleton, insertAll_concat, ← ih]
    rfl

/-- The keys of a built mapping stand in the order in which they were inserted first. -/
lemma map_fst_build (recipe : Recipe) :
    recipe.build.entries.map (·.1) = (recipe.insertions.map (·.1)).eraseDups := by
  rw [entries_build, map_fst_insertAll, List.map_map]
  rfl

/-- A key of a built mapping stands for what was inserted last under it. -/
lemma lookup_build (recipe : Recipe) (key : String) :
    recipe.build.entries.lookup key = (recipe.last? key).map Content.node := by
  rw [entries_build, lookup_insertAll, ← List.map_reverse, lookup_map, last?]

end Recipe

/-! ## Paths -/

/-- What stands at the end of a path of keys. -/
def nodeAt? : ProjectionNode → List String → Option ProjectionNode
  | node, [] => some node
  | .column _, _ :: _ => none
  | .nested entries, key :: path => (entries.lookup key).bind (nodeAt? · path)

/-- A path that goes on leads on from where its beginning leads. -/
lemma nodeAt?_append (node : ProjectionNode) (path rest : List String) :
    nodeAt? node (path ++ rest) = (nodeAt? node path).bind (nodeAt? · rest) := by
  induction path generalizing node with
  | nil => rfl
  | cons key path ih =>
    cases node with
    | column c => rfl
    | nested entries =>
      rw [List.cons_append, nodeAt?, nodeAt?]
      cases entries.lookup key with
      | none => rfl
      | some inner => exact ih inner

/-- **A path** through a built mapping leads to what was put last at its end, by the recipe that was
put last at its beginning. -/
theorem nodeAt?_node (content : Recipe.Content) (path : List String) :
    nodeAt? content.node path = (Recipe.at? content path).map Recipe.Content.node := by
  induction path generalizing content with
  | nil => rfl
  | cons key path ih =>
    cases content with
    | inl c => rfl
    | inr recipe =>
      rw [Recipe.Content.node, nodeAt?, Recipe.lookup_build, Recipe.at?]
      cases recipe.last? key with
      | none => rfl
      | some inner => exact ih inner

/-! ## Levels -/

section Levels

variable (p : List (String × ProjectionNode) → Prop)

mutual

/-- The entries of every mapping in the node are as told, also of the node itself. -/
def NodeEverywhere : ProjectionNode → Prop
  | .column _ => True
  | .nested entries => p entries ∧ EntriesEverywhere entries

/-- The entries of every mapping inside the entries are as told. -/
def EntriesEverywhere : List (String × ProjectionNode) → Prop
  | [] => True
  | (_, node) :: rest => NodeEverywhere node ∧ EntriesEverywhere rest

end

variable {p}

/-- What holds everywhere below a list of entries holds everywhere below each of them. -/
lemma entriesEverywhere_iff {entries : List (String × ProjectionNode)} :
    EntriesEverywhere p entries ↔ ∀ entry ∈ entries, NodeEverywhere p entry.2 := by
  induction entries with
  | nil => simp [EntriesEverywhere]
  | cons entry rest ih => rw [EntriesEverywhere, ih, List.forall_mem_cons]

/-- An insertion keeps what holds at every level inside, if it holds in the inserted node. -/
lemma EntriesEverywhere.insertEntry {entries : List (String × ProjectionNode)}
    (h : EntriesEverywhere p entries) {key : String} {node : ProjectionNode}
    (hnode : NodeEverywhere p node) :
    EntriesEverywhere p (insertEntry key node entries) := by
  rw [entriesEverywhere_iff] at h ⊢
  intro entry hentry
  rcases mem_insertEntry hentry with rfl | hmem
  · exact hnode
  · exact h entry hmem

end Levels

/-- Keys do not repeat. -/
def Distinct (entries : List (String × ProjectionNode)) : Prop := (entries.map (·.1)).Nodup

/-- Maps that are built have no key twice. -/
lemma Recipe.distinct_build (recipe : Recipe) : Distinct recipe.build.entries := by
  rw [Distinct, map_fst_build]
  exact nodup_eraseDups _

/-- **The keys of a built mapping** are distinct at every level. -/
theorem Recipe.everywhere_distinct (recipe : Recipe) :
    EntriesEverywhere Distinct recipe.build.entries := by
  induction recipe with
  | collect pairs =>
    rw [entries_build, insertAll, insertions, List.map_map, List.foldl_map]
    have hstart : EntriesEverywhere Distinct [] := trivial
    refine List.foldlRecOn pairs _ hstart ?_
    intro entries hentries pair _
    exact hentries.insertEntry trivial
  | column recipe key c ih => exact ih.insertEntry trivial
  | nested recipe key inner ih ihInner =>
    exact ih.insertEntry ⟨inner.distinct_build, ihInner⟩

/-! ## Leaves -/

/-- A leaf below a key. -/
def below (key : String) (leaf : List String × ColumnRef) : List String × ColumnRef :=
  (key :: leaf.1, leaf.2)

mutual

/-- The columns in a node with the paths that lead to them from there. -/
def nodeLeaves : ProjectionNode → List (List String × ColumnRef)
  | .column c => [([], c)]
  | .nested entries => entryLeaves entries

/-- The columns below entries with their paths, entry by entry. -/
def entryLeaves : List (String × ProjectionNode) → List (List String × ColumnRef)
  | [] => []
  | (key, node) :: rest => (nodeLeaves node).map (below key) ++ entryLeaves rest

end

/-- A leaf behind a path that has been walked. -/
def leafBehind (walked : List String) (leaf : List String × ColumnRef) : FlatColumn :=
  ⟨walked ++ leaf.1, leaf.2⟩

/-- A key in front of the leaves is a key behind the walked ones. -/
lemma map_leafBehind_below (walked : List String) (key : String)
    (leaves : List (List String × ColumnRef)) :
    (leaves.map (below key)).map (leafBehind walked) =
      leaves.map (leafBehind (walked ++ [key])) := by
  rw [List.map_map]
  apply List.map_congr_left
  intro leaf _
  simp [leafBehind, below]

mutual

/-- The walk through a node meets its leaves, behind the path that has been walked. -/
theorem flattenNode_eq (walked : List String) (node : ProjectionNode) :
    flattenNode walked node = (nodeLeaves node).map (leafBehind walked) := by
  cases node with
  | column c => simp [flattenNode, nodeLeaves, leafBehind]
  | nested entries =>
    rw [flattenNode, nodeLeaves]
    exact flattenEntries_eq walked entries

/-- The walk through entries meets the leaves below them. -/
theorem flattenEntries_eq (walked : List String) (entries : List (String × ProjectionNode)) :
    flattenEntries walked entries = (entryLeaves entries).map (leafBehind walked) := by
  cases entries with
  | nil => rfl
  | cons entry rest =>
    obtain ⟨key, node⟩ := entry
    rw [flattenEntries, entryLeaves, List.map_append, map_leafBehind_below,
      flattenNode_eq (walked ++ [key]) node, flattenEntries_eq walked rest]

end

/-- **A mapping is flattened** to its columns, depth first, with their paths. -/
theorem flatten_eq (map : ProjectionMap) :
    map.flatten = (entryLeaves map.entries).map fun leaf => ⟨leaf.1, leaf.2⟩ :=
  flattenEntries_eq [] map.entries

/-- Leaves of a map are leaves of its entries. -/
lemma mem_flatten {map : ProjectionMap} {leaf : FlatColumn} :
    leaf ∈ map.flatten ↔ (leaf.path, leaf.column) ∈ entryLeaves map.entries := by
  rw [flatten_eq, List.mem_map]
  constructor
  · rintro ⟨l, hl, rfl⟩
    exact hl
  · intro h
    exact ⟨_, h, rfl⟩

/-- A leaf below entries is a leaf below the node of one of the keys. -/
lemma exists_of_mem_entryLeaves {entries : List (String × ProjectionNode)}
    {leaf : List String × ColumnRef} (h : leaf ∈ entryLeaves entries) :
    ∃ key ∈ entries.map (·.1), ∃ path, leaf.1 = key :: path := by
  induction entries with
  | nil => cases h
  | cons entry rest ih =>
    obtain ⟨key, node⟩ := entry
    rw [entryLeaves, List.mem_append] at h
    rcases h with hnode | hrest
    · obtain ⟨inner, -, rfl⟩ := List.mem_map.1 hnode
      exact ⟨key, List.mem_cons_self, inner.1, rfl⟩
    · obtain ⟨k, hk, path, hpath⟩ := ih hrest
      exact ⟨k, List.mem_cons_of_mem _ hk, path, hpath⟩

/-- Leaves below a key begin with this key. -/
lemma mem_map_below {key : String} {leaves : List (List String × ColumnRef)} {k : String}
    {path : List String} {c : ColumnRef} :
    (k :: path, c) ∈ leaves.map (below key) ↔ k = key ∧ (path, c) ∈ leaves := by
  rw [List.mem_map]
  constructor
  · rintro ⟨leaf, hleaf, heq⟩
    cases heq
    exact ⟨rfl, hleaf⟩
  · rintro ⟨rfl, hleaf⟩
    exact ⟨(path, c), hleaf, rfl⟩

mutual

/-- The leaves of a node are the columns that paths lead to, if keys are distinct at every level. -/
theorem mem_nodeLeaves_iff {node : ProjectionNode} (h : NodeEverywhere Distinct node)
    (path : List String) (c : ColumnRef) :
    (path, c) ∈ nodeLeaves node ↔ nodeAt? node path = some (.column c) := by
  cases node with
  | column d =>
    cases path with
    | nil => simp [nodeLeaves, nodeAt?, eq_comm]
    | cons key path => simp [nodeLeaves, nodeAt?]
  | nested entries =>
    rw [nodeLeaves]
    cases path with
    | nil =>
      constructor
      · intro hmem
        obtain ⟨key, -, path, hpath⟩ := exists_of_mem_entryLeaves hmem
        cases hpath
      · intro hnode
        simp [nodeAt?] at hnode
    | cons key path =>
      rw [nodeAt?]
      exact mem_entryLeaves_iff h.1 h.2 key path c

/-- The leaves below entries are the columns that paths lead to. -/
theorem mem_entryLeaves_iff {entries : List (String × ProjectionNode)} (hkeys : Distinct entries)
    (h : EntriesEverywhere Distinct entries) (key : String) (path : List String) (c : ColumnRef) :
    (key :: path, c) ∈ entryLeaves entries ↔
      (entries.lookup key).bind (nodeAt? · path) = some (.column c) := by
  cases entries with
  | nil => simp [entryLeaves]
  | cons entry rest =>
    obtain ⟨k, node⟩ := entry
    obtain ⟨hnode, hrest⟩ := h
    rw [Distinct, List.map_cons, List.nodup_cons] at hkeys
    obtain ⟨hnew, hkeys⟩ := hkeys
    rw [entryLeaves, List.mem_append, mem_map_below, mem_nodeLeaves_iff hnode,
      mem_entryLeaves_iff hkeys hrest, lookup_cons_eq_ite]
    by_cases hkey : key = k
    · subst hkey
      simp [lookup_eq_none_of_not_mem hnew]
    · simp [hkey]

end

mutual

/-- No two leaves of a node have one path, if keys are distinct at every level. -/
theorem nodup_nodeLeaves {node : ProjectionNode} (h : NodeEverywhere Distinct node) :
    ((nodeLeaves node).map (·.1)).Nodup := by
  cases node with
  | column c => simp [nodeLeaves]
  | nested entries =>
    rw [nodeLeaves]
    exact nodup_entryLeaves h.1 h.2

/-- No two leaves below entries have one path. -/
theorem nodup_entryLeaves {entries : List (String × ProjectionNode)} (hkeys : Distinct entries)
    (h : EntriesEverywhere Distinct entries) : ((entryLeaves entries).map (·.1)).Nodup := by
  cases entries with
  | nil => simp [entryLeaves]
  | cons entry rest =>
    obtain ⟨key, node⟩ := entry
    obtain ⟨hnode, hrest⟩ := h
    rw [Distinct, List.map_cons, List.nodup_cons] at hkeys
    obtain ⟨hnew, hkeys⟩ := hkeys
    have hfront : ((nodeLeaves node).map (below key)).map (·.1) =
        ((nodeLeaves node).map (·.1)).map (key :: ·) := by
      rw [List.map_map, List.map_map]
      rfl
    rw [entryLeaves, List.map_append, hfront, List.nodup_append']
    refine ⟨?_, nodup_entryLeaves hkeys hrest, ?_⟩
    · exact (nodup_nodeLeaves hnode).map (List.cons_injective)
    · -- A path of the first entry begins with its key, and no other path does.
      intro path hpath hother
      obtain ⟨tail, -, rfl⟩ := List.mem_map.1 hpath
      obtain ⟨leaf, hleaf, hleafPath⟩ := List.mem_map.1 hother
      obtain ⟨k, hk, rest', hk'⟩ := exists_of_mem_entryLeaves hleaf
      rw [hk'] at hleafPath
      obtain rfl : k = key := (List.cons.inj hleafPath).1
      exact hnew hk

end

/-! ## Putting a mapping together again -/

/-- The entries of the mapping that stands there, if one does. -/
def innerEntries : Option ProjectionNode → List (String × ProjectionNode)
  | some (.nested entries) => entries
  | _ => []

/-- Puts a column at the end of a path; mappings that are not there are made. -/
def insertAt : List String → ColumnRef → List (String × ProjectionNode) →
    List (String × ProjectionNode)
  | [], _, entries => entries
  | [key], c, entries => insertEntry key (.column c) entries
  | key :: next :: path, c, entries =>
    let inner := insertAt (next :: path) c (innerEntries (entries.lookup key))
    insertEntry key (.nested inner) entries

/-- The mapping that has the columns of the leaves at the end of their paths. -/
def ofLeaves (leaves : List FlatColumn) : ProjectionMap :=
  ⟨leaves.foldl (fun entries leaf => insertAt leaf.path leaf.column entries) []⟩

section Together

/-- Puts a leaf among entries. -/
def addLeaf (entries : List (String × ProjectionNode)) (leaf : List String × ColumnRef) :
    List (String × ProjectionNode) := insertAt leaf.1 leaf.2 entries

variable {key : String} {front : List (String × ProjectionNode)}

/-- A leaf below a key goes into the map that the key holds. -/
lemma addLeaf_below {leaf : List String × ColumnRef} (hleaf : leaf.1 ≠ [])
    (entries : List (String × ProjectionNode)) :
    addLeaf entries (below key leaf) =
      insertEntry key (.nested (addLeaf (innerEntries (entries.lookup key)) leaf)) entries := by
  obtain ⟨path, c⟩ := leaf
  cases path with
  | nil => exact absurd rfl hleaf
  | cons next path => rfl

/-- Leaves below the last key go into its mapping, one after the other. -/
lemma foldl_addLeaf_below (hkey : key ∉ front.map (·.1)) {leaves : List (List String × ColumnRef)}
    (hleaves : ∀ leaf ∈ leaves, leaf.1 ≠ []) (inner : List (String × ProjectionNode)) :
    (leaves.map (below key)).foldl addLeaf (front ++ [(key, .nested inner)]) =
      front ++ [(key, .nested (leaves.foldl addLeaf inner))] := by
  induction leaves generalizing inner with
  | nil => rfl
  | cons leaf rest ih =>
    obtain ⟨hleaf, hrest⟩ := List.forall_mem_cons.1 hleaves
    have hlookup : (front ++ [(key, ProjectionNode.nested inner)]).lookup key =
        some (.nested inner) := by
      rw [List.lookup_append, lookup_eq_none_of_not_mem hkey, lookup_cons_eq_ite]
      simp
    rw [List.map_cons, List.foldl_cons, List.foldl_cons, addLeaf_below hleaf, hlookup,
      insertEntry_append_singleton hkey, innerEntries]
    exact ih hrest _

/-- The first leaf below a new key makes a mapping for it, and the others go into that. -/
lemma foldl_addLeaf_new (hkey : key ∉ front.map (·.1)) {leaves : List (List String × ColumnRef)}
    (hleaves : ∀ leaf ∈ leaves, leaf.1 ≠ []) (hsome : leaves ≠ []) :
    (leaves.map (below key)).foldl addLeaf front =
      front ++ [(key, .nested (leaves.foldl addLeaf []))] := by
  cases leaves with
  | nil => exact absurd rfl hsome
  | cons leaf rest =>
    obtain ⟨hleaf, hrest⟩ := List.forall_mem_cons.1 hleaves
    rw [List.map_cons, List.foldl_cons, List.foldl_cons, addLeaf_below hleaf,
      lookup_eq_none_of_not_mem hkey, insertEntry_of_not_mem hkey]
    exact foldl_addLeaf_below hkey hrest _

end Together

/-- There are entries. -/
def Full (entries : List (String × ProjectionNode)) : Prop := entries ≠ []

mutual

/-- A node without empty mappings has a leaf. -/
lemma nodeLeaves_ne_nil {node : ProjectionNode} (h : NodeEverywhere Full node) :
    nodeLeaves node ≠ [] := by
  cases node with
  | column c => simp [nodeLeaves]
  | nested entries =>
    rw [nodeLeaves]
    exact entryLeaves_ne_nil h.1 h.2

/-- Entries without empty mappings inside have a leaf below them. -/
lemma entryLeaves_ne_nil {entries : List (String × ProjectionNode)} (hsome : Full entries)
    (h : EntriesEverywhere Full entries) : entryLeaves entries ≠ [] := by
  cases entries with
  | nil => exact absurd rfl hsome
  | cons entry rest =>
    obtain ⟨key, node⟩ := entry
    rw [entryLeaves]
    intro hnil
    have hnode : (nodeLeaves node).map (below key) = [] := (List.append_eq_nil_iff.1 hnil).1
    exact nodeLeaves_ne_nil h.1 (List.map_eq_nil_iff.1 hnode)

end

mutual

/-- The leaves of a node below a new key put the node there again. -/
theorem foldl_addLeaf_node {node : ProjectionNode} (hdistinct : NodeEverywhere Distinct node)
    (hfull : NodeEverywhere Full node) {key : String} {front : List (String × ProjectionNode)}
    (hkey : key ∉ front.map (·.1)) :
    ((nodeLeaves node).map (below key)).foldl addLeaf front = front ++ [(key, node)] := by
  cases node with
  | column c => exact insertEntry_of_not_mem hkey
  | nested entries =>
    have hpaths : ∀ leaf ∈ entryLeaves entries, leaf.1 ≠ [] := by
      intro leaf hleaf
      obtain ⟨k, -, path, hpath⟩ := exists_of_mem_entryLeaves hleaf
      simp [hpath]
    have hinner : (entryLeaves entries).foldl addLeaf [] = [] ++ entries :=
      foldl_addLeaf_entries hdistinct.1 hdistinct.2 hfull.2 (by simp)
    rw [nodeLeaves, foldl_addLeaf_new hkey hpaths (entryLeaves_ne_nil hfull.1 hfull.2), hinner,
      List.nil_append]

/-- The leaves below entries with new keys put the entries there again. -/
theorem foldl_addLeaf_entries {entries : List (String × ProjectionNode)} (hkeys : Distinct entries)
    (hdistinct : EntriesEverywhere Distinct entries) (hfull : EntriesEverywhere Full entries)
    {front : List (String × ProjectionNode)} (hnew : ∀ k ∈ entries.map (·.1), k ∉ front.map (·.1)) :
    (entryLeaves entries).foldl addLeaf front = front ++ entries := by
  cases entries with
  | nil => simp [entryLeaves]
  | cons entry rest =>
    obtain ⟨k, node⟩ := entry
    rw [Distinct, List.map_cons, List.nodup_cons] at hkeys
    obtain ⟨hk, hkeys⟩ := hkeys
    rw [List.map_cons, List.forall_mem_cons] at hnew
    obtain ⟨hkFront, hrestFront⟩ := hnew
    have hrest : ∀ other ∈ rest.map (·.1), other ∉ (front ++ [(k, node)]).map (·.1) := by
      intro other hother hmem
      rw [List.map_append, List.mem_append, List.map_singleton, List.mem_singleton] at hmem
      rcases hmem with hfront | rfl
      · exact hrestFront other hother hfront
      · exact hk hother
    rw [entryLeaves, List.foldl_append, foldl_addLeaf_node hdistinct.1 hfull.1 hkFront,
      foldl_addLeaf_entries hkeys hdistinct.2 hfull.2 hrest, List.append_assoc,
      List.singleton_append]

end

/-- **A flattened mapping** is put together again from its leaves, if its keys are distinct at every
level and no mapping inside is empty. -/
theorem ofLeaves_flatten {map : ProjectionMap} (hkeys : Distinct map.entries)
    (hdistinct : EntriesEverywhere Distinct map.entries)
    (hfull : EntriesEverywhere Full map.entries) : ofLeaves map.flatten = map := by
  have hentries : (entryLeaves map.entries).foldl addLeaf [] = [] ++ map.entries :=
    foldl_addLeaf_entries hkeys hdistinct hfull (by simp)
  rw [ofLeaves, flatten_eq, List.foldl_map]
  exact congrArg ProjectionMap.mk hentries

/-! ## Built mappings -/

/-- **The shape of a built mapping.** Let a recipe build a mapping.

Every mapping found in it at the end of a path, itself included, is what the recipe that was put
there last has built: its keys are distinct, they stand in the order in which they were inserted
first, and under each key there is what was inserted last. The mapping is flattened to its columns,
depth first and in that order; these are the columns that paths lead to. No two leaves have one
path, and the path to a leaf does not go on to another one. If no mapping inside is empty, the
leaves alone give the mapping back.

**Proof sketch.** An insertion keeps the place of a known key and puts a new one last, so a list of
insertions leaves the keys and nodes that the recipe tells (`map_fst_insertAll`,
`lookup_insertAll`); by induction on the path this holds at every level (`nodeAt?_node`). The walk
that flattens a mapping carries the path in front of it, and the leaves without that path are
defined by the structure of the mapping alone (`flattenNode_eq`). A path that led to a column and
on to another one would lead on from a column. The leaves below one key come one behind another, so
they go into one mapping, which is complete when the next key begins (`foldl_addLeaf_node`). -/
theorem build_shape (recipe : Recipe) :
    (∀ path entries,
        nodeAt? (.nested recipe.build.entries) path = some (.nested entries) →
        ∃ inner : Recipe, Recipe.at? (.inr recipe) path = some (.inr inner) ∧
          (entries.map (·.1)).Nodup ∧
          entries.map (·.1) = (inner.insertions.map (·.1)).eraseDups ∧
          ∀ key, entries.lookup key = (inner.last? key).map Recipe.Content.node) ∧
      recipe.build.flatten = (entryLeaves recipe.build.entries).map (fun leaf => ⟨leaf.1, leaf.2⟩) ∧
      (∀ path c, ⟨path, c⟩ ∈ recipe.build.flatten ↔
        nodeAt? (.nested recipe.build.entries) path = some (.column c)) ∧
      (recipe.build.flatten.map (·.path)).Nodup ∧
      (∀ leaf ∈ recipe.build.flatten, ∀ other ∈ recipe.build.flatten,
        leaf.path <+: other.path → leaf = other) ∧
      (EntriesEverywhere Full recipe.build.entries →
        ofLeaves recipe.build.flatten = recipe.build) := by
  have hkeys : Distinct recipe.build.entries := recipe.distinct_build
  have hdistinct : EntriesEverywhere Distinct recipe.build.entries := recipe.everywhere_distinct
  have hnode : NodeEverywhere Distinct (.nested recipe.build.entries) := ⟨hkeys, hdistinct⟩
  have hleaf : ∀ path c, ⟨path, c⟩ ∈ recipe.build.flatten ↔
      nodeAt? (.nested recipe.build.entries) path = some (.column c) := by
    intro path c
    rw [mem_flatten]
    exact mem_nodeLeaves_iff hnode path c
  refine ⟨?_, flatten_eq _, hleaf, ?_, ?_, ofLeaves_flatten hkeys hdistinct⟩
  · intro path entries hpath
    have hcontent := nodeAt?_node (.inr recipe) path
    rw [Recipe.Content.node, hpath] at hcontent
    obtain ⟨content, hat, hnode⟩ := Option.map_eq_some_iff.1 hcontent.symm
    cases content with
    | inl c => cases hnode
    | inr inner =>
      obtain rfl : inner.build.entries = entries := ProjectionNode.nested.inj hnode
      exact ⟨inner, hat, inner.distinct_build, inner.map_fst_build, inner.lookup_build⟩
  · rw [flatten_eq, List.map_map]
    exact nodup_entryLeaves hkeys hdistinct
  · intro leaf hmem other hother hpath
    obtain ⟨rest, hrest⟩ := hpath
    have hfirst := (hleaf leaf.path leaf.column).1 hmem
    have hsecond := (hleaf other.path other.column).1 hother
    rw [← hrest, nodeAt?_append, hfirst, Option.bind_some] at hsecond
    cases rest with
    | nil =>
      rw [List.append_nil] at hrest
      have hcolumn : leaf.column = other.column := by simpa [nodeAt?] using hsecond
      cases leaf
      cases other
      simp_all
    | cons key rest => simp [nodeAt?] at hsecond

/-- A mapping in which the author is a column at first and then a mapping. -/
def Recipe.switched : Recipe :=
  .nested (.column (.collect [("id", ⟨0, "id"⟩), ("author", ⟨0, "author_id"⟩)]) "title"
    ⟨0, "title"⟩) "author" (.column (.collect [("name", ⟨1, "name"⟩)]) "id" ⟨1, "id"⟩)

/-- The mapping of the author stands where the column stood, and holds the keys of its recipe; its
path `["author", "id"]` goes on to no other leaf; the leaves give the mapping back. -/
theorem build_shape_switched :
    (∃ entries, nodeAt? (.nested Recipe.switched.build.entries) ["author"] =
        some (.nested entries) ∧ entries.map (·.1) = ["name", "id"]) ∧
      (∀ other ∈ Recipe.switched.build.flatten, ["author", "id"] <+: other.path →
        ⟨["author", "id"], ⟨1, "id"⟩⟩ = other) ∧
      EntriesEverywhere Full Recipe.switched.build.entries ∧
      ofLeaves Recipe.switched.build.flatten = Recipe.switched.build := by
  obtain ⟨hlevels, -, hleaf, -, hpaths, htogether⟩ := build_shape Recipe.switched
  have hentries : Recipe.switched.build.entries =
      [("id", .column ⟨0, "id"⟩),
        ("author", .nested [("name", .column ⟨1, "name"⟩), ("id", .column ⟨1, "id"⟩)]),
        ("title", .column ⟨0, "title"⟩)] := rfl
  have hfull : EntriesEverywhere Full Recipe.switched.build.entries := by
    simp [hentries, EntriesEverywhere, NodeEverywhere, Full]
  refine ⟨⟨_, rfl, ?_⟩, ?_, hfull, htogether hfull⟩
  · obtain ⟨inner, hat, -, horder, -⟩ := hlevels ["author"] _ rfl
    obtain rfl : Recipe.column (.collect [("name", ⟨1, "name"⟩)]) "id" ⟨1, "id"⟩ = inner :=
      Sum.inr.inj (Option.some.inj hat)
    exact horder
  · intro other hother hpath
    exact hpaths _ ((hleaf _ _).2 rfl) other hother hpath

end ProjectionMap

end BoundSql
