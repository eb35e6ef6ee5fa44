import PhraseCatalog.Proofs.Files.Named
import PhraseCatalog.Proofs.Scan.Apart

/-! What a scan lists: the source files of a directory and of those below it that are entered, each
once, in an order that is fixed by the names alone. -/

set_option autoImplicit false

namespace PhraseCatalog.Scan

open Files

/-! ## Source files -/

/-- The file name ends in `.ts` or `.tsx`, or in one of these and a line feed. -/
def SourceName (name : String) : Prop :=
  ∃ stem, ∃ suffix ∈ [".ts", ".tsx", ".ts\n", ".tsx\n"], name = stem ++ suffix

theorem sourceName_iff_reverse {name : String} :
    SourceName name ↔ ∃ suffix ∈ [".ts", ".tsx", ".ts\n", ".tsx\n"],
      suffix.toList.reverse <+: name.toList.reverse := by
  constructor
  · rintro ⟨stem, suffix, hsuffix, rfl⟩
    refine ⟨suffix, hsuffix, stem.toList.reverse, ?_⟩
    rw [String.toList_append, List.reverse_append]
  · rintro ⟨suffix, hsuffix, rest, hrest⟩
    refine ⟨String.ofList rest.reverse, suffix, hsuffix, String.toList_inj.mp ?_⟩
    rw [String.toList_append, String.toList_ofList, ← List.reverse_inj, ← hrest]
    simp

theorem isSourceName_iff {name : String} : isSourceName name = true ↔ SourceName name := by
  rw [sourceName_iff_reverse, isSourceName]
  simp only [List.mem_cons, List.not_mem_nil, or_false, exists_eq_or_imp, exists_eq_left,
    ← List.isPrefixOf_iff_prefix, Bool.or_eq_true]
  rcases name.toList.reverse with _ | ⟨c, rest⟩
  · simp
  by_cases hc : c = '\n'
  · subst hc
    simp
  · simp [hc, Ne.symm hc]

theorem notMem_ignoredNames {name : String} (h : SourceName name) : name ∉ ignoredNames := by
  intro hmem
  have hall : ∀ ignored ∈ ignoredNames, isSourceName ignored = false := by decide
  have hfalse := hall name hmem
  rw [isSourceName_iff.mpr h] at hfalse
  cases hfalse

theorem isRead_iff {name : String} : isRead name = true ↔ SourceName name := by
  simp only [isRead, Bool.and_eq_true, Bool.not_eq_true', List.contains_eq_mem,
    decide_eq_false_iff_not, isSourceName_iff]
  exact and_iff_right_of_imp notMem_ignoredNames

/-- The place of a source file below directories that are all entered. -/
def IsSourcePlace (names : List String) : Prop :=
  ∃ dirs name, names = dirs ++ [name] ∧ (∀ dir ∈ dirs, dir ∉ ignoredNames) ∧ SourceName name

theorem not_isSourcePlace_nil : ¬ IsSourcePlace [] := by
  rintro ⟨dirs, name, h, -⟩
  simp at h

theorem isSourcePlace_singleton {name : String} : IsSourcePlace [name] ↔ SourceName name := by
  constructor
  · rintro ⟨dirs, last, h, -, hname⟩
    obtain ⟨rfl, rfl⟩ : dirs = [] ∧ last = name := by
      cases dirs <;> simp_all
    exact hname
  · exact fun h => ⟨[], name, rfl, by simp, h⟩

theorem isSourcePlace_cons {dir : String} {names : List String} (h : names ≠ []) :
    IsSourcePlace (dir :: names) ↔ dir ∉ ignoredNames ∧ IsSourcePlace names := by
  constructor
  · rintro ⟨dirs, name, heq, hdirs, hname⟩
    cases dirs with
    | nil => simp_all
    | cons first dirs =>
      obtain ⟨rfl, rfl⟩ := List.cons.inj heq
      exact ⟨hdirs _ List.mem_cons_self, dirs, name, rfl,
        fun d hd => hdirs d (List.mem_cons_of_mem _ hd), hname⟩
  · rintro ⟨hdir, dirs, name, rfl, hdirs, hname⟩
    refine ⟨dir :: dirs, name, rfl, ?_, hname⟩
    intro d hd
    rcases List.mem_cons.mp hd with rfl | hd
    · exact hdir
    · exact hdirs d hd

/-! ## What is listed -/

section Entries
variable {entries : List (String × Node)} {name : String} {content : Content}
  {names : List String}

theorem mem_sourceEntries : (name, content) ∈ sourceEntries entries
    ↔ (name, .file content) ∈ entries ∧ SourceName name := by
  simp only [sourceEntries, List.mem_filterMap, ← isRead_iff]
  constructor
  · rintro ⟨⟨key, node⟩, hmem, h⟩
    cases node with
    | dir inner => cases h
    | file found =>
      by_cases hread : isRead key = true
      · simp only [hread, if_true, Option.some.injEq, Prod.mk.injEq] at h
        obtain ⟨rfl, rfl⟩ := h
        exact ⟨hmem, hread⟩
      · simp [hread] at h
  · rintro ⟨hmem, hread⟩
    exact ⟨_, hmem, by simp [hread]⟩

theorem mem_branches {below : List (List String × Content)} : (name, below) ∈ branches entries
    ↔ ∃ inner, (name, .dir inner) ∈ entries ∧ name ∉ ignoredNames
        ∧ below = (sources (.dir inner)).map fun (names, content) => (name :: names, content) := by
  induction entries with
  | nil => simp [branches]
  | cons entry entries ih =>
    obtain ⟨key, node⟩ := entry
    cases node with
    | file found => simp [branches, ih]
    | dir others =>
      rw [branches]
      by_cases hkey : key ∈ ignoredNames
      · rw [if_pos (List.contains_iff_mem.mpr hkey), ih]
        constructor
        · rintro ⟨inner, hmem, h⟩
          exact ⟨inner, List.mem_cons_of_mem _ hmem, h⟩
        · rintro ⟨inner, hmem, hname, h⟩
          rcases List.mem_cons.mp hmem with heq | hmem
          · cases heq
            exact absurd hkey hname
          · exact ⟨inner, hmem, hname, h⟩
      · rw [if_neg (by simpa using hkey), List.mem_cons, ih]
        constructor
        · rintro (heq | ⟨inner, hmem, h⟩)
          · cases heq
            exact ⟨others, List.mem_cons_self, hkey, rfl⟩
          · exact ⟨inner, List.mem_cons_of_mem _ hmem, h⟩
        · rintro ⟨inner, hmem, hname, rfl⟩
          rcases List.mem_cons.mp hmem with heq | hmem
          · cases heq
            exact .inl rfl
          · exact .inr ⟨inner, hmem, hname, rfl⟩

/-- A directory lists its own source files, and what its subdirectories list. -/
theorem mem_sources_dir : (names, content) ∈ sources (.dir entries)
    ↔ (∃ name, names = [name] ∧ (name, .file content) ∈ entries ∧ SourceName name)
      ∨ ∃ name inner rest, names = name :: rest ∧ (name, .dir inner) ∈ entries
          ∧ name ∉ ignoredNames ∧ (rest, content) ∈ sources (.dir inner) := by
  rw [sources, List.mem_append, List.mem_map, List.mem_flatMap]
  simp only [inNameOrder, List.mem_mergeSort]
  refine or_congr ?_ ?_
  · constructor
    · rintro ⟨⟨name, found⟩, hmem, heq⟩
      cases heq
      exact ⟨name, rfl, mem_sourceEntries.mp hmem⟩
    · rintro ⟨name, rfl, hmem⟩
      exact ⟨(name, content), mem_sourceEntries.mpr hmem, rfl⟩
  · constructor
    · rintro ⟨⟨name, below⟩, hmem, hbelow⟩
      obtain ⟨inner, hinner, hname, rfl⟩ := mem_branches.mp hmem
      obtain ⟨⟨rest, found⟩, hrest, heq⟩ := List.mem_map.mp hbelow
      cases heq
      exact ⟨name, inner, rest, rfl, hinner, hname, hrest⟩
    · rintro ⟨name, inner, rest, rfl, hinner, hname, hrest⟩
      exact ⟨_, mem_branches.mpr ⟨inner, hinner, hname, rfl⟩,
        List.mem_map.mpr ⟨_, hrest, rfl⟩⟩

end Entries

theorem ne_nil_of_mem_sources {node : Node} {names : List String} {content : Content}
    (h : (names, content) ∈ sources node) : names ≠ [] := by
  cases node with
  | file found => simp [sources] at h
  | dir entries =>
    rcases mem_sources_dir.mp h with ⟨name, rfl, -⟩ | ⟨name, inner, rest, rfl, -⟩
    · exact List.cons_ne_nil _ _
    · exact List.cons_ne_nil _ _

/-- Below a node those files are listed that stand at the place of a source file. -/
theorem mem_sources_iff {node : Node} (h : node.Proper) {names : List String} {content : Content} :
    (names, content) ∈ sources node ↔ IsSourcePlace names ∧ node.fileAt names = some content := by
  induction names generalizing node with
  | nil =>
    constructor
    · exact fun hmem => absurd rfl (ne_nil_of_mem_sources hmem)
    · exact fun hplace => absurd hplace.1 not_isSourcePlace_nil
  | cons name rest ih =>
    cases node with
    | file found => simp [sources, Node.fileAt, Node.get?]
    | dir entries =>
      rw [mem_sources_dir]
      by_cases hrest : rest = []
      · -- a file of the directory itself
        subst hrest
        rw [isSourcePlace_singleton, Node.fileAt_singleton h.nodup]
        constructor
        · rintro (⟨last, heq, hmem, hname⟩ | ⟨dir, inner, names, heq, -, -, hmem⟩)
          · obtain ⟨rfl, -⟩ := List.cons.inj heq
            exact ⟨hname, hmem⟩
          · obtain ⟨-, rfl⟩ := List.cons.inj heq
            exact absurd rfl (ne_nil_of_mem_sources hmem)
        · rintro ⟨hname, hmem⟩
          exact .inl ⟨name, rfl, hmem, hname⟩
      · rw [isSourcePlace_cons hrest, Node.fileAt_cons h.nodup hrest]
        constructor
        · rintro (⟨last, heq, -⟩ | ⟨dir, inner, names, heq, hmem, hdir, hnames⟩)
          · exact absurd (List.cons.inj heq).2 hrest
          · obtain ⟨rfl, rfl⟩ := List.cons.inj heq
            obtain ⟨hplace, hfile⟩ := (ih (h.of_mem hmem)).mp hnames
            exact ⟨⟨hdir, hplace⟩, inner, hmem, hfile⟩
        · rintro ⟨⟨hdir, hplace⟩, inner, hmem, hfile⟩
          exact .inr ⟨name, inner, rest, rfl, hmem, hdir,
            (ih (h.of_mem hmem)).mpr ⟨hplace, hfile⟩⟩

/-! ## The order of a listing -/

/-- The order in which places are listed: in each directory its files come first, by their names,
and then what is below its subdirectories, by theirs. -/
inductive Before : List String → List String → Prop
  | files {name name' : String} (h : name < name') : Before [name] [name']
  | fileFirst {name dir : String} {rest : List String} (h : rest ≠ []) :
      Before [name] (dir :: rest)
  | dirs {dir dir' : String} {rest rest' : List String} (hrest : rest ≠ []) (hrest' : rest' ≠ [])
      (h : dir < dir') : Before (dir :: rest) (dir' :: rest')
  | inside {dir : String} {rest rest' : List String} (h : Before rest rest') :
      Before (dir :: rest) (dir :: rest')

theorem Before.ne_nil {names names' : List String} (h : Before names names') :
    names ≠ [] ∧ names' ≠ [] := by
  cases h <;> simp

theorem Before.asymm {names names' : List String} (h : Before names names') :
    ¬ Before names' names := by
  induction h with
  | files h =>
    intro h'
    cases h' with
    | files h' => exact String.lt_asymm h h'
    | fileFirst hrest => exact hrest rfl
    | dirs hrest => exact hrest rfl
    | inside h' => exact h'.ne_nil.1 rfl
  | fileFirst hrest =>
    intro h'
    cases h' with
    | files => exact hrest rfl
    | fileFirst hrest' => exact hrest' rfl
    | dirs _ hrest' => exact hrest' rfl
    | inside h' => exact h'.ne_nil.2 rfl
  | dirs hrest hrest' h =>
    intro h'
    cases h' with
    | files => exact hrest rfl
    | fileFirst => exact hrest' rfl
    | dirs _ _ h' => exact String.lt_asymm h h'
    | inside => exact String.lt_irrefl _ h
  | inside h ih =>
    intro h'
    cases h' with
    | files => exact h.ne_nil.1 rfl
    | fileFirst => exact h.ne_nil.2 rfl
    | dirs _ _ h' => exact String.lt_irrefl _ h'
    | inside h' => exact ih h'

theorem Before.irrefl (names : List String) : ¬ Before names names := fun h => h.asymm h

/-- Lists in this order with the same members are equal. -/
theorem eq_of_pairwise_before {α : Type} {listed listed' : List (List String × α)}
    (h : listed.Pairwise fun a b => Before a.1 b.1)
    (h' : listed'.Pairwise fun a b => Before a.1 b.1)
    (hmem : ∀ x, x ∈ listed ↔ x ∈ listed') : listed = listed' := by
  have hnodup : ∀ {l : List (List String × α)}, l.Pairwise (fun a b => Before a.1 b.1) →
      l.Nodup := by
    refine fun hl => hl.imp ?_
    rintro a _ hbefore rfl
    exact Before.irrefl _ hbefore
  have hperm := (List.perm_ext_iff_of_nodup (hnodup h) (hnodup h')).mpr hmem
  exact hperm.eq_of_pairwise (fun a b _ _ hab hba => absurd hba hab.asymm) h h'

section Sorted
variable {α : Type} {entries : List (String × α)}

theorem nodup_inNameOrder (h : (entries.map (·.1)).Nodup) :
    ((inNameOrder entries).map (·.1)).Nodup :=
  ((List.mergeSort_perm entries _).map (·.1)).nodup_iff.mpr h

/-- Entries with different names come one after the other. -/
theorem inNameOrder_pairwise (h : (entries.map (·.1)).Nodup) :
    (inNameOrder entries).Pairwise fun a b => a.1 < b.1 := by
  have hle : (inNameOrder entries).Pairwise fun a b => decide (a.1 ≤ b.1) = true := by
    refine List.pairwise_mergeSort ?_ ?_ entries
    · intro a b c hab hbc
      simp only [decide_eq_true_eq] at hab hbc ⊢
      exact String.le_trans hab hbc
    · intro a b
      simpa using String.le_total a.1 b.1
  have hne := List.pairwise_map.mp (nodup_inNameOrder h)
  refine (hle.and hne).imp ?_
  rintro a b ⟨hab, hne⟩
  simp only [decide_eq_true_eq] at hab
  exact Decidable.byContradiction fun hlt =>
    hne (String.le_antisymm hab (String.not_lt.mp hlt))

end Sorted

theorem nodup_sourceEntries {entries : List (String × Node)} (h : (entries.map (·.1)).Nodup) :
    ((sourceEntries entries).map (·.1)).Nodup := by
  refine h.sublist ?_
  induction entries with
  | nil => exact .slnil
  | cons entry entries ih =>
    obtain ⟨name, node⟩ := entry
    rw [List.map_cons, List.nodup_cons] at h
    have hrest := ih h.2
    unfold sourceEntries at hrest ⊢
    cases node with
    | dir inner => exact hrest.cons name
    | file content =>
      rw [List.filterMap_cons]
      by_cases hread : isRead name = true
      · simpa [hread] using hrest
      · simpa [hread] using hrest.cons name

theorem nodup_branches {entries : List (String × Node)} (h : (entries.map (·.1)).Nodup) :
    ((branches entries).map (·.1)).Nodup := by
  refine h.sublist ?_
  induction entries with
  | nil => exact .slnil
  | cons entry entries ih =>
    obtain ⟨name, node⟩ := entry
    rw [List.map_cons, List.nodup_cons] at h
    have hrest := ih h.2
    cases node with
    | file content => exact hrest.cons name
    | dir inner =>
      rw [branches]
      split
      · exact hrest.cons name
      · exact hrest.cons_cons name

/-- Below a node the files are listed in the order of their places. -/
theorem sources_pairwise (node : Node) (h : node.Proper) :
    (sources node).Pairwise fun a b => Before a.1 b.1 := by
  cases node with
  | file content => exact .nil
  | dir entries =>
    rw [sources, List.pairwise_append, List.pairwise_map, List.pairwise_flatMap]
    refine ⟨?_, ⟨?_, ?_⟩, ?_⟩
    · exact (inNameOrder_pairwise (nodup_sourceEntries h.nodup)).imp fun hlt => .files hlt
    · rintro ⟨name, below⟩ hmem
      obtain ⟨inner, hinner, -, rfl⟩ := mem_branches.mp (List.mem_mergeSort.mp hmem)
      have hbelow := sources_pairwise (.dir inner) (h.of_mem hinner)
      exact List.pairwise_map.mpr (hbelow.imp fun hbefore => .inside hbefore)
    · refine (inNameOrder_pairwise (nodup_branches h.nodup)).imp_of_mem ?_
      rintro ⟨name, below⟩ ⟨name', below'⟩ hmem hmem' hlt x hx y hy
      obtain ⟨inner, -, -, rfl⟩ := mem_branches.mp (List.mem_mergeSort.mp hmem)
      obtain ⟨inner', -, -, rfl⟩ := mem_branches.mp (List.mem_mergeSort.mp hmem')
      obtain ⟨⟨rest, content⟩, hrest, rfl⟩ := List.mem_map.mp hx
      obtain ⟨⟨rest', content'⟩, hrest', rfl⟩ := List.mem_map.mp hy
      exact .dirs (ne_nil_of_mem_sources hrest) (ne_nil_of_mem_sources hrest') hlt
    · intro x hx y hy
      obtain ⟨⟨name, content⟩, -, rfl⟩ := List.mem_map.mp hx
      obtain ⟨⟨dir, below⟩, hmem, hy⟩ := List.mem_flatMap.mp hy
      obtain ⟨inner, -, -, rfl⟩ := mem_branches.mp (List.mem_mergeSort.mp hmem)
      obtain ⟨⟨rest, content'⟩, hrest, rfl⟩ := List.mem_map.mp hy
      exact .fileFirst (ne_nil_of_mem_sources hrest)
termination_by sizeOf node
decreasing_by
  subst_vars
  have := List.sizeOf_lt_of_mem hinner
  simp at this ⊢
  omega

/-! ## The files below a root -/

/-- At the place below what `root` names there is a source file with the content. -/
def SourceAt (tree : Node) (root : String) (names : List String) (content : Content) : Prop :=
  IsSourcePlace names ∧ (tree.named? root).bind (·.fileAt names) = some content

theorem findSources_eq (tree : Node) (root : String) :
    findSources tree root = (sourcesOf (tree.named? root)).map fun (names, content) =>
      ((Path.ofString root).below names, content) := by
  unfold findSources Node.named?
  split
  · rfl
  · cases tree.find? (.ofString root) <;> rfl

section Proper
variable {tree : Node} (h : tree.Proper) {root : String}
include h

theorem mem_sourcesOf_iff {names : List String} {content : Content} :
    (names, content) ∈ sourcesOf (tree.named? root) ↔ SourceAt tree root names content := by
  unfold SourceAt
  cases hnode : tree.named? root with
  | none => simp [sourcesOf]
  | some node => exact mem_sources_iff (h.named? hnode)

theorem sourcesOf_pairwise :
    (sourcesOf (tree.named? root)).Pairwise fun a b => Before a.1 b.1 := by
  cases hnode : tree.named? root with
  | none => exact .nil
  | some node => exact sources_pairwise node (h.named? hnode)

/-- A scan lists exactly the source files below its root, none of them twice, in the order of their
places; where the root names no directory, it lists nothing. -/
theorem findSources_lists_sources (root : String) :
    (∀ path content, (path, content) ∈ findSources tree root
        ↔ ∃ names, path = (Path.ofString root).below names ∧ SourceAt tree root names content)
      ∧ ((findSources tree root).map (·.1)).Nodup
      ∧ (findSources tree root).Pairwise (fun a b => ∃ names names',
          a.1 = (Path.ofString root).below names ∧ b.1 = (Path.ofString root).below names'
            ∧ Before names names')
      ∧ ((∀ entries, tree.named? root ≠ some (.dir entries)) → findSources tree root = []) := by
  rw [findSources_eq]
  refine ⟨fun path content => ?_, ?_, ?_, fun hdir => ?_⟩
  · rw [List.mem_map]
    constructor
    · rintro ⟨⟨names, found⟩, hmem, heq⟩
      cases heq
      exact ⟨names, rfl, (mem_sourcesOf_iff h).mp hmem⟩
    · rintro ⟨names, rfl, hsource⟩
      exact ⟨(names, content), (mem_sourcesOf_iff h).mpr hsource, rfl⟩
  · rw [List.map_map, List.Nodup, List.pairwise_map]
    refine (sourcesOf_pairwise h).imp fun {a b} hbefore heq => ?_
    have hsame : a.1 = b.1 := Path.below_injective _ heq
    exact Before.irrefl b.1 (hsame ▸ hbefore)
  · rw [List.pairwise_map]
    exact (sourcesOf_pairwise h).imp fun {a b} hbefore => ⟨a.1, b.1, rfl, rfl, hbefore⟩
  · rcases hnode : tree.named? root with _ | ⟨content | entries⟩
    · rfl
    · simp [sourcesOf, sources]
    · exact absurd hnode (hdir entries)

end Proper

/-- A directory `dist` with two source files, among other files, and directories with one each. -/
def mixedTree : Node :=
  .dir [("dist", .dir [
    ("x.ts", .dir [("c.tsx", .file (.bytes [])), ("c.txt", .file (.bytes []))]),
    ("public", .dir [("d.ts", .file (.bytes []))]),
    ("z.ts", .file (.bytes [])),
    ("assets", .file (.bytes [])),
    ("b.ts\n", .file (.bytes []))])]

theorem findSources_lists_sources_mixed :
    mixedTree.Proper ∧ ((findSources mixedTree "dist").map (·.1)).Nodup
      ∧ ((Path.ofString "dist").below ["x.ts", "c.tsx"], .bytes []) ∈ findSources mixedTree "dist"
      ∧ ((Path.ofString "dist").below ["public", "d.ts"], .bytes [])
          ∉ findSources mixedTree "dist" := by
  have hproper : mixedTree.Proper := by
    refine Node.proper_dir (by decide) ?_
    simp only [List.forall_mem_singleton]
    refine Node.proper_dir (by decide) ?_
    simp only [List.forall_mem_cons, List.not_mem_nil, false_implies, implies_true, and_true]
    exact ⟨Node.proper_dir (by decide) (by simp [Node.proper_file]),
      Node.proper_dir (by decide) (by simp [Node.proper_file]), Node.proper_file _,
      Node.proper_file _, Node.proper_file _⟩
  obtain ⟨hmem, hnodup, -, -⟩ := findSources_lists_sources hproper "dist"
  refine ⟨hproper, hnodup, (hmem _ _).mpr ⟨_, rfl, ?_, rfl⟩, ?_⟩
  · exact ⟨["x.ts"], "c.tsx", rfl, by decide, "c", ".tsx", by decide, rfl⟩
  · rw [hmem]
    rintro ⟨names, hpath, hplace, -⟩
    obtain rfl := Path.below_injective _ hpath
    exact ((isSourcePlace_cons (by decide)).mp hplace).1 (by decide)

end PhraseCatalog.Scan
