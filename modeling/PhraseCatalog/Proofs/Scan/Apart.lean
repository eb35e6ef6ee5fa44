import PhraseCatalog.Proofs.Files.Place
import PhraseCatalog.Scan

/-! A scan does not look at what is written outside its root, or below one of the directories that it
never enters. -/

set_option autoImplicit false

namespace PhraseCatalog.Scan

open Files Json

/-- The place is not below the root of a scan, other than through a directory that is never
entered. -/
def Apart (root : String) (place : List String) : Prop :=
  ∀ names, place = (Path.ofString root).place ++ names → ∃ name ∈ names, name ∈ ignoredNames

section Entry
variable {name : String} {entries inner inner' : List (String × Node)}
  (h : entries.lookup name = some (.dir inner))
include h

theorem sourceEntries_setMember :
    sourceEntries (setMember name (.dir inner') entries) = sourceEntries entries := by
  induction entries with
  | nil => cases h
  | cons entry entries ih =>
    obtain ⟨key, node⟩ := entry
    by_cases hkey : key = name
    · subst hkey
      obtain rfl : node = .dir inner := by simpa using h
      simp [setMember, sourceEntries]
    · rw [List.lookup_cons, beq_eq_false_iff_ne.mpr (Ne.symm hkey)] at h
      have hrest := ih h
      unfold sourceEntries at hrest ⊢
      rw [setMember, if_neg hkey, List.filterMap_cons, List.filterMap_cons, hrest]

theorem branches_setMember
    (hsources : ignoredNames.contains name = true ∨ sources (.dir inner') = sources (.dir inner)) :
    branches (setMember name (.dir inner') entries) = branches entries := by
  induction entries with
  | nil => cases h
  | cons entry entries ih =>
    obtain ⟨key, node⟩ := entry
    by_cases hkey : key = name
    · subst hkey
      obtain rfl : node = .dir inner := by simpa using h
      rw [setMember, if_pos rfl, branches, branches]
      rcases hsources with hignored | hsame
      · rw [if_pos hignored, if_pos hignored]
      · rw [hsame]
    · rw [List.lookup_cons, beq_eq_false_iff_ne.mpr (Ne.symm hkey)] at h
      rw [setMember, if_neg hkey]
      cases node with
      | file content => rw [branches, branches, ih h]
      | dir others => rw [branches, branches, ih h]

theorem sources_setMember
    (hsources : ignoredNames.contains name = true ∨ sources (.dir inner') = sources (.dir inner)) :
    sources (.dir (setMember name (.dir inner') entries)) = sources (.dir entries) := by
  rw [sources, sources, sourceEntries_setMember h, branches_setMember h hsources]

end Entry

theorem exists_put_eq_dir (entries inner : List (String × Node)) (place : List String) :
    ∃ entries', (Node.dir entries).put place (.dir inner) = .dir entries' := by
  cases place with
  | nil => exact ⟨inner, rfl⟩
  | cons name names => exact ⟨_, rfl⟩

/-- A directory behind one that is never entered can be any other one. -/
theorem sources_put_dir {node : Node} {names : List String} (hdir : node.DirAt names)
    (hignored : ∃ name ∈ names, name ∈ ignoredNames) (new : List (String × Node)) :
    sources (node.put names (.dir new)) = sources node := by
  induction names generalizing node with
  | nil => simp at hignored
  | cons name names ih =>
    obtain ⟨found, hget⟩ := hdir
    cases node with
    | file content => cases hget
    | dir entries =>
      cases hlookup : entries.lookup name with
      | none => simp [Node.get?, hlookup] at hget
      | some child =>
        simp only [Node.get?, hlookup] at hget
        have hchild : ∃ inner, child = .dir inner := by
          cases child with
          | dir inner => exact ⟨inner, rfl⟩
          | file content => cases names <;> cases hget
        obtain ⟨inner, rfl⟩ := hchild
        obtain ⟨inner', hinner'⟩ := exists_put_eq_dir inner new names
        rw [Node.put, hlookup, Option.getD_some, hinner']
        refine sources_setMember hlookup ?_
        by_cases hname : name ∈ ignoredNames
        · exact .inl (List.contains_iff_mem.mpr hname)
        · obtain ⟨other, hother, hmem⟩ := hignored
          have hrest : other ∈ names := by
            rcases List.mem_cons.mp hother with rfl | hother
            · exact absurd hmem hname
            · exact hother
          rw [← hinner']
          exact .inr (ih ⟨found, hget⟩ ⟨other, hrest, hmem⟩)

theorem sources_put {node : Node} {names : List String} (hdir : node.DirAt names)
    (hignored : ∃ name ∈ names, name ∈ ignoredNames) (last : String) (new : Node) :
    sources (node.put (names ++ [last]) new) = sources node := by
  obtain ⟨entries, hget⟩ := hdir
  rw [Node.put_append hget]
  exact sources_put_dir ⟨entries, hget⟩ hignored _

/-- The source files below what is found, if something is. -/
def sourcesOf (node? : Option Node) : List (List String × Content) :=
  (node?.map sources).getD []

theorem sourcesOf_of_not_dirAt {tree : Node} {place : List String} (h : ¬ tree.DirAt place) :
    sourcesOf (tree.get? place) = [] := by
  rcases hget : tree.get? place with _ | ⟨content | entries⟩
  · rfl
  · simp [sourcesOf, sources]
  · exact absurd ⟨entries, hget⟩ h

theorem findSources_of_resolve {tree : Node} {root : String} {place : List String}
    (hroot : root ≠ "") (h : tree.resolve (.ofString root) = .ok place) :
    findSources tree root = (sourcesOf (tree.get? place)).map fun (names, content) =>
      ((Path.ofString root).below names, content) := by
  have hfind : tree.find? (.ofString root) = tree.get? place := by rw [Node.find?, h]
  rw [findSources, if_neg hroot, hfind]
  cases hget : tree.get? place with
  | none => rfl
  | some node => rfl

theorem findSources_of_resolve_error {tree : Node} {root : String} {kind : FaultKind}
    (h : tree.resolve (.ofString root) = .error kind) : findSources tree root = [] := by
  have hfind : tree.find? (.ofString root) = none := by rw [Node.find?, h]
  rw [findSources, hfind]
  simp

section Write
variable {tree : Node} {root name : String} {place : List String} (hapart : Apart root place)
  (hdir : tree.DirAt place) (hold : ¬ tree.DirAt (place ++ [name])) (content : Content)
include hapart hdir hold

theorem sourcesOf_put : sourcesOf ((tree.put (place ++ [name]) (.file content)).get?
    (Path.ofString root).place) = sourcesOf (tree.get? (Path.ofString root).place) := by
  by_cases habove : (Path.ofString root).place <+: place
  · obtain ⟨names, hnames⟩ := habove
    obtain ⟨entries, hget⟩ := hdir
    rw [← hnames, Node.get?_append] at hget
    obtain ⟨node, hnode, hentries⟩ := Option.bind_eq_some_iff.mp hget
    rw [← hnames, List.append_assoc, Node.get?_put_above hnode, hnode]
    simp only [sourcesOf, Option.map_some, Option.getD_some]
    exact sources_put ⟨entries, hentries⟩ (hapart names hnames.symm) name _
  by_cases hbelow : place ++ [name] <+: (Path.ofString root).place
  · -- at the file and behind it there is no directory, before and after
    have hold' : ¬ (tree.put (place ++ [name]) (.file content)).DirAt (place ++ [name]) := by
      rwa [Node.dirAt_put_file hdir hold]
    by_cases hself : (Path.ofString root).place = place ++ [name]
    · rw [hself, sourcesOf_of_not_dirAt hold, sourcesOf_of_not_dirAt hold']
    · rw [Node.get?_eq_none_below hold hbelow hself, Node.get?_eq_none_below hold' hbelow hself]
  · have habove' : ¬ (Path.ofString root).place <+: place ++ [name] := by
      intro hbegins
      rcases List.prefix_concat_iff.mp hbegins with heq | hbegins
      · exact hbelow (heq ▸ List.prefix_rfl)
      · exact habove hbegins
    rw [Node.get?_put_of_diverging hbelow habove']

theorem findSources_put :
    findSources (tree.put (place ++ [name]) (.file content)) root = findSources tree root := by
  have hsame : Node.SameDirs tree (tree.put (place ++ [name]) (.file content)) :=
    Node.dirAt_put_file hdir hold content
  by_cases hroot : root = ""
  · rw [findSources, findSources, if_pos hroot, if_pos hroot]
  cases hresolve : tree.resolve (.ofString root) with
  | error kind =>
    rw [findSources_of_resolve_error hresolve]
    cases hresolve' : (tree.put (place ++ [name]) (.file content)).resolve (.ofString root) with
    | error kind' => exact findSources_of_resolve_error hresolve'
    | ok found =>
      rw [hsame.resolve_eq_ok_iff, hresolve] at hresolve'
      cases hresolve'
  | ok found =>
    rw [findSources_of_resolve hroot hresolve,
      findSources_of_resolve hroot (hsame.resolve_eq_ok_iff.mpr hresolve)]
    obtain rfl := Node.place_of_resolve hresolve
    rw [sourcesOf_put hapart hdir hold content]

theorem loadPhrases_put :
    loadPhrases (tree.put (place ++ [name]) (.file content)) root = loadPhrases tree root := by
  rw [loadPhrases, extractPhrases, findSources_put hapart hdir hold content]
  rfl

end Write

/-- A scan finds the same files once the directory has other entries: outside it nothing has changed,
and what the scan reads inside it is what was there. -/
theorem findSources_put_dir {tree : Node} {root : String} {place : List String}
    {entries : List (String × Node)} (hapart : Apart root place) (hdir : tree.DirAt place)
    (hresolve : (tree.put place (.dir entries)).resolve (.ofString root)
      = tree.resolve (.ofString root))
    (hinside : place <+: (Path.ofString root).place →
      (tree.put place (.dir entries)).get? (Path.ofString root).place
        = tree.get? (Path.ofString root).place) :
    findSources (tree.put place (.dir entries)) root = findSources tree root := by
  by_cases hroot : root = ""
  · rw [findSources, findSources, if_pos hroot, if_pos hroot]
  cases hfound : tree.resolve (.ofString root) with
  | error kind =>
    rw [findSources_of_resolve_error hfound, findSources_of_resolve_error (hresolve.trans hfound)]
  | ok found =>
    rw [findSources_of_resolve hroot hfound, findSources_of_resolve hroot (hresolve.trans hfound)]
    obtain rfl := Node.place_of_resolve hfound
    suffices hsame : sourcesOf ((tree.put place (.dir entries)).get? (Path.ofString root).place)
        = sourcesOf (tree.get? (Path.ofString root).place) by rw [hsame]
    by_cases hbelow : place <+: (Path.ofString root).place
    · rw [hinside hbelow]
    by_cases habove : (Path.ofString root).place <+: place
    · obtain ⟨names, hnames⟩ := habove
      obtain ⟨inner, hget⟩ := hdir
      rw [← hnames, Node.get?_append] at hget
      obtain ⟨node, hnode, hinner⟩ := Option.bind_eq_some_iff.mp hget
      rw [← hnames, Node.get?_put_above hnode, hnode]
      exact sources_put_dir ⟨inner, hinner⟩ (hapart names hnames.symm) entries
    · rw [Node.get?_put_of_diverging hbelow habove]

end PhraseCatalog.Scan
