import PhraseCatalog.Proofs.Files.Place

/-! Trees in which no directory has two entries of one name: what a text names in them, and the trees
that have other files at the same places. -/

set_option autoImplicit false

namespace PhraseCatalog.Files

/-! ## Trees with different names -/

theorem lookup_eq_some_iff_mem {α : Type} {entries : List (String × α)}
    (h : (entries.map (·.1)).Nodup) {name : String} {value : α} :
    entries.lookup name = some value ↔ (name, value) ∈ entries := by
  induction entries with
  | nil => simp
  | cons entry entries ih =>
    obtain ⟨key, first⟩ := entry
    rw [List.map_cons, List.nodup_cons] at h
    by_cases hkey : name = key
    · subst hkey
      have hother : (name, value) ∉ entries := fun hmem =>
        h.1 (List.mem_map.mpr ⟨_, hmem, rfl⟩)
      simp [hother, eq_comm]
    · simp [List.lookup_cons, beq_eq_false_iff_ne.mpr hkey, hkey, ih h.2]

namespace Node

/-- In each directory of the tree the entries have different names. -/
def Proper (tree : Node) : Prop :=
  ∀ place entries, tree.get? place = some (.dir entries) → (entries.map (·.1)).Nodup

theorem Proper.nodup {entries : List (String × Node)} (h : (Node.dir entries).Proper) :
    (entries.map (·.1)).Nodup := h [] entries rfl

theorem Proper.get? {tree node : Node} {place : List String} (h : tree.Proper)
    (hget : tree.get? place = some node) : node.Proper := by
  intro rest entries hrest
  apply h (place ++ rest) entries
  rw [get?_append, hget, Option.bind_some, hrest]

theorem Proper.of_mem {entries : List (String × Node)} {name : String} {node : Node}
    (h : (Node.dir entries).Proper) (hmem : (name, node) ∈ entries) : node.Proper := by
  have hget : (Node.dir entries).get? [name] = some node := by
    rw [Node.get?, (lookup_eq_some_iff_mem h.nodup).mpr hmem]
    rfl
  exact h.get? hget

theorem proper_file (content : Content) : (Node.file content).Proper := by
  intro place entries h
  cases place <;> cases h

theorem proper_dir {entries : List (String × Node)} (h : (entries.map (·.1)).Nodup)
    (hinner : ∀ entry ∈ entries, entry.2.Proper) : (Node.dir entries).Proper := by
  intro place found hget
  cases place with
  | nil =>
    cases hget
    exact h
  | cons name rest =>
    cases hnode : entries.lookup name with
    | none => simp [Node.get?, hnode] at hget
    | some node =>
      exact hinner _ ((lookup_eq_some_iff_mem h).mp hnode) rest found
        (by simpa [Node.get?, hnode] using hget)

section Entries
variable {entries : List (String × Node)} (h : (entries.map (·.1)).Nodup) {name : String}
  {content : Content}
include h

theorem fileAt_singleton :
    (dir entries).fileAt [name] = some content ↔ (name, file content) ∈ entries := by
  rw [← lookup_eq_some_iff_mem h, fileAt, get?]
  rcases entries.lookup name with _ | ⟨found | inner⟩ <;> simp [get?, content?]

theorem fileAt_cons {rest : List String} (hrest : rest ≠ []) :
    (dir entries).fileAt (name :: rest) = some content
      ↔ ∃ inner, (name, dir inner) ∈ entries ∧ (dir inner).fileAt rest = some content := by
  simp only [← lookup_eq_some_iff_mem h, fileAt, get?]
  rcases entries.lookup name with _ | ⟨found | inner⟩
  · simp
  · simp [get?_file_of_ne_nil found hrest]
  · simp

end Entries

/-- What a text names in a tree; the empty text names nothing. -/
def named? (tree : Node) (text : String) : Option Node :=
  if text = "" then none else tree.find? (.ofString text)

theorem get?_of_named? {tree node : Node} {text : String} (h : tree.named? text = some node) :
    tree.get? (Path.ofString text).place = some node := by
  unfold named? find? at h
  split at h
  · cases h
  · split at h
    · rename_i place hresolve
      rwa [← place_of_resolve hresolve]
    · cases h

theorem named?_eq_of_resolve {tree : Node} {text : String} {place : List String} (htext : text ≠ "")
    (h : tree.resolve (.ofString text) = .ok place) : tree.named? text = tree.get? place := by
  rw [named?, if_neg htext, find?, h]

theorem Proper.named? {tree node : Node} {text : String} (h : tree.Proper)
    (hnode : tree.named? text = some node) : node.Proper :=
  h.get? (get?_of_named? hnode)

/-! ## Other files at the same places -/

mutual

/-- The tree with other contents in its files; what becomes of a file may depend on its place. -/
def mapFiles (change : List String → Content → Content) : Node → Node
  | file content => file (change [] content)
  | dir entries => dir (mapEntries change entries)

def mapEntries (change : List String → Content → Content) :
    List (String × Node) → List (String × Node)
  | [] => []
  | (name, node) :: rest =>
    (name, mapFiles (fun place => change (name :: place)) node) :: mapEntries change rest

end

variable (change : List String → Content → Content)

theorem keys_mapEntries (entries : List (String × Node)) :
    (mapEntries change entries).map (·.1) = entries.map (·.1) := by
  induction entries with
  | nil => rfl
  | cons entry entries ih => rw [mapEntries, List.map_cons, List.map_cons, ih]

theorem lookup_mapEntries (entries : List (String × Node)) (name : String) :
    (mapEntries change entries).lookup name
      = (entries.lookup name).map (mapFiles fun place => change (name :: place)) := by
  induction entries with
  | nil => rfl
  | cons entry entries ih =>
    obtain ⟨key, node⟩ := entry
    rw [mapEntries, List.lookup_cons, List.lookup_cons, ih]
    by_cases hkey : name = key
    · subst hkey
      simp
    · rw [beq_eq_false_iff_ne.mpr hkey]

theorem get?_mapFiles (node : Node) (place : List String) :
    (node.mapFiles change).get? place
      = (node.get? place).map (mapFiles fun rest => change (place ++ rest)) := by
  induction place generalizing node change with
  | nil => simp [get?]
  | cons name place ih =>
    cases node with
    | file content => simp [mapFiles, get?]
    | dir entries =>
      simp only [mapFiles, get?, lookup_mapEntries]
      cases entries.lookup name with
      | none => rfl
      | some child => exact ih _ child

theorem sameDirs_mapFiles (tree : Node) : SameDirs tree (tree.mapFiles change) := by
  intro place
  unfold DirAt
  rw [get?_mapFiles]
  rcases tree.get? place with _ | ⟨content | entries⟩ <;> simp [mapFiles]

theorem fileAt_mapFiles (tree : Node) (place : List String) :
    (tree.mapFiles change).fileAt place = (tree.fileAt place).map (change place) := by
  unfold fileAt
  rw [get?_mapFiles]
  rcases tree.get? place with _ | ⟨content | entries⟩ <;> simp [mapFiles, content?]

theorem Proper.mapFiles {tree : Node} (h : tree.Proper) : (tree.mapFiles change).Proper := by
  intro place entries hget
  rw [get?_mapFiles, Option.map_eq_some_iff] at hget
  obtain ⟨node, hnode, hentries⟩ := hget
  cases node with
  | file content => cases hentries
  | dir inner =>
    obtain rfl := Node.dir.inj hentries
    rw [keys_mapEntries]
    exact h place inner hnode

theorem named?_mapFiles (tree : Node) (text : String) :
    (tree.mapFiles change).named? text = (tree.named? text).map
      (Node.mapFiles fun rest => change ((Path.ofString text).place ++ rest)) := by
  by_cases htext : text = ""
  · simp [named?, htext]
  have hresolve : ∀ place, (tree.mapFiles change).resolve (.ofString text) = .ok place
      ↔ tree.resolve (.ofString text) = .ok place :=
    fun _ => (sameDirs_mapFiles change tree).resolve_eq_ok_iff
  cases hfound : tree.resolve (.ofString text) with
  | ok place =>
    rw [named?_eq_of_resolve htext hfound, named?_eq_of_resolve htext ((hresolve place).mpr hfound),
      get?_mapFiles, place_of_resolve hfound]
  | error kind =>
    cases hfound' : (tree.mapFiles change).resolve (.ofString text) with
    | ok place => cases hfound.symm.trans ((hresolve place).mp hfound')
    | error kind' => simp [named?, htext, find?, hfound, hfound']

end Node

theorem Path.below_injective (path : Path) {names names' : List String}
    (h : path.below names = path.below names') : names = names' := by
  simpa [below] using h

end PhraseCatalog.Files
