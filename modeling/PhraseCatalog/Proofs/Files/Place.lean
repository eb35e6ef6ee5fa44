import PhraseCatalog.Files.Tree

/-! Places in a tree: where paths lead, and what a change at one place does to the others. -/

set_option autoImplicit false

namespace PhraseCatalog.Files

open Json

/-! ## Where paths lead -/

/-- The place of an entry; `..` is the directory above. -/
def stepInto (place : List String) (name : String) : List String :=
  if name = ".." then place.dropLast else place ++ [name]

/-- The place that a path leads to where it leads anywhere. -/
def Path.place (path : Path) : List String := path.parts.foldl stepInto []

theorem Path.place_child (path : Path) {name : String} (h : name ≠ "..") :
    (path.child name).place = path.place ++ [name] := by
  rw [place, child, List.foldl_append, List.foldl_cons, List.foldl_nil, stepInto, if_neg h, place]

namespace Node
variable {root : Node}

def DirAt (root : Node) (place : List String) : Prop :=
  ∃ entries, root.get? place = some (.dir entries)

/-- What the file at a place holds, if there is one. -/
def fileAt (root : Node) (place : List String) : Option Content :=
  (root.get? place).bind content?

theorem enter_eq_ok_iff {place place' : List String} {name : String} :
    root.enter place name = .ok place' ↔ root.DirAt place ∧ place' = stepInto place name := by
  unfold enter DirAt stepInto
  obtain _ | ⟨content | entries⟩ := root.get? place
  · simp
  · simp
  · simp [eq_comm]

theorem foldlM_enter_eq_ok {parts : List String} {place place' : List String}
    (h : parts.foldlM root.enter place = .ok place') : place' = parts.foldl stepInto place := by
  induction parts generalizing place with
  | nil => cases h; rfl
  | cons name parts ih =>
    cases hname : root.enter place name with
    | error kind => simp [hname, bind, Except.bind] at h
    | ok next =>
      obtain ⟨-, rfl⟩ := enter_eq_ok_iff.mp hname
      exact ih (by simpa [hname, bind, Except.bind] using h)

theorem place_of_resolve {path : Path} {place : List String} (h : root.resolve path = .ok place) :
    place = path.place :=
  foldlM_enter_eq_ok h

theorem resolve_child (root : Node) (path : Path) (name : String) :
    root.resolve (path.child name) = match root.resolve path with
      | .error kind => .error kind
      | .ok holder => root.enter holder name := by
  unfold resolve Path.child
  rw [List.foldlM_append]
  cases path.parts.foldlM root.enter [] with
  | error kind => rfl
  | ok holder => exact bind_pure (root.enter holder name)

theorem resolve_child_eq_ok_iff {path : Path} {name : String} {place : List String} :
    root.resolve (path.child name) = .ok place
      ↔ ∃ dir, root.resolve path = .ok dir ∧ root.DirAt dir ∧ place = stepInto dir name := by
  rw [resolve_child]
  cases root.resolve path <;> simp [enter_eq_ok_iff]

theorem isDirAt_iff {path : Path} :
    root.isDirAt path = true ↔ ∃ place, root.resolve path = .ok place ∧ root.DirAt place := by
  unfold isDirAt find? DirAt
  cases root.resolve path with
  | error kind => simp
  | ok place =>
    rcases hget : root.get? place with _ | ⟨content | entries⟩ <;> simp [isDir, hget]

/-! ## What stands where -/

theorem get?_append (root : Node) (place rest : List String) :
    root.get? (place ++ rest) = (root.get? place).bind (·.get? rest) := by
  induction place generalizing root with
  | nil => simp [get?]
  | cons name place ih =>
    cases root with
    | file content => rfl
    | dir entries =>
      simp only [List.cons_append, get?]
      cases entries.lookup name with
      | none => rfl
      | some node => exact ih node

theorem get?_empty_of_ne_nil {place : List String} (h : place ≠ []) : empty.get? place = none := by
  obtain ⟨name, rest, rfl⟩ := List.exists_cons_of_ne_nil h
  rfl

/-- What stands on the way to a change is changed behind the rest of the way. -/
theorem get?_put_above {place : List String} {node : Node} (h : root.get? place = some node)
    (rest : List String) (new : Node) :
    (root.put (place ++ rest) new).get? place = some (node.put rest new) := by
  induction place generalizing root with
  | nil =>
    cases h
    rfl
  | cons name place ih =>
    cases root with
    | file content => cases h
    | dir entries =>
      cases hlookup : entries.lookup name with
      | none => simp [get?, hlookup] at h
      | some child =>
        simp only [get?, hlookup] at h
        simp only [List.cons_append, put, get?, hlookup, lookup_setMember, if_true,
          Option.getD_some]
        exact ih h

/-- A change behind a place is a change of what stands there. -/
theorem put_append {place : List String} {node : Node} (h : root.get? place = some node)
    (rest : List String) (new : Node) :
    root.put (place ++ rest) new = root.put place (node.put rest new) := by
  induction place generalizing root with
  | nil =>
    cases h
    rfl
  | cons name place ih =>
    cases root with
    | file content => cases h
    | dir entries =>
      cases hlookup : entries.lookup name with
      | none => simp [get?, hlookup] at h
      | some child =>
        simp only [get?, hlookup] at h
        simp only [List.cons_append, put, hlookup, Option.getD_some, ih h]

theorem get?_put_of_diverging {place other : List String} (h : ¬ place <+: other)
    (h' : ¬ other <+: place) (new : Node) : (root.put place new).get? other = root.get? other := by
  induction place generalizing root other with
  | nil => exact absurd List.nil_prefix h
  | cons name place ih =>
    cases other with
    | nil => exact absurd List.nil_prefix h'
    | cons name' other =>
      cases root with
      | file content => rfl
      | dir entries =>
        simp only [put, get?, lookup_setMember]
        by_cases hname : name' = name
        · subst hname
          rw [List.prefix_cons_inj] at h h'
          have hother : other ≠ [] := by
            rintro rfl
            exact h' List.nil_prefix
          rw [if_pos rfl]
          cases hlookup : entries.lookup name' with
          | none => simpa [get?_empty_of_ne_nil hother] using @ih empty other h h'
          | some child => simpa using @ih child other h h'
        · rw [if_neg hname]

theorem get?_eq_none_below {place other : List String} (h : ¬ root.DirAt place)
    (hbegins : place <+: other) (hne : other ≠ place) : root.get? other = none := by
  obtain ⟨rest, rfl⟩ := hbegins
  have hrest : rest ≠ [] := by
    rintro rfl
    exact hne (List.append_nil place)
  obtain ⟨name, rest, rfl⟩ := List.exists_cons_of_ne_nil hrest
  rw [get?_append]
  rcases hget : root.get? place with _ | ⟨content | entries⟩
  · rfl
  · rfl
  · exact absurd ⟨entries, hget⟩ h

theorem put_put (root : Node) (place : List String) (first second : Node) :
    (root.put place first).put place second = root.put place second := by
  induction place generalizing root with
  | nil => rfl
  | cons name place ih =>
    cases root with
    | file content => rfl
    | dir entries =>
      simp only [put, lookup_setMember, if_true, Option.getD_some, setMember_setMember, ih]

theorem put_of_get? {place : List String} {node : Node} (h : root.get? place = some node) :
    root.put place node = root := by
  induction place generalizing root with
  | nil =>
    cases h
    rfl
  | cons name place ih =>
    cases root with
    | file content => rfl
    | dir entries =>
      cases hlookup : entries.lookup name with
      | none => simp [get?, hlookup] at h
      | some child =>
        simp only [get?, hlookup] at h
        rw [put, hlookup, Option.getD_some, ih h, setMember_of_lookup hlookup]

theorem get?_put_self {place : List String} {name : String} (h : root.DirAt place) (new : Node) :
    (root.put (place ++ [name]) new).get? (place ++ [name]) = some new := by
  obtain ⟨entries, hget⟩ := h
  rw [get?_append, get?_put_above hget]
  simp [put, get?, lookup_setMember]

/-- What is put is there, unless a file is in the way. -/
theorem get?_put_self_or (root : Node) (place : List String) (new : Node) :
    (root.put place new).get? place = some new ∨ (root.put place new).get? place = none := by
  induction place generalizing root with
  | nil => exact .inl rfl
  | cons name place ih =>
    cases root with
    | file content => exact .inr rfl
    | dir entries =>
      simp only [put, get?, lookup_setMember, if_true]
      exact ih _

/-- A change below a place leaves a file that is there, and makes none. -/
theorem fileAt_put_below {place rest : List String} (h : rest ≠ []) (new : Node) :
    (root.put (place ++ rest) new).fileAt place = root.fileAt place := by
  obtain ⟨first, rest, rfl⟩ := List.exists_cons_of_ne_nil h
  induction place generalizing root with
  | nil => cases root <;> rfl
  | cons name place ih =>
    cases root with
    | file content => rfl
    | dir entries =>
      simp only [List.cons_append, put, fileAt, get?, lookup_setMember, if_true]
      cases hlookup : entries.lookup name with
      | none =>
        have hempty : empty.fileAt place = none := by cases place <;> rfl
        exact ih.trans hempty
      | some child => exact ih

/-- A file or an empty directory that is put where no directory is changes no other file. -/
theorem fileAt_put_of_ne {place other : List String} {new : Node} (hold : ¬ root.DirAt place)
    (hnew : ∀ rest, rest ≠ [] → new.get? rest = none) (hne : other ≠ place) :
    (root.put place new).fileAt other = root.fileAt other := by
  by_cases hbelow : place <+: other
  · have hnone := get?_eq_none_below hold hbelow hne
    obtain ⟨rest, rfl⟩ := hbelow
    have hrest : rest ≠ [] := by
      rintro rfl
      exact hne (List.append_nil place)
    rw [fileAt, fileAt, hnone, get?_append]
    rcases get?_put_self_or root place new with hself | hself
    · rw [hself, Option.bind_some, hnew rest hrest]
    · rw [hself, Option.bind_none]
  by_cases habove : other <+: place
  · obtain ⟨rest, rfl⟩ := habove
    refine fileAt_put_below ?_ new
    rintro rfl
    exact hne (List.append_nil other).symm
  · rw [fileAt, fileAt, get?_put_of_diverging hbelow habove]

theorem fileAt_put_empty {place : List String} (h : root.get? place = none) (other : List String) :
    (root.put place empty).fileAt other = root.fileAt other := by
  by_cases hother : other = place
  · subst hother
    rw [fileAt, fileAt, h]
    rcases get?_put_self_or root other empty with hself | hself
    · rw [hself]
      rfl
    · rw [hself]
  · refine fileAt_put_of_ne ?_ (fun rest hrest => get?_empty_of_ne_nil hrest) hother
    rintro ⟨entries, hget⟩
    rw [h] at hget
    cases hget

theorem get?_file_of_ne_nil (content : Content) {rest : List String} (h : rest ≠ []) :
    (file content).get? rest = none := by
  obtain ⟨name, rest, rfl⟩ := List.exists_cons_of_ne_nil h
  rfl

theorem get?_of_fileAt {place : List String} {content : Content}
    (h : root.fileAt place = some content) : root.get? place = some (.file content) := by
  rw [fileAt, Option.bind_eq_some_iff] at h
  obtain ⟨node, hget, hcontent⟩ := h
  cases node with
  | dir entries => cases hcontent
  | file content' =>
    obtain rfl : content' = content := by simpa [content?] using hcontent
    exact hget

theorem not_dirAt_of_fileAt {place : List String} {content : Content}
    (h : root.fileAt place = some content) : ¬ root.DirAt place := by
  rintro ⟨entries, hget⟩
  rw [get?_of_fileAt h] at hget
  cases hget

theorem DirAt.of_append {place rest : List String} (h : root.DirAt (place ++ rest)) :
    root.DirAt place := by
  obtain ⟨entries, hget⟩ := h
  rw [get?_append, Option.bind_eq_some_iff] at hget
  obtain ⟨node, hnode, hrest⟩ := hget
  cases node with
  | dir inner => exact ⟨inner, hnode⟩
  | file content => cases rest <;> cases hrest

/-- What a path leads to and is no directory stands in one. -/
theorem exists_parent_of_resolve {path : Path} {place : List String}
    (h : root.resolve path = .ok place) (hold : ¬ root.DirAt place) (hne : place ≠ []) :
    ∃ dir name, place = dir ++ [name] ∧ root.DirAt dir := by
  unfold resolve at h
  rcases List.eq_nil_or_concat path.parts with hnil | ⟨parts, last, hparts⟩
  · rw [hnil] at h
    exact absurd (Except.ok.inj h).symm hne
  rw [hparts, List.concat_eq_append, List.foldlM_append] at h
  cases hway : parts.foldlM root.enter [] with
  | error kind => simp [hway, bind, Except.bind] at h
  | ok dir =>
    have hlast : root.enter dir last = .ok place := by
      rw [hway] at h
      exact (bind_pure (root.enter dir last)).symm.trans h
    obtain ⟨hdir, rfl⟩ := enter_eq_ok_iff.mp hlast
    unfold stepInto at hold ⊢
    by_cases hup : last = ".."
    · -- the directory above a directory is one
      rw [if_pos hup] at hold
      have habove : root.DirAt (dir.dropLast ++ dir.drop (dir.length - 1)) := by
        rwa [List.dropLast_eq_take, List.take_append_drop]
      exact absurd habove.of_append hold
    · exact ⟨dir, last, if_neg hup, hdir⟩

theorem dirAt_of_fileAt {place : List String} {name : String} {content : Content}
    (h : root.fileAt (place ++ [name]) = some content) : root.DirAt place := by
  have hget := get?_of_fileAt h
  rw [get?_append, Option.bind_eq_some_iff] at hget
  obtain ⟨node, hnode, hchild⟩ := hget
  cases node with
  | dir entries => exact ⟨entries, hnode⟩
  | file other => cases hchild

section Write
variable {place : List String} {name : String} (hdir : root.DirAt place)
  (hold : ¬ root.DirAt (place ++ [name])) (content : Content)

include hdir hold in
theorem fileAt_put_file (other : List String) :
    (root.put (place ++ [name]) (file content)).fileAt other
      = if other = place ++ [name] then some content else root.fileAt other := by
  by_cases hother : other = place ++ [name]
  · rw [if_pos hother, hother, fileAt, get?_put_self hdir]
    rfl
  · rw [if_neg hother]
    exact fileAt_put_of_ne hold (fun rest hrest => get?_file_of_ne_nil content hrest) hother

include hdir hold in
/-- A file or an empty directory that is put into a directory makes and removes no directory
elsewhere. -/
theorem dirAt_put_of_ne {new : Node} (hnew : ∀ rest, rest ≠ [] → new.get? rest = none)
    {other : List String} (hne : other ≠ place ++ [name]) :
    (root.put (place ++ [name]) new).DirAt other ↔ root.DirAt other := by
  by_cases hbelow : place ++ [name] <+: other
  · have hnone := get?_eq_none_below hold hbelow hne
    obtain ⟨rest, rfl⟩ := hbelow
    have hrest : rest ≠ [] := by
      rintro rfl
      exact hne (List.append_nil _)
    rw [DirAt, DirAt, hnone, get?_append, get?_put_self hdir, Option.bind_some, hnew rest hrest]
  by_cases habove : other <+: place ++ [name]
  · -- on the way to the change there are directories only, before and after
    obtain ⟨rest, hrest⟩ := habove
    have hbegins : other <+: place := by
      rcases List.prefix_concat_iff.mp ⟨rest, hrest⟩ with heq | hbegins
      · exact absurd heq hne
      · exact hbegins
    obtain ⟨between, rfl⟩ := hbegins
    obtain ⟨inner, hnode⟩ := hdir.of_append
    rw [List.append_assoc, DirAt, DirAt, get?_put_above hnode, hnode]
    cases hway : between ++ [name] with
    | nil => simp at hway
    | cons first way => simp [put]
  · rw [DirAt, DirAt, get?_put_of_diverging hbelow habove]

include hdir hold in
theorem dirAt_put_file (other : List String) :
    (root.put (place ++ [name]) (file content)).DirAt other ↔ root.DirAt other := by
  by_cases hself : other = place ++ [name]
  · subst hself
    refine iff_of_false ?_ hold
    rintro ⟨entries, hget⟩
    rw [get?_put_self hdir] at hget
    cases hget
  · exact dirAt_put_of_ne hdir hold (fun rest hrest => get?_file_of_ne_nil content hrest) hself

end Write

/-! ## The same directories -/

/-- The trees have their directories at the same places. -/
def SameDirs (root root' : Node) : Prop := ∀ place, root'.DirAt place ↔ root.DirAt place

theorem SameDirs.refl (root : Node) : SameDirs root root := fun _ => Iff.rfl

theorem SameDirs.trans {root root' root'' : Node} (h : SameDirs root root')
    (h' : SameDirs root' root'') : SameDirs root root'' :=
  fun place => (h' place).trans (h place)

/-- More directories lead a path no other way. -/
theorem resolve_mono {root' : Node} (h : ∀ place, root.DirAt place → root'.DirAt place)
    {path : Path} {place : List String} (hresolve : root.resolve path = .ok place) :
    root'.resolve path = .ok place := by
  unfold resolve at hresolve ⊢
  generalize ([] : List String) = start at hresolve ⊢
  generalize path.parts = parts at hresolve ⊢
  induction parts generalizing start with
  | nil => exact hresolve
  | cons name parts ih =>
    rw [List.foldlM_cons] at hresolve ⊢
    cases hname : root.enter start name with
    | error kind => simp [hname, bind, Except.bind] at hresolve
    | ok next =>
      obtain ⟨hdir, hnext⟩ := enter_eq_ok_iff.mp hname
      rw [hname] at hresolve
      rw [enter_eq_ok_iff.mpr ⟨h start hdir, hnext⟩]
      exact ih next hresolve

/-- Where a path leads depends on the directories alone. -/
theorem SameDirs.resolve_eq_ok_iff {root' : Node} (h : SameDirs root root') {path : Path}
    {place : List String} : root'.resolve path = .ok place ↔ root.resolve path = .ok place :=
  ⟨resolve_mono fun at_ => (h at_).mp, resolve_mono fun at_ => (h at_).mpr⟩

theorem SameDirs.isDirAt_iff {root' : Node} (h : SameDirs root root') {path : Path} :
    root'.isDirAt path = true ↔ root.isDirAt path = true := by
  rw [Node.isDirAt_iff, Node.isDirAt_iff]
  constructor
  · rintro ⟨place, hresolve, hdir⟩
    exact ⟨place, h.resolve_eq_ok_iff.mp hresolve, (h place).mp hdir⟩
  · rintro ⟨place, hresolve, hdir⟩
    exact ⟨place, h.resolve_eq_ok_iff.mpr hresolve, (h place).mpr hdir⟩

theorem dirAt_of_isDirAt {path : Path} (h : root.isDirAt path = true) : root.DirAt path.place := by
  obtain ⟨place, hresolve, hdir⟩ := Node.isDirAt_iff.mp h
  rwa [place_of_resolve hresolve] at hdir

/-! ## Paths past a changed directory -/

section Past
variable {place : List String} (hdir : root.DirAt place) (entries : List (String × Node))
include hdir

theorem enter_put {other : List String} (h : ¬ place <+: other) (name : String) :
    (root.put place (.dir entries)).enter other name = root.enter other name := by
  by_cases habove : other <+: place
  · obtain ⟨rest, rfl⟩ := habove
    obtain ⟨old, hold⟩ := hdir
    rw [get?_append] at hold
    obtain ⟨node, hnode, hrest⟩ := Option.bind_eq_some_iff.mp hold
    have hne : rest ≠ [] := by
      rintro rfl
      exact h (by simp)
    obtain ⟨first, rest, rfl⟩ := List.exists_cons_of_ne_nil hne
    cases node with
    | file content => cases hrest
    | dir inner => rw [enter, enter, get?_put_above hnode, hnode, put]
  · rw [enter, enter, get?_put_of_diverging h habove]

/-- A path leads to the same place if the directory does not lie on its way. -/
theorem resolve_put {path : Path} (hup : ".." ∉ path.parts)
    (h : place <+: path.parts → path.parts = place) :
    (root.put place (.dir entries)).resolve path = root.resolve path := by
  unfold resolve
  suffices ∀ start, (place <+: start ++ path.parts → start ++ path.parts = place) →
      path.parts.foldlM (root.put place (.dir entries)).enter start
        = path.parts.foldlM root.enter start from this [] h
  clear h
  intro start h
  generalize path.parts = parts at hup h
  induction parts generalizing start with
  | nil => rfl
  | cons name parts ih =>
    simp only [List.mem_cons, not_or] at hup
    have hstart : ¬ place <+: start := by
      intro hinside
      have hlen := congrArg List.length (h (hinside.trans (List.prefix_append _ _)))
      have hle := hinside.length_le
      rw [List.length_append, List.length_cons] at hlen
      omega
    rw [List.foldlM_cons, List.foldlM_cons, enter_put hdir entries hstart]
    cases hname : root.enter start name with
    | error kind => rfl
    | ok next =>
      obtain ⟨-, rfl⟩ := enter_eq_ok_iff.mp hname
      refine ih (stepInto start name) hup.2 ?_
      rwa [stepInto, if_neg (Ne.symm hup.1), List.append_assoc]

end Past

theorem place_of_not_up {path : Path} (h : ".." ∉ path.parts) : path.place = path.parts := by
  suffices ∀ start, path.parts.foldl stepInto start = start ++ path.parts from this []
  intro start
  generalize path.parts = parts at h
  induction parts generalizing start with
  | nil => simp
  | cons name parts ih =>
    simp only [List.mem_cons, not_or] at h
    rw [List.foldl_cons, ih _ h.2, stepInto, if_neg (Ne.symm h.1), List.append_assoc]
    rfl

end Node
end PhraseCatalog.Files
