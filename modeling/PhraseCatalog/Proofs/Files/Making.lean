import PhraseCatalog.Proofs.Files.Place

/-! Making directories and writing files: no file changes when directories are made, whatever fails,
a directory that is there already is not made again, and a file that is written changes no other. -/

set_option autoImplicit false

namespace PhraseCatalog.Files

open Text

/-! ## The parts of texts -/

/-- The parts of the path that a text names. -/
def partsOf (text : List Char) : List String := (Path.ofString (String.ofList text)).parts

theorem partsOf_eq (text : List Char) :
    partsOf text = ((splitOn '/' text).map String.ofList).filter fun part =>
      part ≠ "" && part ≠ "." := by
  simp [partsOf, Path.ofString]

theorem partsOf_append_slash (front back : List Char) :
    partsOf (front ++ '/' :: back) = partsOf front ++ partsOf back := by
  simp [partsOf_eq, splitOn_append_cons]

theorem partsOf_append_replicate_slash (text : List Char) (n : Nat) :
    partsOf (text ++ List.replicate n '/') = partsOf text := by
  induction n generalizing text with
  | zero => simp
  | succ n ih =>
    have hrest : partsOf (List.replicate n '/') = [] := by
      have := ih []
      rwa [List.nil_append] at this
    rw [List.replicate_succ, partsOf_append_slash, hrest, List.append_nil]

theorem eq_append_dropWhile_slash (text : List Char) :
    ∃ n, text = (text.reverse.dropWhile (· = '/')).reverse ++ List.replicate n '/' := by
  refine ⟨(text.reverse.takeWhile (· = '/')).length, ?_⟩
  have hall : ∀ c ∈ text.reverse.takeWhile (· = '/'), c = '/' := by
    intro c hc
    have hwhile : (text.reverse.takeWhile (· = '/')).all (· = '/') = true := List.all_takeWhile
    simpa using List.all_eq_true.mp hwhile c hc
  have htake : (text.reverse.takeWhile (· = '/')).reverse
      = List.replicate (text.reverse.takeWhile (· = '/')).length '/' := by
    rw [List.eq_replicate_of_mem hall]
    simp
  rw [← htake, ← List.reverse_append, List.takeWhile_append_dropWhile, List.reverse_reverse]

/-- What stands before the last slash of a text names a path to one above it. -/
theorem partsOf_splitText_above (text : List Char) :
    partsOf (splitText text).1 <+: partsOf text := by
  have htext : text = (text.reverse.dropWhile (· ≠ '/')).reverse
      ++ (text.reverse.takeWhile (· ≠ '/')).reverse := by
    rw [← List.reverse_append, List.takeWhile_append_dropWhile, List.reverse_reverse]
  have hhead : partsOf (splitText text).1
      = partsOf (text.reverse.dropWhile (· ≠ '/')).reverse := by
    obtain ⟨n, hn⟩ := eq_append_dropWhile_slash (text.reverse.dropWhile (· ≠ '/')).reverse
    simp only [splitText]
    split
    · rfl
    · conv => rhs; rw [hn, partsOf_append_replicate_slash]
  rw [hhead]
  have hfirst := List.head?_dropWhile_not (· ≠ '/') text.reverse
  cases hbefore : text.reverse.dropWhile (· ≠ '/') with
  | nil => exact List.nil_prefix
  | cons c before =>
    rw [hbefore] at hfirst htext
    obtain rfl : c = '/' := by simpa using hfirst
    rw [List.reverse_cons, List.append_assoc] at htext
    have hparts : partsOf (before.reverse ++ ['/']) = partsOf before.reverse :=
      partsOf_append_replicate_slash before.reverse 1
    rw [List.reverse_cons, hparts]
    conv => rhs; rw [htext]
    rw [List.singleton_append, partsOf_append_slash]
    exact List.prefix_append _ _

/-- The text of the directory above and the part that names the entry in it, where slashes at the end
do not count. -/
def cutText (text : List Char) : List Char × List Char :=
  match splitText text with
  | (head, []) => splitText head
  | split => split

theorem partsOf_cutText_above (text : List Char) : partsOf (cutText text).1 <+: partsOf text := by
  have hsplit := partsOf_splitText_above text
  unfold cutText
  split
  · rename_i head heq
    rw [heq] at hsplit
    exact (partsOf_splitText_above head).trans hsplit
  · exact hsplit

theorem partsOf_joinText (directory name : String) :
    (Path.ofString (joinText directory name)).parts
      = (Path.ofString directory).parts ++ (Path.ofString name).parts := by
  have hparts : ∀ text : String, (Path.ofString text).parts = partsOf text.toList := by
    intro text
    rw [partsOf, String.ofList_toList]
  rw [hparts, hparts, hparts, joinText]
  by_cases hempty : directory = ""
  · subst hempty
    simp [partsOf_eq, splitOn]
  by_cases hlast : directory.toList.getLast? = some '/'
  · obtain ⟨front, hfront⟩ := List.getLast?_eq_some_iff.mp hlast
    have hslash : partsOf (front ++ ['/']) = partsOf front :=
      partsOf_append_replicate_slash front 1
    rw [if_pos (by simp [hlast]), String.toList_append, hfront, List.append_assoc,
      List.singleton_append, partsOf_append_slash, hslash]
  · rw [if_neg (by simp [hempty, hlast]), String.toList_append, String.toList_append,
      List.append_assoc]
    exact partsOf_append_slash _ _

namespace Node
variable {root : Node}

/-! ## One directory -/

theorem makeDirectory_eq_ok_iff {path : Path} {root' : Node} :
    root.makeDirectory path = .ok root' ↔ root.resolve path = .ok path.place
      ∧ root.get? path.place = none ∧ root' = root.put path.place empty := by
  unfold makeDirectory
  cases hresolve : root.resolve path with
  | error kind => simp [bind, Except.bind]
  | ok place =>
    obtain rfl := place_of_resolve hresolve
    cases hget : root.get? path.place <;> simp [bind, Except.bind, hget, eq_comm]

/-- A directory that is made was not there, and stands in one that was. -/
theorem exists_parent_of_makeDirectory {path : Path} {root' : Node}
    (h : root.makeDirectory path = .ok root') :
    ¬ root.DirAt path.place ∧ ∃ dir name, path.place = dir ++ [name] ∧ root.DirAt dir := by
  obtain ⟨hresolve, hget, rfl⟩ := makeDirectory_eq_ok_iff.mp h
  have hold : ¬ root.DirAt path.place := by
    rintro ⟨entries, hdir⟩
    rw [hget] at hdir
    cases hdir
  have hne : path.place ≠ [] := by
    intro hnil
    rw [hnil] at hget
    cases hget
  exact ⟨hold, exists_parent_of_resolve hresolve hold hne⟩

theorem fileAt_makeDirectory {path : Path} {root' : Node}
    (h : root.makeDirectory path = .ok root') (place : List String) :
    root'.fileAt place = root.fileAt place := by
  obtain ⟨-, hget, rfl⟩ := makeDirectory_eq_ok_iff.mp h
  exact fileAt_put_empty hget place

theorem fileAt_ensureDirectory (root : Node) (path : Path) (shown : String)
    (place : List String) : (root.ensureDirectory path shown).1.fileAt place = root.fileAt place := by
  unfold ensureDirectory
  cases hmake : root.makeDirectory path with
  | error kind => by_cases hdir : root.isDirAt path <;> simp [hdir]
  | ok root' => exact fileAt_makeDirectory hmake place

theorem makeDirectory_of_isDirAt {path : Path} (h : root.isDirAt path = true) :
    root.makeDirectory path = .error .exists := by
  obtain ⟨place, hresolve, entries, hget⟩ := isDirAt_iff.mp h
  simp [makeDirectory, hresolve, bind, Except.bind, hget]

theorem ensureDirectory_of_isDirAt {path : Path} (h : root.isDirAt path = true) (shown : String) :
    root.ensureDirectory path shown = (root, none) := by
  simp [ensureDirectory, makeDirectory_of_isDirAt h, h]

/-! ## A directory with those it stands in -/

theorem fileAt_makePath (steps : Nat) (root : Node) (path : Path) (place : List String) :
    (root.makePath steps path).1.fileAt place = root.fileAt place := by
  induction steps generalizing root path with
  | zero => exact fileAt_ensureDirectory root path path.text place
  | succ steps ih =>
    unfold makePath
    split
    · have hparent := ih root path.parent
      split
      · rename_i root' hmade
        rw [hmade] at hparent
        rw [fileAt_ensureDirectory, hparent]
      · exact hparent
    · exact fileAt_ensureDirectory root path path.text place

theorem fileAt_makeDirectories (root : Node) (path : Path) (place : List String) :
    (root.makeDirectories path).1.fileAt place = root.fileAt place :=
  fileAt_makePath path.parts.length root path place

theorem makeDirectories_of_isDirAt {path : Path} (h : root.isDirAt path = true) :
    root.makeDirectories path = (root, none) := by
  unfold makeDirectories
  cases path.parts.length with
  | zero => exact ensureDirectory_of_isDirAt h path.text
  | succ steps => simp [makePath, makeDirectory_of_isDirAt h, ensureDirectory_of_isDirAt h]

theorem makeSpelled_succ (steps : Nat) (root : Node) (text : List Char) :
    root.makeSpelled (steps + 1) text =
      let last := fun (root : Node) =>
        root.ensureDirectory (.ofString (String.ofList text)) (String.ofList text)
      let above := root.makeSpelled steps (cutText text).1
      if (cutText text).1.isEmpty || (cutText text).2.isEmpty
          || (root.find? (.ofString (String.ofList (cutText text).1))).isSome then last root
      else if above.2.any (·.kind ≠ .exists) then above
      else if (cutText text).2 = ['.'] then (above.1, none)
      else last above.1 :=
  rfl

theorem fileAt_makeSpelled (steps : Nat) (root : Node) (text : List Char) (place : List String) :
    (root.makeSpelled steps text).1.fileAt place = root.fileAt place := by
  induction steps generalizing root text with
  | zero => exact fileAt_ensureDirectory _ _ _ place
  | succ steps ih =>
    have habove := ih root (cutText text).1
    rw [makeSpelled_succ]
    dsimp only
    split
    · exact fileAt_ensureDirectory _ _ _ place
    split
    · exact habove
    split
    · exact habove
    · rw [fileAt_ensureDirectory, habove]

theorem fileAt_makeNamed (root : Node) (text : String) (place : List String) :
    (root.makeNamed text).1.fileAt place = root.fileAt place :=
  fileAt_makeSpelled text.length root text.toList place

/-! ## The directories that are made -/

/-- The directories that were there still are, and new ones are on the way of a path with these
parts. -/
structure MakesOn (parts : List String) (root root' : Node) : Prop where
  keeps : ∀ place, root.DirAt place → root'.DirAt place
  made : ∀ place, root'.DirAt place →
    root.DirAt place ∨ ∃ way, way <+: parts ∧ place = way.foldl stepInto []

theorem MakesOn.refl (parts : List String) (root : Node) : MakesOn parts root root :=
  ⟨fun _ h => h, fun _ h => .inl h⟩

theorem MakesOn.trans {parts : List String} {root' root'' : Node} (h : MakesOn parts root root')
    (h' : MakesOn parts root' root'') : MakesOn parts root root'' where
  keeps place hdir := h'.keeps place (h.keeps place hdir)
  made place hdir := by
    rcases h'.made place hdir with hdir | hway
    · exact h.made place hdir
    · exact .inr hway

theorem MakesOn.of_above {parts above : List String} {root' : Node} (h : MakesOn above root root')
    (habove : above <+: parts) : MakesOn parts root root' where
  keeps := h.keeps
  made place hdir := (h.made place hdir).imp_right fun ⟨way, hway, hplace⟩ =>
    ⟨way, hway.trans habove, hplace⟩

theorem makesOn_makeDirectory {path : Path} {root' : Node} (h : root.makeDirectory path = .ok root') :
    MakesOn path.parts root root' := by
  obtain ⟨hold, dir, name, hplace, hdir⟩ := exists_parent_of_makeDirectory h
  obtain ⟨-, -, rfl⟩ := makeDirectory_eq_ok_iff.mp h
  have hother : ∀ place, place ≠ path.place →
      ((root.put path.place empty).DirAt place ↔ root.DirAt place) := by
    rw [hplace] at hold ⊢
    exact fun place hne => dirAt_put_of_ne hdir hold (fun _ hrest => get?_empty_of_ne_nil hrest) hne
  constructor
  · intro place hat
    refine (hother place ?_).mpr hat
    rintro rfl
    exact hold hat
  · intro place hat
    by_cases hself : place = path.place
    · exact .inr ⟨path.parts, List.prefix_rfl, hself⟩
    · exact .inl ((hother place hself).mp hat)

theorem makesOn_ensureDirectory (root : Node) (path : Path) (shown : String) :
    MakesOn path.parts root (root.ensureDirectory path shown).1 := by
  unfold ensureDirectory
  cases hmake : root.makeDirectory path with
  | ok root' => exact makesOn_makeDirectory hmake
  | error kind =>
    dsimp only
    split <;> exact .refl path.parts root

theorem makesOn_makeSpelled (steps : Nat) (root : Node) (text : List Char) :
    MakesOn (partsOf text) root (root.makeSpelled steps text).1 := by
  induction steps generalizing root text with
  | zero => exact makesOn_ensureDirectory root _ _
  | succ steps ih =>
    have habove := (ih root (cutText text).1).of_above (partsOf_cutText_above text)
    rw [makeSpelled_succ]
    dsimp only
    split
    · exact makesOn_ensureDirectory root _ _
    split
    · exact habove
    split
    · exact habove
    · exact habove.trans (makesOn_ensureDirectory _ _ _)

theorem makesOn_makeNamed (root : Node) (text : String) :
    MakesOn (Path.ofString text).parts root (root.makeNamed text).1 := by
  have hmade := makesOn_makeSpelled text.length root text.toList
  rwa [partsOf, String.ofList_toList] at hmade

theorem isDirAt_of_makeDirectory {path : Path} {root' : Node}
    (h : root.makeDirectory path = .ok root') : root'.isDirAt path = true := by
  have hkeeps := (makesOn_makeDirectory h).keeps
  obtain ⟨-, dir, name, hplace, hdir⟩ := exists_parent_of_makeDirectory h
  obtain ⟨hresolve, -, rfl⟩ := makeDirectory_eq_ok_iff.mp h
  refine isDirAt_iff.mpr ⟨path.place, resolve_mono hkeeps hresolve, [], ?_⟩
  rw [hplace]
  exact get?_put_self hdir empty

theorem isDirAt_of_ensureDirectory {path : Path} {shown : String} {root' : Node}
    (h : root.ensureDirectory path shown = (root', none)) : root'.isDirAt path = true := by
  unfold ensureDirectory at h
  cases hmake : root.makeDirectory path with
  | ok made =>
    rw [hmake] at h
    cases h
    exact isDirAt_of_makeDirectory hmake
  | error kind =>
    rw [hmake] at h
    dsimp only at h
    split at h
    · rename_i hdir
      cases h
      exact hdir
    · cases h

theorem isDirAt_of_makeDirectories {path : Path} {root' : Node}
    (h : root.makeDirectories path = (root', none)) : root'.isDirAt path = true := by
  unfold makeDirectories at h
  cases hsteps : path.parts.length with
  | zero =>
    rw [hsteps] at h
    exact isDirAt_of_ensureDirectory h
  | succ steps =>
    rw [hsteps, makePath] at h
    split at h
    · split at h
      · exact isDirAt_of_ensureDirectory h
      · rename_i hfailed
        exact absurd h (hfailed root')
    · exact isDirAt_of_ensureDirectory h

/-- The way to something that is there leads through what is there. -/
theorem find?_isSome_above {path path' : Path} (hbegins : path'.parts <+: path.parts)
    (h : root.isDirAt path = true) : (root.find? path').isSome = true := by
  obtain ⟨place, hresolve, hdir⟩ := isDirAt_iff.mp h
  obtain ⟨rest, hrest⟩ := hbegins
  rw [resolve, ← hrest, List.foldlM_append] at hresolve
  cases hway : path'.parts.foldlM root.enter [] with
  | error kind => simp [hway, bind, Except.bind] at hresolve
  | ok above =>
    have habove : ∃ node, root.get? above = some node := by
      cases rest with
      | nil =>
        obtain ⟨entries, hget⟩ := hdir
        obtain rfl : above = place := by
          simpa [hway, bind, Except.bind, pure, Except.pure] using hresolve
        exact ⟨_, hget⟩
      | cons name rest =>
        cases hname : root.enter above name with
        | error kind => simp [hway, hname, bind, Except.bind] at hresolve
        | ok next =>
          obtain ⟨⟨entries, hget⟩, -⟩ := enter_eq_ok_iff.mp hname
          exact ⟨_, hget⟩
    obtain ⟨node, hnode⟩ := habove
    simp [find?, resolve, hway, hnode]

theorem makeNamed_of_isDirAt {text : String} (h : root.isDirAt (.ofString text) = true) :
    root.makeNamed text = (root, none) := by
  have hlast : root.ensureDirectory (.ofString (String.ofList text.toList))
      (String.ofList text.toList) = (root, none) := by
    rw [String.ofList_toList]
    exact ensureDirectory_of_isDirAt h text
  unfold makeNamed
  cases text.length with
  | zero => exact hlast
  | succ steps =>
    have hbegins := partsOf_cutText_above text.toList
    have hparts : partsOf text.toList = (Path.ofString text).parts := by
      rw [partsOf, String.ofList_toList]
    rw [hparts] at hbegins
    have hfound := find?_isSome_above hbegins h
    rw [makeSpelled_succ]
    dsimp only
    rw [if_pos (by rw [hfound, Bool.or_true]), hlast]

/-! ## Files -/

theorem writeFile_eq_ok_iff {path : Path} {content : Content} {root' : Node} :
    root.writeFile path content = .ok root' ↔ root.resolve path = .ok path.place
      ∧ ¬ root.DirAt path.place ∧ root' = root.put path.place (file content) := by
  unfold writeFile DirAt
  cases hresolve : root.resolve path with
  | error kind => simp
  | ok place =>
    obtain rfl := place_of_resolve hresolve
    rcases hget : root.get? path.place with _ | ⟨content' | entries⟩ <;> simp [hget, eq_comm]

section Child
variable {path : Path} {name : String} (h : root.isDirAt path = true) (hname : name ≠ "..")
include h hname

theorem resolve_child_of_isDirAt :
    root.resolve (path.child name) = .ok (path.place ++ [name]) := by
  obtain ⟨place, hplace, hdir⟩ := isDirAt_iff.mp h
  refine resolve_child_eq_ok_iff.mpr ⟨place, hplace, hdir, ?_⟩
  rw [stepInto, if_neg hname, place_of_resolve hplace]

/-- An entry of a directory can be written unless it is a directory. -/
theorem writeFile_child_eq_ok_iff {content : Content} {root' : Node} :
    root.writeFile (path.child name) content = .ok root' ↔ ¬ root.DirAt (path.place ++ [name])
      ∧ root' = root.put (path.place ++ [name]) (file content) := by
  rw [writeFile_eq_ok_iff, Path.place_child path hname, resolve_child_of_isDirAt h hname]
  simp

theorem writeFile_child_of_dirAt (hdir : root.DirAt (path.place ++ [name])) (content : Content) :
    root.writeFile (path.child name) content
      = .error ⟨.isDirectory, (path.child name).text⟩ := by
  obtain ⟨entries, hget⟩ := hdir
  rw [writeFile, resolve_child_of_isDirAt h hname]
  simp only [hget]

end Child

end Node
end PhraseCatalog.Files
