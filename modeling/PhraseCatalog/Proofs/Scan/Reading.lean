import PhraseCatalog.Proofs.Marker.Search
import PhraseCatalog.Proofs.Scan.Listing
import PhraseCatalog.Proofs.Text.Utf8

/-! What a scan makes of the files that it lists: the phrases of all of them, each once and in the
order in which they are found first, or the fault of the first file that is no text. Nothing else in
the tree has a part in it. -/

set_option autoImplicit false

namespace PhraseCatalog.Scan

open Files Text

/-! ## One file -/

/-- The phrases that the registry finds in a decoded file, with repetitions. -/
def foundPhrases (text : List Char) : List String :=
  Marker.registry.flatMap fun m => m.form.phrases (unifyLineEnds text)

theorem extract_unifyLineEnds (text : List Char) :
    Marker.extract Marker.registry (unifyLineEnds text) = .ok (foundPhrases text).eraseDups := by
  rw [Marker.extract_registry, foundPhrases, List.flatMap]

theorem readText_eq_ok {content : Content} {text : List Char}
    (h : content.data = Utf8.encode text) : readText content = .ok (unifyLineEnds text) := by
  rw [readText, Utf8.decode_eq_ok_iff.mpr h]
  rfl

theorem filePhrases_eq_ok {content : Content} {text : List Char}
    (h : content.data = Utf8.encode text) :
    filePhrases content = .ok (foundPhrases text).eraseDups := by
  simp only [filePhrases, readText_eq_ok h, extract_unifyLineEnds]

theorem filePhrases_eq_error {content : Content} {fault : Utf8.Fault}
    (h : Utf8.decode content.data = .error fault) : filePhrases content = .error (.notText fault) := by
  have hread : readText content = .error fault := by
    rw [readText, h]
    rfl
  simp only [filePhrases, hread]

/-! ## The files one after another -/

/-- The texts are those of the files, in their order. -/
abbrev AreTexts : List (Path × Content) → List (List Char) → Prop :=
  List.Forall₂ fun file text => file.2.data = Utf8.encode text

/-- The registry finds the phrases, each once, in the text of the file. -/
def Holds (file : Path × Content) (phrases : List String) : Prop :=
  ∃ text, file.2.data = Utf8.encode text
    ∧ Marker.extract Marker.registry (unifyLineEnds text) = .ok phrases

/-- The first file that is no text, with its fault. -/
def FirstFault (files : List (Path × Content)) (fault : Utf8.Fault) : Prop :=
  ∃ before file after, files = before ++ file :: after ∧ (∀ f ∈ before, Utf8.Valid f.2.data)
    ∧ Utf8.decode file.2.data = .error fault

theorem AreTexts.valid {files : List (Path × Content)} {texts : List (List Char)}
    (h : AreTexts files texts) : ∀ file ∈ files, Utf8.Valid file.2.data := by
  induction h with
  | nil => simp
  | cons hfile _ ih => exact List.forall_mem_cons.mpr ⟨⟨_, hfile⟩, ih⟩

theorem FirstFault.exists_not_valid {files : List (Path × Content)} {fault : Utf8.Fault}
    (h : FirstFault files fault) : ∃ file ∈ files, ¬ Utf8.Valid file.2.data := by
  obtain ⟨before, file, after, rfl, -, hfault⟩ := h
  exact ⟨file, List.mem_append_right before List.mem_cons_self,
    Utf8.exists_decode_eq_error_iff.mp ⟨fault, hfault⟩⟩

theorem collect_of_texts {files : List (Path × Content)} {texts : List (List Char)}
    (h : AreTexts files texts) :
    (collect files).outcome = .ok (texts.flatMap fun text => (foundPhrases text).eraseDups) := by
  induction h with
  | nil => rfl
  | @cons file text files texts hfile _ ih =>
    obtain ⟨path, content⟩ := file
    simp only [collect, filePhrases_eq_ok hfile, ih]
    rfl

theorem collect_of_firstFault {files : List (Path × Content)} {fault : Utf8.Fault}
    (h : FirstFault files fault) : (collect files).outcome = .error (.notText fault) := by
  obtain ⟨before, file, after, rfl, hbefore, hfault⟩ := h
  induction before with
  | nil => simp only [List.nil_append, collect, filePhrases_eq_error hfault]
  | cons first before ih =>
    obtain ⟨path, content⟩ := first
    obtain ⟨text, htext⟩ := hbefore _ List.mem_cons_self
    have hrest := ih fun f hf => hbefore f (List.mem_cons_of_mem _ hf)
    simp only [List.cons_append, collect, filePhrases_eq_ok htext, hrest]
    rfl

theorem holds_iff {files : List (Path × Content)} {lists : List (List String)} :
    List.Forall₂ Holds files lists ↔ ∃ texts, AreTexts files texts
      ∧ lists = texts.map fun text => (foundPhrases text).eraseDups := by
  constructor
  · intro h
    induction h with
    | nil => exact ⟨[], .nil, rfl⟩
    | @cons file list files lists hfile _ ih =>
      obtain ⟨text, htext, hlist⟩ := hfile
      obtain ⟨texts, htexts, rfl⟩ := ih
      rw [extract_unifyLineEnds] at hlist
      exact ⟨text :: texts, .cons htext htexts, by rw [List.map_cons, ← Except.ok.inj hlist]⟩
  · rintro ⟨texts, htexts, rfl⟩
    exact List.forall₂_map_right_iff.mpr
      (htexts.imp fun file text htext => ⟨text, htext, extract_unifyLineEnds text⟩)

/-- All files are texts, or one of them is the first that is not. -/
theorem exists_texts_or_firstFault (files : List (Path × Content)) :
    (∃ texts, AreTexts files texts) ∨ ∃ fault, FirstFault files fault := by
  induction files with
  | nil => exact .inl ⟨[], .nil⟩
  | cons file files ih =>
    cases hfile : Utf8.decode file.2.data with
    | error fault => exact .inr ⟨fault, [], file, files, rfl, by simp, hfile⟩
    | ok text =>
      have htext := Utf8.decode_eq_ok_iff.mp hfile
      rcases ih with ⟨texts, htexts⟩ | ⟨fault, before, first, after, rfl, hbefore, hfault⟩
      · exact .inl ⟨text :: texts, .cons htext htexts⟩
      · refine .inr ⟨fault, file :: before, first, after, rfl, ?_, hfault⟩
        exact List.forall_mem_cons.mpr ⟨⟨text, htext⟩, hbefore⟩

theorem extractPhrases_of_texts {tree : Node} {root : String} {texts : List (List Char)}
    (h : AreTexts (findSources tree root) texts) :
    (extractPhrases tree root).outcome
      = .ok (texts.flatMap fun text => (foundPhrases text).eraseDups).eraseDups := by
  simp only [extractPhrases, collect_of_texts h]

theorem extractPhrases_of_firstFault {tree : Node} {root : String} {fault : Utf8.Fault}
    (h : FirstFault (findSources tree root) fault) :
    (extractPhrases tree root).outcome = .error (.notText fault) := by
  simp only [extractPhrases, collect_of_firstFault h]

/-- The two ways in which a scan can end. -/
theorem extractPhrases_cases (tree : Node) (root : String) :
    (∃ texts, AreTexts (findSources tree root) texts ∧ (extractPhrases tree root).outcome
        = .ok (texts.flatMap fun text => (foundPhrases text).eraseDups).eraseDups)
      ∨ ∃ fault, FirstFault (findSources tree root) fault
        ∧ (extractPhrases tree root).outcome = .error (.notText fault) := by
  rcases exists_texts_or_firstFault (findSources tree root) with ⟨texts, h⟩ | ⟨fault, h⟩
  · exact .inl ⟨texts, h, extractPhrases_of_texts h⟩
  · exact .inr ⟨fault, h, extractPhrases_of_firstFault h⟩

/-! ## Two trees -/

/-- The text that a scan reads at a place below its root, or why it is none. -/
def ReadAt (tree : Node) (root : String) (names : List String)
    (text : Except Utf8.Fault (List Char)) : Prop :=
  ∃ content, SourceAt tree root names content ∧ readText content = text

/-- What a scan reads below its root, file after file. -/
def readings (tree : Node) (root : String) : List (List String × Except Utf8.Fault (List Char)) :=
  (sourcesOf (tree.named? root)).map fun (names, content) => (names, readText content)

theorem mem_readings_iff {tree : Node} (h : tree.Proper) {root : String} {names : List String}
    {text : Except Utf8.Fault (List Char)} :
    (names, text) ∈ readings tree root ↔ ReadAt tree root names text := by
  simp only [readings, ReadAt, List.mem_map, ← mem_sourcesOf_iff h]
  simp

theorem readings_pairwise {tree : Node} (h : tree.Proper) (root : String) :
    (readings tree root).Pairwise fun a b => Before a.1 b.1 :=
  List.pairwise_map.mpr (sourcesOf_pairwise h)

/-- A scan of files sees of each its path and its text. -/
theorem collect_congr {files files' : List (Path × Content)}
    (h : (files.map fun (path, content) => (path, readText content))
      = files'.map fun (path, content) => (path, readText content)) :
    collect files = collect files' := by
  induction files generalizing files' with
  | nil =>
    obtain rfl := List.map_eq_nil_iff.mp h.symm
    rfl
  | cons file files ih =>
    obtain ⟨path, content⟩ := file
    cases files' with
    | nil => cases h
    | cons file' files' =>
      obtain ⟨path', content'⟩ := file'
      obtain ⟨hfile, hrest⟩ := List.cons.inj h
      obtain ⟨rfl, hread⟩ := Prod.mk.inj hfile
      have hphrases : filePhrases content = filePhrases content' := by
        rw [filePhrases, filePhrases, hread]
      rw [collect, collect, hphrases, ih hrest]

theorem extractPhrases_congr {tree tree' : Node} {root : String}
    (h : readings tree' root = readings tree root) :
    extractPhrases tree' root = extractPhrases tree root := by
  have hcollect : collect (findSources tree' root) = collect (findSources tree root) := by
    apply collect_congr
    have hpaths := congrArg
      (List.map fun (names, text) => ((Path.ofString root).below names, text)) h
    simpa [readings, findSources_eq, Function.comp_def] using hpaths
  rw [extractPhrases, extractPhrases, hcollect]

/-- Trees in which the same texts are read at the same places are scanned alike. -/
theorem extractPhrases_eq_of_readAt {tree tree' : Node} {root : String} (h : tree.Proper)
    (h' : tree'.Proper)
    (hsame : ∀ names text, ReadAt tree' root names text ↔ ReadAt tree root names text) :
    extractPhrases tree' root = extractPhrases tree root := by
  apply extractPhrases_congr
  refine eq_of_pairwise_before (readings_pairwise h' root) (readings_pairwise h root) ?_
  rintro ⟨names, text⟩
  rw [mem_readings_iff h', mem_readings_iff h, hsame]

/-- A scan gives the phrases of the listed files, file after file and each at its first place among
all occurrences; it fails exactly where a listed file is no text, with the fault of the first of them;
and it is the same for two trees with the same source files. -/
theorem extractPhrases_reads_sources (tree : Node) (root : String) :
    (∀ phrases, (extractPhrases tree root).outcome = .ok phrases
        ↔ ∃ lists, List.Forall₂ Holds (findSources tree root) lists
            ∧ phrases = lists.flatten.eraseDups ∧ phrases.Nodup)
      ∧ (∀ texts, AreTexts (findSources tree root) texts →
          (extractPhrases tree root).outcome = .ok (texts.flatMap foundPhrases).eraseDups)
      ∧ (∀ fault, (extractPhrases tree root).outcome = .error fault
          ↔ ∃ e, FirstFault (findSources tree root) e ∧ fault = .notText e)
      ∧ ((∃ fault, (extractPhrases tree root).outcome = .error fault)
          ↔ ∃ file ∈ findSources tree root, ¬ Utf8.Valid file.2.data)
      ∧ ∀ tree' : Node, tree.Proper → tree'.Proper →
          (∀ names content, SourceAt tree root names content
            ↔ SourceAt tree' root names content) →
          extractPhrases tree' root = extractPhrases tree root := by
  have hcases := extractPhrases_cases tree root
  refine ⟨fun phrases => ?_, fun texts htexts => ?_, fun fault => ?_, ?_, ?_⟩
  · simp only [holds_iff]
    constructor
    · intro hok
      rcases hcases with ⟨texts, htexts, houtcome⟩ | ⟨e, -, houtcome⟩
      · obtain rfl := Except.ok.inj (houtcome.symm.trans hok)
        exact ⟨_, ⟨texts, htexts, rfl⟩, rfl, nodup_eraseDups _⟩
      · cases houtcome.symm.trans hok
    · rintro ⟨lists, ⟨texts, htexts, rfl⟩, rfl, -⟩
      exact extractPhrases_of_texts htexts
  · rw [extractPhrases_of_texts htexts, eraseDups_flatMap]
  · constructor
    · intro herror
      rcases hcases with ⟨texts, -, houtcome⟩ | ⟨e, hfirst, houtcome⟩
      · cases houtcome.symm.trans herror
      · exact ⟨e, hfirst, Except.error.inj (herror.symm.trans houtcome)⟩
    · rintro ⟨e, hfirst, rfl⟩
      exact extractPhrases_of_firstFault hfirst
  · constructor
    · rintro ⟨fault, herror⟩
      rcases hcases with ⟨texts, -, houtcome⟩ | ⟨e, hfirst, -⟩
      · cases houtcome.symm.trans herror
      · exact hfirst.exists_not_valid
    · rintro ⟨file, hfile, hinvalid⟩
      rcases hcases with ⟨texts, htexts, -⟩ | ⟨e, -, houtcome⟩
      · exact absurd (htexts.valid file hfile) hinvalid
      · exact ⟨_, houtcome⟩
  · intro tree' h h' hsame
    refine extractPhrases_eq_of_readAt h h' fun names text => ?_
    simp only [ReadAt, hsame]

/-- A directory `src` with one source file. -/
def quietTree : Node :=
  .dir [("src", .dir [("a.ts", .file (.bytes (Utf8.encode "i18n('Save')".toList)))])]

/-- The same source file beside other files, which are no texts. -/
def noisyTree : Node :=
  .dir [
    ("src", .dir [
      ("node_modules", .dir [("b.ts", .file (.bytes [0xFF]))]),
      ("a.ts", .file (.bytes (Utf8.encode "i18n('Save')".toList))),
      ("c.txt", .file (.bytes [0xFF]))]),
    ("d.ts", .file (.bytes [0xFF]))]

theorem extractPhrases_reads_sources_beside :
    quietTree.Proper ∧ noisyTree.Proper
      ∧ (∀ names content, SourceAt quietTree "src" names content
          ↔ SourceAt noisyTree "src" names content)
      ∧ (extractPhrases quietTree "src").outcome = .ok ["Save"]
      ∧ extractPhrases noisyTree "src" = extractPhrases quietTree "src" := by
  have hquiet : quietTree.Proper := by
    refine Node.proper_dir (by decide) ?_
    simp only [List.forall_mem_singleton]
    exact Node.proper_dir (by decide) (by simp [Node.proper_file])
  have hnoisy : noisyTree.Proper := by
    refine Node.proper_dir (by decide) ?_
    simp only [List.forall_mem_cons, List.not_mem_nil, false_implies, implies_true, and_true]
    refine ⟨Node.proper_dir (by decide) ?_, Node.proper_file _⟩
    simp only [List.forall_mem_cons, List.not_mem_nil, false_implies, implies_true, and_true]
    exact ⟨Node.proper_dir (by decide) (by simp [Node.proper_file]), Node.proper_file _,
      Node.proper_file _⟩
  have hquietSources : sourcesOf (quietTree.named? "src")
      = [(["a.ts"], .bytes (Utf8.encode "i18n('Save')".toList))] := by
    have hnamed : quietTree.named? "src"
        = some (.dir [("a.ts", .file (.bytes (Utf8.encode "i18n('Save')".toList)))]) := rfl
    have hread : isRead "a.ts" = true := by decide
    simp [hnamed, sourcesOf, sources, branches, sourceEntries, inNameOrder, hread]
  have hnoisySources : sourcesOf (noisyTree.named? "src")
      = [(["a.ts"], .bytes (Utf8.encode "i18n('Save')".toList))] := by
    have hnamed : noisyTree.named? "src" = some (.dir [
        ("node_modules", .dir [("b.ts", .file (.bytes [0xFF]))]),
        ("a.ts", .file (.bytes (Utf8.encode "i18n('Save')".toList))),
        ("c.txt", .file (.bytes [0xFF]))]) := rfl
    have hread : isRead "a.ts" = true := by decide
    have hother : isRead "c.txt" = false := by decide
    have hignored : "node_modules" ∈ ignoredNames := by decide
    simp [hnamed, sourcesOf, sources, branches, sourceEntries, inNameOrder, hread, hother, hignored]
  have hsame : ∀ names content, SourceAt quietTree "src" names content
      ↔ SourceAt noisyTree "src" names content := by
    intro names content
    rw [← mem_sourcesOf_iff hquiet, ← mem_sourcesOf_iff hnoisy, hquietSources, hnoisySources]
  obtain ⟨-, htexts, -, -, hother⟩ := extractPhrases_reads_sources quietTree "src"
  have hareTexts : AreTexts (findSources quietTree "src") ["i18n('Save')".toList] := by
    rw [findSources_eq, hquietSources]
    exact .cons rfl .nil
  refine ⟨hquiet, hnoisy, hsame, (htexts _ hareTexts).trans ?_, hother noisyTree hquiet hnoisy hsame⟩
  rfl

end PhraseCatalog.Scan
