import PhraseCatalog.Proofs.Emit.Writing
import PhraseCatalog.Run.Pipeline

/-! The course of one run: what each of its steps leaves, and from that what a whole run leaves, also
where it fails. -/

set_option autoImplicit false

namespace PhraseCatalog.Run

open Emit Files Log

/-! ## Steps one after another -/

namespace Action
variable {α β : Type} {site : Site} {failed failed' : Failure → Site → Prop}

theorem bind_of_ok {action : Action α} {a : α} {s : Site} (next : α → Action β)
    (hrun : action site = .ok a s) : (action >>= next) site = next a s := by
  change EStateM.bind action next site = next a s
  rw [EStateM.bind, hrun]

theorem bind_of_error {action : Action α} {failure : Failure} {s : Site} (next : α → Action β)
    (hrun : action site = .error failure s) : (action >>= next) site = .error failure s := by
  change EStateM.bind action next site = .error failure s
  rw [EStateM.bind, hrun]

/-- Where the action fails, its failure and the site that it leaves have the first property; else its
result and the site that it leaves have the second one. -/
def Ensures (action : Action α) (site : Site) (failed : Failure → Site → Prop)
    (done : α → Site → Prop) : Prop :=
  match action site with
  | .ok a site => done a site
  | .error failure site => failed failure site

theorem Ensures.ok {action : Action α} {done : α → Site → Prop} {a : α} {s : Site}
    (hrun : action site = .ok a s) (h : done a s) : action.Ensures site failed done := by
  rwa [Ensures, hrun]

theorem Ensures.error {action : Action α} {done : α → Site → Prop} {failure : Failure} {s : Site}
    (hrun : action site = .error failure s) (h : failed failure s) :
    action.Ensures site failed done := by
  rwa [Ensures, hrun]

theorem Ensures.weaken {action : Action α} {done done' : α → Site → Prop}
    (h : action.Ensures site failed done) (hfailed : ∀ failure s, failed failure s → failed' failure s)
    (hdone : ∀ a s, done a s → done' a s) : action.Ensures site failed' done' := by
  unfold Ensures at h
  cases hrun : action site with
  | ok a s =>
    rw [hrun] at h
    exact .ok hrun (hdone a s h)
  | error failure s =>
    rw [hrun] at h
    exact .error hrun (hfailed failure s h)

theorem Ensures.bind {action : Action α} {next : α → Action β} {done : α → Site → Prop}
    {done' : β → Site → Prop} (h : action.Ensures site failed done)
    (hnext : ∀ a s, done a s → (next a).Ensures s failed done') :
    (action >>= next).Ensures site failed done' := by
  unfold Ensures at h
  cases hrun : action site with
  | ok a s =>
    rw [hrun] at h
    rw [Ensures, bind_of_ok next hrun]
    exact hnext a s h
  | error failure s =>
    rw [hrun] at h
    exact .error (bind_of_error next hrun) h

theorem Ensures.of_ok {action : Action α} {done : α → Site → Prop}
    (h : action.Ensures site failed done) {a : α} {s : Site} (hrun : action site = .ok a s) :
    done a s := by
  rwa [Ensures, hrun] at h

theorem Ensures.of_error {action : Action α} {done : α → Site → Prop}
    (h : action.Ensures site failed done) {failure : Failure} {s : Site}
    (hrun : action site = .error failure s) : failed failure s := by
  rwa [Ensures, hrun] at h

end Action

/-! ## Places -/

def Settings.outputPlace (settings : Settings) : List String :=
  (Path.ofString settings.outputDir).place

def Settings.storePlace (settings : Settings) : List String := settings.outputPlace ++ [storeName]

def Settings.dataPlace (settings : Settings) : List String := settings.outputPlace ++ [dataName]

def Settings.runtimePlace (settings : Settings) : List String :=
  settings.outputPlace ++ [runtimeName]

theorem Settings.places_ne (settings : Settings) :
    settings.storePlace ≠ settings.dataPlace ∧ settings.storePlace ≠ settings.runtimePlace
      ∧ settings.dataPlace ≠ settings.runtimePlace := by
  simp [storePlace, dataPlace, runtimePlace, storeName, dataName, runtimeName]

theorem resolve_storePath (settings : Settings) (root : Node) :
    root.resolve (.ofString settings.storePath)
      = root.resolve ((Path.ofString settings.outputDir).child storeName) := by
  have hname : (Path.ofString storeName).parts = [storeName] := by decide
  rw [Node.resolve, Node.resolve, Settings.storePath, partsOf_joinText, hname]
  rfl

theorem resolve_storePath_eq_ok_iff {settings : Settings} {root : Node} {place : List String} :
    root.resolve (.ofString settings.storePath) = .ok place
      ↔ root.isDirAt (.ofString settings.outputDir) = true ∧ place = settings.storePlace := by
  have hname : storeName ≠ ".." := by decide
  rw [resolve_storePath, Node.resolve_child_eq_ok_iff, Node.isDirAt_iff]
  constructor
  · rintro ⟨dir, hresolve, hdir, rfl⟩
    refine ⟨⟨dir, hresolve, hdir⟩, ?_⟩
    rw [stepInto, if_neg hname, Node.place_of_resolve hresolve]
    rfl
  · rintro ⟨⟨dir, hresolve, hdir⟩, rfl⟩
    refine ⟨dir, hresolve, hdir, ?_⟩
    rw [stepInto, if_neg hname, Node.place_of_resolve hresolve]
    rfl

/-! ## The store -/

/-- The rows that opening a store finds in the file at a place. -/
def contentRows? : Option Content → Except Store.Fault Rows
  | none => .ok []
  | some content => Store.contentRows content

theorem openAt_of_resolve {root : Node} {path : Path} {place : List String}
    (h : root.resolve path = .ok place) (hold : ¬ root.DirAt place) :
    Store.openAt root path = (contentRows? (root.fileAt place)).map fun rows =>
      (place, rows, root.put place (.file (.table rows))) := by
  unfold Store.openAt
  rw [Node.fileAt, h]
  rcases hget : root.get? place with _ | ⟨content | entries⟩
  · simp [hget, contentRows?, Except.map]
  · cases hcontent : Store.contentRows content <;>
      simp [hget, contentRows?, hcontent, Except.map, Node.content?]
  · exact absurd ⟨entries, hget⟩ hold

theorem openAt_of_dirAt {root : Node} {path : Path} {place : List String}
    (h : root.resolve path = .ok place) (hdir : root.DirAt place) :
    Store.openAt root path = .error .unableToOpen := by
  obtain ⟨entries, hget⟩ := hdir
  simp [Store.openAt, h, hget]

theorem openAt_eq_ok_iff {settings : Settings} {root opened : Node} {place : List String}
    {rows : Rows} :
    Store.openAt root (.ofString settings.storePath) = .ok (place, rows, opened)
      ↔ root.isDirAt (.ofString settings.outputDir) = true ∧ place = settings.storePlace
        ∧ ¬ root.DirAt place ∧ contentRows? (root.fileAt place) = .ok rows
        ∧ opened = root.put place (.file (.table rows)) := by
  constructor
  · intro h
    cases hresolve : root.resolve (.ofString settings.storePath) with
    | error kind => simp [Store.openAt, hresolve] at h
    | ok found =>
      obtain ⟨hdir, rfl⟩ := resolve_storePath_eq_ok_iff.mp hresolve
      have hold : ¬ root.DirAt settings.storePlace := by
        intro hdirAt
        rw [openAt_of_dirAt hresolve hdirAt] at h
        cases h
      rw [openAt_of_resolve hresolve hold] at h
      cases hrows : contentRows? (root.fileAt settings.storePlace) with
      | error fault =>
        rw [hrows] at h
        cases h
      | ok found =>
        rw [hrows] at h
        cases h
        exact ⟨hdir, rfl, hold, hrows, rfl⟩
  · rintro ⟨hdir, rfl, hold, hrows, rfl⟩
    rw [openAt_of_resolve (resolve_storePath_eq_ok_iff.mpr ⟨hdir, rfl⟩) hold, hrows]
    rfl

/-! ## The modules -/

/-- Writing the modules changes no other file, whether or not it fails. -/
theorem fileAt_writeModules {settings : Settings} {place : List String}
    (hdata : place ≠ settings.dataPlace) (hruntime : place ≠ settings.runtimePlace) (tree : Node)
    (catalog : Catalog) :
    (Emit.writeModules .table tree settings.outputDir catalog settings.languages).1.fileAt place
      = tree.fileAt place :=
  (ends_writeModules .table tree settings.outputDir catalog settings.languages).fileAt_of_ne
    hdata hruntime

/-- Where the output directory is there, the modules are written unless one of them is a directory. -/
theorem writeModules_of_isDirAt {settings : Settings} {tree : Node}
    (h : tree.isDirAt (.ofString settings.outputDir) = true) (catalog : Catalog) :
    let written := Emit.writeModules .table tree settings.outputDir catalog settings.languages
    ((∃ paths, written.2.outcome = .ok paths)
      ↔ ¬ tree.DirAt settings.dataPlace ∧ ¬ tree.DirAt settings.runtimePlace)
    ∧ ((∃ paths, written.2.outcome = .ok paths) → written.1
      = (tree.put settings.dataPlace (.file (textContent (dataModule catalog)))).put
        settings.runtimePlace
        (.file (textContent (runtimeModule .table catalog settings.languages)))) := by
  have hends := ends_writeModules .table tree settings.outputDir catalog settings.languages
  have hmade := Node.makeDirectories_of_isDirAt h
  generalize Emit.writeModules .table tree settings.outputDir catalog settings.languages = written
    at hends ⊢
  obtain ⟨after, log, outcome⟩ := written
  dsimp only at hends ⊢
  cases hends with
  | noDirectory making => exact absurd (making.symm.trans hmade) (by simp)
  | dataBlocked making blocked =>
    obtain rfl := congrArg Prod.fst (making.symm.trans hmade)
    exact ⟨⟨by simp, fun h => absurd blocked h.1⟩, by simp⟩
  | runtimeBlocked making free blocked =>
    obtain rfl := congrArg Prod.fst (making.symm.trans hmade)
    exact ⟨⟨by simp, fun h => absurd blocked h.2⟩, by simp⟩
  | written making dataFree runtimeFree =>
    obtain rfl := congrArg Prod.fst (making.symm.trans hmade)
    exact ⟨⟨fun _ => ⟨dataFree, runtimeFree⟩, fun _ => ⟨_, rfl⟩⟩, fun _ => rfl⟩

/-! ## The steps of a run -/

/-- The translator that a source stands for under these settings. -/
def Source.translator? (source : Source) (settings : Settings) : Option Model.Translator :=
  match source with
  | given translate => some translate
  | service chat => settings.model.map fun model => model.translator chat settings.style

theorem Source.translator?_given {translate translate' : Model.Translator} {settings : Settings} :
    (given translate).translator? settings = some translate' ↔ translate = translate' := by
  simp [translator?]

theorem Source.translator?_service {chat : Model.Service} {settings : Settings}
    {translate : Model.Translator} : (service chat).translator? settings = some translate
      ↔ ∃ model, settings.model = some model ∧ model.translator chat settings.style = translate := by
  simp [translator?]

/-- The site has the same files, and nothing more was translated. -/
def Site.Same (site s : Site) : Prop := s.files = site.files ∧ s.calls = site.calls

namespace Action
variable {failed : Failure → Site → Prop}

theorem openTranslator_ensures (settings : Settings) (source : Source) (site : Site) :
    (openTranslator settings source).Ensures site
      (fun failure s => site.Same s ∧ failure = .noModel ∧ source.translator? settings = none)
      fun translate s => site.Same s ∧ source.translator? settings = some translate := by
  cases source with
  | given translate => exact ⟨⟨rfl, rfl⟩, rfl⟩
  | service chat =>
    cases hmodel : settings.model with
    | none =>
      simp only [Ensures, openTranslator, hmodel, Source.translator?, Option.map_none]
      exact ⟨⟨rfl, rfl⟩, rfl, trivial⟩
    | some model =>
      simp only [Ensures, openTranslator, hmodel, Source.translator?, Option.map_some]
      exact ⟨⟨rfl, rfl⟩, rfl⟩

theorem makeOutputDir_ensures (outputDir : String) (site : Site) :
    (makeOutputDir outputDir).Ensures site
      (fun failure s => s.calls = site.calls ∧ ∃ fault, failure = .files fault
        ∧ site.files.makeNamed outputDir = (s.files, some fault))
      fun _ s => site.files.makeNamed outputDir = (s.files, none) ∧ s.calls = site.calls := by
  rcases hmake : site.files.makeNamed outputDir with ⟨made, _ | fault⟩
  · simp [Ensures, makeOutputDir, hmake]
  · simp [Ensures, makeOutputDir, hmake]

theorem ofReport_ensures {ε α : Type} (cause : ε → Failure) (report : Report ε α) (site : Site) :
    (ofReport cause report).Ensures site
      (fun failure s => site.Same s ∧ ∃ fault, failure = cause fault ∧ report.outcome = .error fault)
      fun a s => site.Same s ∧ report.outcome = .ok a := by
  cases houtcome : report.outcome with
  | ok a => simp [Ensures, ofReport, houtcome, Site.Same]
  | error fault => simp [Ensures, ofReport, houtcome, Site.Same]

theorem loadPhrases_ensures (sourceRoot : String) (site : Site) :
    let report := Scan.loadPhrases site.files sourceRoot
    (loadPhrases sourceRoot).Ensures site
      (fun failure s => site.Same s ∧ ∃ fault, failure = .scan fault ∧ report.outcome = .error fault)
      fun phrases s => site.Same s ∧ report.outcome = .ok phrases :=
  ofReport_ensures .scan (Scan.loadPhrases site.files sourceRoot) site

theorem openStore_ensures (path : String) (site : Site) :
    let opening := Store.openAt site.files (.ofString path)
    (openStore path).Ensures site
      (fun failure s => site.Same s ∧ ∃ fault, failure = .store fault ∧ opening = .error fault)
      fun opened s => opening = .ok (opened.1, opened.2, s.files) ∧ s.calls = site.calls := by
  rcases hopen : Store.openAt site.files (.ofString path) with fault | ⟨place, rows, opened⟩
  · simp [Ensures, openStore, hopen, Site.Same]
  · simp [Ensures, openStore, hopen]

theorem resolvePhrases_ensures (resolver : Resolver) (translate : Model.Translator)
    (workers : Nat) (place : List String) (rows : Rows) (phrases : List String) (site : Site) :
    let resolution := resolver translate workers rows phrases
    let kept := fun s : Site => s.files = site.files.put place (.file (.table resolution.rows))
      ∧ s.calls = site.calls ++ resolution.calls
    (resolvePhrases resolver translate workers place rows phrases).Ensures site
      (fun failure s => kept s ∧ resolution.outcome = .error failure)
      fun catalog s => kept s ∧ resolution.outcome = .ok catalog := by
  cases houtcome : (resolver translate workers rows phrases).outcome with
  | ok catalog => simp [Ensures, resolvePhrases, houtcome]
  | error failure => simp [Ensures, resolvePhrases, houtcome]

theorem writeModules_ensures (outputDir : String) (catalog : Catalog) (languages : List String)
    (site : Site) :
    let written := Emit.writeModules .table site.files outputDir catalog languages
    (writeModules outputDir catalog languages).Ensures site
      (fun failure s => s.files = written.1 ∧ s.calls = site.calls
        ∧ ∃ fault, failure = .files fault ∧ written.2.outcome = .error fault)
      fun paths s => s.files = written.1 ∧ s.calls = site.calls ∧ written.2.outcome = .ok paths := by
  rcases hwritten : Emit.writeModules .table site.files outputDir catalog languages with
    ⟨files, report⟩
  have hreport := ofReport_ensures .files report { site with files := files }
  have hrun : writeModules outputDir catalog languages site
      = ofReport .files report { site with files := files } := by
    simp only [writeModules, hwritten]
  intro written
  rw [Ensures, hrun]
  exact hreport.weaken (fun _ s h => ⟨h.1.1, h.1.2, h.2⟩) fun paths s h => ⟨h.1.1, h.1.2, h.2⟩

theorem note_ensures (entries : List Entry) (site : Site) :
    (note entries).Ensures site failed fun _ s => site.Same s :=
  ⟨rfl, rfl⟩

theorem format_ensures (formatter : Formatter) (outputDir : String) (site : Site) :
    (format formatter outputDir).Ensures site failed fun _ s =>
      s.files = (formatter (formatCommand outputDir) site.files).2 ∧ s.calls = site.calls :=
  ⟨rfl, rfl⟩

end Action

/-! ## A whole run -/

/-- What a run has come to when it resolves its phrases: its translator, the tree with the output
directory, the phrases and the rows. -/
structure Course (settings : Settings) (source : Source) (tree : Node) where
  translate : Model.Translator
  made : Node
  phrases : List String
  rows : Rows
  translate_eq : source.translator? settings = some translate
  made_eq : tree.makeNamed settings.outputDir = (made, none)
  phrases_eq : (Scan.loadPhrases made settings.sourceRoot).outcome = .ok phrases
  opened_eq : Store.openAt made (.ofString settings.storePath)
    = .ok (settings.storePlace, rows, made.put settings.storePlace (.file (.table rows)))

namespace Course
variable {settings : Settings} {source : Source} {tree : Node}

def resolution (course : Course settings source tree) (resolver : Resolver) : Resolution :=
  resolver course.translate settings.workers course.rows course.phrases

/-- The tree with the rows in the store. -/
def kept (course : Course settings source tree) (resolver : Resolver) : Node :=
  course.made.put settings.storePlace (.file (.table (course.resolution resolver).rows))

/-- The tree after an attempt to write the modules, and what the attempt came to. -/
def written (course : Course settings source tree) (resolver : Resolver) (catalog : Catalog) :
    Node × Report Files.Fault Paths :=
  Emit.writeModules .table (course.kept resolver) settings.outputDir catalog settings.languages

theorem opened (course : Course settings source tree) :
    course.made.isDirAt (.ofString settings.outputDir) = true
      ∧ ¬ course.made.DirAt settings.storePlace
      ∧ contentRows? (tree.fileAt settings.storePlace) = .ok course.rows := by
  obtain ⟨hdir, -, hold, hrows, -⟩ := openAt_eq_ok_iff.mp course.opened_eq
  have hmade := Node.fileAt_makeNamed tree settings.outputDir settings.storePlace
  rw [course.made_eq] at hmade
  exact ⟨hdir, hold, hmade ▸ hrows⟩

theorem fileAt_kept (course : Course settings source tree) (resolver : Resolver) :
    (course.kept resolver).fileAt settings.storePlace
      = some (.table (course.resolution resolver).rows) := by
  obtain ⟨hdir, hold, -⟩ := course.opened
  exact (Node.fileAt_put_file (Node.dirAt_of_isDirAt hdir) hold _ _).trans (if_pos rfl)

theorem fileAt_written (course : Course settings source tree) (resolver : Resolver)
    (catalog : Catalog) : (course.written resolver catalog).1.fileAt settings.storePlace
      = some (.table (course.resolution resolver).rows) := by
  obtain ⟨hdata, hruntime, -⟩ := settings.places_ne
  rw [← course.fileAt_kept resolver]
  exact fileAt_writeModules hdata hruntime (course.kept resolver) catalog

end Course

/-! ## Up to the catalog -/

/-- A run up to its catalog, of which nothing is written yet. -/
def gather (resolver : Resolver) (settings : Settings) (source : Source) : Action Catalog := do
  let translate ← openTranslator settings source
  Action.makeOutputDir settings.outputDir
  let phrases ← Action.loadPhrases settings.sourceRoot
  let (place, rows) ← Action.openStore settings.storePath
  Action.resolvePhrases resolver translate settings.workers place rows phrases

/-- What a run does with its catalog. -/
def publish (settings : Settings) (formatter : Formatter) (catalog : Catalog) : Action Catalog := do
  let _ ← Action.writeModules settings.outputDir catalog settings.languages
  Action.note [finishedEntry catalog]
  if settings.formatOutput then
    Action.format formatter settings.outputDir
  return catalog

theorem runBy_eq (resolver : Resolver) (settings : Settings) (source : Source)
    (formatter : Formatter) :
    runBy resolver settings source formatter
      = gather resolver settings source >>= publish settings formatter := by
  simp only [runBy, gather, bind_assoc]
  rfl

/-- How a run can fail before it has its catalog: before it has opened the store, when at most the
output directory was made, or what of it can be made, or with its phrases. -/
inductive FailsBefore (resolver : Resolver) (settings : Settings) (source : Source) (tree : Node) :
    Failure → Site → Prop
  | early {failure : Failure} {s : Site} (reason : ¬ Nonempty (Course settings source tree))
    (cause : ∀ fault, failure ≠ .translation fault)
    (files : s.files = tree ∨ s.files = (tree.makeNamed settings.outputDir).1) (calls : s.calls = []) :
    FailsBefore resolver settings source tree failure s
  | resolving {failure : Failure} {s : Site} (course : Course settings source tree)
    (reason : (course.resolution resolver).outcome = .error failure)
    (files : s.files = course.kept resolver)
    (calls : s.calls = (course.resolution resolver).calls) :
    FailsBefore resolver settings source tree failure s

/-- Every run fails before it has its catalog, or its catalog is what its phrases have come to. -/
theorem gather_ensures (resolver : Resolver) (settings : Settings) (source : Source) (tree : Node) :
    (gather resolver settings source).Ensures { files := tree }
      (FailsBefore resolver settings source tree)
      fun catalog s => ∃ course : Course settings source tree,
        (course.resolution resolver).outcome = .ok catalog ∧ s.files = course.kept resolver
        ∧ s.calls = (course.resolution resolver).calls := by
  unfold gather
  refine ((Action.openTranslator_ensures settings source _).weaken ?_ fun _ _ h => h).bind ?_
  · rintro failure s ⟨⟨hfiles, hcalls⟩, rfl, hnone⟩
    refine .early (fun ⟨course⟩ => ?_) (by simp) (.inl hfiles) hcalls
    have htranslate := course.translate_eq
    rw [hnone] at htranslate
    cases htranslate
  rintro translate s₁ ⟨⟨hfiles₁, hcalls₁⟩, htranslate⟩
  refine ((Action.makeOutputDir_ensures settings.outputDir s₁).weaken ?_ fun _ _ h => h).bind ?_
  · rintro failure s ⟨hcalls, fault, rfl, hmade⟩
    rw [hfiles₁] at hmade
    refine .early (fun ⟨course⟩ => ?_) (by simp) (.inr (by rw [hmade])) (hcalls.trans hcalls₁)
    have hcourse := course.made_eq
    rw [hmade] at hcourse
    exact absurd (Prod.mk.inj hcourse).2 (Option.some_ne_none fault)
  rintro - s₂ ⟨hmade, hcalls₂⟩
  rw [hfiles₁] at hmade
  have hmade₁ : s₂.files = (tree.makeNamed settings.outputDir).1 := by rw [hmade]
  -- a course can only go on from the tree that is reached here
  have hcourse₂ : ∀ course : Course settings source tree, course.made = s₂.files := by
    intro course
    rw [hmade₁, course.made_eq]
  refine ((Action.loadPhrases_ensures settings.sourceRoot s₂).weaken ?_ fun _ _ h => h).bind ?_
  · rintro failure s ⟨⟨hfiles, hcalls⟩, fault, rfl, hfault⟩
    refine .early (fun ⟨course⟩ => ?_) (by simp) (.inr (hfiles.trans hmade₁))
      (hcalls.trans (hcalls₂.trans hcalls₁))
    have hcourse := course.phrases_eq
    rw [hcourse₂ course, hfault] at hcourse
    cases hcourse
  rintro phrases s₃ ⟨⟨hfiles₃, hcalls₃⟩, hphrases⟩
  have hcalls₃ : s₃.calls = [] := hcalls₃.trans (hcalls₂.trans hcalls₁)
  refine ((Action.openStore_ensures settings.storePath s₃).weaken ?_ fun _ _ h => h).bind ?_
  · rintro failure s ⟨⟨hfiles, hcalls⟩, fault, rfl, hfault⟩
    refine .early (fun ⟨course⟩ => ?_) (by simp) (.inr (hfiles.trans (hfiles₃.trans hmade₁)))
      (hcalls.trans hcalls₃)
    have hcourse := course.opened_eq
    rw [hcourse₂ course, ← hfiles₃, hfault] at hcourse
    cases hcourse
  rintro ⟨place, rows⟩ s₄ ⟨hopened, hcalls₄⟩
  rw [hfiles₃] at hopened
  obtain ⟨-, rfl, -, -, hfiles₄⟩ := openAt_eq_ok_iff.mp hopened
  rw [hfiles₄] at hopened
  let course : Course settings source tree :=
    ⟨translate, s₂.files, phrases, rows, htranslate, hmade, hphrases, hopened⟩
  have hput : s₄.files.put settings.storePlace (.file (.table (course.resolution resolver).rows))
      = course.kept resolver := by
    rw [hfiles₄, Node.put_put]
    rfl
  have hcalls₄ : s₄.calls = [] := hcalls₄.trans hcalls₃
  refine (Action.resolvePhrases_ensures resolver translate settings.workers settings.storePlace rows
    phrases s₄).weaken ?_ ?_
  · rintro failure s ⟨⟨hfiles, hcalls⟩, hfailure⟩
    rw [hcalls₄, List.nil_append] at hcalls
    exact .resolving course hfailure (hfiles.trans hput) hcalls
  · rintro catalog s ⟨⟨hfiles, hcalls⟩, hcatalog⟩
    rw [hcalls₄, List.nil_append] at hcalls
    exact ⟨course, hcatalog, hfiles.trans hput, hcalls⟩

/-! ## The whole run -/

/-- How a run can fail: before it has its catalog, or when it writes the modules. -/
inductive FailsIn (resolver : Resolver) (settings : Settings) (source : Source) (tree : Node) :
    Failure → Site → Prop
  | before {failure : Failure} {s : Site} (h : FailsBefore resolver settings source tree failure s) :
    FailsIn resolver settings source tree failure s
  | writing {failure : Failure} {s : Site} (course : Course settings source tree) (catalog : Catalog)
    (resolved : (course.resolution resolver).outcome = .ok catalog)
    (reason : ∃ fault, failure = .files fault
      ∧ (course.written resolver catalog).2.outcome = .error fault)
    (files : s.files = (course.written resolver catalog).1)
    (calls : s.calls = (course.resolution resolver).calls) :
    FailsIn resolver settings source tree failure s

/-- The files after the formatter, if it is run. -/
def Settings.formatted (settings : Settings) (formatter : Formatter) (files : Node) : Node :=
  if settings.formatOutput then (formatter (formatCommand settings.outputDir) files).2 else files

theorem Settings.formatted_shell (settings : Settings) (shell : Shell) (files : Node) :
    settings.formatted shell.formatter files = files := by
  unfold formatted
  split <;> rfl

def Succeeds (resolver : Resolver) (settings : Settings) (source : Source) (formatter : Formatter)
    (tree : Node) (catalog : Catalog) (s : Site) : Prop :=
  ∃ course : Course settings source tree, (course.resolution resolver).outcome = .ok catalog
    ∧ s.files = settings.formatted formatter (course.written resolver catalog).1
    ∧ (∃ paths, (course.written resolver catalog).2.outcome = .ok paths)
    ∧ s.calls = (course.resolution resolver).calls

theorem publish_ensures (resolver : Resolver) {settings : Settings} {source : Source}
    (formatter : Formatter) {tree : Node} {catalog : Catalog} (course : Course settings source tree)
    (hcatalog : (course.resolution resolver).outcome = .ok catalog) {s : Site}
    (hfiles : s.files = course.kept resolver)
    (hcalls : s.calls = (course.resolution resolver).calls) :
    (publish settings formatter catalog).Ensures s (FailsIn resolver settings source tree)
      (Succeeds resolver settings source formatter tree) := by
  unfold publish
  refine ((Action.writeModules_ensures settings.outputDir catalog settings.languages s).weaken
    ?_ fun _ _ h => h).bind ?_
  · rintro failure s₁ ⟨hfiles₁, hcalls₁, hfault⟩
    rw [hfiles] at hfiles₁ hfault
    exact .writing course catalog hcatalog hfault hfiles₁ (hcalls₁.trans hcalls)
  rintro paths s₁ ⟨hfiles₁, hcalls₁, hpaths⟩
  rw [hfiles] at hfiles₁ hpaths
  refine (Action.note_ensures [finishedEntry catalog] s₁).bind ?_
  rintro - s₂ ⟨hfiles₂, hcalls₂⟩
  have hcalls₂ := hcalls₂.trans (hcalls₁.trans hcalls)
  have hwritten : s₂.files = (course.written resolver catalog).1 := hfiles₂.trans hfiles₁
  by_cases hformat : settings.formatOutput = true
  · rw [if_pos hformat]
    refine (Action.format_ensures formatter settings.outputDir s₂).bind ?_
    rintro - s₃ ⟨hfiles₃, hcalls₃⟩
    rw [hwritten] at hfiles₃
    refine ⟨course, hcatalog, ?_, ⟨paths, hpaths⟩, hcalls₃.trans hcalls₂⟩
    rw [Settings.formatted, if_pos hformat, hfiles₃]
  · rw [if_neg hformat]
    refine ⟨course, hcatalog, ?_, ⟨paths, hpaths⟩, hcalls₂⟩
    rw [Settings.formatted, if_neg hformat, ← hwritten]

/-- Every run fails in one of these ways or succeeds. -/
theorem runBy_ensures (resolver : Resolver) (settings : Settings) (source : Source)
    (formatter : Formatter) (tree : Node) :
    (runBy resolver settings source formatter).Ensures { files := tree }
      (FailsIn resolver settings source tree)
      (Succeeds resolver settings source formatter tree) := by
  rw [runBy_eq]
  refine ((gather_ensures resolver settings source tree).weaken ?_ fun _ _ h => h).bind ?_
  · exact fun failure s h => .before h
  · rintro catalog s ⟨course, hcatalog, hfiles, hcalls⟩
    exact publish_ensures resolver formatter course hcatalog hfiles hcalls

theorem Course.eq {settings : Settings} {source : Source} {tree : Node}
    (course course' : Course settings source tree) : course = course' := by
  obtain ⟨translate, made, phrases, rows, htranslate, hmade, hphrases, hopened⟩ := course
  obtain ⟨translate', made', phrases', rows', htranslate', hmade', hphrases', hopened'⟩ := course'
  obtain rfl : translate = translate' := by
    rwa [htranslate, Option.some.injEq] at htranslate'
  obtain rfl : made = made' := by
    rw [hmade] at hmade'
    exact (Prod.mk.inj hmade').1
  obtain rfl : phrases = phrases' := by
    rwa [hphrases, Except.ok.injEq] at hphrases'
  obtain rfl : rows = rows' := by
    rw [hopened, Except.ok.injEq] at hopened'
    exact (Prod.mk.inj (Prod.mk.inj hopened').2).1
  rfl

theorem exists_runBy_eq_ok {resolver : Resolver} {settings : Settings} {source : Source}
    {tree : Node} {catalog : Catalog} (formatter : Formatter) (course : Course settings source tree)
    (hcatalog : (course.resolution resolver).outcome = .ok catalog)
    (hwritten : ∃ paths, (course.written resolver catalog).2.outcome = .ok paths) :
    ∃ s, runBy resolver settings source formatter { files := tree } = .ok catalog s
      ∧ s.files = settings.formatted formatter (course.written resolver catalog).1
      ∧ s.calls = (course.resolution resolver).calls := by
  have hensures := runBy_ensures resolver settings source formatter tree
  unfold Action.Ensures at hensures
  obtain ⟨paths, hpaths⟩ := hwritten
  split at hensures
  · rename_i catalog' s hrun
    obtain ⟨course', hcatalog', hfiles, -, hcalls⟩ := hensures
    obtain rfl := course.eq course'
    rw [hcatalog, Except.ok.injEq] at hcatalog'
    subst hcatalog'
    exact ⟨s, hrun, hfiles, hcalls⟩
  · rename_i failure s hrun
    cases hensures with
    | before hbefore =>
      cases hbefore with
      | early reason => exact absurd ⟨course⟩ reason
      | resolving course' reason =>
        obtain rfl := course.eq course'
        rw [hcatalog] at reason
        cases reason
    | writing course' catalog' resolved reason =>
      obtain rfl := course.eq course'
      rw [hcatalog, Except.ok.injEq] at resolved
      subst resolved
      obtain ⟨fault, -, hfault⟩ := reason
      rw [hpaths] at hfault
      cases hfault

theorem exists_runBy_eq_error {resolver : Resolver} {settings : Settings} {source : Source}
    {tree : Node} {failure : Failure} (formatter : Formatter)
    (course : Course settings source tree)
    (hfailure : (course.resolution resolver).outcome = .error failure) :
    ∃ failure' s, runBy resolver settings source formatter { files := tree } = .error failure' s
      ∧ s.files = course.kept resolver ∧ s.calls = (course.resolution resolver).calls := by
  have hensures := runBy_ensures resolver settings source formatter tree
  unfold Action.Ensures at hensures
  split at hensures
  · obtain ⟨course', hcatalog, -⟩ := hensures
    obtain rfl := course.eq course'
    rw [hfailure] at hcatalog
    cases hcatalog
  · rename_i failure' s hrun
    cases hensures with
    | before hbefore =>
      cases hbefore with
      | early reason => exact absurd ⟨course⟩ reason
      | resolving course' reason hfiles hcalls =>
        obtain rfl := course.eq course'
        exact ⟨failure', s, hrun, hfiles, hcalls⟩
    | writing course' catalog resolved =>
      obtain rfl := course.eq course'
      rw [hfailure] at resolved
      cases resolved

/-! ## A run on an empty output directory -/

/-- Settings for a scan that finds nothing, so that the fallback phrase is translated. -/
def greetingSettings : Settings :=
  { Settings.default with outputDir := "i18n", sourceRoot := "src" }

def greet : Model.Translator := fun _ => { outcome := .ok (some (.obj [("en", .str "Hello")])) }

def emptyOutput : Node := .dir [("i18n", .dir [])]

def greetingCourse : Course greetingSettings (.given greet) emptyOutput where
  translate := greet
  made := emptyOutput
  phrases := ["hello"]
  rows := []
  translate_eq := rfl
  made_eq := Node.makeNamed_of_isDirAt (by decide)
  phrases_eq := rfl
  opened_eq := rfl

/-- A shell in which there is no formatter. -/
def bareShell : Shell := fun _ => .notStarted "[Errno 2] No such file or directory: 'npx'"

theorem exists_greeting :
    ∃ s, runBy resolve greetingSettings (.given greet) bareShell.formatter { files := emptyOutput }
        = .ok [("hello", .obj [("en", .str "Hello")])] s
      ∧ s.calls = ["hello"]
      ∧ s.files.fileAt greetingSettings.storePlace
        = some (.table [("hello", some "\x7b\"en\": \"Hello\"\x7d")]) := by
  have hcatalog : (greetingCourse.resolution resolve).outcome
      = .ok [("hello", .obj [("en", .str "Hello")])] := rfl
  have hkept : greetingCourse.kept resolve = .dir [("i18n", .dir [("i18n.sqlite", .file (.table
      [("hello", some "\x7b\"en\": \"Hello\"\x7d")]))])] := rfl
  have hdir : (greetingCourse.kept resolve).isDirAt (.ofString greetingSettings.outputDir)
      = true := by
    rw [hkept]
    decide
  have hfree : ¬ (greetingCourse.kept resolve).DirAt greetingSettings.dataPlace
      ∧ ¬ (greetingCourse.kept resolve).DirAt greetingSettings.runtimePlace := by
    rw [hkept]
    constructor <;> (rintro ⟨entries, hget⟩; cases hget)
  have hwritten := (writeModules_of_isDirAt hdir [("hello", .obj [("en", .str "Hello")])]).1.mpr
    hfree
  obtain ⟨s, hrun, hfiles, hcalls⟩ := exists_runBy_eq_ok bareShell.formatter greetingCourse
    hcatalog hwritten
  refine ⟨s, hrun, hcalls, ?_⟩
  rw [hfiles, Settings.formatted_shell, greetingCourse.fileAt_written]
  rfl

end PhraseCatalog.Run
