import PhraseCatalog.Proofs.Run.Formatting
import PhraseCatalog.Proofs.Run.History

/-! A run after a run that succeeded: it translates nothing, comes to the same catalog and leaves the
files as they are. -/

set_option autoImplicit false

namespace PhraseCatalog.Run

open Emit Files

/-! ## Records from their texts -/

theorem lookupRecord_append {rows : Rows} {phrase : String} (more : Rows)
    (h : rows.lookup phrase ≠ none) :
    Store.lookupRecord (rows ++ more) phrase = Store.lookupRecord rows phrase := by
  obtain ⟨text, htext⟩ := Option.ne_none_iff_exists'.mp h
  rw [Store.lookupRecord, Store.lookupRecord, List.lookup_append, htext, Option.some_or]

/-- Once the records of the pending phrases are added, the rows have for each phrase the record that it
has come to, if it has come to one. -/
theorem lookupRecord_of_resolved {translate : Model.Translator} {rows : Rows}
    {phrases : List String}
    (hreadable : ∀ phrase ∈ phrases, ∃ record, Store.lookupRecord rows phrase = .ok record)
    (hpending : ∀ phrase ∈ pendingPhrases rows phrases, rows.lookup phrase = none)
    (htexts : ∀ phrase record, translated? translate phrase = some record → IsTextRecord record)
    {phrase : String} (hphrase : phrase ∈ phrases) :
    Store.lookupRecord
        (rows ++ recordRows (translatedRecords translate (pendingPhrases rows phrases))) phrase
      = .ok (recordOf? translate rows phrase) := by
  obtain ⟨record?, hrecord⟩ := hreadable phrase hphrase
  have hstored : stored? rows phrase = record? := by rw [stored?, hrecord]
  rw [recordOf?, hstored]
  cases record? with
  | some record =>
    have hrow : rows.lookup phrase ≠ none := by
      intro hnone
      rw [Store.lookupRecord, hnone] at hrecord
      cases hrecord
    rw [lookupRecord_append _ hrow, hrecord, Option.some_or]
  | none =>
    have hmem : phrase ∈ pendingPhrases rows phrases := by
      simp [pendingPhrases, hphrase, hstored]
    have hrow : (rows ++ recordRows (translatedRecords translate
        (pendingPhrases rows phrases))).lookup phrase
          = (translated? translate phrase).map fun record => some (Store.recordText record) := by
      rw [List.lookup_append, hpending phrase hmem, Option.none_or, lookup_recordRows,
        translatedRecords, lookup_filterMap_key, if_pos hmem]
    rw [Store.lookupRecord, hrow, Option.none_or]
    cases htranslated : translated? translate phrase with
    | none => rfl
    | some record =>
      have hread := (htexts phrase record htranslated).read_recordText
      obtain ⟨members, rfl, -⟩ := htexts phrase record htranslated
      simp only [Option.map_some, hread]

/-- Resolving the same phrases again, with the rows that the first time has left, comes to the same
catalog without a translator. -/
theorem Resolves.again {translate translate' : Model.Translator} {workers workers' : Nat}
    {rows : Rows} {phrases : List String} {r r' : Resolution} {catalog : Catalog}
    (h : Resolves translate workers rows phrases r) (hnodup : phrases.Nodup)
    (hok : r.outcome = .ok catalog)
    (hsome : ∀ phrase ∈ r.calls, (translate phrase).outcome ≠ .ok none)
    (htexts : ∀ phrase record, translated? translate phrase = some record → IsTextRecord record)
    (h' : Resolves translate' workers' r.rows phrases r') :
    r'.rows = r.rows ∧ r'.calls = [] ∧ r'.outcome = .ok catalog := by
  obtain ⟨hreadable, hpending, hrows, hcatalog⟩ := h.of_ok hnodup hok hsome
  have hresolved : ∀ phrase ∈ phrases,
      Store.lookupRecord r.rows phrase = .ok (recordOf? translate rows phrase) := by
    intro phrase hphrase
    rw [hrows]
    exact lookupRecord_of_resolved hreadable (fun p hp => (hpending p hp).1) htexts hphrase
  have hrecord : ∀ phrase ∈ phrases, recordOf? translate rows phrase ≠ none := by
    intro phrase hphrase hnone
    rw [recordOf?, Option.or_eq_none_iff] at hnone
    obtain ⟨-, record, hrecord⟩ :=
      hpending phrase (List.mem_filter.mpr ⟨hphrase, Option.isNone_iff_eq_none.mpr hnone.1⟩)
    rw [hnone.2] at hrecord
    cases hrecord
  obtain ⟨hrows', hcalls', houtcome'⟩ := h'.of_known hnodup fun phrase hphrase => by
    obtain ⟨record, hsomeRecord⟩ := Option.ne_none_iff_exists'.mp (hrecord phrase hphrase)
    exact ⟨record, by rw [hresolved phrase hphrase, hsomeRecord]⟩
  have hsame : (phrases.filterMap fun phrase =>
      (stored? r.rows phrase).map fun record => (phrase, record)) = catalog := by
    rw [hcatalog]
    refine List.filterMap_congr fun phrase hphrase => ?_
    rw [stored?, hresolved phrase hphrase]
  exact ⟨hrows', hcalls', hsame ▸ houtcome'⟩

/-! ## The files after a run -/

/-- What a run that succeeds has written: the phrases are those that it found, its rows and the modules
of its catalog are in the output directory. -/
structure Settled (settings : Settings) (made : Node) (rows : Rows) (catalog : Catalog)
    (files : Node) : Prop where
  scan : Scan.Apart settings.sourceRoot settings.outputPlace →
    Scan.loadPhrases files settings.sourceRoot = Scan.loadPhrases made settings.sourceRoot
  dir : files.isDirAt (.ofString settings.outputDir) = true
  store : files.fileAt settings.storePlace = some (.table rows)
  data : files.fileAt settings.dataPlace = some (textContent (dataModule catalog))
  runtime : files.fileAt settings.runtimePlace
    = some (textContent (runtimeModule .table catalog settings.languages))

theorem Course.settled {settings : Settings} {source : Source} {tree : Node} {resolver : Resolver}
    {catalog : Catalog} (course : Course settings source tree)
    (hwritten : ∃ paths, (course.written resolver catalog).2.outcome = .ok paths) :
    Settled settings course.made (course.resolution resolver).rows catalog
      (course.written resolver catalog).1 := by
  obtain ⟨hdir, hold, -⟩ := course.opened
  have hdirAt := Node.dirAt_of_isDirAt hdir
  have hstore : Wrote settings.outputPlace storeName (.table (course.resolution resolver).rows)
      course.made (course.kept resolver) := wrote hdirAt hold _
  obtain ⟨hfree, hfiles⟩ :=
    writeModules_of_isDirAt (hstore.dirs.isDirAt_iff.mpr hdir) catalog
  obtain ⟨hdataFree, hruntimeFree⟩ := hfree.mp hwritten
  rw [Course.written, hfiles hwritten]
  have hmodules := wroteModules ((hstore.dirs _).mpr hdirAt) hdataFree hruntimeFree
    (textContent (dataModule catalog)) (textContent (runtimeModule .table catalog settings.languages))
  obtain ⟨hne₁, hne₂, hne₃⟩ := settings.places_ne
  refine
    { scan := fun hapart => (hmodules.scan _ hapart).trans (hstore.scan _ hapart)
      dir := (hstore.dirs.trans hmodules.dirs).isDirAt_iff.mpr hdir
      store := ?_
      data := ?_
      runtime := ?_ }
  · rw [hmodules.file, if_neg hne₂, if_neg hne₁]
    exact (hstore.file _).trans (if_pos rfl)
  · rw [hmodules.file, if_neg hne₃, if_pos rfl]
  · rw [hmodules.file, if_pos rfl]

/-- What the next run can rely on, once the files are formatted. -/
structure Ready (settings : Settings) (made : Node) (rows : Rows) (files : Node) : Prop where
  scan : Scan.Apart settings.sourceRoot settings.outputPlace →
    Scan.loadPhrases files settings.sourceRoot = Scan.loadPhrases made settings.sourceRoot
  dir : files.isDirAt (.ofString settings.outputDir) = true
  store : files.fileAt settings.storePlace = some (.table rows)
  dataFree : ¬ files.DirAt settings.dataPlace
  runtimeFree : ¬ files.DirAt settings.runtimePlace

theorem Settled.ready {settings : Settings} {made files files' : Node} {rows : Rows}
    {catalog : Catalog} (h : Settled settings made rows catalog files)
    (hover : Overwrites settings files files') : Ready settings made rows files' where
  scan hapart := hover.scan.trans (h.scan hapart)
  dir := hover.dirs.isDirAt_iff.mpr h.dir
  store := hover.fileAt_storePlace.trans h.store
  dataFree hdir := Node.not_dirAt_of_fileAt h.data ((hover.dirs _).mp hdir)
  runtimeFree hdir := Node.not_dirAt_of_fileAt h.runtime ((hover.dirs _).mp hdir)

/-! ## The run after it -/

section Second
variable {settings settings' : Settings} {made files : Node} {rows : Rows}
  (h : Ready settings made rows files) (houtput : settings'.outputDir = settings.outputDir)
include h houtput

theorem Ready.openAt : Store.openAt files (.ofString settings'.storePath)
    = .ok (settings'.storePlace, rows, files.put settings'.storePlace (.file (.table rows))) := by
  have hplace : settings'.storePlace = settings.storePlace := by
    rw [Settings.storePlace, Settings.outputPlace, houtput]
    rfl
  rw [openAt_eq_ok_iff, houtput, hplace, h.store]
  exact ⟨h.dir, rfl, Node.not_dirAt_of_fileAt h.store, rfl, rfl⟩

/-- Keeping the same rows and writing a catalog changes the modules alone. -/
theorem Ready.written (catalog : Catalog) :
    let kept := files.put settings'.storePlace (.file (.table rows))
    let written := Emit.writeModules .table kept settings'.outputDir catalog settings'.languages
    (∃ paths, written.2.outcome = .ok paths)
      ∧ written.1 = (files.put settings.dataPlace (.file (textContent (dataModule catalog)))).put
        settings.runtimePlace
        (.file (textContent (runtimeModule .table catalog settings'.languages))) := by
  have hplaces : settings'.storePlace = settings.storePlace
      ∧ settings'.dataPlace = settings.dataPlace
      ∧ settings'.runtimePlace = settings.runtimePlace := by
    simp [Settings.storePlace, Settings.dataPlace, Settings.runtimePlace, Settings.outputPlace,
      houtput]
  obtain ⟨hstore, hdata, hruntime⟩ := hplaces
  have hdir : files.isDirAt (.ofString settings'.outputDir) = true := houtput ▸ h.dir
  intro kept written
  have hkept : kept = files := by
    dsimp only [kept]
    rw [hstore, Node.put_of_get? (Node.get?_of_fileAt h.store)]
  obtain ⟨hfree, hfiles⟩ := writeModules_of_isDirAt hdir catalog
  have hwritten : written = Emit.writeModules .table files settings'.outputDir catalog
      settings'.languages := by
    dsimp only [written]
    rw [hkept]
  rw [← hwritten, hdata, hruntime] at hfree hfiles
  have hpaths := hfree.mpr ⟨h.dataFree, h.runtimeFree⟩
  exact ⟨hpaths, hfiles hpaths⟩

end Second

/-- Formatting what is written anew comes to the same files as before. -/
theorem Settled.formatted_again {settings : Settings} {made files : Node} {rows : Rows}
    {catalog : Catalog} {formatter : Formatter} (h : Settled settings made rows catalog files)
    (htidies : settings.formatOutput = true → formatter.Tidies settings) (languages : List String) :
    let before := settings.formatted formatter files
    let written := (before.put settings.dataPlace
      (.file (textContent (dataModule catalog)))).put settings.runtimePlace
      (.file (textContent (runtimeModule .table catalog languages)))
    let after := settings.formatted formatter written
    after.fileAt settings.storePlace = before.fileAt settings.storePlace
      ∧ after.fileAt settings.dataPlace = before.fileAt settings.dataPlace
      ∧ (languages = settings.languages →
        after.fileAt settings.runtimePlace = before.fileAt settings.runtimePlace
        ∧ (settings.formatOutput = false → after = before)) := by
  intro before written after
  have hbefore : Overwrites settings files before := Settings.formatted_overwrites htidies files
  have hafter : Overwrites settings written after := Settings.formatted_overwrites htidies written
  have hready := h.ready hbefore
  have hwritten := (wroteModules (Node.dirAt_of_isDirAt hready.dir) hready.dataFree
    hready.runtimeFree (textContent (dataModule catalog))
    (textContent (runtimeModule .table catalog languages))).file
  obtain ⟨hne₁, hne₂, hne₃⟩ := settings.places_ne
  have hinside : ∀ name, settings.outputPlace <+: settings.outputPlace ++ [name] := fun name =>
    List.prefix_append _ [name]
  -- the formatter sees the same modules with the same files around them as the first time
  have houtside : settings.SameOutside files written := by
    intro place hplace
    have hplaces : place ≠ settings.runtimePlace ∧ place ≠ settings.dataPlace := by
      constructor <;> (rintro rfl; exact hplace (hinside _))
    rw [hwritten, if_neg hplaces.1, if_neg hplaces.2, hbefore.sameOutside place hplace]
  refine ⟨?_, ?_, fun hlanguages => ⟨?_, fun hunformatted => ?_⟩⟩
  · rw [hafter.fileAt_storePlace, hwritten, if_neg hne₂, if_neg hne₁]
  · refine Settings.fileAt_formatted_eq htidies houtside ?_
    rw [hwritten, if_neg hne₃, if_pos rfl, h.data]
  · refine Settings.fileAt_formatted_eq htidies houtside ?_
    rw [hwritten, if_pos rfl, h.runtime, hlanguages]
  · have hplain : ∀ tree, settings.formatted formatter tree = tree := by
      intro tree
      rw [Settings.formatted, hunformatted]
      rfl
    have hsame : written = files := by
      dsimp only [written, before]
      rw [hplain, Node.put_of_get? (Node.get?_of_fileAt h.data), hlanguages,
        Node.put_of_get? (Node.get?_of_fileAt h.runtime)]
    dsimp only [after, before]
    rw [hsame]

/-- A run after one that succeeded and found a record of texts for every phrase translates nothing,
whoever would translate, comes to the same catalog in the same order, and leaves the rows and the data
module as they are; for the same languages it leaves the runtime module too, and without a formatter
all files. The directory that is written to must be apart from the source code that is read. -/
theorem second_run_changes_nothing {schedule schedule' : Schedule} {settings settings' : Settings}
    {source source' : Source} {formatter : Formatter} {tree : Node} {catalog : Catalog}
    {site : Site} {translate : Model.Translator}
    (htranslate : source.translator? settings = some translate)
    (htexts : ∀ phrase record, translated? translate phrase = some record → IsTextRecord record)
    (hapart : Scan.Apart settings.sourceRoot settings.outputPlace)
    (htidies : settings.formatOutput = true → formatter.Tidies settings)
    (hfirst : runBy schedule.resolver settings source formatter { files := tree }
      = .ok catalog site)
    (hsome : ∀ phrase ∈ site.calls, (translate phrase).outcome ≠ .ok none)
    (houtput : settings'.outputDir = settings.outputDir)
    (hroot : settings'.sourceRoot = settings.sourceRoot)
    (hformat : settings'.formatOutput = settings.formatOutput)
    (hsource : source'.translator? settings' ≠ none) :
    ∃ site', runBy schedule'.resolver settings' source' formatter { files := site.files }
        = .ok catalog site'
      ∧ site'.calls = []
      ∧ site'.files.fileAt settings.storePlace = site.files.fileAt settings.storePlace
      ∧ site'.files.fileAt settings.dataPlace = site.files.fileAt settings.dataPlace
      ∧ (settings'.languages = settings.languages →
        site'.files.fileAt settings.runtimePlace = site.files.fileAt settings.runtimePlace
        ∧ (settings.formatOutput = false → site'.files = site.files)) := by
  have hensures := runBy_ensures schedule.resolver settings source formatter tree
  obtain ⟨course, hcatalog, hfiles, hwritten, hcalls⟩ := hensures.of_ok hfirst
  obtain rfl : course.translate = translate := by
    have := course.translate_eq
    rwa [htranslate, Option.some.injEq, eq_comm] at this
  have hsettled := course.settled hwritten
  -- the first run leaves the files from which the course of the second one follows
  have hready : Ready settings course.made (course.resolution schedule.resolver).rows site.files :=
    hfiles ▸ hsettled.ready (Settings.formatted_overwrites htidies _)
  obtain ⟨translate', htranslate'⟩ := Option.ne_none_iff_exists'.mp hsource
  let course' : Course settings' source' site.files :=
    { translate := translate'
      made := site.files
      phrases := course.phrases
      rows := (course.resolution schedule.resolver).rows
      translate_eq := htranslate'
      made_eq := Node.makeNamed_of_isDirAt (houtput ▸ hready.dir)
      phrases_eq := by rw [hroot, hready.scan hapart, course.phrases_eq]
      opened_eq := hready.openAt houtput }
  have hresolves := schedule.resolves_course course
  have hresolves' : Resolves translate' settings'.workers
      (course.resolution schedule.resolver).rows course.phrases
      (course'.resolution schedule'.resolver) := schedule'.resolves _ _ _ _
  obtain ⟨hrows', hcalls', hcatalog'⟩ := hresolves.again (nodup_of_loadPhrases course.phrases_eq)
    hcatalog (hcalls ▸ hsome) htexts hresolves'
  have hkept : course'.kept schedule'.resolver = site.files.put settings'.storePlace
      (.file (.table (course.resolution schedule.resolver).rows)) := by
    rw [Course.kept, hrows']
  obtain ⟨hpaths, hfiles'⟩ := hready.written houtput catalog
  rw [← hkept] at hpaths hfiles'
  obtain ⟨site', hrun, hsite', hsiteCalls⟩ := exists_runBy_eq_ok formatter course' hcatalog' hpaths
  have hformatted : settings'.formatted formatter = settings.formatted formatter := by
    funext files
    rw [Settings.formatted, Settings.formatted, hformat, houtput]
  refine ⟨site', hrun, hsiteCalls.trans hcalls', ?_⟩
  rw [hsite', hformatted, Course.written, hfiles', hfiles]
  exact hsettled.formatted_again htidies settings'.languages

/-- The second run asks a translator that always fails, with other languages and three workers. -/
theorem second_run_changes_nothing_after_greeting :
    ∃ site site', runBy Schedule.sequential.resolver greetingSettings (.given greet)
        bareShell.formatter { files := emptyOutput }
        = .ok [("hello", .obj [("en", .str "Hello")])] site
      ∧ site.calls = ["hello"]
      ∧ runBy Schedule.sequential.resolver
        { greetingSettings with languages := ["de"], workers := 3 }
        (.given fun _ => { outcome := .error (.unreadable (.tooDeep .object)) })
        bareShell.formatter { files := site.files }
        = .ok [("hello", .obj [("en", .str "Hello")])] site'
      ∧ site'.calls = []
      ∧ site'.files.fileAt greetingSettings.dataPlace
        = site.files.fileAt greetingSettings.dataPlace := by
  obtain ⟨site, hfirst, hcalls, -⟩ := exists_greeting
  have htexts : ∀ phrase record, translated? greet phrase = some record →
      IsTextRecord record := by
    rintro phrase record ⟨⟩
    exact ⟨_, rfl, by decide, by simp⟩
  have hapart : Scan.Apart greetingSettings.sourceRoot greetingSettings.outputPlace := by
    intro names hnames
    have hplaces : ["i18n"] = ["src"] ++ names := hnames
    simp at hplaces
  have hsome : ∀ phrase ∈ site.calls, (greet phrase).outcome ≠ .ok none := by
    simp [greet]
  obtain ⟨site', hsecond, hcalls', -, hdata, -⟩ := @second_run_changes_nothing
    Schedule.sequential Schedule.sequential greetingSettings
    { greetingSettings with languages := ["de"], workers := 3 } (.given greet)
    (.given fun _ => { outcome := .error (.unreadable (.tooDeep .object)) })
    bareShell.formatter emptyOutput _ site greet rfl htexts hapart
    (fun _ => bareShell.tidies greetingSettings) hfirst hsome rfl rfl rfl (Option.some_ne_none _)
  exact ⟨site, site', hfirst, hcalls, hsecond, hcalls', hdata⟩

end PhraseCatalog.Run
