import PhraseCatalog.Proofs.Run.Repeat

/-! Runs of one translator over one store: what earlier runs have left makes no difference to what a
run that succeeds comes to. -/

set_option autoImplicit false

namespace PhraseCatalog.Run

open Emit Files

/-! ## Rows of one translator -/

/-- Every row holds the text of the record that its phrase is translated to. -/
def Faithful (translate : Model.Translator) (rows : Rows) : Prop :=
  ∀ row ∈ rows, ∃ record, translated? translate row.1 = some record
    ∧ row.2 = some (Store.recordText record)

theorem Faithful.nil (translate : Model.Translator) : Faithful translate [] := by
  intro row hrow
  cases hrow

section Faithful
variable {translate : Model.Translator} {rows : Rows} {phrases : List String}
  (h : Faithful translate rows)
  (htexts : ∀ phrase record, translated? translate phrase = some record → IsTextRecord record)
include h htexts

/-- A row is read as the record that translating its phrase comes to. -/
theorem Faithful.lookupRecord (phrase : String) :
    Store.lookupRecord rows phrase
      = .ok (if rows.lookup phrase = none then none else translated? translate phrase) := by
  cases hrow : rows.lookup phrase with
  | none => rw [Store.lookupRecord, hrow, if_pos rfl]
  | some text? =>
    obtain ⟨record, hrecord, rfl⟩ := h _ (mem_of_lookup hrow)
    have hread := (htexts phrase record hrecord).read_recordText
    obtain ⟨members, rfl, -⟩ := htexts phrase record hrecord
    rw [Store.lookupRecord, hrow, if_neg (Option.some_ne_none _), hrecord]
    simp only [hread]

theorem Faithful.stored?_eq (phrase : String) :
    stored? rows phrase
      = if rows.lookup phrase = none then none else translated? translate phrase := by
  rw [stored?, h.lookupRecord htexts]

theorem Faithful.recordOf?_eq (phrase : String) :
    recordOf? translate rows phrase = translated? translate phrase := by
  rw [recordOf?, h.stored?_eq htexts]
  split
  · exact Option.none_or
  · exact Option.or_self

theorem Faithful.lookup_of_pending {phrase : String}
    (hphrase : phrase ∈ pendingPhrases rows phrases) : rows.lookup phrase = none := by
  have hnone := Option.isNone_iff_eq_none.mp (List.mem_filter.mp hphrase).2
  rw [h.stored?_eq htexts] at hnone
  by_contra hrow
  rw [if_neg hrow] at hnone
  cases hlookup : rows.lookup phrase with
  | none => exact hrow hlookup
  | some text? =>
    obtain ⟨record, hrecord, -⟩ := h _ (mem_of_lookup hlookup)
    rw [hnone] at hrecord
    cases hrecord

theorem Faithful.settles_of_known {phrase : String} (hphrase : phrase ∈ phrases)
    (hpending : ∀ p ∈ pendingPhrases rows phrases, Settles translate p) :
    Settles translate phrase := by
  by_cases hmem : phrase ∈ pendingPhrases rows phrases
  · exact hpending phrase hmem
  · have hstored : stored? rows phrase ≠ none := by
      intro hnone
      exact hmem (List.mem_filter.mpr ⟨hphrase, Option.isNone_iff_eq_none.mpr hnone⟩)
    have htranslated : translated? translate phrase ≠ none := by
      intro hnone
      rw [h.stored?_eq htexts, hnone, ite_self] at hstored
      exact hstored rfl
    obtain ⟨record, hrecord⟩ := Option.ne_none_iff_exists'.mp htranslated
    exact (settles_iff_translates htexts phrase).mpr ⟨_, translated?_eq_some_iff.mp hrecord⟩

theorem Faithful.catalogOf_settled (hnodup : phrases.Nodup)
    (hpending : ∀ p ∈ pendingPhrases rows phrases, Settles translate p) :
    (settled translate rows phrases).failure = none
      ∧ catalogOf phrases (knownRecords rows phrases ++ (settled translate rows phrases).records)
        = translatedRecords translate phrases := by
  rw [settled_of_settles hnodup hpending fun p hp => h.lookup_of_pending htexts hp]
  refine ⟨rfl, (catalogOf_known_translated hnodup).trans ?_⟩
  refine List.filterMap_congr fun phrase _ => ?_
  rw [h.recordOf?_eq htexts]

/-- Resolving succeeds only if all phrases settle, and then its records are those of the translator,
whatever the rows. -/
theorem Resolves.of_faithful {workers : Nat} {r : Resolution} {catalog : Catalog}
    (hresolves : Resolves translate workers rows phrases r) (hnodup : phrases.Nodup)
    (hok : r.outcome = .ok catalog) :
    (∀ phrase ∈ phrases, Settles translate phrase)
      ∧ catalog = translatedRecords translate phrases := by
  obtain ⟨-, hfailure, -, hcatalog⟩ := hresolves.of_outcome_ok hok
  have hpending : ∀ p ∈ pendingPhrases rows phrases, Settles translate p := fun p hp =>
    (settles_of_foldl_use hfailure p hp).1
  refine ⟨fun phrase hphrase => h.settles_of_known htexts hphrase hpending, ?_⟩
  rw [hcatalog, (h.catalogOf_settled htexts hnodup hpending).2]

theorem Resolves.ok_of_faithful {workers : Nat} {r : Resolution}
    (hresolves : Resolves translate workers rows phrases r) (hnodup : phrases.Nodup)
    (hworkers : 0 < workers) (hsettles : ∀ phrase ∈ phrases, Settles translate phrase) :
    r.outcome = .ok (translatedRecords translate phrases) := by
  have hpending : ∀ p ∈ pendingPhrases rows phrases, Settles translate p :=
    fun p hp => hsettles p (List.mem_filter.mp hp).1
  obtain ⟨hfailure, hcatalog⟩ := h.catalogOf_settled htexts hnodup hpending
  have hreadable : ∀ phrase ∈ phrases, ∃ record, Store.lookupRecord rows phrase = .ok record :=
    fun phrase _ => ⟨_, h.lookupRecord htexts phrase⟩
  rw [(hresolves.of_readable hworkers hreadable).2, Progress.outcome, hfailure]
  exact congrArg Except.ok hcatalog

end Faithful

/-! ## Earlier runs -/

theorem Round.faithful {round : Round} {translate : Model.Translator}
    (hgrown : Grown (round.tree.fileAt round.settings.storePlace))
    (htranslate : round.source.translator? round.settings = some translate)
    (h : Faithful translate (storedRows (round.tree.fileAt round.settings.storePlace))) :
    Faithful translate (storedRows (round.site.files.fileAt round.settings.storePlace)) := by
  obtain ⟨added, hafter, hadded⟩ := Round.exists_added hgrown
  rw [hafter]
  intro row hrow
  rcases List.mem_append.mp hrow with hrow | hrow
  · exact h row hrow
  · obtain ⟨translate', record, htranslate', hrecord, -, htext⟩ := hadded row hrow
    rw [htranslate, Option.some.injEq] at htranslate'
    subst htranslate'
    exact ⟨record, hrecord, htext⟩

/-- Whatever runs of one translator came before, also runs that failed, a run finds its records
only. -/
theorem faithful_of_history {place : List String} {translate : Model.Translator}
    {content : Option Content} {rounds : List Round} (hhistory : IsHistory place content rounds)
    (htranslate : ∀ round ∈ rounds, round.source.translator? round.settings = some translate)
    (hgrown : Grown content) (h : Faithful translate (storedRows content)) :
    ∀ round ∈ rounds, round.settings.storePlace = place ∧ Grown (round.tree.fileAt place)
      ∧ Faithful translate (storedRows (round.tree.fileAt place)) :=
  invariant_of_history hhistory hgrown h fun round hround hgrown h =>
    Round.faithful hgrown (htranslate round hround) h

/-! ## A cleared output directory -/

/-- Another output directory is in place, without a store and with nothing in the way of the modules.
It is still reached, and so is the source code; where that lies in the output directory it is the
same. -/
structure Cleared (settings : Settings) (files cleared : Node) : Prop where
  replaced : ∃ entries, cleared = files.put settings.outputPlace (.dir entries)
  dir : cleared.isDirAt (.ofString settings.outputDir) = true
  store : cleared.get? settings.storePlace = none
  dataFree : ¬ cleared.DirAt settings.dataPlace
  runtimeFree : ¬ cleared.DirAt settings.runtimePlace
  root : cleared.resolve (.ofString settings.sourceRoot)
    = files.resolve (.ofString settings.sourceRoot)
  source : settings.outputPlace <+: (Path.ofString settings.sourceRoot).place →
    cleared.get? (Path.ofString settings.sourceRoot).place
      = files.get? (Path.ofString settings.sourceRoot).place

namespace Cleared
variable {settings : Settings} {files cleared : Node} (h : Cleared settings files cleared)
include h

theorem loadPhrases_eq (hdir : files.isDirAt (.ofString settings.outputDir) = true)
    (hapart : Scan.Apart settings.sourceRoot settings.outputPlace) :
    Scan.loadPhrases cleared settings.sourceRoot = Scan.loadPhrases files settings.sourceRoot := by
  obtain ⟨entries, hentries⟩ := h.replaced
  have hroot := h.root
  have hsource := h.source
  rw [hentries] at hroot hsource
  have hfound := Scan.findSources_put_dir hapart (Node.dirAt_of_isDirAt hdir) hroot hsource
  rw [hentries, Scan.loadPhrases, Scan.extractPhrases, hfound]
  rfl

theorem sameOutside : settings.SameOutside files cleared := by
  intro place hplace
  obtain ⟨entries, hentries⟩ := h.replaced
  rw [hentries]
  by_cases habove : place <+: settings.outputPlace
  · obtain ⟨rest, hrest⟩ := habove
    rw [← hrest]
    refine Node.fileAt_put_below ?_ _
    rintro rfl
    exact hplace ⟨[], by rw [← hrest, List.append_nil, List.append_nil]⟩
  · rw [Node.fileAt, Node.fileAt, Node.get?_put_of_diverging hplace habove]

end Cleared

/-- An emptied output directory is cleared, if the source code does not lie in it and no path goes
back up. -/
theorem cleared_of_empty {settings : Settings} {files : Node}
    (hdir : files.isDirAt (.ofString settings.outputDir) = true)
    (hout : ".." ∉ (Path.ofString settings.outputDir).parts)
    (hroot : ".." ∉ (Path.ofString settings.sourceRoot).parts)
    (hsource : ¬ settings.outputPlace <+: (Path.ofString settings.sourceRoot).place) :
    Cleared settings files (files.put settings.outputPlace (.dir [])) := by
  have hplace : files.DirAt settings.outputPlace := Node.dirAt_of_isDirAt hdir
  have hget : ∀ names, (files.put settings.outputPlace (.dir [])).get?
      (settings.outputPlace ++ names) = (Node.dir []).get? names := by
    obtain ⟨entries, hentries⟩ := hplace
    intro names
    have habove := Node.get?_put_above hentries [] (.dir [])
    rw [List.append_nil] at habove
    rw [Node.get?_append, habove]
    rfl
  have hfree : ∀ name, (files.put settings.outputPlace (.dir [])).get?
      (settings.outputPlace ++ [name]) = none := fun name => hget [name]
  exact
    { replaced := ⟨[], rfl⟩
      dir := by
        obtain ⟨place, hresolve, -⟩ := Node.isDirAt_iff.mp hdir
        obtain rfl := Node.place_of_resolve hresolve
        rw [Node.isDirAt_iff]
        refine ⟨settings.outputPlace, ?_, [], ?_⟩
        · rw [Node.resolve_put hplace [] hout fun _ => (Node.place_of_not_up hout).symm]
          exact hresolve
        · have hself := hget []
          rwa [List.append_nil] at hself
      store := hfree storeName
      dataFree := by
        rintro ⟨entries, hentries⟩
        rw [Settings.dataPlace, hfree] at hentries
        cases hentries
      runtimeFree := by
        rintro ⟨entries, hentries⟩
        rw [Settings.runtimePlace, hfree] at hentries
        cases hentries
      root := by
        refine Node.resolve_put hplace [] hroot fun hinside => absurd ?_ hsource
        rwa [Node.place_of_not_up hroot]
      source := fun hinside => absurd hinside hsource }

/-! ## The run with a cleared output directory -/

namespace Course
variable {settings : Settings} {source : Source} {tree : Node}

/-- A run changes files in its output directory only. -/
theorem written_sameOutside (course : Course settings source tree) (resolver : Resolver)
    (catalog : Catalog) : settings.SameOutside course.made (course.written resolver catalog).1 := by
  intro place hplace
  have hinside : ∀ name, place ≠ settings.outputPlace ++ [name] := by
    rintro name rfl
    exact hplace (List.prefix_append _ [name])
  obtain ⟨hdir, hold, -⟩ := course.opened
  rw [written, fileAt_writeModules (hinside dataName) (hinside runtimeName)]
  exact (Node.fileAt_put_file (Node.dirAt_of_isDirAt hdir) hold _ _).trans
    (if_neg (hinside storeName))

theorem exists_written (course : Course settings source tree) (resolver : Resolver)
    (catalog : Catalog) (hdata : ¬ course.made.DirAt settings.dataPlace)
    (hruntime : ¬ course.made.DirAt settings.runtimePlace) :
    ∃ paths, (course.written resolver catalog).2.outcome = .ok paths := by
  obtain ⟨hdir, hold, -⟩ := course.opened
  have hkept : Wrote settings.outputPlace storeName (.table (course.resolution resolver).rows)
      course.made (course.kept resolver) := wrote (Node.dirAt_of_isDirAt hdir) hold _
  apply (writeModules_of_isDirAt (hkept.dirs.isDirAt_iff.mpr hdir) catalog).1.mpr
  rw [hkept.dirs, hkept.dirs]
  exact ⟨hdata, hruntime⟩

end Course

def Cleared.course {settings : Settings} {source : Source} {files cleared : Node}
    {translate : Model.Translator} {phrases : List String} (h : Cleared settings files cleared)
    (hsource : source.translator? settings = some translate)
    (hphrases : (Scan.loadPhrases cleared settings.sourceRoot).outcome = .ok phrases) :
    Course settings source cleared where
  translate := translate
  made := cleared
  phrases := phrases
  rows := []
  translate_eq := hsource
  made_eq := Node.makeNamed_of_isDirAt h.dir
  phrases_eq := hphrases
  opened_eq := by
    have hfile : cleared.fileAt settings.storePlace = none := by rw [Node.fileAt, h.store]; rfl
    have hold : ¬ cleared.DirAt settings.storePlace := by
      rintro ⟨entries, hget⟩
      rw [h.store] at hget
      cases hget
    rw [openAt_eq_ok_iff, hfile]
    exact ⟨h.dir, rfl, hold, rfl, rfl⟩

/-- Runs that have written one catalog with the same files around it leave the same modules, also
where these are formatted. -/
theorem Settled.modules_eq {settings : Settings} {made made' files files' : Node}
    {rows rows' : Rows} {catalog : Catalog} {formatter : Formatter}
    (h : Settled settings made rows catalog files)
    (h' : Settled settings made' rows' catalog files')
    (htidies : settings.formatOutput = true → formatter.Tidies settings)
    (houtside : settings.SameOutside files files') :
    (settings.formatted formatter files').fileAt settings.dataPlace
        = (settings.formatted formatter files).fileAt settings.dataPlace
      ∧ (settings.formatted formatter files').fileAt settings.runtimePlace
        = (settings.formatted formatter files).fileAt settings.runtimePlace := by
  constructor
  · apply Settings.fileAt_formatted_eq htidies houtside
    rw [h'.data, h.data]
  · apply Settings.fileAt_formatted_eq htidies houtside
    rw [h'.runtime, h.runtime]

/-- A run that succeeds after any runs of the same translator over one store, some of which may have
failed, comes to the catalog and to the modules that the translator gives in a single run with a
cleared output directory. -/
theorem incremental_run_eq_single_run {place : List String} {earlier : List Round} {last : Round}
    {translate : Model.Translator} {catalog : Catalog} {site : Site} {cleared : Node}
    {source : Source} {schedule : Schedule} {style : String} {model : Option Model.Settings}
    {workers : Nat} (hhistory : IsHistory place none (earlier ++ [last]))
    (htranslate : ∀ round ∈ earlier ++ [last],
      round.source.translator? round.settings = some translate)
    (htexts : ∀ phrase record, translated? translate phrase = some record → IsTextRecord record)
    (hapart : Scan.Apart last.settings.sourceRoot last.settings.outputPlace)
    (htidies : last.settings.formatOutput = true → last.formatter.Tidies last.settings)
    (hlast : last.result = .ok catalog site)
    (hcleared : Cleared last.settings (last.tree.makeNamed last.settings.outputDir).1 cleared)
    (hworkers : 0 < workers) :
    let settings := { last.settings with style := style, model := model, workers := workers }
    source.translator? settings = some translate →
    ∃ site', runBy schedule.resolver settings source last.formatter { files := cleared }
        = .ok catalog site'
      ∧ site'.files.fileAt last.settings.dataPlace = site.files.fileAt last.settings.dataPlace
      ∧ site'.files.fileAt last.settings.runtimePlace
        = site.files.fileAt last.settings.runtimePlace := by
  intro settings hsource
  have hmem : last ∈ earlier ++ [last] := List.mem_append_right earlier (List.mem_singleton_self _)
  obtain ⟨rfl, hgrown, hfaithful⟩ :=
    faithful_of_history hhistory htranslate (.inl rfl) (Faithful.nil translate) last hmem
  have hensures := runBy_ensures last.schedule.resolver last.settings last.source last.formatter
    last.tree
  obtain ⟨course, hcatalog, hfiles, hwritten, -⟩ := hensures.of_ok hlast
  obtain rfl : course.translate = translate := by
    have hcourse := course.translate_eq
    rwa [htranslate last hmem, Option.some.injEq, eq_comm] at hcourse
  rw [course.made_eq] at hcleared
  rw [← course.rows_eq_storedRows hgrown] at hfaithful
  have hnodup := nodup_of_loadPhrases course.phrases_eq
  have hresolves := last.schedule.resolves_course course
  obtain ⟨hsettles, hrecords⟩ := hresolves.of_faithful hfaithful htexts hnodup hcatalog
  -- the single run finds the same phrases and no rows
  have hphrases : (Scan.loadPhrases cleared settings.sourceRoot).outcome = .ok course.phrases := by
    rw [hcleared.loadPhrases_eq course.opened.1 hapart, course.phrases_eq]
  have hcleared' : Cleared settings course.made cleared := { hcleared with }
  let course' : Course settings source cleared := hcleared'.course hsource hphrases
  have hresolves' : Resolves course.translate workers [] course.phrases
      (course'.resolution schedule.resolver) := schedule.resolves _ _ _ _
  have hcatalog' := hresolves'.ok_of_faithful (Faithful.nil _) htexts hnodup hworkers hsettles
  rw [← hrecords] at hcatalog'
  have hwritten' := course'.exists_written schedule.resolver catalog hcleared.dataFree
    hcleared.runtimeFree
  obtain ⟨site', hrun, hfiles', -⟩ :=
    exists_runBy_eq_ok last.formatter course' hcatalog' hwritten'
  refine ⟨site', hrun, ?_⟩
  have houtside : last.settings.SameOutside (course.written last.schedule.resolver catalog).1
      (course'.written schedule.resolver catalog).1 := by
    intro p hp
    have hcourse' := course'.written_sameOutside schedule.resolver catalog p hp
    have hcourse := course.written_sameOutside last.schedule.resolver catalog p hp
    exact (hcourse'.trans (hcleared.sameOutside p hp)).trans hcourse.symm
  have hsettled' : Settled last.settings cleared (course'.resolution schedule.resolver).rows catalog
      (course'.written schedule.resolver catalog).1 := { course'.settled hwritten' with }
  rw [hfiles, hfiles']
  exact (course.settled hwritten).modules_eq hsettled' htidies houtside

/-- One source file, and what stands in the output directory. -/
def sourceTree (text : String) (output : List (String × Node)) : Node :=
  .dir [("src", .dir [("a.ts", .file (textContent text))]), ("i18n", .dir output)]

theorem fileAt_storePlace_bareShell : ∀ files,
    (bareShell.formatter (formatCommand greetingSettings.outputDir) files).2.fileAt
        greetingSettings.storePlace
      = files.fileAt greetingSettings.storePlace :=
  fun _ => rfl

/-- A run over one source file with a translator that has one record and fails for one phrase. -/
def Round.oneOrFault (tree : Node) : Round where
  tree := tree
  settings := greetingSettings
  source := .given (Run.oneOrFault "a" "b")
  schedule := .sequential
  formatter := bareShell.formatter
  objects _ _ hrecord := (isTextRecord_oneOrFault hrecord).imp fun _ hmembers => hmembers.1
  keeps := fileAt_storePlace_bareShell

def hiRow : Rows := [("a", some "\x7b\"en\": \"Hi\"\x7d")]

theorem faithful_hiRow : Faithful (oneOrFault "a" "b") hiRow := by
  intro row hrow
  obtain rfl := List.mem_singleton.mp hrow
  exact ⟨.obj [("en", .str "Hi")], rfl, rfl⟩

def failingCourse : Course greetingSettings (.given (oneOrFault "a" "b"))
    (sourceTree "i18n('a')i18n('b')" []) where
  translate := oneOrFault "a" "b"
  made := sourceTree "i18n('a')i18n('b')" []
  phrases := ["a", "b"]
  rows := []
  translate_eq := rfl
  made_eq := Node.makeNamed_of_isDirAt (by decide)
  phrases_eq := by decide +kernel
  opened_eq := rfl

def mixedCourse : Course greetingSettings (.given (oneOrFault "a" "b"))
    (sourceTree "i18n('c')i18n('a')" [("i18n.sqlite", .file (.table hiRow))]) where
  translate := oneOrFault "a" "b"
  made := sourceTree "i18n('c')i18n('a')" [("i18n.sqlite", .file (.table hiRow))]
  phrases := ["c", "a"]
  rows := hiRow
  translate_eq := rfl
  made_eq := Node.makeNamed_of_isDirAt (by decide)
  phrases_eq := by decide +kernel
  opened_eq := rfl

/-- The first run stores one row and then fails, and the second one finds this row. -/
theorem isHistory_oneOrFault : IsHistory greetingSettings.storePlace none
    [Round.oneOrFault (sourceTree "i18n('a')i18n('b')" []),
      Round.oneOrFault
        (sourceTree "i18n('c')i18n('a')" [("i18n.sqlite", .file (.table hiRow))])] := by
  obtain ⟨failure, s, hfirst, hkept, -⟩ := exists_runBy_eq_error bareShell.formatter failingCourse
    (show (failingCourse.resolution resolve).outcome = .error _ from rfl)
  have hsite : (Round.oneOrFault (sourceTree "i18n('a')i18n('b')" [])).site = s := by
    have hresult : (Round.oneOrFault (sourceTree "i18n('a')i18n('b')" [])).result
        = .error failure s := hfirst
    rw [Round.site, hresult]
  refine ⟨rfl, rfl, rfl, ?_, trivial⟩
  rw [hsite, hkept, failingCourse.fileAt_kept]
  rfl

theorem exists_mixed_run : ∃ site,
    (Round.oneOrFault (sourceTree "i18n('c')i18n('a')" [("i18n.sqlite", .file (.table hiRow))])).result
      = .ok [("a", .obj [("en", .str "Hi")])] site := by
  have hresolves : Resolves (oneOrFault "a" "b") greetingSettings.workers hiRow ["c", "a"]
      (mixedCourse.resolution resolve) :=
    Schedule.sequential.resolves_course mixedCourse
  have hsettles : ∀ phrase ∈ ["c", "a"], Settles (oneOrFault "a" "b") phrase := by
    intro phrase hphrase
    rw [settles_iff_translates fun _ _ => isTextRecord_oneOrFault]
    revert phrase
    simp [oneOrFault]
  have hcatalog : (mixedCourse.resolution resolve).outcome
      = .ok (translatedRecords (oneOrFault "a" "b") ["c", "a"]) :=
    hresolves.ok_of_faithful faithful_hiRow (fun _ _ => isTextRecord_oneOrFault) (by decide)
      (by decide) hsettles
  obtain ⟨site, hrun, -⟩ := exists_runBy_eq_ok bareShell.formatter mixedCourse hcatalog
    (mixedCourse.exists_written resolve _ (by rintro ⟨entries, hget⟩; cases hget)
      (by rintro ⟨entries, hget⟩; cases hget))
  exact ⟨site, hrun⟩

/-- The run before has kept one row and then failed, and in the last run one phrase has no
translation. The single run has three workers. -/
theorem incremental_run_eq_single_run_after_failure :
    let first := Round.oneOrFault (sourceTree "i18n('a')i18n('b')" [])
    let last := Round.oneOrFault
      (sourceTree "i18n('c')i18n('a')" [("i18n.sqlite", .file (.table hiRow))])
    IsHistory greetingSettings.storePlace none [first, last]
      ∧ (∃ failure s, first.result = .error failure s)
      ∧ ∃ site site', last.result = .ok [("a", .obj [("en", .str "Hi")])] site
      ∧ runBy resolve { greetingSettings with workers := 3 }
        (.given (oneOrFault "a" "b")) bareShell.formatter
        { files := sourceTree "i18n('c')i18n('a')" [] }
        = .ok [("a", .obj [("en", .str "Hi")])] site'
      ∧ site'.files.fileAt greetingSettings.dataPlace
        = site.files.fileAt greetingSettings.dataPlace := by
  intro first last
  obtain ⟨failure, s, hfirst, -⟩ := exists_runBy_eq_error bareShell.formatter failingCourse
    (show (failingCourse.resolution resolve).outcome = .error _ from rfl)
  have hhistory : IsHistory greetingSettings.storePlace none ([first] ++ [last]) :=
    isHistory_oneOrFault
  obtain ⟨site, hlast⟩ := exists_mixed_run
  have hcleared : Cleared greetingSettings mixedCourse.made
      (sourceTree "i18n('c')i18n('a')" []) :=
    cleared_of_empty (by decide) (by decide) (by decide) (by decide)
  have hmade : (last.tree.makeNamed last.settings.outputDir).1 = mixedCourse.made :=
    congrArg Prod.fst mixedCourse.made_eq
  have hapart : Scan.Apart greetingSettings.sourceRoot greetingSettings.outputPlace := by
    intro names hnames
    have hplaces : ["i18n"] = ["src"] ++ names := hnames
    simp at hplaces
  obtain ⟨site', hsingle, hdata, -⟩ := @incremental_run_eq_single_run _ [first] last
    (oneOrFault "a" "b") _ site _ (.given (oneOrFault "a" "b")) .sequential "" none 3
    hhistory (by simp [first, last, Round.oneOrFault, Source.translator?])
    (fun _ _ => isTextRecord_oneOrFault) hapart (fun _ => bareShell.tidies _) hlast
    (hmade ▸ hcleared) (by decide) rfl
  exact ⟨hhistory, ⟨failure, s, hfirst⟩, site, site', hlast, hsingle, hdata⟩

end PhraseCatalog.Run
