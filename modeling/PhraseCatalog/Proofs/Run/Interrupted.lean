import PhraseCatalog.Proofs.Run.Incremental

/-! A run that fails before it has its catalog. It leaves every file but the store as it was, and of
its phrases those keep their records that come before the one that it failed with. -/

set_option autoImplicit false

namespace PhraseCatalog.Run

open Emit Files

variable {translate : Model.Translator}

/-! ## Where resolving stops -/

/-- The first phrase whose row cannot be read. -/
theorem splitPhrases_eq_error {rows : Rows} {phrases : List String} {fault : Store.Fault}
    (h : splitPhrases rows phrases = .error fault) :
    ∃ before phrase after, phrases = before ++ phrase :: after
      ∧ (∀ p ∈ before, ∃ record, Store.lookupRecord rows p = .ok record)
      ∧ Store.lookupRecord rows phrase = .error fault := by
  induction phrases with
  | nil => cases h
  | cons phrase phrases ih =>
    cases hrecord : Store.lookupRecord rows phrase with
    | error fault' =>
      obtain rfl : fault' = fault := by simpa [splitPhrases, hrecord] using h
      exact ⟨[], phrase, phrases, rfl, by simp, hrecord⟩
    | ok record =>
      have hrest : splitPhrases rows phrases = .error fault := by
        cases hrest : splitPhrases rows phrases with
        | error fault' => simpa [splitPhrases, hrecord, hrest] using h
        | ok split => cases record <;> simp [splitPhrases, hrecord, hrest] at h
      obtain ⟨before, failing, after, hphrases, hbefore, hfault⟩ := ih hrest
      refine ⟨phrase :: before, failing, after, by rw [hphrases]; rfl, ?_, hfault⟩
      intro p hp
      rcases List.mem_cons.mp hp with rfl | hp
      · exact ⟨record, hrecord⟩
      · exact hbefore p hp

theorem FailsWith.of_append {rows : Rows} {key phrase : String} {failure : Failure}
    (hne : phrase ≠ key)
    (h : FailsWith translate (rows ++ recordRows (translatedRecords translate [key])) phrase failure) :
    FailsWith translate rows phrase failure := by
  cases h with
  | alone h => exact .alone h
  | refused h row => exact .refused h fun hnone => row (lookup_append_translated hnone hne)

/-- Where using results has failed, it has failed with one phrase, and the records of the phrases
before it were added. -/
theorem exists_failing_of_foldl_use {tasks : List String} {rows : Rows} {records : Catalog}
    {failure : Failure} (hnodup : tasks.Nodup)
    (h : (tasks.foldl (Progress.use translate) { rows := rows, records := records }).failure
      = some failure) :
    ∃ before phrase after, tasks = before ++ phrase :: after
      ∧ (∀ p ∈ before, Settles translate p) ∧ FailsWith translate rows phrase failure
      ∧ (tasks.foldl (Progress.use translate) { rows := rows, records := records }).rows
        = rows ++ recordRows (translatedRecords translate before) := by
  induction tasks generalizing rows records with
  | nil => cases h
  | cons phrase tasks ih =>
    obtain ⟨hnotMem, hnodup⟩ := List.nodup_cons.mp hnodup
    have huse := @uses_use translate { rows := rows, records := records } phrase rfl
    rw [List.foldl_cons] at h ⊢
    generalize Progress.use translate _ phrase = next at h huse ⊢
    cases huse with
    | failing reason =>
      rw [foldl_use_of_failure (by simp)] at h ⊢
      obtain rfl := Option.some.inj h
      refine ⟨[], phrase, tasks, rfl, by simp, reason, ?_⟩
      simp [translatedRecords, recordRows]
    | passing hsettles _ =>
      obtain ⟨before, failing, after, rfl, hbefore, hfails, hrows⟩ := ih hnodup h
      -- the row of this phrase is no reason to refuse a later one, as no phrase comes twice
      have hne : failing ≠ phrase := by
        rintro rfl
        exact hnotMem (by simp)
      refine ⟨phrase :: before, failing, after, rfl,
        List.forall_mem_cons.mpr ⟨hsettles, hbefore⟩, hfails.of_append hne, ?_⟩
      rw [hrows, translatedRecords_cons translate phrase before, recordRows_append,
        List.append_assoc]

/-- How resolving phrases fails, and the rows that it leaves: no phrase was translated where a row
cannot be read or nobody works; else one phrase fails, and behind the rows stand the records of the
phrases that come before it. -/
inductive StopsAt (translate : Model.Translator) (workers : Nat) (rows : Rows)
    (phrases : List String) : Failure → Rows → Prop
  | unreadable {before after : List String} {phrase : String} {fault : Store.Fault}
    (phrases_eq : phrases = before ++ phrase :: after)
    (readable : ∀ p ∈ before, ∃ record, Store.lookupRecord rows p = .ok record)
    (reason : Store.lookupRecord rows phrase = .error fault) :
    StopsAt translate workers rows phrases (.store fault) rows
  | noWorkers (work : pendingPhrases rows phrases ≠ []) (none_ : workers = 0) :
    StopsAt translate workers rows phrases .noWorkers rows
  | failing {before after : List String} {phrase : String} {failure : Failure}
    (pending_eq : pendingPhrases rows phrases = before ++ phrase :: after)
    (settles : ∀ p ∈ before, Settles translate p)
    (reason : FailsWith translate rows phrase failure) :
    StopsAt translate workers rows phrases failure
      (rows ++ recordRows (translatedRecords translate before))

theorem Resolves.stopsAt {workers : Nat} {rows : Rows} {phrases : List String} {r : Resolution}
    {failure : Failure} (h : Resolves translate workers rows phrases r) (hnodup : phrases.Nodup)
    (hfailure : r.outcome = .error failure) :
    StopsAt translate workers rows phrases failure r.rows := by
  cases h with
  | unreadable split_eq rows_eq outcome_eq =>
    rw [hfailure, Except.error.injEq] at outcome_eq
    obtain ⟨before, phrase, after, hphrases, hreadable, hfault⟩ := splitPhrases_eq_error split_eq
    rw [outcome_eq, rows_eq]
    exact .unreadable hphrases hreadable hfault
  | noWorkers split_eq work none_ rows_eq outcome_eq =>
    rw [hfailure, Except.error.injEq] at outcome_eq
    obtain rfl := splitPhrases_eq_ok split_eq
    rw [outcome_eq, rows_eq]
    exact .noWorkers work none_
  | @pooled _ pool split_eq able run final rows_eq outcome_eq =>
    obtain rfl := splitPhrases_eq_ok split_eq
    have hprogress : pool.progress = settled translate rows phrases :=
      run.invariant.progress_of_final final
    rw [hfailure, hprogress, Progress.outcome] at outcome_eq
    rw [rows_eq, hprogress]
    split at outcome_eq
    · rename_i failure' hsettled
      rw [Except.error.injEq] at outcome_eq
      subst outcome_eq
      obtain ⟨before, phrase, after, hpending, hbefore, hfails, hrows⟩ :=
        exists_failing_of_foldl_use (hnodup.filter _) hsettled
      rw [settled, pendingPhrases, hrows]
      exact .failing hpending hbefore hfails
    · cases outcome_eq

/-! ## The files of a failed run -/

/-- Apart from the store no file was changed, made or removed, and the directories are those that were
there with some on the way to the output directory. -/
structure Spares (settings : Settings) (tree files : Node) : Prop where
  file : ∀ place, place ≠ settings.storePlace → files.fileAt place = tree.fileAt place
  dirs : Node.MakesOn (Path.ofString settings.outputDir).parts tree files

theorem Course.spares {settings : Settings} {source : Source} {tree : Node} (resolver : Resolver)
    (course : Course settings source tree) : Spares settings tree (course.kept resolver) := by
  obtain ⟨hdir, hold, -⟩ := course.opened
  have hdirAt := Node.dirAt_of_isDirAt hdir
  have hdirs := Node.makesOn_makeNamed tree settings.outputDir
  have hfiles := Node.fileAt_makeNamed tree settings.outputDir
  rw [course.made_eq] at hdirs hfiles
  have hsame := Node.dirAt_put_file hdirAt hold (.table (course.resolution resolver).rows)
  constructor
  · intro place hne
    exact ((Node.fileAt_put_file hdirAt hold _ place).trans (if_neg hne)).trans (hfiles place)
  · exact ⟨fun place hat => (hsame place).mpr (hdirs.keeps place hat),
      fun place hat => hdirs.made place ((hsame place).mp hat)⟩

/-- A run that fails before it writes its modules leaves the modules of earlier runs as they are, and
all other files but the store. If it has not opened the store, this is as it was, too; else its old
rows are followed by the records that were found before the phrase with which the run failed. -/
theorem failed_run_spares_output {schedule : Schedule} {settings : Settings} {source : Source}
    (formatter : Formatter) {tree : Node} {failure : Failure} {site : Site}
    (hfailed : gather schedule.resolver settings source { files := tree } = .error failure site) :
    runBy schedule.resolver settings source formatter { files := tree } = .error failure site
      ∧ site.files.fileAt settings.dataPlace = tree.fileAt settings.dataPlace
      ∧ site.files.fileAt settings.runtimePlace = tree.fileAt settings.runtimePlace
      ∧ Spares settings tree site.files
      ∧ ((¬ Nonempty (Course settings source tree)
          ∧ site.files.fileAt settings.storePlace = tree.fileAt settings.storePlace)
        ∨ ∃ course : Course settings source tree, ∃ rows,
          contentRows? (tree.fileAt settings.storePlace) = .ok course.rows
          ∧ site.files.fileAt settings.storePlace = some (.table rows)
          ∧ StopsAt course.translate settings.workers course.rows course.phrases failure rows) := by
  have hrun : runBy schedule.resolver settings source formatter { files := tree }
      = .error failure site := by
    rw [runBy_eq]
    exact Action.bind_of_error _ hfailed
  obtain ⟨hdata, hruntime, -⟩ := settings.places_ne
  suffices hspares : Spares settings tree site.files ∧ _ from
    ⟨hrun, hspares.1.file _ hdata.symm, hspares.1.file _ hruntime.symm, hspares.1, hspares.2⟩
  cases (gather_ensures schedule.resolver settings source tree).of_error hfailed with
  | early reason _ files =>
    have hfiles := Node.fileAt_makeNamed tree settings.outputDir
    rcases files with files | files
    · rw [files]
      exact ⟨⟨fun _ _ => rfl, .refl _ tree⟩, .inl ⟨reason, rfl⟩⟩
    · rw [files]
      exact ⟨⟨fun place _ => hfiles place, Node.makesOn_makeNamed tree settings.outputDir⟩,
        .inl ⟨reason, hfiles _⟩⟩
  | resolving course reason files =>
    have hresolves := schedule.resolves_course course
    rw [files]
    exact ⟨course.spares schedule.resolver, .inr ⟨course, _, course.opened.2.2,
      course.fileAt_kept schedule.resolver,
      hresolves.stopsAt (nodup_of_loadPhrases course.phrases_eq) reason⟩⟩

theorem exists_gather_eq_error {resolver : Resolver} {settings : Settings} {source : Source}
    {tree : Node} {failure : Failure} (course : Course settings source tree)
    (hfailure : (course.resolution resolver).outcome = .error failure) :
    ∃ s, gather resolver settings source { files := tree } = .error failure s
      ∧ s.files = course.kept resolver := by
  have hensures := gather_ensures resolver settings source tree
  cases hgather : gather resolver settings source { files := tree } with
  | ok catalog s =>
    obtain ⟨course', hcatalog, -⟩ := hensures.of_ok hgather
    obtain rfl := course.eq course'
    rw [hfailure] at hcatalog
    cases hcatalog
  | error failure' s =>
    cases hensures.of_error hgather with
    | early reason => exact absurd ⟨course⟩ reason
    | resolving course' reason files =>
      obtain rfl := course.eq course'
      rw [hfailure, Except.error.injEq] at reason
      exact ⟨s, by rw [reason], files⟩

def staleModule : Content := .bytes [123, 125]

/-- Phrases of which the first has no translation, the second has one and the third fails, beside the
data module of an earlier run. -/
def interruptedTree : Node :=
  sourceTree "i18n('a')i18n('b')i18n('c')i18n('d')" [("i18n-source.ts", .file staleModule)]

def interruptedCourse :
    Course greetingSettings (.given (oneOrFault "b" "c")) interruptedTree where
  translate := oneOrFault "b" "c"
  made := interruptedTree
  phrases := ["a", "b", "c", "d"]
  rows := []
  translate_eq := rfl
  made_eq := Node.makeNamed_of_isDirAt (by decide)
  phrases_eq := by decide +kernel
  opened_eq := rfl

theorem failed_run_spares_output_of_earlier_run :
    ∃ failure site, gather Schedule.sequential.resolver greetingSettings
        (.given (oneOrFault "b" "c")) { files := interruptedTree } = .error failure site
      ∧ runBy Schedule.sequential.resolver greetingSettings (.given (oneOrFault "b" "c"))
        bareShell.formatter { files := interruptedTree } = .error failure site
      ∧ site.files.fileAt greetingSettings.dataPlace = some staleModule
      ∧ site.files.fileAt greetingSettings.runtimePlace = none
      ∧ site.files.fileAt greetingSettings.storePlace
        = some (.table [("b", some "\x7b\"en\": \"Hi\"\x7d")]) := by
  obtain ⟨site, hgather, hkept⟩ := exists_gather_eq_error interruptedCourse
    (show (interruptedCourse.resolution Schedule.sequential.resolver).outcome = .error _ from rfl)
  obtain ⟨hrun, hdata, hruntime, -⟩ := failed_run_spares_output bareShell.formatter hgather
  refine ⟨_, site, hgather, hrun, hdata, hruntime, ?_⟩
  rw [hkept, interruptedCourse.fileAt_kept]
  rfl

end PhraseCatalog.Run
