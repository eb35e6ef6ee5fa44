import Mathlib.Algebra.Ring.Int.Defs
import PhraseCatalog.Proofs.Run.Completion

/-! Runs never come to grief over rows that runs have stored: each of these can be read, no phrase
without a row is taken for one with a row or the other way round, and no phrase is added twice. -/

set_option autoImplicit false

namespace PhraseCatalog.Run

open Emit Files

/-! ## Rows that can be read -/

/-- The text under every key is read as an object, or is refused for one of the reasons. -/
def RowsRead (reason : Store.Fault → Prop) (rows : Rows) : Prop :=
  ∀ row ∈ rows, ∃ text, row.2 = some text ∧ ((∃ members, Json.read text = .ok (.obj members))
    ∨ ∃ error, reason (.unreadable error) ∧ Json.read text = .error error)

/-- A text is well formed but holds more than is read, or a record holds more than is written or a
string that is no text. -/
inductive IsRecordFault : Store.Fault → Prop
  | unreadable {error : Json.ReadError} (h : error.IsLimit) : IsRecordFault (.unreadable error)
  | unwritable (error : Json.WriteError) : IsRecordFault (.unwritable error)
  | unencodable (first : Json.Half) (more : List Json.Half) :
    IsRecordFault (.unencodable first more)

theorem isRecordFault_of_writeRecord {record : Json.Value} {fault : Store.Fault}
    (h : Store.writeRecord record = .error fault) : IsRecordFault fault := by
  unfold Store.writeRecord at h
  split at h
  · cases h
    exact .unwritable _
  · cases h
    exact .unencodable _ _
  · cases h

theorem read_recordText_of_fits {members : List (String × Json.Value)}
    (h : Json.Fits Json.nestingLimit (.obj members)) :
    ∃ members', Json.read (Store.recordText (.obj members)) = .ok (.obj members') := by
  obtain ⟨v, hv⟩ := (Json.read_render_iff Json.Style.line_readable (.obj members)).1 h
  obtain ⟨members', rfl⟩ := read_recordText_obj hv
  exact ⟨members', hv⟩

theorem Grown.rowsRead {content : Option Content} (h : Grown content) :
    RowsRead IsRecordFault (storedRows content) := by
  intro row hrow
  obtain ⟨members, htext⟩ := h.text row hrow
  refine ⟨_, htext, ?_⟩
  by_cases hfits : Json.Fits Json.nestingLimit (.obj members)
  · exact .inl (read_recordText_of_fits hfits)
  · obtain ⟨error, hlimit, herror⟩ :=
      (Json.read_render_iff Json.Style.line_readable (.obj members)).2 hfits
    exact .inr ⟨error, .unreadable hlimit, herror⟩

/-- An object that was or could have been read. -/
def IsFittingObject (record : Json.Value) : Prop :=
  (∃ members, record = .obj members) ∧ Json.Fits Json.nestingLimit record

/-- What is written can be read, as fewer containers may be nested in it. -/
theorem fits_of_storable {record : Json.Value} (h : Store.Storable record) :
    Json.Fits Json.nestingLimit record :=
  (Json.fault?_eq_none_iff.mp h.written).mono (by decide)

theorem RowsHold.rowsRead {rows : Rows} (h : RowsHold (fun _ => IsFittingObject) rows) :
    RowsRead (fun _ => False) rows := by
  intro row hrow
  obtain ⟨record, ⟨⟨members, rfl⟩, hfits⟩, htext⟩ := h row hrow
  exact ⟨_, htext, .inl (read_recordText_of_fits hfits)⟩

section RowsRead
variable {reason : Store.Fault → Prop} {rows : Rows} (h : RowsRead reason rows)
include h

theorem RowsRead.lookup_error {key : String} {fault : Store.Fault}
    (hfault : Store.lookupRecord rows key = .error fault) : reason fault := by
  unfold Store.lookupRecord at hfault
  cases hrow : rows.lookup key with
  | none => simp [hrow] at hfault
  | some text? =>
    obtain ⟨text, rfl, ⟨members, hread⟩ | ⟨error, herror, hread⟩⟩ := h _ (mem_of_lookup hrow)
    · simp [hrow, hread] at hfault
    · obtain rfl : Store.Fault.unreadable error = fault := by simpa [hrow, hread] using hfault
      exact herror

theorem RowsRead.lookup_none {key : String} :
    Store.lookupRecord rows key = .ok none ↔ key ∉ rows.map (·.1) := by
  rw [← lookup_eq_none_iff_notMem, Store.lookupRecord]
  cases hrow : rows.lookup key with
  | none => simp
  | some text? =>
    obtain ⟨text, rfl, ⟨members, hread⟩ | ⟨error, -, hread⟩⟩ := h _ (mem_of_lookup hrow)
    · simp [hread]
    · simp [hread]

theorem RowsRead.fresh {phrases : List String} {split : Split}
    (hsplit : splitPhrases rows phrases = .ok split) :
    ∀ phrase ∈ split.pending, rows.lookup phrase = none := by
  have hreadable := readable_of_splitPhrases hsplit
  obtain rfl := splitPhrases_eq_ok hsplit
  intro phrase hphrase
  obtain ⟨hphrase, hstored⟩ := List.mem_filter.mp hphrase
  obtain ⟨record?, hrecord⟩ := hreadable phrase hphrase
  obtain rfl : record? = none := by simpa [stored?, hrecord] using hstored
  exact lookup_eq_none_iff_notMem.mpr (h.lookup_none.mp hrecord)

end RowsRead

/-! ## Adding rows -/

/-- Using the results of other phrases adds no row for a phrase. -/
theorem lookup_foldl_use {translate : Model.Translator} {tasks : List String} {phrase : String}
    (hnotMem : phrase ∉ tasks) {progress : Progress}
    (hfresh : progress.rows.lookup phrase = none) :
    (tasks.foldl (Progress.use translate) progress).rows.lookup phrase = none := by
  induction tasks generalizing progress with
  | nil => exact hfresh
  | cons task tasks ih =>
    obtain ⟨hne, hnotMem⟩ := List.ne_and_not_mem_of_not_mem_cons hnotMem
    by_cases hfailure : progress.failure = none
    · have huse := @uses_use translate progress task hfailure
      rw [List.foldl_cons]
      generalize Progress.use translate progress task = next at huse ⊢
      cases huse with
      | failing reason => exact ih hnotMem hfresh
      | passing => exact ih hnotMem (lookup_append_translated hfresh hne)
    · rwa [foldl_use_of_failure hfailure]

/-- In every state of a pool there is no row yet for the phrase whose result is used next. -/
theorem Job.Reaches.lookup_next {job : Job} {pool : Pool} (h : job.Reaches pool)
    (hnodup : job.tasks.Nodup) (hfresh : ∀ phrase ∈ job.tasks, job.rows.lookup phrase = none)
    {phrase : String} (hnext : job.tasks[pool.used]? = some phrase) :
    pool.progress.rows.lookup phrase = none := by
  have hmem := List.mem_of_getElem? hnext
  -- the tasks that were used stand before this one, and none of them comes twice
  have hnotMem : phrase ∉ job.tasks.take pool.used := by
    intro hused
    obtain ⟨i, hi, hat⟩ := List.mem_take_iff_getElem.mp hused
    obtain ⟨hlt, hthere⟩ := List.getElem?_eq_some_iff.mp hnext
    have := (hnodup.getElem_inj_iff).mp (hat.trans hthere.symm)
    omega
  rw [h.invariant.progress_eq]
  exact lookup_foldl_use hnotMem (hfresh phrase hmem)

theorem nodup_pending {tree : Node} {root : String} {phrases : List String} {rows : Rows}
    {split : Split} (hphrases : (Scan.loadPhrases tree root).outcome = .ok phrases)
    (hsplit : splitPhrases rows phrases = .ok split) : split.pending.Nodup := by
  obtain rfl := splitPhrases_eq_ok hsplit
  exact (nodup_of_loadPhrases hphrases).filter _

/-! ## What a store does for a run -/

/-- The store serves the run: what it holds afterwards can be read, a lookup finds nothing just where
there is no row, the phrase whose record is to be added next has no row yet, and its record is taken,
and the run does not fail with its store once it has opened it. Where any of this goes wrong, it is for
one of the reasons. -/
structure Round.Served (round : Round) (reason : Store.Fault → Prop) : Prop where
  rows : RowsRead reason (storedRows (round.site.files.fileAt round.settings.storePlace))
  lookup_error (course : Course round.settings round.source round.tree) {phrase : String}
    {fault : Store.Fault} (h : Store.lookupRecord course.rows phrase = .error fault) : reason fault
  lookup_none (course : Course round.settings round.source round.tree) (phrase : String) :
    Store.lookupRecord course.rows phrase = .ok none ↔ phrase ∉ course.rows.map (·.1)
  insert (course : Course round.settings round.source round.tree) {split : Split}
    (h : splitPhrases course.rows course.phrases = .ok split) {pool : Pool}
    (reached : (Job.mk course.translate round.settings.workers split.pending course.rows).Reaches
      pool) {phrase : String} (next : split.pending[pool.used]? = some phrase) :
    phrase ∉ pool.progress.rows.map (·.1)
      ∧ ∀ record, translated? course.translate phrase = some record →
        Store.insertRecord pool.progress.rows phrase record
            = .ok (pool.progress.rows ++ [(phrase, some (Store.recordText record))])
          ∨ ∃ fault, reason fault
            ∧ Store.insertRecord pool.progress.rows phrase record = .error fault
  failure (course : Course round.settings round.source round.tree) {fault : Store.Fault}
    {site : Site} (h : round.result = .error (.store fault) site) : reason fault

/-- Where a record of the run is not written, it is for one of the reasons. -/
def Round.Writes (round : Round) (reason : Store.Fault → Prop) : Prop :=
  round.Gives fun _ record => ∀ fault, Store.writeRecord record = .error fault → reason fault

theorem Round.Writes.insert {round : Round} {reason : Store.Fault → Prop} (h : round.Writes reason)
    (course : Course round.settings round.source round.tree) {rows : Rows} {phrase : String}
    (hfresh : rows.lookup phrase = none) {record : Json.Value}
    (hrecord : translated? course.translate phrase = some record) :
    Store.insertRecord rows phrase record
        = .ok (rows ++ [(phrase, some (Store.recordText record))])
      ∨ ∃ fault, reason fault ∧ Store.insertRecord rows phrase record = .error fault := by
  cases hwrite : Store.writeRecord record with
  | ok text =>
    have hstorable := Store.storable_of_writeRecord hwrite
    exact .inl (Store.insertRecord_eq_ok_iff.mpr ⟨hstorable, hfresh, rfl⟩)
  | error fault =>
    refine .inr ⟨fault, h _ course.translate_eq _ _ hrecord fault hwrite, ?_⟩
    rw [Store.insertRecord, hwrite]

theorem Course.reason_of_store {round : Round} {reason : Store.Fault → Prop}
    (course : Course round.settings round.source round.tree) (h : RowsRead reason course.rows)
    (hwrites : round.Writes reason) {fault : Store.Fault}
    (hfault : (course.resolution round.schedule.resolver).outcome = .error (.store fault)) :
    reason fault := by
  have hresolves := round.schedule.resolves_course course
  cases hresolves with
  | unreadable split_eq rows_eq outcome_eq =>
    obtain ⟨-, phrase, -, -, -, hlookup⟩ := splitPhrases_eq_error split_eq
    rw [hfault] at outcome_eq
    cases outcome_eq
    exact h.lookup_error hlookup
  | noWorkers split_eq work none_ rows_eq outcome_eq =>
    rw [hfault] at outcome_eq
    cases outcome_eq
  | pooled split_eq able run final rows_eq outcome_eq =>
    have hfresh := h.fresh split_eq
    have hprogress := run.invariant.progress_of_final final
    rw [hfault, Progress.outcome] at outcome_eq
    split at outcome_eq
    · rename_i failure hfailure
      rw [Except.error.injEq] at outcome_eq
      subst outcome_eq
      rw [hprogress] at hfailure
      obtain ⟨before, phrase, after, hpending, -, hfails, -⟩ :=
        exists_failing_of_foldl_use (nodup_pending course.phrases_eq split_eq) hfailure
      cases hfails with
      | refused _ row => exact absurd (hfresh phrase (by simp [hpending])) row
      | alone hfails =>
        cases hfails with
        | unwritable hrecord hwrite =>
          exact hwrites _ course.translate_eq _ _ (translated?_eq_some_iff.mpr hrecord) _ hwrite
    · cases outcome_eq

theorem Round.served_of_rowsRead {round : Round} {reason : Store.Fault → Prop}
    (hgrown : Grown (round.tree.fileAt round.settings.storePlace))
    (hbefore : RowsRead reason (storedRows (round.tree.fileAt round.settings.storePlace)))
    (hafter : RowsRead reason (storedRows (round.site.files.fileAt round.settings.storePlace)))
    (hwrites : round.Writes reason) : round.Served reason := by
  have hrows : ∀ course : Course round.settings round.source round.tree,
      RowsRead reason course.rows := fun course => course.rows_eq_storedRows hgrown ▸ hbefore
  refine ⟨hafter, fun course _ _ h => (hrows course).lookup_error h,
    fun course _ => (hrows course).lookup_none, ?_, ?_⟩
  · intro course split hsplit pool hreached phrase hnext
    have hlookup := hreached.lookup_next (nodup_pending course.phrases_eq hsplit)
      ((hrows course).fresh hsplit) hnext
    exact ⟨lookup_eq_none_iff_notMem.mp hlookup, fun record => hwrites.insert course hlookup⟩
  · intro course fault site hresult
    have hensures := runBy_ensures round.schedule.resolver round.settings round.source
      round.formatter round.tree
    cases hensures.of_error hresult with
    | before hbefore =>
      cases hbefore with
      | early reason => exact absurd ⟨course⟩ reason
      | resolving course' outcome => exact course'.reason_of_store (hrows course') hwrites outcome
    | writing course' catalog resolved reason =>
      obtain ⟨_, hfiles, -⟩ := reason
      cases hfiles

/-- In every history that starts without a store, the store serves each run, whether or not the run
fails, and nothing goes wrong as long as every record can be stored. Whatever the records are, no key
is ever added twice, no row lacks its text and no text is malformed: only what a record holds can be in
the way. -/
theorem store_serves_every_run {place : List String} {rounds : List Round}
    (hhistory : IsHistory place none rounds) :
    (∀ round ∈ rounds, round.Served IsRecordFault)
      ∧ ((∀ round ∈ rounds, round.Gives fun _ record => Store.Storable record) →
        ∀ round ∈ rounds, round.Served fun _ => False) := by
  constructor
  · intro round hround
    obtain ⟨rfl, hgrown, -⟩ := @rowsHold_of_history (fun _ _ => True) _ _ hhistory
      (fun _ _ _ _ _ _ _ _ => trivial) round hround
    exact Round.served_of_rowsRead hgrown hgrown.rowsRead (Round.extends hgrown).1.rowsRead
      fun _ _ _ _ _ _ => isRecordFault_of_writeRecord
  · intro hstorable round hround
    have hgives : ∀ r ∈ rounds,
        r.Gives fun _ record => Store.Storable record → IsFittingObject record :=
      fun r _ _ htranslate _ _ hrecord h =>
        ⟨r.objects.translator htranslate hrecord, fits_of_storable h⟩
    have hwrites : round.Writes fun _ => False := by
      intro translate htranslate phrase record hrecord fault hfault
      rw [(hstorable round hround translate htranslate phrase record hrecord).writeRecord] at hfault
      cases hfault
    obtain ⟨rfl, hgrown, hbefore, hafter⟩ := rowsHold_of_history hhistory hgives round hround
    exact Round.served_of_rowsRead hgrown hbefore.rowsRead hafter.rowsRead hwrites

/-- A run that fails once it has stored a row, and a run that finds this row. -/
theorem store_serves_run_after_failure :
    let first := Round.oneOrFault (sourceTree "i18n('a')i18n('b')" [])
    let last := Round.oneOrFault
      (sourceTree "i18n('c')i18n('a')" [("i18n.sqlite", .file (.table hiRow))])
    (IsHistory greetingSettings.storePlace none [first, last]
      ∧ ∀ round ∈ [first, last], round.Gives fun _ record => Store.Storable record)
      ∧ first.Served (fun _ => False) ∧ last.Served fun _ => False := by
  intro first last
  have hhistory : IsHistory greetingSettings.storePlace none [first, last] :=
    isHistory_oneOrFault
  have hgives : ∀ tree, (Round.oneOrFault tree).Gives fun _ record => Store.Storable record := by
    rintro tree translate htranslate phrase record hrecord
    obtain rfl := Source.translator?_given.mp htranslate
    exact (isTextRecord_oneOrFault hrecord).storable
  have hstorable : ∀ round ∈ [first, last], round.Gives fun _ record => Store.Storable record := by
    intro round hround
    simp only [List.mem_cons, List.not_mem_nil, or_false] at hround
    rcases hround with rfl | rfl <;> exact hgives _
  have hserved := (store_serves_every_run hhistory).2 hstorable
  exact ⟨⟨hhistory, hstorable⟩, hserved first (by simp), hserved last (by simp)⟩

/-! ## Records that cannot be stored -/

def askingSettings : Settings := { greetingSettings with model := some plainModel }

/-- A run that has only the fallback phrase to translate. -/
def Round.fallback (source : Source) (objects : source.GivesObjects) : Round where
  tree := emptyOutput
  settings := askingSettings
  source := source
  schedule := .sequential
  formatter := bareShell.formatter
  objects := objects
  keeps _ := rfl

def fallbackCourse {source : Source} {translate : Model.Translator}
    (h : source.translator? askingSettings = some translate) :
    Course askingSettings source emptyOutput where
  translate := translate
  made := emptyOutput
  phrases := ["hello"]
  rows := []
  translate_eq := h
  made_eq := Node.makeNamed_of_isDirAt (by decide)
  phrases_eq := rfl
  opened_eq := rfl

theorem exists_fallback_eq_error {source : Source} (objects : source.GivesObjects)
    {translate : Model.Translator} (htranslate : source.translator? askingSettings = some translate)
    {failure : Failure} (hfails : Fails translate "hello" failure) :
    ∃ site, (Round.fallback source objects).result = .error failure site := by
  have hresolves : Resolves translate askingSettings.workers [] ["hello"]
      ((fallbackCourse htranslate).resolution resolve) :=
    Schedule.sequential.resolves_course (fallbackCourse htranslate)
  have houtcome := (hresolves.of_readable (by decide) fun phrase _ => ⟨none, rfl⟩).2
  have hsettled : (settled translate [] ["hello"]).failure = some failure :=
    congrArg Progress.failure (@use_of_fails _ { rows := [] } _ _ rfl hfails)
  rw [Progress.outcome, hsettled] at houtcome
  obtain ⟨site, hgather, -⟩ := exists_gather_eq_error (fallbackCourse htranslate) houtcome
  refine ⟨site, ?_⟩
  rw [Round.result, runBy_eq]
  exact Action.bind_of_error _ hgather

/-- A service whose completion escapes half a surrogate pair. -/
def tornService : Model.Service := fun _ => .content (some "\x7b\"en\": \"\\ud800\"\x7d")

theorem tornService_fails (phrase : String) :
    Fails (plainModel.translator tornService "") phrase
      (.store (.unencodable ⟨8, 0xD800⟩ [])) := by
  have hread : Json.read "\x7b\"en\": \"\\ud800\"\x7d"
      = .ok (.obj [("en", .torn "\uFFFD" ⟨0, 0xD800⟩ [])]) := by cbv
  have haccepts : plainModel.Accepts tornService "" phrase
      (.obj [("en", .torn "\uFFFD" ⟨0, 0xD800⟩ [])]) :=
    ⟨_, _, rfl, ⟨_, by decide +kernel, hread⟩, rfl⟩
  exact .unwritable (Model.Settings.outcome_eq_record_iff.mpr haccepts) rfl

/-- A run of a translator that has one object for all phrases. -/
def Round.giving (members : List (String × Json.Value)) : Round :=
  .fallback (.given fun _ => { outcome := .ok (some (.obj members)) }) (by
    rintro phrase record ⟨⟩
    exact ⟨members, rfl⟩)

theorem exists_giving_eq_error {members : List (String × Json.Value)} {fault : Store.Fault}
    (h : Store.writeRecord (.obj members) = .error fault) :
    ∃ site, (Round.giving members).result = .error (.store fault) site :=
  exists_fallback_eq_error _ rfl (.unwritable rfl h)

/-- A whole number with one digit more than is written. -/
def longMembers : List (String × Json.Value) := [("n", .int (10 ^ Json.digitLimit))]

theorem writeRecord_longMembers :
    Store.writeRecord (.obj longMembers) = .error (.unwritable .tooManyDigits) := by
  have hdigits : Json.digitLimit < (Decimal.digits (10 ^ Json.digitLimit)).length := by
    rw [← Nat.not_le, Decimal.digits, Nat.length_toDigits_le_iff (by decide) (by decide)]
    exact Nat.lt_irrefl _
  have hnumber : (10 ^ Json.digitLimit : Int).natAbs = 10 ^ Json.digitLimit := by
    simp [Int.natAbs_pow]
  have hfault : (Json.Value.obj longMembers).fault? Store.nestingLimit = some .tooManyDigits := by
    rw [Store.nestingLimit, Json.Value.fault?, longMembers, Json.Value.membersFault?,
      Json.Value.fault?, hnumber, if_pos hdigits, Option.some_or]
  rw [Store.writeRecord, hfault]

/-- An array with `n` arrays around it. -/
def nestedArrays : Nat → Json.Value
  | 0 => .arr []
  | n + 1 => .arr [nestedArrays n]

theorem fault?_nestedArrays {n depth : Nat} (h : depth ≤ n) :
    (nestedArrays n).fault? depth = some .tooDeep := by
  induction n generalizing depth with
  | zero =>
    obtain rfl := Nat.le_zero.mp h
    rfl
  | succ n ih =>
    cases depth with
    | zero => rfl
    | succ depth =>
      rw [nestedArrays, Json.Value.fault?, Json.Value.itemsFault?, ih (Nat.le_of_succ_le_succ h),
        Option.some_or]

def deepMembers (n : Nat) : List (String × Json.Value) := [("a", nestedArrays n)]

theorem writeRecord_deepMembers {n : Nat} (h : Store.nestingLimit ≤ n + 1) :
    Store.writeRecord (.obj (deepMembers n)) = .error (.unwritable .tooDeep) := by
  have hfault : (Json.Value.obj (deepMembers n)).fault? Store.nestingLimit = some .tooDeep := by
    obtain ⟨depth, hdepth⟩ : ∃ depth, Store.nestingLimit = depth + 1 := ⟨_, rfl⟩
    have hdeep : depth ≤ n := by omega
    rw [hdepth, Json.Value.fault?, deepMembers, Json.Value.membersFault?, fault?_nestedArrays hdeep,
      Option.some_or]
  rw [Store.writeRecord, hfault]

/-- Runs fail with their store when they add an object with half a surrogate pair, as the completion of
a service can have it, with an over-long number or with containers that are nested too deeply. -/
theorem not_served_of_any_object :
    let torn := Round.fallback (.service tornService) trivial
    let long := Round.giving longMembers
    let deep := Round.giving (deepMembers 1200)
    (IsHistory askingSettings.storePlace none [torn]
        ∧ ∃ site, torn.result = .error (.store (.unencodable ⟨8, 0xD800⟩ [])) site)
      ∧ (IsHistory askingSettings.storePlace none [long]
        ∧ ∃ site, long.result = .error (.store (.unwritable .tooManyDigits)) site)
      ∧ IsHistory askingSettings.storePlace none [deep]
        ∧ ∃ site, deep.result = .error (.store (.unwritable .tooDeep)) site := by
  intro torn long deep
  refine ⟨⟨⟨rfl, rfl, trivial⟩, ?_⟩, ⟨⟨rfl, rfl, trivial⟩, ?_⟩, ⟨rfl, rfl, trivial⟩, ?_⟩
  · exact exists_fallback_eq_error _ rfl (tornService_fails "hello")
  · exact exists_giving_eq_error writeRecord_longMembers
  · exact exists_giving_eq_error (writeRecord_deepMembers (by decide))

end PhraseCatalog.Run
