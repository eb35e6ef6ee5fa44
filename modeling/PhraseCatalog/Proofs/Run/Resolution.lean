import PhraseCatalog.Proofs.Run.Progress
import PhraseCatalog.Proofs.Text.Distinct

/-! What resolving phrases comes to, whatever the order in which the workers of a pool get on: the
rows and the outcome depend on the translator and the phrases alone, and the phrases given to the
translator are some of those without a record, each once. -/

set_option autoImplicit false

namespace PhraseCatalog.Run

open Emit Files

variable {translate : Model.Translator}

/-! ## Looking phrases up -/

/-- The record that the rows have for a phrase, if it can be read. -/
def stored? (rows : Rows) (phrase : String) : Option Json.Value :=
  match Store.lookupRecord rows phrase with
  | .ok record => record
  | .error _ => none

def pendingPhrases (rows : Rows) (phrases : List String) : List String :=
  phrases.filter fun phrase => (stored? rows phrase).isNone

def knownRecords (rows : Rows) (phrases : List String) : Catalog :=
  phrases.filterMap fun phrase => (stored? rows phrase).map fun record => (phrase, record)

theorem splitPhrases_of_readable {rows : Rows} {phrases : List String}
    (h : ∀ phrase ∈ phrases, ∃ record, Store.lookupRecord rows phrase = .ok record) :
    splitPhrases rows phrases
      = .ok { known := knownRecords rows phrases, pending := pendingPhrases rows phrases } := by
  induction phrases with
  | nil => rfl
  | cons phrase phrases ih =>
    obtain ⟨record, hrecord⟩ := h phrase List.mem_cons_self
    have hrest := ih fun p hp => h p (List.mem_cons_of_mem _ hp)
    cases record with
    | none => simp [splitPhrases, hrecord, hrest, knownRecords, pendingPhrases, stored?]
    | some record => simp [splitPhrases, hrecord, hrest, knownRecords, pendingPhrases, stored?]

theorem readable_of_splitPhrases {rows : Rows} {phrases : List String} {split : Split}
    (h : splitPhrases rows phrases = .ok split) :
    ∀ phrase ∈ phrases, ∃ record, Store.lookupRecord rows phrase = .ok record := by
  induction phrases generalizing split with
  | nil => simp
  | cons phrase phrases ih =>
    cases hrecord : Store.lookupRecord rows phrase with
    | error fault => simp [splitPhrases, hrecord] at h
    | ok record =>
      cases hrest : splitPhrases rows phrases with
      | error fault => simp [splitPhrases, hrecord, hrest] at h
      | ok rest =>
        intro p hp
        rcases List.mem_cons.mp hp with rfl | hp
        · exact ⟨record, hrecord⟩
        · exact ih hrest p hp

theorem splitPhrases_eq_ok {rows : Rows} {phrases : List String} {split : Split}
    (h : splitPhrases rows phrases = .ok split) :
    split = { known := knownRecords rows phrases, pending := pendingPhrases rows phrases } := by
  rw [splitPhrases_of_readable (readable_of_splitPhrases h), Except.ok.injEq] at h
  exact h.symm

/-! ## Resolving with a pool -/

/-- The outcome that used results give, with the records that were known before. -/
def Progress.outcome (progress : Progress) (phrases : List String) (known : Catalog) :
    Except Failure Catalog :=
  match progress.failure with
  | some failure => .error failure
  | none => .ok (catalogOf phrases (known ++ progress.records))

/-- What resolving phrases can come to. The order in which the phrases that were taken are given to
the translator, and what is logged and sent meanwhile, is left open. -/
inductive Resolves (translate : Model.Translator) (workers : Nat) (rows : Rows)
    (phrases : List String) : Resolution → Prop
  | unreadable {r : Resolution} {fault : Store.Fault}
    (split_eq : splitPhrases rows phrases = .error fault) (rows_eq : r.rows = rows)
    (outcome_eq : r.outcome = .error (.store fault)) (calls_eq : r.calls = []) :
    Resolves translate workers rows phrases r
  | noWorkers {r : Resolution} {split : Split} (split_eq : splitPhrases rows phrases = .ok split)
    (work : split.pending ≠ []) (none_ : workers = 0) (rows_eq : r.rows = rows)
    (outcome_eq : r.outcome = .error .noWorkers) (calls_eq : r.calls = []) :
    Resolves translate workers rows phrases r
  | pooled {r : Resolution} {split : Split} {pool : Pool}
    (split_eq : splitPhrases rows phrases = .ok split)
    (able : split.pending = [] ∨ 0 < workers)
    (run : (Job.mk translate workers split.pending rows).Reaches pool)
    (final : pool.Final) (rows_eq : r.rows = pool.progress.rows)
    (outcome_eq : r.outcome = pool.progress.outcome phrases split.known)
    (calls_perm : r.calls.Perm (split.pending.take pool.taken)) :
    Resolves translate workers rows phrases r

/-- What the phrases without a record come to in their order. -/
def settled (translate : Model.Translator) (rows : Rows) (phrases : List String) : Progress :=
  (pendingPhrases rows phrases).foldl (Progress.use translate) { rows := rows }

theorem Job.Invariant.progress_of_final {job : Job} {pool : Pool} (h : job.Invariant pool)
    (hfinal : pool.Final) :
    pool.progress = job.tasks.foldl (Progress.use job.translate) { rows := job.rows } := by
  rcases (h.settled hfinal.1).2 with hfailure | hused
  · have hsplit := List.take_append_drop pool.used job.tasks
    rw [← hsplit, List.foldl_append, ← h.progress_eq, foldl_use_of_failure hfailure]
  · rw [h.progress_eq, hused, List.take_length]

theorem Resolves.of_readable {workers : Nat} {rows : Rows} {phrases : List String} {r : Resolution}
    (h : Resolves translate workers rows phrases r) (hworkers : 0 < workers)
    (hrows : ∀ phrase ∈ phrases, ∃ record, Store.lookupRecord rows phrase = .ok record) :
    r.rows = (settled translate rows phrases).rows ∧ r.outcome
      = (settled translate rows phrases).outcome phrases (knownRecords rows phrases) := by
  have hsplit := splitPhrases_of_readable hrows
  cases h with
  | unreadable split_eq => rw [split_eq] at hsplit; cases hsplit
  | noWorkers split_eq work none_ => omega
  | pooled split_eq able run final rows_eq outcome_eq =>
    have hprogress := run.invariant.progress_of_final final
    obtain rfl := splitPhrases_eq_ok split_eq
    rw [rows_eq, outcome_eq, hprogress]
    exact ⟨rfl, rfl⟩

theorem Resolves.of_outcome_ok {workers : Nat} {rows : Rows} {phrases : List String}
    {r : Resolution} {catalog : Catalog} (h : Resolves translate workers rows phrases r)
    (hok : r.outcome = .ok catalog) :
    (∀ phrase ∈ phrases, ∃ record, Store.lookupRecord rows phrase = .ok record)
    ∧ (settled translate rows phrases).failure = none
    ∧ r.rows = (settled translate rows phrases).rows
    ∧ catalog = catalogOf phrases (knownRecords rows phrases
      ++ (settled translate rows phrases).records) := by
  cases h with
  | unreadable _ _ outcome_eq => rw [hok] at outcome_eq; cases outcome_eq
  | noWorkers _ _ _ _ outcome_eq => rw [hok] at outcome_eq; cases outcome_eq
  | pooled split_eq able run final rows_eq outcome_eq =>
    have hprogress := run.invariant.progress_of_final final
    have hreadable := readable_of_splitPhrases split_eq
    obtain rfl := splitPhrases_eq_ok split_eq
    rw [hprogress] at rows_eq
    rw [hok, hprogress, Progress.outcome] at outcome_eq
    split at outcome_eq
    · cases outcome_eq
    · rename_i hfailure
      exact ⟨hreadable, hfailure, rows_eq, Except.ok.inj outcome_eq⟩

theorem Resolves.of_unreadable {workers : Nat} {rows : Rows} {phrases : List String}
    {r : Resolution} {fault : Store.Fault} (h : Resolves translate workers rows phrases r)
    (hrows : splitPhrases rows phrases = .error fault) :
    r.rows = rows ∧ r.outcome = .error (.store fault) := by
  cases h with
  | unreadable split_eq rows_eq outcome_eq =>
    rw [hrows, Except.error.injEq] at split_eq
    subst split_eq
    exact ⟨rows_eq, outcome_eq⟩
  | noWorkers split_eq => rw [hrows] at split_eq; cases split_eq
  | pooled split_eq => rw [hrows] at split_eq; cases split_eq

theorem Resolves.eq {workers workers' : Nat} {rows : Rows} {phrases : List String}
    {r r' : Resolution} (h : Resolves translate workers rows phrases r)
    (h' : Resolves translate workers' rows phrases r') (hworkers : 0 < workers)
    (hworkers' : 0 < workers') : r.rows = r'.rows ∧ r.outcome = r'.outcome := by
  cases hsplit : splitPhrases rows phrases with
  | error fault =>
    obtain ⟨hrows, houtcome⟩ := h.of_unreadable hsplit
    obtain ⟨hrows', houtcome'⟩ := h'.of_unreadable hsplit
    exact ⟨hrows.trans hrows'.symm, houtcome.trans houtcome'.symm⟩
  | ok split =>
    have hreadable := readable_of_splitPhrases hsplit
    obtain ⟨hrows, houtcome⟩ := h.of_readable hworkers hreadable
    obtain ⟨hrows', houtcome'⟩ := h'.of_readable hworkers' hreadable
    exact ⟨hrows.trans hrows'.symm, houtcome.trans houtcome'.symm⟩

theorem Resolves.calls {workers : Nat} {rows : Rows} {phrases : List String} {r : Resolution}
    (h : Resolves translate workers rows phrases r) (hnodup : phrases.Nodup) :
    r.calls.Nodup ∧ ∀ phrase ∈ r.calls, phrase ∈ phrases
      ∧ Store.lookupRecord rows phrase = .ok none := by
  cases h with
  | unreadable split_eq rows_eq outcome_eq calls_eq => simp [calls_eq]
  | noWorkers split_eq work none_ rows_eq outcome_eq calls_eq => simp [calls_eq]
  | @pooled split pool split_eq able run final rows_eq outcome_eq calls_perm =>
    have hreadable := readable_of_splitPhrases split_eq
    obtain rfl := splitPhrases_eq_ok split_eq
    have htake : ((pendingPhrases rows phrases).take pool.taken).Sublist
        (pendingPhrases rows phrases) := List.take_sublist _ _
    refine ⟨calls_perm.nodup_iff.mpr (htake.nodup (hnodup.filter _)), fun phrase hphrase => ?_⟩
    have hmem := htake.subset (calls_perm.mem_iff.mp hphrase)
    obtain ⟨hmem, hnone⟩ := List.mem_filter.mp hmem
    obtain ⟨record, hrecord⟩ := hreadable phrase hmem
    refine ⟨hmem, ?_⟩
    have hrecordNone : record = none := by simpa [stored?, hrecord] using hnone
    rw [hrecord, hrecordNone]

theorem Resolves.exists_added {workers : Nat} {rows : Rows} {phrases : List String}
    {r : Resolution} (h : Resolves translate workers rows phrases r) :
    ∃ added, Added translate rows added ∧ r.rows = rows ++ added := by
  cases h with
  | unreadable _ rows_eq => exact ⟨[], .nil translate rows, by rw [rows_eq, List.append_nil]⟩
  | noWorkers _ _ _ rows_eq => exact ⟨[], .nil translate rows, by rw [rows_eq, List.append_nil]⟩
  | @pooled split pool _ _ run final rows_eq =>
    rw [rows_eq, run.invariant.progress_of_final final]
    exact exists_added_of_foldl_use (.nil translate rows) (List.append_nil rows).symm split.pending

/-! ## One phrase after another

Resolving the phrases one after another is what a pool can come to, in which each worker waits for
the one before. -/

theorem drain_calls_within (translate : Model.Translator) (tasks : List String) :
    (drain translate tasks).calls <+: tasks := by
  induction tasks with
  | nil => exact List.nil_prefix
  | cons phrase tasks ih =>
    cases hresult : (translate phrase).outcome with
    | error fault => simp [drain, hresult]
    | ok record => simpa [drain, hresult] using ih

theorem drain_calls_of_failure_none {tasks : List String}
    (h : (drain translate tasks).failure = none) : (drain translate tasks).calls = tasks := by
  induction tasks with
  | nil => rfl
  | cons phrase tasks ih =>
    cases hresult : (translate phrase).outcome with
    | error fault => simp [drain, hresult] at h
    | ok record =>
      simp only [drain, hresult] at h ⊢
      rw [ih h]

/-- What is never given to the translator makes no difference. -/
theorem drain_drain_calls (translate : Model.Translator) (tasks : List String) :
    drain translate (drain translate tasks).calls = drain translate tasks := by
  induction tasks with
  | nil => rfl
  | cons phrase tasks ih =>
    cases hresult : (translate phrase).outcome with
    | error fault => simp [drain, hresult]
    | ok record =>
      simp only [drain, hresult]
      rw [ih]

/-- Adding the records after the translator is done comes to the same as adding them meanwhile. -/
theorem foldl_use_eq_insertAll (translate : Model.Translator) (tasks : List String)
    {progress : Progress} (h : progress.failure = none) :
    let after := tasks.foldl (Progress.use translate) progress
    let delivery := drain translate tasks
    let inserted := insertAll progress.rows (newRecords delivery.results)
    after.rows = inserted.1 ∧ after.failure = (inserted.2.map .store).or delivery.failure
      ∧ (after.failure = none → after.records = progress.records ++ newRecords delivery.results) := by
  induction tasks generalizing progress with
  | nil => simp [drain, newRecords, insertAll, h]
  | cons phrase tasks ih =>
    simp only [List.foldl_cons]
    cases hresult : (translate phrase).outcome with
    | error fault =>
      rw [use_of_error h hresult, foldl_use_of_failure (by simp)]
      simp [drain, hresult, newRecords, insertAll]
    | ok result =>
      cases result with
      | none =>
        rw [use_of_none h hresult]
        simpa [drain, hresult, newRecords] using ih h
      | some record =>
        cases hinsert : Store.insertRecord progress.rows phrase record with
        | error fault =>
          rw [use_of_refused h hresult hinsert, foldl_use_of_failure (by simp)]
          simp [drain, hresult, newRecords, insertAll, hinsert]
        | ok rows =>
          rw [use_of_inserted h hresult hinsert]
          have hrest := @ih { progress with
            rows := rows, records := progress.records ++ [(phrase, record)] } h
          simpa [drain, hresult, newRecords, insertAll, hinsert] using hrest

section Schedule
variable {job : Job} (hworkers : job.tasks = [] ∨ 0 < job.workers)

theorem reaches_submitted (job : Job) {k : Nat} (hk : k ≤ job.tasks.length) :
    job.Reaches { job.start with submitted := k } := by
  induction k with
  | zero => exact .start job
  | succ k ih => exact (ih (by omega)).step (.submit hk)

include hworkers in
theorem reaches_finished {k : Nat} (hk : k ≤ job.tasks.length) :
    job.Reaches { job.start with
      submitted := job.tasks.length, taken := k, finished := Finset.range k } := by
  induction k with
  | zero => exact reaches_submitted job (Nat.le_refl _)
  | succ k ih =>
    have hfree : 0 < job.workers := by
      rcases hworkers with hnil | hpos
      · rw [hnil] at hk
        exact absurd hk (Nat.not_succ_le_zero k)
      · exact hpos
    have htaken := (ih (by omega)).step (.take rfl hk (by simpa using hfree))
    have hfinished := htaken.step (.finish (Nat.lt_succ_self k) (by simp))
    rwa [Finset.range_add_one]

include hworkers in
/-- Results are used until there are no more or one counts as a failure. -/
theorem exists_reaches_used {c k : Nat} (hc : c ≤ job.tasks.length) (hk : k ≤ c) :
    ∃ used ≤ k, ∃ progress, job.Reaches { job.start with
        submitted := job.tasks.length, taken := c, finished := Finset.range c
        used := used, progress := progress }
      ∧ (progress.failure ≠ none ∨ used = k) := by
  induction k with
  | zero => exact ⟨0, Nat.le_refl 0, _, reaches_finished hworkers hc, .inr rfl⟩
  | succ k ih =>
    obtain ⟨used, hused, progress, hreaches, hstop⟩ := ih (by omega)
    cases hfailure : progress.failure with
    | some failure =>
      exact ⟨used, by omega, progress, hreaches, .inl (by simp [hfailure])⟩
    | none =>
      rcases hstop with hne | rfl
      · exact absurd hfailure hne
      have hlt : used < c := hk
      exact ⟨used + 1, Nat.le_refl _, _, hreaches.step (.use rfl hfailure
        (Finset.mem_range.mpr hlt) (List.getElem?_eq_getElem (Nat.lt_of_lt_of_le hlt hc))), .inr rfl⟩

include hworkers in
theorem exists_final {c : Nat} (hc : c ≤ job.tasks.length)
    (hstop : ((job.tasks.take c).foldl (Progress.use job.translate) { rows := job.rows }).failure
      ≠ none ∨ c = job.tasks.length) :
    ∃ pool, job.Reaches pool ∧ pool.Final ∧ pool.taken = c := by
  obtain ⟨used, hused, progress, hreaches, hend⟩ := exists_reaches_used hworkers hc (Nat.le_refl c)
  have hprogress : progress = (job.tasks.take used).foldl (Progress.use job.translate)
      { rows := job.rows } := hreaches.invariant.progress_eq
  have hdone : progress.failure ≠ none ∨ used = job.tasks.length := by
    rcases hend with hfailure | rfl
    · exact .inl hfailure
    · rwa [hprogress]
  exact ⟨_, hreaches.step (.cancel rfl rfl hdone), ⟨rfl, Finset.card_range c⟩, rfl⟩

end Schedule

theorem runQueue_of_able {workers : Nat} {phrases : List String}
    (h : phrases = [] ∨ 0 < workers) :
    runQueue translate workers phrases = drain translate phrases := by
  cases phrases with
  | nil => rfl
  | cons phrase phrases =>
    cases workers with
    | zero => simp at h
    | succ workers => rfl

theorem resolve_of_able (translate : Model.Translator) {workers : Nat} {rows : Rows}
    {phrases : List String} {split : Split}
    (hsplit : splitPhrases rows phrases = .ok split) (hable : split.pending = [] ∨ 0 < workers) :
    let r := resolve translate workers rows phrases
    let after := split.pending.foldl (Progress.use translate) { rows := rows }
    r.rows = after.rows ∧ r.outcome = after.outcome phrases split.known
      ∧ r.calls = (drain translate split.pending).calls := by
  obtain ⟨hrows, hfailure, hrecords⟩ :=
    @foldl_use_eq_insertAll translate split.pending { rows := rows } rfl
  simp only [resolve, hsplit, runQueue_of_able hable, Progress.outcome, hrows, hfailure]
  cases hrefused : (insertAll rows (newRecords (drain translate split.pending).results)).2 with
  | some fault => simp
  | none =>
    cases hdrain : (drain translate split.pending).failure with
    | some failure => simp
    | none => simp [hrecords (by simp [hfailure, hrefused, hdrain])]

theorem resolves_resolve (translate : Model.Translator) (workers : Nat) (rows : Rows)
    (phrases : List String) :
    Resolves translate workers rows phrases (resolve translate workers rows phrases) := by
  cases hsplit : splitPhrases rows phrases with
  | error fault =>
    have hresolve : resolve translate workers rows phrases
        = { rows := rows, outcome := .error (.store fault) } := by simp only [resolve, hsplit]
    rw [hresolve]
    exact .unreadable hsplit rfl rfl rfl
  | ok split =>
    by_cases hable : split.pending = [] ∨ 0 < workers
    · obtain ⟨hrows, houtcome, hcalls⟩ := resolve_of_able translate hsplit hable
      have hbegins := drain_calls_within translate split.pending
      have htake := List.prefix_iff_eq_take.mp hbegins
      have hstop : ((split.pending.take (drain translate split.pending).calls.length).foldl
          (Progress.use translate) { rows := rows }).failure ≠ none
          ∨ (drain translate split.pending).calls.length = split.pending.length := by
        cases hfailure : (drain translate split.pending).failure with
        | none => exact .inr (by rw [drain_calls_of_failure_none hfailure])
        | some failure =>
          left
          rw [← htake]
          have hafter := (@foldl_use_eq_insertAll translate
            (drain translate split.pending).calls { rows := rows } rfl).2.1
          rw [hafter, drain_drain_calls, hfailure]
          simp
      obtain ⟨pool, hreaches, hfinal, htaken⟩ :=
        @exists_final ⟨translate, workers, split.pending, rows⟩ hable _ hbegins.length_le hstop
      refine .pooled hsplit hable hreaches hfinal ?_ ?_ ?_
      · rw [hrows, hreaches.invariant.progress_of_final hfinal]
      · rw [houtcome, hreaches.invariant.progress_of_final hfinal]
      · rw [hcalls, htaken, ← htake]
    · obtain ⟨hwork, hnone⟩ := not_or.mp hable
      obtain rfl : workers = 0 := by omega
      obtain ⟨phrase, rest, hpending⟩ := List.exists_cons_of_ne_nil hwork
      refine .noWorkers hsplit hwork rfl ?_ ?_ ?_ <;>
        simp [resolve, hsplit, hpending, runQueue, newRecords, insertAll]

/-! ## The records of the phrases -/

/-- The record of a phrase: the one that the rows have, else the one that it is translated to. -/
def recordOf? (translate : Model.Translator) (rows : Rows) (phrase : String) : Option Json.Value :=
  (stored? rows phrase).or (translated? translate phrase)

theorem lookup_filterMap_key (record? : String → Option Json.Value) (phrases : List String)
    (phrase : String) :
    (phrases.filterMap fun p => (record? p).map fun record => (p, record)).lookup phrase
      = if phrase ∈ phrases then record? phrase else none := by
  induction phrases with
  | nil => rfl
  | cons p phrases ih =>
    by_cases hp : phrase = p
    · subst hp
      cases hrecord : record? phrase with
      | some record => simp [hrecord]
      | none => simp [hrecord, ih]
    · have hbeq : (phrase == p) = false := beq_eq_false_iff_ne.mpr hp
      cases hrecord : record? p with
      | some record => simp [hrecord, List.lookup_cons, hbeq, ih, hp]
      | none => simp [hrecord, ih, hp]

/-- The records come in the order of the phrases, those from the rows and the new ones mixed. -/
theorem catalogOf_known_translated {rows : Rows} {phrases : List String} (h : phrases.Nodup) :
    catalogOf phrases (knownRecords rows phrases
        ++ translatedRecords translate (pendingPhrases rows phrases))
      = phrases.filterMap fun phrase =>
        (recordOf? translate rows phrase).map fun record => (phrase, record) := by
  rw [catalogOf, Text.eraseDups_of_nodup h]
  refine List.filterMap_congr fun phrase hphrase => ?_
  have hlookup : (knownRecords rows phrases
      ++ translatedRecords translate (pendingPhrases rows phrases)).lookup phrase
      = recordOf? translate rows phrase := by
    rw [List.lookup_append, knownRecords, lookup_filterMap_key, if_pos hphrase, translatedRecords,
      lookup_filterMap_key, recordOf?]
    cases hstored : stored? rows phrase with
    | some record => rfl
    | none =>
      have hpending : phrase ∈ pendingPhrases rows phrases := by
        simp [pendingPhrases, hphrase, hstored]
      rw [if_pos hpending]
  rw [hlookup]

theorem settled_of_settles {rows : Rows} {phrases : List String} (hnodup : phrases.Nodup)
    (hsettles : ∀ phrase ∈ pendingPhrases rows phrases, Settles translate phrase)
    (hfresh : ∀ phrase ∈ pendingPhrases rows phrases, rows.lookup phrase = none) :
    settled translate rows phrases
      = { rows := rows ++ recordRows (translatedRecords translate (pendingPhrases rows phrases))
          records := translatedRecords translate (pendingPhrases rows phrases) } :=
  foldl_use_of_settles hsettles (hnodup.filter _) hfresh

/-- The phrases and their records after resolving has succeeded with a record for every phrase: those
without a record had no row, and all of them have come to one. -/
theorem Resolves.of_ok {workers : Nat} {rows : Rows} {phrases : List String} {r : Resolution}
    {catalog : Catalog} (h : Resolves translate workers rows phrases r) (hnodup : phrases.Nodup)
    (hok : r.outcome = .ok catalog)
    (hsome : ∀ phrase ∈ r.calls, (translate phrase).outcome ≠ .ok none) :
    (∀ phrase ∈ phrases, ∃ record, Store.lookupRecord rows phrase = .ok record)
    ∧ (∀ phrase ∈ pendingPhrases rows phrases,
      rows.lookup phrase = none ∧ ∃ record, translated? translate phrase = some record)
    ∧ r.rows = rows ++ recordRows (translatedRecords translate (pendingPhrases rows phrases))
    ∧ catalog = phrases.filterMap fun phrase =>
      (recordOf? translate rows phrase).map fun record => (phrase, record) := by
  cases h with
  | unreadable split_eq rows_eq outcome_eq => rw [hok] at outcome_eq; cases outcome_eq
  | noWorkers split_eq work none_ rows_eq outcome_eq => rw [hok] at outcome_eq; cases outcome_eq
  | @pooled split pool split_eq able run final rows_eq outcome_eq calls_perm =>
    have hinv := run.invariant
    have hprogress := hinv.progress_of_final final
    have hreadable := readable_of_splitPhrases split_eq
    obtain rfl := splitPhrases_eq_ok split_eq
    have hfailure : pool.progress.failure = none := by
      cases hfailure : pool.progress.failure with
      | none => rfl
      | some failure =>
        rw [hok, Progress.outcome, hfailure] at outcome_eq
        cases outcome_eq
    -- all results were used, so all phrases were taken
    have htake : (pendingPhrases rows phrases).take pool.taken = pendingPhrases rows phrases := by
      rcases (hinv.settled final.1).2 with hne | hused
      · exact absurd hfailure hne
      · exact List.take_of_length_le (hused ▸ hinv.used_le)
    rw [htake] at calls_perm
    have hused := hprogress ▸ hfailure
    have hfresh := fresh_of_foldl_use hused
      fun phrase hphrase => hsome phrase (calls_perm.mem_iff.mpr hphrase)
    rw [foldl_use_of_settles (fun p hp => (settles_of_foldl_use hused p hp).1) (hnodup.filter _)
      fun p hp => (hfresh p hp).2] at hprogress
    refine ⟨hreadable, fun phrase hphrase => (hfresh phrase hphrase).symm,
      by rw [rows_eq, hprogress], ?_⟩
    · rw [hok, Progress.outcome, hprogress, Except.ok.injEq] at outcome_eq
      rw [outcome_eq, ← catalogOf_known_translated hnodup]
      rfl

theorem Resolves.of_known {workers : Nat} {rows : Rows} {phrases : List String} {r : Resolution}
    (h : Resolves translate workers rows phrases r) (hnodup : phrases.Nodup)
    (hknown : ∀ phrase ∈ phrases, ∃ record, Store.lookupRecord rows phrase = .ok (some record)) :
    r.rows = rows ∧ r.calls = [] ∧ r.outcome = .ok (phrases.filterMap fun phrase =>
      (stored? rows phrase).map fun record => (phrase, record)) := by
  have hstored : ∀ phrase ∈ phrases, ∃ record, stored? rows phrase = some record := by
    intro phrase hphrase
    obtain ⟨record, hrecord⟩ := hknown phrase hphrase
    exact ⟨record, by rw [stored?, hrecord]⟩
  have hpending : pendingPhrases rows phrases = [] := by
    rw [pendingPhrases, List.filter_eq_nil_iff]
    intro phrase hphrase
    obtain ⟨record, hrecord⟩ := hstored phrase hphrase
    simp [hrecord]
  have hsplit := splitPhrases_of_readable fun phrase hphrase =>
    (hknown phrase hphrase).imp' some fun record hrecord => hrecord
  rw [hpending] at hsplit
  have hcatalog : catalogOf phrases (knownRecords rows phrases)
      = phrases.filterMap fun phrase =>
        (stored? rows phrase).map fun record => (phrase, record) := by
    have hmixed := @catalogOf_known_translated translate rows phrases hnodup
    rw [hpending, translatedRecords, List.filterMap_nil, List.append_nil] at hmixed
    rw [hmixed]
    refine List.filterMap_congr fun phrase hphrase => ?_
    obtain ⟨record, hrecord⟩ := hstored phrase hphrase
    rw [recordOf?, hrecord, Option.some_or]
  cases h with
  | unreadable split_eq => rw [hsplit] at split_eq; cases split_eq
  | noWorkers split_eq work =>
    rw [hsplit, Except.ok.injEq] at split_eq
    subst split_eq
    exact absurd rfl work
  | pooled split_eq able run final rows_eq outcome_eq calls_perm =>
    have hprogress := run.invariant.progress_of_final final
    rw [hsplit, Except.ok.injEq] at split_eq
    subst split_eq
    rw [List.foldl_nil] at hprogress
    rw [List.take_nil, List.perm_nil] at calls_perm
    refine ⟨by rw [rows_eq, hprogress], calls_perm, ?_⟩
    rw [outcome_eq, hprogress, Progress.outcome, List.append_nil, hcatalog]

/-- Every text is read as something else than `null`. -/
def Decodes (rows : Rows) : Prop :=
  ∀ row ∈ rows, ∃ text record, row.2 = some text ∧ Json.read text = .ok record ∧ record ≠ .null

theorem Decodes.lookupRecord {rows : Rows} (h : Decodes rows) (phrase : String) :
    ∃ record, Store.lookupRecord rows phrase = .ok record
      ∧ (record = none ↔ rows.lookup phrase = none) := by
  cases hrow : rows.lookup phrase with
  | none => exact ⟨none, by simp [Store.lookupRecord, hrow], by simp⟩
  | some text? =>
    obtain ⟨text, record, rfl, hread, hnull⟩ := h _ (mem_of_lookup hrow)
    refine ⟨some record, ?_, by simp⟩
    cases record with
    | null => exact absurd rfl hnull
    | _ => simp [Store.lookupRecord, hrow, hread]

theorem Decodes.pendingPhrases_eq {rows : Rows} (h : Decodes rows) (phrases : List String) :
    pendingPhrases rows phrases = phrases.filter fun phrase => (rows.lookup phrase).isNone := by
  refine List.filter_congr fun phrase _ => ?_
  obtain ⟨record, hrecord, hnone⟩ := h.lookupRecord phrase
  have hstored : stored? rows phrase = record := by rw [stored?, hrecord]
  rw [hstored, Bool.eq_iff_iff, Option.isNone_iff_eq_none, Option.isNone_iff_eq_none]
  exact hnone

theorem Decodes.lookup_of_pending {rows : Rows} (h : Decodes rows) {phrases : List String} :
    ∀ phrase ∈ pendingPhrases rows phrases, rows.lookup phrase = none := by
  rw [h.pendingPhrases_eq]
  intro phrase hphrase
  simpa using (List.mem_filter.mp hphrase).2

/-- Where all rows can be read and all phrases without a row settle, resolving succeeds. -/
theorem Resolves.of_settles {workers : Nat} {rows : Rows} {phrases : List String} {r : Resolution}
    (h : Resolves translate workers rows phrases r) (hnodup : phrases.Nodup) (hrows : Decodes rows)
    (hworkers : 0 < workers)
    (hsettles : ∀ phrase ∈ pendingPhrases rows phrases, Settles translate phrase) :
    r.rows = rows ++ recordRows (translatedRecords translate (pendingPhrases rows phrases))
    ∧ r.outcome = .ok (phrases.filterMap fun phrase =>
      (recordOf? translate rows phrase).map fun record => (phrase, record)) := by
  obtain ⟨hafter, houtcome⟩ := h.of_readable hworkers fun phrase _ =>
    (hrows.lookupRecord phrase).imp fun record hrecord => hrecord.1
  rw [settled_of_settles hnodup hsettles hrows.lookup_of_pending] at hafter houtcome
  refine ⟨hafter, houtcome.trans ?_⟩
  rw [← catalogOf_known_translated hnodup]
  rfl

/-- After resolving has succeeded on rows that can all be read, the rows and the catalog have gained the
records of the phrases without a row. -/
theorem Resolves.of_decodes {workers : Nat} {rows : Rows} {phrases : List String} {r : Resolution}
    {catalog : Catalog} (h : Resolves translate workers rows phrases r) (hnodup : phrases.Nodup)
    (hrows : Decodes rows) (hok : r.outcome = .ok catalog) :
    r.rows = rows ++ recordRows (translatedRecords translate (pendingPhrases rows phrases))
    ∧ catalog = phrases.filterMap fun phrase =>
      (recordOf? translate rows phrase).map fun record => (phrase, record) := by
  obtain ⟨-, hfailure, hafter, hcatalog⟩ := h.of_outcome_ok hok
  rw [settled_of_settles hnodup (fun p hp => (settles_of_foldl_use hfailure p hp).1)
    hrows.lookup_of_pending] at hafter hcatalog
  exact ⟨hafter, hcatalog.trans (catalogOf_known_translated hnodup)⟩

/-- Translates one phrase, fails for another and has nothing for all others. -/
def oneOrFault (phrase failing : String) : Model.Translator := fun p =>
  if p = phrase then { outcome := .ok (some (.obj [("en", .str "Hi")])) }
  else if p = failing then { outcome := .error (.unreadable (.tooDeep .object)) }
  else { outcome := .ok none }

theorem isTextRecord_oneOrFault {phrase failing p : String} {record : Json.Value}
    (h : translated? (oneOrFault phrase failing) p = some record) : IsTextRecord record := by
  unfold translated? oneOrFault at h
  split at h
  · rename_i record' hrecord
    split at hrecord
    · rw [← Except.ok.inj hrecord, Option.some.injEq] at h
      exact ⟨_, h.symm, by decide, by simp⟩
    · split at hrecord
      · cases hrecord
      · rw [← Except.ok.inj hrecord] at h
        cases h
  · cases h

end PhraseCatalog.Run
