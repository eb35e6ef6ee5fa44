import PhraseCatalog.Proofs.Model.Instruction
import PhraseCatalog.Proofs.Run.Aside
import PhraseCatalog.Proofs.Run.Accepted

/-! The requests of a run. A worker sends the request for a phrase between taking the phrase and
finishing it, so that a single worker sends the requests in the order of the phrases. A run that
completes has asked for the phrases without a record, for each of them once. -/

set_option autoImplicit false

namespace PhraseCatalog.Run

open Emit Files

/-! ## Sending -/

namespace Job
variable {job : Job} {pool : Pool} {sent : List Nat}

/-- The tasks whose requests are sent so far, in the order of sending: each once, when a worker has
taken it and before it is finished. -/
inductive Sends (job : Job) : Pool → List Nat → Prop
  | start : Sends job job.start []
  | step {pool pool' : Pool} {sent : List Nat} (h : Sends job pool sent) (next : job.Step pool pool')
    (done : ∀ i ∈ pool'.finished, i ∈ sent) : Sends job pool' sent
  | send {pool : Pool} {sent : List Nat} {i : Nat} (h : Sends job pool sent) (taken : i < pool.taken)
    (new : i ∉ sent) : Sends job pool (sent ++ [i])

theorem Sends.reaches (h : job.Sends pool sent) : job.Reaches pool := by
  induction h with
  | start => exact .start job
  | step _ next _ ih => exact ih.step next
  | send _ _ _ ih => exact ih

theorem Sends.mem_of_finished (h : job.Sends pool sent) : ∀ i ∈ pool.finished, i ∈ sent := by
  induction h with
  | start => simp [Job.start]
  | step _ _ done _ => exact done
  | send _ _ _ ih => exact fun i hi => List.mem_append_left _ (ih i hi)

theorem Step.taken_le {pool' : Pool} (hs : job.Step pool pool')
    (h : pool.taken ≤ pool.finished.card + job.workers) :
    pool'.taken ≤ pool'.finished.card + job.workers := by
  cases hs with
  | submit | use | cancel => exact h
  | take _ _ free => exact free
  | finish _ new =>
    rw [Finset.card_insert_of_notMem new]
    exact h.trans (by omega)

/-- No more tasks are under way than there are workers. -/
theorem Reaches.taken_le (h : job.Reaches pool) : pool.taken ≤ pool.finished.card + job.workers := by
  obtain ⟨n, hsteps⟩ := h
  generalize hstart : job.start = first at hsteps
  induction hsteps with
  | refl pool =>
    subst hstart
    exact Nat.zero_le _
  | step _ last ih => exact last.taken_le (ih hstart)

theorem Sends.taken_le (h : job.Sends pool sent) : pool.taken ≤ sent.length + job.workers := by
  have hsub : pool.finished ⊆ sent.toFinset := fun i hi =>
    List.mem_toFinset.mpr (h.mem_of_finished i hi)
  have hcard := (Finset.card_le_card hsub).trans sent.toFinset_card_le
  have htaken := h.reaches.taken_le
  omega

/-- A single worker sends in the order of the tasks. -/
theorem Sends.eq_range (h : job.Sends pool sent) (hone : job.workers = 1) :
    sent = List.range sent.length := by
  induction h with
  | start => rfl
  | step _ _ _ ih => exact ih
  | @send pool sent i h taken new ih =>
    have htaken := h.taken_le
    rw [ih, List.mem_range] at new
    obtain rfl : i = sent.length := by omega
    rw [List.length_append, List.length_singleton, List.range_succ, ← ih]

theorem Sends.lt_taken (h : job.Sends pool sent) : ∀ i ∈ sent, i < pool.taken := by
  induction h with
  | start => simp
  | @step pool pool' sent h next _ ih =>
    have hle : pool.taken ≤ pool'.taken := by
      cases next <;> simp
    exact fun i hi => (ih i hi).trans_le hle
  | send _ taken _ ih =>
    intro j hj
    rcases List.mem_append.mp hj with hj | hj
    · exact ih j hj
    · exact List.mem_singleton.mp hj ▸ taken

/-- When nothing is under way any more, a single worker has sent what it has taken. -/
theorem Sends.eq_range_of_final (h : job.Sends pool sent) (hone : job.workers = 1)
    (hfinal : pool.Final) : sent = List.range pool.taken := by
  have hrange := h.eq_range hone
  have hall : pool.taken ≤ sent.length := by
    have hsub : pool.finished ⊆ sent.toFinset := fun i hi =>
      List.mem_toFinset.mpr (h.mem_of_finished i hi)
    exact hfinal.2 ▸ (Finset.card_le_card hsub).trans sent.toFinset_card_le
  have hlength : sent.length = pool.taken := by
    refine Nat.le_antisymm ?_ hall
    by_contra hlt
    have hmem : pool.taken ∈ sent := by
      rw [hrange, List.mem_range]
      omega
    exact absurd (h.lt_taken _ hmem) (Nat.lt_irrefl _)
  rw [hrange, hlength]

/-- Whatever state a pool comes to, its workers can have sent their requests. -/
theorem Reaches.exists_sends (h : job.Reaches pool) : ∃ sent, job.Sends pool sent := by
  obtain ⟨n, hsteps⟩ := h
  generalize hstart : job.start = first at hsteps
  induction hsteps with
  | refl pool => exact ⟨[], hstart ▸ .start⟩
  | @step n _ pool pool' _ last ih =>
    obtain ⟨sent, hsends⟩ := ih hstart
    have hmem := hsends.mem_of_finished
    cases last with
    | @finish i hlt new =>
      by_cases hsent : i ∈ sent
      · refine ⟨sent, hsends.step (.finish hlt new) fun j hj => ?_⟩
        rcases Finset.mem_insert.mp hj with rfl | hj
        · exact hsent
        · exact hmem j hj
      · refine ⟨sent ++ [i], (hsends.send hlt hsent).step (.finish hlt new) fun j hj => ?_⟩
        rcases Finset.mem_insert.mp hj with rfl | hj
        · exact List.mem_append_right _ (List.mem_singleton_self _)
        · exact List.mem_append_left _ (hmem j hj)
    | submit hlt => exact ⟨sent, hsends.step (.submit hlt) hmem⟩
    | take running hlt free => exact ⟨sent, hsends.step (.take running hlt free) hmem⟩
    | use all hnone done hat => exact ⟨sent, hsends.step (.use all hnone done hat) hmem⟩
    | cancel running all hend => exact ⟨sent, hsends.step (.cancel running all hend) hmem⟩

/-- The requests of tasks. -/
def requests (job : Job) (sent : List Nat) : List Model.Request :=
  sent.flatMap fun i => (job.tasks[i]?).elim [] fun phrase => (job.translate phrase).requests

theorem requests_range (job : Job) {n : Nat} (hn : n ≤ job.tasks.length) :
    job.requests (List.range n)
      = (job.tasks.take n).flatMap fun phrase => (job.translate phrase).requests := by
  induction n with
  | zero => rfl
  | succ n ih =>
    have hget : job.tasks[n]? = some job.tasks[n] := List.getElem?_eq_getElem hn
    rw [requests, List.range_succ, List.flatMap_append, ← requests, ih (by omega), List.take_add_one,
      hget, List.flatMap_append]
    simp [hget]

end Job

/-- With this number of workers, the requests are sent by the workers of a pool. -/
def Schedule.Sends (schedule : Schedule) (workers : Nat) : Prop :=
  ∀ translate rows phrases split, splitPhrases rows phrases = .ok split →
    (split.pending = [] ∨ 0 < workers) →
    ∃ pool sent, (Job.mk translate workers split.pending rows).Sends pool sent ∧ pool.Final
      ∧ (schedule.resolver translate workers rows phrases).requests
        = (Job.mk translate workers split.pending rows).requests sent

theorem drain_requests (translate : Model.Translator) (tasks : List String) :
    (drain translate tasks).requests
      = (drain translate tasks).calls.flatMap fun phrase => (translate phrase).requests := by
  induction tasks with
  | nil => rfl
  | cons phrase tasks ih =>
    cases hresult : (translate phrase).outcome with
    | error fault => simp [drain, hresult]
    | ok record => simp [drain, hresult, ih]

theorem resolve_requests {translate : Model.Translator} {workers : Nat} {rows : Rows}
    {phrases : List String} {split : Split} (hsplit : splitPhrases rows phrases = .ok split)
    (hable : split.pending = [] ∨ 0 < workers) :
    (resolve translate workers rows phrases).requests = (drain translate split.pending).requests := by
  simp only [resolve, hsplit, runQueue_of_able hable]
  split <;> rfl

/-- Resolving the phrases one after another sends as a single worker does. -/
theorem Schedule.sequential_sends : Schedule.sequential.Sends 1 := by
  intro translate rows phrases split hsplit hable
  cases resolves_resolve translate 1 rows phrases with
  | unreadable split_eq =>
    rw [hsplit] at split_eq
    cases split_eq
  | noWorkers _ _ none_ => cases none_
  | @pooled split' pool split_eq _ run final _ _ calls_perm =>
    rw [hsplit, Except.ok.injEq] at split_eq
    subst split_eq
    obtain ⟨sent, hsends⟩ := run.exists_sends
    have hsubmitted := run.invariant.submitted_le
    have htaken := run.invariant.taken_le
    have hcalls := (resolve_of_able translate hsplit hable).2.2
    -- what was called is the start of the phrases that were taken
    have hstarts := List.prefix_iff_eq_take.mp (drain_calls_within translate split.pending)
    have hlength := calls_perm.length_eq
    rw [hcalls, List.length_take, Nat.min_eq_left (htaken.trans hsubmitted)] at hlength
    refine ⟨pool, sent, hsends, final, ?_⟩
    rw [hsends.eq_range_of_final rfl final, Job.requests_range _ (htaken.trans hsubmitted)]
    change (resolve translate 1 rows phrases).requests = _
    rw [resolve_requests hsplit hable, drain_requests, hstarts, hlength]

/-! ## The requests of a run -/

/-- A service is asked once for each phrase, whatever it answers. -/
theorem requests_translator (model : Model.Settings) (service : Model.Service)
    (style phrase : String) : (model.translator service style phrase).requests
      = [model.translationRequest style phrase] := by
  simp only [Model.Settings.translator]
  split
  · rfl
  · rfl
  · rfl
  · split <;> rfl

/-- A resolution that succeeds has sent the requests of the phrases without a record. -/
theorem Schedule.Sends.requests_eq {schedule : Schedule} (h : schedule.Sends 1)
    {translate : Model.Translator} {rows : Rows} {phrases : List String} {catalog : Catalog}
    (hok : (schedule.resolver translate 1 rows phrases).outcome = .ok catalog) :
    (schedule.resolver translate 1 rows phrases).requests
      = (pendingPhrases rows phrases).flatMap fun phrase => (translate phrase).requests := by
  obtain ⟨hreadable, hfailure, -⟩ := (schedule.resolves translate 1 rows phrases).of_outcome_ok hok
  obtain ⟨pool, sent, hsends, hfinal, hrequests⟩ := h translate rows phrases _
    (splitPhrases_of_readable hreadable) (.inr Nat.one_pos)
  have hinv := hsends.reaches.invariant
  have hprogress := hinv.progress_of_final hfinal
  have htaken := hinv.taken_le
  have hsubmitted := hinv.submitted_le
  -- nothing has failed, so that all results are used
  have hall : pool.taken = (pendingPhrases rows phrases).length := by
    rcases (hinv.settled hfinal.1).2 with hne | hused
    · exact absurd (hprogress ▸ hfailure) hne
    · have hle := hinv.used_le
      simp only at hused hsubmitted
      omega
  rw [hrequests, hsends.eq_range_of_final rfl hfinal, Job.requests_range _ (htaken.trans hsubmitted)]
  simp only [hall, List.take_length]

namespace Course
variable {settings : Settings} {source : Source} {tree : Node}

/-- A run with its translator sends the requests of its phrases, before it has its catalog. -/
theorem proceed_eq (course : Course settings source tree) {resolver : Resolver} {catalog : Catalog}
    (hcatalog : (course.resolution resolver).outcome = .ok catalog) (formatter : Formatter)
    {site : Site} (hfiles : site.files = tree) :
    ∃ s, s.requests = site.requests ++ (course.resolution resolver).requests
      ∧ proceed resolver settings formatter course.translate site
        = publish settings formatter catalog s := by
  let made : Site := { site with files := course.made }
  let scanned : Site :=
    { made with log := made.log ++ (Scan.loadPhrases course.made settings.sourceRoot).log }
  let opened : Site := { scanned with
    files := course.made.put settings.storePlace (.file (.table course.rows))
    log := scanned.log ++ [Store.openedEntry settings.storePath] }
  have hmade : Action.makeOutputDir settings.outputDir site = .ok () made := by
    simp only [Action.makeOutputDir, hfiles, course.made_eq, made]
  have hphrases : Action.loadPhrases settings.sourceRoot made = .ok course.phrases scanned := by
    simp only [Action.loadPhrases, Action.ofReport, made, course.phrases_eq, scanned]
  have hopened : Action.openStore settings.storePath scanned
      = .ok (settings.storePlace, course.rows) opened := by
    simp only [Action.openStore, scanned, made, course.opened_eq, opened]
  have hresolved : ∃ s, s.requests = site.requests ++ (course.resolution resolver).requests
      ∧ Action.resolvePhrases resolver course.translate settings.workers settings.storePlace
        course.rows course.phrases opened = .ok catalog s := by
    rw [resolution] at hcatalog
    simp only [Action.resolvePhrases, hcatalog]
    exact ⟨_, rfl, rfl⟩
  obtain ⟨s, hrequests, hresolved⟩ := hresolved
  refine ⟨s, hrequests, ?_⟩
  unfold proceed
  rw [Action.bind_of_ok _ hmade, Action.bind_of_ok _ hphrases, Action.bind_of_ok _ hopened]
  exact Action.bind_of_ok _ hresolved

end Course

theorem publish_requests {settings : Settings} {formatter : Formatter} {catalog result : Catalog}
    {s site : Site} (h : publish settings formatter catalog s = .ok result site) :
    site.requests = s.requests := by
  have hkept := (Action.publish_commutes (aside_withRequests s.requests) settings formatter
    catalog).leaving_eq (show Site.withRequests s.requests s = s from rfl)
  rw [h] at hkept
  exact (congrArg Site.requests (EStateM.Result.ok.inj hkept).2).symm

/-- A completed run on a service with one worker has asked for the phrases without a record. -/
theorem exists_course_of_completed {schedule : Schedule} (hsends : schedule.Sends 1)
    {settings : Settings} {model : Model.Settings} {service : Model.Service} {formatter : Formatter}
    {tree : Node} {catalog : Catalog} {site : Site} (hmodel : settings.model = some model)
    (hone : settings.workers = 1)
    (hrun : runBy schedule.resolver settings (.service service) formatter { files := tree }
      = .ok catalog site) :
    ∃ course : Course settings (.service service) tree,
      (∀ phrase ∈ course.phrases, ∃ record, Store.lookupRecord course.rows phrase = .ok record)
      ∧ site.requests = (pendingPhrases course.rows course.phrases).map
        (model.translationRequest settings.style) := by
  obtain ⟨course, hcatalog, -⟩ :=
    (runBy_ensures schedule.resolver settings (.service service) formatter tree).of_ok hrun
  have hreadable := ((schedule.resolves_course course).of_outcome_ok hcatalog).1
  have htranslate : course.translate = model.translator service settings.style := by
    obtain ⟨model', hmodel', heq⟩ := Source.translator?_service.mp course.translate_eq
    obtain rfl := Option.some.inj (hmodel.symm.trans hmodel')
    exact heq.symm
  rw [runBy_service hmodel, ← htranslate] at hrun
  obtain ⟨s, hrequests, hproceed⟩ := course.proceed_eq hcatalog formatter
    (show (Site.opened { files := tree } model).files = tree from rfl)
  rw [hproceed] at hrun
  have hsent : site.requests = (course.resolution schedule.resolver).requests :=
    (publish_requests hrun).trans hrequests
  rw [Course.resolution, hone] at hcatalog hsent
  rw [hsends.requests_eq hcatalog, htranslate] at hsent
  simp only [requests_translator, ← List.map_eq_flatMap] at hsent
  exact ⟨course, hreadable, hsent⟩

/-! ## What a run may send -/

/-- Only allowed requests have been sent. -/
def Site.SentOnly (allowed : Model.Request → Prop) (site : Site) : Prop :=
  ∀ request ∈ site.requests, allowed request

/-- All that the resolver sends is sent by the translator, for some phrase. -/
def Resolver.AsksOnly (resolver : Resolver) : Prop :=
  ∀ translate workers rows phrases,
    ∀ request ∈ (resolver translate workers rows phrases).requests,
      ∃ phrase, request ∈ (translate phrase).requests

theorem runQueue_asksOnly (translate : Model.Translator) (workers : Nat) (tasks : List String) :
    ∀ request ∈ (runQueue translate workers tasks).requests,
      ∃ phrase, request ∈ (translate phrase).requests := by
  intro request hrequest
  unfold runQueue at hrequest
  split at hrequest
  · cases hrequest
  · cases hrequest
  · rw [drain_requests, List.mem_flatMap] at hrequest
    obtain ⟨phrase, -, hphrase⟩ := hrequest
    exact ⟨phrase, hphrase⟩

theorem resolve_asksOnly : Resolver.AsksOnly resolve := by
  intro translate workers rows phrases request hrequest
  cases hsplit : splitPhrases rows phrases with
  | error fault =>
    simp only [resolve, hsplit] at hrequest
    cases hrequest
  | ok split =>
    refine runQueue_asksOnly translate workers split.pending request ?_
    simp only [resolve, hsplit] at hrequest
    split at hrequest <;> exact hrequest

namespace Action
variable {α β : Type} {allowed : Model.Request → Prop}

/-- If only allowed requests have been sent before the action, only such have been sent after it,
however it ends. -/
def SendsOnly (action : Action α) (allowed : Model.Request → Prop) : Prop :=
  ∀ site : Site, site.SentOnly allowed →
    action.Ensures site (fun _ s => s.SentOnly allowed) fun _ s => s.SentOnly allowed

theorem SendsOnly.bind {action : Action α} {next : α → Action β} (h : action.SendsOnly allowed)
    (hnext : ∀ a, (next a).SendsOnly allowed) : (action >>= next).SendsOnly allowed :=
  fun site hsite => (h site hsite).bind fun a s hs => hnext a s hs

/-- An action that makes no difference to the requests sends none. -/
theorem sendsOnly_of_commutes {action : Action α}
    (h : ∀ requests, action.Commutes (Site.withRequests requests)) : action.SendsOnly allowed := by
  intro site hsite
  have hkept := (h site.requests).leaving_eq
    (show Site.withRequests site.requests site = site from rfl)
  unfold Ensures
  rw [← hkept]
  cases action site <;> exact hsite

theorem Local.sendsOnly {action : Action α} (h : action.Local) : action.SendsOnly allowed :=
  sendsOnly_of_commutes fun requests => h.commutes (aside_withRequests requests)

theorem resolvePhrases_sendsOnly {resolver : Resolver} {translate : Model.Translator}
    (hasks : resolver.AsksOnly)
    (htranslate : ∀ phrase, ∀ request ∈ (translate phrase).requests, allowed request)
    (workers : Nat) (place : List String) (rows : Rows) (phrases : List String) :
    (resolvePhrases resolver translate workers place rows phrases).SendsOnly allowed := by
  intro site hsite
  have hsent : ∀ request ∈ site.requests ++ (resolver translate workers rows phrases).requests,
      allowed request := by
    intro request hrequest
    rcases List.mem_append.mp hrequest with hbefore | hnew
    · exact hsite request hbefore
    · obtain ⟨phrase, hphrase⟩ := hasks translate workers rows phrases request hnew
      exact htranslate phrase request hphrase
  simp only [Ensures, resolvePhrases]
  cases (resolver translate workers rows phrases).outcome <;> exact hsent

end Action

/-- All requests of a run are the translator's, also where the run fails. -/
theorem proceed_sendsOnly {resolver : Resolver} {translate : Model.Translator}
    {allowed : Model.Request → Prop} (hasks : resolver.AsksOnly)
    (htranslate : ∀ phrase, ∀ request ∈ (translate phrase).requests, allowed request)
    (settings : Settings) (formatter : Formatter) :
    (proceed resolver settings formatter translate).SendsOnly allowed := by
  unfold proceed
  refine (Action.makeOutputDir_local _).sendsOnly.bind fun _ => ?_
  refine (Action.loadPhrases_local _).sendsOnly.bind fun phrases => ?_
  refine (Action.openStore_local _).sendsOnly.bind fun ⟨place, rows⟩ => ?_
  refine (Action.resolvePhrases_sendsOnly hasks htranslate _ place rows phrases).bind
    fun catalog => ?_
  exact Action.sendsOnly_of_commutes fun requests =>
    Action.publish_commutes (aside_withRequests requests) settings formatter catalog

/-! ## What is asked -/

/-- The phrase has no row, or one whose text is `null`. -/
def Unrecorded (rows : Rows) (phrase : String) : Prop :=
  rows.lookup phrase = none
    ∨ ∃ text, rows.lookup phrase = some (some text) ∧ Json.read text = .ok .null

theorem lookupRecord_eq_none_iff {rows : Rows} {phrase : String} :
    Store.lookupRecord rows phrase = .ok none ↔ Unrecorded rows phrase := by
  unfold Store.lookupRecord Unrecorded
  rcases rows.lookup phrase with _ | _ | text
  · simp
  · simp
  · cases hread : Json.read text with
    | error error => simp [hread]
    | ok record => cases record <;> simp [hread]

theorem stored?_eq_none_iff {rows : Rows} {phrase : String}
    (hreadable : ∃ record, Store.lookupRecord rows phrase = .ok record) :
    stored? rows phrase = none ↔ Unrecorded rows phrase := by
  obtain ⟨record, hrecord⟩ := hreadable
  rw [← lookupRecord_eq_none_iff, stored?, hrecord, Except.ok.injEq]

/-- What a completed run with one worker has asked, for every service, store and order in which the
pool gets on: the phrases without a record, in their order, each once, with the model, the headers and
one message. A phrase with a row is among them just if its text is `null`. Whatever a phrase is, it is
what stands behind the first mark of its message, and the style stands before the mark, if the style
does not hold the mark itself; so no two phrases or styles have one message. -/
theorem new_phrases_are_asked_once (schedule : Schedule) (settings : Settings)
    (model : Model.Settings) (service : Model.Service) (formatter : Formatter) (tree : Node)
    (style : String) :
    (∀ catalog site, schedule.Sends 1 → settings.model = some model → settings.workers = 1 →
      runBy schedule.resolver settings (.service service) formatter { files := tree }
        = .ok catalog site →
      ∃ phrases rows asked,
        (Scan.loadPhrases (tree.makeNamed settings.outputDir).1 settings.sourceRoot).outcome
            = .ok phrases
          ∧ phrases.Nodup ∧ contentRows? (tree.fileAt settings.storePlace) = .ok rows
          ∧ site.requests = asked.map (fun phrase => ⟨model.model,
            .arr [.obj [("role", .str "user"),
              ("content", .str (Model.prompt phrase settings.style))]], [], model.headers⟩)
          ∧ asked.Sublist phrases ∧ (∀ phrase ∈ phrases, phrase ∈ asked ↔ Unrecorded rows phrase)
          ∧ ((∀ phrase ∈ phrases, Unrecorded rows phrase → rows.lookup phrase = none) →
            asked = phrases.filter fun phrase => (rows.lookup phrase).isNone))
    ∧ (¬ Model.Contains (style ++ " ") "Please translate: " →
      (∀ phrase, Model.SplitsAt "Please translate: " (Model.prompt phrase style)
        (Model.promptOpening ++ style ++ " ") phrase)
      ∧ ∀ style' phrase phrase', ¬ Model.Contains (style' ++ " ") "Please translate: " →
        Model.prompt phrase style = Model.prompt phrase' style' →
        phrase = phrase' ∧ style = style') := by
  refine ⟨?_, fun hstyle => ⟨Model.prompt_splitsAt hstyle, fun style' phrase phrase' hstyle' =>
    Model.eq_of_prompt_eq hstyle hstyle'⟩⟩
  intro catalog site hsends hmodel hone hrun
  obtain ⟨course, hreadable, hrequests⟩ := exists_course_of_completed hsends hmodel hone hrun
  have hmade : (tree.makeNamed settings.outputDir).1 = course.made :=
    congrArg Prod.fst course.made_eq
  have hstored := fun phrase hphrase =>
    @stored?_eq_none_iff course.rows phrase (hreadable phrase hphrase)
  refine ⟨course.phrases, course.rows, pendingPhrases course.rows course.phrases,
    hmade ▸ course.phrases_eq, nodup_of_loadPhrases course.phrases_eq, course.opened.2.2,
    hrequests, List.filter_sublist, fun phrase hphrase => ?_, fun hrows => ?_⟩
  · rw [pendingPhrases, List.mem_filter, Option.isNone_iff_eq_none, hstored phrase hphrase]
    exact and_iff_right hphrase
  · refine List.filter_congr fun phrase hphrase => ?_
    rw [Bool.eq_iff_iff, Option.isNone_iff_eq_none, Option.isNone_iff_eq_none,
      hstored phrase hphrase]
    exact ⟨hrows phrase hphrase, .inl⟩

/-- A service without a text for anything. -/
def muteService : Model.Service := fun _ => .content none

/-- A row with a record, and one whose text is `null`. -/
def nullRows : Rows := [("a", some "\x7b\"en\": \"A\"\x7d"), ("b", some "null")]

def muteTree : Node :=
  sourceTree "i18n('b')i18n('a')i18n('\x7bx\x7d')" [("i18n.sqlite", .file (.table nullRows))]

def muteCourse : Course askingSettings (.service muteService) muteTree where
  translate := plainModel.translator muteService ""
  made := muteTree
  phrases := ["b", "a", "\x7bx\x7d"]
  rows := nullRows
  translate_eq := rfl
  made_eq := Node.makeNamed_of_isDirAt (by decide)
  phrases_eq := by decide +kernel
  opened_eq := rfl

theorem pendingPhrases_mute :
    pendingPhrases nullRows muteCourse.phrases = ["b", "\x7bx\x7d"] := by decide +kernel

theorem lookupRecord_nullRows :
    Store.lookupRecord nullRows "a" = .ok (some (.obj [("en", .str "A")])) := by
  have hrecord : Json.read "\x7b\"en\": \"A\"\x7d" = .ok (.obj [("en", .str "A")]) := by cbv
  have hrow : nullRows.lookup "a" = some (some "\x7b\"en\": \"A\"\x7d") := rfl
  simp only [Store.lookupRecord, hrow, hrecord]

theorem readable_nullRows : ∀ phrase ∈ muteCourse.phrases,
    ∃ record, Store.lookupRecord nullRows phrase = .ok record := by
  have hnull : Json.read "null" = .ok .null := by cbv
  intro phrase hphrase
  simp only [muteCourse, List.mem_cons, List.not_mem_nil, or_false] at hphrase
  rcases hphrase with rfl | rfl | rfl
  · exact ⟨none, lookupRecord_eq_none_iff.mpr (.inr ⟨"null", rfl, hnull⟩)⟩
  · exact ⟨_, lookupRecord_nullRows⟩
  · exact ⟨none, lookupRecord_eq_none_iff.mpr (.inl (by decide))⟩

theorem exists_mute_run : ∃ catalog site,
    runBy resolve askingSettings (.service muteService) bareShell.formatter { files := muteTree }
      = .ok catalog site := by
  have hresolves : Resolves muteCourse.translate askingSettings.workers nullRows muteCourse.phrases
      (muteCourse.resolution resolve) :=
    Schedule.sequential.resolves_course muteCourse
  have hsettled : (settled muteCourse.translate nullRows muteCourse.phrases).failure = none := by
    rw [settled, pendingPhrases_mute]
    rfl
  obtain ⟨-, houtcome⟩ := hresolves.of_readable Nat.one_pos readable_nullRows
  rw [Progress.outcome, hsettled] at houtcome
  obtain ⟨site, hrun, -⟩ := exists_runBy_eq_ok bareShell.formatter muteCourse houtcome
    (muteCourse.exists_written resolve _ (by rintro ⟨entries, hget⟩; cases hget)
      (by rintro ⟨entries, hget⟩; cases hget))
  exact ⟨_, site, hrun⟩

/-- A phrase without a row is asked for, and one with a record is not; a phrase may hold the mark. -/
theorem new_phrases_are_asked_once_mute :
    (∃ catalog site, runBy Schedule.sequential.resolver askingSettings (.service muteService)
        bareShell.formatter { files := muteTree } = .ok catalog site
      ∧ ∃ asked : List String,
        site.requests = asked.map (plainModel.translationRequest askingSettings.style)
        ∧ asked.Sublist ["b", "a", "\x7bx\x7d"] ∧ "\x7bx\x7d" ∈ asked ∧ "a" ∉ asked)
    ∧ ¬ Model.Contains ("friendly" ++ " ") "Please translate: "
    ∧ Model.SplitsAt "Please translate: "
      (Model.prompt "Please translate: \x7b0\x7d\n" "friendly")
      (Model.promptOpening ++ "friendly" ++ " ") "Please translate: \x7b0\x7d\n" := by
  obtain ⟨hruns, hprompts⟩ := new_phrases_are_asked_once .sequential askingSettings plainModel
    muteService bareShell.formatter muteTree "friendly"
  have hstyle : ¬ Model.Contains ("friendly" ++ " ") "Please translate: " := by
    rw [Model.contains_iff]
    decide +kernel
  refine ⟨?_, hstyle, (hprompts hstyle).1 "Please translate: \x7b0\x7d\n"⟩
  obtain ⟨catalog, site, hrun⟩ := exists_mute_run
  obtain ⟨phrases, rows, asked, hphrases, -, hrows, hrequests, hsublist, hasked, -⟩ :=
    hruns catalog site Schedule.sequential_sends rfl rfl hrun
  have hmade : (muteTree.makeNamed askingSettings.outputDir).1 = muteTree :=
    congrArg Prod.fst muteCourse.made_eq
  have hphrases' : (Scan.loadPhrases muteTree askingSettings.sourceRoot).outcome
      = .ok muteCourse.phrases := muteCourse.phrases_eq
  have hrows' : contentRows? (muteTree.fileAt askingSettings.storePlace) = .ok nullRows :=
    muteCourse.opened.2.2
  rw [hmade, hphrases', Except.ok.injEq] at hphrases
  rw [hrows', Except.ok.injEq] at hrows
  subst hphrases hrows
  refine ⟨catalog, site, hrun, asked, hrequests, hsublist, ?_, ?_⟩
  · exact (hasked "\x7bx\x7d" (List.mem_of_getElem? (show muteCourse.phrases[2]? = _ from rfl))).mpr
      (.inl rfl)
  · rw [hasked "a" (List.mem_of_getElem? (show muteCourse.phrases[1]? = _ from rfl)),
      ← lookupRecord_eq_none_iff, lookupRecord_nullRows]
    simp

/-- A run completes that asks for a phrase with a row: its text is `null`. -/
theorem not_only_new_phrases_are_asked : ∃ catalog site,
    runBy resolve askingSettings (.service muteService) bareShell.formatter { files := muteTree }
        = .ok catalog site
      ∧ contentRows? (muteTree.fileAt askingSettings.storePlace) = .ok nullRows
      ∧ "b" ∈ nullRows.map (·.1)
      ∧ site.requests = ["b", "\x7bx\x7d"].map (plainModel.translationRequest askingSettings.style)
      ∧ site.requests ≠ (muteCourse.phrases.filter fun phrase => (nullRows.lookup phrase).isNone).map
        (plainModel.translationRequest askingSettings.style) := by
  obtain ⟨catalog, site, hrun⟩ := exists_mute_run
  obtain ⟨course, -, hrequests⟩ := exists_course_of_completed Schedule.sequential_sends
    (show askingSettings.model = some plainModel from rfl) rfl hrun
  obtain rfl := muteCourse.eq course
  have hpending : site.requests
      = ["b", "\x7bx\x7d"].map (plainModel.translationRequest askingSettings.style) := by
    rw [hrequests, show pendingPhrases muteCourse.rows muteCourse.phrases = _ from pendingPhrases_mute]
  refine ⟨catalog, site, hrun, muteCourse.opened.2.2, by decide, hpending, ?_⟩
  intro heq
  have hlength := congrArg List.length (hpending.symm.trans heq)
  rw [List.length_map, List.length_map] at hlength
  exact absurd hlength (by decide)

end PhraseCatalog.Run
