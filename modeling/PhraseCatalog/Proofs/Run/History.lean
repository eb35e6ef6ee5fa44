import PhraseCatalog.Proofs.Model.Acceptance
import PhraseCatalog.Proofs.Run.Course
import PhraseCatalog.Proofs.Run.Resolution

/-! Runs one after another over one store: its rows are only ever added to, and a phrase that has a
row is never translated again. -/

set_option autoImplicit false

namespace PhraseCatalog.Run

open Emit Files

/-! ## The phrases of a run -/

theorem nodup_of_loadPhrases {tree : Node} {root : String} {phrases : List String}
    (h : (Scan.loadPhrases tree root).outcome = .ok phrases) : phrases.Nodup := by
  have hunique : ∀ found, (Scan.extractPhrases tree root).outcome = .ok found → found.Nodup := by
    intro found hfound
    rw [Scan.extractPhrases] at hfound
    dsimp only at hfound
    split at hfound
    · cases hfound
    · cases hfound
      exact Text.nodup_eraseDups _
  rw [Scan.loadPhrases] at h
  split at h
  · cases h
    exact List.nodup_singleton _
  · exact hunique phrases h

/-! ## The texts of records -/

/-- The text of an object is read as an object if it is read at all. -/
theorem read_recordText_obj {members : List (String × Json.Value)} {v : Json.Value}
    (h : Json.read (Store.recordText (.obj members)) = .ok v) : ∃ members', v = .obj members' :=
  Json.exists_obj_of_read Json.Style.line_readable h

/-! ## One run on a store -/

/-- Anything that resolves phrases with a pool, with the workers in some order. -/
structure Schedule where
  resolver : Resolver
  resolves : ∀ translate workers rows phrases,
    Resolves translate workers rows phrases (resolver translate workers rows phrases)

def Schedule.sequential : Schedule := ⟨resolve, resolves_resolve⟩

theorem Schedule.resolves_course (schedule : Schedule) {settings : Settings} {source : Source}
    {tree : Node} (course : Course settings source tree) :
    Resolves course.translate settings.workers course.rows course.phrases
      (course.resolution schedule.resolver) :=
  schedule.resolves _ _ _ _

/-- The translator is a service, or its records are objects. -/
def Source.GivesObjects : Source → Prop
  | .given translate => ∀ phrase record, translated? translate phrase = some record →
    ∃ members, record = .obj members
  | .service _ => True

theorem Source.GivesObjects.translator {source : Source} (h : source.GivesObjects)
    {settings : Settings} {translate : Model.Translator}
    (htranslate : source.translator? settings = some translate) {phrase : String}
    {record : Json.Value} (hrecord : translated? translate phrase = some record) :
    ∃ members, record = .obj members := by
  cases source with
  | given translate' =>
    obtain rfl := translator?_given.mp htranslate
    exact h phrase record hrecord
  | service chat =>
    obtain ⟨model, -, rfl⟩ := translator?_service.mp htranslate
    obtain ⟨text, members, -, -, rfl⟩ :=
      Model.Settings.outcome_eq_record_iff.mp (translated?_eq_some_iff.mp hrecord)
    exact ⟨members, rfl⟩

/-- A run: the files that it starts on, its settings, where its translations come from, the order of
its workers and its formatter, which leaves the store alone. -/
structure Round where
  tree : Node
  settings : Settings
  source : Source
  schedule : Schedule
  formatter : Formatter
  objects : source.GivesObjects
  keeps : ∀ files, (formatter (formatCommand settings.outputDir) files).2.fileAt settings.storePlace
    = files.fileAt settings.storePlace

namespace Round

def result (round : Round) : EStateM.Result Failure Site Catalog :=
  runBy round.schedule.resolver round.settings round.source round.formatter { files := round.tree }

/-- What the run leaves, whether or not it fails. -/
def site (round : Round) : Site :=
  match round.result with
  | .ok _ site => site
  | .error _ site => site

end Round

def storedRows : Option Content → Rows
  | some (.table rows) => rows
  | _ => []

/-- What runs make of a store: nothing, or rows of different phrases that hold the texts of
objects. -/
def Grown (content : Option Content) : Prop :=
  content = none ∨ ∃ rows, content = some (.table rows) ∧ (rows.map (·.1)).Nodup
    ∧ ∀ row ∈ rows, ∃ members, row.2 = some (Store.recordText (.obj members))

theorem Grown.contentRows?_eq {content : Option Content} (h : Grown content) :
    contentRows? content = .ok (storedRows content) := by
  rcases h with rfl | ⟨rows, rfl, -⟩ <;> rfl

theorem Grown.nodup {content : Option Content} (h : Grown content) :
    ((storedRows content).map (·.1)).Nodup := by
  rcases h with rfl | ⟨rows, rfl, hnodup, -⟩
  · exact List.nodup_nil
  · exact hnodup

theorem Grown.text {content : Option Content} (h : Grown content) :
    ∀ row ∈ storedRows content, ∃ members, row.2 = some (Store.recordText (.obj members)) := by
  rcases h with rfl | ⟨rows, rfl, -, htext⟩
  · simp [storedRows]
  · exact htext

theorem Grown.notMem_of_lookupRecord {content : Option Content} (h : Grown content)
    {phrase : String} (hnone : Store.lookupRecord (storedRows content) phrase = .ok none) :
    phrase ∉ (storedRows content).map (·.1) := by
  rw [← lookup_eq_none_iff_notMem]
  cases hrow : (storedRows content).lookup phrase with
  | none => rfl
  | some text? =>
    obtain ⟨members, rfl⟩ := h.text _ (mem_of_lookup hrow)
    rw [Store.lookupRecord, hrow] at hnone
    cases hread : Json.read (Store.recordText (.obj members)) with
    | error error => simp [hread] at hnone
    | ok v =>
      obtain ⟨members', rfl⟩ := read_recordText_obj hread
      simp [hread] at hnone

/-- What a run does to the rows: it translates phrases without a row, each once, and adds rows of new
phrases behind those that are there. -/
structure Extends (before : Rows) (calls : List String) (after : Rows) : Prop where
  fresh : ∀ phrase ∈ calls, phrase ∉ before.map (·.1)
  nodup : calls.Nodup
  added : before <+: after
  unique : (after.map (·.1)).Nodup

/-- A run resolves nothing and leaves the store as it is, or the rows that it keeps are those that its
phrases came to, whether or not it fails. -/
theorem Round.store_cases (round : Round) :
    (round.site.files.fileAt round.settings.storePlace
        = round.tree.fileAt round.settings.storePlace ∧ round.site.calls = [])
    ∨ ∃ course : Course round.settings round.source round.tree,
      round.site.files.fileAt round.settings.storePlace
        = some (.table (course.resolution round.schedule.resolver).rows)
      ∧ round.site.calls = (course.resolution round.schedule.resolver).calls := by
  have hensures := runBy_ensures round.schedule.resolver round.settings round.source
    round.formatter round.tree
  unfold Action.Ensures at hensures
  unfold Round.site Round.result
  split at hensures
  · rename_i catalog s hrun
    obtain ⟨course, -, hfiles, -, hcalls⟩ := hensures
    rw [hrun]
    refine .inr ⟨course, ?_, hcalls⟩
    rw [← course.fileAt_written round.schedule.resolver catalog]
    simp only [hfiles, Settings.formatted]
    split
    · exact round.keeps _
    · rfl
  · rename_i failure s hrun
    rw [hrun]
    cases hensures with
    | before hbefore =>
      cases hbefore with
      | early _ _ hfiles hcalls =>
        refine .inl ⟨?_, hcalls⟩
        rcases hfiles with hfiles | hfiles
        · simp only [hfiles]
        · simp only [hfiles, Node.fileAt_makeNamed]
      | resolving course _ hfiles hcalls =>
        exact .inr ⟨course, by simp only [hfiles, course.fileAt_kept], hcalls⟩
    | writing course catalog _ _ hfiles hcalls =>
      exact .inr ⟨course, by simp only [hfiles, course.fileAt_written], hcalls⟩

/-- The rows that a run has found in a store that runs have made. -/
theorem Course.rows_eq_storedRows {settings : Settings} {source : Source} {tree : Node}
    (course : Course settings source tree) (h : Grown (tree.fileAt settings.storePlace)) :
    course.rows = storedRows (tree.fileAt settings.storePlace) := by
  have hopened := course.opened.2.2
  rw [h.contentRows?_eq, Except.ok.injEq] at hopened
  exact hopened.symm

/-- Every row that a run adds holds the text of a record that its translator has given and that can be
stored. -/
theorem Round.exists_added {round : Round}
    (h : Grown (round.tree.fileAt round.settings.storePlace)) :
    ∃ added, storedRows (round.site.files.fileAt round.settings.storePlace)
        = storedRows (round.tree.fileAt round.settings.storePlace) ++ added
      ∧ ∀ row ∈ added, ∃ translate record, round.source.translator? round.settings = some translate
        ∧ translated? translate row.1 = some record ∧ Store.Storable record
        ∧ row.2 = some (Store.recordText record) := by
  rcases round.store_cases with ⟨hfile, -⟩ | ⟨course, hfile, -⟩
  · exact ⟨[], by rw [hfile, List.append_nil], by simp⟩
  · have hresolves := round.schedule.resolves_course course
    obtain ⟨added, hadded, hafter⟩ := hresolves.exists_added
    refine ⟨added, by rw [hfile, storedRows, hafter, course.rows_eq_storedRows h], ?_⟩
    intro row hrow
    obtain ⟨record, hrecord, htext⟩ := hadded.text row hrow
    exact ⟨course.translate, record, course.translate_eq, hrecord, htext⟩

theorem Round.extends {round : Round}
    (h : Grown (round.tree.fileAt round.settings.storePlace)) :
    Grown (round.site.files.fileAt round.settings.storePlace)
      ∧ Extends (storedRows (round.tree.fileAt round.settings.storePlace)) round.site.calls
        (storedRows (round.site.files.fileAt round.settings.storePlace)) := by
  rcases round.store_cases with ⟨hfile, hcalls⟩ | ⟨course, hfile, hcalls⟩
  · rw [hfile, hcalls]
    exact ⟨h, by simp, List.nodup_nil, List.prefix_rfl, h.nodup⟩
  · have hresolves := round.schedule.resolves_course course
    have hrows := (course.rows_eq_storedRows h).symm
    obtain ⟨added, hadded, hafter⟩ := hresolves.exists_added
    obtain ⟨hnodup, hfresh⟩ := hresolves.calls (nodup_of_loadPhrases course.phrases_eq)
    have hnodupRows := h.nodup
    have htext := h.text
    rw [hrows] at hnodupRows htext
    rw [hfile, hcalls, hrows]
    have hunique : ((course.resolution round.schedule.resolver).rows.map (·.1)).Nodup := by
      rw [hafter, List.map_append, List.nodup_append]
      refine ⟨hnodupRows, hadded.nodup, ?_⟩
      rintro key hkey other hother rfl
      obtain ⟨row, hrow, rfl⟩ := List.mem_map.mp hother
      exact lookup_eq_none_iff_notMem.mp (hadded.fresh row hrow) hkey
    refine ⟨.inr ⟨_, rfl, hunique, ?_⟩, ?_, hnodup, ⟨added, hafter.symm⟩, hunique⟩
    · intro row hrow
      rw [hafter] at hrow
      rcases List.mem_append.mp hrow with hrow | hrow
      · exact htext row hrow
      · obtain ⟨record, hrecord, -, hrowText⟩ := hadded.text row hrow
        obtain ⟨members, rfl⟩ := round.objects.translator course.translate_eq hrecord
        exact ⟨members, hrowText⟩
    · intro phrase hphrase
      have hlookup := (hfresh phrase hphrase).2
      rw [← hrows] at hlookup ⊢
      exact h.notMem_of_lookupRecord hlookup

/-- Every row holds the text of a record that is right for its phrase. -/
def RowsHold (right : String → Json.Value → Prop) (rows : Rows) : Prop :=
  ∀ row ∈ rows, ∃ record, right row.1 record ∧ row.2 = some (Store.recordText record)

theorem RowsHold.mono {right right' : String → Json.Value → Prop} {rows : Rows}
    (h : RowsHold right rows) (himp : ∀ phrase record, right phrase record → right' phrase record) :
    RowsHold right' rows := by
  intro row hrow
  obtain ⟨record, hright, htext⟩ := h row hrow
  exact ⟨record, himp row.1 record hright, htext⟩

/-- The translator of the run gives right records only. -/
def Round.Gives (right : String → Json.Value → Prop) (round : Round) : Prop :=
  ∀ translate, round.source.translator? round.settings = some translate →
    ∀ phrase record, translated? translate phrase = some record → right phrase record

/-- If the records that can be stored are right, the rows hold right records after the run, too. -/
theorem Round.rowsHold {right : String → Json.Value → Prop} {round : Round}
    (hgives : round.Gives fun phrase record => Store.Storable record → right phrase record)
    (hgrown : Grown (round.tree.fileAt round.settings.storePlace))
    (h : RowsHold right (storedRows (round.tree.fileAt round.settings.storePlace))) :
    RowsHold right (storedRows (round.site.files.fileAt round.settings.storePlace)) := by
  obtain ⟨added, hafter, hadded⟩ := Round.exists_added hgrown
  rw [hafter]
  intro row hrow
  rcases List.mem_append.mp hrow with hrow | hrow
  · exact h row hrow
  · obtain ⟨translate, record, htranslate, hrecord, hstorable, htext⟩ := hadded row hrow
    exact ⟨record, hgives translate htranslate row.1 record hrecord hstorable, htext⟩

/-! ## Histories -/

/-- The runs share the place of their store, and each finds there what the one before has left. -/
def IsHistory (place : List String) : Option Content → List Round → Prop
  | _, [] => True
  | content, round :: rest => round.settings.storePlace = place
    ∧ round.tree.fileAt place = content ∧ IsHistory place (round.site.files.fileAt place) rest

/-- What holds of the rows at first and is kept by every run holds wherever a run starts. -/
theorem invariant_of_history {place : List String} {content : Option Content}
    {rounds : List Round} {holds : Rows → Prop} (hhistory : IsHistory place content rounds)
    (hgrown : Grown content) (h : holds (storedRows content))
    (hround : ∀ round ∈ rounds, Grown (round.tree.fileAt round.settings.storePlace) →
      holds (storedRows (round.tree.fileAt round.settings.storePlace)) →
      holds (storedRows (round.site.files.fileAt round.settings.storePlace))) :
    ∀ round ∈ rounds, round.settings.storePlace = place ∧ Grown (round.tree.fileAt place)
      ∧ holds (storedRows (round.tree.fileAt place)) := by
  induction rounds generalizing content with
  | nil => simp
  | cons round rounds ih =>
    obtain ⟨rfl, rfl, hrest⟩ := hhistory
    intro r hr
    rcases List.mem_cons.mp hr with rfl | hr
    · exact ⟨rfl, hgrown, h⟩
    · exact ih hrest (Round.extends hgrown).1 (hround round List.mem_cons_self hgrown h)
        (fun r' hr' => hround r' (List.mem_cons_of_mem _ hr')) r hr

/-- In a history that starts without a store and whose runs only have right records among those that
can be stored, no row ever holds another one. -/
theorem rowsHold_of_history {right : String → Json.Value → Prop} {place : List String}
    {rounds : List Round} (hhistory : IsHistory place none rounds)
    (hgives : ∀ round ∈ rounds,
      round.Gives fun phrase record => Store.Storable record → right phrase record) :
    ∀ round ∈ rounds, round.settings.storePlace = place ∧ Grown (round.tree.fileAt place)
      ∧ RowsHold right (storedRows (round.tree.fileAt place))
      ∧ RowsHold right (storedRows (round.site.files.fileAt place)) := by
  have hempty : RowsHold right (storedRows none) := by
    intro row hrow
    cases hrow
  intro round hround
  obtain ⟨rfl, hgrown, hstart⟩ := invariant_of_history hhistory (.inl rfl) hempty
    (fun r hr hgrown h => Round.rowsHold (hgives r hr) hgrown h) round hround
  exact ⟨rfl, hgrown, hstart, Round.rowsHold (hgives round hround) hgrown hstart⟩

theorem extends_of_history {place : List String} {content : Option Content} {rounds : List Round}
    (hgrown : Grown content) (h : IsHistory place content rounds) :
    ∀ round ∈ rounds, Extends (storedRows (round.tree.fileAt place)) round.site.calls
      (storedRows (round.site.files.fileAt place)) := by
  intro round hround
  obtain ⟨rfl, hstart, -⟩ := @invariant_of_history place content rounds (fun _ => True) h hgrown
    trivial (fun _ _ _ _ => trivial) round hround
  exact (Round.extends hstart).2

/-- The store decides in every run of a history that starts without one: no phrase that has a row is
translated, none twice in one run, and rows are only added behind those that are there, whether or not
a run fails. -/
theorem store_decides_in_history {place : List String} {rounds : List Round}
    (h : IsHistory place none rounds) :
    ∀ round ∈ rounds, Extends (storedRows (round.tree.fileAt place)) round.site.calls
      (storedRows (round.site.files.fileAt place)) :=
  extends_of_history (.inl rfl) h

def Round.greeting (tree : Node) : Round where
  tree := tree
  settings := greetingSettings
  source := .given greet
  schedule := .sequential
  formatter := bareShell.formatter
  objects := by
    rintro phrase record ⟨⟩
    exact ⟨_, rfl⟩
  keeps _ := rfl

theorem store_decides_in_two_runs :
    let first := Round.greeting emptyOutput
    let second := Round.greeting first.site.files
    IsHistory greetingSettings.storePlace none [first, second] ∧ first.site.calls = ["hello"]
    ∧ Extends [("hello", some "\x7b\"en\": \"Hello\"\x7d")] second.site.calls
      (storedRows (second.site.files.fileAt greetingSettings.storePlace)) := by
  intro first second
  have hhistory : IsHistory greetingSettings.storePlace none [first, second] :=
    ⟨rfl, rfl, rfl, rfl, trivial⟩
  obtain ⟨s, hrun, hcalls, hfile⟩ := exists_greeting
  have hsite : first.site = s := by
    have hresult : first.result = .ok _ s := hrun
    rw [Round.site, hresult]
  have hextends := store_decides_in_history hhistory second (by simp)
  have hbefore : second.tree = s.files := congrArg Site.files hsite
  rw [hbefore, hfile] at hextends
  exact ⟨hhistory, by rw [hsite, hcalls], hextends⟩

end PhraseCatalog.Run
