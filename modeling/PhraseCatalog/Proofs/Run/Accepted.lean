import PhraseCatalog.Proofs.Run.Completion
import PhraseCatalog.Proofs.Run.OwnRows

/-! The records of runs that ask a chat service. Every record that is stored or written is an object
that a completion holds, and no look is taken at its values: it has texts for values just where the
completion had. -/

set_option autoImplicit false

namespace PhraseCatalog.Run

open Emit Files

/-! ## Objects of completions -/

/-- The run has a service, whose completion for the phrase holds the record. -/
def Round.Accepts (round : Round) (phrase : String) (record : Json.Value) : Prop :=
  ∃ model service, round.settings.model = some model ∧ round.source = .service service
    ∧ model.Accepts service round.settings.style phrase record

theorem Round.accepts_of_translated {round : Round} {service : Model.Service}
    (hsource : round.source = .service service) :
    round.Gives round.Accepts := by
  intro translate htranslate phrase record hrecord
  rw [hsource] at htranslate
  obtain ⟨model, hmodel, rfl⟩ := Source.translator?_service.mp htranslate
  exact ⟨model, service, hmodel, hsource,
    Model.Settings.outcome_eq_record_iff.mp (translated?_eq_some_iff.mp hrecord)⟩

section Accepts
variable {model : Model.Settings} {service : Model.Service} {style phrase : String}
  {record : Json.Value} (h : model.Accepts service style phrase record)
include h

theorem isFittingObject_of_accepts : IsFittingObject record := by
  obtain ⟨text, members, -, hholds, rfl⟩ := h
  exact ⟨⟨members, rfl⟩, hholds.fits⟩

/-- What an accepted record is read as from its text has texts for values just where the record has. -/
theorem isTextRecord_iff_of_read {stored : Json.Value} (hstorable : Store.Storable record)
    (hread : Json.read (Store.recordText record) = .ok stored) :
    IsTextRecord stored ↔ IsTextRecord record := by
  obtain ⟨text, members, -, hholds, rfl⟩ := h
  constructor
  · rintro ⟨members', rfl, -, htexts⟩
    exact ⟨members, rfl, hholds.nodup,
      Json.strings_of_read Json.Style.line_readable hholds.nodup hstorable.whole hread htexts⟩
  · intro hrecord
    rw [hrecord.read_recordText, Except.ok.injEq] at hread
    rwa [← hread]

end Accepts

/-- The phrase has a record that some completion held, and it has texts for values just where this
has. -/
def Accepted (rounds : List Round) (phrase : String) (stored : Json.Value) : Prop :=
  ∃ round ∈ rounds, ∃ record, round.Accepts phrase record
    ∧ (IsTextRecord stored ↔ IsTextRecord record)

/-! ## Rows and catalogs -/

theorem RowsRead.decodes {rows : Rows} (h : RowsRead (fun _ => False) rows) : Decodes rows := by
  intro row hrow
  obtain ⟨text, htext, ⟨members, hread⟩ | ⟨_, hfalse, -⟩⟩ := h row hrow
  · exact ⟨text, _, htext, hread, by simp⟩
  · exact hfalse.elim

theorem Decodes.mem_of_stored {rows : Rows} (h : Decodes rows) {phrase : String}
    {record : Json.Value} (hstored : stored? rows phrase = some record) :
    ∃ text, (phrase, some text) ∈ rows ∧ Json.read text = .ok record := by
  cases hrow : rows.lookup phrase with
  | none => simp [stored?, Store.lookupRecord, hrow] at hstored
  | some text? =>
    have hmem := mem_of_lookup hrow
    obtain ⟨text, v, rfl, hread, hnull⟩ := h _ hmem
    have hlookup : Store.lookupRecord rows phrase = .ok (some v) := by
      cases v <;> simp_all [Store.lookupRecord]
    obtain rfl : v = record := by simpa [stored?, hlookup] using hstored
    exact ⟨text, hmem, hread⟩

/-- Every record of a catalog was read from a row or has just been translated. -/
theorem Resolves.mem_catalog {translate : Model.Translator} {workers : Nat} {rows : Rows}
    {phrases : List String} {r : Resolution} {catalog : Catalog}
    (h : Resolves translate workers rows phrases r) (hnodup : phrases.Nodup) (hrows : Decodes rows)
    (hok : r.outcome = .ok catalog) : ∀ entry ∈ catalog,
      (∃ text, (entry.1, some text) ∈ rows ∧ Json.read text = .ok entry.2)
        ∨ translated? translate entry.1 = some entry.2 := by
  rw [(h.of_decodes hnodup hrows hok).2]
  intro entry hentry
  obtain ⟨phrase, -, hphrase⟩ := List.mem_filterMap.mp hentry
  obtain ⟨record, hrecord, rfl⟩ := Option.map_eq_some_iff.mp hphrase
  rw [recordOf?, Option.or_eq_some_iff] at hrecord
  rcases hrecord with hstored | ⟨-, htranslated⟩
  · exact .inl (hrows.mem_of_stored hstored)
  · exact .inr htranslated

/-- A row that is accepted is read as a record that is accepted. -/
theorem RowsHold.accepted {rounds : List Round} {rows : Rows}
    (h : RowsHold (fun phrase record =>
      Store.Storable record ∧ ∃ round ∈ rounds, round.Accepts phrase record) rows) :
    ∀ row ∈ rows, ∃ text stored, row.2 = some text ∧ Json.read text = .ok stored
      ∧ Accepted rounds row.1 stored := by
  intro row hrow
  obtain ⟨record, ⟨hstorable, round, hround, haccepts⟩, htext⟩ := h row hrow
  obtain ⟨model, service, -, -, hmodel⟩ := id haccepts
  obtain ⟨⟨members, rfl⟩, hfits⟩ := isFittingObject_of_accepts hmodel
  obtain ⟨members', hread⟩ := read_recordText_of_fits hfits
  exact ⟨_, _, htext, hread, round, hround, _, haccepts,
    isTextRecord_iff_of_read hmodel hstorable hread⟩

/-- In every history that starts without a store and whose runs ask services, a phrase gets a record
exactly where its completion holds an object, whatever values this has; and every row that is stored
and every entry of a data module that is written has texts for values just where the object of the
completion has that it comes from. -/
theorem records_are_objects_of_completions {place : List String} {rounds : List Round}
    (hhistory : IsHistory place none rounds)
    (hservice : ∀ round ∈ rounds, ∃ service, round.source = .service service) :
    (∀ model service style phrase record,
      (Model.Settings.translator model service style phrase).outcome = .ok (some record)
        ↔ model.Accepts service style phrase record)
    ∧ ∀ round ∈ rounds,
      (∀ row ∈ storedRows (round.site.files.fileAt place), ∃ text stored, row.2 = some text
        ∧ Json.read text = .ok stored ∧ Accepted rounds row.1 stored)
      ∧ ∀ catalog site, round.result = .ok catalog site →
        (∀ entry ∈ catalog, Accepted rounds entry.1 entry.2)
        ∧ ((∀ files, round.settings.formatted round.formatter files = files) →
          site.files.fileAt round.settings.dataPlace = some (textContent (dataModule catalog))) := by
  refine ⟨fun _ _ _ _ _ => Model.Settings.outcome_eq_record_iff, ?_⟩
  have hgives : ∀ round ∈ rounds, round.Gives fun phrase record =>
      ∃ asked ∈ rounds, asked.Accepts phrase record := by
    intro round hround translate htranslate phrase record hrecord
    obtain ⟨service, hsource⟩ := hservice round hround
    exact ⟨round, hround,
      Round.accepts_of_translated hsource translate htranslate phrase record hrecord⟩
  intro round hround
  have hkept : ∀ round ∈ rounds, round.Gives fun phrase record => Store.Storable record →
      Store.Storable record ∧ ∃ asked ∈ rounds, asked.Accepts phrase record :=
    fun r hr translate htranslate phrase record hrecord hstorable =>
      ⟨hstorable, hgives r hr translate htranslate phrase record hrecord⟩
  obtain ⟨rfl, hgrown, hbefore, hafter⟩ := rowsHold_of_history hhistory hkept round hround
  refine ⟨hafter.accepted, fun catalog site hresult => ?_⟩
  obtain ⟨course, hcatalog, hfiles, hwritten, -⟩ := (runBy_ensures round.schedule.resolver
    round.settings round.source round.formatter round.tree).of_ok hresult
  rw [← course.rows_eq_storedRows hgrown] at hbefore
  have hresolves := round.schedule.resolves_course course
  have hdecodes : Decodes course.rows := by
    refine (hbefore.mono fun phrase record hright => ?_).rowsRead.decodes
    obtain ⟨-, asked, -, model, service, -, -, haccepts⟩ := hright
    exact isFittingObject_of_accepts haccepts
  constructor
  · -- an entry comes from a row, and so from the run that stored it, or from this run
    intro entry hentry
    rcases hresolves.mem_catalog (nodup_of_loadPhrases course.phrases_eq) hdecodes hcatalog entry
      hentry with ⟨text, hrow, hread⟩ | htranslated
    · obtain ⟨_, stored, htext, hstored, haccepted⟩ := hbefore.accepted _ hrow
      cases htext
      rw [hread, Except.ok.injEq] at hstored
      exact hstored ▸ haccepted
    · obtain ⟨asked, hasked, haccepts⟩ :=
        hgives round hround course.translate course.translate_eq _ _ htranslated
      exact ⟨asked, hasked, entry.2, haccepts, Iff.rfl⟩
  · intro hformatted
    rw [hformatted] at hfiles
    rw [hfiles]
    exact (course.settled hwritten).data

/-- A run that asks a service for the fallback phrase. -/
def Round.asking (service : Model.Service) : Round := .fallback (.service service) trivial

theorem exists_asking {service : Model.Service} {record : Json.Value}
    (h : plainModel.Accepts service "" "hello" record) (hstorable : Store.Storable record) :
    ∃ site, (Round.asking service).result = .ok [("hello", record)] site
      ∧ site.files.fileAt askingSettings.storePlace
        = some (.table [("hello", some (Store.recordText record))])
      ∧ site.files.fileAt askingSettings.dataPlace
        = some (textContent (dataModule [("hello", record)])) := by
  have houtcome := Model.Settings.outcome_eq_record_iff.mpr h
  have htranslated := translated?_eq_some_iff.mpr houtcome
  have hpending : pendingPhrases [] ["hello"] = ["hello"] := rfl
  let course : Course askingSettings (.service service) emptyOutput := fallbackCourse rfl
  have hresolves : Resolves (plainModel.translator service "") askingSettings.workers [] ["hello"]
      (course.resolution resolve) := Schedule.sequential.resolves_course course
  have hempty : Decodes [] := by
    intro row hrow
    cases hrow
  have hsettles : ∀ phrase ∈ pendingPhrases [] ["hello"],
      Settles (plainModel.translator service "") phrase := by
    intro phrase hphrase
    rw [hpending] at hphrase
    rw [List.mem_singleton.mp hphrase]
    refine ⟨⟨_, houtcome⟩, fun record' hrecord => ?_⟩
    rw [htranslated, Option.some.injEq] at hrecord
    rwa [← hrecord]
  obtain ⟨hrows, hresolved⟩ := hresolves.of_settles (by decide) hempty (by decide) hsettles
  have hentry : recordOf? (plainModel.translator service "") [] "hello" = some record := htranslated
  have hcatalog : (course.resolution resolve).outcome = .ok [("hello", record)] := by
    rw [hresolved, List.filterMap_cons, hentry]
    rfl
  have hwritten := course.exists_written resolve [("hello", record)]
    (by rintro ⟨entries, hget⟩; cases hget) (by rintro ⟨entries, hget⟩; cases hget)
  obtain ⟨site, hrun, hfiles, -⟩ := exists_runBy_eq_ok bareShell.formatter course
    hcatalog hwritten
  have hsettled := course.settled hwritten
  rw [Settings.formatted_shell] at hfiles
  rw [← hfiles] at hsettled
  have hstored : (course.resolution resolve).rows
      = [("hello", some (Store.recordText record))] := by
    rw [hrows, hpending]
    simp [translatedRecords, htranslated, recordRows]
  exact ⟨site, hrun, hstored ▸ hsettled.store, hsettled.data⟩

/-- A completion that holds an object of texts. -/
def politeService : Model.Service := fun _ => .content (some "Sure: \x7b\"en\": \"Hi\"\x7d")

theorem politeService_accepts (phrase : String) :
    plainModel.Accepts politeService "" phrase (.obj [("en", .str "Hi")]) := by
  have hplain : Json.Plain (Json.nestingLimit - 1 + 1) (.obj [("en", .str "Hi")]) := by
    refine .obj (by decide) fun member hmember => ?_
    rw [List.mem_singleton.mp hmember]
    exact .str _ _
  exact ⟨_, _, rfl, .of_render (by decide +kernel) hplain, rfl⟩

theorem records_are_objects_of_completions_polite :
    let round := Round.asking politeService
    (IsHistory askingSettings.storePlace none [round]
      ∧ ∀ asked ∈ [round], ∃ service, asked.source = .service service)
    ∧ (plainModel.translator politeService "" "World").outcome
      = .ok (some (.obj [("en", .str "Hi")]))
    ∧ ∃ site, round.result = .ok [("hello", .obj [("en", .str "Hi")])] site
      ∧ Accepted [round] "hello" (.obj [("en", .str "Hi")])
      ∧ site.files.fileAt askingSettings.dataPlace
        = some (textContent (dataModule [("hello", .obj [("en", .str "Hi")])])) := by
  intro round
  have hhistory : IsHistory askingSettings.storePlace none [round] := ⟨rfl, rfl, trivial⟩
  have hservice : ∀ asked ∈ [round], ∃ service, asked.source = .service service := by
    intro asked hasked
    rw [List.mem_singleton.mp hasked]
    exact ⟨politeService, rfl⟩
  obtain ⟨hrecord, hruns⟩ := records_are_objects_of_completions hhistory hservice
  obtain ⟨site, hresult, -⟩ := exists_asking (politeService_accepts "hello") (by decide)
  obtain ⟨hentries, hdata⟩ := (hruns round (by simp)).2 _ site hresult
  have haccepted := hentries ("hello", .obj [("en", .str "Hi")]) (by simp)
  exact ⟨⟨hhistory, hservice⟩, (hrecord _ _ _ _ _).mpr (politeService_accepts "World"), site,
    hresult, haccepted, hdata (Settings.formatted_shell _ bareShell)⟩

/-- A completion whose object has a number where a text should be. -/
def numericService : Model.Service := fun _ => .content (some "\x7b\"en\": 1\x7d")

theorem numericService_accepts (phrase : String) :
    plainModel.Accepts numericService "" phrase (.obj [("en", .int 1)]) := by
  have hplain : Json.Plain (Json.nestingLimit - 1 + 1) (.obj [("en", .int 1)]) := by
    refine .obj (by decide) fun member hmember => ?_
    rw [List.mem_singleton.mp hmember]
    exact .int _ (by decide)
  exact ⟨_, _, rfl, .of_render (by decide +kernel) hplain, rfl⟩

/-- A record without a text is returned, stored and written. -/
theorem not_texts_of_numeric_completion :
    let round := Round.asking numericService
    let record := Json.Value.obj [("en", .int 1)]
    ¬ IsTextRecord record
    ∧ (plainModel.translator numericService "" "hello").outcome = .ok (some record)
    ∧ IsHistory askingSettings.storePlace none [round]
    ∧ ∃ site, round.result = .ok [("hello", record)] site
      ∧ site.files.fileAt askingSettings.storePlace
        = some (.table [("hello", some "\x7b\"en\": 1\x7d")])
      ∧ site.files.fileAt askingSettings.dataPlace
        = some (textContent (dataModule [("hello", record)])) := by
  intro round record
  have hnumber : ¬ IsTextRecord record := by
    rintro ⟨members, hmembers, -, htexts⟩
    have hmembers : Json.Value.obj [("en", .int 1)] = .obj members := hmembers
    cases hmembers
    obtain ⟨text, htext⟩ := htexts ("en", .int 1) (by simp)
    cases htext
  have hrecord := Model.Settings.outcome_eq_record_iff.mpr (numericService_accepts "hello")
  obtain ⟨site, hresult, hstore, hdata⟩ := exists_asking (numericService_accepts "hello")
    (by decide)
  exact ⟨hnumber, hrecord, ⟨rfl, rfl, trivial⟩, site, hresult, hstore, hdata⟩

end PhraseCatalog.Run
