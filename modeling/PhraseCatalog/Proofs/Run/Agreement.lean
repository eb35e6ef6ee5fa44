import PhraseCatalog.Proofs.Run.Interrupted

/-! The modules that a run has written, its store and its source code agree, whatever runs came
before. -/

set_option autoImplicit false

namespace PhraseCatalog.Run

open Emit Files

/-! ## Rows of text records -/

/-- Every row holds the text of an object of texts. -/
def TextRows (rows : Rows) : Prop :=
  ∀ row ∈ rows, ∃ record, IsTextRecord record ∧ row.2 = some (Store.recordText record)

theorem TextRows.nil : TextRows [] := by
  intro row hrow
  cases hrow

theorem TextRows.append {rows added : Rows} (h : TextRows rows) (hadded : TextRows added) :
    TextRows (rows ++ added) := by
  intro row hrow
  rcases List.mem_append.mp hrow with hrow | hrow
  · exact h row hrow
  · exact hadded row hrow

theorem TextRows.decodes {rows : Rows} (h : TextRows rows) : Decodes rows := by
  intro row hrow
  obtain ⟨record, hrecord, htext⟩ := h row hrow
  have hread := hrecord.read_recordText
  obtain ⟨members, rfl, -⟩ := hrecord
  exact ⟨_, _, htext, hread, by simp⟩

theorem textRows_recordRows {translate : Model.Translator} (phrases : List String)
    (htexts : ∀ phrase record, translated? translate phrase = some record → IsTextRecord record) :
    TextRows (recordRows (translatedRecords translate phrases)) := by
  intro row hrow
  obtain ⟨⟨phrase, record⟩, hmember, rfl⟩ := List.mem_map.mp hrow
  obtain ⟨phrase', -, hrecord⟩ := List.mem_filterMap.mp hmember
  obtain ⟨record', hrecord, hpair⟩ := Option.map_eq_some_iff.mp hrecord
  cases hpair
  exact ⟨record, htexts _ record hrecord, rfl⟩

/-- The known records are those of the phrases that have a row, in the order of the phrases. -/
theorem Decodes.knownRecords_spec {rows : Rows} (h : Decodes rows) (phrases : List String) :
    (knownRecords rows phrases).map (·.1)
        = phrases.filter (fun phrase => (rows.lookup phrase).isSome)
      ∧ ∀ entry ∈ knownRecords rows phrases,
        Store.lookupRecord rows entry.1 = .ok (some entry.2) := by
  have hsome : ∀ phrase, (stored? rows phrase).isSome = (rows.lookup phrase).isSome := by
    intro phrase
    obtain ⟨record, hrecord, hnone⟩ := h.lookupRecord phrase
    have hstored : stored? rows phrase = record := by rw [stored?, hrecord]
    rw [hstored, Bool.eq_iff_iff, Option.isSome_iff_ne_none, Option.isSome_iff_ne_none, Ne, hnone]
  constructor
  · induction phrases with
    | nil => rfl
    | cons phrase phrases ih =>
      unfold knownRecords at ih ⊢
      rw [List.filter_cons, ← hsome phrase, ← ih]
      cases hstored : stored? rows phrase <;> simp [hstored]
  · intro entry hentry
    obtain ⟨phrase, -, hrecord⟩ := List.mem_filterMap.mp hentry
    obtain ⟨record, hstored, rfl⟩ := Option.map_eq_some_iff.mp hrecord
    obtain ⟨record?, hlookup, -⟩ := h.lookupRecord phrase
    rw [stored?, hlookup] at hstored
    rw [hlookup]
    exact congrArg Except.ok hstored

/-- The catalog that resolving comes to is read off the rows that it leaves. -/
theorem Resolves.catalog_eq_knownRecords {translate : Model.Translator} {workers : Nat} {rows : Rows}
    {phrases : List String} {r : Resolution} {catalog : Catalog}
    (h : Resolves translate workers rows phrases r) (hnodup : phrases.Nodup) (hrows : Decodes rows)
    (htexts : ∀ phrase record, translated? translate phrase = some record → IsTextRecord record)
    (hok : r.outcome = .ok catalog) : catalog = knownRecords r.rows phrases := by
  obtain ⟨hafter, hcatalog⟩ := h.of_decodes hnodup hrows hok
  rw [hcatalog, knownRecords]
  refine List.filterMap_congr fun phrase hphrase => ?_
  have hreadable : ∀ p ∈ phrases, ∃ record, Store.lookupRecord rows p = .ok record := fun p _ =>
    (hrows.lookupRecord p).imp fun record hrecord => hrecord.1
  have hlookup := lookupRecord_of_resolved hreadable hrows.lookup_of_pending htexts hphrase
  rw [← hafter] at hlookup
  rw [stored?, hlookup]

/-! ## Histories of text records -/

/-- The translator of the run gives nothing but objects of texts as records. -/
def Round.GivesTexts (round : Round) : Prop :=
  ∀ translate, round.source.translator? round.settings = some translate →
    ∀ phrase record, translated? translate phrase = some record → IsTextRecord record

theorem Round.textRows {round : Round} (htexts : round.GivesTexts)
    (hgrown : Grown (round.tree.fileAt round.settings.storePlace))
    (h : TextRows (storedRows (round.tree.fileAt round.settings.storePlace))) :
    TextRows (storedRows (round.site.files.fileAt round.settings.storePlace)) :=
  @Round.rowsHold (fun _ record => IsTextRecord record) round
    (fun translate htranslate phrase record hrecord _ =>
      htexts translate htranslate phrase record hrecord) hgrown h

theorem Course.fileAt_written_of_ne {settings : Settings} {source : Source} {tree : Node}
    (course : Course settings source tree) (resolver : Resolver) (catalog : Catalog)
    {place : List String} (hstore : place ≠ settings.storePlace)
    (hdata : place ≠ settings.dataPlace) (hruntime : place ≠ settings.runtimePlace) :
    (course.written resolver catalog).1.fileAt place = tree.fileAt place :=
  (fileAt_writeModules hdata hruntime (course.kept resolver) catalog).trans
    ((course.spares resolver).file place hstore)

/-- In every history that starts without a store, a run that succeeds has the phrases that it found and
the rows that it leaves agree with its catalog and with the modules: the catalog has the phrases with
a row, in the order in which they were found, each with the record that its row is read as, the
modules are written from it, and no other file but the store has changed. -/
theorem modules_agree_with_store {place : List String} {rounds : List Round}
    (hhistory : IsHistory place none rounds) (htexts : ∀ round ∈ rounds, round.GivesTexts) :
    ∀ round ∈ rounds, ∀ catalog site, round.result = .ok catalog site →
      (∀ files, round.settings.formatted round.formatter files = files) →
      ∃ phrases rows,
        (Scan.loadPhrases (round.tree.makeNamed round.settings.outputDir).1
          round.settings.sourceRoot).outcome = .ok phrases
        ∧ site.files.fileAt place = some (.table rows)
        ∧ catalog.map (·.1) = phrases.filter (fun phrase => (rows.lookup phrase).isSome)
        ∧ (∀ entry ∈ catalog, Store.lookupRecord rows entry.1 = .ok (some entry.2))
        ∧ site.files.fileAt round.settings.dataPlace = some (textContent (dataModule catalog))
        ∧ site.files.fileAt round.settings.runtimePlace
          = some (textContent (runtimeModule .table catalog round.settings.languages))
        ∧ ∀ other, other ≠ place → other ≠ round.settings.dataPlace →
          other ≠ round.settings.runtimePlace → site.files.fileAt other = round.tree.fileAt other := by
  intro round hround catalog site hresult hformatted
  obtain ⟨rfl, hgrown, hstart⟩ := invariant_of_history hhistory (.inl rfl) TextRows.nil
    (fun r hr hgrown h => Round.textRows (htexts r hr) hgrown h) round hround
  have hensures := runBy_ensures round.schedule.resolver round.settings round.source round.formatter
    round.tree
  obtain ⟨course, hcatalog, hfiles, hwritten, -⟩ := hensures.of_ok hresult
  rw [hformatted] at hfiles
  rw [← course.rows_eq_storedRows hgrown] at hstart
  have htextsCourse := htexts round hround course.translate course.translate_eq
  have hnodup := nodup_of_loadPhrases course.phrases_eq
  have hresolves := round.schedule.resolves_course course
  have hknown := hresolves.catalog_eq_knownRecords hnodup hstart.decodes htextsCourse hcatalog
  -- the rows afterwards are read like those before
  have hafter : TextRows (course.resolution round.schedule.resolver).rows := by
    rw [(hresolves.of_decodes hnodup hstart.decodes hcatalog).1]
    exact hstart.append (textRows_recordRows _ htextsCourse)
  obtain ⟨hkeys, hrecords⟩ := hafter.decodes.knownRecords_spec course.phrases
  rw [← hknown] at hkeys hrecords
  have hsettled := course.settled hwritten
  rw [← hfiles] at hsettled
  refine ⟨course.phrases, (course.resolution round.schedule.resolver).rows, ?_, hsettled.store,
    hkeys, hrecords, hsettled.data, hsettled.runtime, fun other hstore hdata hruntime => ?_⟩
  · rw [course.made_eq]
    exact course.phrases_eq
  · rw [hfiles]
    exact course.fileAt_written_of_ne _ catalog hstore hdata hruntime

/-- A run that fails and keeps one row, then one that finds this row, has no translation for another
phrase and does not find the phrase any more that failed before. -/
theorem modules_agree_with_store_after_failure :
    let first := Round.oneOrFault (sourceTree "i18n('a')i18n('b')" [])
    let last := Round.oneOrFault
      (sourceTree "i18n('c')i18n('a')" [("i18n.sqlite", .file (.table hiRow))])
    (IsHistory greetingSettings.storePlace none [first, last]
      ∧ ∀ round ∈ [first, last], round.GivesTexts)
      ∧ ∃ site, last.result = .ok [("a", .obj [("en", .str "Hi")])] site
        ∧ site.files.fileAt greetingSettings.dataPlace
          = some (textContent (dataModule [("a", .obj [("en", .str "Hi")])])) := by
  intro first last
  have hhistory : IsHistory greetingSettings.storePlace none [first, last] :=
    isHistory_oneOrFault
  have hgives : ∀ tree, (Round.oneOrFault tree).GivesTexts := by
    rintro tree translate ⟨⟩ phrase record hrecord
    exact isTextRecord_oneOrFault hrecord
  have htexts : ∀ round ∈ [first, last], round.GivesTexts := by
    intro round hround
    simp only [List.mem_cons, List.not_mem_nil, or_false] at hround
    rcases hround with rfl | rfl <;> exact hgives _
  obtain ⟨site, hlast⟩ := exists_mixed_run
  obtain ⟨phrases, rows, -, -, -, -, hdata, -⟩ := modules_agree_with_store hhistory htexts last
    (by simp) _ site hlast (Settings.formatted_shell _ bareShell)
  exact ⟨⟨hhistory, htexts⟩, site, hlast, hdata⟩

end PhraseCatalog.Run
