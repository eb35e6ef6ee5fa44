import PhraseCatalog.Proofs.Json.Limits
import PhraseCatalog.Proofs.Run.Pool

/-! What using the results of phrases in their order comes to: the rows are those before with the new
ones behind them, up to the first failure. -/

set_option autoImplicit false

namespace PhraseCatalog.Run

open Emit Files

variable {translate : Model.Translator}

/-! ## Records of texts -/

/-- An object of texts under different names. -/
def IsTextRecord (record : Json.Value) : Prop :=
  ∃ members, record = .obj members ∧ (members.map (·.1)).Nodup
    ∧ ∀ member ∈ members, ∃ text, member.2 = .str text

theorem IsTextRecord.plain {record : Json.Value} (h : IsTextRecord record) (depth : Nat) :
    Json.Plain (depth + 1) record := by
  obtain ⟨members, rfl, hkeys, htexts⟩ := h
  refine .obj hkeys fun member hmember => ?_
  obtain ⟨text, htext⟩ := htexts member hmember
  rw [htext]
  exact .str depth text

theorem IsTextRecord.read_recordText {record : Json.Value} (h : IsTextRecord record) :
    Json.read (Store.recordText record) = .ok record :=
  Json.read_render Json.Style.line_readable (h.plain (Json.nestingLimit - 1))

theorem IsTextRecord.storable {record : Json.Value} (h : IsTextRecord record) :
    Store.Storable record :=
  have hplain := h.plain (Store.nestingLimit - 1)
  ⟨Json.fault?_eq_none_iff.mpr hplain.fits, hplain.halves_eq_nil 0⟩

/-! ## Results used in order -/

/-- The record that a phrase is translated to, if there is one. -/
def translated? (translate : Model.Translator) (phrase : String) : Option Json.Value :=
  match (translate phrase).outcome with
  | .ok record => record
  | .error _ => none

theorem translated?_eq_some_iff {phrase : String} {record : Json.Value} :
    translated? translate phrase = some record
      ↔ (translate phrase).outcome = .ok (some record) := by
  unfold translated?
  cases (translate phrase).outcome <;> simp

def translatedRecords (translate : Model.Translator) (phrases : List String) : Catalog :=
  phrases.filterMap fun phrase => (translated? translate phrase).map fun record => (phrase, record)

def recordRows (records : Catalog) : Rows :=
  records.map fun (phrase, record) => (phrase, some (Store.recordText record))

theorem lookup_recordRows (records : Catalog) (phrase : String) :
    (recordRows records).lookup phrase
      = (records.lookup phrase).map fun record => some (Store.recordText record) := by
  induction records with
  | nil => rfl
  | cons member records ih =>
    obtain ⟨key, record⟩ := member
    unfold recordRows at ih ⊢
    rw [List.map_cons, List.lookup_cons, List.lookup_cons, ih]
    cases phrase == key <;> rfl

/-- Translating the phrase does not fail, and its record, if there is one, can be stored. -/
structure Settles (translate : Model.Translator) (phrase : String) : Prop where
  translates : ∃ record, (translate phrase).outcome = .ok record
  storable : ∀ record, translated? translate phrase = some record → Store.Storable record

/-- Where the records are objects of texts, every phrase settles whose translation does not fail. -/
theorem settles_iff_translates (h : ∀ phrase record, translated? translate phrase = some record →
    IsTextRecord record) (phrase : String) :
    Settles translate phrase ↔ ∃ record, (translate phrase).outcome = .ok record :=
  ⟨Settles.translates, fun htranslates => ⟨htranslates, fun record hrecord =>
    (h phrase record hrecord).storable⟩⟩

/-- How a phrase fails on all rows: its translation does, or its record cannot be written. -/
inductive Fails (translate : Model.Translator) (phrase : String) : Failure → Prop
  | translation {fault : Model.TranslationFault} (h : (translate phrase).outcome = .error fault) :
    Fails translate phrase (.translation fault)
  | unwritable {record : Json.Value} {fault : Store.Fault}
    (h : (translate phrase).outcome = .ok (some record))
    (fault_eq : Store.writeRecord record = .error fault) : Fails translate phrase (.store fault)

/-- Every phrase settles or fails. -/
theorem settles_or_fails (translate : Model.Translator) (phrase : String) :
    Settles translate phrase ∨ ∃ failure, Fails translate phrase failure := by
  cases hresult : (translate phrase).outcome with
  | error fault => exact .inr ⟨_, .translation hresult⟩
  | ok record? =>
    by_cases hstorable : ∀ record, translated? translate phrase = some record → Store.Storable record
    · exact .inl ⟨⟨record?, hresult⟩, hstorable⟩
    · simp only [not_forall, translated?_eq_some_iff] at hstorable
      obtain ⟨record, hrecord, hnot⟩ := hstorable
      cases hwrite : Store.writeRecord record with
      | ok text => exact absurd (Store.storable_of_writeRecord hwrite) hnot
      | error fault => exact .inr ⟨_, .unwritable hrecord hwrite⟩

theorem Fails.not_settles {phrase : String} {failure : Failure} (h : Fails translate phrase failure) :
    ¬ Settles translate phrase := by
  rintro ⟨⟨record, hrecord⟩, hstorable⟩
  cases h with
  | translation hfault =>
    rw [hrecord] at hfault
    cases hfault
  | unwritable hresult hfault =>
    rw [(hstorable _ (translated?_eq_some_iff.mpr hresult)).writeRecord] at hfault
    cases hfault

section Use
variable {progress : Progress} {phrase : String}

theorem use_of_error {fault : Model.TranslationFault} (h : progress.failure = none)
    (hresult : (translate phrase).outcome = .error fault) :
    progress.use translate phrase
      = { progress with failure := some (.translation fault) } := by
  simp only [Progress.use, h, hresult]

theorem use_of_none (h : progress.failure = none)
    (hresult : (translate phrase).outcome = .ok none) :
    progress.use translate phrase = progress := by
  simp only [Progress.use, h, hresult]

theorem use_of_refused {record : Json.Value} {fault : Store.Fault} (h : progress.failure = none)
    (hresult : (translate phrase).outcome = .ok (some record))
    (hinsert : Store.insertRecord progress.rows phrase record = .error fault) :
    progress.use translate phrase = { progress with failure := some (.store fault) } := by
  simp only [Progress.use, h, hresult, hinsert]

theorem use_of_inserted {record : Json.Value} {rows : Rows} (h : progress.failure = none)
    (hresult : (translate phrase).outcome = .ok (some record))
    (hinsert : Store.insertRecord progress.rows phrase record = .ok rows) :
    progress.use translate phrase
      = { progress with rows := rows, records := progress.records ++ [(phrase, record)] } := by
  simp only [Progress.use, h, hresult, hinsert]

theorem use_of_fails {failure : Failure} (h : progress.failure = none)
    (hfails : Fails translate phrase failure) :
    progress.use translate phrase = { progress with failure := some failure } := by
  cases hfails with
  | translation hfault => exact use_of_error h hfault
  | unwritable hresult hfault =>
    exact use_of_refused h hresult (by rw [Store.insertRecord, hfault])

/-- The phrase fails, or comes to a record for which there is a row already. -/
inductive FailsWith (translate : Model.Translator) (rows : Rows) (phrase : String) : Failure → Prop
  | alone {failure : Failure} (h : Fails translate phrase failure) :
    FailsWith translate rows phrase failure
  | refused {record : Json.Value} (h : translated? translate phrase = some record)
    (row : rows.lookup phrase ≠ none) : FailsWith translate rows phrase (.store .duplicateKey)

theorem FailsWith.not_of_settles {rows : Rows} {failure : Failure}
    (h : Settles translate phrase) (hfresh : rows.lookup phrase = none) :
    ¬ FailsWith translate rows phrase failure := by
  intro hfails
  cases hfails with
  | alone hfails => exact hfails.not_settles h
  | refused _ row => exact row hfresh

/-- All that using the result of a phrase can do: it fails with the phrase, or the record, if there is
one, is added to rows that have none for the phrase. -/
inductive Uses (translate : Model.Translator) (progress : Progress) (phrase : String) :
    Progress → Prop
  | failing {failure : Failure} (reason : FailsWith translate progress.rows phrase failure) :
    Uses translate progress phrase { progress with failure := some failure }
  | passing (settles : Settles translate phrase)
    (fresh : translated? translate phrase ≠ none → progress.rows.lookup phrase = none) :
    Uses translate progress phrase { progress with
      rows := progress.rows ++ recordRows (translatedRecords translate [phrase])
      records := progress.records ++ translatedRecords translate [phrase] }

theorem uses_use (h : progress.failure = none) :
    Uses translate progress phrase (progress.use translate phrase) := by
  rcases settles_or_fails translate phrase with hsettles | ⟨failure, hfails⟩
  · obtain ⟨record?, hresult⟩ := hsettles.translates
    have htranslated : translated? translate phrase = record? := by simp [translated?, hresult]
    cases record? with
    | none =>
      have hpassing : Uses translate progress phrase _ :=
        .passing hsettles fun hne => absurd htranslated hne
      simpa [use_of_none h hresult, translatedRecords, htranslated, recordRows] using hpassing
    | some record =>
      have hstorable := hsettles.storable record htranslated
      cases hlookup : progress.rows.lookup phrase with
      | some text =>
        have hinsert : Store.insertRecord progress.rows phrase record = .error .duplicateKey := by
          simp [Store.insertRecord, hstorable.writeRecord, Store.addRow, hlookup]
        rw [use_of_refused h hresult hinsert]
        exact .failing (.refused htranslated (by simp [hlookup]))
      | none =>
        have hinsert := Store.insertRecord_eq_ok_iff.mpr ⟨hstorable, hlookup,
          (rfl : _ = progress.rows ++ [(phrase, some (Store.recordText record))])⟩
        have hpassing : Uses translate progress phrase _ := .passing hsettles fun _ => hlookup
        simpa [use_of_inserted h hresult hinsert, translatedRecords, htranslated, recordRows]
          using hpassing
  · rw [use_of_fails h hfails]
    exact .failing (.alone hfails)

end Use

theorem foldl_use_of_failure {progress : Progress} (h : progress.failure ≠ none)
    (tasks : List String) : tasks.foldl (Progress.use translate) progress = progress := by
  obtain ⟨failure, hf⟩ := Option.ne_none_iff_exists'.mp h
  induction tasks with
  | nil => rfl
  | cons phrase tasks ih =>
    have huse : progress.use translate phrase = progress := by simp [Progress.use, hf]
    rw [List.foldl_cons, huse, ih]

theorem translatedRecords_cons (translate : Model.Translator) (phrase : String)
    (tasks : List String) : translatedRecords translate (phrase :: tasks)
      = translatedRecords translate [phrase] ++ translatedRecords translate tasks := by
  rw [← List.singleton_append]
  exact List.filterMap_append

theorem recordRows_append (records more : Catalog) :
    recordRows (records ++ more) = recordRows records ++ recordRows more := List.map_append

/-- A phrase has no row after another one was used if it had none before. -/
theorem lookup_append_translated {rows : Rows} {key phrase : String}
    (h : rows.lookup key = none) (hne : key ≠ phrase) :
    (rows ++ recordRows (translatedRecords translate [phrase])).lookup key = none := by
  rw [List.lookup_append, h, Option.none_or, lookup_recordRows, translatedRecords]
  simp [hne]

/-- Phrases without a row that all settle: every record is added. -/
theorem foldl_use_of_settles {tasks : List String} {rows : Rows} {records : Catalog}
    (h : ∀ phrase ∈ tasks, Settles translate phrase) (hnodup : tasks.Nodup)
    (hfresh : ∀ phrase ∈ tasks, rows.lookup phrase = none) :
    tasks.foldl (Progress.use translate) { rows := rows, records := records }
      = { rows := rows ++ recordRows (translatedRecords translate tasks)
          records := records ++ translatedRecords translate tasks } := by
  induction tasks generalizing rows records with
  | nil => simp [translatedRecords, recordRows]
  | cons phrase tasks ih =>
    obtain ⟨hnotMem, hnodup⟩ := List.nodup_cons.mp hnodup
    obtain ⟨hsettles, hrest⟩ := List.forall_mem_cons.mp h
    obtain ⟨hnew, hfreshRest⟩ := List.forall_mem_cons.mp hfresh
    have huse := @uses_use translate { rows := rows, records := records } phrase rfl
    rw [List.foldl_cons]
    generalize Progress.use translate _ phrase = next at huse ⊢
    cases huse with
    | failing reason => exact absurd reason (FailsWith.not_of_settles hsettles hnew)
    | passing =>
      rw [ih hrest hnodup fun p hp => lookup_append_translated (hfreshRest p hp)
        (ne_of_mem_of_not_mem hp hnotMem), translatedRecords_cons translate phrase tasks,
        recordRows_append, List.append_assoc, List.append_assoc]

/-- Where nothing has failed, every phrase has settled, and those with a record had no row. -/
theorem settles_of_foldl_use {tasks : List String} {rows : Rows} {records : Catalog}
    (h : (tasks.foldl (Progress.use translate) { rows := rows, records := records }).failure
      = none) :
    ∀ phrase ∈ tasks, Settles translate phrase
      ∧ (translated? translate phrase ≠ none → rows.lookup phrase = none) := by
  induction tasks generalizing rows records with
  | nil => simp
  | cons phrase tasks ih =>
    have huse := @uses_use translate { rows := rows, records := records } phrase rfl
    rw [List.foldl_cons] at h
    generalize Progress.use translate _ phrase = next at h huse
    cases huse with
    | failing reason =>
      rw [foldl_use_of_failure (by simp)] at h
      cases h
    | passing hsettles hfresh =>
      refine List.forall_mem_cons.mpr ⟨⟨hsettles, hfresh⟩, fun p hp => ?_⟩
      obtain ⟨hsettles, hlookup⟩ := ih h p hp
      refine ⟨hsettles, fun hne => ?_⟩
      have hrow := hlookup hne
      rw [List.lookup_append, Option.or_eq_none_iff] at hrow
      exact hrow.1

/-- Where nothing has failed and every phrase has come to a record, none of them had a row. -/
theorem fresh_of_foldl_use {tasks : List String} {rows : Rows} {records : Catalog}
    (h : (tasks.foldl (Progress.use translate) { rows := rows, records := records }).failure = none)
    (hsome : ∀ phrase ∈ tasks, (translate phrase).outcome ≠ .ok none) :
    ∀ phrase ∈ tasks, (∃ record, translated? translate phrase = some record)
      ∧ rows.lookup phrase = none := by
  intro phrase hphrase
  obtain ⟨⟨⟨record?, hrecord⟩, -⟩, hlookup⟩ := settles_of_foldl_use h phrase hphrase
  cases record? with
  | none => exact absurd hrecord (hsome phrase hphrase)
  | some record =>
    have htranslated := translated?_eq_some_iff.mpr hrecord
    exact ⟨⟨record, htranslated⟩, hlookup (htranslated ▸ Option.some_ne_none record)⟩

/-- The rows that are added: new keys, each once, with texts of records that phrases were translated
to and that can be stored. -/
structure Added (translate : Model.Translator) (rows added : Rows) : Prop where
  fresh : ∀ row ∈ added, rows.lookup row.1 = none
  nodup : (added.map (·.1)).Nodup
  text : ∀ row ∈ added, ∃ record, translated? translate row.1 = some record
    ∧ Store.Storable record ∧ row.2 = some (Store.recordText record)

theorem Added.nil (translate : Model.Translator) (rows : Rows) : Added translate rows [] where
  fresh := by simp
  nodup := List.nodup_nil
  text := by simp

theorem lookup_eq_none_iff_notMem {α : Type} {rows : List (String × α)} {key : String} :
    rows.lookup key = none ↔ key ∉ rows.map (·.1) := by
  rw [List.lookup_eq_none_iff]
  constructor
  · intro h hmem
    obtain ⟨row, hrow, rfl⟩ := List.mem_map.mp hmem
    simpa using h row hrow
  · intro h row hrow
    rw [bne_iff_ne]
    rintro rfl
    exact h (List.mem_map_of_mem hrow)

theorem mem_of_lookup {α : Type} {rows : List (String × α)} {key : String} {value : α}
    (h : rows.lookup key = some value) : (key, value) ∈ rows := by
  obtain ⟨before, after, hrows, -⟩ := List.lookup_eq_some_iff.mp h
  rw [hrows]
  exact List.mem_append_right before List.mem_cons_self

theorem Added.append {rows added : Rows} {phrase : String} {record : Json.Value}
    (h : Added translate rows added) (hphrase : (rows ++ added).lookup phrase = none)
    (hrecord : translated? translate phrase = some record) (hstorable : Store.Storable record) :
    Added translate rows (added ++ [(phrase, some (Store.recordText record))]) where
  fresh := by
    intro row hrow
    rcases List.mem_append.mp hrow with hrow | hrow
    · exact h.fresh row hrow
    · rw [List.mem_singleton.mp hrow]
      rw [List.lookup_append, Option.or_eq_none_iff] at hphrase
      exact hphrase.1
  nodup := by
    rw [List.lookup_append, Option.or_eq_none_iff] at hphrase
    have hnew := lookup_eq_none_iff_notMem.mp hphrase.2
    rw [List.map_append, List.nodup_append]
    refine ⟨h.nodup, by simp, ?_⟩
    intro key hkey other hother
    obtain rfl : other = phrase := by simpa using hother
    rintro rfl
    exact hnew hkey
  text := by
    intro row hrow
    rcases List.mem_append.mp hrow with hrow | hrow
    · exact h.text row hrow
    · rw [List.mem_singleton.mp hrow]
      exact ⟨record, hrecord, hstorable, rfl⟩

/-- A phrase that is used adds its record or nothing. -/
theorem Added.append_translated {rows added : Rows} {phrase : String}
    (h : Added translate rows added) (hsettles : Settles translate phrase)
    (hfresh : translated? translate phrase ≠ none → (rows ++ added).lookup phrase = none) :
    Added translate rows (added ++ recordRows (translatedRecords translate [phrase])) := by
  cases htranslated : translated? translate phrase with
  | none => simpa [translatedRecords, htranslated, recordRows] using h
  | some record =>
    simpa [translatedRecords, htranslated, recordRows]
      using h.append (hfresh (htranslated ▸ Option.some_ne_none record)) htranslated
        (hsettles.storable record htranslated)

theorem exists_added_of_foldl_use {rows added : Rows} (h : Added translate rows added)
    {progress : Progress} (hrows : progress.rows = rows ++ added) (tasks : List String) :
    ∃ added', Added translate rows added'
      ∧ (tasks.foldl (Progress.use translate) progress).rows = rows ++ added' := by
  induction tasks generalizing added progress with
  | nil => exact ⟨added, h, hrows⟩
  | cons phrase tasks ih =>
    by_cases hfailure : progress.failure = none
    · have huse := @uses_use translate progress phrase hfailure
      rw [List.foldl_cons]
      generalize Progress.use translate progress phrase = next at huse ⊢
      cases huse with
      | failing reason => exact ih h hrows
      | passing hsettles hfresh =>
        rw [hrows] at hfresh
        exact ih (h.append_translated hsettles hfresh) (by rw [← List.append_assoc, ← hrows])
    · rw [foldl_use_of_failure hfailure]
      exact ⟨added, h, hrows⟩

end PhraseCatalog.Run
