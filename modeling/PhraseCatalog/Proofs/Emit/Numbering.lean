import PhraseCatalog.Language.Table
import PhraseCatalog.Proofs.Emit.Declarations

/-! The numbers of the phrases in the runtime module. A table gives the number of each phrase and a
list the record of each number. Whatever the phrases are, both take one line for each of them, and no
phrase ends its line or its block or makes another one, so that the phrases are read back from the
text of the module. -/

set_option autoImplicit false

namespace PhraseCatalog.Emit

open Json

theorem declares_table (locales : Language.Locales) (catalog : Catalog) (languages : List String) :
    Declares tableHead "\x7b" "\x7d;" (linesOf (runtimeModule locales catalog languages))
      (tableEntries catalog) :=
  declares_block (show (blocks locales catalog languages)[3] ∈ _ from List.getElem_mem _)

theorem declares_list (locales : Language.Locales) (catalog : Catalog) (languages : List String) :
    Declares listHead "[" "];" (linesOf (runtimeModule locales catalog languages))
      (listEntries catalog) :=
  declares_block (show (blocks locales catalog languages)[4] ∈ _ from List.getElem_mem _)

/-! ## Reading the phrases back -/

/-- The phrase of an entry of the list, between `\ti18nSource[` and `],`. -/
def listedPhrase? (entry : String) : Option String :=
  match Json.readChars ((entry.toList.drop 12).dropLast.dropLast) with
  | .ok (.str phrase) => some phrase
  | _ => none

/-- The phrases of a runtime module in the order of their numbers, from its text alone. -/
def listedPhrases? (text : String) : Option (List String) :=
  (declared? listHead "[" "];" (linesOf text)).bind fun entries => entries.mapM listedPhrase?

theorem listedPhrase?_listEntry (phrase : String) : listedPhrase? (listEntry phrase) = some phrase := by
  have hspelled : ((listEntry phrase).toList.drop 12).dropLast.dropLast = (literal phrase).toList := by
    simp [listEntry]
  have hread : Json.readChars (literal phrase).toList = .ok (.str phrase) := read_literal phrase
  rw [listedPhrase?, hspelled, hread]

theorem mapM_listedPhrase? (phrases : List String) :
    (phrases.map listEntry).mapM listedPhrase? = some phrases := by
  rw [mapM_map_eq_some fun phrase _ => listedPhrase?_listEntry phrase, List.map_id']

theorem listedPhrases?_runtimeModule (locales : Language.Locales) (catalog : Catalog)
    (languages : List String) :
    listedPhrases? (runtimeModule locales catalog languages) = some (catalog.map (·.1)) := by
  rw [listedPhrases?, (declares_list locales catalog languages).declared?_eq (by decide),
    Option.bind_some, listEntries, mapM_listedPhrase?]

/-! ## The numbers -/

theorem lookup_phraseIds {catalog : Catalog} (h : (catalog.map (·.1)).Nodup) (phrase : String)
    (id : Nat) :
    (phraseIds catalog).lookup phrase = some id ↔ (catalog.map (·.1))[id]? = some phrase := by
  rw [← List.mem_zipIdx_iff_getElem? (x := (phrase, id))]
  constructor
  · intro hlookup
    obtain ⟨before, after, heq, -⟩ := List.lookup_eq_some_iff.mp hlookup
    rw [← phraseIds, heq]
    simp
  · intro hmem
    obtain ⟨before, after, heq⟩ := List.append_of_mem hmem
    have hnodup : ((phraseIds catalog).map (·.1)).Nodup := (map_fst_phraseIds catalog).symm ▸ h
    refine List.lookup_eq_some_iff.mpr ⟨before, after, heq, fun pair hpair => ?_⟩
    rw [phraseIds, heq, List.map_append, List.nodup_append] at hnodup
    have hne := hnodup.2.2 pair.1 (List.mem_map_of_mem hpair) phrase (by simp)
    simpa using hne.symm

theorem getElem?_tableEntries {catalog : Catalog} {phrase : String} {id : Nat}
    (h : (catalog.map (·.1))[id]? = some phrase) :
    (tableEntries catalog)[id]? = some (entryLine phrase (toString id)) := by
  rw [tableEntries, List.getElem?_map, phraseIds, List.getElem?_zipIdx, h]
  simp

theorem getElem?_listEntries {catalog : Catalog} {phrase : String} {id : Nat}
    (h : (catalog.map (·.1))[id]? = some phrase) :
    (listEntries catalog)[id]? = some (listEntry phrase) := by
  rw [listEntries, List.getElem?_map, h]
  rfl

/-- The table and the list of a runtime module number the phrases in their order. Each takes one line
for each phrase, with a literal that is read as the phrase, and there is no other table or list; so
the text gives the phrases back. -/
theorem runtimeModule_numbers (locales : Language.Locales) (catalog : Catalog)
    (languages : List String) (h : (catalog.map (·.1)).Nodup) :
    (∃ table list : List String,
      Declares "export const i18nSourceIdMap: Record<string, number> = " "\x7b" "\x7d;"
          (linesOf (runtimeModule locales catalog languages)) table
        ∧ Declares "export const i18nSourceIdList: Record<string, string>[] = " "[" "];"
          (linesOf (runtimeModule locales catalog languages)) list
        ∧ table.length = catalog.length ∧ list.length = catalog.length
        ∧ ∀ (id : Nat) (phrase : String), (catalog.map (·.1))[id]? = some phrase →
          ∃ spelled, Json.read spelled = .ok (.str phrase)
            ∧ table[id]? = some ("\t" ++ spelled ++ ": " ++ toString id ++ ",")
            ∧ list[id]? = some ("\ti18nSource[" ++ spelled ++ "],"))
      ∧ (catalog = [] →
        "export const i18nSourceIdMap: Record<string, number> = \x7b\x7d;"
            ∈ linesOf (runtimeModule locales catalog languages)
          ∧ "export const i18nSourceIdList: Record<string, string>[] = [];"
            ∈ linesOf (runtimeModule locales catalog languages))
      ∧ (phraseIds catalog).map (·.1) = catalog.map (·.1)
      ∧ (phraseIds catalog).map (·.2) = List.range catalog.length
      ∧ (∀ phrase id, (phraseIds catalog).lookup phrase = some id
        ↔ (catalog.map (·.1))[id]? = some phrase)
      ∧ listedPhrases? (runtimeModule locales catalog languages) = some (catalog.map (·.1)) := by
  refine ⟨⟨tableEntries catalog, listEntries catalog, declares_table locales catalog languages,
    declares_list locales catalog languages, ?_, ?_, ?_⟩, ?_, map_fst_phraseIds catalog,
    map_snd_phraseIds catalog, lookup_phraseIds h,
    listedPhrases?_runtimeModule locales catalog languages⟩
  · simp [tableEntries, phraseIds]
  · simp [listEntries]
  · intro id phrase hphrase
    exact ⟨literal phrase, read_literal phrase, getElem?_tableEntries hphrase,
      getElem?_listEntries hphrase⟩
  · rintro rfl
    rw [linesOf_runtimeModule]
    simp [declaration, tableEntries, listEntries, phraseIds, tableHead, listHead]

/-- Phrases that look like lines, closings and entries of a module, and like numbers. -/
def disguisedCatalog : Catalog :=
  [("\n\x7d;\n", .obj []), ("1", .obj []), ("0", .obj []), ("\"],\n];\\", .obj []),
    ("__DEFAULT_LANGUAGE__", .obj []),
    ("\nexport const i18nSourceIdList: Record<string, string>[] = [];", .obj [])]

theorem runtimeModule_numbers_disguised :
    (disguisedCatalog.map (·.1)).Nodup
      ∧ (phraseIds disguisedCatalog).lookup "0" = some 2
      ∧ listedPhrases? (runtimeModule .table disguisedCatalog ["en", "es"])
        = some (disguisedCatalog.map (·.1)) := by
  have hnodup : (disguisedCatalog.map (·.1)).Nodup := by decide
  obtain ⟨-, -, -, -, hlookup, hlisted⟩ :=
    runtimeModule_numbers .table disguisedCatalog ["en", "es"] hnodup
  exact ⟨hnodup, (hlookup "0" 2).mpr rfl, hlisted⟩

end PhraseCatalog.Emit
