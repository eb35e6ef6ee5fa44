import PhraseCatalog.Language.Table
import PhraseCatalog.Proofs.Emit.Declarations
import PhraseCatalog.Run.Settings

/-! The names that the runtime module declares: the properties of its records and the values that its
languages are offered with. A table of phrases has each of them once. A table of languages has the
codes as the settings list them, and a code that the settings repeat is accepted and declared again. -/

set_option autoImplicit false

namespace PhraseCatalog.Emit

open Json

/-! ## Names of entries -/

/-- The text of the literal behind the first characters of a line. -/
def literalAt? (start : Nat) (line : String) : Option String :=
  match line.toList.drop start with
  | '"' :: rest =>
    match Reader.stringBody [] 0 [] rest with
    | .ok (text, _) => some text
    | .error _ => none
  | _ => none

theorem literalAt?_append (before text rest : String) :
    literalAt? before.length (before ++ literal text ++ rest) = some text := by
  have hdrop : (before ++ literal text ++ rest).toList.drop before.length
      = '"' :: (text.toList.flatMap (spell false) ++ '"' :: rest.toList) := by
    have hlength : before.length = before.toList.length := String.length_toList.symm
    simp only [String.toList_append, List.append_assoc, literal, String.toList_ofList, quote,
      List.cons_append, List.nil_append]
    rw [hlength, List.drop_left]
  rw [literalAt?, hdrop]
  simp only [stringBody_quote]

theorem literalAt?_entryLine (key value : String) : literalAt? 1 (entryLine key value) = some key := by
  have hentry : entryLine key value = "\t" ++ literal key ++ (": " ++ value ++ ",") := by
    simp [entryLine, String.append_assoc]
  rw [hentry]
  exact literalAt?_append "\t" key _

/-- No known code needs an escape. -/
theorem asciiLiteral_eq {code : String} (h : code ∈ Language.knownCodes) :
    asciiLiteral code = literal code := by
  revert code
  decide +kernel

theorem literalAt?_offerEntry (locales : Language.Locales) {code : String}
    (h : code ∈ Language.knownCodes) : literalAt? 10 (offerEntry locales code) = some code := by
  rw [offerEntry, asciiLiteral_eq h, String.append_assoc, String.append_assoc]
  exact literalAt?_append "\t\x7b value: " code _

/-! ## Names of a declaration -/

/-- How a declaration is found, and how many characters stand before the name of each entry. -/
structure Shape where
  head : String
  opening : String
  closing : String
  start : Nat

namespace Shape

def languages : Shape := ⟨"const langs: Record<string, string> = ", "\x7b", "\x7d;", 1⟩

def offers : Shape := ⟨"export const languageList = ", "[", "];", 10⟩

def missing : Shape := ⟨"const nofound: Record<string, string> = ", "\x7b", "\x7d;", 1⟩

def phrases : Shape :=
  ⟨"export const i18nSourceIdMap: Record<string, number> = ", "\x7b", "\x7d;", 1⟩

/-- The text has one such declaration, whose entries have these names. -/
def Names (shape : Shape) (text : String) (names : List String) : Prop :=
  ∃ entries, Declares shape.head shape.opening shape.closing (linesOf text) entries
    ∧ entries.mapM (literalAt? shape.start) = some names

/-- The text has one such declaration, and no two of its entries have one name. -/
def Distinct (shape : Shape) (text : String) : Prop := ∃ names, shape.Names text names ∧ names.Nodup

theorem Names.eq {shape : Shape} {text : String} {names others : List String}
    (hclosing : shape.closing ≠ "") (h : shape.Names text names) (hothers : shape.Names text others) :
    names = others := by
  obtain ⟨entries, hdeclares, hnames⟩ := h
  obtain ⟨entries', hdeclares', hnames'⟩ := hothers
  have hentries := (hdeclares.declared?_eq hclosing).symm.trans (hdeclares'.declared?_eq hclosing)
  obtain rfl := Option.some.inj hentries
  exact Option.some.inj (hnames.symm.trans hnames')

theorem Names.distinct_iff {shape : Shape} {text : String} {names : List String}
    (hclosing : shape.closing ≠ "") (h : shape.Names text names) :
    shape.Distinct text ↔ names.Nodup := by
  constructor
  · rintro ⟨others, hothers, hnodup⟩
    exact h.eq hclosing hothers ▸ hnodup
  · exact fun hnodup => ⟨names, h, hnodup⟩

end Shape

/-! ## The runtime module -/

theorem names_phrases (locales : Language.Locales) (catalog : Catalog) (languages : List String) :
    Shape.phrases.Names (runtimeModule locales catalog languages) (catalog.map (·.1)) := by
  refine ⟨tableEntries catalog,
    declares_block (show (blocks locales catalog languages)[3] ∈ _ from List.getElem_mem _), ?_⟩
  rw [← map_fst_phraseIds]
  exact mapM_map_eq_some fun pair _ => literalAt?_entryLine pair.1 _

/-- The tables of languages name the codes as they are listed. -/
theorem names_of_known (locales : Language.Locales) {languages : List String}
    (hne : languages ≠ []) (h : ∀ code ∈ languages, code ∈ Language.knownCodes) (catalog : Catalog) :
    ∀ shape ∈ [Shape.languages, Shape.offers, Shape.missing],
      shape.Names (runtimeModule locales catalog languages) languages := by
  have hentries : ∀ value : String → String,
      (languages.map fun code => entryLine code (value code)).mapM (literalAt? 1)
        = some languages := fun value => by
    rw [mapM_map_eq_some fun code _ => literalAt?_entryLine code (value code), List.map_id']
  have hoffers : (offerEntries locales languages).mapM (literalAt? 10) = some languages := by
    rw [offerEntries_eq locales hne,
      mapM_map_eq_some fun code hcode => literalAt?_offerEntry locales (h code hcode), List.map_id']
  intro shape hshape
  simp only [List.mem_cons, List.not_mem_nil, or_false] at hshape
  rcases hshape with rfl | rfl | rfl
  · exact ⟨languageEntries languages,
      declares_block (show (blocks locales catalog languages)[0] ∈ _ from List.getElem_mem _),
      hentries _⟩
  · exact ⟨offerEntries locales languages,
      declares_block (show (blocks locales catalog languages)[1] ∈ _ from List.getElem_mem _),
      hoffers⟩
  · exact ⟨missingEntries languages,
      declares_block (show (blocks locales catalog languages)[2] ∈ _ from List.getElem_mem _),
      hentries _⟩

theorem names_of_validate (locales : Language.Locales) {settings accepted : Run.Settings}
    (h : settings.validate = .ok accepted) (catalog : Catalog) :
    ∀ shape ∈ [Shape.languages, Shape.offers, Shape.missing],
      shape.Names (runtimeModule locales catalog accepted.languages) accepted.languages
        ∧ (shape.Distinct (runtimeModule locales catalog accepted.languages)
          ↔ accepted.languages.Nodup) := by
  have hclosing : ∀ shape ∈ [Shape.languages, Shape.offers, Shape.missing], shape.closing ≠ "" := by
    simp [Shape.languages, Shape.offers, Shape.missing]
  obtain ⟨-, ⟨hne, hknown⟩, -, rfl⟩ := Run.Settings.validate_eq_ok_iff.mp h
  intro shape hshape
  have hnames := names_of_known locales hne hknown catalog shape hshape
  exact ⟨hnames, hnames.distinct_iff (hclosing shape hshape)⟩

/-- In the module of a run whose settings are accepted, each phrase has one number. Whatever the
languages are called, each table of languages declares the codes of the settings, one entry for each
mention: no code is declared twice just if the settings mention none twice. -/
theorem runtimeModule_declares_mentions (locales : Language.Locales)
    {settings accepted : Run.Settings} (hsettings : settings.validate = .ok accepted)
    {catalog : Catalog} (hcatalog : (catalog.map (·.1)).Nodup) :
    (Shape.phrases.Names (runtimeModule locales catalog accepted.languages) (catalog.map (·.1))
        ∧ Shape.phrases.Distinct (runtimeModule locales catalog accepted.languages))
      ∧ ∀ shape ∈ [Shape.languages, Shape.offers, Shape.missing],
        shape.Names (runtimeModule locales catalog accepted.languages) accepted.languages
          ∧ (shape.Distinct (runtimeModule locales catalog accepted.languages)
            ↔ accepted.languages.Nodup) := by
  have hphrases := names_phrases locales catalog accepted.languages
  exact ⟨⟨hphrases, _, hphrases, hcatalog⟩, names_of_validate locales hsettings catalog⟩

/-- Settings with the languages of a comma separated text. -/
def settingsFor (codes : String) : Run.Settings :=
  { Run.Settings.default with languages := Language.parseCodes codes }

/-- Phrases whose literals are close to each other. -/
def quotedCatalog : Catalog := [("Open", .obj []), ("\"Open\"", .obj []), ("\\\"Open", .obj [])]

theorem runtimeModule_declares_mentions_spaced :
    ((settingsFor " en, es,,fr").validate = .ok (settingsFor " en, es,,fr")
        ∧ (quotedCatalog.map (·.1)).Nodup)
      ∧ Shape.phrases.Distinct
        (runtimeModule .table quotedCatalog (settingsFor " en, es,,fr").languages)
      ∧ ∀ shape ∈ [Shape.languages, Shape.offers, Shape.missing],
        shape.Names (runtimeModule .table quotedCatalog (settingsFor " en, es,,fr").languages)
            ["en", "es", "fr"]
          ∧ shape.Distinct
            (runtimeModule .table quotedCatalog (settingsFor " en, es,,fr").languages) := by
  have hlanguages : (settingsFor " en, es,,fr").languages = ["en", "es", "fr"] := by decide
  have hsettings : (settingsFor " en, es,,fr").validate = .ok (settingsFor " en, es,,fr") :=
    Run.Settings.validate_eq_ok_iff.mpr (by decide)
  have hcatalog : (quotedCatalog.map (·.1)).Nodup := by decide
  obtain ⟨⟨-, hphrases⟩, htables⟩ := runtimeModule_declares_mentions .table hsettings hcatalog
  refine ⟨⟨hsettings, hcatalog⟩, hphrases, fun shape hshape => ?_⟩
  obtain ⟨hnames, hdistinct⟩ := htables shape hshape
  exact ⟨hlanguages ▸ hnames, hdistinct.mpr (by rw [hlanguages]; decide)⟩

/-- A code that is mentioned twice is accepted, and declared twice in each table of languages. -/
theorem not_distinct_of_repeated_code :
    (settingsFor "en,en").validate = .ok (settingsFor "en,en")
      ∧ ∀ shape ∈ [Shape.languages, Shape.offers, Shape.missing],
        ¬ shape.Distinct (runtimeModule .table [] (settingsFor "en,en").languages) := by
  have hsettings : (settingsFor "en,en").validate = .ok (settingsFor "en,en") :=
    Run.Settings.validate_eq_ok_iff.mpr (by decide)
  have hrepeated : ¬ (settingsFor "en,en").languages.Nodup := by decide
  refine ⟨hsettings, fun shape hshape => ?_⟩
  rw [(names_of_validate .table hsettings [] shape hshape).2]
  exact hrepeated

end PhraseCatalog.Emit
