import PhraseCatalog.Emit.RuntimeModule
import PhraseCatalog.Language.Codes
import PhraseCatalog.Language.Table
import PhraseCatalog.Proofs.Json.RoundTrip
import PhraseCatalog.Proofs.Marker.Mention

/-! What a scan finds in the generated modules: only phrases of the catalog, if the texts of the
catalog call no others. -/

set_option autoImplicit false

namespace PhraseCatalog.Emit

open Json Marker Text

/-! ## Texts between quotes -/

/-- The characters between the quotes of a literal. -/
def spelled (ascii : Bool) (text : String) : List Char := text.toList.flatMap (spell ascii)

/-- In the text, as a literal spells it, only calls of the phrases begin. -/
def QuotesOnly (phrases : List String) (text : String) : Prop :=
  CallsOnly phrases (spelled false text)

/-- A record of texts, in whose keys and texts only calls of the phrases begin. -/
def RecordQuotesOnly (phrases : List String) (record : Value) : Prop :=
  ∃ members, record = .obj members ∧ ∀ member ∈ members, QuotesOnly phrases member.1
    ∧ ∃ text, member.2 = .str text ∧ QuotesOnly phrases text

section QuotesOnly
variable {phrases : List String}

theorem inert_quote {ascii : Bool} {text : String} (h : CallsOnly phrases (spelled ascii text)) :
    Inert phrases (quote ascii text) := by
  intro rest hrest
  have hbehind := (h.append_cons (c := '"') (by decide) hrest).append_of_not_mem (p := ['"'])
    (by decide)
  simpa [quote, spelled] using hbehind

/-! ## The data module -/

theorem inert_gap (level : Nat) : Inert phrases (Style.tabs.gap level) :=
  inert_of_not_mem (by simp [Style.gap, Style.tabs])

theorem inert_membersTail {members : List (String × Value)} (level : Nat)
    (h : ∀ member ∈ members, QuotesOnly phrases member.1
      ∧ Inert phrases (Style.tabs.text level member.2)) :
    Inert phrases (Style.tabs.membersTail level members) := by
  induction members with
  | nil => exact inert_of_not_mem List.not_mem_nil
  | cons member members ih =>
    obtain ⟨hkey, hitem⟩ := h member List.mem_cons_self
    have hcomma : Inert phrases (Style.tabs.comma level) :=
      inert_of_not_mem (by simp [Style.comma, Style.tabs, Style.gap])
    have hcolon : Inert phrases [':', ' '] := inert_of_not_mem (by decide)
    exact (((hcomma.append (inert_quote hkey)).append hcolon).append hitem).append
      (ih fun m hm => h m (List.mem_cons_of_mem member hm))

/-- The text of an object is inert if the texts of its keys and values are. -/
theorem inert_text_obj {members : List (String × Value)} (level : Nat)
    (h : ∀ member ∈ members, QuotesOnly phrases member.1
      ∧ Inert phrases (Style.tabs.text (level + 1) member.2)) :
    Inert phrases (Style.tabs.text level (.obj members)) := by
  cases members with
  | nil => exact inert_of_not_mem (p := ['\x7b', '\x7d']) (by decide)
  | cons member members =>
    obtain ⟨hkey, hitem⟩ := h member List.mem_cons_self
    have hopen : Inert phrases ['\x7b'] := inert_of_not_mem (by decide)
    have hcolon : Inert phrases [':', ' '] := inert_of_not_mem (by decide)
    have hclose : Inert phrases ['\x7d'] := inert_of_not_mem (by decide)
    have htail := inert_membersTail (level + 1) fun m hm => h m (List.mem_cons_of_mem member hm)
    exact ((((((hopen.append (inert_gap _)).append (inert_quote hkey)).append hcolon).append
      hitem).append htail).append (inert_gap _)).append hclose

theorem RecordQuotesOnly.inert_text {record : Value} (h : RecordQuotesOnly phrases record)
    (level : Nat) :
    Inert phrases (Style.tabs.text level record) := by
  obtain ⟨members, rfl, hmembers⟩ := h
  refine inert_text_obj level fun member hmember => ?_
  obtain ⟨hkey, text, htext, hquotes⟩ := hmembers member hmember
  rw [htext]
  exact ⟨hkey, inert_quote hquotes⟩

theorem inert_append {a b : String} (ha : Inert phrases a.toList) (hb : Inert phrases b.toList) :
    Inert phrases (a ++ b).toList := by
  rw [String.toList_append]
  exact ha.append hb

theorem callsOnly_append {a b : String} (ha : Inert phrases a.toList)
    (hb : CallsOnly phrases b.toList) : CallsOnly phrases (a ++ b).toList := by
  rw [String.toList_append]
  exact ha _ hb

theorem inert_dataModule {catalog : Catalog}
    (h : ∀ entry ∈ catalog, QuotesOnly phrases entry.1 ∧ RecordQuotesOnly phrases entry.2) :
    Inert phrases (dataModule catalog).toList := by
  have hpayload : Inert phrases (dataPayload catalog).toList := by
    rw [dataPayload, Value.render, String.toList_ofList]
    refine inert_text_obj 0 fun entry hentry => ?_
    obtain ⟨hphrase, hrecord⟩ := h entry hentry
    exact ⟨hphrase, hrecord.inert_text 1⟩
  exact inert_append (inert_append (inert_of_isIdle rfl rfl) hpayload) (inert_of_isIdle rfl rfl)

/-! ## The runtime module -/

theorem inert_literal {text : String} (h : QuotesOnly phrases text) :
    Inert phrases (literal text).toList := by
  rw [literal, String.toList_ofList]
  exact inert_quote h

theorem inert_asciiLiteral {text : String} (h : CallsOnly phrases (spelled true text)) :
    Inert phrases (asciiLiteral text).toList := by
  rw [asciiLiteral, String.toList_ofList]
  exact inert_quote h

theorem inert_intercalate_text {separator : String} (hseparator : Inert phrases separator.toList)
    {pieces : List String} (h : ∀ piece ∈ pieces, Inert phrases piece.toList) :
    Inert phrases (String.intercalate separator pieces).toList := by
  rw [String.toList_intercalate]
  refine inert_intercalate hseparator fun piece hpiece => ?_
  obtain ⟨piece, hmem, rfl⟩ := List.mem_map.mp hpiece
  exact h piece hmem

theorem inert_objectLiteral {entries : List (String × String)}
    (h : ∀ entry ∈ entries, QuotesOnly phrases entry.1 ∧ Inert phrases entry.2.toList) :
    Inert phrases (objectLiteral entries).toList := by
  cases entries with
  | nil => exact inert_of_isIdle (rfl : "\x7b\x7d" = _) rfl
  | cons entry entries =>
    refine inert_append (inert_append (inert_of_isIdle rfl rfl) ?_) (inert_of_isIdle rfl rfl)
    refine inert_intercalate_text (inert_of_isIdle rfl rfl) fun line hline => ?_
    obtain ⟨⟨key, value⟩, hmem, rfl⟩ := List.mem_map.mp hline
    obtain ⟨hkey, hvalue⟩ := h _ hmem
    exact inert_append (inert_append (inert_append (inert_append (inert_of_isIdle rfl rfl)
      (inert_literal hkey)) (inert_of_isIdle rfl rfl)) hvalue) (inert_of_isIdle rfl rfl)

section Languages
variable {codes : List String} (hcodes : ∀ code ∈ codes, code ∈ Language.knownCodes)

theorem isIdle_of_mem_knownCodes {code : String} (h : code ∈ Language.knownCodes) :
    isIdle (spelled false code) = true ∧ isIdle (spelled true code) = true := by
  revert code
  decide +kernel

include hcodes

theorem inert_languageTable : Inert phrases (languageTable codes).toList := by
  refine inert_append (inert_append (inert_of_isIdle rfl rfl) ?_) (inert_of_isIdle rfl rfl)
  refine inert_objectLiteral fun entry hentry => ?_
  obtain ⟨code, hcode, rfl⟩ := List.mem_map.mp hentry
  obtain ⟨hkey, hvalue⟩ := isIdle_of_mem_knownCodes (hcodes code hcode)
  exact ⟨callsOnly_of_isIdle hkey, inert_asciiLiteral (callsOnly_of_isIdle hvalue)⟩

theorem inert_languageList {locales : Language.Locales}
    (hlabels : ∀ code ∈ codes, QuotesOnly phrases (languageLabel locales code)) :
    Inert phrases (languageList locales codes).toList := by
  refine inert_append (inert_append (inert_of_isIdle rfl rfl) ?_) (inert_of_isIdle rfl rfl)
  refine inert_intercalate_text (inert_of_isIdle rfl rfl) fun line hline => ?_
  obtain ⟨code, hcode, rfl⟩ := List.mem_map.mp hline
  obtain ⟨-, hvalue⟩ := isIdle_of_mem_knownCodes (hcodes code hcode)
  exact inert_append (inert_append (inert_append (inert_append (inert_of_isIdle rfl rfl)
    (inert_asciiLiteral (callsOnly_of_isIdle hvalue))) (inert_of_isIdle rfl rfl))
    (inert_literal (hlabels code hcode))) (inert_of_isIdle rfl rfl)

theorem inert_missingRecord : Inert phrases (missingRecord codes).toList := by
  refine inert_append (inert_append (inert_of_isIdle rfl rfl) ?_) (inert_of_isIdle rfl rfl)
  refine inert_objectLiteral fun entry hentry => ?_
  obtain ⟨code, hcode, rfl⟩ := List.mem_map.mp hentry
  exact ⟨callsOnly_of_isIdle (isIdle_of_mem_knownCodes (hcodes code hcode)).1,
    inert_of_isIdle rfl rfl⟩

end Languages

/-- The labels of the known languages in the table mention no marker. -/
theorem quotesOnly_label_table {code : String} (h : code ∈ Language.knownCodes) :
    QuotesOnly phrases (languageLabel .table code) := by
  have hidle : ∀ code ∈ Language.knownCodes,
      isIdle (spelled false (languageLabel .table code)) = true := by decide +kernel
  exact callsOnly_of_isIdle (hidle code h)

section Phrases
variable {catalog : Catalog} (h : ∀ entry ∈ catalog, QuotesOnly phrases entry.1)
include h

theorem quotesOnly_of_mem_phraseIds {phrase : String} {id : Nat}
    (hpair : (phrase, id) ∈ phraseIds catalog) : QuotesOnly phrases phrase := by
  have hphrase : phrase ∈ catalog.map (·.1) :=
    List.mem_of_getElem? (List.mem_zipIdx_iff_getElem?.mp hpair)
  obtain ⟨entry, hentry, rfl⟩ := List.mem_map.mp hphrase
  exact h entry hentry

theorem inert_idTable : Inert phrases (idTable catalog).toList := by
  refine inert_append (inert_append (inert_of_isIdle rfl rfl) ?_) (inert_of_isIdle rfl rfl)
  refine inert_objectLiteral fun entry hentry => ?_
  obtain ⟨⟨phrase, id⟩, hpair, rfl⟩ := List.mem_map.mp hentry
  have hphrase := quotesOnly_of_mem_phraseIds h hpair
  refine ⟨hphrase, inert_of_not_mem ?_⟩
  have hdigits : (toString id).toList = Decimal.digits id := Nat.toList_repr
  rw [hdigits]
  intro hmem
  exact absurd (isDigit_of_mem_digits hmem) (by decide)

theorem inert_idList : Inert phrases (idList catalog).toList := by
  unfold idList
  refine inert_append (inert_of_isIdle rfl rfl) ?_
  split
  · exact inert_of_isIdle rfl rfl
  · refine inert_append (inert_append (inert_of_isIdle rfl rfl) ?_) (inert_of_isIdle rfl rfl)
    refine inert_intercalate_text (inert_of_isIdle rfl rfl) fun line hline => ?_
    obtain ⟨⟨phrase, id⟩, hpair, rfl⟩ := List.mem_map.mp hline
    have hphrase := quotesOnly_of_mem_phraseIds h hpair
    exact inert_append (inert_append (inert_of_isIdle rfl rfl) (inert_literal hphrase))
      (inert_of_isIdle rfl rfl)

end Phrases

theorem callsOnly_runtimeText : CallsOnly phrases runtimeText.toList := by
  have hlines : ∀ {lines : List String} {texts : List (List Char)},
      lines.map String.toList = texts → isIdle (List.intercalate ['\n'] texts) = true →
      CallsOnly phrases (String.intercalate "\n" lines).toList := by
    rintro lines _ rfl hidle
    rw [String.toList_intercalate]
    exact callsOnly_of_isIdle hidle
  apply hlines
  · repeat' first | exact List.map_nil | apply map_toList_cons rfl
  · decide +kernel

theorem callsOnly_runtimeModule {locales : Language.Locales} {catalog : Catalog}
    {codes : List String} (hphrases : ∀ entry ∈ catalog, QuotesOnly phrases entry.1)
    (hcodes : ∀ code ∈ codes, code ∈ Language.knownCodes)
    (hlabels : ∀ code ∈ codes, QuotesOnly phrases (languageLabel locales code)) :
    CallsOnly phrases (runtimeModule locales catalog codes).toList := by
  have htables : Inert phrases (String.intercalate "\n\n"
      ["import \x7b i18nSource \x7d from \"./i18n-source\";", languageTable codes,
        languageList locales codes, missingRecord codes, idTable catalog,
        idList catalog]).toList := by
    refine inert_intercalate_text (inert_of_isIdle rfl rfl) fun piece hpiece => ?_
    simp only [List.mem_cons, List.not_mem_nil, or_false] at hpiece
    rcases hpiece with rfl | rfl | rfl | rfl | rfl | rfl
    · exact inert_of_isIdle rfl rfl
    · exact inert_languageTable hcodes
    · exact inert_languageList hcodes hlabels
    · exact inert_missingRecord hcodes
    · exact inert_idTable hphrases
    · exact inert_idList hphrases
  exact callsOnly_append (inert_append htables (inert_of_isIdle rfl rfl)) callsOnly_runtimeText

end QuotesOnly

theorem mem_knownCodes_of_validateCodes {languages codes : List String}
    (h : Language.validateCodes languages = .ok codes) :
    ∀ code ∈ codes, code ∈ Language.knownCodes := by
  obtain ⟨-, hknown, rfl⟩ := Language.validateCodes_eq_ok_iff.mp h
  exact hknown

/-- Where the phrases, the members' keys and the translations of a catalog quote no calls but those
of its phrases, and the labels of the languages neither, a scan of the generated modules finds phrases
of the catalog only. -/
theorem extract_generated_modules {locales : Language.Locales} {catalog : Catalog}
    {languages codes : List String}
    (hcatalog : ∀ entry ∈ catalog, QuotesOnly (catalog.map (·.1)) entry.1
      ∧ RecordQuotesOnly (catalog.map (·.1)) entry.2)
    (hlanguages : Language.validateCodes languages = .ok codes)
    (hlabels : ∀ code ∈ codes, QuotesOnly (catalog.map (·.1)) (languageLabel locales code)) :
    (∃ found, extract registry (dataModule catalog).toList = .ok found
        ∧ ∀ phrase ∈ found, phrase ∈ catalog.map (·.1))
      ∧ ∃ found, extract registry (runtimeModule locales catalog codes).toList = .ok found
        ∧ ∀ phrase ∈ found, phrase ∈ catalog.map (·.1) := by
  have hphrases := fun entry h => (hcatalog entry h).1
  have hcodes := mem_knownCodes_of_validateCodes hlanguages
  exact ⟨(inert_dataModule hcatalog).callsOnly.extract,
    (callsOnly_runtimeModule hphrases hcodes hlabels).extract⟩

def openCall : Call :=
  ⟨"i18nKey", .direct, backQuote, "Open".toList, by decide, Layout.isBlank_of_mem_direct, by decide,
    by decide, by decide⟩

/-- The second phrase quotes a call of the first one. In its translations a marker is mentioned: no
call, as a literal spells `"` with a backslash. -/
def mentionCatalog : Catalog :=
  [("Open", .obj [("en", .str "Open"), ("es", .str "Abrir")]),
    ("Call i18nKey(\x60Open\x60)",
      .obj [("en", .str "Call i18n(\"Save\")"), ("es", .str "Llama a i18n(x)")])]

theorem quotesOnly_mention {phrases : List String} (h : "Open" ∈ phrases) :
    QuotesOnly phrases "Call i18nKey(\x60Open\x60)" := by
  have hspelled : spelled false "Call i18nKey(\x60Open\x60)"
      = "Call ".toList ++ openCall.text := rfl
  have htext : openCall.text = 'i' :: openCall.text.tail := rfl
  have hcall : StartsOnly phrases openCall.text := by
    have hstarts := openCall.startsOnly h []
    rwa [List.append_nil] at hstarts
  rw [QuotesOnly, hspelled]
  refine CallsOnly.append_of_not_mem (by decide) ?_
  rw [htext] at hcall ⊢
  exact callsOnly_cons_iff.mpr ⟨fun _ => hcall, callsOnly_of_isIdle rfl⟩

theorem extract_generated_modules_mention :
    (∃ found, extract registry (dataModule mentionCatalog).toList = .ok found
        ∧ ∀ phrase ∈ found, phrase ∈ mentionCatalog.map (·.1))
      ∧ ∃ found, extract registry (runtimeModule .table mentionCatalog ["en", "es"]).toList = .ok found
        ∧ ∀ phrase ∈ found, phrase ∈ mentionCatalog.map (·.1) := by
  have hidle : ∀ {text : String}, isIdle (spelled false text) = true →
      QuotesOnly (mentionCatalog.map (·.1)) text :=
    callsOnly_of_isIdle
  have hlanguages : Language.validateCodes ["en", "es"] = .ok ["en", "es"] := rfl
  have hknown : ∀ code ∈ ["en", "es"], code ∈ Language.knownCodes := by decide
  refine extract_generated_modules (fun entry hentry => ?_) hlanguages fun code hcode =>
    quotesOnly_label_table (hknown code hcode)
  simp only [mentionCatalog, List.mem_cons, List.not_mem_nil, or_false] at hentry
  rcases hentry with rfl | rfl
  · refine ⟨hidle (by decide), _, rfl, fun member hmember => ?_⟩
    simp only [List.mem_cons, List.not_mem_nil, or_false] at hmember
    rcases hmember with rfl | rfl
    · exact ⟨hidle (by decide), _, rfl, hidle (by decide)⟩
    · exact ⟨hidle (by decide), _, rfl, hidle (by decide)⟩
  · refine ⟨quotesOnly_mention (by decide), _, rfl, fun member hmember => ?_⟩
    simp only [List.mem_cons, List.not_mem_nil, or_false] at hmember
    rcases hmember with rfl | rfl
    · exact ⟨hidle (by decide), _, rfl, hidle (by decide)⟩
    · exact ⟨hidle (by decide), _, rfl, hidle (by decide)⟩

/-- A phrase whose translations quote a call with another phrase. -/
def quotingCatalog : Catalog :=
  [("Example", .obj [("en", .str "i18n('x')"), ("es", .str "i18n('x')")])]

theorem extract_dataModule_quoting :
    extract registry (dataModule quotingCatalog).toList = .ok ["x"]
      ∧ "x" ∉ quotingCatalog.map (·.1) :=
  ⟨rfl, by decide⟩

end PhraseCatalog.Emit
