import PhraseCatalog.Proofs.Json.Nesting
import PhraseCatalog.Proofs.Model.Recovery
import PhraseCatalog.Proofs.Run.Interrupted

/-! Completions that hold no record. A phrase is left without a translation and the run goes on, unless
the completion is nested too deeply: then the phrase fails, and the run with it. -/

set_option autoImplicit false

namespace PhraseCatalog.Model

open Json

/-! ## One completion -/

theorem openings_of_braced? {s body : List Char} (h : braced? s = some body) :
    Reader.openings body ≤ Reader.openings s := by
  unfold braced? at h
  split at h
  · rw [Option.some.injEq] at h
    rw [← h]
    apply List.Sublist.countP_le
    exact (List.reverse_sublist.mpr (List.dropWhile_sublist _)).trans
      (by rw [List.reverse_reverse]; exact List.dropWhile_sublist _)
  · cases h

/-- The only error that comes of a completion is that it is nested too deeply between its braces. -/
theorem recover_eq_error_iff {text : String} {error : ReadError} :
    recover text = .error error ↔ ∃ body container, braced? text.toList = some body
      ∧ readChars body = .error (.tooDeep container) ∧ error = .tooDeep container := by
  unfold recover
  cases braced? text.toList with
  | none => simp
  | some body =>
    cases hread : readChars body with
    | ok v => simp [hread]
    | error error' => cases error' <;> simp [hread, eq_comm]

theorem nestingLimit_lt_of_recover {text : String} {error : ReadError}
    (h : recover text = .error error) : nestingLimit < Reader.openings text.toList := by
  obtain ⟨body, container, hbody, hread, -⟩ := recover_eq_error_iff.mp h
  exact Nat.lt_of_lt_of_le (Reader.nestingLimit_lt_of_tooDeep hread) (openings_of_braced? hbody)

/-- Translating a phrase fails only where the request fails or the completion is nested too deeply. -/
theorem Settings.failed_or_tooDeep {settings : Settings} {service : Service} {style phrase : String}
    {fault : TranslationFault}
    (h : (settings.translator service style phrase).outcome = .error fault) :
    (∃ refusal, service (settings.translationRequest style phrase) = .failed refusal
        ∧ fault = .service refusal)
      ∨ ∃ text error, service (settings.translationRequest style phrase) = .content (some text)
        ∧ recover text = .error error ∧ fault = .unreadable error := by
  unfold translator at h
  cases hresponse : service (settings.translationRequest style phrase) with
  | failed refusal =>
    simp only [chat, hresponse, Except.error.injEq] at h
    exact .inl ⟨refusal, rfl, h.symm⟩
  | noChoices =>
    simp only [chat, hresponse] at h
    cases h
  | content text? =>
    cases text? with
    | none =>
      simp only [chat, hresponse] at h
      cases h
    | some text =>
      by_cases hempty : text = ""
      · subst hempty
        simp only [chat, hresponse] at h
        cases h
      · cases hrecover : recover text with
        | ok members =>
          cases members <;> simp [chat, hresponse, hrecover] at h
        | error error =>
          simp only [chat, hresponse, hrecover, Except.error.injEq] at h
          exact .inr ⟨text, error, rfl, hrecover, h.symm⟩

/-- The request was answered, and no more brackets are opened in the completion than containers may be
nested. -/
def Response.Mild : Response → Prop
  | .content (some text) => Reader.openings text.toList ≤ nestingLimit
  | .content none | .noChoices => True
  | .failed _ => False

/-- Half a surrogate pair is escaped without its other half; `skip` characters belong to an escape that
is read already. -/
def halfEscaped : (skip : Nat) → List Char → Bool
  | _, [] => false
  | skip + 1, _ :: rest => halfEscaped skip rest
  | 0, c :: rest =>
    if c = '\\' then
      match rest with
      | 'u' :: digits =>
        match Reader.unit? digits with
        | none => halfEscaped 1 rest
        | some n =>
          if 0xD800 ≤ n && n < 0xDC00 then
            (Reader.lowUnit? (digits.drop 4)).isNone || halfEscaped 11 rest
          else (0xDC00 ≤ n && n < 0xE000) || halfEscaped 5 rest
      | _ => halfEscaped 1 rest
    else halfEscaped 0 rest

/-- Every escape in the completion stands for a character, and the object that it holds, if there is
one, can be stored. A store does not take half a surrogate pair, which is no character. -/
def Response.Whole : Response → Prop
  | .content (some text) => halfEscaped 0 text.toList = false
    ∧ ∀ members, recover text = .ok (some members) → Store.Storable (.obj members)
  | _ => True

theorem Settings.storable_of_whole {settings : Settings} {service : Service} {style phrase : String}
    {record : Value} (h : (service (settings.translationRequest style phrase)).Whole)
    (hrecord : (settings.translator service style phrase).outcome = .ok (some record)) :
    Store.Storable record := by
  obtain ⟨text, members, hresponse, hholds, rfl⟩ := outcome_eq_record_iff.mp hrecord
  rw [hresponse] at h
  exact h.2 members (recover_eq_record_iff.mpr hholds)

theorem Settings.exists_outcome_of_mild {settings : Settings} {service : Service}
    {style phrase : String} (h : (service (settings.translationRequest style phrase)).Mild) :
    ∃ record, (settings.translator service style phrase).outcome = .ok record := by
  cases houtcome : (settings.translator service style phrase).outcome with
  | ok record => exact ⟨record, rfl⟩
  | error fault =>
    rcases failed_or_tooDeep houtcome with ⟨refusal, hresponse, -⟩ | ⟨text, error, hresponse, hdeep, -⟩
    · rw [hresponse] at h
      exact h.elim
    · rw [hresponse] at h
      exact absurd (nestingLimit_lt_of_recover hdeep) (Nat.not_lt.mpr h)

end PhraseCatalog.Model

namespace PhraseCatalog.Run

open Emit Files Json

/-! ## A whole run -/

theorem StopsAt.not_translates {translate : Model.Translator} {workers : Nat} {rows after : Rows}
    {phrases : List String} {fault : Model.TranslationFault}
    (h : StopsAt translate workers rows phrases (.translation fault) after) :
    ∃ phrase, (translate phrase).outcome = .error fault := by
  cases h with
  | failing pending_eq settles reason =>
    cases reason with
    | alone hfails =>
      cases hfails with
      | translation hfault => exact ⟨_, hfault⟩

/-- A run fails with a translation only if some phrase fails to translate. -/
theorem not_translates_of_failed {schedule : Schedule} {settings : Settings} {source : Source}
    {formatter : Formatter} {tree : Node} {fault : Model.TranslationFault} {site : Site}
    (h : runBy schedule.resolver settings source formatter { files := tree }
      = .error (.translation fault) site) :
    ∃ translate phrase, source.translator? settings = some translate
      ∧ (translate phrase).outcome = .error fault := by
  have hensures := runBy_ensures schedule.resolver settings source formatter tree
  cases hensures.of_error h with
  | before hbefore =>
    cases hbefore with
    | early _ cause => exact absurd rfl (cause fault)
    | resolving course reason =>
      have hresolves := schedule.resolves_course course
      obtain ⟨phrase, hfault⟩ :=
        (hresolves.stopsAt (nodup_of_loadPhrases course.phrases_eq) reason).not_translates
      exact ⟨course.translate, phrase, course.translate_eq, hfault⟩
  | writing course catalog resolved reason =>
    obtain ⟨fault', hfault', -⟩ := reason
    cases hfault'

/-- A phrase that is asked for fails only where the request fails or the completion is nested too
deeply, for which it must open more brackets than containers may be nested. If no response is of this
kind, every completion is a record or none, no run fails with a translation, and, if the completions
are of characters and their objects can be stored, none of the phrases keeps another from its
record. -/
theorem completions_are_soft_unless_too_deep {model : Model.Settings} {service : Model.Service}
    {style : String} :
    let translate := model.translator service style
    let response := fun phrase => service (model.translationRequest style phrase)
    (∀ phrase fault, (translate phrase).outcome = .error fault →
      (∃ refusal, response phrase = .failed refusal ∧ fault = .service refusal)
      ∨ ∃ text error, response phrase = .content (some text) ∧ Model.recover text = .error error
        ∧ fault = .unreadable error ∧ nestingLimit < Reader.openings text.toList)
    ∧ ((∀ phrase, (response phrase).Mild) →
      (∀ phrase, ∃ record, (translate phrase).outcome = .ok record)
      ∧ (∀ (schedule : Schedule) (settings : Settings) formatter tree failure site,
        settings.model = some model → settings.style = style →
        runBy schedule.resolver settings (.service service) formatter { files := tree }
          = .error failure site → ∀ fault, failure ≠ .translation fault)
      ∧ ∀ workers rows phrases r, (∀ phrase, (response phrase).Whole) → 0 < workers →
        Decodes rows → phrases.Nodup → Resolves translate workers rows phrases r →
        r.rows = rows ++ recordRows (translatedRecords translate (pendingPhrases rows phrases))
        ∧ r.outcome = .ok (phrases.filterMap fun phrase =>
          (recordOf? translate rows phrase).map fun record => (phrase, record))) := by
  intro translate response
  constructor
  · intro phrase fault hfault
    rcases Model.Settings.failed_or_tooDeep hfault with hrefused | ⟨text, error, hresponse, hdeep, h⟩
    · exact .inl hrefused
    · exact .inr ⟨text, error, hresponse, hdeep, h, Model.nestingLimit_lt_of_recover hdeep⟩
  · intro hmild
    have htranslates : ∀ phrase, ∃ record, (translate phrase).outcome = .ok record := fun phrase =>
      Model.Settings.exists_outcome_of_mild (hmild phrase)
    refine ⟨htranslates, ?_, ?_⟩
    · rintro schedule settings formatter tree failure site hmodel rfl hrun fault rfl
      obtain ⟨translate', phrase, htranslate', hfault⟩ := not_translates_of_failed hrun
      obtain rfl : translate = translate' := by
        simpa [Source.translator?, hmodel] using htranslate'
      obtain ⟨record, hrecord⟩ := htranslates phrase
      rw [hfault] at hrecord
      cases hrecord
    · -- of a whole completion only its object counts: the reader has a character for every escape
      intro workers rows phrases r hwhole hworkers hrows hnodup hresolves
      exact hresolves.of_settles hnodup hrows hworkers fun phrase _ => ⟨htranslates phrase,
        fun record hrecord => Model.Settings.storable_of_whole (hwhole phrase)
          (translated?_eq_some_iff.mp hrecord)⟩

def plainModel : Model.Settings := ⟨.openai, "k", Model.defaultModel, none, none⟩

/-- A completion that is no JSON at all. -/
def strayService : Model.Service := fun _ => .content (some "so \x7d: [\x7b 1e, \x7d")

theorem completions_are_soft_unless_too_deep_stray :
    let translate := plainModel.translator strayService ""
    ((∀ phrase, (strayService (plainModel.translationRequest "" phrase)).Mild)
      ∧ ∀ phrase, (strayService (plainModel.translationRequest "" phrase)).Whole)
    ∧ (∀ phrase, ∃ record, (translate phrase).outcome = .ok record)
    ∧ ∀ r, Resolves translate 2 [] ["Hello", "World"] r →
      r.rows = recordRows (translatedRecords translate ["Hello", "World"]) := by
  intro translate
  have hmild : ∀ phrase, (strayService (plainModel.translationRequest "" phrase)).Mild := by
    intro phrase
    show Reader.openings "so \x7d: [\x7b 1e, \x7d".toList ≤ nestingLimit
    decide
  have hwhole : ∀ phrase, (strayService (plainModel.translationRequest "" phrase)).Whole := by
    intro phrase
    have hnone : Model.recover "so \x7d: [\x7b 1e, \x7d" = .ok none := by cbv
    refine ⟨by decide, fun members hmembers => ?_⟩
    rw [hnone] at hmembers
    cases hmembers
  obtain ⟨htranslates, -, hresolved⟩ := completions_are_soft_unless_too_deep.2 hmild
  refine ⟨⟨hmild, hwhole⟩, htranslates, fun r hr => ?_⟩
  have hempty : Decodes [] := by
    intro row hrow
    cases hrow
  exact (hresolved 2 [] _ r hwhole (by decide) hempty (by decide) hr).1

/-- A service whose completion opens `n + 1` arrays. -/
def deepService (n : Nat) : Model.Service := fun _ =>
  .content (some (String.ofList (Reader.unclosedArrays n)))

theorem recover_unclosedArrays {n : Nat} (h : nestingLimit ≤ n + 1) :
    Model.recover (String.ofList (Reader.unclosedArrays n)) = .error (.tooDeep .array) := by
  refine Model.recover_eq_error_iff.mpr
    ⟨_, .array, ?_, Reader.readChars_unclosedArrays h, rfl⟩
  have hbody := @Model.braced?_append [] (['"', 'a', '"', ':'] ++ List.replicate (n + 1) '[') []
    (by simp) (by simp)
  simpa [Reader.unclosedArrays, Model.openBrace, Model.closeBrace] using hbody

theorem outcome_deepService {n : Nat} (h : nestingLimit ≤ n + 1) (model : Model.Settings)
    (style phrase : String) : (model.translator (deepService n) style phrase).outcome
      = .error (.unreadable (.tooDeep .array)) := by
  have hempty : String.ofList (Reader.unclosedArrays n) ≠ "" := by simp [Reader.unclosedArrays]
  have hrecover := recover_unclosedArrays h
  unfold deepService
  generalize String.ofList (Reader.unclosedArrays n) = text at hempty hrecover
  simp [Model.Settings.translator, Model.chat, hrecover]

/-- The first phrase that fails ends the run, and the phrases behind it are not asked for. -/
theorem resolve_of_failing_first {translate : Model.Translator} {phrase : String}
    {fault : Model.TranslationFault} (h : (translate phrase).outcome = .error fault)
    (phrases : List String) :
    (resolve translate 1 [] (phrase :: phrases)).outcome = .error (.translation fault)
      ∧ (resolve translate 1 [] (phrase :: phrases)).calls = [phrase] := by
  have hreadable : ∀ p ∈ phrase :: phrases, ∃ record, Store.lookupRecord [] p = .ok record :=
    fun p _ => ⟨none, rfl⟩
  have hpending : pendingPhrases [] (phrase :: phrases) = phrase :: phrases := by
    simp [pendingPhrases, stored?, Store.lookupRecord]
  have hsplit := splitPhrases_of_readable hreadable
  rw [hpending] at hsplit
  simp [resolve, hsplit, runQueue, drain, h, newRecords, insertAll]

/-- No request fails, but the completion for one phrase ends the run. -/
theorem not_soft_of_deep_completion :
    let translate := plainModel.translator (deepService 99999) ""
    (∀ request fault, deepService 99999 request ≠ .failed fault)
    ∧ ¬ (∃ record, (translate "Hello").outcome = .ok record)
    ∧ (resolve translate 1 [] ["Hello", "World"]).outcome
      = .error (.translation (.unreadable (.tooDeep .array)))
    ∧ (resolve translate 1 [] ["Hello", "World"]).calls = ["Hello"] := by
  have hlimit : nestingLimit ≤ 99999 + 1 := by
    unfold nestingLimit
    omega
  have hdeep := outcome_deepService hlimit plainModel "" "Hello"
  refine ⟨fun request fault => Model.Response.noConfusion, ?_, resolve_of_failing_first hdeep _⟩
  rintro ⟨record, hrecord⟩
  rw [hdeep] at hrecord
  cases hrecord

end PhraseCatalog.Run
