import PhraseCatalog.Model.Translate
import PhraseCatalog.Proofs.Json.Limits
import PhraseCatalog.Proofs.Model.Recovery

/-! What is accepted as a record: any object that a completion has between its braces, whatever its
values are. -/

set_option autoImplicit false

namespace PhraseCatalog.Model

open Json

/-- The text has an object between its first opening and its last closing brace. -/
def HoldsObject (text : String) (members : List (String × Value)) : Prop :=
  ∃ body, braced? text.toList = some body ∧ readChars body = .ok (.obj members)

theorem recover_eq_record_iff {text : String} {members : List (String × Value)} :
    recover text = .ok (some members) ↔ HoldsObject text members := by
  unfold recover HoldsObject
  cases braced? text.toList with
  | none => simp
  | some body =>
    cases hread : readChars body with
    | ok v => cases v <;> simp [hread, Value.members?]
    | error error => cases error <;> simp [hread]

/-- The completion for a phrase holds an object, and this is the record. -/
def Settings.Accepts (settings : Settings) (service : Service) (style phrase : String)
    (record : Value) : Prop :=
  ∃ text members, service (settings.translationRequest style phrase) = .content (some text)
    ∧ HoldsObject text members ∧ record = .obj members

/-- A phrase gets a record exactly where its completion holds an object. -/
theorem Settings.outcome_eq_record_iff {settings : Settings} {service : Service}
    {style phrase : String} {record : Value} :
    (settings.translator service style phrase).outcome = .ok (some record)
      ↔ settings.Accepts service style phrase record := by
  unfold translator Accepts
  cases hresponse : service (settings.translationRequest style phrase) with
  | failed fault => simp [chat, hresponse]
  | noChoices => simp [chat, hresponse]
  | content text? =>
    cases text? with
    | none => simp [chat, hresponse]
    | some text =>
      by_cases hempty : text = ""
      · subst hempty
        have hnone : ∀ members, ¬ HoldsObject "" members := by
          rintro members ⟨body, hbody, -⟩
          cases hbody
        simp [chat, hresponse, hnone]
      · simp only [← recover_eq_record_iff]
        cases hrecover : recover text with
        | error error => simp [chat, hresponse, hrecover]
        | ok members? => cases members? <;> simp [chat, hresponse, hrecover, eq_comm]

theorem HoldsObject.fits {text : String} {members : List (String × Value)}
    (h : HoldsObject text members) : Fits nestingLimit (.obj members) := by
  obtain ⟨body, -, hread⟩ := h
  exact fits_of_readChars hread

theorem HoldsObject.nodup {text : String} {members : List (String × Value)}
    (h : HoldsObject text members) : (members.map (·.1)).Nodup := by
  obtain ⟨body, -, hread⟩ := h
  exact nodup_of_readChars hread

/-- A completion that has the text of an object between its braces holds the object. -/
theorem HoldsObject.of_render {text : String} {members : List (String × Value)}
    (hbody : braced? text.toList = some ((Value.obj members).render .line).toList)
    (hplain : Plain nestingLimit (.obj members)) : HoldsObject text members :=
  ⟨_, hbody, read_render Style.line_readable hplain⟩

end PhraseCatalog.Model
