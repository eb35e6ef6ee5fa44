import Mathlib.Data.List.Pairwise
import PhraseCatalog.Proofs.Marker.Call

/-! Texts in which every marker call is a written call: the registry finds the phrases of those
calls and nothing else. -/

set_option autoImplicit false

namespace PhraseCatalog.Marker

/-- A call with the place in a text where it begins. -/
structure Placed where
  start : Nat
  call : Call

namespace Placed

def finish (p : Placed) : Nat := p.start + p.call.text.length

/-- The call stands in the text at its place. -/
def In (p : Placed) (s : List Char) : Prop := p.call.text <+: s.drop p.start

instance (p : Placed) (s : List Char) : Decidable (p.In s) :=
  inferInstanceAs (Decidable (_ <+: _))

def Disjoint (p q : Placed) : Prop := p.finish ≤ q.start ∨ q.finish ≤ p.start

instance (p q : Placed) : Decidable (p.Disjoint q) := inferInstanceAs (Decidable (_ ∨ _))

instance : Std.Symm Disjoint := ⟨fun _ _ => Or.symm⟩

end Placed

section Calls
variable {s : List Char} {calls : List Placed} (hstands : ∀ p ∈ calls, p.In s)
  (honly : ∀ i, Opens (s.drop i) → ∃ p ∈ calls, p.start = i)
include hstands honly

/-- A form finds the calls that it reads, and each of them as a whole. -/
theorem Form.match?_drop_iff {form : Form} (hmarker : form.marker ∈ markers) (i : Nat)
    (o : Occurrence) :
    form.match? (s.drop i) = some o
      ↔ ∃ p ∈ calls, p.start = i ∧ p.call.ReadBy form
          ∧ o = ⟨p.call.text, p.call.quote, p.call.argument⟩ := by
  constructor
  · intro ho
    obtain ⟨p, hp, rfl⟩ := honly i (opens_of_match? hmarker ho)
    obtain ⟨rest, hrest⟩ := hstands p hp
    rw [← hrest, p.call.match?_text hmarker] at ho
    split at ho
    · rename_i hread
      exact ⟨p, hp, rfl, hread, (Option.some.inj ho).symm⟩
    · cases ho
  · rintro ⟨p, hp, rfl, hread, rfl⟩
    obtain ⟨rest, hrest⟩ := hstands p hp
    rw [← hrest, p.call.match?_text hmarker, if_pos hread]

theorem Form.separate_of_disjoint {form : Form} (hmarker : form.marker ∈ markers)
    (hdisjoint : calls.Pairwise Placed.Disjoint) : form.Separate s := by
  intro i j o o' hij ho ho'
  rw [match?_drop_iff hstands honly hmarker] at ho ho'
  obtain ⟨p, hp, rfl, -, rfl⟩ := ho
  obtain ⟨q, hq, rfl, -, -⟩ := ho'
  have hne : p ≠ q := by
    rintro rfl
    exact Nat.lt_irrefl _ hij
  rcases hdisjoint.forall hp hq hne with h | h
  · exact h
  · unfold Placed.finish at h
    omega

theorem Form.mem_phrases_iff {form : Form} (hmarker : form.marker ∈ markers)
    (hdisjoint : calls.Pairwise Placed.Disjoint) (phrase : String) :
    phrase ∈ form.phrases s ↔ ∃ p ∈ calls, p.call.ReadBy form ∧ p.call.phrase = phrase := by
  simp only [phrases, List.mem_filterMap,
    mem_occurrences_iff (separate_of_disjoint hstands honly hmarker hdisjoint),
    match?_drop_iff hstands honly hmarker]
  constructor
  · rintro ⟨o, ⟨i, p, hp, rfl, hread, rfl⟩, ho⟩
    rw [p.call.phrase?_occurrence] at ho
    exact ⟨p, hp, hread, Option.some.inj ho⟩
  · rintro ⟨p, hp, hread, rfl⟩
    exact ⟨_, ⟨p.start, p, hp, rfl, hread, rfl⟩, p.call.phrase?_occurrence⟩

/-- From a text in which every marker with an opening behind it begins one of some disjoint calls,
the registry takes the phrases of these calls, each once, and no others. -/
theorem extract_of_disjoint_calls (hdisjoint : calls.Pairwise Placed.Disjoint) :
    ∃ phrases, extract registry s = .ok phrases ∧ phrases.Nodup
      ∧ ∀ phrase, phrase ∈ phrases ↔ ∃ p ∈ calls, p.call.phrase = phrase := by
  obtain ⟨phrases, hextract, hnodup, hmem⟩ := exists_extract_registry s
  refine ⟨phrases, hextract, hnodup, fun phrase => (hmem phrase).trans ?_⟩
  constructor
  · rintro ⟨m, hm, hphrase⟩
    have hmarker := marker_mem_of_mem_registry hm
    obtain ⟨p, hp, -, rfl⟩ :=
      (Form.mem_phrases_iff hstands honly hmarker hdisjoint phrase).mp hphrase
    exact ⟨p, hp, rfl⟩
  · rintro ⟨p, hp, rfl⟩
    obtain ⟨m, hm, hread⟩ := p.call.exists_reader
    have hmarker := marker_mem_of_mem_registry hm
    exact ⟨m, hm,
      (Form.mem_phrases_iff hstands honly hmarker hdisjoint _).mpr ⟨p, hp, hread, rfl⟩⟩

end Calls

theorem lt_length_of_opens_drop {s : List Char} {i : Nat} (h : Opens (s.drop i)) :
    i < s.length := by
  rw [Nat.lt_iff_add_one_le, ← Nat.not_lt]
  intro hlt
  rw [List.drop_eq_nil_of_le (by omega)] at h
  exact not_opens_nil h

def mixedLine : List Char :=
  "it's i18nObj('Save'), i18nKey(\n\"a, b\" ) i18n(\x60c\x60 , )\" i18nId\x60d\x60)".toList

def mixedCalls : List Placed :=
  [⟨5, "i18nObj", .direct, '\'', "Save".toList, by decide, Layout.isBlank_of_mem_direct,
      by decide, by decide, by decide⟩,
    ⟨22, "i18nKey", .spaced ['\n'] [' '], '"', "a, b".toList, by decide,
      List.all_eq_true.mp rfl, by decide, by decide, by decide⟩,
    ⟨40, "i18n", .trailingComma [] [' '] [' '], backQuote, ['c'], by decide,
      List.all_eq_true.mp rfl, by decide, by decide, by decide⟩,
    ⟨54, "i18nId", .template, backQuote, ['d'], by decide, List.all_eq_true.mp rfl, by decide,
      by decide, by decide⟩]

theorem extract_of_disjoint_calls_mixed :
    (∀ p ∈ mixedCalls, p.In mixedLine)
      ∧ (∀ i, Opens (mixedLine.drop i) → ∃ p ∈ mixedCalls, p.start = i)
      ∧ mixedCalls.Pairwise Placed.Disjoint
      ∧ ∃ phrases, extract registry mixedLine = .ok phrases ∧ phrases.Nodup
        ∧ ∀ phrase, phrase ∈ phrases ↔ ∃ p ∈ mixedCalls, p.call.phrase = phrase := by
  have hstands : ∀ p ∈ mixedCalls, p.In mixedLine := by decide
  have hopens : ∀ i < mixedLine.length, Opens (mixedLine.drop i) →
      ∃ p ∈ mixedCalls, p.start = i := by
    decide
  have honly : ∀ i, Opens (mixedLine.drop i) → ∃ p ∈ mixedCalls, p.start = i :=
    fun i h => hopens i (lt_length_of_opens_drop h) h
  have hdisjoint : mixedCalls.Pairwise Placed.Disjoint := by decide
  exact ⟨hstands, honly, hdisjoint, extract_of_disjoint_calls hstands honly hdisjoint⟩

end PhraseCatalog.Marker
