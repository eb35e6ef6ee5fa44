import Mathlib.Data.List.Nodup
import PhraseCatalog.Proofs.Marker.Call

/-! Marker calls inside the argument of a call: the forms that do not read the outer call look into
its argument, and find there what they find in the argument alone. -/

set_option autoImplicit false

namespace PhraseCatalog.Marker

open Text

/-! ## Text behind the last quote

A match does not reach over a quote `q` that the text before it is free of, where no quote comes
behind it: it lies before `q`, and leaves what comes from `q` on. -/

theorem after?_append_cons {start s t : List Char} {c : Char} (h : c ∉ start) :
    after? start (s ++ c :: t) = (after? start s).map (· ++ c :: t) := by
  induction start generalizing s with
  | nil => rfl
  | cons a start ih =>
    simp only [List.mem_cons, not_or] at h
    cases s with
    | nil => simp [after?, Ne.symm h.1]
    | cons b s => by_cases hb : a = b <;> simp [after?, hb, ih h.2]

theorem skipComma_cons_of_ne {s : List Char} {c : Char} (h : c ≠ ',') :
    skipComma (c :: s) = c :: s := by
  unfold skipComma
  split
  · rename_i heq
    exact absurd (List.cons.inj heq).1 h
  · rfl

theorem skipComma_append_cons {s t : List Char} {c : Char} (h : c ≠ ',') :
    skipComma (s ++ c :: t) = skipComma s ++ c :: t := by
  cases s with
  | nil => exact skipComma_cons_of_ne h
  | cons a s =>
    by_cases ha : a = ','
    · subst ha
      rfl
    · rw [List.cons_append, skipComma_cons_of_ne ha, skipComma_cons_of_ne ha, List.cons_append]

theorem Shape.skipBefore_suffix (shape : Shape) (s : List Char) : shape.skipBefore s <:+ s := by
  cases shape with
  | call | template => exact List.suffix_refl s
  | spacedCall | trailingCommaCall => exact List.dropWhile_suffix isBlank

section Quote
variable {q : Char} {t : List Char} (hq : isQuote q = true)
include hq

theorem Shape.skipBefore_append_cons (shape : Shape) (s : List Char) :
    shape.skipBefore (s ++ q :: t) = shape.skipBefore s ++ q :: t := by
  cases shape with
  | call | template => rfl
  | spacedCall | trailingCommaCall => exact trimStart_append_cons (isBlank_of_isQuote hq)

theorem Shape.skipBehind_append_cons (shape : Shape) (s : List Char) :
    shape.skipBehind (s ++ q :: t) = shape.skipBehind s ++ q :: t := by
  have hblank := isBlank_of_isQuote hq
  have hcomma : q ≠ ',' := by
    rintro rfl
    cases hq
  cases shape with
  | call | template => rfl
  | spacedCall => exact trimStart_append_cons hblank
  | trailingCommaCall =>
    simp only [skipBehind, trimStart_append_cons hblank, skipComma_append_cons hcomma]

end Quote

theorem not_isQuote_of_mem_marker {marker : String} (h : marker ∈ markers) :
    ∀ c ∈ marker.toList, isQuote c = false := by
  have hall : ∀ marker ∈ markers, (marker.toList.all fun c => !isQuote c) = true := by decide
  intro c hc
  simpa using List.all_eq_true.mp (hall marker h) c hc

/-- A found argument with more text behind it. -/
def extend (t : List Char) (found : Char × List Char × List Char) :
    Char × List Char × List Char :=
  (found.1, found.2.1, found.2.2 ++ t)

section Local
variable {q : Char} {t : List Char} (hq : isQuote q = true) (ht : ∀ c ∈ t, isQuote c = false)
include ht in
theorem not_mem_of_not_isQuote {c : Char} (hc : isQuote c = true) : c ∉ t := by
  intro hmem
  rw [ht c hmem] at hc
  cases hc

include hq ht

theorem quoted?_append_cons {s : List Char} (h : q ∉ s) :
    quoted? (s ++ q :: t) = (quoted? s).map (extend (q :: t)) := by
  -- an argument that is open at the end of `s` finds no quote of its kind in `q :: t`
  cases hs : quoted? s with
  | some found =>
    obtain ⟨c, argument, rest⟩ := found
    obtain ⟨hc, hfree, rfl⟩ := quoted?_eq_some_iff.mp hs
    rw [List.cons_append, List.append_assoc, List.cons_append, quoted?_append hc hfree]
    rfl
  | none =>
    cases s with
    | nil => exact quoted?_cons_of_not_mem (not_mem_of_not_isQuote ht hq)
    | cons c s =>
      simp only [List.mem_cons, not_or] at h
      rw [List.cons_append]
      cases hc : isQuote c with
      | false => exact quoted?_cons_of_not_isQuote hc _
      | true =>
        refine quoted?_cons_of_not_mem ?_
        simp only [List.mem_append, List.mem_cons, not_or]
        refine ⟨?_, Ne.symm h.1, not_mem_of_not_isQuote ht hc⟩
        intro hmem
        obtain ⟨before, behind, rfl, hfree⟩ := List.eq_append_cons_of_mem hmem
        rw [quoted?_append hc hfree] at hs
        cases hs

theorem Shape.argument?_append_cons (shape : Shape) {s : List Char} (h : q ∉ s) :
    shape.argument? (s ++ q :: t) = (shape.argument? s).map (extend (q :: t)) := by
  by_cases hshape : shape = .template
  · subst hshape
    rw [argument?_template, argument?_template, quoted?_append_cons hq ht h]
    cases quoted? s with
    | none => rfl
    | some found =>
      simp only [Option.map_some, Option.bind_some, extend]
      split <;> rfl
  have hother : ∀ c, isQuote c = false → q ∉ [c] := by
    intro c hc hmem
    rw [List.mem_singleton.mp hmem, hc] at hq
    cases hq
  rw [argument?_of_ne_template hshape, argument?_of_ne_template hshape,
    after?_append_cons (hother _ rfl)]
  cases hopen : after? ['('] s with
  | none => rfl
  | some s =>
    obtain rfl := after?_eq_some_iff.mp hopen
    have hs : q ∉ shape.skipBefore s := fun hmem =>
      h (List.mem_cons_of_mem _ ((shape.skipBefore_suffix s).mem hmem))
    simp only [Option.map_some, Option.bind_some, skipBefore_append_cons hq]
    rw [quoted?_append_cons hq ht hs]
    cases hquoted : quoted? (shape.skipBefore s) with
    | none => rfl
    | some found =>
      simp only [Option.map_some, Option.bind_some, extend, skipBehind_append_cons hq]
      rw [after?_append_cons (hother _ rfl)]
      cases after? [')'] (shape.skipBehind found.2.2) with
      | none => rfl
      | some rest =>
        simp only [Option.map_some, Option.bind_some]
        split <;> rfl

variable {form : Form} (hmarker : form.marker ∈ markers)
include hmarker

theorem Form.match?_append_cons {s : List Char} (h : q ∉ s) :
    form.match? (s ++ q :: t) = form.match? s := by
  have hout : q ∉ form.marker.toList := by
    intro hmem
    rw [not_isQuote_of_mem_marker hmarker q hmem] at hq
    cases hq
  rw [match?, match?, after?_append_cons hout]
  cases hbehind : after? form.marker.toList s with
  | none => rfl
  | some behind =>
    obtain rfl := after?_eq_some_iff.mp hbehind
    have hfree : q ∉ behind := fun hmem => h (List.mem_append_right _ hmem)
    simp only [Option.bind_eq_bind, Option.map_some, Option.bind_some,
      Shape.argument?_append_cons hq ht form.shape hfree]
    cases form.shape.argument? behind with
    | none => rfl
    | some found =>
      have hlen : (form.marker.toList ++ behind ++ q :: t).length - (found.2.2 ++ q :: t).length
          = (form.marker.toList ++ behind).length - found.2.2.length := by
        simp only [List.length_append]
        omega
      simp only [Option.map_some, Option.bind_some, extend]
      rw [hlen, List.take_append_of_le_length (Nat.sub_le _ _)]

theorem Form.scan_append_cons (hout : 'i' ∉ q :: t) {s : List Char} (h : q ∉ s) {skip : Nat}
    (hskip : skip ≤ s.length) : form.scan skip (s ++ q :: t) = form.scan skip s := by
  induction s generalizing skip with
  | nil =>
    obtain rfl : skip = 0 := Nat.le_zero.mp hskip
    exact scan_of_match?_eq_none
      (fun i => match?_eq_none_of_not_opens hmarker (not_opens_drop_of_not_mem hout i)) 0
  | cons c s ih =>
    have hs : q ∉ s := fun hmem => h (List.mem_cons_of_mem c hmem)
    cases skip with
    | succ skip => exact ih hs (Nat.le_of_succ_le_succ hskip)
    | zero =>
      have hhere : form.match? (c :: (s ++ q :: t)) = form.match? (c :: s) :=
        match?_append_cons hq ht hmarker h
      rw [List.cons_append, scan, scan, hhere]
      cases hmatch : form.match? (c :: s) with
      | none => exact ih hs (Nat.zero_le _)
      | some o =>
        obtain ⟨_, _, _, _, htext⟩ := match?_eq_some_iff.mp hmatch
        have hle : o.text.length ≤ s.length + 1 := by
          rw [htext]
          exact List.length_take_le' _ _
        -- the text of a match lies in `c :: s`, so the search goes on within `s`
        simp only [ih hs (show o.text.length - 1 ≤ s.length by omega)]

end Local

/-! ## The forms that do not read a call -/

/-- A search passes over a text without an `i`. -/
theorem Form.scan_append_of_not_mem {form : Form} (hmarker : form.marker ∈ markers)
    {before : List Char} (h : 'i' ∉ before) (s : List Char) :
    form.scan 0 (before ++ s) = form.scan 0 s := by
  refine scan_append_of_not_opens hmarker fun back hback hne hopens => ?_
  obtain ⟨c, back, rfl⟩ := List.exists_cons_of_ne_nil hne
  obtain ⟨rest, hrest⟩ := hopens.exists_eq_cons
  obtain rfl : c = 'i' := (List.cons.inj hrest).1
  exact h (hback.mem List.mem_cons_self)

theorem Form.scan_of_length_le {form : Form} {s : List Char} {skip : Nat}
    (h : s.length ≤ skip) : form.scan skip s = [] := by
  induction s generalizing skip with
  | nil => rw [scan]
  | cons c s ih =>
    rw [List.length_cons] at h
    obtain ⟨skip, rfl⟩ : ∃ n, skip = n + 1 := ⟨skip - 1, by omega⟩
    rw [scan]
    exact ih (by omega)

theorem Layout.mem_lead {layout : Layout} {x : Char} (h : x ∈ layout.lead) :
    x = '(' ∨ x ∈ layout.blanks := by
  cases layout <;> grind [lead, blanks]

theorem Layout.mem_trail {layout : Layout} {x : Char} (h : x ∈ layout.trail) :
    x = ')' ∨ x = ',' ∨ x ∈ layout.blanks := by
  cases layout <;> grind [trail, blanks]

namespace Call
variable (c : Call) {form : Form}

theorem not_mem_lead : 'i' ∉ c.layout.lead := by
  intro hmem
  rcases Layout.mem_lead hmem with h | h
  · cases h
  · exact absurd (c.isBlank_of_mem _ h) (by decide)

theorem not_mem_trail : 'i' ∉ c.layout.trail := by
  intro hmem
  rcases Layout.mem_trail hmem with h | h | h
  · cases h
  · cases h
  · exact absurd (c.isBlank_of_mem _ h) (by decide)

theorem not_isQuote_of_mem_trail : ∀ x ∈ c.layout.trail, isQuote x = false := by
  intro x hx
  rcases Layout.mem_trail hx with rfl | rfl | h
  · rfl
  · rfl
  · exact not_isQuote_of_isBlank (c.isBlank_of_mem x h)

theorem isQuote_quote : isQuote c.quote = true := Layout.isQuote_of_mem_quotes c.quote_mem

theorem quote_ne : 'i' ≠ c.quote := by
  intro h
  have hq := c.isQuote_quote
  rw [← h] at hq
  cases hq

/-- The text of a call is an `i`, a part without another one, and the argument with what comes
behind it. -/
theorem exists_text_eq : ∃ before, 'i' ∉ before
    ∧ c.text = 'i' :: (before ++ (c.argument ++ c.quote :: c.layout.trail)) := by
  obtain ⟨hmarker, htail⟩ := marker_eq_cons c.marker_mem_markers
  refine ⟨c.marker.toList.tail ++ (c.layout.lead ++ [c.quote]), ?_, ?_⟩
  · simp [htail, c.not_mem_lead, c.quote_ne]
  · rw [text, hmarker]
    simp

/-- A form that reads a call finds its phrase and no other; any other form finds what it finds in
the argument. -/
theorem phrases_text (hmarker : form.marker ∈ markers) :
    form.phrases c.text = if c.ReadBy form then [c.phrase] else form.phrases c.argument := by
  obtain ⟨before, hbefore, htext⟩ := c.exists_text_eq
  have hmatch := c.match?_text hmarker []
  rw [List.append_nil] at hmatch
  by_cases hread : c.ReadBy form
  · rw [if_pos hread] at hmatch ⊢
    have hscan : form.occurrences c.text = [⟨c.text, c.quote, c.argument⟩] := by
      rw [htext] at hmatch ⊢
      rw [Form.occurrences, Form.scan, hmatch]
      simp only [List.cons.injEq, true_and]
      exact Form.scan_of_length_le (by simp)
    rw [Form.phrases, hscan, List.filterMap_cons_some c.phrase?_occurrence, List.filterMap_nil]
  · rw [if_neg hread] at hmatch ⊢
    have hout : 'i' ∉ c.quote :: c.layout.trail := by
      simp [c.quote_ne, c.not_mem_trail]
    have hscan : form.occurrences c.text = form.occurrences c.argument := by
      rw [htext] at hmatch ⊢
      rw [Form.occurrences, Form.scan, hmatch]
      exact (Form.scan_append_of_not_mem hmarker hbefore _).trans
        (Form.scan_append_cons c.isQuote_quote c.not_isQuote_of_mem_trail hmarker hout
          c.quote_not_mem (Nat.zero_le _))
    rw [Form.phrases, hscan, Form.phrases]

end Call

/-! ## Calls in the argument of a call -/

theorem Shape.length_of_argument? {shape : Shape} {s : List Char}
    {found : Char × List Char × List Char} (h : shape.argument? s = some found) :
    found.2.1.length < s.length := by
  have hquoted : ∀ {s found}, quoted? s = some found → found.2.1.length < s.length := by
    rintro s ⟨q, argument, rest⟩ h
    obtain ⟨-, -, rfl⟩ := quoted?_eq_some_iff.mp h
    simp only [List.length_cons, List.length_append]
    omega
  by_cases hshape : shape = .template
  · subst hshape
    obtain ⟨found', hfound', h⟩ := Option.bind_eq_some_iff.mp (argument?_template s ▸ h)
    split at h
    · cases h
      exact hquoted hfound'
    · cases h
  · rw [argument?_of_ne_template hshape] at h
    simp only [Option.bind_eq_some_iff] at h
    obtain ⟨behind, hopen, found', hfound', rest, -, h⟩ := h
    obtain rfl := after?_eq_some_iff.mp hopen
    have hlen := (shape.skipBefore_suffix behind).length_le
    have hlt := hquoted hfound'
    split at h
    · cases h
    · cases h
      simp only [List.length_append, List.length_cons] at hlt ⊢
      omega

/-- A phrase is shorter than the text in which a form finds it. -/
theorem Form.length_of_mem_phrases {form : Form} {s : List Char} {phrase : String}
    (h : phrase ∈ form.phrases s) : phrase.length < s.length := by
  obtain ⟨o, ho, hphrase⟩ := List.mem_filterMap.mp h
  obtain ⟨i, hmatch⟩ := exists_match?_of_mem_scan ho
  obtain ⟨behind, rest, hdrop, hfound, -⟩ := match?_eq_some_iff.mp hmatch
  have hlen := Shape.length_of_argument? hfound
  have hsum := congrArg List.length hdrop
  obtain ⟨-, rfl⟩ : o.argument ≠ [] ∧ String.ofList o.argument = phrase := by
    simpa [Occurrence.phrase?] using hphrase
  simp only [List.length_drop, List.length_append, String.length_ofList] at hsum hlen ⊢
  omega

theorem Call.not_mem_phrases_argument (c : Call) (form : Form) :
    c.phrase ∉ form.phrases c.argument := by
  intro h
  have hlen := Form.length_of_mem_phrases h
  rw [phrase, String.length_ofList] at hlen
  exact Nat.lt_irrefl _ hlen

theorem Call.exists_mem_phrases_iff (c : Call) (phrase : String) :
    (∃ m ∈ registry, phrase ∈ m.form.phrases c.text) ↔ phrase = c.phrase
      ∨ ∃ m ∈ registry, ¬ c.ReadBy m.form ∧ phrase ∈ m.form.phrases c.argument := by
  constructor
  · rintro ⟨m, hm, hphrase⟩
    rw [c.phrases_text (marker_mem_of_mem_registry hm)] at hphrase
    split at hphrase
    · exact .inl (List.mem_singleton.mp hphrase)
    · rename_i hread
      exact .inr ⟨m, hm, hread, hphrase⟩
  · rintro (rfl | ⟨m, hm, hread, hphrase⟩)
    · obtain ⟨m, hm, hread⟩ := c.exists_reader
      refine ⟨m, hm, ?_⟩
      rw [c.phrases_text (marker_mem_of_mem_registry hm), if_pos hread]
      exact List.mem_singleton_self _
    · refine ⟨m, hm, ?_⟩
      rw [c.phrases_text (marker_mem_of_mem_registry hm), if_neg hread]
      exact hphrase

/-- From the text of a call the registry takes its phrase, and what the forms that do not read the
call find in its argument; it takes the phrase alone exactly if they find nothing there. -/
theorem extract_call (c : Call) :
    ∃ phrases, extract registry c.text = .ok phrases ∧ phrases.Nodup
      ∧ (∀ phrase, phrase ∈ phrases ↔ phrase = c.phrase
          ∨ ∃ m ∈ registry, ¬ c.ReadBy m.form ∧ phrase ∈ m.form.phrases c.argument)
      ∧ (phrases = [c.phrase]
          ↔ ∀ m ∈ registry, ¬ c.ReadBy m.form → m.form.phrases c.argument = []) := by
  obtain ⟨phrases, hextract, hnodup, hmem⟩ := exists_extract_registry c.text
  have hphrases := fun phrase => (hmem phrase).trans (c.exists_mem_phrases_iff phrase)
  refine ⟨phrases, hextract, hnodup, hphrases, ?_, ?_⟩
  · intro hsingle m hm hread
    rw [List.eq_nil_iff_forall_not_mem]
    intro phrase hphrase
    -- a further phrase would be the call's own one, and its argument is too short to hold that
    have hfound := (hphrases phrase).mpr (.inr ⟨m, hm, hread, hphrase⟩)
    rw [hsingle, List.mem_singleton] at hfound
    exact c.not_mem_phrases_argument m.form (hfound ▸ hphrase)
  · intro hnone
    by_contra hne
    rcases (hnodup.ne_singleton_iff _).mp hne with hnil | ⟨phrase, hphrase, hother⟩
    · have hself := (hphrases c.phrase).mpr (.inl rfl)
      rw [hnil] at hself
      cases hself
    · rcases (hphrases phrase).mp hphrase with heq | ⟨m, hm, hread, hfound⟩
      · exact hother heq
      · rw [hnone m hm hread] at hfound
        cases hfound

/-- The text of a call of `i18n` whose argument holds a call of `i18nId`. -/
def nestedCall : Call :=
  ⟨"i18n", .direct, '"', "i18nId('x')".toList, by decide, Layout.isBlank_of_mem_direct, by decide,
    by decide, by decide⟩

theorem not_extract_only_outer_phrase :
    ¬ ∀ c : Call, extract registry c.text = .ok [c.phrase] := by
  intro h
  have hfound : extract registry nestedCall.text = .ok ["i18nId('x')", "x"] := by rfl
  have hphrase := Except.ok.inj (hfound.symm.trans (h nestedCall))
  revert hphrase
  decide

end PhraseCatalog.Marker
