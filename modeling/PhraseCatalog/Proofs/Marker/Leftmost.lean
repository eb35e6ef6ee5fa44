import PhraseCatalog.Proofs.Marker.Call

/-! The search for a form on every text, against the form as it is written: the search lists written
occurrences from left to right, and passes over another one only where it begins inside one of the
list. A list with these properties is the only one. -/

set_option autoImplicit false

namespace PhraseCatalog.Marker

open Text

/-! ## Forms as they are written -/

/-- What may stand between the opening parenthesis and the argument. -/
def Shape.Leads : Shape → List Char → Prop
  | .call, before | .template, before => before = []
  | .spacedCall, before | .trailingCommaCall, before => ∀ c ∈ before, isBlank c = true

/-- What may stand between the argument and the closing parenthesis. -/
def Shape.Trails : Shape → List Char → Prop
  | .call, behind | .template, behind => behind = []
  | .spacedCall, behind => ∀ c ∈ behind, isBlank c = true
  | .trailingCommaCall, behind => (∀ c ∈ behind, isBlank c = true)
      ∨ ∃ after last, (∀ c ∈ after, isBlank c = true) ∧ (∀ c ∈ last, isBlank c = true)
          ∧ behind = after ++ ',' :: last

/-- The text behind the marker, from the opening parenthesis to the closing one; a template literal
stands without parentheses. -/
inductive Shape.Spells (q : Char) (argument : List Char) : Shape → List Char → Prop
  | parentheses {shape : Shape} {before behind : List Char} (hshape : shape ≠ .template)
      (hbefore : shape.Leads before) (hbehind : shape.Trails behind)
      (hargument : shape = .call → argument ≠ []) :
      Spells q argument shape ('(' :: (before ++ q :: (argument ++ q :: (behind ++ [')']))))
  | template (hquote : q = backQuote) (hargument : argument ≠ []) :
      Spells q argument .template (q :: (argument ++ [q]))

/-- The occurrence is a marker with a written argument, which is free of its own quote. -/
structure Form.Spells (form : Form) (o : Occurrence) : Prop where
  isQuote_quote : isQuote o.quote = true
  quote_notMem : o.quote ∉ o.argument
  exists_text_eq : ∃ behind, form.shape.Spells o.quote o.argument behind
    ∧ o.text = form.marker.toList ++ behind

/-! ## What a form matches -/

theorem Shape.skipBefore_eq_cons_iff (shape : Shape) {s t : List Char} {q : Char}
    (hq : isQuote q = true) :
    shape.skipBefore s = q :: t ↔ ∃ before, shape.Leads before ∧ s = before ++ q :: t := by
  cases shape with
  | call | template => simp [skipBefore, Leads]
  | spacedCall | trailingCommaCall => exact trimStart_eq_cons_iff (isBlank_of_isQuote hq)

theorem Shape.skipBehind_eq_cons_iff (shape : Shape) {s rest : List Char} :
    shape.skipBehind s = ')' :: rest
      ↔ ∃ behind, shape.Trails behind ∧ s = behind ++ ')' :: rest := by
  have hclose : isBlank ')' = false := by decide
  cases shape with
  | call | template => simp [skipBehind, Trails]
  | spacedCall => exact trimStart_eq_cons_iff hclose
  | trailingCommaCall =>
    constructor
    · intro h
      have hsplit : s = s.takeWhile isBlank ++ trimStart s :=
        List.takeWhile_append_dropWhile.symm
      have hblank : ∀ c ∈ s.takeWhile isBlank, isBlank c = true :=
        List.all_eq_true.mp List.all_takeWhile
      obtain ⟨blanks, hblanks, hrest⟩ := (trimStart_eq_cons_iff hclose).mp h
      generalize s.takeWhile isBlank = after at hsplit hblank
      rw [hsplit]
      by_cases hcomma : ∃ u, trimStart s = ',' :: u
      · obtain ⟨u, hu⟩ := hcomma
        obtain rfl : u = blanks ++ ')' :: rest := by rw [← hrest, hu]; rfl
        exact ⟨after ++ ',' :: blanks, .inr ⟨after, blanks, hblank, hblanks, rfl⟩, by simp [hu]⟩
      · have hskip : skipComma (trimStart s) = trimStart s := by
          unfold skipComma
          split
          · rename_i u hu
            exact absurd ⟨u, hu⟩ hcomma
          · rfl
        rw [hskip] at hrest
        refine ⟨after ++ blanks, .inl ?_, by rw [hrest, List.append_assoc]⟩
        exact List.forall_mem_append.mpr ⟨hblank, hblanks⟩
    · have hskip : ∀ {u}, after? [')'] (skipBehind .trailingCommaCall u) = some rest →
          skipBehind .trailingCommaCall u = ')' :: rest := fun h => after?_eq_some_iff.mp h
      rintro ⟨behind, hblank | ⟨after, last, hafter, hlast, rfl⟩, rfl⟩
      · exact hskip (after?_skipBehind (by decide) hblank rest)
      · rw [List.append_assoc, List.cons_append]
        exact hskip (after?_skipBehind_comma (by decide) hafter rest hlast)

/-- A shape takes an argument exactly as it is written. -/
theorem Shape.argument?_eq_some_iff (shape : Shape) {s argument rest : List Char} {q : Char} :
    shape.argument? s = some (q, argument, rest)
      ↔ isQuote q = true ∧ q ∉ argument
          ∧ ∃ text, shape.Spells q argument text ∧ s = text ++ rest := by
  by_cases hshape : shape = .template
  · subst hshape
    rw [argument?_template, Option.bind_eq_some_iff]
    constructor
    · rintro ⟨⟨q', argument', rest'⟩, hquoted, h⟩
      obtain ⟨hq, hfree, rfl⟩ := quoted?_eq_some_iff.mp hquoted
      split at h
      · rename_i hfound
        cases h
        exact ⟨hq, hfree, _, .template hfound.1 hfound.2, by simp⟩
      · cases h
    · rintro ⟨hq, hfree, text, hspells, rfl⟩
      cases hspells with
      | parentheses hshape => exact absurd rfl hshape
      | template hquote hargument =>
        refine ⟨(q, argument, rest), quoted?_eq_some_iff.mpr ⟨hq, hfree, by simp⟩, ?_⟩
        exact if_pos ⟨hquote, hargument⟩
  rw [argument?_of_ne_template hshape]
  simp only [Option.bind_eq_some_iff, after?_eq_some_iff, List.singleton_append]
  constructor
  · rintro ⟨inner, rfl, ⟨q', argument', tail⟩, hquoted, rest', hclose, h⟩
    obtain ⟨hq, hfree, hinner⟩ := quoted?_eq_some_iff.mp hquoted
    obtain ⟨before, hbefore, rfl⟩ := (shape.skipBefore_eq_cons_iff hq).mp hinner
    obtain ⟨behind, hbehind, rfl⟩ := shape.skipBehind_eq_cons_iff.mp hclose
    split at h
    · cases h
    · rename_i hargument
      cases h
      refine ⟨hq, hfree, _, .parentheses hshape hbefore hbehind ?_, by simp⟩
      exact fun hcall hnil => hargument ⟨hcall, hnil⟩
  · rintro ⟨hq, hfree, text, hspells, rfl⟩
    cases hspells with
    | template => exact absurd rfl hshape
    | @parentheses _ before behind _ hbefore hbehind hargument =>
      refine ⟨before ++ q :: (argument ++ q :: (behind ++ ')' :: rest)), by simp,
        (q, argument, behind ++ ')' :: rest), ?_, rest,
        shape.skipBehind_eq_cons_iff.mpr ⟨behind, hbehind, rfl⟩, ?_⟩
      · rw [(shape.skipBefore_eq_cons_iff hq).mpr ⟨before, hbefore, rfl⟩, quoted?_append hq hfree]
      · exact if_neg fun h => hargument h.1 h.2

/-- A form matches a text exactly where the text begins with a written occurrence. -/
theorem Form.match?_eq_some_iff_spells (form : Form) {s : List Char} {o : Occurrence} :
    form.match? s = some o ↔ form.Spells o ∧ o.text <+: s := by
  rw [match?_eq_some_iff]
  constructor
  · rintro ⟨behind, rest, rfl, hfound, htext⟩
    obtain ⟨hq, hfree, text, hspells, rfl⟩ := form.shape.argument?_eq_some_iff.mp hfound
    have hlen : (form.marker.toList ++ (text ++ rest)).length - rest.length
        = (form.marker.toList ++ text).length := by
      simp only [List.length_append]
      omega
    rw [hlen, ← List.append_assoc, List.take_left] at htext
    refine ⟨⟨hq, hfree, text, hspells, htext⟩, rest, ?_⟩
    rw [htext, List.append_assoc]
  · rintro ⟨⟨hq, hfree, text, hspells, htext⟩, rest, rfl⟩
    refine ⟨text ++ rest, rest, by rw [htext, List.append_assoc],
      form.shape.argument?_eq_some_iff.mpr ⟨hq, hfree, text, hspells, rfl⟩, ?_⟩
    rw [List.length_append, Nat.add_sub_cancel, List.take_left]

/-- The argument stands in the occurrence between two of its quotes. -/
theorem Form.Spells.exists_quoted {form : Form} {o : Occurrence} (h : form.Spells o) :
    ∃ before behind, o.text = before ++ o.quote :: (o.argument ++ o.quote :: behind) := by
  obtain ⟨text, hspells, htext⟩ := h.exists_text_eq
  generalize form.shape = shape at hspells
  cases hspells with
  | @parentheses _ before behind =>
    exact ⟨form.marker.toList ++ '(' :: before, behind ++ [')'], by simp [htext]⟩
  | template => exact ⟨form.marker.toList, [], by simp [htext]⟩

theorem Form.Spells.length_pos {form : Form} {o : Occurrence} (h : form.Spells o) :
    0 < o.text.length := by
  obtain ⟨before, behind, htext⟩ := h.exists_quoted
  rw [htext, List.length_append, List.length_cons]
  omega

/-! ## Leftmost scans -/

/-- An occurrence with the place in a text where it begins. -/
structure Found where
  start : Nat
  occurrence : Occurrence

namespace Found

def finish (p : Found) : Nat := p.start + p.occurrence.text.length

/-- The found text is an occurrence of the form as it is written, and stands in the text at its
place. -/
def Of (p : Found) (form : Form) (s : List Char) : Prop :=
  form.Spells p.occurrence ∧ p.occurrence.text <+: s.drop p.start

theorem of_iff_match? {p : Found} {form : Form} {s : List Char} :
    p.Of form s ↔ form.match? (s.drop p.start) = some p.occurrence :=
  form.match?_eq_some_iff_spells.symm

theorem Of.start_lt_finish {p : Found} {form : Form} {s : List Char} (h : p.Of form s) :
    p.start < p.finish := Nat.lt_add_of_pos_right h.1.length_pos

/-- At one place of a text there is at most one occurrence of a form. -/
theorem Of.eq_of_start_eq {p q : Found} {form : Form} {s : List Char} (hp : p.Of form s)
    (hq : q.Of form s) (h : p.start = q.start) : p = q := by
  rw [of_iff_match?] at hp hq
  rw [h, hq] at hp
  obtain ⟨start, occurrence⟩ := p
  cases h
  cases hp
  rfl

end Found

/-- The list is a scan of the text for the form from a place on: occurrences from left to right, each
behind the one before it, and every other occurrence begins strictly inside one of them. -/
structure Form.Scans (form : Form) (s : List Char) (start : Nat) (found : List Found) : Prop where
  of_mem : ∀ p ∈ found, p.Of form s ∧ start ≤ p.start
  ordered : found.Pairwise fun p q => p.finish ≤ q.start
  covered : ∀ p : Found, p.Of form s → start ≤ p.start →
    p ∈ found ∨ ∃ q ∈ found, q.start < p.start ∧ p.start < q.finish

namespace Form.Scans
variable {form : Form} {s : List Char} {start : Nat} {found : List Found}

theorem nil (h : s.length ≤ start) : form.Scans s start [] where
  of_mem := by simp
  ordered := .nil
  covered p hp hstart := by
    rw [Found.of_iff_match?, List.drop_eq_nil_of_le (by omega), match?_nil] at hp
    cases hp

/-- Where nothing is found at a place, the scan goes on at the next one. -/
theorem of_none (h : form.Scans s (start + 1) found)
    (hnone : form.match? (s.drop start) = none) : form.Scans s start found where
  of_mem p hp := ⟨(h.of_mem p hp).1, by have := (h.of_mem p hp).2; omega⟩
  ordered := h.ordered
  covered p hp hstart := by
    refine h.covered p hp (Nat.lt_of_le_of_ne hstart ?_)
    rintro rfl
    rw [Found.of_iff_match?, hnone] at hp
    cases hp

/-- Behind an occurrence the scan goes on at its end. -/
theorem cons {p : Found} (hp : p.Of form s) (h : form.Scans s p.finish found) :
    form.Scans s p.start (p :: found) where
  of_mem q hq := by
    rcases List.mem_cons.mp hq with rfl | hq
    · exact ⟨hp, Nat.le_refl _⟩
    · exact ⟨(h.of_mem q hq).1, Nat.le_trans (Nat.le_of_lt hp.start_lt_finish) (h.of_mem q hq).2⟩
  ordered := List.pairwise_cons.mpr ⟨fun q hq => (h.of_mem q hq).2, h.ordered⟩
  covered q hq hstart := by
    rcases Nat.eq_or_lt_of_le hstart with heq | hlt
    · exact .inl (hp.eq_of_start_eq hq heq ▸ List.mem_cons_self)
    by_cases hinside : q.start < p.finish
    · exact .inr ⟨p, List.mem_cons_self, hlt, hinside⟩
    · rcases h.covered q hq (by omega) with hmem | ⟨r, hr, hbounds⟩
      · exact .inl (List.mem_cons_of_mem p hmem)
      · exact .inr ⟨r, List.mem_cons_of_mem p hr, hbounds⟩

/-- The first of a scan begins before all other occurrences. -/
theorem start_le {p q : Found} (h : form.Scans s start (p :: found)) (hq : q.Of form s)
    (hstart : start ≤ q.start) : p.start ≤ q.start := by
  have hhead : ∀ r ∈ p :: found, p.start ≤ r.start := by
    intro r hr
    rcases List.mem_cons.mp hr with rfl | hr
    · exact Nat.le_refl _
    · have hp := (h.of_mem p List.mem_cons_self).1.start_lt_finish
      have hbehind := (List.pairwise_cons.mp h.ordered).1 r hr
      omega
  rcases h.covered q hq hstart with hmem | ⟨r, hr, hlt, -⟩
  · exact hhead q hmem
  · exact Nat.le_trans (hhead r hr) (Nat.le_of_lt hlt)

theorem tail {p : Found} (h : form.Scans s start (p :: found)) : form.Scans s p.finish found where
  of_mem q hq :=
    ⟨(h.of_mem q (List.mem_cons_of_mem p hq)).1, (List.pairwise_cons.mp h.ordered).1 q hq⟩
  ordered := (List.pairwise_cons.mp h.ordered).2
  covered q hq hstart := by
    have hp := h.of_mem p List.mem_cons_self
    have hlt := hp.1.start_lt_finish
    rcases h.covered q hq (by omega) with hmem | ⟨r, hr, hbounds⟩
    · rcases List.mem_cons.mp hmem with rfl | hmem
      · omega
      · exact .inl hmem
    · rcases List.mem_cons.mp hr with rfl | hr
      · omega
      · exact .inr ⟨r, hr, hbounds⟩

/-- A text has one scan for a form. -/
theorem eq {found' : List Found} (h : form.Scans s start found)
    (h' : form.Scans s start found') : found = found' := by
  induction found generalizing start found' with
  | nil =>
    cases found' with
    | nil => rfl
    | cons p found' =>
      have hp := h'.of_mem p List.mem_cons_self
      simpa using h.covered p hp.1 hp.2
  | cons p found ih =>
    have hp := h.of_mem p List.mem_cons_self
    cases found' with
    | nil => simpa using h'.covered p hp.1 hp.2
    | cons q found' =>
      have hq := h'.of_mem q List.mem_cons_self
      have hstart := Nat.le_antisymm (h.start_le hq.1 hq.2) (h'.start_le hp.1 hp.2)
      obtain rfl := hp.1.eq_of_start_eq hq.1 hstart
      rw [ih h.tail h'.tail]

end Form.Scans

/-- The search from a place on is a scan from there. -/
theorem Form.exists_scans (form : Form) (t : List Char) (skip : Nat) (s : List Char) (start : Nat)
    (hs : t.drop start = s) : ∃ found, form.Scans t (start + skip) found
      ∧ found.map (·.occurrence) = form.scan skip s := by
  have hnext : ∀ {start : Nat} {c : Char} {rest : List Char}, t.drop start = c :: rest →
      t.drop (start + 1) = rest := by
    intro start c rest h
    rw [← List.drop_drop, h, List.drop_succ_cons, List.drop_zero]
  fun_induction scan form skip s generalizing start with
  | case1 skip =>
    refine ⟨[], .nil ?_, rfl⟩
    have := List.drop_eq_nil_iff.mp hs
    omega
  | case2 skip c rest ih =>
    obtain ⟨found, hscans, hmap⟩ := ih (start + 1) (hnext hs)
    exact ⟨found, by rwa [Nat.add_right_comm] at hscans, hmap⟩
  | case3 c rest o ho ih =>
    obtain ⟨found, hscans, hmap⟩ := ih (start + 1) (hnext hs)
    have hhere : Found.Of ⟨start, o⟩ form t := Found.of_iff_match?.mpr (hs ▸ ho)
    have hfinish : start + 1 + (o.text.length - 1) = Found.finish ⟨start, o⟩ := by
      have := hhere.1.length_pos
      simp only [Found.finish] at this ⊢
      omega
    rw [hfinish] at hscans
    exact ⟨⟨start, o⟩ :: found, hscans.cons hhere, by rw [List.map_cons, hmap]⟩
  | case4 c rest hnone ih =>
    obtain ⟨found, hscans, hmap⟩ := ih (start + 1) (hnext hs)
    exact ⟨found, hscans.of_none (hs ▸ hnone), hmap⟩

/-- The phrases of a form are the arguments of its scan that are not empty, in the order of the
text. -/
theorem Form.phrases_of_scans {form : Form} {s : List Char} {found : List Found}
    (h : form.Scans s 0 found) :
    form.phrases s = found.filterMap fun p => p.occurrence.phrase? := by
  obtain ⟨found', hscans, hmap⟩ := form.exists_scans s 0 s 0 rfl
  obtain rfl := h.eq hscans
  rw [phrases, occurrences, ← hmap, List.filterMap_map]
  rfl

theorem Occurrence.phrase?_eq_some_iff {o : Occurrence} {phrase : String} :
    o.phrase? = some phrase ↔ o.argument ≠ [] ∧ String.ofList o.argument = phrase := by
  simp [phrase?]

/-- A phrase of a form is the argument of an occurrence, and so stands between two equal quotes. -/
theorem Form.exists_of_mem_phrases {form : Form} {s : List Char} {phrase : String}
    (h : phrase ∈ form.phrases s) : phrase ≠ "" ∧ ∃ p : Found, p.Of form s
      ∧ String.ofList p.occurrence.argument = phrase
      ∧ p.occurrence.quote :: (phrase.toList ++ [p.occurrence.quote]) <:+: s := by
  obtain ⟨found, hscans, -⟩ := form.exists_scans s 0 s 0 rfl
  rw [phrases_of_scans hscans] at h
  obtain ⟨p, hp, hphrase⟩ := List.mem_filterMap.mp h
  obtain ⟨hne, rfl⟩ := Occurrence.phrase?_eq_some_iff.mp hphrase
  have hof := (hscans.of_mem p hp).1
  refine ⟨by simpa using hne, p, hof, rfl, ?_⟩
  obtain ⟨before, behind, htext⟩ := hof.1.exists_quoted
  have hquoted : p.occurrence.quote :: (p.occurrence.argument ++ [p.occurrence.quote])
      <:+: p.occurrence.text := ⟨before, behind, by simp [htext]⟩
  rw [String.toList_ofList]
  exact hquoted.trans (hof.2.isInfix.trans (List.drop_suffix _ s).isInfix)

/-- Each matcher of the registry yields the arguments of the one leftmost scan for its form; so what
the registry finds in a text are texts between two equal quotes in written calls, each once. -/
theorem registry_scans_leftmost (s : List Char) :
    (∀ m ∈ registry, ∃ found, m.form.Scans s 0 found
        ∧ (∀ other, m.form.Scans s 0 other → other = found)
        ∧ m.phrases s = .ok (found.filterMap fun p => p.occurrence.phrase?))
      ∧ ∃ phrases, extract registry s = .ok phrases ∧ phrases.Nodup
        ∧ ∀ phrase ∈ phrases, phrase ≠ "" ∧ ∃ m ∈ registry, ∃ p : Found, p.Of m.form s
            ∧ String.ofList p.occurrence.argument = phrase
            ∧ p.occurrence.quote :: (phrase.toList ++ [p.occurrence.quote]) <:+: s := by
  constructor
  · intro m hm
    obtain ⟨found, hscans, -⟩ := m.form.exists_scans s 0 s 0 rfl
    refine ⟨found, hscans, fun other hother => hother.eq hscans, ?_⟩
    rw [m.phrases_of_mem_registry hm, Form.phrases_of_scans hscans]
  · obtain ⟨phrases, hextract, hnodup, hmem⟩ := exists_extract_registry s
    refine ⟨phrases, hextract, hnodup, fun phrase hphrase => ?_⟩
    obtain ⟨m, hm, hfound⟩ := (hmem phrase).mp hphrase
    obtain ⟨hne, hplace⟩ := Form.exists_of_mem_phrases hfound
    exact ⟨hne, m, hm, hplace⟩

/-- A line whose first call is not closed; the next one begins in what would be its argument. -/
def brokenLine : List Char := "i18n(\"open i18n(\n'a' , ) i18n('') i18nKey(\x60b\x60".toList

theorem registry_scans_leftmost_broken :
    .ofShape .trailingCommaCall "i18n" ∈ registry
      ∧ ∃ found, Form.Scans ⟨"i18n", .trailingCommaCall⟩ brokenLine 0 found
        ∧ found.filterMap (fun p => p.occurrence.phrase?) = ["a"] := by
  have hm : .ofShape .trailingCommaCall "i18n" ∈ registry := by decide
  obtain ⟨found, hscans, -, hphrases⟩ := (registry_scans_leftmost brokenLine).1 _ hm
  have hfound : Matcher.phrases (.ofShape .trailingCommaCall "i18n") brokenLine = .ok ["a"] := by
    rfl
  exact ⟨hm, found, hscans, Except.ok.inj (hphrases.symm.trans hfound)⟩

end PhraseCatalog.Marker
