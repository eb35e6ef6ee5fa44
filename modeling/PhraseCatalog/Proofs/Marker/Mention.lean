import PhraseCatalog.Proofs.Marker.Call

/-! Texts in which no calls begin but those of given phrases, whatever comes behind the text. Such
texts can be put together without making another call. -/

set_option autoImplicit false

namespace PhraseCatalog.Marker

open Text

/-! ## Openings without a call -/

/-- The text begins with a marker and a parenthesis, and what comes behind the parenthesis is
something other than a quoted argument. -/
def fails (s : List Char) : Bool :=
  markers.any fun marker => (after? (marker.toList ++ ['(']) s).any fun behind =>
    (trimStart behind).head?.any fun c => !isQuote c

theorem fails_iff {s : List Char} :
    fails s = true ↔ ∃ marker ∈ markers, ∃ behind c, s = marker.toList ++ '(' :: behind
      ∧ (trimStart behind).head? = some c ∧ isQuote c = false := by
  simp only [fails, List.any_eq_true, Option.any_eq_true, after?_eq_some_iff, Bool.not_eq_true',
    List.append_assoc, List.singleton_append]
  constructor
  · rintro ⟨marker, hmarker, behind, rfl, c, hc, hquote⟩
    exact ⟨marker, hmarker, behind, c, rfl, hc, hquote⟩
  · rintro ⟨marker, hmarker, behind, c, rfl, hc, hquote⟩
    exact ⟨marker, hmarker, behind, rfl, c, hc, hquote⟩

theorem Shape.argument?_eq_none (shape : Shape) {behind : List Char} {c : Char}
    (hhead : (trimStart behind).head? = some c) (hc : isQuote c = false) :
    shape.argument? ('(' :: behind) = none := by
  by_cases hshape : shape = .template
  · subst hshape
    rfl
  have hopen : after? ['('] ('(' :: behind) = some behind := rfl
  have hquoted : quoted? (shape.skipBefore behind) = none := by
    obtain ⟨rest, hrest⟩ := List.head?_eq_some_iff.mp hhead
    have hspaced : quoted? (trimStart behind) = none := by
      rw [hrest, quoted?_cons_of_not_isQuote hc]
    cases shape with
    | call =>
      cases behind with
      | nil => rfl
      | cons b behind =>
        refine quoted?_cons_of_not_isQuote ?_ behind
        cases hb : isBlank b with
        | true => exact not_isQuote_of_isBlank hb
        | false =>
          rw [trimStart, List.dropWhile_cons_of_neg (by simp [hb])] at hrest
          rw [(List.cons.inj hrest).1, hc]
    | template => exact absurd rfl hshape
    | spacedCall | trailingCommaCall => exact hspaced
  rw [argument?_of_ne_template hshape, hopen, Option.bind_some, hquoted]
  rfl

theorem Form.match?_eq_none_of_fails {form : Form} (hmarker : form.marker ∈ markers)
    {s : List Char} (h : fails s = true) : form.match? s = none := by
  obtain ⟨marker, hmem, behind, c, rfl, hhead, hc⟩ := fails_iff.mp h
  rw [Option.eq_none_iff_forall_ne_some]
  intro o ho
  obtain ⟨behind', rest, heq, hfound, -⟩ := match?_eq_some_iff.mp ho
  obtain ⟨c', tail, hc', rfl⟩ := Shape.opener_of_argument? hfound
  obtain ⟨-, hbehind⟩ := marker_inj hmem hmarker rfl hc' heq
  rw [← hbehind, form.shape.argument?_eq_none hhead hc] at hfound
  cases hfound

theorem fails_append {s : List Char} (h : fails s = true) (t : List Char) :
    fails (s ++ t) = true := by
  obtain ⟨marker, hmarker, behind, c, rfl, hhead, hc⟩ := fails_iff.mp h
  refine fails_iff.mpr ⟨marker, hmarker, behind ++ t, c, by simp, ?_, hc⟩
  obtain ⟨rest, hrest⟩ := List.head?_eq_some_iff.mp hhead
  unfold trimStart at hrest ⊢
  simp [List.dropWhile_append, hrest]

/-! ## Texts with calls of given phrases -/

/-- Whatever comes behind the text, a call at its beginning is of one of the phrases. -/
def StartsOnly (phrases : List String) (s : List Char) : Prop :=
  ∀ form : Form, form.marker ∈ markers → ∀ rest o phrase,
    form.match? (s ++ rest) = some o → o.phrase? = some phrase → phrase ∈ phrases

/-- Whatever comes behind the text, a call that begins in it is of one of the phrases. -/
def CallsOnly (phrases : List String) (s : List Char) : Prop :=
  ∀ i, Opens (s.drop i) → StartsOnly phrases (s.drop i)

section CallsOnly
variable {phrases : List String}

theorem startsOnly_of_fails {s : List Char} (h : fails s = true) : StartsOnly phrases s := by
  intro form hmarker rest o phrase hmatch
  rw [Form.match?_eq_none_of_fails hmarker (fails_append h rest)] at hmatch
  cases hmatch

theorem Call.startsOnly (c : Call) (h : c.phrase ∈ phrases) (s : List Char) :
    StartsOnly phrases (c.text ++ s) := by
  intro form hmarker rest o phrase hmatch hphrase
  rw [List.append_assoc, c.match?_text hmarker] at hmatch
  split at hmatch
  · cases hmatch
    rw [c.phrase?_occurrence] at hphrase
    exact Option.some.inj hphrase ▸ h
  · cases hmatch

theorem StartsOnly.append {s : List Char} (h : StartsOnly phrases s) (t : List Char) :
    StartsOnly phrases (s ++ t) := by
  intro form hmarker rest o phrase hmatch
  rw [List.append_assoc] at hmatch
  exact h form hmarker (t ++ rest) o phrase hmatch

theorem CallsOnly.extract {s : List Char} (h : CallsOnly phrases s) :
    ∃ found, extract registry s = .ok found ∧ ∀ phrase ∈ found, phrase ∈ phrases := by
  obtain ⟨found, hextract, -, hmem⟩ := exists_extract_registry s
  refine ⟨found, hextract, fun phrase hphrase => ?_⟩
  obtain ⟨m, hm, hfound⟩ := (hmem phrase).mp hphrase
  obtain ⟨o, ho, hphrase⟩ := List.mem_filterMap.mp hfound
  obtain ⟨i, hmatch⟩ := Form.exists_match?_of_mem_scan ho
  have hmarker := marker_mem_of_mem_registry hm
  refine h i (Form.opens_of_match? hmarker hmatch) m.form hmarker [] o phrase ?_ hphrase
  rwa [List.append_nil]

/-! ## Putting texts together -/

/-- The character belongs to no marker and opens no call. -/
def breaks (c : Char) : Bool :=
  !isOpener c && markers.all fun marker => !marker.toList.contains c

theorem opens_of_opens_append_cons {c : Char} (hc : breaks c = true) {s t : List Char}
    (h : Opens (s ++ c :: t)) : Opens s := by
  simp only [breaks, Bool.and_eq_true, Bool.not_eq_true', List.all_eq_true,
    List.contains_eq_mem, decide_eq_false_iff_not] at hc
  obtain ⟨hopener, hmarkers⟩ := hc
  obtain ⟨marker, hmarker, c', rest, hc', heq⟩ := h
  have hne : c' ≠ c := by
    rintro rfl
    rw [hopener] at hc'
    cases hc'
  -- `c` is not in the marker and not the opening behind it, so both lie before `c`
  rcases List.append_eq_append_iff.mp heq with ⟨more, hmore, hrest⟩ | ⟨more, rfl, hrest⟩
  · cases more with
    | nil => exact absurd (List.cons.inj hrest).1.symm hne
    | cons d more =>
      obtain rfl := (List.cons.inj hrest).1
      exact absurd (by simp [hmore]) (hmarkers marker hmarker)
  · cases more with
    | nil => exact absurd (List.cons.inj hrest).1 hne
    | cons d more =>
      obtain rfl := (List.cons.inj hrest).1
      exact ⟨marker, hmarker, c', more, hc', rfl⟩

theorem callsOnly_nil : CallsOnly phrases [] := by
  intro i h
  rw [List.drop_nil] at h
  exact absurd h not_opens_nil

theorem CallsOnly.append_cons {c : Char} (hc : breaks c = true) {s t : List Char}
    (hs : CallsOnly phrases s) (ht : CallsOnly phrases t) : CallsOnly phrases (s ++ c :: t) := by
  intro i h
  by_cases hi : i ≤ s.length
  · rw [List.drop_append_of_le_length hi] at h ⊢
    exact (hs i (opens_of_opens_append_cons hc h)).append _
  · obtain ⟨j, rfl⟩ : ∃ j, i = s.length + (j + 1) := ⟨i - s.length - 1, by omega⟩
    rw [List.drop_length_add_append, List.drop_succ_cons] at h ⊢
    exact ht j h

theorem callsOnly_cons_iff {c : Char} {s : List Char} : CallsOnly phrases (c :: s)
    ↔ (Opens (c :: s) → StartsOnly phrases (c :: s)) ∧ CallsOnly phrases s := by
  constructor
  · intro h
    exact ⟨h 0, fun i => h (i + 1)⟩
  · rintro ⟨hhere, hs⟩ i
    cases i with
    | zero => exact hhere
    | succ i => exact hs i

theorem CallsOnly.append_of_not_mem {p s : List Char} (hp : 'i' ∉ p)
    (hs : CallsOnly phrases s) : CallsOnly phrases (p ++ s) := by
  induction p with
  | nil => exact hs
  | cons c p ih =>
    simp only [List.mem_cons, not_or] at hp
    refine callsOnly_cons_iff.mpr ⟨fun hopens => ?_, ih hp.2⟩
    obtain ⟨rest, hrest⟩ := hopens.exists_eq_cons
    exact absurd (List.cons.inj hrest).1.symm hp.1

/-- The text can stand before every text that has calls of the phrases only. -/
def Inert (phrases : List String) (p : List Char) : Prop :=
  ∀ s, CallsOnly phrases s → CallsOnly phrases (p ++ s)

theorem Inert.callsOnly {p : List Char} (h : Inert phrases p) : CallsOnly phrases p := by
  have hself := h [] callsOnly_nil
  rwa [List.append_nil] at hself

theorem Inert.append {p p' : List Char} (h : Inert phrases p) (h' : Inert phrases p') :
    Inert phrases (p ++ p') := by
  intro s hs
  rw [List.append_assoc]
  exact h _ (h' s hs)

theorem inert_of_not_mem {p : List Char} (h : 'i' ∉ p) : Inert phrases p :=
  fun _ hs => hs.append_of_not_mem h

/-- A text with a breaking character at its end is kept apart from what comes behind it. -/
theorem CallsOnly.inert {p : List Char} {c : Char} (h : CallsOnly phrases (p ++ [c]))
    (hc : breaks c = true) : Inert phrases (p ++ [c]) := by
  intro s hs i hopens
  by_cases hi : i ≤ p.length
  · have hlen : i ≤ (p ++ [c]).length := by
      rw [List.length_append]
      omega
    rw [List.append_assoc, List.singleton_append, List.drop_append_of_le_length hi] at hopens
    have hpart : Opens ((p ++ [c]).drop i) := by
      rw [List.drop_append_of_le_length hi]
      exact (opens_of_opens_append_cons hc hopens).append [c]
    rw [List.drop_append_of_le_length hlen]
    exact (h i hpart).append s
  · obtain ⟨j, rfl⟩ : ∃ j, i = (p ++ [c]).length + j :=
      ⟨i - (p ++ [c]).length, by simp only [List.length_append, List.length_singleton]; omega⟩
    rw [List.drop_length_add_append] at hopens ⊢
    exact hs j hopens

theorem inert_intercalate {separator : List Char} (hseparator : Inert phrases separator)
    {pieces : List (List Char)} (h : ∀ p ∈ pieces, Inert phrases p) :
    Inert phrases (List.intercalate separator pieces) := by
  induction pieces with
  | nil => exact inert_of_not_mem List.not_mem_nil
  | cons p pieces ih =>
    have hrest := ih fun p' hp' => h p' (List.mem_cons_of_mem p hp')
    have hp := h p List.mem_cons_self
    cases pieces with
    | nil => simpa using hp
    | cons p' pieces =>
      rw [List.intercalate_cons_cons]
      exact (hp.append hseparator).append hrest

/-! ## Checking fixed texts -/

/-- The test of a text for having no calls, character by character. -/
def isIdle : List Char → Bool
  | [] => true
  | c :: s => (c ≠ 'i' || !decide (Opens (c :: s)) || fails (c :: s)) && isIdle s

theorem callsOnly_of_isIdle {s : List Char} (h : isIdle s = true) : CallsOnly phrases s := by
  induction s with
  | nil => exact callsOnly_nil
  | cons c s ih =>
    simp only [isIdle, Bool.and_eq_true, Bool.or_eq_true, decide_eq_true_eq,
      Bool.not_eq_true', decide_eq_false_iff_not] at h
    refine callsOnly_cons_iff.mpr ⟨fun hopens => ?_, ih h.2⟩
    rcases h.1 with (hne | hnot) | hfails
    · obtain ⟨rest, hrest⟩ := hopens.exists_eq_cons
      exact absurd (List.cons.inj hrest).1 hne
    · exact absurd hopens hnot
    · exact startsOnly_of_fails hfails

/-- A text that is given by its characters, without calls and with a breaking character at its
end. -/
theorem inert_of_isIdle {text : String} {s : List Char} (htext : text = String.ofList s)
    (h : (isIdle s && s.getLast?.any breaks) = true) : Inert phrases text.toList := by
  simp only [Bool.and_eq_true, Option.any_eq_true, List.getLast?_eq_some_iff] at h
  obtain ⟨hidle, c, ⟨p, rfl⟩, hc⟩ := h
  rw [htext, String.toList_ofList]
  exact (callsOnly_of_isIdle hidle).inert hc

end CallsOnly

end PhraseCatalog.Marker
