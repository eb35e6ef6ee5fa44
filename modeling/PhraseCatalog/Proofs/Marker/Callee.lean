import Mathlib.Data.List.DropRight
import PhraseCatalog.Proofs.Marker.Leftmost
import PhraseCatalog.Proofs.Marker.Placed
import PhraseCatalog.Text.Letter

/-! The names of the functions that are called where the registry finds its phrases. A form looks for
its marker and not for a name, so that it reads a name by its end: each phrase is an argument of a call
whose name ends with a marker, and what a name has before the marker makes no difference. -/

set_option autoImplicit false

namespace PhraseCatalog.Marker

open Text

/-! ## Names in a text -/

/-- Whether the character may stand in the name of a function. -/
def isNameCharacter (c : Char) : Bool := isLetter c || isDigit c || c = '_' || c = '$'

/-- The longest name that ends at a place of the text. -/
def nameAt (s : List Char) (place : Nat) : List Char := (s.take place).rtakeWhile isNameCharacter

/-- A call opens at the place, and the function that it calls has this name. -/
def Calls (s : List Char) (place : Nat) (name : List Char) : Prop :=
  (∃ c rest, isOpener c = true ∧ s.drop place = c :: rest) ∧ nameAt s place = name

theorem isNameCharacter_of_mem_marker {marker : String} (h : marker ∈ markers) :
    ∀ c ∈ marker.toList, isNameCharacter c = true := by
  have hall : ∀ marker ∈ markers, marker.toList.all isNameCharacter = true := by decide +kernel
  exact List.all_eq_true.mp (hall marker h)

theorem not_isOpener_of_isNameCharacter {c : Char} (h : isNameCharacter c = true) :
    (!isOpener c) = true := by
  have hnone : isNameCharacter '(' = false ∧ isNameCharacter backQuote = false := by decide +kernel
  by_contra hopener
  simp only [isOpener, Bool.not_eq_true', Bool.not_eq_false, Bool.or_eq_true,
    decide_eq_true_eq] at hopener
  rcases hopener with rfl | rfl
  · rw [hnone.1] at h
    cases h
  · rw [hnone.2] at h
    cases h

/-- Characters of a name that stand behind a place belong to the name that ends behind them. -/
theorem nameAt_add {s word rest : List Char} {place : Nat}
    (hword : ∀ c ∈ word, isNameCharacter c = true) (h : s.drop place = word ++ rest) :
    nameAt s (place + word.length) = nameAt s place ++ word := by
  have htake : s.take (place + word.length) = s.take place ++ word := by
    rw [List.take_add, h, List.take_left]
  have hword' : ∀ c ∈ word.reverse, isNameCharacter c = true := by simpa using hword
  rw [nameAt, nameAt, htake, List.rtakeWhile, List.rtakeWhile, List.reverse_append,
    List.takeWhile_append_of_pos hword', List.reverse_append, List.reverse_reverse]

/-! ## The names that a form reads -/

/-- What a form finds is a call, and the name in it ends with the form's marker. -/
theorem Found.Of.calls {p : Found} {form : Form} {s : List Char} (h : p.Of form s)
    (hmarker : form.marker ∈ markers) : Calls s (p.start + form.marker.toList.length)
      (nameAt s p.start ++ form.marker.toList) := by
  obtain ⟨behind, rest, hdrop, hfound, -⟩ :=
    Form.match?_eq_some_iff.mp (Found.of_iff_match?.mp h)
  obtain ⟨c, behind, hc, rfl⟩ := Shape.opener_of_argument? hfound
  refine ⟨⟨c, behind, hc, ?_⟩, nameAt_add (isNameCharacter_of_mem_marker hmarker) hdrop⟩
  rw [← List.drop_drop, hdrop, List.drop_left]

/-- No marker is the end of another one. -/
theorem eq_nil_of_append_marker {word : List Char} {marker marker' : String}
    (h : marker ∈ markers) (h' : marker' ∈ markers)
    (heq : marker'.toList = word ++ marker.toList) : word = [] := by
  have hends : ∀ marker ∈ markers, ∀ marker' ∈ markers,
      marker.toList <:+ marker'.toList → marker'.toList.length = marker.toList.length := by
    decide
  have hlen := hends marker h marker' h' ⟨word, heq.symm⟩
  rw [heq, List.length_append] at hlen
  exact List.eq_nil_of_length_eq_zero (by omega)

/-- In a name no call opens before the marker at its end. -/
theorem not_opens_append_of_name {word s : List Char} (hne : word ≠ [])
    (hword : ∀ c ∈ word, isNameCharacter c = true) (hs : Opens s) : ¬ Opens (word ++ s) := by
  obtain ⟨marker, hmarker, c, rest, hc, rfl⟩ := hs
  rintro ⟨marker', hmarker', c', rest', hc', heq⟩
  have hname : ∀ c ∈ word ++ marker.toList, (!isOpener c) = true :=
    List.forall_mem_append.mpr ⟨fun c h => not_isOpener_of_isNameCharacter (hword c h),
      not_isOpener_of_mem_marker hmarker⟩
  rw [← List.append_assoc] at heq
  exact hne (eq_nil_of_append_marker hmarker hmarker' (before_opener_inj hname
    (not_isOpener_of_mem_marker hmarker') hc hc' heq).symm)

/-- What stands before the marker in a name makes no difference. -/
theorem extract_append_of_name {word s : List Char} (hword : ∀ c ∈ word, isNameCharacter c = true)
    (hs : Opens s) : extract registry (word ++ s) = extract registry s := by
  have hphrases : ∀ m ∈ registry, m.form.phrases (word ++ s) = m.form.phrases s := by
    intro m hm
    have hscan : m.form.occurrences (word ++ s) = m.form.occurrences s :=
      Form.scan_append_of_not_opens (marker_mem_of_mem_registry hm) fun back hback hne =>
        not_opens_append_of_name hne (fun c hc => hword c (hback.mem hc)) hs
    rw [Form.phrases, hscan, Form.phrases]
  rw [extract_registry, extract_registry, List.map_congr_left hphrases]

/-- Each phrase that the registry finds is an argument of a call whose name ends with a marker, and a
name is read by its end alone: before a text that begins with a marker call, further characters of the
name change nothing. So where no called name has a marker at its end but the markers themselves, each
phrase is an argument of a call of a marker, and where none has one, nothing is found. -/
theorem registry_reads_names_by_end (s : List Char) :
    (∃ phrases, extract registry s = .ok phrases
      ∧ (∀ phrase ∈ phrases, ∃ m ∈ registry, ∃ p : Found, p.Of m.form s
          ∧ String.ofList p.occurrence.argument = phrase
          ∧ Calls s (p.start + m.form.marker.toList.length)
            (nameAt s p.start ++ m.form.marker.toList))
      ∧ ((∀ place name, Calls s place name → ∀ marker ∈ markers, marker.toList <:+ name →
            name = marker.toList) →
          ∀ phrase ∈ phrases, ∃ m ∈ registry, ∃ p : Found, p.Of m.form s
            ∧ String.ofList p.occurrence.argument = phrase
            ∧ Calls s (p.start + m.form.marker.toList.length) m.form.marker.toList)
      ∧ ((∀ place name, Calls s place name → ∀ marker ∈ markers, ¬ marker.toList <:+ name) →
          phrases = []))
    ∧ ∀ word, (∀ c ∈ word, isNameCharacter c = true) → Opens s →
      extract registry (word ++ s) = extract registry s := by
  obtain ⟨phrases, hextract, -, hmem⟩ := exists_extract_registry s
  have hcalls : ∀ phrase ∈ phrases, ∃ m ∈ registry, ∃ p : Found, p.Of m.form s
      ∧ String.ofList p.occurrence.argument = phrase
      ∧ Calls s (p.start + m.form.marker.toList.length)
        (nameAt s p.start ++ m.form.marker.toList) := by
    intro phrase hphrase
    obtain ⟨m, hm, hfound⟩ := (hmem phrase).mp hphrase
    obtain ⟨-, p, hof, hargument, -⟩ := Form.exists_of_mem_phrases hfound
    exact ⟨m, hm, p, hof, hargument, hof.calls (marker_mem_of_mem_registry hm)⟩
  refine ⟨⟨phrases, hextract, hcalls, fun honly phrase hphrase => ?_, fun hnone => ?_⟩,
    fun word => extract_append_of_name⟩
  · obtain ⟨m, hm, p, hof, hargument, hname⟩ := hcalls phrase hphrase
    have hmarker := honly _ _ hname _ (marker_mem_of_mem_registry hm) (List.suffix_append _ _)
    rw [hmarker] at hname
    exact ⟨m, hm, p, hof, hargument, hname⟩
  · rw [List.eq_nil_iff_forall_not_mem]
    intro phrase hphrase
    obtain ⟨m, hm, p, -, -, hname⟩ := hcalls phrase hphrase
    exact hnone _ _ hname _ (marker_mem_of_mem_registry hm) (List.suffix_append _ _)

/-- A call of a function whose name ends with a marker. -/
def foreignLine : List Char := "myi18n(\"x\")".toList

theorem not_only_markers_called :
    ¬ ∀ s phrases, extract registry s = .ok phrases → ∀ phrase ∈ phrases,
      ∃ m ∈ registry, ∃ p : Found, p.Of m.form s ∧ String.ofList p.occurrence.argument = phrase
        ∧ Calls s (p.start + m.form.marker.toList.length) m.form.marker.toList := by
  intro h
  have hextract : extract registry foreignLine = .ok ["x"] := by rfl
  obtain ⟨m, hm, p, hof, -, -, hname⟩ := h foreignLine ["x"] hextract "x" (by simp)
  have hmarker := marker_mem_of_mem_registry hm
  have hopens := Form.opens_of_match? hmarker (Found.of_iff_match?.mp hof)
  have honly : ∀ i < foreignLine.length, Opens (foreignLine.drop i) → i = 2 := by decide
  have hstart := honly p.start (lt_length_of_opens_drop hopens) hopens
  obtain ⟨-, hlong⟩ := hof.calls hmarker
  have hfront : nameAt foreignLine 2 = ['m', 'y'] := by decide +kernel
  rw [hname, hstart, hfront] at hlong
  have hlen := congrArg List.length hlong
  rw [List.length_append, List.length_cons] at hlen
  omega

end PhraseCatalog.Marker
