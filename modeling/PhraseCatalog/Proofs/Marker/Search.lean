import PhraseCatalog.Marker.Matcher
import PhraseCatalog.Proofs.Text.Distinct
import PhraseCatalog.Proofs.Text.Pieces

/-! What a search for marker calls finds: matches begin at a marker with an opening parenthesis or a
back quote directly behind it, and where no two matches overlap a search finds all of them. -/

set_option autoImplicit false

namespace PhraseCatalog.Marker

open Text

/-! ## Where a match can begin -/

def markers : List String := ["i18n", "i18nId", "i18nKey", "i18nObj"]

def isOpener (c : Char) : Bool := c = '(' || c = backQuote

/-- The text begins with a marker, and directly behind it there is an opening parenthesis or a back
quote. -/
def Opens (s : List Char) : Prop :=
  ∃ marker ∈ markers, ∃ c rest, isOpener c = true ∧ s = marker.toList ++ c :: rest

theorem opens_iff_any {s : List Char} :
    Opens s ↔ (markers.any fun marker =>
      (after? marker.toList s).any fun behind => behind.head?.any isOpener) = true := by
  simp only [Opens, List.any_eq_true, Option.any_eq_true, after?_eq_some_iff,
    List.head?_eq_some_iff]
  constructor
  · rintro ⟨marker, hmarker, c, rest, hc, rfl⟩
    exact ⟨marker, hmarker, c :: rest, rfl, c, ⟨rest, rfl⟩, hc⟩
  · rintro ⟨marker, hmarker, behind, rfl, c, ⟨rest, rfl⟩, hc⟩
    exact ⟨marker, hmarker, c, rest, hc, rfl⟩

instance (s : List Char) : Decidable (Opens s) := decidable_of_iff _ opens_iff_any.symm

theorem Opens.append {s : List Char} (h : Opens s) (t : List Char) : Opens (s ++ t) := by
  obtain ⟨marker, hmarker, c, rest, hc, rfl⟩ := h
  exact ⟨marker, hmarker, c, rest ++ t, hc, by simp⟩

theorem not_opens_nil : ¬ Opens [] := by decide

theorem marker_eq_cons {marker : String} (h : marker ∈ markers) :
    marker.toList = 'i' :: marker.toList.tail ∧ 'i' ∉ marker.toList.tail := by
  revert marker
  decide

theorem Opens.exists_eq_cons {s : List Char} (h : Opens s) : ∃ rest, s = 'i' :: rest := by
  obtain ⟨marker, hmarker, c, rest, -, rfl⟩ := h
  exact ⟨marker.toList.tail ++ c :: rest, by rw [← List.cons_append, ← (marker_eq_cons hmarker).1]⟩

theorem not_opens_drop_of_not_mem {s : List Char} (h : 'i' ∉ s) (i : Nat) : ¬ Opens (s.drop i) := by
  intro hopens
  obtain ⟨rest, hrest⟩ := hopens.exists_eq_cons
  have hmem : 'i' ∈ s.drop i := by simp [hrest]
  exact h (List.mem_of_mem_drop hmem)

theorem not_isOpener_of_mem_marker {marker : String} (h : marker ∈ markers) :
    ∀ c ∈ marker.toList, (!isOpener c) = true := by
  have hall : ∀ marker ∈ markers, (marker.toList.all fun c => !isOpener c) = true := by decide
  exact List.all_eq_true.mp (hall marker h)

/-- What stands before the first opening in a text is determined by the text. -/
theorem before_opener_inj {word word' : List Char} (h : ∀ c ∈ word, (!isOpener c) = true)
    (h' : ∀ c ∈ word', (!isOpener c) = true) {c c' : Char} (hc : isOpener c = true)
    (hc' : isOpener c' = true) {s s' : List Char} (heq : word ++ c :: s = word' ++ c' :: s') :
    word = word' := by
  have htake := congrArg (List.takeWhile fun x => !isOpener x) heq
  rw [List.takeWhile_append_of_pos h, List.takeWhile_append_of_pos h'] at htake
  simpa only [List.takeWhile_cons, hc, hc', Bool.not_true, Bool.false_eq_true, if_false,
    List.append_nil] using htake

/-- A marker and what is behind it are determined by the text. -/
theorem marker_inj {marker marker' : String} (h : marker ∈ markers) (h' : marker' ∈ markers)
    {c c' : Char} (hc : isOpener c = true) (hc' : isOpener c' = true) {s s' : List Char}
    (heq : marker.toList ++ c :: s = marker'.toList ++ c' :: s') :
    marker = marker' ∧ c :: s = c' :: s' := by
  obtain rfl := String.toList_inj.mp (before_opener_inj (not_isOpener_of_mem_marker h)
    (not_isOpener_of_mem_marker h') hc hc' heq)
  exact ⟨rfl, List.append_cancel_left heq⟩

/-! ## Arguments -/

theorem quoted?_append {q : Char} (hq : isQuote q = true) {argument : List Char}
    (h : q ∉ argument) (rest : List Char) :
    quoted? (q :: (argument ++ q :: rest)) = some (q, argument, rest) := by
  rw [quoted?, if_pos hq, dropWhile_ne_append rest h, takeWhile_ne_append rest h]

theorem quoted?_cons_of_not_isQuote {c : Char} (h : isQuote c = false) (rest : List Char) :
    quoted? (c :: rest) = none := by
  simp [quoted?, h]

theorem quoted?_cons_of_not_mem {c : Char} {s : List Char} (h : c ∉ s) :
    quoted? (c :: s) = none := by
  rw [quoted?, dropWhile_ne_of_notMem h]
  exact ite_self none

theorem quoted?_eq_some_iff {s argument rest : List Char} {q : Char} :
    quoted? s = some (q, argument, rest)
      ↔ isQuote q = true ∧ q ∉ argument ∧ s = q :: (argument ++ q :: rest) := by
  constructor
  · intro h
    cases s with
    | nil => cases h
    | cons c s =>
      cases hc : isQuote c with
      | false =>
        rw [quoted?_cons_of_not_isQuote hc] at h
        cases h
      | true =>
        by_cases hmem : c ∈ s
        · obtain ⟨before, behind, rfl, hfree⟩ := List.eq_append_cons_of_mem hmem
          rw [quoted?_append hc hfree] at h
          cases h
          exact ⟨hc, hfree, rfl⟩
        · rw [quoted?_cons_of_not_mem hmem] at h
          cases h
  · rintro ⟨hq, hfree, rfl⟩
    exact quoted?_append hq hfree rest

theorem isBlank_of_isQuote {q : Char} (h : isQuote q = true) : isBlank q = false := by
  simp only [isQuote, Bool.or_eq_true, decide_eq_true_eq] at h
  rcases h with (rfl | rfl) | rfl <;> decide

theorem not_isQuote_of_isBlank {c : Char} (h : isBlank c = true) : isQuote c = false := by
  rw [Bool.eq_false_iff]
  intro hquote
  rw [isBlank_of_isQuote hquote] at h
  cases h

/-- What a shape leaves in front of its argument. -/
def Shape.skipBefore (shape : Shape) (s : List Char) : List Char :=
  match shape with
  | .call | .template => s
  | .spacedCall | .trailingCommaCall => trimStart s

/-- What a shape leaves between its argument and the closing parenthesis. -/
def Shape.skipBehind (shape : Shape) (s : List Char) : List Char :=
  match shape with
  | .call | .template => s
  | .spacedCall => trimStart s
  | .trailingCommaCall => trimStart (skipComma (trimStart s))

/-- The shapes with parentheses differ in what they pass over, and in empty arguments. -/
theorem Shape.argument?_of_ne_template {shape : Shape} (h : shape ≠ .template) (s : List Char) :
    shape.argument? s = (after? ['('] s).bind fun s =>
      (quoted? (shape.skipBefore s)).bind fun found =>
        (after? [')'] (shape.skipBehind found.2.2)).bind fun rest =>
          if shape = .call ∧ found.2.1 = [] then none else some (found.1, found.2.1, rest) := by
  cases shape with
  | template => exact absurd rfl h
  | call =>
    simp only [argument?, skipBefore, skipBehind, Option.bind_eq_bind, List.isEmpty_iff,
      true_and]
  | _ =>
    simp only [argument?, skipBefore, skipBehind, Option.bind_eq_bind, reduceCtorEq, false_and,
      if_false]

theorem Shape.argument?_template (s : List Char) :
    Shape.template.argument? s = (quoted? s).bind fun found =>
      if found.1 = backQuote ∧ found.2.1 ≠ [] then some found else none :=
  rfl

theorem Shape.opener_of_argument? {shape : Shape} {s : List Char}
    {found : Char × List Char × List Char} (h : shape.argument? s = some found) :
    ∃ c rest, isOpener c = true ∧ s = c :: rest := by
  by_cases hshape : shape = .template
  · subst hshape
    simp only [argument?_template, Option.bind_eq_some_iff] at h
    obtain ⟨⟨q, argument, rest⟩, hquoted, h⟩ := h
    obtain ⟨-, -, rfl⟩ := quoted?_eq_some_iff.mp hquoted
    split at h
    · rename_i hq
      obtain ⟨rfl, -⟩ : q = backQuote ∧ argument ≠ [] := hq
      exact ⟨backQuote, _, rfl, rfl⟩
    · cases h
  · rw [argument?_of_ne_template hshape, Option.bind_eq_some_iff] at h
    obtain ⟨rest, hrest, -⟩ := h
    exact ⟨'(', rest, rfl, after?_eq_some_iff.mp hrest⟩

theorem Form.match?_eq_some_iff {form : Form} {s : List Char} {o : Occurrence} :
    form.match? s = some o ↔ ∃ behind rest, s = form.marker.toList ++ behind
      ∧ form.shape.argument? behind = some (o.quote, o.argument, rest)
      ∧ o.text = s.take (s.length - rest.length) := by
  obtain ⟨text, quote, argument⟩ := o
  simp only [match?, Option.bind_eq_bind, Option.bind_eq_some_iff, after?_eq_some_iff,
    Option.some.injEq, Occurrence.mk.injEq]
  constructor
  · rintro ⟨behind, rfl, ⟨q, a, rest⟩, hfound, rfl, rfl, rfl⟩
    exact ⟨behind, rest, rfl, hfound, rfl⟩
  · rintro ⟨behind, rest, rfl, hfound, rfl⟩
    exact ⟨behind, rfl, (quote, argument, rest), hfound, rfl, rfl, rfl⟩

theorem Form.opens_of_match? {form : Form} (hmarker : form.marker ∈ markers) {s : List Char}
    {o : Occurrence} (h : form.match? s = some o) : Opens s := by
  obtain ⟨behind, rest, rfl, hfound, -⟩ := match?_eq_some_iff.mp h
  obtain ⟨c, behind, hc, rfl⟩ := Shape.opener_of_argument? hfound
  exact ⟨form.marker, hmarker, c, behind, hc, rfl⟩

/-! ## What a scan finds -/

/-- Of two matches the later one begins behind the earlier one. -/
def Form.Separate (form : Form) (s : List Char) : Prop :=
  ∀ i j o o', i < j → form.match? (s.drop i) = some o → form.match? (s.drop j) = some o' →
    i + o.text.length ≤ j

theorem Form.Separate.tail {form : Form} {c : Char} {s : List Char}
    (h : form.Separate (c :: s)) : form.Separate s := by
  intro i j o o' hij ho ho'
  have hlater := h (i + 1) (j + 1) o o' (by omega) ho ho'
  omega

theorem Form.match?_nil (form : Form) : form.match? [] = none := by
  rw [Option.eq_none_iff_forall_ne_some]
  intro o ho
  obtain ⟨behind, rest, hnil, hfound, -⟩ := match?_eq_some_iff.mp ho
  obtain ⟨c, tail, -, rfl⟩ := Shape.opener_of_argument? hfound
  simp at hnil

theorem Form.match?_eq_none_of_not_opens {form : Form} (hmarker : form.marker ∈ markers)
    {s : List Char} (h : ¬ Opens s) : form.match? s = none := by
  rw [Option.eq_none_iff_forall_ne_some]
  intro o ho
  exact h (opens_of_match? hmarker ho)

/-- Where no two matches overlap, a scan finds every match behind the characters that it skips. -/
theorem Form.mem_scan_iff {form : Form} {s : List Char} (h : form.Separate s) (skip : Nat)
    (o : Occurrence) :
    o ∈ form.scan skip s ↔ ∃ i, skip ≤ i ∧ form.match? (s.drop i) = some o := by
  induction s generalizing skip with
  | nil => simp [scan, match?_nil]
  | cons c s ih =>
    have hshift : ∀ n, (∃ i, n ≤ i ∧ form.match? (s.drop i) = some o)
        ↔ ∃ i, n + 1 ≤ i ∧ form.match? ((c :: s).drop i) = some o := by
      intro n
      constructor
      · rintro ⟨i, hi, hmatch⟩
        exact ⟨i + 1, by omega, hmatch⟩
      · rintro ⟨i, hi, hmatch⟩
        obtain ⟨i, rfl⟩ : ∃ j, i = j + 1 := ⟨i - 1, by omega⟩
        exact ⟨i, by omega, hmatch⟩
    cases skip with
    | succ skip => rw [scan, ih h.tail, hshift]
    | zero =>
      cases hhere : form.match? (c :: s) with
      | none =>
        rw [scan, hhere]
        simp only [ih h.tail, hshift]
        constructor
        · rintro ⟨i, hi, hmatch⟩
          exact ⟨i, by omega, hmatch⟩
        · rintro ⟨i, -, hmatch⟩
          cases i with
          | zero =>
            rw [List.drop_zero, hhere] at hmatch
            cases hmatch
          | succ i => exact ⟨i + 1, by omega, hmatch⟩
      | some first =>
        rw [scan, hhere]
        simp only [List.mem_cons, ih h.tail, hshift]
        constructor
        · rintro (rfl | ⟨i, hi, hmatch⟩)
          · exact ⟨0, Nat.le_refl 0, hhere⟩
          · exact ⟨i, by omega, hmatch⟩
        · rintro ⟨i, -, hmatch⟩
          cases i with
          | zero =>
            rw [List.drop_zero, hhere, Option.some.injEq] at hmatch
            exact .inl hmatch.symm
          | succ i =>
            have hlater := h 0 (i + 1) first o (by omega) hhere hmatch
            exact .inr ⟨i + 1, by omega, hmatch⟩

theorem Form.mem_occurrences_iff {form : Form} {s : List Char} (h : form.Separate s)
    (o : Occurrence) : o ∈ form.occurrences s ↔ ∃ i, form.match? (s.drop i) = some o := by
  simp [occurrences, mem_scan_iff h]

theorem Form.exists_match?_of_mem_scan {form : Form} {s : List Char} {skip : Nat}
    {o : Occurrence} (h : o ∈ form.scan skip s) : ∃ i, form.match? (s.drop i) = some o := by
  fun_induction scan form skip s with
  | case1 => cases h
  | case2 skip c s ih =>
    obtain ⟨i, hi⟩ := ih h
    exact ⟨i + 1, hi⟩
  | case3 c s first hfirst ih =>
    rcases List.mem_cons.mp h with rfl | h
    · exact ⟨0, hfirst⟩
    · obtain ⟨i, hi⟩ := ih h
      exact ⟨i + 1, hi⟩
  | case4 c s hnone ih =>
    obtain ⟨i, hi⟩ := ih h
    exact ⟨i + 1, hi⟩

theorem Form.scan_of_match?_eq_none {form : Form} {s : List Char}
    (h : ∀ i, form.match? (s.drop i) = none) (skip : Nat) : form.scan skip s = [] := by
  rw [List.eq_nil_iff_forall_not_mem]
  intro o ho
  obtain ⟨i, hmatch⟩ := exists_match?_of_mem_scan ho
  rw [h i] at hmatch
  cases hmatch

/-- A search passes over a text in which no call begins. -/
theorem Form.scan_append_of_not_opens {form : Form} (hmarker : form.marker ∈ markers)
    {before s : List Char} (h : ∀ back, back <:+ before → back ≠ [] → ¬ Opens (back ++ s)) :
    form.scan 0 (before ++ s) = form.scan 0 s := by
  induction before with
  | nil => rfl
  | cons c before ih =>
    have hhere : form.match? (c :: (before ++ s)) = none :=
      match?_eq_none_of_not_opens hmarker (h (c :: before) List.suffix_rfl (List.cons_ne_nil _ _))
    rw [List.cons_append, scan, hhere]
    exact ih fun back hback => h back (hback.trans (List.suffix_cons c before))

/-! ## The phrases of the registry -/

def Occurrence.phrase? (o : Occurrence) : Option String :=
  if o.argument = [] then none else some (String.ofList o.argument)

theorem phrase?_quotedArgument :
    (fun o : Occurrence => Marker.phrase? (some o.quotedArgument)) = Occurrence.phrase? := by
  funext o
  have hinner : ((o.quotedArgument).drop 1).dropLast = o.argument := by
    simp [Occurrence.quotedArgument]
  unfold Marker.phrase? Occurrence.phrase?
  rw [Option.getD_some, hinner]
  cases o.argument <;> simp

/-- The phrases that occurrences of the form mark, with repetitions. -/
def Form.phrases (form : Form) (s : List Char) : List String :=
  (form.occurrences s).filterMap Occurrence.phrase?

theorem mapM_ok {ε α β : Type} {f : α → Except ε β} {g : α → β} {l : List α}
    (h : ∀ a ∈ l, f a = .ok (g a)) : l.mapM f = .ok (l.map g) := by
  induction l with
  | nil => rfl
  | cons a l ih =>
    rw [List.mapM_cons, h a List.mem_cons_self, ih fun b hb => h b (List.mem_cons_of_mem _ hb)]
    rfl

theorem Matcher.phrases_ofShape (shape : Shape) (marker : String) (s : List Char) :
    (Matcher.ofShape shape marker).phrases s = .ok (Form.phrases ⟨marker, shape⟩ s) := by
  have hcapture : ∀ o ∈ (Matcher.ofShape shape marker).form.occurrences s,
      (Matcher.ofShape shape marker).capture o = .ok (some o.quotedArgument) := by
    intro o _
    cases shape <;> rfl
  rw [phrases, mapM_ok hcapture]
  simp only [bind, Except.bind, pure, Except.pure, List.filterMap_map]
  rw [Form.phrases, ← phrase?_quotedArgument]
  rfl

theorem exists_ofShape_of_mem_registry {m : Matcher} (h : m ∈ registry) :
    ∃ shape, ∃ marker ∈ markers, m = .ofShape shape marker := by
  simp only [registry, List.map_cons, List.map_nil, List.flatMap_cons, List.flatMap_nil,
    List.cons_append, List.nil_append, List.mem_cons, List.not_mem_nil, or_false] at h
  rcases h with rfl | rfl | rfl | rfl | rfl | rfl | rfl | rfl | rfl | rfl | rfl | rfl | rfl <;>
    exact ⟨_, _, by decide, rfl⟩

theorem Matcher.phrases_of_mem_registry {m : Matcher} (h : m ∈ registry) (s : List Char) :
    m.phrases s = .ok (m.form.phrases s) := by
  obtain ⟨shape, marker, -, rfl⟩ := exists_ofShape_of_mem_registry h
  exact phrases_ofShape shape marker s

theorem marker_mem_of_mem_registry {m : Matcher} (h : m ∈ registry) : m.form.marker ∈ markers := by
  obtain ⟨shape, marker, hmarker, rfl⟩ := exists_ofShape_of_mem_registry h
  exact hmarker

/-- The registry finds the phrases that its forms find, each once. -/
theorem extract_registry (s : List Char) :
    extract registry s = .ok ((registry.map (·.form.phrases s)).flatten.eraseDups) := by
  rw [extract, mapM_ok fun m hm => m.phrases_of_mem_registry hm s]
  rfl

theorem exists_extract_registry (s : List Char) :
    ∃ phrases, extract registry s = .ok phrases ∧ phrases.Nodup
      ∧ ∀ phrase, phrase ∈ phrases ↔ ∃ m ∈ registry, phrase ∈ m.form.phrases s := by
  refine ⟨_, extract_registry s, nodup_eraseDups _, fun phrase => ?_⟩
  rw [List.mem_eraseDups, List.mem_flatten]
  simp only [List.mem_map]
  constructor
  · rintro ⟨_, ⟨m, hm, rfl⟩, hphrase⟩
    exact ⟨m, hm, hphrase⟩
  · rintro ⟨m, hm, hphrase⟩
    exact ⟨_, ⟨m, hm, rfl⟩, hphrase⟩

end PhraseCatalog.Marker
