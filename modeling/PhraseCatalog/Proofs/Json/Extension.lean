import PhraseCatalog.Json.Reader

/-! Reading does not look behind a value: with more text behind it, and with room for more items, a
value is read as before. Only for a number it matters that the next character is not part of it. -/

set_option autoImplicit false

namespace PhraseCatalog.Json.Reader

/-! ## Strings -/

theorem length_of_unit? {s : List Char} {n : Nat} (h : unit? s = some n) : 5 ≤ s.length := by
  unfold unit? at h
  split at h
  · simp only [List.length_cons]
    omega
  · cases h

theorem unit?_append {s : List Char} (t : List Char) (h : 5 ≤ s.length) :
    unit? (s ++ t) = unit? s := by
  obtain _ | ⟨a, _ | ⟨b, _ | ⟨c, _ | ⟨d, _ | ⟨e, s⟩⟩⟩⟩⟩ := s
  case cons.cons.cons.cons.cons => rfl
  all_goals
    simp only [List.length_cons, List.length_nil] at h
    omega

/-- A unit escape inside a string that is read to its end is complete. -/
theorem length_of_unit_escape {opening done s r : List Char} {v : String}
    (h : stringBody opening 0 done ('\\' :: 'u' :: s) = .ok (v, r)) : 5 ≤ s.length := by
  cases hu : unit? s with
  | some n => exact length_of_unit? hu
  | none => simp [stringBody, escape, hu] at h

theorem lowUnit?_append_of_eq_some {s : List Char} {m : Nat} (t : List Char)
    (h : lowUnit? s = some m) : lowUnit? (s ++ t) = some m := by
  unfold lowUnit? at h
  split at h
  · rename_i rest
    cases hu : unit? rest with
    | none => simp [hu] at h
    | some k =>
      rw [← h]
      simp only [List.cons_append, lowUnit?, unit?_append t (length_of_unit? hu)]
  · cases h

/-- Whether a second half follows is decided by the text that the string still reads. -/
theorem lowUnit?_append {opening done s r : List Char} {v : String} (t : List Char)
    (h : stringBody opening 0 done s = .ok (v, r)) : lowUnit? (s ++ t) = lowUnit? s := by
  obtain _ | ⟨c, s⟩ := s
  · simp [stringBody] at h
  by_cases hc : c = '\\'
  · subst hc
    obtain _ | ⟨d, s⟩ := s
    · simp [stringBody, escape] at h
    by_cases hd : d = 'u'
    · subst hd
      simp only [List.cons_append, lowUnit?, unit?_append t (length_of_unit_escape h)]
    · simp [lowUnit?, hd]
  · simp [lowUnit?, hc]

theorem stringBody_skip (opening done s : List Char) (n : Nat) (h : n < s.length) :
    stringBody opening n done s = stringBody opening 0 done (s.drop n) := by
  induction n generalizing s with
  | zero => rfl
  | succ n ih =>
    obtain _ | ⟨c, s⟩ := s
    · simp only [List.length_nil] at h
      omega
    · simp only [List.length_cons] at h
      rw [List.drop_succ_cons, ← ih s (by omega), stringBody]

theorem escape_append {opening done s r : List Char} {c : Char} {width : Nat} {v : String}
    (t : List Char) (h : escape s = .ok (c, width))
    (hbody : stringBody opening width (c :: done) s = .ok (v, r)) :
    escape (s ++ t) = .ok (c, width) := by
  obtain _ | ⟨a, s⟩ := s
  · simp [escape] at h
  by_cases ha : a = 'u'
  · subst ha
    cases hu : unit? s with
    | none => simp [escape, hu] at h
    | some n =>
      have hlen := length_of_unit? hu
      have hu' : unit? (s ++ t) = some n := by rw [unit?_append t hlen, hu]
      have hdrop : (s ++ t).drop 4 = s.drop 4 ++ t := List.drop_append_of_le_length (by omega)
      by_cases hn : 0xD800 ≤ n && n < 0xDC00
      · simp only [escape, hu, hn, if_true] at h
        simp only [List.cons_append, escape, hu', hn, if_true, hdrop]
        cases hl : lowUnit? (s.drop 4) with
        | some m => simpa only [hl, lowUnit?_append_of_eq_some t hl] using h
        | none =>
          simp only [hl, Except.ok.injEq, Prod.mk.injEq] at h
          obtain ⟨rfl, rfl⟩ := h
          rw [stringBody_skip _ _ _ 5 (by simp only [List.length_cons]; omega),
            List.drop_succ_cons] at hbody
          rw [lowUnit?_append t hbody, hl]
      · simp only [escape, hu, if_neg hn] at h
        simpa only [List.cons_append, escape, hu', if_neg hn] using h
  · simpa [escape, ha] using h

theorem stringBody_append {opening opening' s done r : List Char} {skip : Nat} {v : String}
    (t : List Char) (h : stringBody opening skip done s = .ok (v, r)) :
    stringBody opening' skip done (s ++ t) = .ok (v, r ++ t) := by
  induction s generalizing skip done with
  | nil => cases skip <;> simp [stringBody] at h
  | cons c s ih =>
    cases skip with
    | succ skip => exact ih h
    | zero =>
      by_cases hq : c = '"'
      · simp only [stringBody, hq, if_true] at h ⊢
        cases h
        rfl
      by_cases hb : c = '\\'
      · cases he : escape s with
        | error cause => cases cause <;> simp [stringBody, hb, he] at h
        | ok p =>
          obtain ⟨d, width⟩ := p
          have hrest : stringBody opening width (d :: done) s = .ok (v, r) := by
            simpa [stringBody, hb, he] using h
          simpa [stringBody, hb, escape_append t he hrest] using ih hrest
      by_cases hc : c.toNat < 0x20
      · simp [stringBody, hq, hb, hc] at h
      · rw [List.cons_append, stringBody, if_neg hq, if_neg hb, if_neg hc]
        rw [stringBody, if_neg hq, if_neg hb, if_neg hc] at h
        exact ih h

theorem half?_append {s : List Char} {c : Char} {width : Nat} (t : List Char)
    (h : escape s = .ok (c, width)) : half? width (s ++ t) = half? width s := by
  obtain _ | ⟨a, s⟩ := s
  · simp [escape] at h
  by_cases ha : a = 'u'
  · subst ha
    cases hu : unit? s with
    | none => simp [escape, hu] at h
    | some n => simp only [List.cons_append, half?, unit?_append t (length_of_unit? hu)]
  · simp [half?, ha]

/-- The halves in a string that is read to its end do not depend on the text behind it. -/
theorem halves_append {opening s done r : List Char} {index skip : Nat} {v : String}
    (t : List Char) (h : stringBody opening skip done s = .ok (v, r)) :
    halves index skip (s ++ t) = halves index skip s := by
  induction s generalizing index skip done with
  | nil => cases skip <;> simp [stringBody] at h
  | cons c s ih =>
    cases skip with
    | succ skip => exact ih h
    | zero =>
      by_cases hq : c = '"'
      · simp [halves, hq]
      by_cases hb : c = '\\'
      · cases he : escape s with
        | error cause => cases cause <;> simp [stringBody, hb, he] at h
        | ok p =>
          obtain ⟨d, width⟩ := p
          have hrest : stringBody opening width (d :: done) s = .ok (v, r) := by
            simpa [stringBody, hb, he] using h
          simp [halves, hb, he, escape_append t he hrest, half?_append t he, ih hrest]
      by_cases hc : c.toNat < 0x20
      · simp [stringBody, hq, hb, hc] at h
      · rw [stringBody, if_neg hq, if_neg hb, if_neg hc] at h
        rw [List.cons_append, halves, halves, if_neg hq, if_neg hb, if_neg hq, if_neg hb, ih h]

/-! ## Numbers and words -/

/-- The character could go on with a number. -/
def continuesNumber (c : Char) : Bool := c.isDigit || c = '.' || c = 'e' || c = 'E'

/-- What stands here does not go on with a number. -/
def EndsNumber (s : List Char) : Prop := ∀ c ∈ s.head?, continuesNumber c = false

theorem digitRun_append {s ds rest : List Char} (t : List Char) (h : digitRun s = (ds, rest))
    (ht : rest = [] → EndsNumber t) : digitRun (s ++ t) = (ds, rest ++ t) := by
  simp only [digitRun, Prod.mk.injEq] at h
  obtain ⟨rfl, rfl⟩ := h
  induction s with
  | nil =>
    obtain _ | ⟨c, t⟩ := t
    · rfl
    · have hc : continuesNumber c = false := ht rfl c rfl
      have hd : c.isDigit = false := by
        simp only [continuesNumber, Bool.or_eq_false_iff] at hc
        exact hc.1.1.1
      simp [digitRun, hd]
  | cons c s ih =>
    cases hd : c.isDigit with
    | false => simp [digitRun, hd]
    | true =>
      have := ih (by simpa [hd] using ht)
      simp only [digitRun, Prod.mk.injEq] at this
      simp [digitRun, hd, this]

theorem wholePart_append {s ds rest : List Char} {d : Char} (t : List Char)
    (h : wholePart s = (d :: ds, rest)) (ht : rest = [] → EndsNumber t) :
    wholePart (s ++ t) = (d :: ds, rest ++ t) := by
  obtain _ | ⟨c, s⟩ := s
  · simp [wholePart, digitRun] at h
  by_cases hc : c = '0'
  · subst hc
    simp only [wholePart, Prod.mk.injEq] at h
    obtain ⟨hds, rfl⟩ := h
    rw [List.cons_append, wholePart, hds]
  · have hw : ∀ u, wholePart (c :: u) = digitRun (c :: u) := by
      intro u
      simp [wholePart, hc]
    rw [hw] at h
    rw [List.cons_append, hw]
    exact digitRun_append t h ht

theorem fractionPart_append {s ds rest : List Char} (t : List Char)
    (h : fractionPart s = (ds, rest)) (hdot : rest.head? ≠ some '.')
    (ht : rest = [] → EndsNumber t) : fractionPart (s ++ t) = (ds, rest ++ t) := by
  obtain _ | ⟨c, s⟩ := s
  · obtain ⟨rfl, rfl⟩ := Prod.mk.inj h
    obtain _ | ⟨c, t⟩ := t
    · rfl
    · have hc : c ≠ '.' := by
        rintro rfl
        exact absurd (ht rfl '.' rfl) (by decide)
      simp [fractionPart, hc]
  by_cases hc : c = '.'
  · subst hc
    cases hr : digitRun s with
    | mk ds' rest' =>
      cases ds' with
      | nil =>
        simp only [fractionPart, hr, Prod.mk.injEq] at h
        obtain ⟨-, rfl⟩ := h
        exact absurd rfl hdot
      | cons d ds' =>
        simp only [fractionPart, hr, Prod.mk.injEq] at h
        obtain ⟨rfl, rfl⟩ := h
        simp [fractionPart, digitRun_append t hr ht]
  · have hf : ∀ u, fractionPart (c :: u) = ([], c :: u) := by
      intro u
      simp [fractionPart, hc]
    rw [hf] at h
    obtain ⟨rfl, rfl⟩ := Prod.mk.inj h
    exact hf (s ++ t)

theorem exponentSign_append {s : List Char} (t : List Char) (h : s ≠ []) :
    exponentSign (s ++ t) = ((exponentSign s).1, (exponentSign s).2 ++ t) := by
  obtain _ | ⟨c, s⟩ := s
  · exact absurd rfl h
  by_cases hm : c = '-'
  · subst hm
    rfl
  by_cases hp : c = '+'
  · subst hp
    rfl
  simp [exponentSign, hm, hp]

theorem exponentPart_append {s r t : List Char} {x : Option Int} (h : exponentPart s = (x, r))
    (hr : EndsNumber (r ++ t)) : exponentPart (s ++ t) = (x, r ++ t) := by
  obtain _ | ⟨c, s⟩ := s
  · obtain ⟨rfl, rfl⟩ := Prod.mk.inj h
    obtain _ | ⟨c, t⟩ := t
    · rfl
    · have hc : ¬ (c = 'e' ∨ c = 'E') := by
        rintro (rfl | rfl) <;> exact absurd (hr _ rfl) (by decide)
      simp [exponentPart, hc]
  by_cases hc : c = 'e' ∨ c = 'E'
  · cases hd : digitRun (exponentSign s).2 with
    | mk ds rest =>
      cases ds with
      | nil =>
        -- a lone mark is left over, but it does not end a number
        have hcr : c :: s = r := by simpa [exponentPart, hc, hd] using congrArg Prod.snd h
        subst hcr
        rcases hc with rfl | rfl <;> exact absurd (hr _ rfl) (by decide)
      | cons d ds =>
        have hs : s ≠ [] := by
          rintro rfl
          simp [exponentSign, digitRun] at hd
        simp only [exponentPart, hc, if_true, hd, Prod.mk.injEq] at h
        obtain ⟨rfl, rfl⟩ := h
        have hd' := digitRun_append t hd (by
          rintro rfl
          exact hr)
        simp [exponentPart, hc, exponentSign_append t hs, hd']
  · simp only [exponentPart, hc, if_false, Prod.mk.injEq] at h
    obtain ⟨rfl, rfl⟩ := h
    simp [exponentPart, hc]

theorem magnitude_append {negative : Bool} {left left' : Nat} {s r t : List Char} {v : Value}
    (h : magnitude negative left s = .ok (v, r)) (hr : EndsNumber (r ++ t)) :
    magnitude negative left' (s ++ t) = .ok (v, r ++ t) := by
  unfold magnitude at h ⊢
  cases hw : wholePart s with
  | mk whole rest =>
    cases whole with
    | nil => simp [hw] at h
    | cons d ds =>
      cases hf : fractionPart rest with
      | mk fraction rest' =>
        cases he : exponentPart rest' with
        | mk exponent rest'' =>
          simp only [hw, hf, he] at h
          have hrest : r = rest'' := by
            split at h
            · split at h
              · cases h
              · cases h
                rfl
            · cases h
              rfl
          subst hrest
          have he' := exponentPart_append he hr
          have hf' := fractionPart_append t hf (by
            intro hdot
            obtain _ | ⟨c, u⟩ := rest'
            · cases hdot
            · cases hdot
              obtain ⟨-, rfl⟩ := Prod.mk.inj he
              exact absurd (hr '.' rfl) (by decide)) (by
            rintro rfl
            obtain ⟨-, rfl⟩ := Prod.mk.inj he
            exact hr)
          have hw' := wholePart_append t hw (by
            rintro rfl
            obtain ⟨-, rfl⟩ := Prod.mk.inj hf
            obtain ⟨-, rfl⟩ := Prod.mk.inj he
            exact hr)
          simp only [hw', hf', he']
          split at h
          · rename_i hwhole
            rw [if_pos hwhole]
            split at h
            · cases h
            · rename_i hlimit
              rw [if_neg hlimit]
              cases h
              rfl
          · rename_i hwhole
            rw [if_neg hwhole]
            cases h
            rfl

theorem number_append {s r t : List Char} {v : Value} (h : number s = .ok (v, r))
    (hr : EndsNumber (r ++ t)) : number (s ++ t) = .ok (v, r ++ t) := by
  obtain _ | ⟨c, s⟩ := s
  · simp [number, magnitude, wholePart, digitRun] at h
  by_cases hc : c = '-'
  · subst hc
    exact @magnitude_append true (s.length + 1) _ s r t v h hr
  · have hn : ∀ u, number (c :: u) = magnitude false (u.length + 1) (c :: u) := by
      intro u
      simp [number, hc]
    rw [hn] at h
    rw [List.cons_append, hn]
    exact magnitude_append h hr

theorem exists_digit_of_wholePart {s ds rest : List Char} {d : Char}
    (h : wholePart s = (d :: ds, rest)) : ∃ c u, s = c :: u ∧ c.isDigit = true := by
  obtain _ | ⟨c, u⟩ := s
  · simp [wholePart, digitRun] at h
  refine ⟨c, u, rfl, ?_⟩
  by_cases hc : c = '0'
  · subst hc
    rfl
  · cases hd : c.isDigit with
    | true => rfl
    | false => simp [wholePart, hc, digitRun, hd] at h

theorem exists_digit_of_magnitude {negative : Bool} {left : Nat} {s r : List Char} {v : Value}
    (h : magnitude negative left s = .ok (v, r)) : ∃ c u, s = c :: u ∧ c.isDigit = true := by
  unfold magnitude at h
  cases hw : wholePart s with
  | mk whole rest =>
    cases whole with
    | nil => simp [hw] at h
    | cons d ds => exact exists_digit_of_wholePart hw

/-- No word begins with a digit, and none with a digit behind a minus. -/
theorem find?_words_of_digit {c : Char} (h : c.isDigit = true) (u : List Char) :
    words.find? (·.1.isPrefixOf (c :: u)) = none
      ∧ words.find? (·.1.isPrefixOf ('-' :: c :: u)) = none := by
  have hdigit : c ≠ 'n' ∧ c ≠ 't' ∧ c ≠ 'f' ∧ c ≠ 'N' ∧ c ≠ 'I' ∧ c ≠ '-' := by
    refine ⟨?_, ?_, ?_, ?_, ?_, ?_⟩ <;> (rintro rfl; exact absurd h (by decide))
  obtain ⟨h1, h2, h3, h4, h5, h6⟩ := hdigit
  constructor
  · simp [words, List.isPrefixOf, Ne.symm h1, Ne.symm h2, Ne.symm h3, Ne.symm h4, Ne.symm h5,
      Ne.symm h6]
  · simp [words, List.isPrefixOf, Ne.symm h5]

theorem find?_words_of_number {s r : List Char} {v : Value} (t : List Char)
    (h : number s = .ok (v, r)) : words.find? (·.1.isPrefixOf (s ++ t)) = none := by
  obtain _ | ⟨c, s⟩ := s
  · simp [number, magnitude, wholePart, digitRun] at h
  by_cases hc : c = '-'
  · subst hc
    obtain ⟨d, u, rfl, hd⟩ := exists_digit_of_magnitude h
    exact (find?_words_of_digit hd (u ++ t)).2
  · have hn : number (c :: s) = magnitude false (s.length + 1) (c :: s) := by
      simp [number, hc]
    rw [hn] at h
    obtain ⟨d, u, hdu, hd⟩ := exists_digit_of_magnitude h
    obtain ⟨rfl, rfl⟩ := List.cons.inj hdu
    exact (find?_words_of_digit hd (s ++ t)).1

/-- A word is found where it stands: no word starts like another. -/
theorem find?_words {word : List Char × Value} (h : word ∈ words) (s : List Char) :
    words.find? (·.1.isPrefixOf (word.1 ++ s)) = some word := by
  simp only [words, List.mem_cons, List.not_mem_nil, or_false] at h
  rcases h with rfl | rfl | rfl | rfl | rfl | rfl <;> rfl

theorem scalar_append {s r t : List Char} {v : Value} (h : scalar s = .ok (v, r))
    (hr : EndsNumber (r ++ t)) : scalar (s ++ t) = .ok (v, r ++ t) := by
  cases hw : words.find? (·.1.isPrefixOf s) with
  | none =>
    have hs : number s = .ok (v, r) := by simpa [scalar, hw] using h
    simp only [scalar, find?_words_of_number t hs]
    exact number_append hs hr
  | some word =>
    have hbegins : word.1.isPrefixOf s = true := by simpa using List.find?_some hw
    obtain ⟨u, rfl⟩ := List.isPrefixOf_iff_prefix.mp hbegins
    have hw' := find?_words (List.mem_of_find?_eq_some hw) (u ++ t)
    simp only [scalar, hw, List.drop_left, Except.ok.injEq, Prod.mk.injEq] at h
    obtain ⟨rfl, rfl⟩ := h
    simp only [scalar, List.append_assoc, hw', List.drop_left]

/-! ## Containers -/

theorem skipSpace_append {s : List Char} (t : List Char) (h : skipSpace s ≠ []) :
    skipSpace (s ++ t) = skipSpace s ++ t := by
  unfold skipSpace at h ⊢
  rw [List.dropWhile_append, if_neg (by simpa using h)]

theorem skipSpace_append_of_cons {s u : List Char} {c : Char} (t : List Char)
    (h : skipSpace s = c :: u) : skipSpace (s ++ t) = c :: (u ++ t) := by
  rw [skipSpace_append t (by rw [h]; exact List.cons_ne_nil c u), h, List.cons_append]

/-- Where only spaces stand before a character that no number has, no number goes on. -/
theorem endsNumber_of_skipSpace {s u : List Char} {c : Char} (t : List Char)
    (h : skipSpace s = c :: u) (hc : continuesNumber c = false) : EndsNumber (s ++ t) := by
  obtain _ | ⟨d, s⟩ := s
  · cases h
  rintro _ ⟨⟩
  cases hd : isSpace d with
  | false =>
    rw [skipSpace, List.dropWhile_cons_of_neg (by simp [hd])] at h
    obtain ⟨rfl, -⟩ := List.cons.inj h
    exact hc
  | true =>
    simp only [isSpace, Bool.or_eq_true, decide_eq_true_eq] at hd
    rcases hd with ((rfl | rfl) | rfl) | rfl <;> decide

/-- The second reader reads whatever the first one does, also when more text follows. -/
structure Extends (value value' : List Char → Step Value) : Prop where
  ne_nil : ∀ {s : List Char} {p : Value × List Char}, value s = .ok p → s ≠ []
  append : ∀ {s : List Char} {v : Value} {r t : List Char},
    value s = .ok (v, r) → EndsNumber (r ++ t) → value' (s ++ t) = .ok (v, r ++ t)

section Containers
variable {value value' : List Char → Step Value} (hv : Extends value value')
include hv

theorem ne_nil_of_items {n : Nat} {done vs : List Value} {s r : List Char}
    (h : items value n done s = .ok (vs, r)) : s ≠ [] := by
  cases n with
  | zero => cases h
  | succ n =>
    cases hs : value s with
    | error stop => simp [items, hs] at h
    | ok p => exact hv.ne_nil hs

theorem items_append {n m : Nat} {done vs : List Value} {s r : List Char} (t : List Char)
    (h : items value n done s = .ok (vs, r)) (hnm : n ≤ m) :
    items value' m done (s ++ t) = .ok (vs, r ++ t) := by
  induction n generalizing m done s with
  | zero => cases h
  | succ n ih =>
    obtain ⟨m, rfl⟩ : ∃ k, m = k + 1 := ⟨m - 1, by omega⟩
    cases hs : value s with
    | error stop => simp [items, hs] at h
    | ok p =>
      obtain ⟨v, rest⟩ := p
      cases hrest : skipSpace rest with
      | nil => simp [items, hs, hrest] at h
      | cons c u =>
        have hskip := skipSpace_append_of_cons t hrest
        by_cases hc : c = ']'
        · subst hc
          have hs' := hv.append hs (endsNumber_of_skipSpace t hrest (by decide))
          simp only [items, hs, hrest, Except.ok.injEq, Prod.mk.injEq] at h
          obtain ⟨rfl, rfl⟩ := h
          simp only [items, hs', hskip]
        by_cases hc' : c = ','
        · subst hc'
          have hs' := hv.append hs (endsNumber_of_skipSpace t hrest (by decide))
          simp only [items, hs, hrest] at h
          have hu := skipSpace_append t (ne_nil_of_items hv h)
          simp only [items, hs', hskip, hu]
          exact ih h (by omega)
        · simp [items, hs, hrest, hc, hc'] at h

omit hv in
theorem key_append {s r : List Char} {k : String} (t : List Char) (h : key s = .ok (k, r))
    (hr : r ≠ []) : key (s ++ t) = .ok (k, r ++ t) := by
  obtain _ | ⟨c, s⟩ := s
  · simp [key] at h
  by_cases hc : c = '"'
  · subst hc
    cases hs : stringBody s 0 [] s with
    | error stop => simp [key, hs] at h
    | ok p =>
      obtain ⟨name, rest⟩ := p
      have hs' : stringBody (s ++ t) 0 [] (s ++ t) = .ok (name, rest ++ t) := stringBody_append t hs
      cases hrest : skipSpace rest with
      | nil => simp [key, hs, hrest] at h
      | cons c u =>
        have hskip := skipSpace_append_of_cons t hrest
        by_cases hc : c = ':'
        · subst hc
          simp only [key, hs, hrest, Except.ok.injEq, Prod.mk.injEq] at h
          obtain ⟨rfl, rfl⟩ := h
          simp only [List.cons_append, key, hs', hskip, skipSpace_append t hr]
        · simp [key, hs, hrest, hc] at h
  · simp [key, hc] at h

omit hv in
theorem ne_nil_of_pairs {n : Nat} {done ps : List (String × Value)} {s r : List Char}
    (h : pairs value n done s = .ok (ps, r)) : s ≠ [] := by
  rintro rfl
  cases n with
  | zero => cases h
  | succ n => simp [pairs, key] at h

theorem pairs_append {n m : Nat} {done ps : List (String × Value)} {s r : List Char}
    (t : List Char) (h : pairs value n done s = .ok (ps, r)) (hnm : n ≤ m) :
    pairs value' m done (s ++ t) = .ok (ps, r ++ t) := by
  induction n generalizing m done s with
  | zero => cases h
  | succ n ih =>
    obtain ⟨m, rfl⟩ : ∃ k, m = k + 1 := ⟨m - 1, by omega⟩
    cases hk : key s with
    | error stop => simp [pairs, hk] at h
    | ok p =>
      obtain ⟨k, body⟩ := p
      cases hs : value body with
      | error stop => simp [pairs, hk, hs] at h
      | ok p =>
        obtain ⟨v, rest⟩ := p
        have hk' := key_append t hk (hv.ne_nil hs)
        cases hrest : skipSpace rest with
        | nil => simp [pairs, hk, hs, hrest] at h
        | cons c u =>
          have hskip := skipSpace_append_of_cons t hrest
          by_cases hc : c = '\x7d'
          · subst hc
            have hs' := hv.append hs (endsNumber_of_skipSpace t hrest (by decide))
            simp only [pairs, hk, hs, hrest, Except.ok.injEq, Prod.mk.injEq] at h
            obtain ⟨rfl, rfl⟩ := h
            simp only [pairs, hk', hs', hskip]
          by_cases hc' : c = ','
          · subst hc'
            have hs' := hv.append hs (endsNumber_of_skipSpace t hrest (by decide))
            simp only [pairs, hk, hs, hrest] at h
            have hu := skipSpace_append t (ne_nil_of_pairs h)
            simp only [pairs, hk', hs', hskip, hu]
            exact ih h (by omega)
          · simp [pairs, hk, hs, hrest, hc, hc'] at h

theorem array_append {n m : Nat} {s r : List Char} {v : Value} (t : List Char)
    (h : array value n s = .ok (v, r)) (hnm : n ≤ m) : array value' m (s ++ t) = .ok (v, r ++ t) := by
  cases hs : skipSpace s with
  | nil =>
    cases n with
    | zero => simp [array, hs, items] at h
    | succ n =>
      cases hv' : value [] with
      | error stop => simp [array, hs, items, hv'] at h
      | ok p => exact absurd rfl (hv.ne_nil hv')
  | cons c u =>
    have hskip := skipSpace_append_of_cons t hs
    by_cases hc : c = ']'
    · subst hc
      simp only [array, hs, Except.ok.injEq, Prod.mk.injEq] at h
      obtain ⟨rfl, rfl⟩ := h
      simp only [array, hskip]
    · cases hi : items value n [] (c :: u) with
      | error stop => simp [array, hs, hc, hi] at h
      | ok p =>
        obtain ⟨vs, rest⟩ := p
        obtain ⟨rfl, rfl⟩ : .arr vs = v ∧ rest = r := by simpa [array, hs, hc, hi] using h
        have hi' := items_append hv t hi hnm
        rw [List.cons_append] at hi'
        simp [array, hskip, hc, hi']

theorem object_append {n m : Nat} {s r : List Char} {v : Value} (t : List Char)
    (h : object value n s = .ok (v, r)) (hnm : n ≤ m) :
    object value' m (s ++ t) = .ok (v, r ++ t) := by
  cases hs : skipSpace s with
  | nil =>
    cases hp : pairs value n [] [] with
    | error stop => simp [object, hs, hp] at h
    | ok p => exact absurd rfl (ne_nil_of_pairs hp)
  | cons c u =>
    have hskip := skipSpace_append_of_cons t hs
    by_cases hc : c = '\x7d'
    · subst hc
      simp only [object, hs, Except.ok.injEq, Prod.mk.injEq] at h
      obtain ⟨rfl, rfl⟩ := h
      simp only [object, hskip]
    · cases hp : pairs value n [] (c :: u) with
      | error stop => simp [object, hs, hc, hp] at h
      | ok p =>
        obtain ⟨ps, rest⟩ := p
        obtain ⟨rfl, rfl⟩ : .obj (ofPairs ps) = v ∧ rest = r := by
          simpa [object, hs, hc, hp] using h
        have hp' := pairs_append hv t hp hnm
        rw [List.cons_append] at hp'
        simp [object, hskip, hc, hp']

end Containers

/-! ## Values -/

theorem token_of_ne {openAs : Container → List Char → Step Value} {c : Char} {s : List Char}
    (hq : c ≠ '"') (hb : c ≠ '\x7b') (ha : c ≠ '[') :
    token openAs (c :: s) = scalar (c :: s) := by
  simp [token, hq, hb, ha]

theorem token_nil_ne_ok {openAs : Container → List Char → Step Value} {p : Value × List Char} :
    token openAs [] ≠ .ok p := by
  simp [token, scalar, words, number, magnitude, wholePart, digitRun]

theorem token_extends {openAs openAs' : Container → List Char → Step Value}
    (ho : ∀ kind {s r : List Char} {v : Value} (t : List Char),
      openAs kind s = .ok (v, r) → openAs' kind (s ++ t) = .ok (v, r ++ t)) :
    Extends (token openAs) (token openAs') where
  ne_nil := by
    rintro s p h rfl
    exact token_nil_ne_ok h
  append := by
    intro s v r t h hr
    obtain _ | ⟨c, s⟩ := s
    · exact absurd h token_nil_ne_ok
    by_cases hq : c = '"'
    · subst hq
      cases hs : stringBody s 0 [] s with
      | error stop => simp [token, hs] at h
      | ok p =>
        obtain ⟨text, rest⟩ := p
        have hs' : stringBody (s ++ t) 0 [] (s ++ t) = .ok (text, rest ++ t) :=
          stringBody_append t hs
        simp only [token, hs, Except.ok.injEq, Prod.mk.injEq] at h
        obtain ⟨rfl, rfl⟩ := h
        simp only [List.cons_append, token, hs', halves_append t hs]
    by_cases hb : c = '\x7b'
    · subst hb
      exact ho .object t h
    by_cases ha : c = '['
    · subst ha
      exact ho .array t h
    rw [token_of_ne hq hb ha] at h
    rw [List.cons_append, token_of_ne hq hb ha]
    exact scalar_append h hr

theorem value_extends {k k' : Nat} (hk : k ≤ k') (depth : Nat) :
    Extends (value k depth) (value k' depth) := by
  induction depth with
  | zero => exact token_extends fun kind s r v t h => by cases h
  | succ depth ih =>
    refine token_extends fun kind s r v t h => ?_
    cases kind with
    | object => exact object_append ih t h hk
    | array => exact array_append ih t h hk

/-- The end of an object is known without a look at what follows. -/
theorem value_object_append {k k' depth : Nat} (hk : k ≤ k') {s r : List Char} {v : Value}
    (t : List Char) (h : value k depth ('\x7b' :: s) = .ok (v, r)) :
    value k' depth ('\x7b' :: s ++ t) = .ok (v, r ++ t) := by
  cases depth with
  | zero => cases h
  | succ depth => exact object_append (value_extends hk depth) t h hk

theorem document_brace (s : List Char) :
    document ('\x7b' :: s) =
      match value (s.length + 2) nestingLimit ('\x7b' :: s) with
      | .error stop => .error stop
      | .ok (v, rest) =>
        match skipSpace rest with
        | [] => .ok v
        | rest => .error (.malformed .extraData rest.length) := by
  rw [document, if_neg (by simp)]
  rfl

/-- A document that is an object is none any more when further text stands behind it. -/
theorem document_object_append {s t : List Char} {v : Value}
    (h : document ('\x7b' :: s) = .ok v) (ht : skipSpace t ≠ []) :
    ∃ left, document ('\x7b' :: s ++ t) = .error (.malformed .extraData left) := by
  rw [document_brace] at h
  rw [List.cons_append, document_brace]
  cases hv : value (s.length + 2) nestingLimit ('\x7b' :: s) with
  | error stop => simp [hv] at h
  | ok p =>
    obtain ⟨w, r⟩ := p
    have hlen : s.length + 2 ≤ (s ++ t).length + 2 := by simp
    have hv' : value ((s ++ t).length + 2) nestingLimit ('\x7b' :: (s ++ t)) = .ok (w, r ++ t) :=
      value_object_append hlen t hv
    have hr : skipSpace r = [] := by
      cases hr : skipSpace r with
      | nil => rfl
      | cons c u => simp [hv, hr] at h
    have hrt : skipSpace (r ++ t) = skipSpace t := by
      rw [skipSpace, List.dropWhile_append, if_pos (by simpa [skipSpace] using hr)]
      rfl
    obtain ⟨c, u, hcu⟩ := List.exists_cons_of_ne_nil ht
    exact ⟨(c :: u).length, by simp only [hv', hrt, hcu]⟩

end PhraseCatalog.Json.Reader
