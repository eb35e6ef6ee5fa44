import PhraseCatalog.Json.Printer
import PhraseCatalog.Proofs.Json.Extension

/-! The texts of numbers are read as numbers: a whole number as it was, unless it has too many digits,
and any other number as one that is not whole. -/

set_option autoImplicit false

namespace PhraseCatalog.Json

open Decimal Reader

/-! ## Digits -/

theorem isDigit_of_mem_digits {n : Nat} {c : Char} (h : c ∈ digits n) : c.isDigit = true :=
  Nat.isDigit_of_mem_toDigits (by decide) (by decide) h

theorem ofDigits_digits (n : Nat) : ofDigits (digits n) = n :=
  Nat.ofDigitChars_ten_toDigits

theorem digits_ne_nil (n : Nat) : digits n ≠ [] := @Nat.toDigits_ne_nil n 10

theorem head?_digits_ne_zero {n : Nat} (h : n ≠ 0) : (digits n).head? ≠ some '0' := by
  induction n using Nat.strongRecOn with
  | ind n ih =>
    unfold digits at ih ⊢
    rw [Nat.toDigits_eq_if (by decide)]
    split
    · rename_i hlt
      have hall : ∀ d : Fin 10, d.val ≠ 0 → Nat.digitChar d.val ≠ '0' := by decide
      simpa using hall ⟨n, hlt⟩ h
    · rename_i hge
      have := ih (n / 10) (by omega) (by omega)
      obtain ⟨c, u, hcu⟩ := List.exists_cons_of_ne_nil (digits_ne_nil (n / 10))
      unfold digits at hcu
      rw [hcu] at this ⊢
      simpa using this

/-- Digits that a number can begin with: none of them is a leading zero. -/
structure IsWhole (s : List Char) : Prop where
  ne_nil : s ≠ []
  digit : ∀ c ∈ s, c.isDigit = true
  head : s = ['0'] ∨ s.head? ≠ some '0'

theorem isWhole_digits (n : Nat) : IsWhole (digits n) := by
  refine ⟨digits_ne_nil n, fun c => isDigit_of_mem_digits, ?_⟩
  by_cases hn : n = 0
  · subst hn
    exact .inl rfl
  · exact .inr (head?_digits_ne_zero hn)

/-- The text does not go on with a digit. -/
def EndsDigits (s : List Char) : Prop := ∀ c ∈ s.head?, c.isDigit = false

theorem endsDigits_cons {c : Char} (s : List Char) (h : c.isDigit = false) : EndsDigits (c :: s) := by
  rintro _ ⟨⟩
  exact h

theorem digitRun_append_of_digits {ds rest : List Char} (h : ∀ c ∈ ds, c.isDigit = true)
    (hrest : EndsDigits rest) : digitRun (ds ++ rest) = (ds, rest) := by
  rw [digitRun, List.takeWhile_append_of_pos h, List.dropWhile_append_of_pos h]
  cases rest with
  | nil => simp
  | cons c rest =>
    have hc : c.isDigit = false := hrest c rfl
    simp [hc]

theorem IsWhole.wholePart_append {s rest : List Char} (h : IsWhole s) (hrest : EndsDigits rest) :
    wholePart (s ++ rest) = (s, rest) := by
  rcases h.head with rfl | hhead
  · rfl
  · obtain ⟨c, u, rfl⟩ := List.exists_cons_of_ne_nil h.ne_nil
    have hc : c ≠ '0' := by
      rintro rfl
      exact hhead rfl
    rw [← digitRun_append_of_digits h.digit hrest]
    simp [wholePart, hc]

/-! ## Whole numbers -/

theorem Reader.EndsNumber.endsDigits {rest : List Char} (h : EndsNumber rest) : EndsDigits rest := by
  intro c hc
  have hcontinues := h c hc
  simp only [continuesNumber, Bool.or_eq_false_iff] at hcontinues
  exact hcontinues.1.1.1

theorem Reader.EndsNumber.fractionPart_eq {rest : List Char} (h : EndsNumber rest) :
    fractionPart rest = ([], rest) :=
  fractionPart_append rest (rfl : fractionPart [] = ([], [])) (by simp) fun _ => h

theorem Reader.EndsNumber.exponentPart_eq {rest : List Char} (h : EndsNumber rest) :
    exponentPart rest = (none, rest) :=
  exponentPart_append (rfl : exponentPart [] = (none, [])) h

/-- What the text of a whole number is read as. -/
def rereadInt (n : Int) : Except Stop Value :=
  if digitLimit < (digits n.natAbs).length then .error (.tooManyDigits (digits n.natAbs).length)
  else .ok (.int n)

/-- The text is read as the value, or refused, whatever follows that does not go on with a number. -/
def ReadsTo (readValue : List Char → Step Value) (s : List Char) (result : Except Stop Value) :
    Prop :=
  ∀ rest, EndsNumber rest → readValue (s ++ rest) = result.map fun v => (v, rest)

theorem magnitude_digits (negative : Bool) (left n : Nat) {rest : List Char}
    (hrest : EndsNumber rest) :
    magnitude negative left (digits n ++ rest)
      = if digitLimit < (digits n).length then .error (.tooManyDigits (digits n).length)
        else .ok (.int (if negative then -(n : Int) else n), rest) := by
  have hwhole := (isWhole_digits n).wholePart_append hrest.endsDigits
  have hn := ofDigits_digits n
  obtain ⟨c, u, hcu⟩ := List.exists_cons_of_ne_nil (digits_ne_nil n)
  rw [hcu] at hwhole hn ⊢
  simp only [magnitude, hwhole, hrest.fractionPart_eq, hrest.exponentPart_eq, List.isEmpty_nil,
    Option.isNone_none, Bool.and_self, if_true, hn]

theorem number_of_digit {c : Char} (h : c.isDigit = true) (s : List Char) :
    number (c :: s) = magnitude false (s.length + 1) (c :: s) := by
  have hc : c ≠ '-' := by
    rintro rfl
    exact absurd h (by decide)
  simp [number, hc]

theorem number_ofInt (n : Int) : ReadsTo number (ofInt n) (rereadInt n) := by
  intro rest hrest
  cases n with
  | ofNat n =>
    obtain ⟨c, u, hcu⟩ := List.exists_cons_of_ne_nil (digits_ne_nil n)
    have hdigit : c.isDigit = true := isDigit_of_mem_digits (hcu ▸ List.mem_cons_self)
    have hnumber : number (digits n ++ rest)
        = magnitude false (u ++ rest).length.succ (digits n ++ rest) := by
      rw [hcu, List.cons_append, number_of_digit hdigit]
    have htext : ofInt (.ofNat n) = digits n := rfl
    rw [htext, hnumber, magnitude_digits false _ n hrest, rereadInt, Int.ofNat_eq_natCast,
      Int.natAbs_natCast]
    split <;> rfl
  | negSucc n =>
    have hnumber : number (ofInt (.negSucc n) ++ rest)
        = magnitude true ((digits (n + 1) ++ rest).length + 1) (digits (n + 1) ++ rest) := rfl
    rw [hnumber, magnitude_digits true _ (n + 1) hrest, rereadInt, Int.natAbs_negSucc]
    split <;> rfl

/-! ## Other numbers -/

/-- Texts of numbers that are not whole, without their sign. -/
inductive IsRealText : List Char → Prop
  | positional {whole fraction : List Char} (hwhole : IsWhole whole) (hne : fraction ≠ [])
    (hfraction : ∀ c ∈ fraction, c.isDigit = true) : IsRealText (whole ++ '.' :: fraction)
  | exponential {whole fraction tens : List Char} {sign : Char} (hwhole : IsWhole whole)
    (hfraction : ∀ c ∈ fraction, c.isDigit = true) (hsign : sign = '+' ∨ sign = '-')
    (hne : tens ≠ []) (htens : ∀ c ∈ tens, c.isDigit = true) :
    IsRealText (whole ++ ((if fraction.isEmpty then [] else '.' :: fraction) ++ 'e' :: sign :: tens))

theorem fractionPart_digits {fraction rest : List Char} (hne : fraction ≠ [])
    (h : ∀ c ∈ fraction, c.isDigit = true) (hrest : EndsDigits rest) :
    fractionPart ('.' :: (fraction ++ rest)) = (fraction, rest) := by
  have hrun := digitRun_append_of_digits h hrest
  obtain ⟨c, u, rfl⟩ := List.exists_cons_of_ne_nil hne
  rw [fractionPart, hrun]

theorem exponentPart_digits {sign : Char} (hsign : sign = '+' ∨ sign = '-') {tens : List Char}
    (hne : tens ≠ []) (h : ∀ c ∈ tens, c.isDigit = true) :
    ∃ x, exponentPart ('e' :: sign :: tens) = (some x, []) := by
  have hrun := @digitRun_append_of_digits tens [] h (by simp [EndsDigits])
  rw [List.append_nil] at hrun
  obtain ⟨c, u, rfl⟩ := List.exists_cons_of_ne_nil hne
  rcases hsign with rfl | rfl
  · exact ⟨ofDigits (c :: u), by simp [exponentPart, exponentSign, hrun]⟩
  · exact ⟨-ofDigits (c :: u), by simp [exponentPart, exponentSign, hrun]⟩

theorem magnitude_of_parts {negative : Bool} {left : Nat} {whole rest rest' fraction : List Char}
    {exponent : Option Int} {s : List Char} (hne : whole ≠ []) (hwhole : wholePart s = (whole, rest))
    (hfraction : fractionPart rest = (fraction, rest'))
    (hexponent : exponentPart rest' = (exponent, []))
    (hpart : fraction ≠ [] ∨ exponent ≠ none) :
    ∃ x, magnitude negative left s = .ok (.real x, []) := by
  have hreal : (fraction.isEmpty && exponent.isNone) = false := by
    rw [Bool.and_eq_false_iff, List.isEmpty_eq_false_iff, Option.isNone_eq_false_iff,
      Option.isSome_iff_ne_none]
    exact hpart
  obtain ⟨c, u, rfl⟩ := List.exists_cons_of_ne_nil hne
  exact ⟨_, by simp only [magnitude, hwhole, hfraction, hexponent, hreal]; rfl⟩

theorem IsRealText.magnitude {s : List Char} (h : IsRealText s) (negative : Bool) (left : Nat) :
    ∃ x, magnitude negative left s = .ok (.real x, []) := by
  cases h with
  | @positional whole fraction hwhole hne hfraction =>
    have hfractionPart := @fractionPart_digits fraction [] hne hfraction (by simp [EndsDigits])
    rw [List.append_nil] at hfractionPart
    exact magnitude_of_parts hwhole.ne_nil (hwhole.wholePart_append (endsDigits_cons _ (by decide)))
      hfractionPart rfl (.inl hne)
  | @exponential whole fraction tens sign hwhole hfraction hsign hne htens =>
    obtain ⟨x, hexponent⟩ := exponentPart_digits hsign hne htens
    by_cases hempty : fraction = []
    · subst hempty
      exact magnitude_of_parts hwhole.ne_nil
        (hwhole.wholePart_append (endsDigits_cons _ (by decide))) rfl hexponent (.inr (by simp))
    · have hparts : (if fraction.isEmpty then [] else '.' :: fraction) ++ 'e' :: sign :: tens
          = '.' :: (fraction ++ 'e' :: sign :: tens) := by
        simp [hempty]
      rw [hparts]
      exact magnitude_of_parts hwhole.ne_nil
        (hwhole.wholePart_append (endsDigits_cons _ (by decide)))
        (fractionPart_digits hempty hfraction (endsDigits_cons _ (by decide))) hexponent
        (.inl hempty)

/-- A decimal with a leading digit that is zero only if it is the only one. -/
def Leads (x : Scaled) : Prop := x.coefficient ≠ 0 ∨ x = ⟨0, 0⟩

theorem isWhole_singleton {c : Char} (h : c.isDigit = true) : IsWhole [c] := by
  refine ⟨List.cons_ne_nil _ _, by simpa using h, ?_⟩
  by_cases hc : c = '0'
  · exact .inl (by rw [hc])
  · exact .inr (by simpa using hc)

theorem isDigit_of_mem_zeros {n : Nat} {c : Char} (h : c ∈ List.replicate n '0') :
    c.isDigit = true := by
  rw [List.eq_of_mem_replicate h]
  rfl

theorem isDigit_of_mem_append {s t : List Char} (hs : ∀ c ∈ s, c.isDigit = true)
    (ht : ∀ c ∈ t, c.isDigit = true) : ∀ c ∈ s ++ t, c.isDigit = true := by
  intro c hc
  rcases List.mem_append.mp hc with hc | hc
  · exact hs c hc
  · exact ht c hc

/-- The digits before the point of a decimal that is written out. -/
theorem isWhole_of_leads {x : Scaled} (h : Leads x) {point : Nat}
    (hpoint : (point : Int) = (digits x.coefficient).length + x.tens) (hpos : 0 < point) :
    IsWhole ((digits x.coefficient).take point
      ++ List.replicate (point - (digits x.coefficient).length) '0') := by
  obtain ⟨c, u, hcu⟩ := List.exists_cons_of_ne_nil (digits_ne_nil x.coefficient)
  obtain ⟨point, rfl⟩ := Nat.exists_eq_succ_of_ne_zero (Nat.ne_of_gt hpos)
  refine ⟨by simp [hcu], ?_, ?_⟩
  · exact isDigit_of_mem_append (fun d hd => isDigit_of_mem_digits (List.mem_of_mem_take hd))
      fun d => isDigit_of_mem_zeros
  · rcases h with hne | rfl
    · have hhead := head?_digits_ne_zero hne
      rw [hcu] at hhead ⊢
      exact .inr (by simpa using hhead)
    · have hone : point = 0 := by
        have hlength : (digits 0).length = 1 := rfl
        simp only [hlength] at hpoint
        omega
      subst hone
      exact .inl rfl

theorem isRealText_text (layout : NumeralLayout) {x : Scaled} (h : Leads x) :
    IsRealText (layout.text x) := by
  have hdigits : ∀ c ∈ digits x.coefficient, c.isDigit = true := fun c => isDigit_of_mem_digits
  unfold NumeralLayout.text
  dsimp only
  split
  · split
    · exact .positional (isWhole_singleton rfl) (by simp [digits_ne_nil])
        (isDigit_of_mem_append (fun c => isDigit_of_mem_zeros) hdigits)
    · rename_i hpoint
      rw [List.append_assoc]
      refine .positional (isWhole_of_leads h (by omega) (by omega)) ?_ ?_
      · split <;> simp_all
      · split
        · simp
        · exact fun c hc => hdigits c (List.mem_of_mem_drop hc)
  · obtain ⟨c, u, hcu⟩ := List.exists_cons_of_ne_nil (digits_ne_nil x.coefficient)
    have hc : c.isDigit = true := hdigits c (hcu ▸ List.mem_cons_self)
    have hu : ∀ d ∈ u, d.isDigit = true := fun d hd => hdigits d (hcu ▸ List.mem_cons_of_mem c hd)
    have htens : ∀ n width, padZeros width (digits n) ≠ []
        ∧ ∀ d ∈ padZeros width (digits n), d.isDigit = true := fun n width =>
      ⟨by simp [padZeros, digits_ne_nil], isDigit_of_mem_append (fun d => isDigit_of_mem_zeros)
        fun d => isDigit_of_mem_digits⟩
    have hmark : ∀ leading : Int, ∃ sign, (sign = '+' ∨ sign = '-')
        ∧ (if leading < 0 then ['e', '-'] else ['e', '+']) = ['e', sign] := by
      intro leading
      split
      · exact ⟨'-', .inr rfl, rfl⟩
      · exact ⟨'+', .inl rfl, rfl⟩
    obtain ⟨sign, hsign, hmark⟩ := hmark ((digits x.coefficient).length + x.tens - 1)
    rw [hmark, hcu, List.take_succ_cons, List.take_zero, List.drop_succ_cons, List.drop_zero,
      List.append_assoc, List.append_assoc]
    exact .exponential (isWhole_singleton hc) hu hsign (htens _ _).1 (htens _ _).2

/-! The shortest decimal of a number that is not zero is not zero. -/

theorem coefficient_ne_zero_of_holds {i : Interval} (hlow : 0 < i.low) {c : Nat} {k : Int}
    (h : i.holds c k = true) : c ≠ 0 := by
  have hpow : ∀ n : Nat, 0 < 10 ^ n := fun n => Nat.pow_pos (by decide)
  rintro rfl
  unfold Interval.holds at h
  by_cases hk : k < 0
  · have hend := Nat.mul_pos hlow (hpow (-k).toNat)
    simp [hk] at h
    omega
  · simp [hk] at h
    omega

theorem holds_of_onGrid? {i : Interval} {c : Nat} {k : Int} (h : i.onGrid? k = some c) :
    i.holds c k = true := by
  have hpick : ∀ {near far : Nat}, (if i.holds near k then some near
      else if i.holds far k then some far else none) = some c → i.holds c k = true := by
    intro near far hsome
    split at hsome
    · rename_i hnear
      exact Option.some.inj hsome ▸ hnear
    · split at hsome
      · rename_i hfar
        exact Option.some.inj hsome ▸ hfar
      · cases hsome
  exact hpick h

theorem low_around_pos {mantissa : Nat} (h : mantissa ≠ 0) (exponent : Int) :
    0 < (Interval.around mantissa exponent).low := by
  have hunit : 0 < Nat.pow 2 exponent.toNat := Nat.pow_pos (by decide)
  have hnum : 4 * Nat.pow 2 exponent.toNat ≤ 4 * mantissa * Nat.pow 2 exponent.toNat :=
    Nat.mul_le_mul_right _ (by omega)
  unfold Interval.around
  dsimp only
  split <;> omega

theorem leads_stripZeros (steps : Nat) {x : Scaled} (h : Leads x) : Leads (x.stripZeros steps) := by
  induction steps generalizing x with
  | zero => exact h
  | succ steps ih =>
    unfold Scaled.stripZeros
    split
    · rename_i hzero
      refine ih (.inl ?_)
      show x.coefficient / 10 ≠ 0
      omega
    · exact h

theorem leads_shortest {mantissa : Nat} (h : mantissa ≠ 0) (exponent : Int) :
    Leads (shortest mantissa exponent) := by
  refine leads_stripZeros 20 ?_
  cases hhit : (Interval.around mantissa exponent).firstHit?
      (leadingExponent (Interval.around mantissa exponent).value
        (Interval.around mantissa exponent).den) with
  | none => exact .inr rfl
  | some hit =>
    obtain ⟨finer, -, hgrid⟩ := List.exists_of_findSome?_eq_some hhit
    obtain ⟨c, hc, rfl⟩ := Option.map_eq_some_iff.mp hgrid
    refine .inl ?_
    have hholds : (Interval.around mantissa exponent).holds c _ = true :=
      holds_of_onGrid? hc
    exact coefficient_ne_zero_of_holds (low_around_pos h exponent) hholds

/-! ## Readers of values -/

/-- A digit stands first, or behind a sign. -/
def StartsNumber (s : List Char) : Prop :=
  ∃ c u, c.isDigit = true ∧ (s = c :: u ∨ s = '-' :: c :: u)

theorem IsRealText.startsNumber {s : List Char} (h : IsRealText s) :
    ∃ c u, c.isDigit = true ∧ s = c :: u := by
  have hwhole : ∀ {whole : List Char} (rest : List Char), IsWhole whole →
      ∃ c u, c.isDigit = true ∧ whole ++ rest = c :: u := by
    intro whole rest hwhole
    obtain ⟨c, u, rfl⟩ := List.exists_cons_of_ne_nil hwhole.ne_nil
    exact ⟨c, u ++ rest, hwhole.digit c List.mem_cons_self, rfl⟩
  cases h with
  | positional h => exact hwhole _ h
  | exponential h => exact hwhole _ h

theorem startsNumber_ofInt (n : Int) : StartsNumber (ofInt n) := by
  have hdigits : ∀ n, ∃ c u, digits n = c :: u ∧ c.isDigit = true := by
    intro n
    obtain ⟨c, u, hcu⟩ := List.exists_cons_of_ne_nil (digits_ne_nil n)
    exact ⟨c, u, hcu, isDigit_of_mem_digits (hcu ▸ List.mem_cons_self)⟩
  cases n with
  | ofNat n =>
    obtain ⟨c, u, hcu, hdigit⟩ := hdigits n
    exact ⟨c, u, hdigit, .inl hcu⟩
  | negSucc n =>
    obtain ⟨c, u, hcu, hdigit⟩ := hdigits (n + 1)
    exact ⟨c, u, hdigit, .inr (congrArg _ hcu)⟩

theorem StartsNumber.append {s : List Char} (h : StartsNumber s) (rest : List Char) :
    StartsNumber (s ++ rest) := by
  obtain ⟨c, u, hdigit, rfl | rfl⟩ := h
  · exact ⟨c, u ++ rest, hdigit, .inl rfl⟩
  · exact ⟨c, u ++ rest, hdigit, .inr rfl⟩

theorem StartsNumber.scalar_eq {s : List Char} (h : StartsNumber s) : scalar s = number s := by
  obtain ⟨c, u, hdigit, rfl | rfl⟩ := h
  · rw [scalar, (find?_words_of_digit hdigit u).1]
  · rw [scalar, (find?_words_of_digit hdigit u).2]

/-- No value but a number begins as numbers do. -/
theorem StartsNumber.value_eq {s : List Char} (h : StartsNumber s) (k depth : Nat) :
    value k depth s = number s := by
  have hne : ∃ c u, s = c :: u ∧ c ≠ '"' ∧ c ≠ '\x7b' ∧ c ≠ '[' := by
    obtain ⟨c, u, hdigit, rfl | rfl⟩ := h
    · refine ⟨c, u, rfl, ?_, ?_, ?_⟩ <;> (rintro rfl; exact absurd hdigit (by decide))
    · exact ⟨'-', c :: u, rfl, by decide, by decide, by decide⟩
  rw [← h.scalar_eq]
  obtain ⟨c, u, rfl, hq, hb, ha⟩ := hne
  cases depth <;> exact token_of_ne hq hb ha

/-- The text of a number that is not whole, with its sign. -/
theorem number_finite (negative : Bool) (mantissa : Nat) (exponent : Int) :
    StartsNumber (realText (.finite negative mantissa exponent))
      ∧ ∃ x, number (realText (.finite negative mantissa exponent)) = .ok (.real x, []) := by
  have hbody : IsRealText (if mantissa = 0 then "0.0".toList
      else realLayout.text (shortest mantissa exponent)) := by
    split
    · refine .positional (isWhole_singleton (c := '0') rfl) (List.cons_ne_nil '0' []) fun c hc => ?_
      rw [List.mem_singleton.mp hc]
      rfl
    · rename_i hne
      exact isRealText_text realLayout (leads_shortest hne exponent)
  unfold realText
  dsimp only
  generalize (if mantissa = 0 then "0.0".toList
      else realLayout.text (shortest mantissa exponent)) = body at hbody
  obtain ⟨c, u, hdigit, rfl⟩ := hbody.startsNumber
  cases negative with
  | true => exact ⟨⟨c, u, hdigit, .inr rfl⟩, hbody.magnitude true _⟩
  | false =>
    refine ⟨⟨c, u, hdigit, .inl rfl⟩, ?_⟩
    have hnumber := number_of_digit hdigit u
    simp only [Bool.false_eq_true, if_false, hnumber]
    exact hbody.magnitude false _

end PhraseCatalog.Json
