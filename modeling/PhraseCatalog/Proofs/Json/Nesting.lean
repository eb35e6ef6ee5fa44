import PhraseCatalog.Json.Reader

/-! Texts that are nested too deeply. Reading goes through a text from its start to its end, and it is
refused for its depth only where more brackets are opened than containers may be nested. -/

set_option autoImplicit false

namespace PhraseCatalog.Json.Reader

def isOpening (c : Char) : Bool := c = '\x7b' || c = '['

def openings (s : List Char) : Nat := s.countP isOpening

theorem openings_cons_of_isOpening {c : Char} (s : List Char) (h : isOpening c = true) :
    openings (c :: s) = openings s + 1 :=
  List.countP_cons_of_pos h

/-- What reading `s` can come to if `n` brackets may be open: an end of `s` is left, and the depth is
refused only where there are more than `n` opening brackets. -/
def Within {α : Type} (n : Nat) (s : List Char) : Step α → Prop
  | .ok (_, rest) => rest <:+ s
  | .error (.tooDeep _) => n < openings s
  | .error _ => True

theorem Within.of_suffix {α : Type} {n : Nat} {s t : List Char} {step : Step α}
    (h : Within n t step) (hst : t <:+ s) : Within n s step := by
  unfold Within at h ⊢
  split
  · exact h.trans hst
  · exact Nat.lt_of_lt_of_le h hst.sublist.countP_le
  · trivial

theorem Within.of_error {α β : Type} {n : Nat} {s : List Char} {step : Step α} {stop : Stop}
    (h : Within n s step) (hstop : step = .error stop) :
    Within n s (.error stop : Step β) := by
  rw [hstop] at h
  cases stop <;> exact h

theorem Within.of_ok {α : Type} {n : Nat} {s rest : List Char} {step : Step α} {a : α}
    (h : Within n s step) (hok : step = .ok (a, rest)) : rest <:+ s := by
  rwa [hok] at h

/-- Behind an opening bracket one container less may be opened. -/
theorem Within.succ {α : Type} {n : Nat} {c : Char} {s : List Char} {step : Step α}
    (h : Within n s step) (hc : isOpening c = true) : Within (n + 1) (c :: s) step := by
  unfold Within at h ⊢
  split
  · exact h.trans (List.suffix_cons c s)
  · rw [openings_cons_of_isOpening s hc]
    exact Nat.succ_lt_succ h
  · trivial

/-! ## Strings and numbers -/

theorem skipSpace_suffix (s : List Char) : skipSpace s <:+ s := List.dropWhile_suffix isSpace

/-- What stands behind the first character that is no space. -/
theorem suffix_of_skipSpace_eq {s rest behind : List Char} {c : Char}
    (hc : skipSpace rest = c :: behind) (h : rest <:+ s) : behind <:+ s := by
  have hspace := skipSpace_suffix rest
  rw [hc] at hspace
  exact (List.suffix_cons c behind).trans (hspace.trans h)

theorem stringBody_within (n : Nat) (opening : List Char) (skip : Nat) (done s : List Char) :
    Within n s (stringBody opening skip done s) := by
  induction s generalizing skip done with
  | nil => cases skip <;> trivial
  | cons c s ih =>
    have hrest := fun skip done => (ih skip done).of_suffix (List.suffix_cons c s)
    cases skip with
    | succ skip => exact hrest skip done
    | zero =>
      unfold stringBody
      split
      · exact List.suffix_cons c s
      split
      · split
        · exact hrest _ _
        · trivial
        · trivial
        · trivial
      split
      · trivial
      · exact hrest _ _

theorem digitRun_suffix (s : List Char) : (digitRun s).2 <:+ s := List.dropWhile_suffix Char.isDigit

theorem wholePart_suffix (s : List Char) : (wholePart s).2 <:+ s := by
  unfold wholePart
  split
  · exact List.suffix_cons _ _
  · exact digitRun_suffix s

theorem fractionPart_suffix (s : List Char) : (fractionPart s).2 <:+ s := by
  unfold fractionPart
  split
  · rename_i rest
    have hrun := digitRun_suffix rest
    split
    · exact List.suffix_rfl
    · rename_i hdigits
      rw [hdigits] at hrun
      exact hrun.trans (List.suffix_cons _ rest)
  · exact List.suffix_rfl

theorem exponentSign_suffix (s : List Char) : (exponentSign s).2 <:+ s := by
  unfold exponentSign
  split
  · exact List.suffix_cons _ _
  · exact List.suffix_cons _ _
  · exact List.suffix_rfl

theorem exponentPart_suffix (s : List Char) : (exponentPart s).2 <:+ s := by
  unfold exponentPart
  split
  · exact List.suffix_rfl
  · rename_i e s
    split
    · have hrun := (digitRun_suffix (exponentSign s).2).trans (exponentSign_suffix s)
      dsimp only
      split
      · exact List.suffix_rfl
      · rename_i hdigits
        rw [hdigits] at hrun
        exact hrun.trans (List.suffix_cons e s)
    · exact List.suffix_rfl

theorem magnitude_within (n : Nat) (negative : Bool) (left : Nat) (s : List Char) :
    Within n s (magnitude negative left s) := by
  have hwhole := wholePart_suffix s
  unfold magnitude
  split
  · trivial
  · rename_i whole rest _ hsplit
    rw [hsplit] at hwhole
    have hrest := ((exponentPart_suffix (fractionPart rest).2).trans (fractionPart_suffix rest)).trans
      hwhole
    dsimp only
    split
    · split
      · trivial
      · exact hrest
    · exact hrest

theorem number_within (n : Nat) (s : List Char) : Within n s (number s) := by
  unfold number
  split
  · exact (magnitude_within n true _ _).of_suffix (List.suffix_cons _ _)
  · exact magnitude_within n false _ s

theorem scalar_within (n : Nat) (s : List Char) : Within n s (scalar s) := by
  unfold scalar
  split
  · exact List.drop_suffix _ s
  · exact number_within n s

/-! ## Containers -/

theorem key_within (n : Nat) (s : List Char) : Within n s (key s) := by
  unfold key
  split
  · rename_i rest
    have hbody := (stringBody_within n rest 0 [] rest).of_suffix (List.suffix_cons '"' rest)
    split
    · rename_i stop hstop
      exact hbody.of_error hstop
    · rename_i k behind hok
      split
      · rename_i value hcolon
        exact (skipSpace_suffix value).trans (suffix_of_skipSpace_eq hcolon (hbody.of_ok hok))
      · trivial
  · trivial

section Containers
variable {n : Nat} {value : List Char → Step Value} (hvalue : ∀ s, Within n s (value s))
include hvalue

theorem items_within (steps : Nat) (done : List Value) (s : List Char) :
    Within n s (items value steps done s) := by
  induction steps generalizing done s with
  | zero => trivial
  | succ steps ih =>
    unfold items
    split
    · rename_i stop hstop
      exact (hvalue s).of_error hstop
    · rename_i v rest hok
      have hrest := (hvalue s).of_ok hok
      split
      · rename_i behind hclose
        exact suffix_of_skipSpace_eq hclose hrest
      · rename_i behind hcomma
        exact (ih (v :: done) (skipSpace behind)).of_suffix
          ((skipSpace_suffix behind).trans (suffix_of_skipSpace_eq hcomma hrest))
      · trivial

theorem pairs_within (steps : Nat) (done : List (String × Value)) (s : List Char) :
    Within n s (pairs value steps done s) := by
  induction steps generalizing done s with
  | zero => trivial
  | succ steps ih =>
    unfold pairs
    split
    · rename_i stop hstop
      exact (key_within n s).of_error hstop
    · rename_i k body hkey
      have hbody := (hvalue body).of_suffix ((key_within n s).of_ok hkey)
      split
      · rename_i stop hstop
        exact hbody.of_error hstop
      · rename_i v rest hok
        have hrest := hbody.of_ok hok
        split
        · rename_i behind hclose
          exact suffix_of_skipSpace_eq hclose hrest
        · rename_i behind hcomma
          exact (ih ((k, v) :: done) (skipSpace behind)).of_suffix
            ((skipSpace_suffix behind).trans (suffix_of_skipSpace_eq hcomma hrest))
        · trivial

theorem array_within (steps : Nat) (s : List Char) : Within n s (array value steps s) := by
  unfold array
  split
  · rename_i rest hclose
    exact suffix_of_skipSpace_eq hclose List.suffix_rfl
  · have hitems := (items_within hvalue steps [] (skipSpace s)).of_suffix (skipSpace_suffix s)
    split
    · rename_i stop hstop
      exact hitems.of_error hstop
    · rename_i vs rest hok
      exact hitems.of_ok hok

theorem object_within (steps : Nat) (s : List Char) : Within n s (object value steps s) := by
  unfold object
  split
  · rename_i rest hclose
    exact suffix_of_skipSpace_eq hclose List.suffix_rfl
  · have hpairs := (pairs_within hvalue steps [] (skipSpace s)).of_suffix (skipSpace_suffix s)
    split
    · rename_i stop hstop
      exact hpairs.of_error hstop
    · rename_i ps rest hok
      exact hpairs.of_ok hok

end Containers

/-! ## Values -/

theorem token_within {n : Nat} {container : Container → List Char → Step Value}
    (hcontainer : ∀ kind c s, isOpening c = true → Within n (c :: s) (container kind s))
    (s : List Char) : Within n s (token container s) := by
  unfold token
  split
  · rename_i rest
    have hbody := (stringBody_within n rest 0 [] rest).of_suffix (List.suffix_cons '"' rest)
    split
    · rename_i stop hstop
      exact hbody.of_error hstop
    · rename_i text behind hok
      exact hbody.of_ok hok
  · exact hcontainer .object _ _ rfl
  · exact hcontainer .array _ _ rfl
  · exact scalar_within n s

theorem value_within (steps depth : Nat) (s : List Char) :
    Within depth s (value steps depth s) := by
  -- a bracket takes one from the depth, and with none left it is the one too many
  induction depth generalizing s with
  | zero =>
    refine token_within (fun kind c rest hc => ?_) s
    unfold Within
    rw [openings_cons_of_isOpening rest hc]
    exact Nat.succ_pos _
  | succ depth ih =>
    refine token_within (fun kind c rest hc => ?_) s
    cases kind with
    | object => exact (object_within ih steps rest).succ hc
    | array => exact (array_within ih steps rest).succ hc

/-- A text is refused for its depth only if it has more opening brackets than containers may be
nested. -/
theorem nestingLimit_lt_of_tooDeep {s : List Char} {container : Container}
    (h : readChars s = .error (.tooDeep container)) : nestingLimit < openings s := by
  have hdocument : document s = .error (.tooDeep container) := by
    unfold readChars at h
    cases hdocument : document s with
    | ok v => simp [hdocument] at h
    | error stop =>
      rw [hdocument] at h
      cases stop <;> simp_all [Stop.toError]
  unfold document at hdocument
  split at hdocument
  · cases hdocument
  have hwithin := (value_within (s.length + 1) nestingLimit (skipSpace s)).of_suffix
    (skipSpace_suffix s)
  split at hdocument
  · rename_i stop hstop
    obtain rfl : stop = .tooDeep container := by simpa using hdocument
    rw [hstop] at hwithin
    exact hwithin
  · split at hdocument <;> cases hdocument

/-! ## Brackets that are never closed -/

theorem value_replicate_bracket (steps : Nat) {depth n : Nat} (h : depth ≤ n) (rest : List Char) :
    value (steps + 1) depth (List.replicate (n + 1) '[' ++ rest) = .error (.tooDeep .array) := by
  induction depth generalizing n with
  | zero => rfl
  | succ depth ih =>
    obtain ⟨n, rfl⟩ := Nat.exists_eq_succ_of_ne_zero (Nat.ne_zero_of_lt h)
    have hinner := ih (Nat.le_of_succ_le_succ h)
    simp only [List.replicate_succ, List.cons_append] at hinner ⊢
    have hspace : ∀ u, skipSpace ('[' :: u) = '[' :: u := fun _ => rfl
    show array (value (steps + 1) depth) (steps + 1) ('[' :: (List.replicate n '[' ++ rest)) = _
    simp [array, hspace, items, hinner]

/-- The text of an object whose only member opens `n + 1` arrays and closes none. -/
def unclosedArrays (n : Nat) : List Char :=
  ['{', '"', 'a', '"', ':'] ++ (List.replicate (n + 1) '[' ++ ['}'])

theorem readChars_unclosedArrays {n : Nat} (h : nestingLimit ≤ n + 1) :
    readChars (unclosedArrays n) = .error (.tooDeep .array) := by
  have hinner := value_replicate_bracket (unclosedArrays n).length
    (show nestingLimit - 1 ≤ n by omega) ['}']
  have hdocument : document (unclosedArrays n) = .error (.tooDeep .array) := by
    have hvalue : value ((unclosedArrays n).length + 1) nestingLimit (unclosedArrays n)
        = .error (.tooDeep .array) := by
      show object (value ((unclosedArrays n).length + 1) (nestingLimit - 1))
        ((unclosedArrays n).length + 1)
        ('"' :: 'a' :: '"' :: ':' :: (List.replicate (n + 1) '[' ++ ['}'])) = _
      have hspace : ∀ u, skipSpace ('"' :: u) = '"' :: u := fun _ => rfl
      have hkey : key ('"' :: 'a' :: '"' :: ':' :: (List.replicate (n + 1) '[' ++ ['}']))
          = .ok ("a", List.replicate (n + 1) '[' ++ ['}']) := rfl
      simp [object, hspace, pairs, hkey, hinner]
    have hspace : skipSpace (unclosedArrays n) = unclosedArrays n := rfl
    have hmark : (unclosedArrays n).head? ≠ some '\uFEFF' := by simp [unclosedArrays]
    rw [document, if_neg hmark, hspace, hvalue]
  rw [readChars, hdocument]
  rfl

end PhraseCatalog.Json.Reader
