import PhraseCatalog.Proofs.Json.Numbers

/-! What is written is read back. The text of a value is read as the value with its numbers as they are
read and its repeated keys joined, on one line as well as with one member a line, unless containers
are nested too deeply in it or a whole number is too long. A value without binary numbers and repeated
keys is read as it was. -/

set_option autoImplicit false

namespace PhraseCatalog.Json

open Decimal Reader Text

/-! ## Strings -/

theorem hexValue?_hexDigit {d : Nat} (h : d < 16) : hexValue? (hexDigit d) = some d := by
  have hall : ∀ d : Fin 16, hexValue? (hexDigit d.val) = some d.val := by decide
  exact hall ⟨d, h⟩

theorem length_hexDigits (width n : Nat) : (hexDigits width n).length = width := by
  induction width generalizing n with
  | zero => rfl
  | succ width ih => rw [hexDigits, List.length_append, ih, List.length_singleton]

theorem unit?_hexDigits {n : Nat} (hn : n < 0x10000) {rest : List Char} (hrest : rest ≠ []) :
    unit? (hexDigits 4 n ++ rest) = some n := by
  obtain ⟨c, rest, rfl⟩ := List.exists_cons_of_ne_nil hrest
  have h3 := hexValue?_hexDigit (show n / 16 / 16 / 16 % 16 < 16 by omega)
  have h2 := hexValue?_hexDigit (show n / 16 / 16 % 16 < 16 by omega)
  have h1 := hexValue?_hexDigit (show n / 16 % 16 < 16 by omega)
  have h0 := hexValue?_hexDigit (show n % 16 < 16 by omega)
  have hsum : ((n / 16 / 16 / 16 % 16 * 16 + n / 16 / 16 % 16) * 16 + n / 16 % 16) * 16 + n % 16
      = n := by omega
  simp [hexDigits, unit?, h3, h2, h1, h0, hsum]

theorem escape_control {c : Char} (hc : c.toNat < 0x20) {rest : List Char} (hrest : rest ≠ []) :
    escape ('u' :: (hexDigits 4 c.toNat ++ rest)) = .ok (c, 5) := by
  have hlow : (0xD800 ≤ c.toNat && c.toNat < 0xDC00) = false := by
    simp only [Bool.and_eq_false_iff, decide_eq_false_iff_not]
    omega
  have hsurrogate : (0xD800 ≤ c.toNat && c.toNat < 0xE000) = false := by
    simp only [Bool.and_eq_false_iff, decide_eq_false_iff_not]
    omega
  simp only [escape, unit?_hexDigits (show c.toNat < 0x10000 by omega) hrest, hlow, charOfUnit,
    hsurrogate, Bool.false_eq_true, if_false, Char.ofNat_toNat]

theorem half?_control {c : Char} (hc : c.toNat < 0x20) {rest : List Char} (hrest : rest ≠ []) :
    half? 5 ('u' :: (hexDigits 4 c.toNat ++ rest)) = none := by
  have hsurrogate : (0xD800 ≤ c.toNat && c.toNat < 0xE000) = false := by
    simp only [Bool.and_eq_false_iff, decide_eq_false_iff_not]
    omega
  simp [half?, unit?_hexDigits (show c.toNat < 0x10000 by omega) hrest, Option.filter, hsurrogate]

/-- How a character of a string is written in front of further text: as it is, or by an escape. -/
inductive Spells (c : Char) (rest : List Char) : List Char → Prop
  | plain (ne_quote : c ≠ '"') (ne_backslash : c ≠ '\\') (printed : ¬ c.toNat < 0x20) :
    Spells c rest (c :: rest)
  | escaped {tail : List Char} {width : Nat} (escape_eq : escape tail = .ok (c, width))
    (width_lt : width < tail.length) (drop_eq : tail.drop width = rest)
    (whole : half? width tail = none) : Spells c rest ('\\' :: tail)

theorem spells (c : Char) {rest : List Char} (hrest : rest ≠ []) :
    Spells c rest (spell false c ++ rest) := by
  have hlen : 0 < rest.length := List.length_pos_iff.mpr hrest
  have hletter : ∀ d, escape (d :: rest) = .ok (c, 1) → Spells c rest ('\\' :: d :: rest) := by
    refine fun d hd => .escaped hd (by simp only [List.length_cons]; omega) rfl ?_
    unfold half?
    split <;> rfl
  unfold spell
  by_cases h1 : c = '"'
  · subst h1
    exact hletter '"' rfl
  by_cases h2 : c = '\\'
  · subst h2
    exact hletter '\\' rfl
  by_cases h3 : c = '\n'
  · subst h3
    exact hletter 'n' rfl
  by_cases h4 : c = '\r'
  · subst h4
    exact hletter 'r' rfl
  by_cases h5 : c = '\t'
  · subst h5
    exact hletter 't' rfl
  by_cases h6 : c = '\x08'
  · subst h6
    exact hletter 'b' rfl
  by_cases h7 : c = '\x0c'
  · subst h7
    exact hletter 'f' rfl
  rw [if_neg h1, if_neg h2, if_neg h3, if_neg h4, if_neg h5, if_neg h6, if_neg h7]
  by_cases h8 : c.toNat < 0x20
  · have hunit : unitEscape c.toNat ++ rest = '\\' :: 'u' :: (hexDigits 4 c.toNat ++ rest) := rfl
    rw [if_pos h8, hunit]
    refine .escaped (escape_control h8 hrest) ?_ ?_ (half?_control h8 hrest)
    · simp only [List.length_cons, List.length_append, length_hexDigits]
      omega
    · rw [List.drop_succ_cons, List.drop_left' (length_hexDigits 4 _)]
  · rw [if_neg h8]
    exact .plain h1 h2 h8

theorem stringBody_spell (c : Char) (opening done : List Char) {rest : List Char}
    (hrest : rest ≠ []) :
    stringBody opening 0 done (spell false c ++ rest) = stringBody opening 0 (c :: done) rest := by
  have hspells := spells c hrest
  generalize spell false c ++ rest = written at hspells ⊢
  cases hspells with
  | plain hq hb hc => rw [stringBody, if_neg hq, if_neg hb, if_neg hc]
  | @escaped tail width hescape hlen hdrop =>
    rw [stringBody, if_neg (by decide), if_pos rfl, hescape]
    exact (stringBody_skip opening (c :: done) tail width hlen).trans (by rw [hdrop])

theorem halves_skip (index n : Nat) (s : List Char) :
    halves index n s = halves index 0 (s.drop n) := by
  induction n generalizing s with
  | zero => rfl
  | succ n ih =>
    cases s with
    | nil => rfl
    | cons c s => exact ih s

/-- No half of a surrogate pair comes of writing a character. -/
theorem halves_spell (c : Char) (index : Nat) {rest : List Char} (hrest : rest ≠ []) :
    halves index 0 (spell false c ++ rest) = halves (index + 1) 0 rest := by
  have hspells := spells c hrest
  generalize spell false c ++ rest = written at hspells ⊢
  cases hspells with
  | plain hq hb hc => rw [halves, if_neg hq, if_neg hb]
  | @escaped tail width hescape _ hdrop hwhole =>
    rw [halves, if_neg (by decide), if_pos rfl, hescape]
    simp only [hwhole]
    rw [halves_skip, hdrop]
    rfl

theorem stringBody_flatMap_spell (s opening done rest : List Char) :
    stringBody opening 0 done (s.flatMap (spell false) ++ '"' :: rest)
      = .ok (String.ofList (done.reverse ++ s), rest) := by
  induction s generalizing done with
  | nil => simp [stringBody]
  | cons c s ih =>
    rw [List.flatMap_cons, List.append_assoc, stringBody_spell c opening done (by simp), ih]
    simp

theorem quote_append (s : String) (rest : List Char) :
    quote false s ++ rest = '"' :: (s.toList.flatMap (spell false) ++ '"' :: rest) := by
  simp [quote]

theorem halves_flatMap_spell (s : List Char) (index : Nat) (rest : List Char) :
    halves index 0 (s.flatMap (spell false) ++ '"' :: rest) = [] := by
  induction s generalizing index with
  | nil => simp [halves]
  | cons c s ih => rw [List.flatMap_cons, List.append_assoc, halves_spell c index (by simp), ih]

theorem stringBody_quote (s : String) (opening rest : List Char) :
    stringBody opening 0 [] (s.toList.flatMap (spell false) ++ '"' :: rest) = .ok (s, rest) := by
  rw [stringBody_flatMap_spell]
  simp

/-! ## Values -/

/-- Characters are written as they are, and lines are indented by blanks. -/
structure Style.Readable (style : Style) : Prop where
  ascii : style.ascii = false
  blank : ∀ tab ∈ style.indent, ∀ c ∈ tab, isSpace c = true

theorem Style.line_readable : Style.line.Readable := ⟨rfl, by simp [Style.line]⟩

theorem Style.tabs_readable : Style.tabs.Readable := ⟨rfl, by simp [Style.tabs, isSpace]⟩

/-- Values without binary numbers, repeated keys and over-long whole numbers, and with at most
`depth` containers around one another. -/
inductive Plain : (depth : Nat) → Value → Prop
  | null (depth : Nat) : Plain depth .null
  | bool (depth : Nat) (b : Bool) : Plain depth (.bool b)
  | int (depth : Nat) {n : Int} (h : (digits n.natAbs).length ≤ digitLimit) : Plain depth (.int n)
  | str (depth : Nat) (s : String) : Plain depth (.str s)
  | arr {depth : Nat} {items : List Value} (h : ∀ v ∈ items, Plain depth v) :
    Plain (depth + 1) (.arr items)
  | obj {depth : Nat} {members : List (String × Value)} (keys : (members.map (·.1)).Nodup)
    (h : ∀ m ∈ members, Plain depth m.2) : Plain (depth + 1) (.obj members)

theorem Plain.mono {depth depth' : Nat} (hle : depth ≤ depth') {v : Value} (h : Plain depth v) :
    Plain depth' v := by
  induction h generalizing depth' with
  | null => exact .null depth'
  | bool _ b => exact .bool depth' b
  | int _ h => exact .int depth' h
  | str _ s => exact .str depth' s
  | arr _ ih =>
    obtain ⟨depth', rfl⟩ := Nat.exists_eq_add_of_le' (Nat.lt_of_lt_of_le (Nat.succ_pos _) hle)
    exact .arr fun v hv => ih v hv (Nat.le_of_succ_le_succ hle)
  | obj keys _ ih =>
    obtain ⟨depth', rfl⟩ := Nat.exists_eq_add_of_le' (Nat.lt_of_lt_of_le (Nat.succ_pos _) hle)
    exact .obj keys fun m hm => ih m hm (Nat.le_of_succ_le_succ hle)

/-- The text starts with a character that opens a value. -/
def StartsValue (s : List Char) : Prop :=
  ∃ c u, s = c :: u ∧ isSpace c = false ∧ c ≠ ']' ∧ c ≠ '\uFEFF'

theorem StartsValue.skipSpace_append {s : List Char} (h : StartsValue s) {blank : List Char}
    (hb : ∀ c ∈ blank, isSpace c = true) (rest : List Char) :
    skipSpace (blank ++ (s ++ rest)) = s ++ rest := by
  obtain ⟨c, u, rfl, hc, -, -⟩ := h
  rw [skipSpace, List.dropWhile_append_of_pos hb]
  simp [hc]

theorem StartsNumber.startsValue {s : List Char} (h : StartsNumber s) : StartsValue s := by
  obtain ⟨c, u, hdigit, rfl | rfl⟩ := h
  · refine ⟨c, u, rfl, ?_, by rintro rfl; revert hdigit; decide, by rintro rfl; revert hdigit; decide⟩
    rw [Bool.eq_false_iff]
    simp only [isSpace, ne_eq, Bool.or_eq_true, decide_eq_true_eq]
    rintro (((rfl | rfl) | rfl) | rfl) <;> revert hdigit <;> decide
  · exact ⟨'-', c :: u, rfl, by decide, by decide, by decide⟩

theorem startsValue_text (style : Style) (level : Nat) (v : Value) :
    StartsValue (style.text level v) := by
  cases v with
  | null => exact ⟨_, _, rfl, by decide, by decide, by decide⟩
  | bool b => cases b <;> exact ⟨_, _, rfl, by decide, by decide, by decide⟩
  | int n => exact (startsNumber_ofInt n).startsValue
  | real x =>
    cases x with
    | finite negative mantissa exponent =>
      exact (number_finite negative mantissa exponent).1.startsValue
    | infinite negative => cases negative <;> exact ⟨_, _, rfl, by decide, by decide, by decide⟩
    | undefined => exact ⟨_, _, rfl, by decide, by decide, by decide⟩
  | str | torn => exact ⟨'"', _, rfl, by decide, by decide, by decide⟩
  | arr items => cases items <;> exact ⟨'[', _, rfl, by decide, by decide, by decide⟩
  | obj members => cases members <;> exact ⟨'\x7b', _, rfl, by decide, by decide, by decide⟩

/-- What the text of a number that is not whole is read as. -/
def rereadReal (x : Binary64) : Binary64 :=
  match scalar (realText x) with
  | .ok (.real y, _) => y
  | _ => x

/-- What the text of a value is read as where `depth` containers may stand around one another. -/
def reread : (depth : Nat) → Value → Except Stop Value
  | _, .null => .ok .null
  | _, .bool b => .ok (.bool b)
  | _, .int n => rereadInt n
  | _, .real x => .ok (.real (rereadReal x))
  | _, .str s | _, .torn s _ _ => .ok (.str s)
  | 0, .arr _ => .error (.tooDeep .array)
  | 0, .obj _ => .error (.tooDeep .object)
  | depth + 1, .arr items => (items.mapM (reread depth)).map .arr
  | depth + 1, .obj members =>
    (members.mapM fun m => (reread depth m.2).map fun v => (m.1, v)).map fun pairs =>
      .obj (ofPairs pairs)

section Reread
variable (depth : Nat)

@[simp]
theorem reread_null : reread depth .null = .ok .null := by cases depth <;> rfl

@[simp]
theorem reread_bool (b : Bool) : reread depth (.bool b) = .ok (.bool b) := by cases depth <;> rfl

@[simp]
theorem reread_int (n : Int) : reread depth (.int n) = rereadInt n := by cases depth <;> rfl

@[simp]
theorem reread_real (x : Binary64) : reread depth (.real x) = .ok (.real (rereadReal x)) := by
  cases depth <;> rfl

@[simp]
theorem reread_str (s : String) : reread depth (.str s) = .ok (.str s) := by cases depth <;> rfl

@[simp]
theorem reread_torn (s : String) (first : Half) (more : List Half) :
    reread depth (.torn s first more) = .ok (.str s) := by cases depth <;> rfl

end Reread

theorem readsTo_of_eq_ok {k depth : Nat} {s : List Char} {v : Value}
    (h : value k depth s = .ok (v, [])) : ReadsTo (value k depth) s (.ok v) :=
  fun _ hr => (value_extends (Nat.le_refl k) depth).append h hr

theorem readsTo_int (k depth : Nat) (n : Int) : ReadsTo (value k depth) (ofInt n) (rereadInt n) := by
  intro rest hrest
  rw [((startsNumber_ofInt n).append rest).value_eq]
  exact number_ofInt n rest hrest

theorem readsTo_real (k depth : Nat) (x : Binary64) :
    ReadsTo (value k depth) (realText x) (.ok (.real (rereadReal x))) := by
  refine readsTo_of_eq_ok ?_
  cases x with
  | finite negative mantissa exponent =>
    obtain ⟨hstarts, y, hnumber⟩ := number_finite negative mantissa exponent
    rw [hstarts.value_eq, rereadReal, hstarts.scalar_eq, hnumber]
  | infinite negative => cases negative <;> cases depth <;> rfl
  | undefined => cases depth <;> rfl

theorem array_of_items {readValue : List Char → Step Value} {n : Nat} {s u rest : List Char} {c : Char}
    {result : Except Stop (List Value)} (hs : skipSpace s = c :: u) (hc : c ≠ ']')
    (h : items readValue n [] (c :: u) = result.map fun vs => (vs, rest)) :
    array readValue n s = (result.map .arr).map fun v => (v, rest) := by
  cases result <;> simp_all [array, Except.map]

theorem object_of_pairs {readValue : List Char → Step Value} {n : Nat} {s u rest : List Char}
    {c : Char} {result : Except Stop (List (String × Value))} (hs : skipSpace s = c :: u)
    (hc : c ≠ '\x7d') (h : pairs readValue n [] (c :: u) = result.map fun ps => (ps, rest)) :
    object readValue n s
      = (result.map fun ps => .obj (ofPairs ps)).map fun v => (v, rest) := by
  cases result <;> simp_all [object, Except.map]

section MapM
variable {ε α β : Type} {f : α → Except ε β} {a : α} {l : List α}

theorem mapM_cons_of_error {e : ε} (h : f a = .error e) : (a :: l).mapM f = .error e := by
  rw [List.mapM_cons, h]
  rfl

theorem mapM_cons_of_ok {b : β} (h : f a = .ok b) :
    (a :: l).mapM f = (l.mapM f).map fun bs => b :: bs := by
  rw [List.mapM_cons, h]
  cases l.mapM f <;> rfl

end MapM

section Containers
variable {style : Style} (hs : style.Readable)
include hs

theorem gap_blank (level : Nat) : ∀ c ∈ style.gap level, isSpace c = true := by
  unfold Style.gap
  cases hi : style.indent with
  | none => simp
  | some tab =>
    intro c hc
    rcases List.mem_cons.mp hc with rfl | hc
    · decide
    · obtain ⟨line, hline, hmem⟩ := List.mem_flatten.mp hc
      obtain rfl := List.eq_of_mem_replicate hline
      exact hs.blank line hi c hmem

theorem exists_comma_eq (level : Nat) :
    ∃ blank, style.comma level = ',' :: blank ∧ ∀ c ∈ blank, isSpace c = true := by
  unfold Style.comma
  cases style.indent with
  | none => exact ⟨[' '], rfl, by simp [isSpace]⟩
  | some tab => exact ⟨_, rfl, gap_blank hs level⟩

theorem skipSpace_gap (level : Nat) {c : Char} (hc : isSpace c = false) (rest : List Char) :
    skipSpace (style.gap level ++ c :: rest) = c :: rest := by
  rw [skipSpace, List.dropWhile_append_of_pos (gap_blank hs level)]
  simp [hc]

theorem items_text {readValue : List Char → Step Value} {result : Value → Except Stop Value}
    {level : Nat} (outer : Nat) (vs : List Value) (v : Value) {n : Nat} (done : List Value)
    (rest : List Char) (hn : vs.length < n)
    (hread : ∀ w ∈ v :: vs, ReadsTo readValue (style.text level w) (result w)) :
    items readValue n done
        (style.text level v ++ (style.itemsTail level vs ++ (style.gap outer ++ ']' :: rest)))
      = ((v :: vs).mapM result).map fun ws => (done.reverse ++ ws, rest) := by
  obtain ⟨n, rfl⟩ : ∃ m, n = m + 1 := ⟨n - 1, by omega⟩
  have hv := hread v List.mem_cons_self
  induction vs generalizing v n done with
  | nil =>
    have hclose := skipSpace_gap hs outer (show isSpace ']' = false by decide) rest
    have hv' := hv (style.gap outer ++ ']' :: rest) (by
      simpa using endsNumber_of_skipSpace [] hclose (by decide))
    cases hresult : result v with
    | error stop =>
      rw [hresult] at hv'
      rw [mapM_cons_of_error hresult]
      simp only [Style.itemsTail, List.nil_append, items, hv', Except.map]
    | ok w =>
      rw [hresult] at hv'
      rw [mapM_cons_of_ok hresult]
      simp only [Style.itemsTail, List.nil_append, items, hv', Except.map, hclose]
      simp [pure, Except.pure]
  | cons w vs ih =>
    simp only [List.length_cons] at hn
    obtain ⟨n, rfl⟩ : ∃ m, n = m + 1 := ⟨n - 1, by omega⟩
    obtain ⟨blank, hcomma, hblank⟩ := exists_comma_eq hs level
    -- behind the first item stand a comma, the gap that the style has there, and the next item
    have hskip := (startsValue_text style level w).skipSpace_append hblank
      (style.itemsTail level vs ++ (style.gap outer ++ ']' :: rest))
    have htail : style.itemsTail level (w :: vs) ++ (style.gap outer ++ ']' :: rest)
        = ',' :: (blank ++ (style.text level w
          ++ (style.itemsTail level vs ++ (style.gap outer ++ ']' :: rest)))) := by
      simp [Style.itemsTail, hcomma]
    have hv' := hv (style.itemsTail level (w :: vs) ++ (style.gap outer ++ ']' :: rest)) (by
      rw [htail]
      rintro _ ⟨⟩
      decide)
    cases hresult : result v with
    | error stop =>
      rw [hresult] at hv'
      rw [mapM_cons_of_error hresult, items, hv']
      rfl
    | ok x =>
      have hw := ih w (x :: done) (fun y hy => hread y (List.mem_cons_of_mem _ hy)) n (by omega)
        (hread w (by simp))
      rw [hresult] at hv'
      rw [mapM_cons_of_ok hresult, items, hv', htail]
      simp only [Except.map, skipSpace,
        List.dropWhile_cons_of_neg (show ¬ isSpace ',' = true by decide)]
      rw [← skipSpace, hskip, hw]
      cases (w :: vs).mapM result <;> simp [Except.map]

theorem key_quote (name : String) (rest : List Char) :
    key (quote style.ascii name ++ ([':', ' '] ++ rest)) = .ok (name, skipSpace rest) := by
  have hcolon : skipSpace (':' :: ' ' :: rest) = ':' :: ' ' :: rest := rfl
  rw [hs.ascii, quote_append]
  simp only [key, stringBody_quote, List.cons_append, List.nil_append, hcolon]
  rfl

def memberText (style : Style) (level : Nat) (m : String × Value) : List Char :=
  quote style.ascii m.1 ++ ([':', ' '] ++ style.text level m.2)

theorem key_memberText (level : Nat) (m : String × Value) (rest : List Char) :
    key (memberText style level m ++ rest) = .ok (m.1, style.text level m.2 ++ rest) := by
  have hskip := @StartsValue.skipSpace_append _ (startsValue_text style level m.2) [] (by simp) rest
  rw [List.nil_append] at hskip
  rw [memberText, List.append_assoc, List.append_assoc, key_quote hs, hskip]

theorem pairs_text {readValue : List Char → Step Value} {result : Value → Except Stop Value}
    {level : Nat} (outer : Nat) (ms : List (String × Value)) (m : String × Value) {n : Nat}
    (done : List (String × Value)) (rest : List Char) (hn : ms.length < n)
    (hread : ∀ x ∈ m :: ms, ReadsTo readValue (style.text level x.2) (result x.2)) :
    pairs readValue n done (memberText style level m
        ++ (style.membersTail level ms ++ (style.gap outer ++ '\x7d' :: rest)))
      = ((m :: ms).mapM fun x => (result x.2).map fun v => (x.1, v)).map fun ps =>
        (done.reverse ++ ps, rest) := by
  obtain ⟨n, rfl⟩ : ∃ m, n = m + 1 := ⟨n - 1, by omega⟩
  have hm := hread m List.mem_cons_self
  have hkey := key_memberText hs level m
  induction ms generalizing m n done with
  | nil =>
    have hclose := skipSpace_gap hs outer (show isSpace '\x7d' = false by decide) rest
    have hm' := hm (style.gap outer ++ '\x7d' :: rest) (by
      simpa using endsNumber_of_skipSpace [] hclose (by decide))
    cases hresult : result m.2 with
    | error stop =>
      rw [hresult] at hm'
      rw [mapM_cons_of_error (by rw [hresult]; rfl)]
      simp only [Style.membersTail, List.nil_append, pairs, hkey, hm', Except.map]
    | ok v =>
      rw [hresult] at hm'
      rw [mapM_cons_of_ok (by rw [hresult]; rfl)]
      simp only [Style.membersTail, List.nil_append, pairs, hkey, hm', Except.map, hclose]
      simp [pure, Except.pure]
  | cons x ms ih =>
    simp only [List.length_cons] at hn
    obtain ⟨n, rfl⟩ : ∃ m, n = m + 1 := ⟨n - 1, by omega⟩
    obtain ⟨blank, hcomma, hblank⟩ := exists_comma_eq hs level
    have hquote : StartsValue (memberText style level x) :=
      ⟨'"', _, rfl, by decide, by decide, by decide⟩
    have hskip := hquote.skipSpace_append hblank
      (style.membersTail level ms ++ (style.gap outer ++ '\x7d' :: rest))
    have htail : style.membersTail level (x :: ms) ++ (style.gap outer ++ '\x7d' :: rest)
        = ',' :: (blank ++ (memberText style level x
          ++ (style.membersTail level ms ++ (style.gap outer ++ '\x7d' :: rest)))) := by
      obtain ⟨name, item⟩ := x
      simp [Style.membersTail, hcomma, memberText]
    have hm' := hm (style.membersTail level (x :: ms) ++ (style.gap outer ++ '\x7d' :: rest)) (by
      rw [htail]
      rintro _ ⟨⟩
      decide)
    rw [pairs, hkey]
    simp only
    cases hresult : result m.2 with
    | error stop =>
      rw [hresult] at hm'
      rw [mapM_cons_of_error (by rw [hresult]; rfl), hm']
      rfl
    | ok v =>
      have hx := ih x ((m.1, v) :: done) (fun y hy => hread y (List.mem_cons_of_mem _ hy)) n
        (by omega) (hread x (by simp)) (key_memberText hs level x)
      rw [hresult] at hm'
      rw [mapM_cons_of_ok (by rw [hresult]; rfl), hm', htail]
      generalize (x :: ms).mapM (fun y => (result y.2).map fun v => (y.1, v)) = results at hx ⊢
      simp only [Except.map, skipSpace,
        List.dropWhile_cons_of_neg (show ¬ isSpace ',' = true by decide)]
      rw [← skipSpace, hskip, hx]
      cases results <;> simp [Except.map]

omit hs in
theorem length_itemsTail (level : Nat) (vs : List Value) :
    vs.length ≤ (style.itemsTail level vs).length
      ∧ ∀ w ∈ vs, (style.text level w).length ≤ (style.itemsTail level vs).length := by
  induction vs with
  | nil => simp
  | cons v vs ih =>
    obtain ⟨hlen, hmem⟩ := ih
    have hcomma : 0 < (style.comma level).length := by simp [Style.comma]
    have htail : (style.itemsTail level (v :: vs)).length = (style.comma level).length
        + (style.text level v).length + (style.itemsTail level vs).length := by
      simp [Style.itemsTail]
      omega
    refine ⟨by simp only [List.length_cons]; omega, ?_⟩
    intro w hw
    rcases List.mem_cons.mp hw with rfl | hw
    · omega
    · have := hmem w hw
      omega

omit hs in
theorem length_membersTail (level : Nat) (ms : List (String × Value)) :
    ms.length ≤ (style.membersTail level ms).length
      ∧ ∀ m ∈ ms, (style.text level m.2).length ≤ (style.membersTail level ms).length := by
  induction ms with
  | nil => simp
  | cons m ms ih =>
    obtain ⟨name, item⟩ := m
    obtain ⟨hlen, hmem⟩ := ih
    have hcomma : 0 < (style.comma level).length := by simp [Style.comma]
    have htail : (style.comma level).length + (style.text level item).length
        + (style.membersTail level ms).length
        ≤ (style.membersTail level ((name, item) :: ms)).length := by
      simp [Style.membersTail]
      omega
    refine ⟨by simp only [List.length_cons]; omega, ?_⟩
    intro m hm
    rcases List.mem_cons.mp hm with rfl | hm
    · simp only
      omega
    · have := hmem m hm
      omega

omit hs in
theorem text_arr_cons (level : Nat) (v : Value) (vs : List Value) (rest : List Char) :
    style.text level (.arr (v :: vs)) ++ rest = '[' :: (style.gap (level + 1)
      ++ (style.text (level + 1) v ++ (style.itemsTail (level + 1) vs
        ++ (style.gap level ++ ']' :: rest)))) := by
  have htext : style.text level (.arr (v :: vs)) = '[' :: style.gap (level + 1)
      ++ style.text (level + 1) v ++ style.itemsTail (level + 1) vs ++ style.gap level ++ [']'] := rfl
  rw [htext]
  simp only [List.append_assoc, List.cons_append, List.nil_append]

omit hs in
theorem text_obj_cons (level : Nat) (m : String × Value) (ms : List (String × Value))
    (rest : List Char) :
    style.text level (.obj (m :: ms)) ++ rest = '\x7b' :: (style.gap (level + 1)
      ++ (memberText style (level + 1) m ++ (style.membersTail (level + 1) ms
        ++ (style.gap level ++ '\x7d' :: rest)))) := by
  have htext : style.text level (.obj (m :: ms)) = '\x7b' :: style.gap (level + 1)
      ++ quote style.ascii m.1 ++ [':', ' '] ++ style.text (level + 1) m.2
      ++ style.membersTail (level + 1) ms ++ style.gap level ++ ['\x7d'] := rfl
  rw [htext, memberText]
  simp only [List.append_assoc, List.cons_append, List.nil_append]

omit hs in
/-- The texts of the items are no longer than the text of the array, and so is their number. -/
theorem length_text_arr (level : Nat) (vs : List Value) :
    vs.length ≤ (style.text level (.arr vs)).length
      ∧ ∀ w ∈ vs, (style.text (level + 1) w).length ≤ (style.text level (.arr vs)).length := by
  cases vs with
  | nil => simp
  | cons v vs =>
    obtain ⟨hlen, hmem⟩ := @length_itemsTail style (level + 1) vs
    have htext := congrArg List.length (@text_arr_cons style level v vs [])
    simp only [List.append_nil, List.length_cons, List.length_append] at htext
    refine ⟨by simp only [List.length_cons]; omega, fun w hw => ?_⟩
    rcases List.mem_cons.mp hw with rfl | hw
    · omega
    · have := hmem w hw
      omega

omit hs in
theorem length_text_obj (level : Nat) (ms : List (String × Value)) :
    ms.length ≤ (style.text level (.obj ms)).length
      ∧ ∀ m ∈ ms, (style.text (level + 1) m.2).length ≤ (style.text level (.obj ms)).length := by
  cases ms with
  | nil => simp
  | cons m ms =>
    obtain ⟨hlen, hmem⟩ := @length_membersTail style (level + 1) ms
    have htext := congrArg List.length (@text_obj_cons style level m ms [])
    simp only [List.append_nil, List.length_cons, List.length_append, memberText] at htext
    refine ⟨by simp only [List.length_cons]; omega, fun x hx => ?_⟩
    rcases List.mem_cons.mp hx with rfl | hx
    · omega
    · have := hmem x hx
      omega

theorem array_text {readValue : List Char → Step Value} {result : Value → Except Stop Value}
    {level n : Nat} {vs : List Value} (hn : vs.length ≤ n)
    (hread : ∀ w ∈ vs, ReadsTo readValue (style.text (level + 1) w) (result w)) (rest : List Char) :
    ∃ inner, style.text level (.arr vs) ++ rest = '[' :: inner
      ∧ array readValue n inner = ((vs.mapM result).map .arr).map fun v => (v, rest) := by
  cases vs with
  | nil => exact ⟨']' :: rest, rfl, rfl⟩
  | cons v vs =>
    refine ⟨_, text_arr_cons level v vs rest, ?_⟩
    have hitems := items_text hs level vs v [] rest hn hread
    have hstart := startsValue_text style (level + 1) v
    have hskip := hstart.skipSpace_append (gap_blank hs (level + 1))
      (style.itemsTail (level + 1) vs ++ (style.gap level ++ ']' :: rest))
    obtain ⟨c, u, hcu, -, hc, -⟩ := hstart
    rw [hcu, List.cons_append] at hitems hskip
    rw [hcu, List.cons_append]
    exact array_of_items hskip hc hitems

theorem object_text {readValue : List Char → Step Value} {result : Value → Except Stop Value}
    {level n : Nat} {ms : List (String × Value)} (hn : ms.length ≤ n)
    (hread : ∀ m ∈ ms, ReadsTo readValue (style.text (level + 1) m.2) (result m.2))
    (rest : List Char) :
    ∃ inner, style.text level (.obj ms) ++ rest = '\x7b' :: inner
      ∧ object readValue n inner
        = ((ms.mapM fun m => (result m.2).map fun v => (m.1, v)).map fun ps =>
          .obj (ofPairs ps)).map fun v => (v, rest) := by
  cases ms with
  | nil => exact ⟨'\x7d' :: rest, rfl, rfl⟩
  | cons m ms =>
    refine ⟨_, text_obj_cons level m ms rest, ?_⟩
    have hpairs := pairs_text hs level ms m [] rest hn hread
    have hstart : StartsValue (memberText style (level + 1) m) :=
      ⟨'"', _, rfl, by decide, by decide, by decide⟩
    have hskip := hstart.skipSpace_append (gap_blank hs (level + 1))
      (style.membersTail (level + 1) ms ++ (style.gap level ++ '\x7d' :: rest))
    exact object_of_pairs hskip (by decide) hpairs

theorem readsTo_quote (k depth : Nat) (s : String) :
    ReadsTo (value k depth) (quote style.ascii s) (.ok (.str s)) := by
  refine readsTo_of_eq_ok ?_
  have hquote : quote style.ascii s = '"' :: (s.toList.flatMap (spell false) ++ ['"']) := by
    rw [hs.ascii]
    rfl
  rw [hquote]
  cases depth <;> simp only [value, token, stringBody_quote, halves_flatMap_spell, Value.ofString]

/-- The text of any value is read to its end, or up to the first thing in it that is refused. -/
theorem readsTo_text (depth : Nat) (v : Value) (level : Nat) {k : Nat}
    (hk : (style.text level v).length ≤ k) :
    ReadsTo (value k depth) (style.text level v) (reread depth v) := by
  induction depth using Nat.strongRecOn generalizing v level with
  | ind depth ih =>
    cases v with
    | null =>
      rw [reread_null]
      exact readsTo_of_eq_ok (by cases depth <;> rfl)
    | bool b =>
      rw [reread_bool]
      exact readsTo_of_eq_ok (by cases depth <;> cases b <;> rfl)
    | int n =>
      rw [reread_int]
      exact readsTo_int k depth n
    | real x =>
      rw [reread_real]
      exact readsTo_real k depth x
    | str s =>
      rw [reread_str]
      exact readsTo_quote hs k depth s
    | torn s first more =>
      rw [reread_torn]
      exact readsTo_quote hs k depth s
    | arr vs =>
      obtain ⟨hlen, hmem⟩ := @length_text_arr style level vs
      intro rest _
      cases depth with
      | zero => cases vs <;> rfl
      | succ depth =>
        -- the items are read with one container less
        obtain ⟨inner, htext, harray⟩ := array_text hs (Nat.le_trans hlen hk) (fun w hw =>
          ih depth (Nat.lt_succ_self depth) w (level + 1) (Nat.le_trans (hmem w hw) hk)) rest
        rw [htext]
        exact harray
    | obj ms =>
      obtain ⟨hlen, hmem⟩ := @length_text_obj style level ms
      intro rest _
      cases depth with
      | zero => cases ms <;> rfl
      | succ depth =>
        obtain ⟨inner, htext, hobject⟩ := object_text hs (Nat.le_trans hlen hk) (fun m hm =>
          ih depth (Nat.lt_succ_self depth) m.2 (level + 1) (Nat.le_trans (hmem m hm) hk)) rest
        rw [htext]
        exact hobject

end Containers

theorem readChars_text {style : Style} (hs : style.Readable) (v : Value) :
    readChars (style.text 0 v)
      = (reread nestingLimit v).mapError (Stop.toError (style.text 0 v)) := by
  obtain ⟨c, u, hcu, hspace, -, hbom⟩ := startsValue_text style 0 v
  have hmark : (style.text 0 v).head? ≠ some '\uFEFF' := by
    rw [hcu]
    simpa using hbom
  have hskip : skipSpace (style.text 0 v) = style.text 0 v := by
    rw [hcu]
    simp [skipSpace, hspace]
  have hread := readsTo_text hs nestingLimit v 0 (Nat.le_succ _) [] (by simp [EndsNumber])
  rw [List.append_nil] at hread
  rw [readChars, document, if_neg hmark, hskip, hread]
  cases reread nestingLimit v <;> rfl

theorem read_render_eq {style : Style} (hs : style.Readable) (v : Value) :
    Json.read (v.render style)
      = (reread nestingLimit v).mapError (Stop.toError (style.text 0 v)) := by
  rw [Json.read, Value.render, String.toList_ofList, readChars_text hs]

/-! ## Plain values -/

theorem mapM_of_forall_ok {ε α : Type} {f : α → Except ε α} {l : List α}
    (h : ∀ a ∈ l, f a = .ok a) : l.mapM f = .ok l := by
  induction l with
  | nil => rfl
  | cons a l ih =>
    rw [mapM_cons_of_ok (h a List.mem_cons_self), ih fun b hb => h b (List.mem_cons_of_mem _ hb)]
    rfl

theorem Plain.reread {depth : Nat} {v : Value} (h : Plain depth v) : reread depth v = .ok v := by
  induction h with
  | null depth => exact reread_null depth
  | bool depth b => exact reread_bool depth b
  | int depth h =>
    rw [reread_int, rereadInt, if_neg (Nat.not_lt.mpr h)]
  | str depth s => exact reread_str depth s
  | arr _ ih =>
    rw [Json.reread, mapM_of_forall_ok ih]
    rfl
  | obj keys _ ih =>
    rw [Json.reread, mapM_of_forall_ok fun m hm => by rw [ih m hm]; rfl]
    simp [Except.map, ofPairs_of_nodup keys]

/-- A plain value is what its text is read as. -/
theorem read_render {style : Style} (hs : style.Readable) {v : Value}
    (h : Plain nestingLimit v) : Json.read (v.render style) = .ok v := by
  rw [read_render_eq hs, h.reread]
  rfl

end PhraseCatalog.Json
