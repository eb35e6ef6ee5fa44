import PhraseCatalog.Text.Utf8

/-! The decoder of UTF-8 takes exactly the encodings of texts, and gives each text back. -/

set_option autoImplicit false

namespace PhraseCatalog.Text.Utf8

/-! ## Tests of bytes as bounds on their values -/

theorem isContinuation_iff {b : UInt8} :
    isContinuation b = true ↔ 0x80 ≤ b.toNat ∧ b.toNat < 0xC0 := by
  simp [isContinuation, UInt8.lt_iff_toNat_lt, UInt8.le_iff_toNat_le]

theorem isSecond_iff {a b : UInt8} :
    isSecond a b = true ↔ (0x80 ≤ b.toNat ∧ b.toNat < 0xC0)
      ∧ (a.toNat = 0xE0 → 0xA0 ≤ b.toNat) ∧ (a.toNat = 0xED → b.toNat < 0xA0)
      ∧ (a.toNat = 0xF0 → 0x90 ≤ b.toNat) ∧ (a.toNat = 0xF4 → b.toNat < 0x90) := by
  simp only [isSecond, Bool.and_eq_true, isContinuation_iff, and_assoc]
  simp [UInt8.lt_iff_toNat_lt, UInt8.le_iff_toNat_le, ← UInt8.toNat_inj]
  omega

/-- A byte that starts a character of several bytes. -/
theorem startsMore_iff {a : UInt8} : (¬ a < 0x80 ∧ ¬ (a < 0xC2 || 0xF5 ≤ a) = true)
    ↔ 0xC2 ≤ a.toNat ∧ a.toNat < 0xF5 := by
  simp [UInt8.lt_iff_toNat_lt, UInt8.le_iff_toNat_le]
  omega

/-! ## One character -/

theorem toNat_val_ofNat {n : Nat} (h : n.isValidChar) : (Char.ofNat n).val.toNat = n := by
  unfold Char.ofNat
  rw [dif_pos h]
  rfl

theorem encodeChar_one {a : UInt8} (h : a < 0x80) :
    String.utf8EncodeChar (Char.ofNat a.toNat) = [a] := by
  have ha : a.toNat < 0x80 := by simpa [UInt8.lt_iff_toNat_lt] using h
  have hn := toNat_val_ofNat (n := a.toNat) (.inl (by omega))
  simp only [String.utf8EncodeChar, hn]
  rw [if_pos (by omega), UInt8.ofNat_toNat]

section Several
variable {a b c d : UInt8}

theorem encodeChar_two (ha : 0xC2 ≤ a.toNat ∧ a.toNat < 0xF5) (hb : isSecond a b = true)
    (h : a < 0xE0) :
    String.utf8EncodeChar (Char.ofNat ((a.toNat - 0xC0) * 64 + payload b)) = [a, b] := by
  have ha' : a.toNat < 0xE0 := by simpa [UInt8.lt_iff_toNat_lt] using h
  obtain ⟨hb, -⟩ := isSecond_iff.mp hb
  unfold payload
  generalize hv : (a.toNat - 0xC0) * 64 + (b.toNat - 0x80) = v
  have hn := toNat_val_ofNat (n := v) (.inl (by omega))
  simp only [String.utf8EncodeChar, hn]
  rw [if_neg (by omega), if_pos (by omega)]
  simp only [List.cons.injEq, ← UInt8.toNat_inj, UInt8.toNat_ofNat', and_true]
  omega

theorem encodeChar_three (ha : 0xC2 ≤ a.toNat ∧ a.toNat < 0xF5) (hb : isSecond a b = true)
    (hlow : ¬ a < 0xE0) (hc : isContinuation c = true) (h : a < 0xF0) :
    String.utf8EncodeChar (Char.ofNat ((a.toNat - 0xE0) * 4096 + payload b * 64 + payload c))
      = [a, b, c] := by
  have ha' : 0xE0 ≤ a.toNat ∧ a.toNat < 0xF0 := by
    simp [UInt8.lt_iff_toNat_lt] at hlow h
    omega
  obtain ⟨hb, hover, hsurrogate, -⟩ := isSecond_iff.mp hb
  obtain hc := isContinuation_iff.mp hc
  unfold payload
  generalize hv : (a.toNat - 0xE0) * 4096 + (b.toNat - 0x80) * 64 + (c.toNat - 0x80) = v
  have hn := toNat_val_ofNat (n := v) (by unfold Nat.isValidChar; omega)
  simp only [String.utf8EncodeChar, hn]
  rw [if_neg (by omega), if_neg (by omega), if_pos (by omega)]
  simp only [List.cons.injEq, ← UInt8.toNat_inj, UInt8.toNat_ofNat', and_true]
  omega

theorem encodeChar_four (ha : 0xC2 ≤ a.toNat ∧ a.toNat < 0xF5) (hb : isSecond a b = true)
    (hlow : ¬ a < 0xF0) (hc : isContinuation c = true) (hd : isContinuation d = true) :
    String.utf8EncodeChar (Char.ofNat ((a.toNat - 0xF0) * 262144 + payload b * 4096
      + payload c * 64 + payload d)) = [a, b, c, d] := by
  have ha' : 0xF0 ≤ a.toNat := by simpa [UInt8.lt_iff_toNat_lt] using hlow
  obtain ⟨hb, -, -, hover, hlast⟩ := isSecond_iff.mp hb
  obtain hc := isContinuation_iff.mp hc
  obtain hd := isContinuation_iff.mp hd
  unfold payload
  generalize hv : (a.toNat - 0xF0) * 262144 + (b.toNat - 0x80) * 4096 + (c.toNat - 0x80) * 64
    + (d.toNat - 0x80) = v
  have hn := toNat_val_ofNat (n := v) (by unfold Nat.isValidChar; omega)
  simp only [String.utf8EncodeChar, hn]
  rw [if_neg (by omega), if_neg (by omega), if_neg (by omega)]
  simp only [List.cons.injEq, ← UInt8.toNat_inj, UInt8.toNat_ofNat', and_true]
  omega

end Several

/-- The byte of a line feed is no part of another character. -/
theorem newline_notMem_encodeChar {c : Char} (h : c ≠ '\n') :
    0x0A ∉ String.utf8EncodeChar c := by
  have hn : c.val.toNat ≠ 10 := fun heq => h (Char.ext (UInt32.toNat_inj.mp heq))
  unfold String.utf8EncodeChar
  generalize c.val.toNat = v at hn
  dsimp only
  have hbyte : ∀ n, (0x0A : UInt8) = UInt8.ofNat n ↔ 10 = n % 256 := by
    intro n
    rw [← UInt8.toNat_inj, UInt8.toNat_ofNat']
    rfl
  -- the bytes of a longer character are at least `0x80`
  split
  · simp only [List.mem_singleton, hbyte]
    omega
  split
  · simp only [List.mem_cons, List.not_mem_nil, or_false, hbyte]
    omega
  split
  · simp only [List.mem_cons, List.not_mem_nil, or_false, hbyte]
    omega
  · simp only [List.mem_cons, List.not_mem_nil, or_false, hbyte]
    omega

theorem encode_cons (c : Char) (s : List Char) :
    encode (c :: s) = String.utf8EncodeChar c ++ encode s := List.flatMap_cons

theorem encode_append (s t : List Char) : encode (s ++ t) = encode s ++ encode t :=
  List.flatMap_append

/-- What the decoder takes is the encoding of what it gives. -/
theorem eq_encode_of_decodeFrom {bytes : List UInt8} {offset : Nat} {done s : List Char}
    (h : decodeFrom offset done bytes = .ok s) :
    ∃ text, bytes = encode text ∧ s = done.reverse ++ text := by
  have hnext : ∀ {c : Char} {done : List Char} {first rest : List UInt8},
      String.utf8EncodeChar c = first →
      (∃ text, rest = encode text ∧ s = (c :: done).reverse ++ text) →
      ∃ text, first ++ rest = encode text ∧ s = done.reverse ++ text := by
    rintro c done first rest rfl ⟨text, rfl, rfl⟩
    exact ⟨c :: text, (encode_cons c text).symm, by simp⟩
  fun_induction decodeFrom offset done bytes with
  | case1 offset done =>
    cases h
    exact ⟨[], rfl, by simp⟩
  | case2 offset done a rest ha ih => exact hnext (encodeChar_one ha) (ih h)
  | case6 offset done a hlow hstart b rest hb hwidth ih =>
    have ha := startsMore_iff.mp ⟨hlow, hstart⟩
    exact hnext (encodeChar_two ha (by simpa using hb) hwidth) (ih h)
  | case9 offset done a hlow hstart b hb hthree c rest hc hwidth ih =>
    have ha := startsMore_iff.mp ⟨hlow, hstart⟩
    exact hnext (encodeChar_three ha (by simpa using hb) hthree (by simpa using hc) hwidth) (ih h)
  | case12 offset done a hlow hstart b hb hthree c hc hfour d rest hd ih =>
    have ha := startsMore_iff.mp ⟨hlow, hstart⟩
    exact hnext (encodeChar_four ha (by simpa using hb) hfour (by simpa using hc)
      (by simpa using hd)) (ih h)
  | _ => cases h

section Step
variable {a b c d : UInt8} {rest : List UInt8} (offset : Nat) (done : List Char)

theorem decodeFrom_one (ha : a.toNat < 0x80) :
    decodeFrom offset done (a :: rest)
      = decodeFrom (offset + 1) (Char.ofNat a.toNat :: done) rest := by
  have hlow : a < 0x80 := by simpa [UInt8.lt_iff_toNat_lt] using ha
  rw [decodeFrom.eq_def]
  simp only [if_pos hlow]

theorem decodeFrom_two (ha : 0xC2 ≤ a.toNat ∧ a.toNat < 0xE0) (hb : isSecond a b = true) :
    decodeFrom offset done (a :: b :: rest)
      = decodeFrom (offset + 2) (Char.ofNat ((a.toNat - 0xC0) * 64 + payload b) :: done) rest := by
  obtain ⟨hlow, hstart⟩ := startsMore_iff.mpr (show 0xC2 ≤ a.toNat ∧ a.toNat < 0xF5 by omega)
  have hwidth : a < 0xE0 := by simpa [UInt8.lt_iff_toNat_lt] using ha.2
  rw [decodeFrom.eq_def]
  simp only [if_neg hlow, if_neg hstart, hb, Bool.not_true, Bool.false_eq_true, if_false,
    if_pos hwidth]

theorem decodeFrom_three (ha : 0xE0 ≤ a.toNat ∧ a.toNat < 0xF0) (hb : isSecond a b = true)
    (hc : isContinuation c = true) :
    decodeFrom offset done (a :: b :: c :: rest)
      = decodeFrom (offset + 3)
          (Char.ofNat ((a.toNat - 0xE0) * 4096 + payload b * 64 + payload c) :: done) rest := by
  obtain ⟨hlow, hstart⟩ := startsMore_iff.mpr (show 0xC2 ≤ a.toNat ∧ a.toNat < 0xF5 by omega)
  have htwo : ¬ a < 0xE0 := by simpa [UInt8.lt_iff_toNat_lt] using ha.1
  have hwidth : a < 0xF0 := by simpa [UInt8.lt_iff_toNat_lt] using ha.2
  rw [decodeFrom.eq_def]
  simp only [if_neg hlow, if_neg hstart, hb, hc, Bool.not_true, Bool.false_eq_true, if_false,
    if_neg htwo, if_pos hwidth]

theorem decodeFrom_four (ha : 0xF0 ≤ a.toNat ∧ a.toNat < 0xF5) (hb : isSecond a b = true)
    (hc : isContinuation c = true) (hd : isContinuation d = true) :
    decodeFrom offset done (a :: b :: c :: d :: rest)
      = decodeFrom (offset + 4) (Char.ofNat ((a.toNat - 0xF0) * 262144 + payload b * 4096
          + payload c * 64 + payload d) :: done) rest := by
  obtain ⟨hlow, hstart⟩ := startsMore_iff.mpr (show 0xC2 ≤ a.toNat ∧ a.toNat < 0xF5 by omega)
  have htwo : ¬ a < 0xE0 := by
    simp only [UInt8.lt_iff_toNat_lt]
    show ¬ a.toNat < 0xE0
    omega
  have hthree : ¬ a < 0xF0 := by simpa [UInt8.lt_iff_toNat_lt] using ha.1
  rw [decodeFrom.eq_def]
  simp only [if_neg hlow, if_neg hstart, hb, hc, hd, Bool.not_true, Bool.false_eq_true, if_false,
    if_neg htwo, if_neg hthree]

end Step

/-- The decoder passes over the encoding of a character and keeps the character. -/
theorem decodeFrom_encodeChar (c : Char) (offset : Nat) (done : List Char) (rest : List UInt8) :
    ∃ offset', decodeFrom offset done (String.utf8EncodeChar c ++ rest)
      = decodeFrom offset' (c :: done) rest := by
  have hvalid : c.val.toNat.isValidChar := c.valid
  have hchar : ∀ n, n = c.val.toNat → Char.ofNat n = c := fun n hn => hn ▸ Char.ofNat_toNat c
  unfold String.utf8EncodeChar
  generalize c.val.toNat = v at hvalid hchar
  unfold Nat.isValidChar at hvalid
  have hbyte : ∀ {n : Nat}, n < 256 → (UInt8.ofNat n).toNat = n :=
    fun h => UInt8.toNat_ofNat_of_lt' h
  by_cases hone : v ≤ 0x7F
  · have ha := hbyte (n := v) (by omega)
    rw [if_pos hone, List.singleton_append, decodeFrom_one _ _ (by omega), hchar _ ha]
    exact ⟨_, rfl⟩
  have hlast := hbyte (n := v % 64 + 128) (by omega)
  rw [if_neg hone]
  by_cases htwo : v ≤ 0x7FF
  · have ha := hbyte (n := v / 64 % 32 + 192) (by omega)
    rw [if_pos htwo, List.cons_append, List.singleton_append,
      decodeFrom_two _ _ (by omega) (isSecond_iff.mpr (by omega)),
      hchar _ (by unfold payload; omega)]
    exact ⟨_, rfl⟩
  have hlast' := hbyte (n := v / 64 % 64 + 128) (by omega)
  rw [if_neg htwo]
  by_cases hthree : v ≤ 0xFFFF
  · have ha := hbyte (n := v / 4096 % 16 + 224) (by omega)
    rw [if_pos hthree, List.cons_append, List.cons_append, List.singleton_append,
      decodeFrom_three _ _ (by omega) (isSecond_iff.mpr (by omega))
        (isContinuation_iff.mpr (by omega)), hchar _ (by unfold payload; omega)]
    exact ⟨_, rfl⟩
  · have ha := hbyte (n := v / 262144 % 8 + 240) (by omega)
    have hb := hbyte (n := v / 4096 % 64 + 128) (by omega)
    rw [if_neg hthree, List.cons_append, List.cons_append, List.cons_append,
      List.singleton_append, decodeFrom_four _ _ (by omega) (isSecond_iff.mpr (by omega))
        (isContinuation_iff.mpr (by omega)) (isContinuation_iff.mpr (by omega)),
      hchar _ (by unfold payload; omega)]
    exact ⟨_, rfl⟩

theorem decodeFrom_encode (text : List Char) (offset : Nat) (done : List Char) :
    decodeFrom offset done (encode text) = .ok (done.reverse ++ text) := by
  induction text generalizing offset done with
  | nil => simp [encode, decodeFrom]
  | cons c text ih =>
    obtain ⟨offset', hc⟩ := decodeFrom_encodeChar c offset done (encode text)
    rw [encode_cons, hc, ih]
    simp

/-- Bytes are decoded to a text exactly where they are its encoding. -/
theorem decode_eq_ok_iff {bytes : List UInt8} {text : List Char} :
    decode bytes = .ok text ↔ bytes = encode text := by
  constructor
  · intro h
    obtain ⟨text', rfl, rfl⟩ := eq_encode_of_decodeFrom h
    rfl
  · rintro rfl
    exact decodeFrom_encode text 0 []

/-- The bytes are valid UTF-8. -/
def Valid (bytes : List UInt8) : Prop := ∃ text, bytes = encode text

theorem exists_decode_eq_error_iff {bytes : List UInt8} :
    (∃ fault, decode bytes = .error fault) ↔ ¬ Valid bytes := by
  unfold Valid
  simp only [← decode_eq_ok_iff]
  cases decode bytes <;> simp

end PhraseCatalog.Text.Utf8
