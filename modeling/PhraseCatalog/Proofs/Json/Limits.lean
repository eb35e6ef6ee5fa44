import PhraseCatalog.Proofs.Json.RoundTrip

/-! Which values are not written, and which of their texts are refused: those that are nested too deeply
or hold a whole number that is too long, and they are refused for this alone. A value that was read is
none of them. -/

set_option autoImplicit false

namespace PhraseCatalog.Json

open Decimal Reader

/-- Values without over-long whole numbers, and with at most `depth` containers around one another. -/
inductive Fits : (depth : Nat) → Value → Prop
  | null (depth : Nat) : Fits depth .null
  | bool (depth : Nat) (b : Bool) : Fits depth (.bool b)
  | int (depth : Nat) {n : Int} (h : (digits n.natAbs).length ≤ digitLimit) : Fits depth (.int n)
  | real (depth : Nat) (x : Binary64) : Fits depth (.real x)
  | str (depth : Nat) (s : String) : Fits depth (.str s)
  | torn (depth : Nat) (s : String) (first : Half) (more : List Half) : Fits depth (.torn s first more)
  | arr {depth : Nat} {items : List Value} (h : ∀ v ∈ items, Fits depth v) :
    Fits (depth + 1) (.arr items)
  | obj {depth : Nat} {members : List (String × Value)} (h : ∀ m ∈ members, Fits depth m.2) :
    Fits (depth + 1) (.obj members)

/-- Where containers may be nested more deeply, a value fits all the more. -/
theorem Fits.mono {depth depth' : Nat} {v : Value} (h : Fits depth v) (hle : depth ≤ depth') :
    Fits depth' v := by
  induction h generalizing depth' with
  | null => exact .null depth'
  | bool _ b => exact .bool depth' b
  | int _ h => exact .int depth' h
  | real _ x => exact .real depth' x
  | str _ s => exact .str depth' s
  | torn _ s first more => exact .torn depth' s first more
  | arr _ ih =>
    obtain ⟨depth', rfl⟩ := Nat.exists_eq_add_one_of_ne_zero (Nat.ne_zero_of_lt hle)
    exact .arr fun v hv => ih v hv (Nat.le_of_succ_le_succ hle)
  | obj _ ih =>
    obtain ⟨depth', rfl⟩ := Nat.exists_eq_add_one_of_ne_zero (Nat.ne_zero_of_lt hle)
    exact .obj fun m hm => ih m hm (Nat.le_of_succ_le_succ hle)

/-- The text is well formed, but its value is not taken. -/
def Reader.Stop.IsLimit : Stop → Prop
  | .malformed _ _ => False
  | .tooManyDigits _ | .tooDeep _ => True

def ReadError.IsLimit : ReadError → Prop
  | .malformed _ _ => False
  | .tooManyDigits _ | .tooDeep _ => True

theorem Plain.fits {depth : Nat} {v : Value} (h : Plain depth v) : Fits depth v := by
  induction h with
  | null depth => exact .null depth
  | bool depth b => exact .bool depth b
  | int depth h => exact .int depth h
  | str depth s => exact .str depth s
  | arr _ ih => exact .arr ih
  | obj _ _ ih => exact .obj ih

/-! ## Values that are written -/

theorem itemsFault?_eq_none_iff {depth : Nat} {items : List Value} :
    Value.itemsFault? depth items = none ↔ ∀ v ∈ items, v.fault? depth = none := by
  induction items with
  | nil => simp [Value.itemsFault?]
  | cons item items ih => simp [Value.itemsFault?, ih]

theorem membersFault?_eq_none_iff {depth : Nat} {members : List (String × Value)} :
    Value.membersFault? depth members = none ↔ ∀ m ∈ members, m.2.fault? depth = none := by
  induction members with
  | nil => simp [Value.membersFault?]
  | cons member members ih => simp [Value.membersFault?, ih]

/-- A value is written exactly where it fits. -/
theorem fault?_eq_none_iff {depth : Nat} {v : Value} : v.fault? depth = none ↔ Fits depth v := by
  constructor
  · -- on the depth, as the parts of a container are written one level further in
    intro h
    induction depth using Nat.strongRecOn generalizing v with
    | ind depth ih =>
      cases v with
      | null => exact .null depth
      | bool b => exact .bool depth b
      | int n => exact .int depth (by simpa [Value.fault?] using h)
      | real x => exact .real depth x
      | str s => exact .str depth s
      | torn s first more => exact .torn depth s first more
      | arr items =>
        cases depth with
        | zero => simp [Value.fault?] at h
        | succ depth =>
          rw [Value.fault?, itemsFault?_eq_none_iff] at h
          exact .arr fun v hv => ih depth (Nat.lt_succ_self depth) (h v hv)
      | obj members =>
        cases depth with
        | zero => simp [Value.fault?] at h
        | succ depth =>
          rw [Value.fault?, membersFault?_eq_none_iff] at h
          exact .obj fun m hm => ih depth (Nat.lt_succ_self depth) (h m hm)
  · intro h
    induction h with
    | null | bool | real | str | torn => simp [Value.fault?]
    | int _ h => simpa [Value.fault?] using h
    | arr _ ih => rwa [Value.fault?, itemsFault?_eq_none_iff]
    | obj _ ih => rwa [Value.fault?, membersFault?_eq_none_iff]

/-! ## Values without halves of surrogate pairs -/

theorem itemsHalves_eq_nil {items : List Value} (h : ∀ v ∈ items, ∀ before, v.halves before = [])
    (before : Nat) : Value.itemsHalves before items = [] := by
  induction items generalizing before with
  | nil => rfl
  | cons item items ih =>
    obtain ⟨hitem, hitems⟩ := List.forall_mem_cons.mp h
    rw [Value.itemsHalves, hitem, ih hitems, List.nil_append]

theorem membersHalves_eq_nil {members : List (String × Value)}
    (h : ∀ m ∈ members, ∀ before, m.2.halves before = []) (before : Nat) :
    Value.membersHalves before members = [] := by
  induction members generalizing before with
  | nil => rfl
  | cons member members ih =>
    obtain ⟨hmember, hmembers⟩ := List.forall_mem_cons.mp h
    rw [Value.membersHalves, hmember, ih hmembers, List.nil_append]

theorem Plain.halves_eq_nil {depth : Nat} {v : Value} (h : Plain depth v) (before : Nat) :
    v.halves before = [] := by
  induction h generalizing before with
  | null | bool | int | str => rfl
  | arr _ ih => exact itemsHalves_eq_nil ih (before + 1)
  | obj _ _ ih => exact membersHalves_eq_nil ih (before + 1)

theorem ne_torn_of_membersHalves {members : List (String × Value)} {before : Nat}
    (h : Value.membersHalves before members = []) :
    ∀ m ∈ members, ∀ s first more, m.2 ≠ .torn s first more := by
  induction members generalizing before with
  | nil => simp
  | cons member members ih =>
    rw [Value.membersHalves, List.append_eq_nil_iff] at h
    refine List.forall_mem_cons.mpr ⟨fun s first more htorn => ?_, ih h.2⟩
    rw [htorn] at h
    cases h.1

/-! ## Reading what was written -/

section MapM
variable {ε α β : Type} {f : α → Except ε β} {l : List α}

theorem exists_mapM_eq_ok_iff : (∃ bs, l.mapM f = .ok bs) ↔ ∀ a ∈ l, ∃ b, f a = .ok b := by
  induction l with
  | nil => simp [pure, Except.pure]
  | cons a l ih =>
    rw [List.forall_mem_cons, ← ih]
    cases ha : f a with
    | error e => simp [mapM_cons_of_error ha]
    | ok b => cases hl : l.mapM f <;> simp [mapM_cons_of_ok ha, hl, Except.map]

theorem exists_eq_error_of_mapM {e : ε} (h : l.mapM f = .error e) : ∃ a ∈ l, f a = .error e := by
  induction l with
  | nil => cases h
  | cons a l ih =>
    cases ha : f a with
    | error e' =>
      rw [mapM_cons_of_error ha] at h
      exact ⟨a, List.mem_cons_self, ha.trans (by cases h; rfl)⟩
    | ok b =>
      rw [mapM_cons_of_ok ha] at h
      cases hl : l.mapM f with
      | error e' =>
        rw [hl] at h
        cases h
        obtain ⟨a', ha', herror⟩ := ih hl
        exact ⟨a', List.mem_cons_of_mem a ha', herror⟩
      | ok bs =>
        rw [hl] at h
        cases h

end MapM

theorem map_eq_error_iff {ε α β : Type} {f : α → β} {x : Except ε α} {e : ε} :
    x.map f = .error e ↔ x = .error e := by
  cases x <;> simp [Except.map]

theorem map_eq_ok_iff {ε α β : Type} {f : α → β} {x : Except ε α} {b : β} :
    x.map f = .ok b ↔ ∃ a, x = .ok a ∧ f a = b := by
  cases x <;> simp [Except.map]

theorem exists_map_eq_ok_iff {ε α β : Type} {f : α → β} {x : Except ε α} :
    (∃ b, x.map f = .ok b) ↔ ∃ a, x = .ok a := by
  cases x <;> simp [Except.map]

/-- The text of a value is read exactly where the value fits. -/
theorem exists_reread_iff {depth : Nat} {v : Value} :
    (∃ w, reread depth v = .ok w) ↔ Fits depth v := by
  constructor
  · -- on the depth, as the parts of a container are read one level further in
    intro h
    induction depth using Nat.strongRecOn generalizing v with
    | ind depth ih =>
      cases v with
      | null => exact .null depth
      | bool b => exact .bool depth b
      | int n =>
        rw [reread_int, rereadInt] at h
        split at h
        · obtain ⟨w, hw⟩ := h
          cases hw
        · rename_i hlimit
          exact .int depth (Nat.not_lt.mp hlimit)
      | real x => exact .real depth x
      | str s => exact .str depth s
      | torn s first more => exact .torn depth s first more
      | arr items =>
        cases depth with
        | zero =>
          obtain ⟨w, hw⟩ := h
          cases hw
        | succ depth =>
          rw [reread, exists_map_eq_ok_iff, exists_mapM_eq_ok_iff] at h
          exact .arr fun v hv => ih depth (Nat.lt_succ_self depth) (h v hv)
      | obj members =>
        cases depth with
        | zero =>
          obtain ⟨w, hw⟩ := h
          cases hw
        | succ depth =>
          rw [reread, exists_map_eq_ok_iff, exists_mapM_eq_ok_iff] at h
          exact .obj fun m hm =>
            ih depth (Nat.lt_succ_self depth) (exists_map_eq_ok_iff.mp (h m hm))
  · intro h
    induction h with
    | null depth => exact ⟨_, reread_null depth⟩
    | bool depth b => exact ⟨_, reread_bool depth b⟩
    | int depth h => exact ⟨_, by rw [reread_int, rereadInt, if_neg (Nat.not_lt.mpr h)]⟩
    | real depth x => exact ⟨_, reread_real depth x⟩
    | str depth s => exact ⟨_, reread_str depth s⟩
    | torn depth s first more => exact ⟨_, reread_torn depth s first more⟩
    | arr _ ih =>
      rw [reread, exists_map_eq_ok_iff, exists_mapM_eq_ok_iff]
      exact ih
    | obj _ ih =>
      rw [reread, exists_map_eq_ok_iff, exists_mapM_eq_ok_iff]
      exact fun m hm => exists_map_eq_ok_iff.mpr (ih m hm)

theorem isLimit_of_reread {depth : Nat} {v : Value} {stop : Stop}
    (h : reread depth v = .error stop) : stop.IsLimit := by
  induction depth using Nat.strongRecOn generalizing v with
  | ind depth ih =>
    cases v with
    | null | bool | real | str | torn => simp at h
    | int n =>
      rw [reread_int, rereadInt] at h
      split at h
      · cases h
        trivial
      · cases h
    | arr items =>
      cases depth with
      | zero =>
        cases h
        trivial
      | succ depth =>
        rw [reread, map_eq_error_iff] at h
        obtain ⟨v, -, hv⟩ := exists_eq_error_of_mapM h
        exact ih depth (Nat.lt_succ_self depth) hv
    | obj members =>
      cases depth with
      | zero =>
        cases h
        trivial
      | succ depth =>
        rw [reread, map_eq_error_iff] at h
        obtain ⟨m, -, hm⟩ := exists_eq_error_of_mapM h
        exact ih depth (Nat.lt_succ_self depth) (map_eq_error_iff.mp hm)

/-- The text of a value that fits is read, and that of any other is refused for a limit. -/
theorem read_render_iff {style : Style} (hs : style.Readable) (v : Value) :
    (Fits nestingLimit v → ∃ w, Json.read (v.render style) = .ok w)
      ∧ (¬ Fits nestingLimit v →
        ∃ error, error.IsLimit ∧ Json.read (v.render style) = .error error) := by
  rw [read_render_eq hs, ← exists_reread_iff]
  cases hreread : reread nestingLimit v with
  | ok w => exact ⟨fun _ => ⟨w, rfl⟩, fun hnot => absurd ⟨w, rfl⟩ hnot⟩
  | error stop =>
    constructor
    · rintro ⟨w, hw⟩
      cases hw
    · have hlimit := isLimit_of_reread hreread
      exact fun _ => ⟨_, by cases stop <;> exact hlimit, rfl⟩

theorem pairs_of_mapM {f : Value → Except Stop Value} {members pairs : List (String × Value)}
    (h : (members.mapM fun m => (f m.2).map fun v => (m.1, v)) = .ok pairs) :
    pairs.map (·.1) = members.map (·.1)
      ∧ ∀ m ∈ members, ∃ v, f m.2 = .ok v ∧ (m.1, v) ∈ pairs := by
  induction members generalizing pairs with
  | nil =>
    cases h
    simp
  | cons m members ih =>
    cases hm : f m.2 with
    | error stop =>
      rw [mapM_cons_of_error (by rw [hm]; rfl)] at h
      cases h
    | ok v =>
      rw [mapM_cons_of_ok (b := (m.1, v)) (by rw [hm]; rfl)] at h
      obtain ⟨rest, hrest, rfl⟩ := map_eq_ok_iff.mp h
      obtain ⟨hkeys, hmem⟩ := ih hrest
      refine ⟨by rw [List.map_cons, List.map_cons, hkeys], List.forall_mem_cons.mpr ?_⟩
      refine ⟨⟨v, hm, List.mem_cons_self⟩, fun m' hm' => ?_⟩
      obtain ⟨w, hw, hmem⟩ := hmem m' hm'
      exact ⟨w, hw, List.mem_cons_of_mem _ hmem⟩

/-- The text of an object is only read as an object, whose members are read one by one. -/
theorem exists_members_of_reread {depth : Nat} {members : List (String × Value)} {w : Value}
    (h : reread depth (.obj members) = .ok w) : ∃ inner pairs, w = .obj (ofPairs pairs)
      ∧ pairs.map (·.1) = members.map (·.1)
      ∧ ∀ m ∈ members, ∃ v, reread inner m.2 = .ok v ∧ (m.1, v) ∈ pairs := by
  cases depth with
  | zero => cases h
  | succ depth =>
    rw [reread] at h
    obtain ⟨pairs, hpairs, rfl⟩ := map_eq_ok_iff.mp h
    exact ⟨depth, pairs, rfl, pairs_of_mapM hpairs⟩

theorem eq_str_or_torn_of_reread {depth : Nat} {v : Value} {s : String}
    (h : reread depth v = .ok (.str s)) : v = .str s ∨ ∃ first more, v = .torn s first more := by
  cases v with
  | null | bool | real => simp at h
  | str => simpa using h
  | torn => simpa using h
  | int n =>
    rw [reread_int, rereadInt] at h
    split at h <;> cases h
  | arr items =>
    cases depth with
    | zero => cases h
    | succ depth =>
      rw [reread] at h
      obtain ⟨_, -, h⟩ := map_eq_ok_iff.mp h
      cases h
  | obj members =>
    obtain ⟨_, _, h, -⟩ := exists_members_of_reread h
    cases h

section Reading
variable {style : Style} (hs : style.Readable)
include hs

theorem reread_of_read {v w : Value} (h : Json.read (v.render style) = .ok w) :
    reread nestingLimit v = .ok w := by
  rw [read_render_eq hs] at h
  cases hreread : reread nestingLimit v with
  | ok v =>
    rw [hreread] at h
    cases h
    rfl
  | error stop =>
    rw [hreread] at h
    cases h

theorem exists_obj_of_read {members : List (String × Value)} {w : Value}
    (h : Json.read ((Value.obj members).render style) = .ok w) : ∃ members', w = .obj members' := by
  obtain ⟨-, pairs, rfl, -⟩ := exists_members_of_reread (reread_of_read hs h)
  exact ⟨ofPairs pairs, rfl⟩

/-- An object is only read as one of strings from its text if it is one of strings. -/
theorem strings_of_read {members members' : List (String × Value)}
    (hkeys : (members.map (·.1)).Nodup) (hwhole : (Value.obj members).halves 0 = [])
    (hread : Json.read ((Value.obj members).render style) = .ok (.obj members'))
    (h : ∀ m ∈ members', ∃ s, m.2 = .str s) : ∀ m ∈ members, ∃ s, m.2 = .str s := by
  obtain ⟨inner, pairs, hmembers, hnames, hmem⟩ :=
    exists_members_of_reread (reread_of_read hs hread)
  rw [ofPairs_of_nodup (hnames ▸ hkeys), Value.obj.injEq] at hmembers
  subst hmembers
  intro m hm
  obtain ⟨v, hv, hpair⟩ := hmem m hm
  obtain ⟨s, rfl⟩ : ∃ s, v = .str s := h _ hpair
  rcases eq_str_or_torn_of_reread hv with hstr | ⟨first, more, htorn⟩
  · exact ⟨s, hstr⟩
  · exact absurd htorn (ne_torn_of_membersHalves hwhole m hm s first more)

end Reading

/-! ## What was read -/

theorem toNat_le_of_isDigit {c : Char} (h : c.isDigit = true) : c.toNat ≤ 57 := by
  simp only [Char.isDigit, Bool.and_eq_true, decide_eq_true_eq] at h
  exact h.2

theorem length_digits_ofDigits {s : List Char} (hne : s ≠ []) (h : ∀ c ∈ s, c.isDigit = true) :
    (digits (ofDigits s)).length ≤ s.length := by
  refine (Nat.length_toDigits_le_iff (by decide) (List.length_pos_iff.mpr hne)).mpr ?_
  -- `n` stands for the digits that are read before
  suffices ∀ n, s.foldl (fun n c => 10 * n + (c.toNat - 48)) n < (n + 1) * 10 ^ s.length by
    simpa [ofDigits] using this 0
  clear hne
  induction s with
  | nil => simp
  | cons c s ih =>
    intro n
    obtain ⟨hc, hs⟩ := List.forall_mem_cons.mp h
    have hdigit := toNat_le_of_isDigit hc
    have hstep := ih hs (10 * n + (c.toNat - 48))
    rw [List.foldl_cons, List.length_cons, Nat.pow_succ', ← Nat.mul_assoc]
    exact Nat.lt_of_lt_of_le hstep (Nat.mul_le_mul_right _ (by omega))

theorem isDigit_of_mem_digitRun {s : List Char} {c : Char} (h : c ∈ (digitRun s).1) :
    c.isDigit = true :=
  List.all_eq_true.mp List.all_takeWhile c h

theorem isDigit_of_mem_wholePart {s : List Char} {c : Char} (h : c ∈ (wholePart s).1) :
    c.isDigit = true := by
  unfold wholePart at h
  split at h
  · rw [List.mem_singleton.mp h]
    rfl
  · exact isDigit_of_mem_digitRun h

theorem fits_of_magnitude {negative : Bool} {left : Nat} {s rest : List Char} {v : Value}
    (h : magnitude negative left s = .ok (v, rest)) (depth : Nat) : Fits depth v := by
  have hdigits := @isDigit_of_mem_wholePart s
  unfold magnitude at h
  cases hsplit : wholePart s with
  | mk whole behind =>
    rw [hsplit] at hdigits h
    cases whole with
    | nil => cases h
    | cons c whole =>
      dsimp only at h
      split at h
      · split at h
        · cases h
        · rename_i hlimit
          have hlength := length_digits_ofDigits (List.cons_ne_nil c whole) fun c => hdigits
          cases h
          refine .int depth (Nat.le_trans ?_ (Nat.not_lt.mp hlimit))
          cases negative <;> simpa using hlength
      · cases h
        exact .real depth _

theorem fits_of_scalar {s rest : List Char} {v : Value} (h : scalar s = .ok (v, rest))
    (depth : Nat) : Fits depth v := by
  unfold scalar at h
  split at h
  · rename_i word v hword
    cases h
    have hmem := List.mem_of_find?_eq_some hword
    simp only [words, List.mem_cons, Prod.mk.injEq, List.not_mem_nil, or_false] at hmem
    rcases hmem with ⟨-, rfl⟩ | ⟨-, rfl⟩ | ⟨-, rfl⟩ | ⟨-, rfl⟩ | ⟨-, rfl⟩ | ⟨-, rfl⟩
    · exact .null depth
    · exact .bool depth true
    · exact .bool depth false
    all_goals exact .real depth _
  · unfold number at h
    split at h <;> exact fits_of_magnitude h depth

theorem mem_of_mem_setMember {α : Type} {key : String} {value : α} {members : List (String × α)}
    {m : String × α} (h : m ∈ setMember key value members) : m = (key, value) ∨ m ∈ members := by
  induction members with
  | nil => simpa [setMember] using h
  | cons member rest ih =>
    obtain ⟨name, old⟩ := member
    unfold setMember at h
    split at h
    · rename_i hname
      subst hname
      rcases List.mem_cons.mp h with rfl | h
      · exact .inl rfl
      · exact .inr (List.mem_cons_of_mem _ h)
    · rcases List.mem_cons.mp h with rfl | h
      · exact .inr List.mem_cons_self
      · exact (ih h).imp_right (List.mem_cons_of_mem _)

theorem nodup_setMember {α : Type} {key : String} {value : α} {members : List (String × α)}
    (h : (members.map (·.1)).Nodup) : ((setMember key value members).map (·.1)).Nodup := by
  rw [keys_setMember]
  split
  · exact h
  · rename_i hnew
    refine List.nodup_append.mpr ⟨h, by simp, ?_⟩
    rintro k hk other hother rfl
    exact hnew (List.mem_singleton.mp hother ▸ hk)

/-- The members of an object are among the pairs that were written, each key once. -/
theorem ofPairs_spec {α : Type} (pairs : List (String × α)) :
    ((ofPairs pairs).map (·.1)).Nodup ∧ ∀ m ∈ ofPairs pairs, m ∈ pairs := by
  suffices ∀ done : List (String × α), (done.map (·.1)).Nodup →
      let members := pairs.foldl (fun members pair => setMember pair.1 pair.2 members) done
      (members.map (·.1)).Nodup ∧ ∀ m ∈ members, m ∈ done ∨ m ∈ pairs by
    obtain ⟨hnodup, hmem⟩ := this [] List.nodup_nil
    exact ⟨hnodup, fun m hm => (hmem m hm).resolve_left (List.not_mem_nil)⟩
  induction pairs with
  | nil => exact fun done hdone => ⟨hdone, fun m hm => .inl hm⟩
  | cons pair rest ih =>
    intro done hdone
    obtain ⟨hnodup, hmem⟩ := ih (setMember pair.1 pair.2 done) (nodup_setMember hdone)
    refine ⟨hnodup, fun m hm => ?_⟩
    rcases hmem m hm with hm | hm
    · rcases mem_of_mem_setMember hm with rfl | hm
      · exact .inr List.mem_cons_self
      · exact .inl hm
    · exact .inr (List.mem_cons_of_mem pair hm)

section Containers
variable {P : Value → Prop} {readValue : List Char → Step Value}
  (hread : ∀ {s rest v}, readValue s = .ok (v, rest) → P v)
include hread

theorem forall_of_items {n : Nat} {done vs : List Value} {s rest : List Char}
    (h : items readValue n done s = .ok (vs, rest)) (hdone : ∀ v ∈ done, P v) : ∀ v ∈ vs, P v := by
  induction n generalizing done s with
  | zero => cases h
  | succ n ih =>
    unfold items at h
    split at h
    · cases h
    · rename_i v behind hv
      have hmore : ∀ w ∈ v :: done, P w := List.forall_mem_cons.mpr ⟨hread hv, hdone⟩
      split at h
      · cases h
        exact fun w hw => hmore w (List.mem_reverse.mp hw)
      · exact ih h hmore
      · cases h

theorem forall_of_pairs {n : Nat} {done ps : List (String × Value)} {s rest : List Char}
    (h : pairs readValue n done s = .ok (ps, rest)) (hdone : ∀ p ∈ done, P p.2) :
    ∀ p ∈ ps, P p.2 := by
  induction n generalizing done s with
  | zero => cases h
  | succ n ih =>
    unfold pairs at h
    split at h
    · cases h
    · rename_i k body hkey
      split at h
      · cases h
      · rename_i v behind hv
        have hmore : ∀ p ∈ (k, v) :: done, P p.2 := List.forall_mem_cons.mpr ⟨hread hv, hdone⟩
        split at h
        · cases h
          exact fun p hp => hmore p (List.mem_reverse.mp hp)
        · exact ih h hmore
        · cases h

theorem forall_of_array {n : Nat} {s rest : List Char} {v : Value}
    (h : array readValue n s = .ok (v, rest)) : ∃ vs, v = .arr vs ∧ ∀ w ∈ vs, P w := by
  unfold array at h
  split at h
  · cases h
    exact ⟨[], rfl, by simp⟩
  · split at h
    · cases h
    · rename_i vs behind hitems
      cases h
      exact ⟨vs, rfl, forall_of_items hread hitems (by simp)⟩

theorem forall_of_object {n : Nat} {s rest : List Char} {v : Value}
    (h : object readValue n s = .ok (v, rest)) :
    ∃ ms, v = .obj ms ∧ (ms.map (·.1)).Nodup ∧ ∀ m ∈ ms, P m.2 := by
  unfold object at h
  split at h
  · cases h
    exact ⟨[], rfl, List.nodup_nil, by simp⟩
  · split at h
    · cases h
    · rename_i ps behind hpairs
      cases h
      obtain ⟨hnodup, hmem⟩ := ofPairs_spec ps
      exact ⟨ofPairs ps, rfl, hnodup, fun m hm =>
        forall_of_pairs hread hpairs (by simp) m (hmem m hm)⟩

end Containers

theorem fits_ofString (s : String) (found : List Half) (depth : Nat) :
    Fits depth (.ofString s found) := by
  cases found with
  | nil => exact .str depth s
  | cons first more => exact .torn depth s first more

theorem fits_of_token {container : Container → List Char → Step Value} {depth : Nat}
    {s rest : List Char} {v : Value}
    (hcontainer : ∀ kind inner, container kind inner = .ok (v, rest) → Fits depth v)
    (h : token container s = .ok (v, rest)) : Fits depth v := by
  unfold token at h
  split at h
  · split at h
    · cases h
    · cases h
      exact fits_ofString _ _ depth
  · exact hcontainer .object _ h
  · exact hcontainer .array _ h
  · exact fits_of_scalar h depth

/-- What is read fits. -/
theorem fits_of_value {k depth : Nat} {s rest : List Char} {v : Value}
    (h : value k depth s = .ok (v, rest)) : Fits depth v := by
  induction depth generalizing s rest v with
  | zero => exact fits_of_token (fun kind inner h => by cases h) h
  | succ depth ih =>
    refine fits_of_token (fun kind inner h => ?_) h
    cases kind with
    | object =>
      obtain ⟨ms, rfl, -, hfits⟩ := forall_of_object ih h
      exact .obj hfits
    | array =>
      obtain ⟨vs, rfl, hfits⟩ := forall_of_array ih h
      exact .arr hfits

theorem exists_value_of_readChars {s : List Char} {v : Value} (h : readChars s = .ok v) :
    ∃ k s' rest, value k nestingLimit s' = .ok (v, rest) := by
  unfold readChars at h
  cases hdocument : document s with
  | error stop => simp [hdocument] at h
  | ok w =>
    obtain rfl : w = v := by simpa [hdocument] using h
    unfold document at hdocument
    split at hdocument
    · cases hdocument
    · split at hdocument
      · cases hdocument
      · rename_i v rest hvalue
        split at hdocument
        · cases hdocument
          exact ⟨_, _, rest, hvalue⟩
        · cases hdocument

theorem fits_of_readChars {s : List Char} {v : Value} (h : readChars s = .ok v) :
    Fits nestingLimit v :=
  let ⟨_, _, _, hvalue⟩ := exists_value_of_readChars h
  fits_of_value hvalue

theorem ofString_ne_obj (s : String) (found : List Half) (members : List (String × Value)) :
    Value.ofString s found ≠ .obj members := by
  cases found <;> exact Value.noConfusion

theorem nodup_of_token {container : Container → List Char → Step Value} {s rest : List Char}
    {members : List (String × Value)}
    (hcontainer : ∀ kind inner, container kind inner = .ok (.obj members, rest) →
      (members.map (·.1)).Nodup)
    (h : token container s = .ok (.obj members, rest)) : (members.map (·.1)).Nodup := by
  unfold token at h
  split at h
  · split at h
    · cases h
    · exact absurd (congrArg Prod.fst (Except.ok.inj h)) (ofString_ne_obj _ _ members)
  · exact hcontainer .object _ h
  · exact hcontainer .array _ h
  · -- no object fits where there may be no container
    cases fits_of_scalar h 0

/-- An object that is read has each of its keys once. -/
theorem nodup_of_readChars {s : List Char} {members : List (String × Value)}
    (h : readChars s = .ok (.obj members)) : (members.map (·.1)).Nodup := by
  obtain ⟨k, s', rest, hvalue⟩ := exists_value_of_readChars h
  -- the limit is not to be unfolded level by level
  revert hvalue
  generalize nestingLimit = depth
  intro hvalue
  cases depth with
  | zero => exact nodup_of_token (fun kind inner h => by cases h) hvalue
  | succ depth =>
    refine nodup_of_token (fun kind inner h => ?_) hvalue
    cases kind with
    | object =>
      obtain ⟨ms, hms, hnodup, -⟩ := @forall_of_object (fun _ => True) _ (fun _ => trivial) _ _ _ _ h
      cases hms
      exact hnodup
    | array =>
      obtain ⟨vs, hvs, -⟩ := @forall_of_array (fun _ => True) _ (fun _ => trivial) _ _ _ _ h
      cases hvs

end PhraseCatalog.Json
