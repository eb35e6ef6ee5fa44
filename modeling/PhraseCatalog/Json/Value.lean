import PhraseCatalog.Decimal.Binary64

/-! JSON values. Objects keep the order of their members. -/

set_option autoImplicit false

namespace PhraseCatalog.Json

/-- Half a surrogate pair that stands without its other half: how many characters are before it, and
its 16-bit unit. -/
structure Half where
  index : Nat
  unit : Nat
deriving DecidableEq, Repr

/-- A JSON value; whole numbers are exact, all other numbers are binary. -/
inductive Value
  | null
  | bool (b : Bool)
  | int (n : Int)
  | real (x : Decimal.Binary64)
  | str (s : String)
  /-- A string that is no text, as there are halves of surrogate pairs in it; in `s` a replacement
  character stands for each. -/
  | torn (s : String) (first : Half) (more : List Half)
  | arr (items : List Value)
  | obj (members : List (String × Value))

/-- The most digits that a whole number may have in a text. -/
def digitLimit : Nat := 4300

/-- Sets the value of a key: in its place when the key is there, at the end otherwise. -/
def setMember {α : Type} (key : String) (value : α) : List (String × α) → List (String × α)
  | [] => [(key, value)]
  | (k, v) :: rest => if k = key then (k, value) :: rest else (k, v) :: setMember key value rest

/-- Setting a key changes what stands under this key alone. -/
theorem lookup_setMember {α : Type} (key k : String) (value : α) (members : List (String × α)) :
    (setMember key value members).lookup k = if k = key then some value else members.lookup k := by
  induction members with
  | nil =>
    by_cases h : k = key
    · simp [setMember, h]
    · simp [setMember, h, List.lookup_cons, beq_eq_false_iff_ne.mpr h]
  | cons member rest ih =>
    obtain ⟨name, old⟩ := member
    by_cases hn : name = key
    · by_cases h : k = key
      · simp [setMember, hn, h]
      · simp [setMember, hn, h, List.lookup_cons, beq_eq_false_iff_ne.mpr h]
    · by_cases h : k = name
      · subst h
        simp [setMember, hn]
      · simp [setMember, hn, ih, List.lookup_cons, beq_eq_false_iff_ne.mpr h]

/-- A new key comes last; a key that is there keeps its place. -/
theorem keys_setMember {α : Type} (key : String) (value : α) (members : List (String × α)) :
    (setMember key value members).map (·.1)
      = if key ∈ members.map (·.1) then members.map (·.1) else members.map (·.1) ++ [key] := by
  induction members with
  | nil => simp [setMember]
  | cons member rest ih =>
    obtain ⟨name, old⟩ := member
    by_cases hn : name = key
    · simp [setMember, hn]
    · by_cases h : key ∈ rest.map (·.1) <;> simp_all [setMember, Ne.symm hn]

/-- The members of an object from the pairs that were written: a repeated key keeps its first place
and its last value. -/
def ofPairs {α : Type} (pairs : List (String × α)) : List (String × α) :=
  pairs.foldl (fun members (k, v) => setMember k v members) []

theorem setMember_of_notMem {α : Type} {key : String} (value : α) {members : List (String × α)}
    (h : key ∉ members.map (·.1)) : setMember key value members = members ++ [(key, value)] := by
  induction members with
  | nil => rfl
  | cons member rest ih =>
    obtain ⟨name, old⟩ := member
    simp only [List.map_cons, List.mem_cons, not_or] at h
    rw [setMember, if_neg (Ne.symm h.1), ih h.2, List.cons_append]

/-- Setting a key to the value that it has changes nothing. -/
theorem setMember_of_lookup {α : Type} {key : String} {value : α} {members : List (String × α)}
    (h : members.lookup key = some value) : setMember key value members = members := by
  induction members with
  | nil => cases h
  | cons member rest ih =>
    obtain ⟨name, old⟩ := member
    by_cases hn : name = key
    · subst hn
      obtain rfl : old = value := by simpa using h
      rw [setMember, if_pos rfl]
    · rw [List.lookup_cons, beq_eq_false_iff_ne.mpr (Ne.symm hn)] at h
      rw [setMember, if_neg hn, ih h]

theorem setMember_setMember {α : Type} (key : String) (first second : α)
    (members : List (String × α)) :
    setMember key second (setMember key first members) = setMember key second members := by
  induction members with
  | nil => simp [setMember]
  | cons member rest ih =>
    obtain ⟨name, old⟩ := member
    by_cases hn : name = key
    · simp [setMember, hn]
    · simp [setMember, hn, ih]

/-- Pairs without a repeated key are the members. -/
theorem ofPairs_of_nodup {α : Type} {pairs : List (String × α)}
    (h : (pairs.map (·.1)).Nodup) : ofPairs pairs = pairs := by
  suffices ∀ done, ((done ++ pairs).map (·.1)).Nodup →
      pairs.foldl (fun members (k, v) => setMember k v members) done = done ++ pairs from this [] h
  clear h
  intro done h
  induction pairs generalizing done with
  | nil => simp
  | cons pair rest ih =>
    obtain ⟨k, v⟩ := pair
    have hnew : k ∉ done.map (·.1) := by
      rw [List.map_append, List.nodup_append] at h
      intro hk
      exact h.2.2 k hk k (by simp) rfl
    rw [List.foldl_cons]
    simp only [setMember_of_notMem v hnew]
    rw [ih (done ++ [(k, v)]) (by simpa using h)]
    simp

namespace Value

/-- A string in which these halves of surrogate pairs were found. -/
def ofString (s : String) : (halves : List Half) → Value
  | [] => .str s
  | first :: more => .torn s first more

def members? : Value → Option (List (String × Value))
  | .obj members => some members
  | _ => none

def get? (v : Value) (key : String) : Option Value :=
  v.members?.bind (·.lookup key)

def text? : Value → Option String
  | .str s => some s
  | _ => none

end Value
end PhraseCatalog.Json
