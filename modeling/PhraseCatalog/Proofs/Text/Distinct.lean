import Mathlib.Data.List.Nodup

/-! Lists without their repetitions: what is kept of a list that is put together from others. -/

set_option autoImplicit false

namespace PhraseCatalog.Text

variable {α : Type} [DecidableEq α]

/-- An induction that takes the first element and all its copies off the list. -/
theorem induction_without {motive : List α → Prop} (l : List α) (nil : motive [])
    (cons : ∀ a l, motive (l.filter fun b => !b == a) → motive (a :: l)) : motive l := by
  generalize hn : l.length = n
  induction n using Nat.strongRecOn generalizing l with
  | ind n ih =>
    cases l with
    | nil => exact nil
    | cons a l =>
      refine cons a l (ih _ ?_ _ rfl)
      rw [← hn]
      exact Nat.lt_succ_of_le (List.length_filter_le _ l)

theorem nodup_eraseDups (l : List α) : l.eraseDups.Nodup := by
  induction l using induction_without with
  | nil => exact List.nodup_nil
  | cons a l ih =>
    rw [List.eraseDups_cons, List.nodup_cons]
    refine ⟨?_, ih⟩
    simp [List.mem_eraseDups]

theorem eraseDups_of_nodup {l : List α} (h : l.Nodup) : l.eraseDups = l := by
  induction l with
  | nil => rfl
  | cons a l ih =>
    obtain ⟨hnew, hnodup⟩ := List.nodup_cons.mp h
    have hfilter : l.filter (fun b => !b == a) = l := by
      rw [List.filter_eq_self]
      intro b hb
      have hne : b ≠ a := by
        rintro rfl
        exact hnew hb
      simpa using hne
    rw [List.eraseDups_cons, hfilter, ih hnodup]

theorem eraseDups_filter (p : α → Bool) (l : List α) :
    (l.filter p).eraseDups = l.eraseDups.filter p := by
  induction l using induction_without with
  | nil => rfl
  | cons a l ih =>
    rw [List.filter_filter] at ih
    cases ha : p a with
    | true =>
      rw [List.filter_cons_of_pos ha, List.eraseDups_cons, List.eraseDups_cons,
        List.filter_cons_of_pos ha, ← ih, List.filter_filter]
      simp only [Bool.and_comm]
    | false =>
      -- the copies of `a` that come behind it are not taken either
      have hsame : l.filter p = l.filter fun b => p b && !b == a := by
        refine List.filter_congr fun b _ => ?_
        by_cases hb : b = a
        · simp [hb, ha]
        · simp [hb]
      rw [List.filter_cons_of_neg (by simp [ha]), List.eraseDups_cons,
        List.filter_cons_of_neg (by simp [ha]), ← ih, hsame]

/-- Of a list behind another one the elements are kept that are new. -/
theorem eraseDups_append_eq (l l' : List α) :
    (l ++ l').eraseDups = l.eraseDups ++ l'.eraseDups.filter fun a => a ∉ l := by
  rw [List.eraseDups_append, ← eraseDups_filter]
  simp [List.removeAll]

/-- Repetitions that are left out list by list are left out of the whole as well. -/
theorem eraseDups_flatMap {β : Type} (f : β → List α) (l : List β) :
    (l.flatMap fun b => (f b).eraseDups).eraseDups = (l.flatMap f).eraseDups := by
  induction l with
  | nil => rfl
  | cons b l ih =>
    rw [List.flatMap_cons, List.flatMap_cons, eraseDups_append_eq, eraseDups_append_eq, ih,
      eraseDups_of_nodup (nodup_eraseDups (f b))]
    simp only [List.mem_eraseDups]

end PhraseCatalog.Text
