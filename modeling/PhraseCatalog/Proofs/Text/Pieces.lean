import PhraseCatalog.Text.Blank

/-! Trimming and splitting of texts: what is left of a text without the blanks at its ends, what stands
before the first of some character, and that pieces come apart again where they were put together with
a separator that none of them holds. -/

set_option autoImplicit false

namespace PhraseCatalog.Text

/-! ## Blanks at the ends -/

theorem trimStart_of_forall_isBlank {s : List Char} (h : ∀ c ∈ s, isBlank c = true) :
    trimStart s = [] := by
  rw [trimStart, ← List.append_nil s, List.dropWhile_append_of_pos h, List.dropWhile_nil]

theorem trimStart_append_cons {s t : List Char} {c : Char} (h : isBlank c = false) :
    trimStart (s ++ c :: t) = trimStart s ++ c :: t := by
  induction s with
  | nil => simp [trimStart, h]
  | cons a s ih =>
    unfold trimStart at ih ⊢
    rw [List.cons_append, List.dropWhile_cons, List.dropWhile_cons, ih]
    split <;> rfl

theorem trimStart_append {blanks : List Char} (h : ∀ c ∈ blanks, isBlank c = true) {c : Char}
    (hc : isBlank c = false) (rest : List Char) : trimStart (blanks ++ c :: rest) = c :: rest := by
  rw [trimStart_append_cons hc, trimStart_of_forall_isBlank h, List.nil_append]

theorem exists_eq_append_trimStart (s : List Char) :
    ∃ blanks, (∀ b ∈ blanks, isBlank b = true) ∧ s = blanks ++ trimStart s :=
  ⟨s.takeWhile isBlank, List.all_eq_true.mp List.all_takeWhile,
    List.takeWhile_append_dropWhile.symm⟩

theorem trimStart_eq_cons_iff {s t : List Char} {c : Char} (hc : isBlank c = false) :
    trimStart s = c :: t ↔ ∃ blanks, (∀ b ∈ blanks, isBlank b = true) ∧ s = blanks ++ c :: t := by
  constructor
  · intro h
    rw [← h]
    exact exists_eq_append_trimStart s
  · rintro ⟨blanks, hblanks, rfl⟩
    exact trimStart_append hblanks hc t

theorem not_isBlank_of_mem_head? {s : List Char} {c : Char} (h : c ∈ (trimStart s).head?) :
    isBlank c = false := by
  have hfirst := List.head?_dropWhile_not isBlank s
  rwa [← trimStart, h] at hfirst

theorem trimEnd_eq_reverse (s : List Char) : trimEnd s = (trimStart s.reverse).reverse := rfl

theorem exists_eq_trimEnd_append (s : List Char) :
    ∃ blanks, (∀ b ∈ blanks, isBlank b = true) ∧ s = trimEnd s ++ blanks := by
  obtain ⟨blanks, hblanks, hs⟩ := exists_eq_append_trimStart s.reverse
  refine ⟨blanks.reverse, by simpa using hblanks, ?_⟩
  rw [trimEnd_eq_reverse, ← List.reverse_append, ← hs, List.reverse_reverse]

/-- The text neither begins nor ends with a blank. -/
def IsTrimmed (s : List Char) : Prop :=
  (∀ c ∈ s.head?, isBlank c = false) ∧ ∀ c ∈ s.getLast?, isBlank c = false

/-- The second text is the first one without the blanks at its ends. -/
def TrimsTo (s t : List Char) : Prop :=
  IsTrimmed t ∧ ∃ before behind, (∀ c ∈ before, isBlank c = true)
    ∧ (∀ c ∈ behind, isBlank c = true) ∧ s = before ++ (t ++ behind)

theorem trimsTo_trim (s : List Char) : TrimsTo s (trim s) := by
  obtain ⟨before, hbefore, hs⟩ := exists_eq_append_trimStart s
  obtain ⟨behind, hbehind, hinner⟩ := exists_eq_trimEnd_append (trimStart s)
  refine ⟨⟨fun c hc => ?_, fun c hc => ?_⟩, before, behind, hbefore, hbehind, by rwa [trim, ← hinner]⟩
  · refine not_isBlank_of_mem_head? (s := s) ?_
    obtain ⟨rest, hrest⟩ := List.head?_eq_some_iff.mp hc
    rw [hinner, ← trim, hrest]
    rfl
  · rw [trim, trimEnd_eq_reverse, List.getLast?_reverse] at hc
    exact not_isBlank_of_mem_head? hc

theorem TrimsTo.trim_eq {s t : List Char} (h : TrimsTo s t) : trim s = t := by
  obtain ⟨⟨hfirst, hlast⟩, before, behind, hbefore, hbehind, rfl⟩ := h
  rcases List.eq_nil_or_concat t with rfl | ⟨front, last, rfl⟩
  · have hblank : ∀ c ∈ before ++ ([] ++ behind), isBlank c = true :=
      List.forall_mem_append.mpr ⟨hbefore, hbehind⟩
    rw [trim, trimStart_of_forall_isBlank hblank]
    rfl
  · rw [List.concat_eq_append] at hfirst hlast ⊢
    obtain ⟨c, rest, ht⟩ := List.exists_cons_of_ne_nil (List.append_ne_nil_of_right_ne_nil front
      (List.cons_ne_nil last []))
    have hstart : trimStart (before ++ (front ++ [last] ++ behind)) = front ++ [last] ++ behind := by
      rw [ht]
      exact trimStart_append hbefore (hfirst c (by rw [ht]; rfl)) (rest ++ behind)
    have hend : trimStart (front ++ [last] ++ behind).reverse = last :: front.reverse := by
      rw [List.reverse_append, List.reverse_append]
      exact trimStart_append (by simpa using hbehind) (hlast last (by simp)) front.reverse
    rw [trim, hstart, trimEnd_eq_reverse, hend, List.reverse_cons, List.reverse_reverse]

/-- A text has one text that it trims to. -/
theorem trim_eq_iff {s t : List Char} : trim s = t ↔ TrimsTo s t :=
  ⟨fun h => h ▸ trimsTo_trim s, TrimsTo.trim_eq⟩

theorem IsTrimmed.trimsTo {s : List Char} (h : IsTrimmed s) : TrimsTo s s :=
  ⟨h, [], [], by simp, by simp, by simp⟩

theorem trim_eq_nil_iff {s : List Char} : trim s = [] ↔ ∀ c ∈ s, isBlank c = true := by
  rw [trim_eq_iff]
  constructor
  · rintro ⟨-, before, behind, hbefore, hbehind, rfl⟩
    exact List.forall_mem_append.mpr ⟨hbefore, hbehind⟩
  · exact fun h => ⟨⟨by simp, by simp⟩, s, [], h, by simp, by simp⟩

/-! ## Up to a character -/

theorem forall_ne_of_notMem {c : Char} {s : List Char} (h : c ∉ s) :
    ∀ a ∈ s, decide (a ≠ c) = true := by
  intro a ha
  rw [decide_eq_true_iff]
  rintro rfl
  exact h ha

theorem takeWhile_ne_append {c : Char} {before : List Char} (behind : List Char)
    (h : c ∉ before) : (before ++ c :: behind).takeWhile (· ≠ c) = before := by
  rw [List.takeWhile_append_of_pos (forall_ne_of_notMem h), List.takeWhile_cons_of_neg (by simp),
    List.append_nil]

theorem dropWhile_ne_append {c : Char} {before : List Char} (behind : List Char)
    (h : c ∉ before) : (before ++ c :: behind).dropWhile (· ≠ c) = c :: behind := by
  rw [List.dropWhile_append_of_pos (forall_ne_of_notMem h), List.dropWhile_cons_of_neg (by simp)]

theorem dropWhile_ne_of_notMem {c : Char} {s : List Char} (h : c ∉ s) :
    s.dropWhile (· ≠ c) = [] := by
  rw [← List.append_nil s, List.dropWhile_append_of_pos (forall_ne_of_notMem h), List.dropWhile_nil]

/-! ## Pieces -/

theorem splitOn_eq_splitOn (sep : Char) (s : List Char) : splitOn sep s = s.splitOn sep := by
  induction s with
  | nil => rfl
  | cons c s ih =>
    rw [splitOn, ih, List.splitOn_cons_eq_if_modifyHead]
    simp only [beq_iff_eq]
    split
    · rfl
    · cases hs : s.splitOn sep with
      | nil => exact absurd (ih.trans hs) (splitOn_ne_nil sep s)
      | cons piece pieces => rfl

theorem splitOn_of_notMem {sep : Char} {s : List Char} (h : sep ∉ s) : splitOn sep s = [s] := by
  rw [splitOn_eq_splitOn, List.splitOn_eq_singleton h]

/-- Pieces without the separator come apart where they were put together. -/
theorem splitOn_intercalate {sep : Char} {pieces : List (List Char)} (hne : pieces ≠ [])
    (h : ∀ piece ∈ pieces, sep ∉ piece) :
    splitOn sep (List.intercalate [sep] pieces) = pieces := by
  rw [splitOn_eq_splitOn, List.splitOn_intercalate sep h hne]

theorem splitOn_toList_intercalate {sep : Char} {mark : String} (hmark : mark.toList = [sep])
    {pieces : List String} (hne : pieces ≠ []) (h : ∀ piece ∈ pieces, sep ∉ piece.toList) :
    splitOn sep (mark.intercalate pieces).toList = pieces.map String.toList := by
  rw [String.toList_intercalate, hmark]
  exact splitOn_intercalate (by simpa using hne) (by simpa using h)

end PhraseCatalog.Text
