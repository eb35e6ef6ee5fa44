import Mathlib.Data.List.Infix
import PhraseCatalog.Model.Prompt

/-! What an instruction tells the model of a phrase. The phrase stands behind a mark, and the first
place where the mark stands is the one that was meant, whatever the phrase is; the style must only not
hold the mark itself. So an instruction gives its phrase and its style back. -/

set_option autoImplicit false

namespace PhraseCatalog.Model

/-! ## The first place of a mark -/

/-- The mark stands somewhere in the text. -/
def Contains (text mark : String) : Prop := ∃ before after, text = before ++ mark ++ after

theorem contains_iff {text mark : String} : Contains text mark ↔ mark.toList <:+: text.toList := by
  constructor
  · rintro ⟨before, after, rfl⟩
    exact ⟨before.toList, after.toList, by simp⟩
  · rintro ⟨before, after, htext⟩
    refine ⟨String.ofList before, String.ofList after, String.toList_injective ?_⟩
    simp [← htext]

/-- What stands before the mark and behind it, at its first place in the text. -/
structure SplitsAt (mark text before after : String) : Prop where
  eq : text = before ++ mark ++ after
  first : ∀ before' after', text = before' ++ mark ++ after' → before.length ≤ before'.length

theorem SplitsAt.unique {mark text before after before' after' : String}
    (h : SplitsAt mark text before after) (h' : SplitsAt mark text before' after') :
    before = before' ∧ after = after' := by
  have hlength := Nat.le_antisymm (h.first _ _ h'.eq) (h'.first _ _ h.eq)
  have htext := congrArg String.toList (h.eq.symm.trans h'.eq)
  simp only [String.toList_append, List.append_assoc] at htext
  obtain ⟨hbefore, hrest⟩ := List.append_inj htext (by
    rw [String.length_toList, String.length_toList]
    exact hlength)
  exact ⟨String.toList_injective hbefore, String.toList_injective (List.append_cancel_left hrest)⟩

/-- No place of the mark reaches from the text before it into the mark, if no end of the mark is a start
of it. -/
theorem length_le_of_append_eq {mark before after before' after' : List Char}
    (hnot : ¬ mark <:+: before)
    (hends : ∀ t, t <+: mark → t <:+ mark → t = [] ∨ t = mark)
    (h : before ++ (mark ++ after) = before' ++ (mark ++ after')) :
    before.length ≤ before'.length := by
  rcases List.append_eq_append_iff.mp h with ⟨rest, rfl, -⟩ | ⟨rest, rfl, hrest⟩
  · simp
  rcases List.append_eq_append_iff.mp hrest with ⟨behind, rfl, -⟩ | ⟨t, hmark, ht⟩
  · exact absurd ⟨before', behind, List.append_assoc ..⟩ hnot
  have hsuffix : t <:+ mark := ⟨rest, hmark.symm⟩
  have hstarts : t <+: mark :=
    List.prefix_of_prefix_length_le ⟨after', ht.symm⟩ (List.prefix_append _ _) hsuffix.length_le
  rcases hends t hstarts hsuffix with rfl | rfl
  · rw [List.append_nil] at hmark
    exact absurd ⟨before', [], by rw [hmark, List.append_nil]⟩ hnot
  · have hnil : rest = [] := by simpa using hmark
    simp [hnil]

/-! ## The instruction -/

/-- No end of the mark is a start of it. -/
theorem phraseMark_ends (t : List Char) (hstarts : t <+: phraseMark.toList)
    (hsuffix : t <:+ phraseMark.toList) : t = [] ∨ t = phraseMark.toList := by
  have hlengths : ∀ n ≤ phraseMark.toList.length,
      phraseMark.toList.take n <:+ phraseMark.toList → n = 0 ∨ n = phraseMark.toList.length := by
    decide +kernel
  have htake := List.prefix_iff_eq_take.mp hstarts
  rw [htake] at hsuffix
  rcases hlengths t.length hstarts.length_le hsuffix with hzero | hall
  · exact .inl (List.length_eq_zero_iff.mp hzero)
  · exact .inr (by rw [htake, hall, List.take_length])

/-- The end of what every instruction starts with; before it there is no `P`. -/
theorem exists_promptOpening_eq : ∃ task : String,
    promptOpening = task ++ " Please respond only in this JSON format. " ∧ 'P' ∉ task.toList := by
  have hnames : 'P' ∉ (enumerate (targetLanguages.map (·.2.1))).toList := by decide +kernel
  have hexample : 'P' ∉ (exampleRecord.render .line).toList := by
    rw [Json.Value.render, String.toList_ofList]
    decide +kernel
  refine ⟨_, rfl, ?_⟩
  simp only [String.toList_append, List.mem_append, not_or]
  exact ⟨⟨⟨⟨⟨by decide, hnames⟩, by decide⟩, by decide⟩, by decide⟩, hexample⟩

theorem not_contains_opening {text : String} (h : ¬ Contains text phraseMark) :
    ¬ phraseMark.toList <:+: (promptOpening ++ text).toList := by
  rw [contains_iff] at h
  obtain ⟨task, hopening, hP⟩ := exists_promptOpening_eq
  have hmark : phraseMark.toList = 'P' :: "lease translate: ".toList := by decide
  have hend : ¬ phraseMark.toList <:+: " Please respond only in this JSON format. ".toList := by
    decide +kernel
  have hstart : ∀ n ≤ phraseMark.toList.length, phraseMark.toList.take n
      <:+ " Please respond only in this JSON format. ".toList → n = 0 := by decide +kernel
  -- a place of the mark begins with the first character of a start of it
  have hbegins : ∀ {l l' : List Char}, phraseMark.toList = l ++ l' → l <:+ task.toList → l = [] := by
    intro l l' hsplit hsuffix
    cases l with
    | nil => rfl
    | cons c l =>
      rw [hmark, List.cons_append, List.cons.injEq] at hsplit
      exact absurd (hsuffix.subset (hsplit.1 ▸ List.mem_cons_self)) hP
  have hrest : ¬ phraseMark.toList
      <:+: " Please respond only in this JSON format. ".toList ++ text.toList := by
    rw [List.infix_append_iff]
    rintro (hinside | hinside | ⟨l, l', hsplit, hsuffix, hstarts⟩)
    · exact hend hinside
    · exact h hinside
    · have htake : l = phraseMark.toList.take l.length := by rw [hsplit, List.take_left]
      have hlength : l.length ≤ phraseMark.toList.length := by simp [hsplit]
      have hnil := List.length_eq_zero_iff.mp (hstart l.length hlength (htake ▸ hsuffix))
      rw [hsplit, hnil, List.nil_append] at h
      exact h hstarts.isInfix
  rw [hopening, String.append_assoc, String.toList_append, String.toList_append,
    List.infix_append_iff]
  rintro (hinside | hinside | ⟨l, l', hsplit, hsuffix, hstarts⟩)
  · exact hP (hinside.subset (hmark ▸ List.mem_cons_self))
  · exact hrest hinside
  · rw [hsplit, hbegins hsplit hsuffix, List.nil_append] at hrest
    exact hrest hstarts.isInfix

/-- Where the style does not hold the mark, the phrase is what stands behind the first mark. -/
theorem prompt_splitsAt {style : String} (h : ¬ Contains (style ++ " ") phraseMark)
    (phrase : String) :
    SplitsAt phraseMark (prompt phrase style) (promptOpening ++ style ++ " ") phrase := by
  refine ⟨rfl, fun before after heq => ?_⟩
  have hnot : ¬ phraseMark.toList <:+: (promptOpening ++ style ++ " ").toList := by
    rw [String.append_assoc]
    exact not_contains_opening h
  have htext : (promptOpening ++ style ++ " ").toList ++ (phraseMark.toList ++ phrase.toList)
      = before.toList ++ (phraseMark.toList ++ after.toList) := by
    have heq := congrArg String.toList heq
    simpa only [prompt, String.toList_append, List.append_assoc] using heq
  have hlength := length_le_of_append_eq hnot phraseMark_ends htext
  rwa [String.length_toList, String.length_toList] at hlength

theorem eq_of_prompt_eq {style style' phrase phrase' : String}
    (h : ¬ Contains (style ++ " ") phraseMark) (h' : ¬ Contains (style' ++ " ") phraseMark)
    (heq : prompt phrase style = prompt phrase' style') : phrase = phrase' ∧ style = style' := by
  have hsplit := prompt_splitsAt h phrase
  rw [heq] at hsplit
  obtain ⟨hbefore, hphrase⟩ := hsplit.unique (prompt_splitsAt h' phrase')
  have hstyle := congrArg String.toList hbefore
  simp only [String.toList_append, List.append_assoc, List.append_cancel_left_eq,
    List.append_cancel_right_eq] at hstyle
  exact ⟨hphrase, String.toList_injective hstyle⟩

end PhraseCatalog.Model
