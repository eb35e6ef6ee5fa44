import PhraseCatalog.Model.Reply
import PhraseCatalog.Proofs.Json.RoundTrip
import PhraseCatalog.Proofs.Text.Pieces

/-! Recovering a record from a completion: the text between the first opening and the last closing
brace is found whatever stands around it, and an object with more text up to a further closing brace
behind it is no document, so a record is never cut short or put together. -/

set_option autoImplicit false

namespace PhraseCatalog.Model

open Json Text

def IsBraced (text : String) : Prop :=
  text.toList.head? = some openBrace ∧ text.toList.getLast? = some closeBrace

theorem IsBraced.exists_middle {text : String} (h : IsBraced text) :
    ∃ middle, text.toList = openBrace :: middle ++ [closeBrace] := by
  obtain ⟨hhead, hlast⟩ := h
  obtain ⟨u, hu⟩ := List.getLast?_eq_some_iff.mp hlast
  rw [hu] at hhead ⊢
  obtain _ | ⟨c, u⟩ := u
  · cases hhead
  · cases hhead
    exact ⟨u, rfl⟩

/-! ## The part between the braces -/

theorem braced?_append {before middle behind : List Char} (hb : openBrace ∉ before)
    (ha : closeBrace ∉ behind) :
    braced? (before ++ (openBrace :: middle ++ [closeBrace]) ++ behind)
      = some (openBrace :: middle ++ [closeBrace]) := by
  have htext : before ++ (openBrace :: middle ++ [closeBrace]) ++ behind
      = before ++ openBrace :: (middle ++ closeBrace :: behind) := by simp
  have hrev : (openBrace :: (middle ++ closeBrace :: behind)).reverse
      = behind.reverse ++ closeBrace :: (openBrace :: middle).reverse := by simp
  rw [htext, braced?, if_pos (by simp), dropWhile_ne_append _ hb, hrev,
    dropWhile_ne_append _ (by simpa using ha)]
  simp

/-- What is found between braces stands in one place only: before it there is no opening brace and
behind it no closing one. -/
theorem exists_append_of_braced? {text body : List Char} (h : braced? text = some body)
    (hne : body ≠ []) :
    ∃ before behind, text = before ++ body ++ behind ∧ openBrace ∉ before ∧ closeBrace ∉ behind
      ∧ body.head? = some openBrace ∧ body.getLast? = some closeBrace := by
  unfold braced? at h
  split at h
  · rename_i hboth
    have hopen : openBrace ∈ text := by
      rw [Bool.and_eq_true] at hboth
      simpa using hboth.1
    obtain ⟨before, u, rfl, hb⟩ := List.eq_append_cons_of_mem hopen
    rw [dropWhile_ne_append u hb, Option.some.injEq] at h
    by_cases hclose : closeBrace ∈ (openBrace :: u).reverse
    · obtain ⟨w, front, hrev, ha⟩ := List.eq_append_cons_of_mem hclose
      rw [hrev, dropWhile_ne_append front ha] at h
      have hu : openBrace :: u = body ++ w.reverse := by
        rw [← List.reverse_reverse (openBrace :: u), hrev, ← h]
        simp
      refine ⟨before, w.reverse, by rw [hu, List.append_assoc], hb, by simpa using ha, ?_, ?_⟩
      · obtain ⟨c, rest, hcons⟩ := List.exists_cons_of_ne_nil hne
        rw [hcons, List.cons_append] at hu
        rw [hcons, List.head?_cons, (List.cons.inj hu).1]
      · rw [← h]
        simp
    · rw [dropWhile_ne_of_notMem hclose] at h
      exact absurd h.symm hne
  · cases h

/-! ## The record -/

theorem readChars_eq_ok_iff {s : List Char} {v : Value} :
    readChars s = .ok v ↔ Reader.document s = .ok v := by
  unfold readChars
  cases Reader.document s <;> simp

theorem recover_of_braced? {text : String} {body : List Char} {v : Value}
    (hbody : braced? text.toList = some body) (hv : readChars body = .ok v) :
    recover text = .ok v.members? := by
  simp only [recover, hbody, hv]

/-- An object with further text behind it, up to a closing brace, is not read. -/
theorem recover_of_stray_brace {text : String} {middle between : List Char} {v : Value}
    (hbody : braced? text.toList = some (openBrace :: middle ++ (between ++ [closeBrace])))
    (hv : Reader.document (openBrace :: middle) = .ok v) : recover text = .ok none := by
  have hblank : Reader.skipSpace (between ++ [closeBrace]) ≠ [] := by
    rw [Reader.skipSpace, List.dropWhile_append]
    split
    · decide
    · simp_all
  obtain ⟨left, hleft⟩ : ∃ left, Reader.document
      (openBrace :: middle ++ (between ++ [closeBrace])) = .error (.malformed .extraData left) :=
    Reader.document_object_append hv hblank
  simp only [recover, hbody, readChars, hleft]
  rfl

/-- An object in a completion is recovered whatever stands before it without an opening brace and
behind it without a closing one; a closing brace behind it makes the completion unreadable. All that
is ever recovered is recovered in this way. -/
theorem recover_braced_object :
    (∀ (p e s : String) (r : List (String × Value)), Json.read e = .ok (.obj r) → IsBraced e →
      openBrace ∉ p.toList →
      recover (p ++ e ++ s) = .ok (if closeBrace ∈ s.toList then none else some r))
    ∧ ∀ (t : String) (r : List (String × Value)), recover t = .ok (some r) →
      ∃ p e s : String, t = p ++ e ++ s ∧ openBrace ∉ p.toList ∧ closeBrace ∉ s.toList
        ∧ IsBraced e ∧ Json.read e = .ok (.obj r) := by
  constructor
  · intro p e s r hread he hp
    obtain ⟨middle, hmiddle⟩ := he.exists_middle
    rw [Json.read, hmiddle] at hread
    by_cases hs : closeBrace ∈ s.toList
    · -- the last closing brace of the text behind the object ends what is read
      obtain ⟨back, front, hrev, hback⟩ := List.eq_append_cons_of_mem (List.mem_reverse.mpr hs)
      have hsplit : s.toList = front.reverse ++ closeBrace :: back.reverse := by
        rw [← List.reverse_reverse s.toList, hrev]
        simp
      have htext : (p ++ e ++ s).toList = p.toList ++ (openBrace ::
          (middle ++ closeBrace :: front.reverse) ++ [closeBrace]) ++ back.reverse := by
        simp [String.toList_append, hmiddle, hsplit]
      have hbody : braced? (p ++ e ++ s).toList
          = some (openBrace :: (middle ++ [closeBrace]) ++ (front.reverse ++ [closeBrace])) := by
        rw [htext, braced?_append hp (by simpa using hback)]
        simp
      rw [if_pos hs]
      exact recover_of_stray_brace hbody (readChars_eq_ok_iff.mp hread)
    · have hbody : braced? (p ++ e ++ s).toList = some (openBrace :: middle ++ [closeBrace]) := by
        rw [String.toList_append, String.toList_append, hmiddle]
        exact braced?_append hp hs
      rw [if_neg hs]
      exact recover_of_braced? hbody hread
  · intro t r h
    unfold recover at h
    split at h
    · cases h
    · rename_i body hbody
      cases hv : readChars body with
      | error error => cases error <;> simp [hv] at h
      | ok v =>
        have hne : body ≠ [] := by
          rintro rfl
          cases hv
        obtain ⟨before, behind, htext, hb, ha, hhead, hlast⟩ :=
          exists_append_of_braced? hbody hne
        refine ⟨String.ofList before, String.ofList body, String.ofList behind, ?_, ?_, ?_, ?_, ?_⟩
        · rw [← String.ofList_append, ← String.ofList_append, ← htext, String.ofList_toList]
        · simpa using hb
        · simpa using ha
        · exact ⟨by simpa using hhead, by simpa using hlast⟩
        · rw [Json.read, String.toList_ofList, hv]
          obtain _ | _ | _ | _ | _ | _ | members := v <;> simp_all [Value.members?]

/-- A closing brace in a string and one before the object do not count, one behind it does. -/
theorem recover_braced_object_in_prose :
    Json.read "\x7b\"a\": \"\\\"\x7d\"\x7d" = .ok (.obj [("a", .str "\"\x7d")])
    ∧ IsBraced "\x7b\"a\": \"\\\"\x7d\"\x7d" ∧ openBrace ∉ "so \x7d ".toList
    ∧ recover ("so \x7d " ++ "\x7b\"a\": \"\\\"\x7d\"\x7d" ++ " or \x7b")
      = .ok (some [("a", .str "\"\x7d")])
    ∧ recover ("so \x7d " ++ "\x7b\"a\": \"\\\"\x7d\"\x7d" ++ " or \x7b\x7d") = .ok none
    ∧ ∃ p e s : String, "so \x7d " ++ "\x7b\"a\": \"\\\"\x7d\"\x7d" ++ " or \x7b" = p ++ e ++ s
      ∧ openBrace ∉ p.toList ∧ closeBrace ∉ s.toList ∧ IsBraced e
      ∧ Json.read e = .ok (.obj [("a", .str "\"\x7d")]) := by
  have htext : (Value.obj [("a", .str "\"\x7d")]).render .line
      = "\x7b\"a\": \"\\\"\x7d\"\x7d" := rfl
  have hplain : Plain (nestingLimit - 1 + 1) (.obj [("a", .str "\"\x7d")]) := by
    refine .obj (by decide) fun member hmember => ?_
    rw [List.mem_singleton.mp hmember]
    exact .str _ _
  have hread : Json.read "\x7b\"a\": \"\\\"\x7d\"\x7d" = .ok (.obj [("a", .str "\"\x7d")]) := by
    rw [← htext]
    exact read_render Style.line_readable hplain
  have he : IsBraced "\x7b\"a\": \"\\\"\x7d\"\x7d" := ⟨by decide, by decide⟩
  have hp : openBrace ∉ "so \x7d ".toList := by decide
  have hfound := recover_braced_object.1 _ _ " or \x7b" _ hread he hp
  have hstray := recover_braced_object.1 _ _ " or \x7b\x7d" _ hread he hp
  rw [if_neg (by decide)] at hfound
  rw [if_pos (by decide)] at hstray
  exact ⟨hread, he, hp, hfound, hstray, recover_braced_object.2 _ _ hfound⟩

end PhraseCatalog.Model
