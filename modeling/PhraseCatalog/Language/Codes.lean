import PhraseCatalog.Text.Blank

/-! Lists of language codes: reading them from a comma separated text, and checking that every
code is known. -/

set_option autoImplicit false

namespace PhraseCatalog.Language

open Text

/-- The languages that the generated runtime can be configured with. -/
def knownCodes : List String :=
  ["en", "zh", "ja", "es", "fr", "hi", "de", "ru", "pt", "it", "ko", "tr", "vi", "th", "id", "ar",
   "pl", "nl", "sv", "uk"]

def defaultCodes : String := "en,zh,ja,es,fr,hi"

/-- The pieces between commas, trimmed, without the blank ones. -/
def parseCodes (value : String) : List String :=
  (splitOn ',' value.toList).filterMap fun piece =>
    match trim piece with
    | [] => none
    | code => some (String.ofList code)

/-- Why a list of codes is refused. -/
inductive CodesFault
  | empty
  | unknown (code : String)
deriving DecidableEq, Repr

def CodesFault.message : CodesFault → String
  | .empty => "At least one language code is required"
  | .unknown code => "Unknown language code: \"" ++ code ++ "\""

/-- Accepts a list that has codes and only known ones; the first unknown one is reported. -/
def validateCodes (codes : List String) : Except CodesFault (List String) :=
  match codes with
  | [] => .error .empty
  | codes =>
    match codes.find? fun code => !(knownCodes.contains code) with
    | some code => .error (.unknown code)
    | none => .ok codes

theorem validateCodes_eq_ok_iff {codes accepted : List String} :
    validateCodes codes = .ok accepted
      ↔ codes ≠ [] ∧ (∀ code ∈ codes, code ∈ knownCodes) ∧ accepted = codes := by
  cases codes with
  | nil => simp [validateCodes]
  | cons first rest =>
    rw [validateCodes]
    · split
      · rename_i code hfind
        have hcode := List.find?_some hfind
        have hmem := List.mem_of_find?_eq_some hfind
        simp only [Bool.not_eq_true', List.contains_eq_mem, decide_eq_false_iff_not] at hcode
        simp only [reduceCtorEq, false_iff, not_and]
        exact fun _ hknown => absurd (hknown code hmem) hcode
      · rename_i hfind
        have hknown : ∀ code ∈ first :: rest, code ∈ knownCodes := by simpa using hfind
        simp only [Except.ok.injEq, eq_comm (a := accepted)]
        exact ⟨fun h => ⟨List.cons_ne_nil _ _, hknown, h⟩, fun h => h.2.2⟩
    · exact fun h => absurd h (List.cons_ne_nil _ _)

end PhraseCatalog.Language
