import Mathlib.Data.List.Forall2
import PhraseCatalog.Language.Codes
import PhraseCatalog.Proofs.Text.Pieces

/-! Lists of language codes as texts. What is read from a text is a list of codes, every list of codes
is read from its own text with commas, and a list is refused for being empty or for the first code in
it that is not known. -/

set_option autoImplicit false

namespace PhraseCatalog.Language

open Text

/-! ## Codes -/

/-- What may be read as a code: a text that is not empty, without commas and without blanks at its
ends. -/
structure IsCode (code : String) : Prop where
  ne_empty : code ≠ ""
  comma_notMem : ',' ∉ code.toList
  isTrimmed : IsTrimmed code.toList

/-- The text lists the codes: each piece between commas that is not blank is a code with blanks
around it, and the codes stand in the order of the pieces. -/
def Lists (value : String) (codes : List String) : Prop :=
  List.Forall₂ (fun piece code => TrimsTo piece code.toList)
    ((value.toList.splitOn ',').filter fun piece => piece.any fun c => !isBlank c) codes

theorem Lists.unique {value : String} {codes others : List String} (h : Lists value codes)
    (hothers : Lists value others) : codes = others := by
  refine Relator.RightUnique.forall₂ (fun piece code other hcode hother => ?_) h hothers
  exact String.toList_injective (hcode.trim_eq.symm.trans hother.trim_eq)

/-! ## Reading -/

/-- The code that a piece between commas holds. -/
def codeOf? (piece : List Char) : Option String :=
  match trim piece with
  | [] => none
  | code => some (String.ofList code)

theorem parseCodes_eq_filterMap (value : String) :
    parseCodes value = (splitOn ',' value.toList).filterMap codeOf? := rfl

theorem codeOf?_eq_none_iff {piece : List Char} :
    codeOf? piece = none ↔ ∀ c ∈ piece, isBlank c = true := by
  rw [← trim_eq_nil_iff]
  unfold codeOf?
  split
  · simp [*]
  · rename_i hne
    simpa using hne

theorem codeOf?_eq_some_iff {piece : List Char} {code : String} :
    codeOf? piece = some code ↔ code ≠ "" ∧ TrimsTo piece code.toList := by
  rw [← trim_eq_iff, ← String.toList_eq_nil_iff.ne]
  unfold codeOf?
  split
  · rename_i hnil
    simp only [reduceCtorEq, hnil, false_iff, not_and]
    exact fun hne => hne.symm
  · rename_i hne
    rw [Option.some.injEq]
    constructor
    · rintro rfl
      rw [String.toList_ofList]
      exact ⟨hne, rfl⟩
    · rintro ⟨-, htrim⟩
      rw [htrim, String.ofList_toList]

theorem IsCode.codeOf?_toList {code : String} (h : IsCode code) : codeOf? code.toList = some code :=
  codeOf?_eq_some_iff.mpr ⟨h.ne_empty, h.isTrimmed.trimsTo⟩

theorem isCode_of_codeOf? {piece : List Char} {code : String} (hpiece : ',' ∉ piece)
    (h : codeOf? piece = some code) : IsCode code := by
  obtain ⟨hne, htrimmed, before, behind, -, -, rfl⟩ := codeOf?_eq_some_iff.mp h
  simp only [List.mem_append, not_or] at hpiece
  exact ⟨hne, hpiece.2.1, htrimmed⟩

theorem isCode_of_mem_parseCodes {value code : String} (h : code ∈ parseCodes value) :
    IsCode code := by
  obtain ⟨piece, hpiece, hcode⟩ := List.mem_filterMap.mp h
  exact isCode_of_codeOf? (not_mem_of_mem_splitOn hpiece) hcode

theorem forall₂_filterMap_codeOf? (pieces : List (List Char)) :
    List.Forall₂ (fun piece code => TrimsTo piece code.toList)
      (pieces.filter fun piece => piece.any fun c => !isBlank c) (pieces.filterMap codeOf?) := by
  induction pieces with
  | nil => exact .nil
  | cons piece pieces ih =>
    cases hcode : codeOf? piece with
    | none =>
      have hblank := codeOf?_eq_none_iff.mp hcode
      rw [List.filterMap_cons_none hcode, List.filter_cons_of_neg (by simpa using hblank)]
      exact ih
    | some code =>
      have hkept : ¬∀ c ∈ piece, isBlank c = true := fun hblank => by
        rw [codeOf?_eq_none_iff.mpr hblank] at hcode
        cases hcode
      rw [List.filterMap_cons_some hcode, List.filter_cons_of_pos (by simpa using hkept)]
      exact .cons (codeOf?_eq_some_iff.mp hcode).2 ih

theorem lists_parseCodes (value : String) : Lists value (parseCodes value) := by
  rw [Lists, parseCodes_eq_filterMap, splitOn_eq_splitOn]
  exact forall₂_filterMap_codeOf? _

theorem parseCodes_eq_iff {value : String} {codes : List String} :
    parseCodes value = codes ↔ Lists value codes :=
  ⟨fun h => h ▸ lists_parseCodes value, (lists_parseCodes value).unique⟩

example : parseCodes " en, zh ,,ja," = ["en", "zh", "ja"] := by decide

/-- The lists of codes are the lists that are read back from their own text with commas. -/
theorem parseCodes_intercalate_eq_iff {codes : List String} :
    parseCodes (String.intercalate "," codes) = codes ↔ ∀ code ∈ codes, IsCode code := by
  constructor
  · exact fun h code hcode => isCode_of_mem_parseCodes (h.symm ▸ hcode)
  · intro h
    rcases eq_or_ne codes [] with rfl | hne
    · rfl
    · rw [parseCodes_eq_filterMap,
        splitOn_toList_intercalate rfl hne fun code hcode => (h code hcode).comma_notMem,
        List.filterMap_map]
      calc codes.filterMap (codeOf? ∘ String.toList)
          = codes.filterMap some :=
            List.filterMap_congr fun code hcode => (h code hcode).codeOf?_toList
        _ = codes := List.filterMap_some

/-! ## Refused lists -/

/-- All codes before this one are known, and this one is not. -/
def IsFirstUnknown (codes : List String) (code : String) : Prop :=
  code ∉ knownCodes
    ∧ ∃ before after, codes = before ++ code :: after ∧ ∀ c ∈ before, c ∈ knownCodes

theorem find?_eq_some_iff {codes : List String} {code : String} :
    codes.find? (fun code => !(knownCodes.contains code)) = some code
      ↔ IsFirstUnknown codes code := by
  simp [List.find?_eq_some_iff_append, IsFirstUnknown]

theorem validateCodes_eq_error_iff {codes : List String} {fault : CodesFault} :
    validateCodes codes = .error fault
      ↔ codes = [] ∧ fault = .empty ∨ ∃ code, IsFirstUnknown codes code ∧ fault = .unknown code := by
  cases codes with
  | nil => simp [validateCodes, IsFirstUnknown, eq_comm]
  | cons first rest =>
    rw [validateCodes]
    · simp only [← find?_eq_some_iff, reduceCtorEq, false_and, false_or]
      split
      · rename_i code hfind
        rw [hfind, Except.error.injEq]
        constructor
        · rintro rfl
          exact ⟨code, rfl, rfl⟩
        · rintro ⟨_, ⟨⟩, rfl⟩
          rfl
      · rename_i hfind
        rw [hfind]
        simp only [reduceCtorEq, false_and, exists_false]
    · exact fun h => absurd h (List.cons_ne_nil _ _)

/-- What is read from a text is what the text lists, a list of codes, and the lists of codes are those
that are read back from their own text with commas. Such a list is accepted unchanged if it has codes
and only known ones; else the message names the first code that is not known, if there is one. -/
theorem parseCodes_canonical_validateCodes_exact (value : String) :
    (∀ codes, parseCodes value = codes ↔ Lists value codes)
      ∧ (∀ code ∈ parseCodes value, IsCode code)
      ∧ parseCodes (String.intercalate "," (parseCodes value)) = parseCodes value
      ∧ (∀ codes, parseCodes (String.intercalate "," codes) = codes ↔ ∀ code ∈ codes, IsCode code)
      ∧ (∀ accepted, validateCodes (parseCodes value) = .ok accepted
          ↔ parseCodes value ≠ [] ∧ (∀ code ∈ parseCodes value, code ∈ knownCodes)
            ∧ accepted = parseCodes value)
      ∧ ∀ message,
          (∃ fault, validateCodes (parseCodes value) = .error fault ∧ fault.message = message)
            ↔ parseCodes value = [] ∧ message = "At least one language code is required"
              ∨ ∃ code, IsFirstUnknown (parseCodes value) code
                  ∧ message = "Unknown language code: \"" ++ code ++ "\"" := by
  refine ⟨fun _ => parseCodes_eq_iff, fun _ => isCode_of_mem_parseCodes,
    parseCodes_intercalate_eq_iff.mpr fun _ => isCode_of_mem_parseCodes,
    fun _ => parseCodes_intercalate_eq_iff, fun _ => validateCodes_eq_ok_iff, fun message => ?_⟩
  simp only [validateCodes_eq_error_iff]
  constructor
  · rintro ⟨fault, ⟨hempty, rfl⟩ | ⟨code, hcode, rfl⟩, rfl⟩
    · exact .inl ⟨hempty, rfl⟩
    · exact .inr ⟨code, hcode, rfl⟩
  · rintro (⟨hempty, rfl⟩ | ⟨code, hcode, rfl⟩)
    · exact ⟨.empty, .inl ⟨hempty, rfl⟩, rfl⟩
    · exact ⟨.unknown code, .inr ⟨code, hcode, rfl⟩, rfl⟩

end PhraseCatalog.Language
