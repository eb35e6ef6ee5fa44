/-! Blank characters: the 29 code points that separate words, and trimming them off a text. -/

set_option autoImplicit false

namespace PhraseCatalog.Text

/-- Tab to carriage return, the four separators below the space, the space, the next-line
control, and the spaces, line and paragraph separators beyond ASCII. -/
def isBlank (c : Char) : Bool :=
  let n := c.toNat
  (0x09 ≤ n && n ≤ 0x0D) || (0x1C ≤ n && n ≤ 0x20) || n == 0x85 || n == 0xA0 || n == 0x1680
    || (0x2000 ≤ n && n ≤ 0x200A) || n == 0x2028 || n == 0x2029 || n == 0x202F || n == 0x205F
    || n == 0x3000

def trimStart (s : List Char) : List Char := s.dropWhile isBlank

def trimEnd (s : List Char) : List Char := (s.reverse.dropWhile isBlank).reverse

def trim (s : List Char) : List Char := trimEnd (trimStart s)

/-- The pieces between the occurrences of a separator; there is always at least one. -/
def splitOn (sep : Char) : List Char → List (List Char)
  | [] => [[]]
  | c :: r =>
    if c = sep then [] :: splitOn sep r
    else match splitOn sep r with
      | [] => [[c]]
      | piece :: pieces => (c :: piece) :: pieces

theorem splitOn_ne_nil (sep : Char) (s : List Char) : splitOn sep s ≠ [] := by
  fun_cases splitOn sep s <;> simp

/-- At a separator the pieces before it and those behind it come apart. -/
theorem splitOn_append_cons (sep : Char) (s t : List Char) :
    splitOn sep (s ++ sep :: t) = splitOn sep s ++ splitOn sep t := by
  induction s with
  | nil => simp [splitOn]
  | cons c s ih =>
    by_cases hc : c = sep
    · simp [splitOn, hc, ih]
    · cases hs : splitOn sep s with
      | nil => exact absurd hs (splitOn_ne_nil sep s)
      | cons piece pieces => simp [splitOn, hc, ih, hs]

theorem not_mem_of_mem_splitOn {sep : Char} {s piece : List Char} (h : piece ∈ splitOn sep s) :
    sep ∉ piece := by
  fun_induction splitOn sep s generalizing piece with
  | case1 => simp_all
  | case2 r ih =>
    rcases List.mem_cons.mp h with rfl | h
    · exact List.not_mem_nil
    · exact ih h
  | case3 c r hc hnil ih => exact absurd hnil (splitOn_ne_nil sep r)
  | case4 c r hc first pieces hr ih =>
    rw [hr] at ih
    rcases List.mem_cons.mp h with rfl | h
    · simp [Ne.symm hc, ih]
    · exact ih (List.mem_cons_of_mem _ h)

end PhraseCatalog.Text
