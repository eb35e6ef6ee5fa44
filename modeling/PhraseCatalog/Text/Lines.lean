/-! Lines of a text: one spelling for all line ends, and the line and column of an offset. -/

set_option autoImplicit false

namespace PhraseCatalog.Text

/-- Every line end, whether `\r\n`, `\r` or `\n`, becomes `\n`. -/
def unifyLineEnds : List Char → List Char
  | [] => []
  | '\r' :: rest =>
    match rest with
    | '\n' :: rest => '\n' :: unifyLineEnds rest
    | rest => '\n' :: unifyLineEnds rest
  | c :: rest => c :: unifyLineEnds rest

theorem not_mem_unifyLineEnds (s : List Char) : '\r' ∉ unifyLineEnds s := by
  fun_induction unifyLineEnds s <;> simp_all [eq_comm]

theorem unifyLineEnds_of_not_mem {s : List Char} (h : '\r' ∉ s) : unifyLineEnds s = s := by
  fun_induction unifyLineEnds s <;> simp_all

/-- A place in a text: its line and column, counted from one, and its offset, from zero. -/
structure Position where
  line : Nat
  column : Nat
  offset : Nat
deriving DecidableEq, Repr

/-- The position at an offset of a text; only `\n` ends a line. -/
def positionAt (s : List Char) (offset : Nat) : Position :=
  let before := s.take offset
  { line := before.count '\n' + 1
    column := (before.reverse.takeWhile (· ≠ '\n')).length + 1
    offset := offset }

def Position.message (p : Position) : String :=
  "line " ++ toString p.line ++ " column " ++ toString p.column ++ " (char " ++ toString p.offset
    ++ ")"

end PhraseCatalog.Text
