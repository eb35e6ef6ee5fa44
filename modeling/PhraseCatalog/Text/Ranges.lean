/-! Sets of code points written as closed ranges in rising order. -/

set_option autoImplicit false

namespace PhraseCatalog.Text

/-- Looks for the range that holds `n` between the indices `lo` and `hi`, halving their distance at
most `steps` times. -/
def inRangesBetween (table : Array (Nat × Nat)) (n : Nat) : (steps lo hi : Nat) → Bool
  | 0, _, _ => false
  | steps + 1, lo, hi =>
    if lo < hi then
      let mid := (lo + hi) / 2
      match table[mid]? with
      | none => false
      | some (first, last) =>
        if n < first then inRangesBetween table n steps lo mid
        else if last < n then inRangesBetween table n steps (mid + 1) hi
        else true
    else false

/-- Whether a range of the table holds `n`. -/
def inRanges (table : Array (Nat × Nat)) (n : Nat) : Bool :=
  inRangesBetween table n (table.size + 1) 0 table.size

end PhraseCatalog.Text
