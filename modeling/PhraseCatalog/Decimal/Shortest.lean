import PhraseCatalog.Decimal.Binary64
import PhraseCatalog.Decimal.Digits

/-! The shortest decimal that reads back as a given binary number. -/

set_option autoImplicit false

namespace PhraseCatalog.Decimal

/-- The decimal `coefficient * 10 ^ tens`. -/
structure Scaled where
  coefficient : Nat
  tens : Int
deriving DecidableEq, Repr

/-- The same decimal without trailing zeros in its coefficient, at most `steps` of them. -/
def Scaled.stripZeros : (steps : Nat) → Scaled → Scaled
  | 0, x => x
  | steps + 1, x =>
    if x.coefficient ≠ 0 ∧ x.coefficient % 10 = 0 then
      stripZeros steps ⟨x.coefficient / 10, x.tens + 1⟩
    else x

/-- The exponent of the first decimal digit of `num / den`. -/
def leadingExponent (num den : Nat) : Int :=
  if den ≤ num then ((digits (num / den)).length : Int) - 1
  else
    let width := (digits (den / num)).length
    if num * Nat.pow 10 (width - 1) = den then 1 - (width : Int) else -(width : Int)

/-- A positive binary number between the halfway points to its neighbours, all four over one
denominator. -/
structure Interval where
  low : Nat
  value : Nat
  high : Nat
  den : Nat
  closed : Bool

/-- The reals that round to `mantissa * 2 ^ exponent`; the ends belong to it when the mantissa is
even. Below a power of two the neighbour is half as far. -/
def Interval.around (mantissa : Nat) (exponent : Int) : Interval :=
  let unit := Nat.pow 2 exponent.toNat
  let num := 4 * mantissa * unit
  let below := if mantissa = Nat.pow 2 52 ∧ Binary64.minExponent < exponent then unit else 2 * unit
  { low := num - below
    value := num
    high := num + 2 * unit
    den := 4 * Nat.pow 2 (-exponent).toNat
    closed := mantissa % 2 = 0 }

/-- Whether the decimal `c * 10 ^ k` lies in the interval. -/
def Interval.holds (i : Interval) (c : Nat) (k : Int) : Bool :=
  let (c, den) :=
    if k < 0 then (c * i.den, Nat.pow 10 (-k).toNat) else (c * i.den * Nat.pow 10 k.toNat, 1)
  if i.closed then i.low * den ≤ c && c ≤ i.high * den else i.low * den < c && c < i.high * den

/-- Of the two neighbours of the value on the grid of multiples of `10 ^ k`, the nearer one that
lies in the interval. -/
def Interval.onGrid? (i : Interval) (k : Int) : Option Nat :=
  let (num, den) :=
    if k < 0 then (i.value * Nat.pow 10 (-k).toNat, i.den)
    else (i.value, i.den * Nat.pow 10 k.toNat)
  let near := roundHalfEven num den
  let far := if num / den = near then near + 1 else num / den
  if i.holds near k then some near else if i.holds far k then some far else none

/-- The first of eighteen grids with a hit, from the coarsest on. -/
def Interval.firstHit? (i : Interval) (leading : Int) : Option Scaled :=
  (List.range 18).findSome? fun (finer : Nat) =>
    (i.onGrid? (leading - finer)).map fun c => ⟨c, leading - finer⟩

/-- The decimal with the fewest digits that reads back as `mantissa * 2 ^ exponent`, and of those
the nearest. Seventeen digits always suffice. -/
def shortest (mantissa : Nat) (exponent : Int) : Scaled :=
  let i := Interval.around mantissa exponent
  let hit := (i.firstHit? (leadingExponent i.value i.den)).getD ⟨0, 0⟩
  hit.stripZeros 20

end PhraseCatalog.Decimal
