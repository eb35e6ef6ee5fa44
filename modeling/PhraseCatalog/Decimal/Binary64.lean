/-! Numbers of the 64-bit binary format, and the one nearest to a decimal. -/

set_option autoImplicit false

namespace PhraseCatalog.Decimal

/-- A number of the format: a signed `mantissa * 2 ^ exponent`, an infinity, or no number. -/
inductive Binary64
  | finite (negative : Bool) (mantissa : Nat) (exponent : Int)
  | infinite (negative : Bool)
  | undefined
deriving DecidableEq, Repr

/-- The whole number nearest to `num / den`, an exact half going to the even neighbour. -/
def roundHalfEven (num den : Nat) : Nat :=
  let q := num / den
  let r := num % den
  if 2 * r < den then q
  else if den < 2 * r then q + 1
  else if q % 2 = 0 then q else q + 1

namespace Binary64

/-- The exponent of the subnormal numbers. -/
def minExponent : Int := -1074

/-- The exponent of the largest numbers. -/
def maxExponent : Int := 971

/-- The fraction `num / den` over `2 ^ e`. -/
def scale (num den : Nat) (e : Int) : Nat × Nat :=
  if e < 0 then (num * Nat.pow 2 (-e).toNat, den) else (num, den * Nat.pow 2 e.toNat)

/-- The number nearest to `num / den`, for positive `num` and `den`. -/
def ofFraction (negative : Bool) (num den : Nat) : Binary64 :=
  let guess : Int := (num.log2 : Int) - (den.log2 : Int) - 52
  let (n, d) := scale num den guess
  let e := max (if n < d * Nat.pow 2 52 then guess - 1 else guess) minExponent
  let (n, d) := scale num den e
  let m := roundHalfEven n d
  let (m, e) := if m = Nat.pow 2 53 then (Nat.pow 2 52, e + 1) else (m, e)
  if maxExponent < e then .infinite negative else .finite negative m e

/-- The number nearest to `coefficient * 10 ^ tens`. Decimals far outside the range of the format
are decided by their magnitude. -/
def ofDecimal (negative : Bool) (coefficient : Nat) (tens : Int) : Binary64 :=
  if coefficient = 0 then .finite negative 0 minExponent
  else
    let magnitude := ((Nat.toDigits 10 coefficient).length : Int) + tens
    if 400 < magnitude then .infinite negative
    else if magnitude < -400 then .finite negative 0 minExponent
    else if tens < 0 then ofFraction negative coefficient (Nat.pow 10 (-tens).toNat)
    else ofFraction negative (coefficient * Nat.pow 10 tens.toNat) 1

end Binary64
end PhraseCatalog.Decimal
