import PhraseCatalog.Decimal.Shortest

/-! The written form of the numbers that are not whole. -/

set_option autoImplicit false

namespace PhraseCatalog.Json

open Decimal

/-- How a decimal is laid out: the leading exponents that are written without an exponent part, and
the least number of digits of an exponent. -/
structure NumeralLayout where
  firstPositional : Int
  lastPositional : Int
  exponentWidth : Nat

/-- From `0.0001` up to below `10 ^ 16` a number is written out; exponents have two digits. -/
def realLayout : NumeralLayout := ⟨-4, 15, 2⟩

/-- Digits filled up with zeros on the left. -/
def padZeros (width : Nat) (s : List Char) : List Char :=
  List.replicate (width - s.length) '0' ++ s

/-- A positive decimal. A written-out number always has a digit on both sides of its point. -/
def NumeralLayout.text (layout : NumeralLayout) (x : Scaled) : List Char :=
  let ds := digits x.coefficient
  let point : Int := ds.length + x.tens
  let leading := point - 1
  if layout.firstPositional ≤ leading ∧ leading ≤ layout.lastPositional then
    if point ≤ 0 then
      ['0', '.'] ++ List.replicate (-point).toNat '0' ++ ds
    else
      let whole := ds.take point.toNat ++ List.replicate (point.toNat - ds.length) '0'
      let part := ds.drop point.toNat
      whole ++ ['.'] ++ if part.isEmpty then ['0'] else part
  else
    let mark := if leading < 0 then ['e', '-'] else ['e', '+']
    let part := ds.drop 1
    ds.take 1 ++ (if part.isEmpty then [] else '.' :: part) ++ mark
      ++ padZeros layout.exponentWidth (digits leading.natAbs)

/-- A number that is not whole by type: the shortest decimal that reads back, or a word. -/
def realText : Binary64 → List Char
  | .undefined => "NaN".toList
  | .infinite negative => if negative then "-Infinity".toList else "Infinity".toList
  | .finite negative mantissa exponent =>
    let body := if mantissa = 0 then "0.0".toList
      else realLayout.text (shortest mantissa exponent)
    if negative then '-' :: body else body

end PhraseCatalog.Json
