/-! Natural and whole numbers in decimal digits. -/

set_option autoImplicit false

namespace PhraseCatalog.Decimal

/-- The decimal digits of a number, without leading zeros; zero is one digit. -/
def digits (n : Nat) : List Char := Nat.toDigits 10 n

/-- The number that decimal digits stand for. -/
def ofDigits (s : List Char) : Nat := s.foldl (fun n c => 10 * n + (c.toNat - 48)) 0

/-- A whole number: a minus sign when it is negative, then its digits. -/
def ofInt : Int → List Char
  | .ofNat n => digits n
  | .negSucc n => '-' :: digits (n + 1)

end PhraseCatalog.Decimal
