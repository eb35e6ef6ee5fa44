import PhraseCatalog.Text.Printable

/-! The quoted spelling of a text inside messages. -/

set_option autoImplicit false

namespace PhraseCatalog.Text

/-- A digit below sixteen, small letters from ten on. -/
def hexDigit (n : Nat) : Char := if n < 10 then Char.ofNat (48 + n) else Char.ofNat (87 + n)

/-- The last `width` hexadecimal digits of `n`. -/
def hexDigits : (width n : Nat) → List Char
  | 0, _ => []
  | width + 1, n => hexDigits width (n / 16) ++ [hexDigit (n % 16)]

/-- One character between quotes of the kind `q`. -/
def spellQuoted (q c : Char) : List Char :=
  if c = q || c = '\\' then ['\\', c]
  else if c = '\n' then ['\\', 'n']
  else if c = '\r' then ['\\', 'r']
  else if c = '\t' then ['\\', 't']
  else if isPrintable c then [c]
  else if c.toNat < 0x100 then ['\\', 'x'] ++ hexDigits 2 c.toNat
  else if c.toNat < 0x10000 then ['\\', 'u'] ++ hexDigits 4 c.toNat
  else ['\\', 'U'] ++ hexDigits 8 c.toNat

def quoteMark (s : String) : Char :=
  if s.toList.contains '\'' && !(s.toList.contains '"') then '"' else '\''

/-- The text between quotes, with the quote, the backslash and all that has no visible form
escaped. -/
def quoted (s : String) : String :=
  let q := quoteMark s
  String.ofList (q :: s.toList.flatMap (spellQuoted q) ++ [q])

end PhraseCatalog.Text
