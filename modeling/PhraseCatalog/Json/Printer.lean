import PhraseCatalog.Json.Numeral
import PhraseCatalog.Json.Value
import PhraseCatalog.Text.Quoted

/-! The text of a JSON value, on one line or with one member a line, and the values that are refused
a text. -/

set_option autoImplicit false

namespace PhraseCatalog.Json

open Decimal Text

/-- How values are written: whether only ASCII characters are used, and the text that indents one
level, if each item has a line of its own. -/
structure Style where
  ascii : Bool
  indent : Option (List Char)

def Style.line : Style := ⟨false, none⟩

/-- One line in ASCII characters. -/
def Style.asciiLine : Style := ⟨true, none⟩

/-- One item a line, indented by tabs. -/
def Style.tabs : Style := ⟨false, some ['\t']⟩

/-- The escape of one 16-bit unit. -/
def unitEscape (n : Nat) : List Char := ['\\', 'u'] ++ hexDigits 4 n

/-- A character by escapes alone; one past the first 65536 takes two units. -/
def charEscape (c : Char) : List Char :=
  let n := c.toNat
  if n < 0x10000 then unitEscape n
  else unitEscape (0xD800 + (n - 0x10000) / 0x400) ++ unitEscape (0xDC00 + (n - 0x10000) % 0x400)

/-- One character of a string. The quote, the backslash and the characters below the space are
always escaped. -/
def spell (ascii : Bool) (c : Char) : List Char :=
  if c = '"' then ['\\', '"']
  else if c = '\\' then ['\\', '\\']
  else if c = '\n' then ['\\', 'n']
  else if c = '\r' then ['\\', 'r']
  else if c = '\t' then ['\\', 't']
  else if c = '\x08' then ['\\', 'b']
  else if c = '\x0c' then ['\\', 'f']
  else if c.toNat < 0x20 then unitEscape c.toNat
  else if ascii && 0x7E < c.toNat then charEscape c
  else [c]

/-- A string between double quotes. -/
def quote (ascii : Bool) (s : String) : List Char :=
  '"' :: s.toList.flatMap (spell ascii) ++ ['"']

namespace Style

/-- What stands before the first item of a container at a level, and after its last. -/
def gap (style : Style) (level : Nat) : List Char :=
  match style.indent with
  | none => []
  | some tab => '\n' :: (List.replicate level tab).flatten

/-- What stands between two items of a container at a level. -/
def comma (style : Style) (level : Nat) : List Char :=
  ',' :: match style.indent with
    | none => [' ']
    | some _ => style.gap level

mutual

/-- The text of a value whose items stand one level below `level`. -/
def text (style : Style) (level : Nat) : Value → List Char
  | .null => "null".toList
  | .bool true => "true".toList
  | .bool false => "false".toList
  | .int n => ofInt n
  | .real x => realText x
  | .str s | .torn s _ _ => quote style.ascii s
  | .arr [] => ['[', ']']
  | .arr (item :: items) =>
    '[' :: style.gap (level + 1) ++ style.text (level + 1) item
      ++ style.itemsTail (level + 1) items ++ style.gap level ++ [']']
  | .obj [] => ['\x7b', '\x7d']
  | .obj ((key, item) :: members) =>
    '\x7b' :: style.gap (level + 1) ++ quote style.ascii key ++ [':', ' ']
      ++ style.text (level + 1) item ++ style.membersTail (level + 1) members ++ style.gap level
      ++ ['\x7d']

/-- The items after the first, each behind its comma. -/
def itemsTail (style : Style) (level : Nat) : List Value → List Char
  | [] => []
  | item :: items => style.comma level ++ style.text level item ++ style.itemsTail level items

/-- The members after the first, each behind its comma. -/
def membersTail (style : Style) (level : Nat) : List (String × Value) → List Char
  | [] => []
  | (key, item) :: members =>
    style.comma level ++ quote style.ascii key ++ [':', ' '] ++ style.text level item
      ++ style.membersTail level members

end
end Style

def Value.render (style : Style) (v : Value) : String := String.ofList (style.text 0 v)

/-! ## Values that are not written -/

/-- Why a value is not written. -/
inductive WriteError
  | tooManyDigits
  /-- Containers are nested too deeply. -/
  | tooDeep
deriving DecidableEq, Repr

def WriteError.message : WriteError → String
  | .tooManyDigits =>
    "Exceeds the limit (" ++ toString digitLimit
      ++ " digits) for integer string conversion; "
      ++ "use sys.set_int_max_str_digits() to increase the limit"
  | .tooDeep => "maximum recursion depth exceeded while encoding a JSON object"

namespace Value

mutual

/-- What is wrong first, in the order of the text, if at most `depth` containers may stand around one
another. -/
def fault? : (depth : Nat) → Value → Option WriteError
  | _, .null | _, .bool _ | _, .real _ | _, .str _ | _, .torn _ _ _ => none
  | _, .int n => if digitLimit < (digits n.natAbs).length then some .tooManyDigits else none
  | 0, .arr _ | 0, .obj _ => some .tooDeep
  | depth + 1, .arr items => itemsFault? depth items
  | depth + 1, .obj members => membersFault? depth members

def itemsFault? : (depth : Nat) → List Value → Option WriteError
  | _, [] => none
  | depth, item :: items => (item.fault? depth).or (itemsFault? depth items)

def membersFault? : (depth : Nat) → List (String × Value) → Option WriteError
  | _, [] => none
  | depth, (_, item) :: members => (item.fault? depth).or (membersFault? depth members)

end

mutual

/-- The halves of surrogate pairs in the text of a value on one line, before which `before` characters
stand. -/
def halves (before : Nat) : Value → List Half
  | .null | .bool _ | .int _ | .real _ | .str _ => []
  | .torn s first more => (first :: more).map fun half =>
    ⟨before + 1 + ((s.toList.take half.index).flatMap (spell false)).length, half.unit⟩
  | .arr items => itemsHalves (before + 1) items
  | .obj members => membersHalves (before + 1) members

def itemsHalves (before : Nat) : List Value → List Half
  | [] => []
  | item :: items =>
    item.halves before ++ itemsHalves (before + (Style.line.text 0 item).length + 2) items

def membersHalves (before : Nat) : List (String × Value) → List Half
  | [] => []
  | (key, item) :: members =>
    let start := before + (quote false key).length + 2
    item.halves start ++ membersHalves (start + (Style.line.text 0 item).length + 2) members

end
end Value

end PhraseCatalog.Json
