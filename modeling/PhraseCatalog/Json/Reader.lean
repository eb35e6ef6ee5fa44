import PhraseCatalog.Decimal.Digits
import PhraseCatalog.Json.Value
import PhraseCatalog.Text.Lines

/-! Reading a JSON text. Every reader takes the characters that are left and gives a value and the
characters after it; a place in the text is known by how many characters are left there. -/

set_option autoImplicit false

namespace PhraseCatalog.Json

open Decimal Text

/-- What is wrong at a place of the text. -/
inductive Cause
  | value
  | propertyName
  | colon
  | comma
  | extraData
  | unterminated
  | controlCharacter
  | escape
  | unicodeEscape
  | byteOrderMark
deriving DecidableEq, Repr

/-- The two kinds of value that hold values. -/
inductive Container
  | object
  | array
deriving DecidableEq, Repr

/-- Why a text has no value. -/
inductive ReadError
  | malformed (cause : Cause) (position : Position)
  | tooManyDigits (count : Nat)
  /-- Containers are nested too deeply; the one that is refused. -/
  | tooDeep (container : Container)
deriving DecidableEq, Repr

def Cause.message : Cause → String
  | .value => "Expecting value"
  | .propertyName => "Expecting property name enclosed in double quotes"
  | .colon => "Expecting ':' delimiter"
  | .comma => "Expecting ',' delimiter"
  | .extraData => "Extra data"
  | .unterminated => "Unterminated string starting at"
  | .controlCharacter => "Invalid control character at"
  | .escape => "Invalid \\escape"
  | .unicodeEscape => "Invalid \\uXXXX escape"
  | .byteOrderMark => "Unexpected UTF-8 BOM (decode using utf-8-sig)"

/-- How deeply containers may be nested in a text. A thousand calls may be open, and every container
takes one: thirteen calls are open above the reader where a worker reads a completion. -/
def nestingLimit : Nat := 987

def ReadError.message : ReadError → String
  | .malformed cause position => cause.message ++ ": " ++ position.message
  | .tooManyDigits count =>
    "Exceeds the limit (" ++ toString digitLimit
      ++ " digits) for integer string conversion: value has " ++ toString count
      ++ " digits; use sys.set_int_max_str_digits() to increase the limit"
  | .tooDeep container =>
    "maximum recursion depth exceeded while decoding a JSON "
      ++ (match container with | .object => "object" | .array => "array")
      ++ " from a unicode string"

namespace Reader

/-- Why reading stops; a place is the number of characters left there. -/
inductive Stop
  | malformed (cause : Cause) (left : Nat)
  | tooManyDigits (count : Nat)
  | tooDeep (container : Container)
deriving DecidableEq, Repr

/-- A value and the characters after it. -/
abbrev Step (α : Type) : Type := Except Stop (α × List Char)

/-- The four characters that may stand between tokens. -/
def isSpace (c : Char) : Bool := c = ' ' || c = '\t' || c = '\n' || c = '\r'

/-- The characters from the next token on. -/
def skipSpace (s : List Char) : List Char := s.dropWhile isSpace

/-! ## Strings -/

def hexValue? (c : Char) : Option Nat :=
  let n := c.toNat
  if 0x30 ≤ n ∧ n ≤ 0x39 then some (n - 0x30)
  else if 0x61 ≤ n ∧ n ≤ 0x66 then some (n - 0x57)
  else if 0x41 ≤ n ∧ n ≤ 0x46 then some (n - 0x37)
  else none

/-- The 16-bit unit of four hexadecimal digits; the text must go on after them. -/
def unit? : List Char → Option Nat
  | a :: b :: c :: d :: _ :: _ => do
    let a ← hexValue? a
    let b ← hexValue? b
    let c ← hexValue? c
    let d ← hexValue? d
    pure (((a * 16 + b) * 16 + c) * 16 + d)
  | _ => none

/-- The second half of a surrogate pair. -/
def lowUnit? : List Char → Option Nat
  | '\\' :: 'u' :: rest => (unit? rest).filter fun n => 0xDC00 ≤ n && n < 0xE000
  | _ => none

/-- The character of a code point, the replacement character for half a surrogate pair. -/
def charOfUnit (n : Nat) : Char :=
  if 0xD800 ≤ n && n < 0xE000 then '\uFFFD' else Char.ofNat n

def letterEscape? : Char → Option Char
  | '"' => some '"'
  | '\\' => some '\\'
  | '/' => some '/'
  | 'b' => some '\x08'
  | 'f' => some '\x0c'
  | 'n' => some '\n'
  | 'r' => some '\r'
  | 't' => some '\t'
  | _ => none

/-- The character that an escape stands for, and how many characters it takes after its
backslash. -/
def escape : List Char → Except Cause (Char × Nat)
  | [] => .error .unterminated
  | 'u' :: rest =>
    match unit? rest with
    | none => .error .unicodeEscape
    | some n =>
      if 0xD800 ≤ n && n < 0xDC00 then
        match lowUnit? (rest.drop 4) with
        | some m => .ok (Char.ofNat (0x10000 + (n - 0xD800) * 0x400 + (m - 0xDC00)), 11)
        | none => .ok (charOfUnit n, 5)
      else .ok (charOfUnit n, 5)
  | c :: _ =>
    match letterEscape? c with
    | some c => .ok (c, 1)
    | none => .error .escape

/-- The rest of a string; `opening` are the characters left behind its opening quote, and the first
`skip` characters belong to an escape that is read already. -/
def stringBody (opening : List Char) :
    (skip : Nat) → (done : List Char) → List Char → Step String
  | _, _, [] => .error (.malformed .unterminated (opening.length + 1))
  | skip + 1, done, _ :: rest => stringBody opening skip done rest
  | 0, done, c :: rest =>
    if c = '"' then .ok (String.ofList done.reverse, rest)
    else if c = '\\' then
      match escape rest with
      | .ok (c, width) => stringBody opening width (c :: done) rest
      | .error .unterminated => .error (.malformed .unterminated (opening.length + 1))
      | .error .unicodeEscape => .error (.malformed .unicodeEscape rest.length)
      | .error cause => .error (.malformed cause (rest.length + 1))
    else if c.toNat < 0x20 then .error (.malformed .controlCharacter (rest.length + 1))
    else stringBody opening 0 (c :: done) rest

/-- The unit of an escape that takes `width` characters after its backslash, if the unit is half a
surrogate pair; the escape of a whole pair takes more. -/
def half? (width : Nat) : List Char → Option Nat
  | 'u' :: rest =>
    if width = 5 then (unit? rest).filter fun n => 0xD800 ≤ n && n < 0xE000 else none
  | _ => none

/-- The halves of surrogate pairs in the rest of a string that can be read; `index` of its characters
are read, and the first `skip` characters belong to an escape that is. -/
def halves : (index skip : Nat) → List Char → List Half
  | _, _, [] => []
  | index, skip + 1, _ :: rest => halves index skip rest
  | index, 0, c :: rest =>
    if c = '"' then []
    else if c = '\\' then
      match escape rest with
      | .error _ => []
      | .ok (_, width) =>
        (half? width rest).toList.map (⟨index, ·⟩) ++ halves (index + 1) width rest
    else halves (index + 1) 0 rest

/-! ## Numbers and words -/

/-- The digits at the start, and the rest. -/
def digitRun (s : List Char) : List Char × List Char :=
  (s.takeWhile Char.isDigit, s.dropWhile Char.isDigit)

/-- The digits before the point: a single zero, or a run without a leading zero. -/
def wholePart : List Char → List Char × List Char
  | '0' :: rest => (['0'], rest)
  | s => digitRun s

/-- The digits after a point; without any, the point is not part of the number. -/
def fractionPart : List Char → List Char × List Char
  | '.' :: rest =>
    match digitRun rest with
    | ([], _) => ([], '.' :: rest)
    | (ds, rest) => (ds, rest)
  | s => ([], s)

/-- Whether a minus stands before an exponent, and the text after the sign. -/
def exponentSign : List Char → Bool × List Char
  | '-' :: rest => (true, rest)
  | '+' :: rest => (false, rest)
  | s => (false, s)

/-- An exponent with its sign; without digits, it is not part of the number. -/
def exponentPart : List Char → Option Int × List Char
  | [] => (none, [])
  | e :: s =>
    if e = 'e' ∨ e = 'E' then
      match exponentSign s with
      | (negative, body) =>
        match digitRun body with
        | ([], _) => (none, e :: s)
        | (ds, rest) => (some (if negative then -(ofDigits ds : Int) else ofDigits ds), rest)
    else (none, e :: s)

/-- A number after its sign; it is whole unless it has a fraction or an exponent. `left` characters
are left at its first one. -/
def magnitude (negative : Bool) (left : Nat) (s : List Char) : Step Value :=
  match wholePart s with
  | ([], _) => .error (.malformed .value left)
  | (whole, rest) =>
    match fractionPart rest with
    | (fraction, rest) =>
      match exponentPart rest with
      | (exponent, rest) =>
        if fraction.isEmpty && exponent.isNone then
          if digitLimit < whole.length then .error (.tooManyDigits whole.length)
          else .ok (.int (if negative then -(ofDigits whole : Int) else ofDigits whole), rest)
        else
          let tens := exponent.getD 0 - fraction.length
          .ok (.real (.ofDecimal negative (ofDigits (whole ++ fraction)) tens), rest)

def number : List Char → Step Value
  | '-' :: rest => magnitude true (rest.length + 1) rest
  | s => magnitude false s.length s

/-- The words that are values. -/
def words : List (List Char × Value) :=
  [("null".toList, .null), ("true".toList, .bool true), ("false".toList, .bool false),
   ("NaN".toList, .real .undefined), ("Infinity".toList, .real (.infinite false)),
   ("-Infinity".toList, .real (.infinite true))]

def scalar (s : List Char) : Step Value :=
  match words.find? (·.1.isPrefixOf s) with
  | some (word, v) => .ok (v, s.drop word.length)
  | none => number s

/-! ## Containers -/

/-- The items of an array up to its closing bracket, at most `steps` of them. -/
def items (value : List Char → Step Value) :
    (steps : Nat) → (done : List Value) → List Char → Step (List Value)
  | 0, _, s => .error (.malformed .comma s.length)
  | steps + 1, done, s =>
    match value s with
    | .error stop => .error stop
    | .ok (v, rest) =>
      match skipSpace rest with
      | ']' :: rest => .ok ((v :: done).reverse, rest)
      | ',' :: rest => items value steps (v :: done) (skipSpace rest)
      | rest => .error (.malformed .comma rest.length)

/-- A key, its colon and the space after it. -/
def key : List Char → Step String
  | '"' :: rest =>
    match stringBody rest 0 [] rest with
    | .error stop => .error stop
    | .ok (k, rest) =>
      match skipSpace rest with
      | ':' :: rest => .ok (k, skipSpace rest)
      | rest => .error (.malformed .colon rest.length)
  | s => .error (.malformed .propertyName s.length)

/-- The pairs of an object up to its closing brace, at most `steps` of them. -/
def pairs (value : List Char → Step Value) :
    (steps : Nat) → (done : List (String × Value)) → List Char → Step (List (String × Value))
  | 0, _, s => .error (.malformed .comma s.length)
  | steps + 1, done, s =>
    match key s with
    | .error stop => .error stop
    | .ok (k, rest) =>
      match value rest with
      | .error stop => .error stop
      | .ok (v, rest) =>
        match skipSpace rest with
        | '\x7d' :: rest => .ok (((k, v) :: done).reverse, rest)
        | ',' :: rest => pairs value steps ((k, v) :: done) (skipSpace rest)
        | rest => .error (.malformed .comma rest.length)

/-- The rest of an array after its opening bracket, with at most `steps` items. -/
def array (value : List Char → Step Value) (steps : Nat) (s : List Char) : Step Value :=
  match skipSpace s with
  | ']' :: rest => .ok (.arr [], rest)
  | s =>
    match items value steps [] s with
    | .error stop => .error stop
    | .ok (vs, rest) => .ok (.arr vs, rest)

/-- The rest of an object after its opening brace, with at most `steps` members. -/
def object (value : List Char → Step Value) (steps : Nat) (s : List Char) : Step Value :=
  match skipSpace s with
  | '\x7d' :: rest => .ok (.obj [], rest)
  | s =>
    match pairs value steps [] s with
    | .error stop => .error stop
    | .ok (ps, rest) => .ok (.obj (ofPairs ps), rest)

/-- A value, its containers read by `container` from behind their opening bracket on. -/
def token (container : Container → List Char → Step Value) : List Char → Step Value
  | '"' :: rest =>
    match stringBody rest 0 [] rest with
    | .error stop => .error stop
    | .ok (s, behind) => .ok (.ofString s (halves 0 0 rest), behind)
  | '\x7b' :: rest => container .object rest
  | '[' :: rest => container .array rest
  | s => scalar s

/-- A value with at most `depth` containers around one another, each of at most `steps` items. -/
def value (steps : Nat) : (depth : Nat) → List Char → Step Value
  | 0 => token fun kind _ => .error (.tooDeep kind)
  | depth + 1 => token fun kind rest =>
    match kind with
    | .object => object (value steps depth) steps rest
    | .array => array (value steps depth) steps rest

/-- A text that holds one value between spaces. No container has more items than the text has
characters. -/
def document (s : List Char) : Except Stop Value :=
  if s.head? = some '\uFEFF' then .error (.malformed .byteOrderMark s.length)
  else
    match value (s.length + 1) nestingLimit (skipSpace s) with
    | .error stop => .error stop
    | .ok (v, rest) =>
      match skipSpace rest with
      | [] => .ok v
      | rest => .error (.malformed .extraData rest.length)

end Reader

/-- A stop as an error of the whole text. -/
def Reader.Stop.toError (s : List Char) : Reader.Stop → ReadError
  | .malformed cause left => .malformed cause (positionAt s (s.length - left))
  | .tooManyDigits count => .tooManyDigits count
  | .tooDeep container => .tooDeep container

/-- The value of a text given as characters. -/
def readChars (s : List Char) : Except ReadError Value :=
  match Reader.document s with
  | .ok v => .ok v
  | .error stop => .error (stop.toError s)

def read (text : String) : Except ReadError Value := readChars text.toList

end PhraseCatalog.Json
