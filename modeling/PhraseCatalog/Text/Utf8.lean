import PhraseCatalog.Text.Quoted

/-! Texts as bytes: the UTF-8 encoding, its decoder, and what a failed decoding reports. -/

set_option autoImplicit false

namespace PhraseCatalog.Text.Utf8

/-- Why bytes are no text: a byte that starts no character, one that does not continue a character, or
an end inside a character. -/
inductive Reason
  | start
  | continuation
  | truncated
deriving DecidableEq, Repr

/-- Where decoding fails: the offset of the first byte of the bad sequence, that byte, and the
number of bytes that are refused together. -/
structure Fault where
  offset : Nat
  byte : UInt8
  width : Nat
  reason : Reason
deriving DecidableEq, Repr

def Reason.message : Reason → String
  | .start => "invalid start byte"
  | .continuation => "invalid continuation byte"
  | .truncated => "unexpected end of data"

/-- A single refused byte is shown, of several only where they stand. -/
def Fault.message (f : Fault) : String :=
  let place :=
    if f.width == 1 then
      "byte 0x" ++ String.ofList (hexDigits 2 f.byte.toNat) ++ " in position " ++ toString f.offset
    else
      "bytes in position " ++ toString f.offset ++ "-" ++ toString (f.offset + f.width - 1)
  "'utf-8' codec can't decode " ++ place ++ ": " ++ f.reason.message

def encode (s : List Char) : List UInt8 := s.flatMap String.utf8EncodeChar

/-- Whether the byte continues a character: its two high bits are `10`. -/
def isContinuation (b : UInt8) : Bool := 0x80 ≤ b && b < 0xC0

/-- Whether `b` may follow the first byte `a`: over-long forms, surrogates and code points past the
last one are refused at the second byte. -/
def isSecond (a b : UInt8) : Bool :=
  isContinuation b
    && !(a == 0xE0 && b < 0xA0) && !(a == 0xED && 0xA0 ≤ b)
    && !(a == 0xF0 && b < 0x90) && !(a == 0xF4 && 0x90 ≤ b)

/-- The six bits that a continuation byte carries. -/
def payload (b : UInt8) : Nat := b.toNat - 0x80

/-- Reads the bytes from offset `at` on, collecting the characters in reverse. -/
def decodeFrom (offset : Nat) (done : List Char) : List UInt8 → Except Fault (List Char)
  | [] => .ok done.reverse
  | a :: rest =>
    if a < 0x80 then decodeFrom (offset + 1) (Char.ofNat a.toNat :: done) rest
    else if a < 0xC2 || 0xF5 ≤ a then .error ⟨offset, a, 1, .start⟩
    else match rest with
      | [] => .error ⟨offset, a, 1, .truncated⟩
      | b :: rest =>
        if !(isSecond a b) then .error ⟨offset, a, 1, .continuation⟩
        else if a < 0xE0 then
          decodeFrom (offset + 2) (Char.ofNat ((a.toNat - 0xC0) * 64 + payload b) :: done) rest
        else match rest with
          | [] => .error ⟨offset, a, 2, .truncated⟩
          | c :: rest =>
            if !(isContinuation c) then .error ⟨offset, a, 2, .continuation⟩
            else if a < 0xF0 then
              decodeFrom (offset + 3)
                (Char.ofNat ((a.toNat - 0xE0) * 4096 + payload b * 64 + payload c) :: done) rest
            else match rest with
              | [] => .error ⟨offset, a, 3, .truncated⟩
              | d :: rest =>
                if !(isContinuation d) then .error ⟨offset, a, 3, .continuation⟩
                else
                  decodeFrom (offset + 4)
                    (Char.ofNat ((a.toNat - 0xF0) * 262144 + payload b * 4096 + payload c * 64
                      + payload d) :: done) rest

def decode (bytes : List UInt8) : Except Fault (List Char) := decodeFrom 0 [] bytes

end PhraseCatalog.Text.Utf8
