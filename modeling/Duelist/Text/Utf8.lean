/-!
# UTF-8

Reading bytes as text. A byte sequence is accepted exactly when it is well-formed UTF-8: each
scalar value is written in its shortest form, surrogates and values above `U+10FFFF` are refused.
Writing is the standard library's.
-/

namespace Duelist.Utf8

/-- The six bits carried by a continuation byte. -/
def continuation? (b : UInt8) : Option Nat :=
  if 0x80 ≤ b ∧ b < 0xC0 then some (b.toNat - 0x80) else none

/-- The character numbered `n`, provided that `n` is a scalar value that needs as many bytes as
were used, which is the case from `least` on. -/
def scalar? (least n : Nat) : Option Char :=
  if h : least ≤ n ∧ n.isValidChar then some (Char.ofNatAux n h.2) else none

/-- The characters written by a well-formed byte sequence, or `none`. -/
def decode : List UInt8 → Option (List Char)
  | [] => some []
  | a :: rest =>
    if a < 0x80 then do
      return Char.ofNat a.toNat :: (← decode rest)
    else if a < 0xC0 then none
    else if a < 0xE0 then
      match rest with
      | b :: rest => do
        let x ← continuation? b
        let c ← scalar? 0x80 ((a.toNat - 0xC0) * 0x40 + x)
        return c :: (← decode rest)
      | _ => none
    else if a < 0xF0 then
      match rest with
      | b :: b' :: rest => do
        let x ← continuation? b
        let y ← continuation? b'
        let c ← scalar? 0x800 ((a.toNat - 0xE0) * 0x1000 + x * 0x40 + y)
        return c :: (← decode rest)
      | _ => none
    else if a < 0xF8 then
      match rest with
      | b :: b' :: b'' :: rest => do
        let x ← continuation? b
        let y ← continuation? b'
        let z ← continuation? b''
        let c ← scalar? 0x10000 ((a.toNat - 0xF0) * 0x40000 + x * 0x1000 + y * 0x40 + z)
        return c :: (← decode rest)
      | _ => none
    else none

/-- The text written by a well-formed byte sequence, or `none`. -/
def text? (bytes : List UInt8) : Option String :=
  (decode bytes).map .ofList

/-- What is said of bytes that are not well-formed. -/
def complaint : String :=
  "stream did not contain valid UTF-8"

/-- The bytes of a text. -/
def bytes (s : String) : List UInt8 :=
  s.toUTF8.toList

end Duelist.Utf8
