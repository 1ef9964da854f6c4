/-
Base64 with padding, as `b64encode` writes it and `b64decode` reads it when it
validates: four characters for three bytes, nothing before, between or after.
-/
import Mathlib.Data.UInt

namespace Base64

def alphabet : List Char :=
  "ABCDEFGHIJKLMNOPQRSTUVWXYZabcdefghijklmnopqrstuvwxyz0123456789+/".toList

/-- The character of six bits. -/
def digit (value : Nat) : Char :=
  alphabet.getD (value % 64) 'A'

/-- The six bits of a character; `none` outside the alphabet. -/
def value (c : Char) : Option Nat :=
  if c ∈ alphabet then some (alphabet.idxOf c) else none

def encode : List UInt8 → List Char
  | [] => []
  | [a] => [digit (a.toNat / 4), digit (a.toNat * 16), '=', '=']
  | [a, b] =>
      [digit (a.toNat / 4), digit (a.toNat * 16 + b.toNat / 16), digit (b.toNat * 4), '=']
  | a :: b :: c :: bytes =>
      digit (a.toNat / 4) :: digit (a.toNat * 16 + b.toNat / 16) ::
        digit (b.toNat * 4 + c.toNat / 64) :: digit c.toNat :: encode bytes

/-- The bits a last quantum does not use are not looked at. -/
def decode : List Char → Option (List UInt8)
  | [] => some []
  | [a, b, '=', '='] => do
      let a ← value a
      let b ← value b
      return [UInt8.ofNat (a * 4 + b / 16)]
  | [a, b, c, '='] => do
      let a ← value a
      let b ← value b
      let c ← value c
      return [UInt8.ofNat (a * 4 + b / 16), UInt8.ofNat (b * 16 + c / 4)]
  | a :: b :: c :: d :: text => do
      let a ← value a
      let b ← value b
      let c ← value c
      let d ← value d
      let bytes ← decode text
      return UInt8.ofNat (a * 4 + b / 16) :: UInt8.ofNat (b * 16 + c / 4) ::
        UInt8.ofNat (c * 64 + d) :: bytes
  | _ => none

example : decode (encode [102, 111, 111, 98]) = some [102, 111, 111, 98] := by decide +kernel

end Base64
