/-!
# Hexadecimal text

Addresses, identifiers and instruction words are shown in lower-case hexadecimal, either with as
many digits as the number needs or with the eight digits of a 32-bit word, and either bare or
behind the mark `0x`. Bytes have two digits each.
-/

namespace HostCalls
namespace Hex

/-- The digits of a number, without leading zeros; zero has one digit. -/
def digits (n : Nat) : String :=
  String.ofList (Nat.toDigits 16 n)

/-- The eight digits of a word. -/
def word (w : UInt32) : String :=
  let ds := Nat.toDigits 16 w.toNat
  String.ofList (List.replicate (8 - ds.length) '0' ++ ds)

/-- A number behind the mark `0x`. -/
def marked (n : Nat) : String :=
  "0x" ++ digits n

/-- The eight digits of a word behind the mark `0x`. -/
def markedWord (w : UInt32) : String :=
  "0x" ++ word w

/-- The two digits of a byte. -/
def byteDigits (b : UInt8) : List Char :=
  [Nat.digitChar (b.toNat / 16), Nat.digitChar (b.toNat % 16)]

/-- Bytes, two digits each. -/
def ofBytes (bytes : List UInt8) : String :=
  String.ofList (bytes.flatMap byteDigits)

/-- The value of a digit in either case. -/
def digit? (c : Char) : Option Nat :=
  if '0' ≤ c ∧ c ≤ '9' then some (c.toNat - '0'.toNat)
  else if 'a' ≤ c ∧ c ≤ 'f' then some (c.toNat - 'a'.toNat + 10)
  else if 'A' ≤ c ∧ c ≤ 'F' then some (c.toNat - 'A'.toNat + 10)
  else none

/-- The bytes with these digits, if there are two for each. -/
def bytesOf? : List Char → Option (List UInt8)
  | [] => some []
  | [_] => none
  | high :: low :: rest =>
      match digit? high, digit? low, bytesOf? rest with
      | some h, some l, some bytes => some (UInt8.ofNat (h * 16 + l) :: bytes)
      | _, _, _ => none

end Hex
end HostCalls
