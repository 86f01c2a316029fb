import HostCalls.SavedState.Decoder

/-!
# Integers of variable length

A number below 251 is one byte. A greater one is a tag, which tells how many bytes follow, and
those bytes, lowest first. Writing takes the shortest form; reading also accepts longer ones, as
long as the tag announces no more bits than the field that is read can hold.

| tag | bytes | numbers written so |
|-----|-------|--------------------|
| 251 | 2     | from 251           |
| 252 | 4     | from 65536         |
| 253 | 8     | from 4294967296    |
| 254 | 16    | none               |
| 255 |       | reserved           |
-/

namespace HostCalls
namespace SavedState

/-- The `width` lowest bytes of a number, lowest first. -/
def littleEndian : Nat → Nat → Bytes
  | 0, _ => []
  | width + 1, n => (n % 256).toUInt8 :: littleEndian width (n / 256)

/-- How many numbers `width` bytes can hold. -/
def byteRange : Nat → Nat
  | 0 => 1
  | width + 1 => 256 * byteRange width

/-- The number with these bytes, lowest first. -/
def ofLittleEndian : Bytes → Nat
  | [] => 0
  | b :: rest => b.toNat + 256 * ofLittleEndian rest

@[simp] theorem length_littleEndian (width n : Nat) : (littleEndian width n).length = width := by
  induction width generalizing n with
  | zero => rfl
  | succ width ih => simp [littleEndian, ih]

theorem ofLittleEndian_littleEndian (width n : Nat) :
    ofLittleEndian (littleEndian width n) = n % byteRange width := by
  induction width generalizing n with
  | zero => simp [littleEndian, ofLittleEndian, byteRange, Nat.mod_one]
  | succ width ih =>
      rw [littleEndian, ofLittleEndian, ih, byteRange, Nat.mod_mul]
      simp

theorem littleEndian_ofLittleEndian (bytes : Bytes) :
    littleEndian bytes.length (ofLittleEndian bytes) = bytes := by
  induction bytes with
  | nil => rfl
  | cons b rest ih =>
      have hb : b.toNat < 256 := b.toNat_lt
      rw [List.length_cons, littleEndian, ofLittleEndian]
      rw [show (b.toNat + 256 * ofLittleEndian rest) / 256 = ofLittleEndian rest by omega,
        show (b.toNat + 256 * ofLittleEndian rest) % 256 = b.toNat by omega, ih]
      simp

theorem ofLittleEndian_lt (bytes : Bytes) : ofLittleEndian bytes < byteRange bytes.length := by
  induction bytes with
  | nil => decide
  | cons b rest ih =>
      have hb : b.toNat < 256 := b.toNat_lt
      rw [ofLittleEndian, List.length_cons, byteRange]
      omega

/-- Writes a number of at most 64 bits in its shortest form. -/
def encodeVarint (n : Nat) : Bytes :=
  if n < 251 then [n.toUInt8]
  else if n < byteRange 2 then 251 :: littleEndian 2 n
  else if n < byteRange 4 then 252 :: littleEndian 4 n
  else 253 :: littleEndian 8 n

/-- Reads a number from the `width` bytes behind a tag. -/
def decodePayload (width : Nat) : Decoder Nat := fun bytes =>
  match takeBytes width bytes with
  | .ok (payload, rest) => .ok (ofLittleEndian payload, rest)
  | .error e => .error e

/-- The size of the longest number that can be read, its tag included. -/
def longestVarint : Nat := 9

/-- The kind of integer named where a tag does not suit a field, with `available` bytes to read
from. A field of 64 bits with room for the longest number is named as if it had 32 bits. -/
def namedKind (wanted : IntegerKind) (available : Nat) : IntegerKind :=
  if wanted = .long ∧ longestVarint ≤ available then .word else wanted

/-- Reads a number for a field that wants an integer of a given kind. Whether the tag suits the
field is decided before any further byte is read. -/
def decodeVarint (wanted : IntegerKind) : Decoder Nat := fun bytes =>
  match takeByte bytes with
  | .error e => .error e
  | .ok (tag, rest) =>
      if tag < 251 then .ok (tag.toNat, rest)
      else if tag = 251 then decodePayload 2 rest
      else if tag = 252 then decodePayload 4 rest
      else if tag = 253 then
        if wanted = .word then .error (.badInteger .word .long) else decodePayload 8 rest
      else .error (.badInteger (namedKind wanted bytes.length)
        (if tag = 254 then .huge else .reserved))

end SavedState
end HostCalls
