import HostCalls.SavedState.Decoder

/-!
# Reading UTF-8

Characters are read byte by byte. The first byte of a character tells how many bytes follow and,
so that no character has two encodings and none is a surrogate, the range of the byte after it;
later bytes range over all continuation bytes. A byte out of range makes the bytes of the
character before it a bad sequence, whose length is reported; the first byte of a character that
can start none is a bad sequence by itself.
-/

namespace HostCalls
namespace SavedState
namespace Utf8

/-- A character of which some bytes are read. -/
structure Fragment where
  /-- The bits read so far. -/
  value : Nat
  /-- The number of bytes read. -/
  seen : Nat
  /-- The number of bytes after the next one. -/
  later : Nat
  /-- The least possible next byte. -/
  low : UInt8
  /-- The greatest possible next byte. -/
  high : UInt8
deriving DecidableEq, Repr

/-- What the first byte of a character tells. -/
inductive Lead
  /-- It is a character by itself. -/
  | whole (c : Char)
  /-- It starts a longer character. -/
  | start (fragment : Fragment)
  /-- It starts no character. -/
  | bad

/-- Reads the first byte of a character. -/
def lead (b : UInt8) : Lead :=
  if b < 0x80 then .whole (Char.ofNat b.toNat)
  else if b < 0xC2 then .bad
  else if b < 0xE0 then .start ⟨b.toNat - 0xC0, 1, 0, 0x80, 0xBF⟩
  else if b = 0xE0 then .start ⟨0x0, 1, 1, 0xA0, 0xBF⟩
  else if b = 0xED then .start ⟨0xD, 1, 1, 0x80, 0x9F⟩
  else if b < 0xF0 then .start ⟨b.toNat - 0xE0, 1, 1, 0x80, 0xBF⟩
  else if b = 0xF0 then .start ⟨0x0, 1, 2, 0x90, 0xBF⟩
  else if b < 0xF4 then .start ⟨b.toNat - 0xF0, 1, 2, 0x80, 0xBF⟩
  else if b = 0xF4 then .start ⟨0x4, 1, 2, 0x80, 0x8F⟩
  else .bad

/-- The bits of a character after a continuation byte. -/
def Fragment.extend (f : Fragment) (b : UInt8) : Nat :=
  f.value * 64 + (b.toNat - 0x80)

/-- Reads characters; `valid` bytes are read in front of the current character, of which
`fragment` has been read if anything has. -/
def decodeFrom (valid : Nat) : Option Fragment → Bytes → Except DecodeError (List Char)
  | none, [] => .ok []
  | some _, [] => .error (.badText valid none)
  | none, b :: rest =>
      match lead b with
      | .whole c =>
          match decodeFrom (valid + 1) none rest with
          | .ok cs => .ok (c :: cs)
          | .error e => .error e
      | .start fragment => decodeFrom valid (some fragment) rest
      | .bad => .error (.badText valid (some 1))
  | some f, b :: rest =>
      if f.low ≤ b && b ≤ f.high then
        match f.later with
        | 0 =>
            match decodeFrom (valid + f.seen + 1) none rest with
            | .ok cs => .ok (Char.ofNat (f.extend b) :: cs)
            | .error e => .error e
        | later + 1 =>
            decodeFrom valid (some ⟨f.extend b, f.seen + 1, later, 0x80, 0xBF⟩) rest
      else .error (.badText valid (some f.seen))

/-- Reads all bytes as text. -/
def decode (bytes : Bytes) : Except DecodeError String :=
  match decodeFrom 0 none bytes with
  | .ok cs => .ok (String.ofList cs)
  | .error e => .error e

/-- Writes text. -/
def encode (text : String) : Bytes :=
  text.toList.flatMap String.utf8EncodeChar

end Utf8
end SavedState
end HostCalls
