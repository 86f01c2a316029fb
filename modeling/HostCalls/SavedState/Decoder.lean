/-!
# Reading bytes

A decoder takes what it needs from the front of a byte list and hands on the rest. It fails with a
`DecodeError`, whose `message` is shown to the user.
-/

namespace HostCalls
namespace SavedState

/-- A list of bytes. -/
abbrev Bytes := List UInt8

/-- The kinds of integer that a tag may announce or a field may want. -/
inductive IntegerKind
  /-- At most 32 bits. -/
  | word
  /-- At most 64 bits. -/
  | long
  /-- A number of elements, at most 64 bits. -/
  | count
  /-- 128 bits, wanted by no field. -/
  | huge
  /-- A tag without a meaning. -/
  | reserved
deriving DecidableEq, Repr

/-- The name of a kind of integer. -/
def IntegerKind.label : IntegerKind → String
  | word => "U32"
  | long => "U64"
  | count => "Usize"
  | huge => "U128"
  | reserved => "Reserved"

/-- Why bytes cannot be read. -/
inductive DecodeError
  /-- A read wants `missing` more bytes than there are. -/
  | endOfInput (missing : Nat)
  /-- A tag announces an integer that the field cannot hold. -/
  | badInteger (wanted found : IntegerKind)
  /-- Text is encoded well only in its first `valid` bytes. What follows is a bad sequence of
  `length` bytes, or, without a length, a character cut short by the end of the text. -/
  | badText (valid : Nat) (length : Option Nat)
deriving DecidableEq, Repr

namespace DecodeError

/-- The text shown for an optional length. -/
def lengthText : Option Nat → String
  | none => "None"
  | some n => s!"Some({n})"

/-- The text shown for an error. -/
def message : DecodeError → String
  | endOfInput missing => s!"UnexpectedEnd \x7b additional: {missing} \x7d"
  | badInteger wanted found =>
      s!"InvalidIntegerType \x7b expected: {wanted.label}, found: {found.label} \x7d"
  | badText valid length =>
      s!"Utf8 \x7b inner: Utf8Error \x7b valid_up_to: {valid}, error_len: {lengthText length} "
        ++ "\x7d \x7d"

end DecodeError

/-- Reads a value from the front of some bytes and hands on the rest. -/
abbrev Decoder (α : Type) := Bytes → Except DecodeError (α × Bytes)

/-- Reads the next `n` bytes. -/
def takeBytes (n : Nat) : Decoder Bytes := fun bytes =>
  if n ≤ bytes.length then .ok (bytes.take n, bytes.drop n)
  else .error (.endOfInput (n - bytes.length))

/-- Reads one byte. -/
def takeByte : Decoder UInt8
  | [] => .error (.endOfInput 1)
  | b :: rest => .ok (b, rest)

theorem takeBytes_append (front rest : Bytes) :
    takeBytes front.length (front ++ rest) = .ok (front, rest) := by
  simp [takeBytes]

theorem takeBytes_eq_ok_iff {n : Nat} {bytes front rest : Bytes} :
    takeBytes n bytes = .ok (front, rest) ↔ front.length = n ∧ bytes = front ++ rest := by
  constructor
  · intro h
    unfold takeBytes at h
    split at h
    · cases h
      simp_all
    · cases h
  · rintro ⟨rfl, rfl⟩
    exact takeBytes_append front rest

end SavedState
end HostCalls
