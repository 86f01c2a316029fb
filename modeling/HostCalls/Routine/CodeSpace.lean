import HostCalls.Config
import HostCalls.Log

/-!
# Code space

Generated code is written once, from front to back, into a space of fixed size, which is then
protected from writing for good. A space without any room is refused, and one that is larger than
the host allows is a `CapacityFault`. A write that does not fit is refused and may be handled. A
write into a protected space is not an error but a broken promise of whoever writes: it is a
`ProtectionFault`, which ends everything up to the outermost caller.
-/

namespace HostCalls

/-- What may be done to a piece of host memory. -/
structure Protection where
  read : Bool
  write : Bool
  execute : Bool
deriving DecidableEq, Repr

namespace Protection

/-- The number that stands for a protection. -/
def bits (p : Protection) : Nat :=
  (if p.read then 1 else 0) + (if p.write then 2 else 0) + (if p.execute then 4 else 0)

end Protection

/-- A write of `size` bytes into a protected space. -/
structure ProtectionFault where
  size : Nat
deriving DecidableEq, Repr

/-- The text shown for a fault. -/
def ProtectionFault.message (fault : ProtectionFault) : String :=
  s!"write of {fault.size} bytes into write-protected code space"

/-- A space of `capacity` bytes, of which the bytes of `code` are written. -/
structure CodeSpace where
  capacity : Nat
  code : List UInt8
  isProtected : Bool
  length_le : code.length ≤ capacity
deriving DecidableEq

namespace CodeSpace

/-- A space without code. -/
def fresh (capacity : Nat) : CodeSpace where
  capacity := capacity
  code := []
  isProtected := false
  length_le := Nat.zero_le _

/-- Sets space aside. The report comes first. -/
def alloc (capacity : Nat) : Logged (Except CapacityFault (Except Error CodeSpace)) :=
  if capacity = 0 then return .ok (.error Config.noCodeSpace)
  else do
    Log.debug s!"allocated {capacity} bytes of code space"
    match reserve capacity with
    | .error fault => return .error fault
    | .ok () => return .ok (.ok (fresh capacity))

/-- The number of bytes written, which is also the offset of the next write. -/
def size (space : CodeSpace) : Nat :=
  space.code.length

/-- Whether nothing is written. -/
def isEmpty (space : CodeSpace) : Bool :=
  space.size == 0

/-- The number of bytes that still fit. -/
def remaining (space : CodeSpace) : Nat :=
  space.capacity - space.size

/-- What may be done to the space. -/
def protection (space : CodeSpace) : Protection :=
  if space.isProtected then ⟨true, false, true⟩ else ⟨true, true, false⟩

/-- Writes behind what is written already and returns the offset of the new bytes. -/
def write (space : CodeSpace) (bytes : List UInt8) :
    Except ProtectionFault (Except Error Nat × CodeSpace) :=
  if space.isProtected then .error ⟨bytes.length⟩
  else if h : space.code.length + bytes.length ≤ space.capacity then
    .ok (.ok space.size, {
      space with
      code := space.code ++ bytes
      length_le := by
        rw [List.length_append]
        exact h })
  else .ok (.error .outOfMemory, space)

/-- Protects the space from writing and makes its code executable. -/
def protect (space : CodeSpace) : Logged CodeSpace := do
  Log.debug
    s!"code space write-protected with {space.size} of {space.capacity} bytes used"
  return { space with isProtected := true }

/-- The `length` written bytes from an offset on, if so many are written. -/
def bytesAt? (space : CodeSpace) (offset length : Nat) : Option (List UInt8) :=
  if offset + length ≤ space.size then some ((space.code.drop offset).take length) else none

/-- Gives the space back. -/
def free (space : CodeSpace) : Logged Unit :=
  Log.debug s!"freeing {space.capacity} bytes of code space"

end CodeSpace
end HostCalls
