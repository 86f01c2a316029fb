import HostCalls.Loop.Entry
import HostCalls.Routine.CodeSpace

/-!
# Emitting a routine

The code of a routine depends on the host and is not the business of the core, which takes it from
an emitter. What an emitter may do to the code space is an `Emission`: it may write, protect the
space, look at it, and end with a result. Since an emission is data, an emitter can do nothing
else to the space, and only `Emission.run` can fault.
-/

namespace HostCalls

/-- The host registers in which generated code keeps the state of the guest. -/
structure PinnedRegisters where
  /-- Holds the state of the guest processor. -/
  context : UInt8
  /-- Holds the base of guest memory. -/
  memoryBase : UInt8
  /-- Holds the remaining cycles. -/
  downcount : UInt8
deriving DecidableEq, Repr

/-- The text shown for pinned registers. -/
def PinnedRegisters.describe (r : PinnedRegisters) : String :=
  s!"{r.context.toNat},{r.memoryBase.toNat},{r.downcount.toNat}"

/-- The registers used unless told otherwise. -/
def PinnedRegisters.standard : PinnedRegisters := ⟨5, 15, 14⟩

/-- What an emitter does to the code space; `σ` is the emitter's own state. -/
inductive Emission (σ : Type) : Type
  /-- Ends. -/
  | done (result : Except Error Unit) (state : σ)
  /-- Writes bytes and goes on with the offset, or with the error that refused them. -/
  | write (bytes : List UInt8) (next : Except Error Nat → Emission σ)
  /-- Protects the space. -/
  | protect (next : Emission σ)
  /-- Looks at the space. -/
  | inspect (next : CodeSpace → Emission σ)

/-- Emits the routine of an entry at the end of the code space. -/
abbrev Emitter (σ : Type) := LoopEntry → PinnedRegisters → σ → Emission σ

namespace Emission

variable {σ : Type}

/-- Carries an emission out. -/
def run : Emission σ → CodeSpace →
    Logged (Except ProtectionFault (Except Error Unit × σ × CodeSpace))
  | done result state, space => return .ok (result, state, space)
  | write bytes next, space =>
      match space.write bytes with
      | .error fault => return .error fault
      | .ok (result, space) => (next result).run space
  | protect next, space => do
      let space ← space.protect
      next.run space
  | inspect next, space => (next space).run space

end Emission
end HostCalls
