import HostCalls.Routine.Emission

/-!
# A patterned emitter

An emitter for trying out code spaces. It fills the routine of each entry with one byte, whose
value grows from entry to entry, and can be told to fail at one entry and to protect the space
early at another. It remembers what it was asked to emit.
-/

namespace HostCalls

/-- How a patterned emitter behaves. -/
structure Pattern where
  sizes : List Nat
  /-- The byte of the first routine. -/
  byte : UInt8
  /-- The index of the entry at which the emitter fails, and the error. -/
  failure : Option (Nat × Error)
  /-- The index of the entry at which the space is protected before it is written. -/
  protectAt : Option Nat
deriving DecidableEq, Repr

/-- A request to emit the routine of an entry at an offset. -/
structure EmitCall where
  entry : LoopEntry
  registers : PinnedRegisters
  offset : Nat
deriving DecidableEq, Repr

/-- The text of a request. -/
def EmitCall.describe (c : EmitCall) : String :=
  s!"emit:{c.entry.name}:{c.registers.context.toNat}:{c.offset}"

namespace Pattern

/-- The bytes of the routine of an entry. -/
def routine (p : Pattern) (entry : LoopEntry) : List UInt8 :=
  List.replicate (p.sizes.getD entry.index 0) (p.byte + entry.index.toUInt8)

/-- Writes the routine of an entry. -/
def fill {σ : Type} (p : Pattern) (entry : LoopEntry) (state : σ) : Emission σ :=
  .write (p.routine entry) fun
    | .ok _ => .done (.ok ()) state
    | .error e => .done (.error e) state

/-- The emitter; its state is what it was asked to emit, oldest first. -/
def emitter (p : Pattern) : Emitter (List EmitCall) := fun entry registers calls =>
  .inspect fun space =>
    let calls := calls ++ [⟨entry, registers, space.size⟩]
    match p.failure with
    | some (index, e) =>
        if index = entry.index then .done (.error e) calls else start entry calls
    | none => start entry calls
where
  /-- Protects the space if it is to be protected early, and writes the routine. -/
  start (entry : LoopEntry) (calls : List EmitCall) : Emission (List EmitCall) :=
    if p.protectAt = some entry.index then .protect (p.fill entry calls) else p.fill entry calls

end Pattern
end HostCalls
