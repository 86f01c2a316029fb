import HostCalls.Routine.Emission

/-!
# Routine descriptors

A core that interprets guest code has no routines to generate. Its emitter writes a descriptor of
eight bytes for each entry instead, so that the entries are accounted for in the same way:

| byte | content                           |
|------|-----------------------------------|
| 0, 1 | the letters `HR`                  |
| 2    | the index of the entry            |
| 3    | 1: falls through, 2: side entry   |
| 4–6  | the pinned registers              |
| 7    | zero                              |
-/

namespace HostCalls

/-- What a descriptor says about a routine. -/
structure Descriptor where
  entry : LoopEntry
  fallsThrough : Bool
  isSideEntry : Bool
  registers : PinnedRegisters
deriving DecidableEq, Repr

namespace Descriptor

/-- The size of a descriptor in bytes. -/
def size : Nat := 8

/-- The number that stands for the two flags. -/
def flagBits (d : Descriptor) : Nat :=
  (if d.fallsThrough then 1 else 0) + (if d.isSideEntry then 2 else 0)

/-- Writes a descriptor. -/
def encode (d : Descriptor) : List UInt8 :=
  [0x48, 0x52, d.entry.index.toUInt8, d.flagBits.toUInt8,
    d.registers.context, d.registers.memoryBase, d.registers.downcount, 0]

/-- Reads a descriptor at the front of some bytes; the last of its bytes is ignored. -/
def decode : List UInt8 → Option Descriptor
  | m0 :: m1 :: index :: flags :: context :: memoryBase :: downcount :: _ :: _ =>
      if m0 = 0x48 ∧ m1 = 0x52 ∧ flags < 4 then
        LoopEntry.all[index.toNat]?.map fun entry =>
          ⟨entry, flags.toNat % 2 == 1, flags.toNat / 2 == 1, ⟨context, memoryBase, downcount⟩⟩
      else none
  | _ => none

/-- The descriptor of an entry's routine. -/
def ofEntry (entry : LoopEntry) (registers : PinnedRegisters) : Descriptor :=
  ⟨entry, entry.fallsThrough, entry.isSideEntry, registers⟩

/-- Emits the descriptor of each entry. -/
def emitter : Emitter Unit := fun entry registers state =>
  .write (ofEntry entry registers).encode fun
    | .ok _ => .done (.ok ()) state
    | .error e => .done (.error e) state

end Descriptor
end HostCalls
