import HostCalls.Hex
import HostCalls.Routine.Emission

/-!
# The routines of the run loop

`RoutineTable.generate` lets an emitter write the routine of every entry, in order, notes where
each one starts, and protects the code space. An emitter that fails or that writes nothing for an
entry ends the generation, and the space is given back. A generation faults before it asks the
emitter for anything if the space is too large for the host, and later if the emitter writes into
the space after it has protected it.
-/

namespace HostCalls

/-- The generated routines. -/
structure RoutineTable where
  space : CodeSpace
  offsets : Table LoopEntry Nat
  registers : PinnedRegisters
deriving DecidableEq

/-- What keeps a generation from its end. -/
inductive GenerationFault
  /-- The space was not set aside. -/
  | capacity (fault : CapacityFault)
  /-- The emitter wrote into the protected space. -/
  | protection (fault : ProtectionFault)
deriving DecidableEq, Repr

/-- The text shown for a fault. -/
def GenerationFault.message : GenerationFault → String
  | capacity fault => fault.message
  | protection fault => fault.message

namespace RoutineTable

/-- The error for an emitter that wrote nothing for an entry. -/
def noCode (entry : LoopEntry) : Error :=
  .invalidState s!"emitter generated no code for {entry.name}"

variable {σ : Type}

/-- Emits the routines of some entries; `offsets` tells where the earlier ones start. -/
def emitAll (emitter : Emitter σ) (registers : PinnedRegisters) :
    List LoopEntry → CodeSpace → Table LoopEntry Nat → σ →
      Logged (Except ProtectionFault (Except Error (CodeSpace × Table LoopEntry Nat) × σ))
  | [], space, offsets, state => return .ok (.ok (space, offsets), state)
  | entry :: rest, space, offsets, state => do
      match ← (emitter entry registers state).run space with
      | .error fault => return .error fault
      | .ok (.error e, state, _) => return .ok (.error e, state)
      | .ok (.ok (), state, grown) =>
          if grown.size = space.size then return .ok (.error (noCode entry), state)
          else do
            Log.trace (s!"{entry.name} at {Hex.marked space.size}, "
              ++ s!"{grown.size - space.size} bytes")
            emitAll emitter registers rest grown (offsets.insert entry space.size) state

/-- Generates the routines in `codeSpace` bytes. -/
def generate (codeSpace : Nat) (registers : PinnedRegisters) (emitter : Emitter σ) (state : σ) :
    Logged (Except GenerationFault (Except Error RoutineTable × σ)) := do
  match ← CodeSpace.alloc codeSpace with
  | .error fault => return .error (.capacity fault)
  | .ok (.error e) => return .ok (.error e, state)
  | .ok (.ok space) =>
      match ← emitAll emitter registers LoopEntry.all space .empty state with
      | .error fault => do
          space.free
          return .error (.protection fault)
      | .ok (.error e, state) => do
          space.free
          return .ok (.error e, state)
      | .ok (.ok (space, offsets), state) => do
          let space ← space.protect
          Log.info s!"dispatch loop generated: {space.size} bytes"
          return .ok (.ok ⟨space, offsets, registers⟩, state)

/-- Where the routine of an entry starts. -/
def offset (routines : RoutineTable) (entry : LoopEntry) : Nat :=
  (routines.offsets.get? entry).getD 0

/-- The entry whose routine starts at an offset. -/
def entryAt? (routines : RoutineTable) (offset : Nat) : Option LoopEntry :=
  LoopEntry.all.find? fun entry => routines.offset entry == offset

end RoutineTable
end HostCalls
