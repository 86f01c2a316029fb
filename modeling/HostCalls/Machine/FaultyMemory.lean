import HostCalls.Environment
import HostCalls.Hex
import HostCalls.Table

/-!
# Memory with faults

A memory of words at any address, words never stored being zero, which fails where it is told to:
at unmapped addresses, at writes to read-only addresses, and at writes with given numbers. It
remembers the writes that succeeded.
-/

namespace HostCalls

/-- Where a memory fails. -/
structure FaultPlan where
  readOnly : List Addr
  unmapped : List Addr
  /-- The numbers of the writes that fail, the first write having number one. -/
  failWrites : List Nat
deriving DecidableEq, Repr

/-- A memory that never fails. -/
def FaultPlan.none : FaultPlan := ⟨[], [], []⟩

/-- A memory with faults. -/
structure FaultyMemory where
  words : Table Addr Word
  plan : FaultPlan
  /-- The number of writes that were tried. -/
  tried : Nat
  /-- The writes that succeeded, oldest first. -/
  written : List (Addr × Word)
deriving DecidableEq

namespace FaultyMemory

/-- A memory of zeroes that never fails. -/
def zero : FaultyMemory := ⟨.empty, .none, 0, []⟩

/-- The word at an address, stored or not. -/
def word (m : FaultyMemory) (addr : Addr) : Word :=
  (m.words.get? addr).getD 0

/-- Stores a word, past all faults. -/
def put (m : FaultyMemory) (addr : Addr) (value : Word) : FaultyMemory :=
  { m with words := m.words.insert addr value }

/-- Fails from now on where another plan says, counting writes anew. -/
def follow (m : FaultyMemory) (plan : FaultPlan) : FaultyMemory :=
  { m with plan := plan, tried := 0 }

/-- Forgets which writes succeeded. -/
def forget (m : FaultyMemory) : FaultyMemory :=
  { m with written := [] }

/-- The error at an unmapped address. -/
def unmappedError (addr : Addr) : Error :=
  .notFound s!"{Hex.word addr} is unmapped"

/-- Why a write fails, if it does; `number` is the number of the write. -/
def writeError? (plan : FaultPlan) (number : Nat) (addr : Addr) : Option Error :=
  if plan.failWrites.contains number then some (.systemError s!"write {number} failed")
  else if plan.unmapped.contains addr then some (unmappedError addr)
  else if plan.readOnly.contains addr then
    some (.permissionDenied s!"{Hex.word addr} is read-only")
  else none

instance : Memory FaultyMemory where
  read m addr :=
    if m.plan.unmapped.contains addr then (.error (unmappedError addr), m)
    else (.ok (m.word addr), m)
  write m addr value :=
    let m := { m with tried := m.tried + 1 }
    match writeError? m.plan m.tried addr with
    | some e => (.error e, m)
    | none => (.ok (), { m.put addr value with written := m.written ++ [(addr, value)] })

end FaultyMemory
end HostCalls
