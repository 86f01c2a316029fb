import HostCalls.Machine.Interpreter

/-!
# Metered runs of the guest machine

`Metered` is the interpreter with a limit on the number of blocks it executes. Each block takes
one unit of fuel. Without fuel no block chains to the next, the time slice counts as used up, and
a core that would be running has reached the end of its frame, so every run ends. Each pass
through the outer entry is noted in the journal of the machine.
-/

namespace HostCalls

/-- An interpreter with fuel. -/
structure Metered where
  inner : Interpreter
  fuel : Nat

namespace Metered

/-- Adds a note to the journal of the machine. -/
def note (x : Interpreter) (text : String) : Interpreter :=
  { x with machine := { x.machine with guest := x.machine.guest.note text } }

/-- What the end of a block becomes when `fuel` is left. -/
def dampen (fuel : Nat) (blockEnd : BlockEnd) : BlockEnd :=
  if fuel = 0 ∧ blockEnd = .chain then .dispatch else blockEnd

/-- The run state of the core when `fuel` is left. -/
def runState (fuel : Nat) (state : RunState) : RunState :=
  if fuel = 0 ∧ state = .running then .nextFrame else state

instance : Executor Metered where
  bindRegisters registers x := { x with inner := Executor.bindRegisters registers x.inner }
  syncRegisters registers x :=
    { x with inner := note (Executor.syncRegisters registers x.inner) "sync" }
  runState x := (runState x.fuel x.inner.runState, x)
  sliceExpired x := (x.inner.sliceExpired || x.fuel == 0, x)
  pc x := Executor.pc x.inner
  compile pc x := (x.inner.ram.compile pc, x)
  execute block x :=
    (x.inner.execute block).map fun (blockEnd, inner) =>
      (dampen (x.fuel - 1) blockEnd, ⟨inner, x.fuel - 1⟩)
  syscall op x := do
    let (outcome, inner) ← x.inner.syscall op
    return (outcome, { x with inner := inner })
  restoreSnapshot x := { x with inner := x.inner.restoreSnapshot }

end Metered
end HostCalls
