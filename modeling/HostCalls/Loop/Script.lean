import HostCalls.Loop.Executor

/-!
# Scripted executors

A `Script` is an executor without guest code. Each block it executes takes the next turn of the
script, which says how the block ends and what changes on the way. When there is no turn left the
core powers down. A `PlainScript` does the same with only those operations that an executor must
have.
-/

namespace HostCalls

/-- How one executed block ends; what is absent stays as it is. -/
structure ScriptTurn where
  blockEnd : BlockEnd
  /-- The next program counter; if absent, the end of the block. -/
  pc : Option Addr
  /-- The new run state of the core. -/
  state : Option RunState
  /-- How often the time slice is found used up from now on. -/
  expire : Option Nat
  /-- The outcome of system calls from now on. -/
  outcome : Option CallOutcome
deriving DecidableEq, Repr

/-- An executor that follows a script. -/
structure Script where
  pc : Addr
  turns : List ScriptTurn
  state : RunState
  /-- How often the time slice is found used up. -/
  expire : Nat
  /-- The outcome of system calls. -/
  outcome : CallOutcome
  /-- The sizes of the blocks whose size is not eight. -/
  sizes : Table Addr UInt32
  /-- Where blocks start that do not start where they are asked for. -/
  starts : Table Addr Addr
  /-- The addresses at which no block can be compiled. -/
  failures : Table Addr Error
  /-- The program counter of the snapshot. -/
  restorePc : Option Addr

namespace Script

/-- The block at an address. -/
def block (script : Script) (pc : Addr) : Except Error NativeBlock :=
  match script.failures.get? pc with
  | some e => .error e
  | none =>
      .ok ⟨(script.starts.get? pc).getD pc, (script.sizes.get? pc).getD 8, Word.bytes pc⟩

/-- Takes a turn at the end of a block. -/
def take (script : Script) (stop : Addr) (turn : ScriptTurn) : Script :=
  { script with
    pc := turn.pc.getD stop
    state := turn.state.getD script.state
    expire := turn.expire.getD script.expire
    outcome := turn.outcome.getD script.outcome }

instance : Executor Script where
  bindRegisters _ script := script
  runState script := (script.state, script)
  sliceExpired script := (decide (0 < script.expire), { script with expire := script.expire - 1 })
  pc script := script.pc
  compile pc script := (script.block pc, script)
  execute block script :=
    match script.turns with
    | [] => some (.reschedule, { script with state := .powerDown })
    | turn :: rest => some (turn.blockEnd, { script.take block.stop turn with turns := rest })
  syscall _ script := return (script.outcome, script)
  restoreSnapshot script := { script with pc := script.restorePc.getD script.pc }

end Script

/-- A script that has only the operations without which there is no executor. -/
structure PlainScript where
  script : Script

instance : Executor PlainScript where
  bindRegisters _ plain := plain
  runState plain := (plain.script.state, plain)
  pc plain := plain.script.pc
  compile pc plain := (plain.script.block pc, plain)
  execute block plain :=
    (Executor.execute block plain.script).map fun (blockEnd, script) => (blockEnd, ⟨script⟩)
  syscall op plain := do
    let (outcome, script) ← Executor.syscall op plain.script
    return (outcome, ⟨script⟩)

end HostCalls
