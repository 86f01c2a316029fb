import HostCalls.Core.Call
import HostCalls.Loop.NativeBlock
import HostCalls.Routine.Emission
import HostCalls.RunState

/-!
# Executors

The run loop drives an executor: the guest machine as it compiles and executes blocks of
guest code. As with the other collaborators, an operation returns the state it leaves behind.
Executing a block may fail to come to an end, which is the answer `none`.
-/

namespace HostCalls

/-- How a block handed control back. -/
inductive BlockEnd
  /-- The block is done; go on through the dispatcher. -/
  | dispatch
  /-- The block is done; go on with the next block at once. -/
  | chain
  /-- The block raised a system call. -/
  | syscall (op : Opcode)
  /-- The scheduler must pick the next thread. -/
  | reschedule
  /-- An arithmetic fault arose. -/
  | fpFault
  /-- A breakpoint was hit. -/
  | breakpoint
deriving DecidableEq, Repr

/-- A machine that executes guest code block by block. -/
class Executor (E : Type) where
  /-- Loads the state of the machine into the pinned registers. -/
  bindRegisters : PinnedRegisters → E → E
  /-- Loads the pinned registers anew after a reschedule. -/
  syncRegisters : PinnedRegisters → E → E := bindRegisters
  /-- Asks for the run state of the core. -/
  runState : E → RunState × E
  /-- Asks whether the time slice is used up. -/
  sliceExpired : E → Bool × E := fun e => (false, e)
  pc : E → Addr
  compile : Addr → E → Except Error NativeBlock × E
  execute : NativeBlock → E → Option (BlockEnd × E)
  syscall : Opcode → E → Logged (CallOutcome × E)
  /-- Takes note of an arithmetic fault at an address. -/
  reportFpFault : Addr → E → E := fun _ e => e
  /-- Restores the snapshot taken before the interrupted block. -/
  restoreSnapshot : E → E := fun e => e

end HostCalls
