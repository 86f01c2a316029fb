import HostCalls.Loop.Executor

/-!
# Traced executors

`Traced E` is an executor that passes every operation on to an executor of type `E` and remembers
the operations with their answers, latest first. Reading the program counter leaves no trace. What
the loop does to an executor is thereby a value that statements can be about.
-/

namespace HostCalls

/-- An operation of an executor, and its answer. -/
inductive ExecutorCall
  | bindRegisters (registers : PinnedRegisters)
  | syncRegisters (registers : PinnedRegisters)
  | runState (answer : RunState)
  | sliceExpired (answer : Bool)
  | compile (pc : Addr) (answer : Except Error NativeBlock)
  | execute (block : NativeBlock) (answer : BlockEnd)
  | syscall (op : Opcode) (answer : CallOutcome)
  | reportFpFault (pc : Addr)
  | restoreSnapshot

/-- The text of an operation. -/
def ExecutorCall.describe : ExecutorCall → String
  | bindRegisters registers => s!"bind:{registers.describe}"
  | syncRegisters registers => s!"sync:{registers.describe}"
  | runState _ => "core_state"
  | sliceExpired answer => s!"slice_expired:{answer}"
  | compile pc _ => s!"compile:{Hex.word pc}"
  | execute block _ => s!"execute:{Hex.word block.start}:{Hex.ofBytes block.code}"
  | syscall op _ => s!"syscall:{op.describe}"
  | reportFpFault pc => s!"fp_exception:{Hex.word pc}"
  | restoreSnapshot => "restore_snapshot"

/-- An executor together with the operations it was asked for, latest first. -/
structure Traced (E : Type) where
  inner : E
  calls : List ExecutorCall

namespace Traced

variable {E : Type}

/-- An executor that has not been asked for anything. -/
def start (e : E) : Traced E := ⟨e, []⟩

/-- Goes on with another state after an operation. -/
def after (t : Traced E) (call : ExecutorCall) (e : E) : Traced E :=
  ⟨e, call :: t.calls⟩

/-- The operations, oldest first. -/
def history (t : Traced E) : List ExecutorCall :=
  t.calls.reverse

instance [Executor E] : Executor (Traced E) where
  bindRegisters registers t :=
    t.after (.bindRegisters registers) (Executor.bindRegisters registers t.inner)
  syncRegisters registers t :=
    t.after (.syncRegisters registers) (Executor.syncRegisters registers t.inner)
  runState t :=
    let (answer, e) := Executor.runState t.inner
    (answer, t.after (.runState answer) e)
  sliceExpired t :=
    let (answer, e) := Executor.sliceExpired t.inner
    (answer, t.after (.sliceExpired answer) e)
  pc t := Executor.pc t.inner
  compile pc t :=
    let (answer, e) := Executor.compile pc t.inner
    (answer, t.after (.compile pc answer) e)
  execute block t :=
    (Executor.execute block t.inner).map fun (answer, e) =>
      (answer, t.after (.execute block answer) e)
  syscall op t := do
    let (answer, e) ← Executor.syscall op t.inner
    return (answer, t.after (.syscall op answer) e)
  reportFpFault pc t := t.after (.reportFpFault pc) (Executor.reportFpFault pc t.inner)
  restoreSnapshot t := t.after .restoreSnapshot (Executor.restoreSnapshot t.inner)

end Traced
end HostCalls
