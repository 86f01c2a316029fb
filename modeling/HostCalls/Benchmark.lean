import HostCalls.Core.Call
import HostCalls.HostAction
import HostCalls.Machine.Registers

/-!
# A fixture for measuring the dispatcher

A core with one module of 64 functions, which by turns add and give way, and collaborators that do
nothing, so that a measurement is about the dispatcher alone.
-/

namespace HostCalls
namespace Benchmark

/-- A collaborator that does nothing. -/
structure Idle where
deriving DecidableEq, Repr

instance : Memory Idle where
  read m _ := (.ok 0, m)
  write m _ _ := (.ok (), m)

instance : Scheduler Idle where
  forceCallbacks s := s
  runOneInterrupt s := (false, s)
  reschedule _ s := s
  rescheduleWithCallbacks _ s := s
  checkCallbacks s := s

instance : DebugHost Idle where
  enableStepping d := d
  setDebugMode _ d := d

/-- A register file, and memory that does nothing. -/
abbrev IdleGuest := Guest FlatRegisters Idle

/-- A machine whose collaborators do nothing. -/
abbrev IdleMachine := Env IdleGuest Idle Idle

/-- The machine before the first call. -/
def machine : IdleMachine := ⟨⟨.zero, ⟨⟩, []⟩, ⟨⟩, ⟨⟩⟩

/-- The number of functions. -/
def functionCount : Nat := 64

/-- The function with an index. -/
def function (index : Nat) : HostFunction IdleGuest :=
  if index % 2 = 0 then
    ⟨UInt32.ofNat (0x1000 + index), "Add", some (HostAction.body [.addArguments 0 1])⟩
  else
    ⟨UInt32.ofNat (0x1000 + index), "Yield",
      some (HostAction.body [.reschedule (some "bench")])⟩

/-- Registers the module. -/
def registrar : Registrar IdleGuest := fun registry => do
  match ← registry.register "Bench" ((List.range functionCount).map function) with
  | (.ok _, registry) => return (.ok (), registry)
  | (.error e, registry) => return (.error e, registry)

/-- The core with its module. -/
def core : Logged (Except Error (Core IdleGuest)) :=
  match Core.ofConfig Config.standard with
  | .error e => return .error e
  | .ok core => do
      match ← core.init [registrar] with
      | (.ok (), core) => return .ok core
      | (.error e, _) => return .error e

/-- Passes two arguments, moves the program counter to the opcode and dispatches it. -/
def call (core : Core IdleGuest) (machine : IdleMachine) (op : Opcode) (first second : Word) :
    Logged (CallOutcome × Core IdleGuest × IdleMachine) :=
  let cpu := Cpu.setGpr machine.guest.cpu (Reg.argument 0) first
  let cpu := Cpu.setGpr cpu (Reg.argument 1) second
  let cpu := Cpu.setPc cpu op.raw
  core.call op { machine with guest := { machine.guest with cpu := cpu } }

end Benchmark
end HostCalls
