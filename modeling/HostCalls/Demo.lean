import HostCalls.HostAction
import HostCalls.Loop.RunLoop
import HostCalls.Machine.Interpreter
import HostCalls.Routine.Descriptor

/-!
# A demonstration

A guest program of eight words calls two host functions, one that gives way to other threads and
one that adds, and jumps to the end. `Demo.run` runs it on a guest machine with the standard
configuration.
-/

namespace HostCalls
namespace Demo

/-- What a run of the demonstration shows. -/
structure Report where
  loopEnd : LoopEnd
  result : Word
  syscalls : Nat
  schedulerEvents : List String
deriving DecidableEq, Repr

/-- The identifier of the adding function. -/
def addNid : Nid := 0x101

/-- The identifier of the function that gives way. -/
def yieldNid : Nid := 0x102

/-- The call site of the adding function. -/
def addSite : Addr := 0x08900000

/-- The call site of the function that gives way. -/
def yieldSite : Addr := 0x08900008

/-- The name of the module with both functions. -/
def moduleName : String := "DemoKernel"

/-- Both functions. -/
def functions : List (HostFunction MachineGuest) :=
  [⟨addNid, "Add", some (HostAction.body [.addArguments 0 1])⟩,
   ⟨yieldNid, "Yield", some (HostAction.body [.reschedule (some "yield")])⟩]

/-- Registers the module. -/
def registrar : Registrar MachineGuest := fun registry => do
  match ← registry.register moduleName functions with
  | (.ok _, registry) => return (.ok (), registry)
  | (.error e, registry) => return (.error e, registry)

/-- The guest program. -/
def program : List Word :=
  [Instruction.addImmediateWord 4 0 40,
   Instruction.addImmediateWord 5 0 2,
   Instruction.callWord yieldSite,
   Instruction.nopWord,
   Instruction.callWord addSite,
   Instruction.nopWord,
   Instruction.jumpWord Machine.exitAddr,
   Instruction.nopWord]

/-- The machine with the program in its memory. -/
def machine : Machine :=
  { Machine.zero with
    guest := { Machine.zero.guest with memory := Ram.zero.load Machine.mainAddr program } }

/-- The interpreter with both call sites bound. -/
def interpreter : Except Error Interpreter := do
  let core ← Core.ofConfig Config.standard
  let (result, core) := (core.init [registrar]).value
  during "demo init" result
  let (result, x) := ((Interpreter.start machine core).bindSite moduleName addNid addSite).value
  result
  let (result, x) := (x.bindSite moduleName yieldNid yieldSite).value
  result
  return x

/-- The loop of the demonstration. -/
def loop : Except Error RunLoop :=
  match (RunLoop.generate Config.standard .standard Descriptor.emitter ()).value with
  | .ok (result, _) => result
  | .error fault => .error (.systemError fault.message)

/-- What a finished run shows. -/
def report (result : Except LoopError LoopEnd) (x : Interpreter) : Except Error Report :=
  match result with
  | .error cause => .error cause.toError
  | .ok loopEnd =>
      .ok ⟨loopEnd, x.registers.get .v0, x.core.stats.total, x.machine.schedulerEvents⟩

/-- Runs the demonstration, if it comes to its end within `fuel` entries of the loop. -/
def run (fuel : Nat) : Option (Except Error Report) :=
  match interpreter, loop with
  | .error e, _ => some (.error e)
  | _, .error e => some (.error e)
  | .ok x, .ok loop =>
      (loop.run fuel x).map fun ended =>
        let (result, _, x) := ended.value
        report result x

end Demo
end HostCalls
