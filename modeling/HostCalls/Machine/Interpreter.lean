import HostCalls.Loop.Executor
import HostCalls.Machine.Ram
import HostCalls.Machine.Registers
import HostCalls.Recorder

/-!
# The guest machine and its interpreter

A `Machine` is a register file, a memory, a scheduler and a debugger. The `Interpreter` is the
executor that runs the code in its memory, with a `Core` that dispatches its system calls.

* `Ram.stepAt` executes one instruction. Delay slots are not executed, but a system call in the
  slot of a return is raised.
* `Ram.runBlock` executes instructions one behind the other while they lie before the end of the
  block. It reads memory by the present words, not by those that were compiled. A block that
  was cut off at the last address may go on at address zero and never end.
* A breakpoint is undone by going back to the snapshot taken when the block was entered.
-/

namespace HostCalls

/-- What host functions may touch of the guest machine. -/
abbrev MachineGuest := Guest Registers Ram

/-- The guest machine. -/
abbrev Machine := Env MachineGuest SchedulerRecord DebugRecord

namespace Machine

/-- The address at which guest code starts. -/
def mainAddr : Addr := 0x08804000

/-- The address at which the core powers down. -/
def exitAddr : Addr := 0x08800000

/-- The number of blocks in a time slice. -/
def slice : Int := 64

/-- A machine with zero registers and memory. -/
def zero : Machine := ⟨⟨.zero, .zero, []⟩, .start 0, .start⟩

/-- The text of a request to the scheduler; an interrupt that did not run has none. -/
def schedulerEvent? : SchedulerCall → Option String
  | .forceCallbacks => some "current_callbacks"
  | .interrupt true => some "interrupt"
  | .interrupt false => none
  | .reschedule reason => some s!"resched:{reason}"
  | .rescheduleWithCallbacks reason => some s!"resched_cb:{reason}"
  | .checkCallbacks => some "all_callbacks"

/-- The texts of the requests to the scheduler. -/
def schedulerEvents (machine : Machine) : List String :=
  machine.scheduler.calls.filterMap schedulerEvent?

end Machine

namespace Ram

/-- Executes the instruction at an address. It either hands control back or leaves the next
instruction to follow. -/
def stepAt (ram : Ram) (addr : Addr) (r : Registers) : Registers × Option BlockEnd :=
  match Instruction.decode addr (ram.fetch addr) with
  | .ret =>
      let slot := ram.fetch (addr + Instruction.size)
      ({ r with pc := r.get .ra },
        some (if Instruction.isSyscall slot then .syscall ⟨slot⟩ else .dispatch))
  | .breakpoint => ({ r with pc := addr }, some .breakpoint)
  | .jump target => ({ r with pc := target }, some .dispatch)
  | .call target =>
      ({ r.set .ra (addr + 2 * Instruction.size) with pc := target }, some .dispatch)
  | .addImmediate rt rs constant => (r.set rt (r.get rs + constant), none)
  | .other => (r, none)

/-- Executes at most `fuel` instructions from an address on while they lie before `stop`. -/
def runBlock (ram : Ram) (stop : Addr) : Nat → Addr → Registers →
    Option (Registers × Option BlockEnd)
  | 0, _, _ => none
  | fuel + 1, addr, r =>
      if addr < stop then
        match ram.stepAt addr r with
        | (r, some blockEnd) => some (r, some blockEnd)
        | (r, none) => ram.runBlock stop fuel (addr + Instruction.size) r
      else some (r, none)

/-- The number of instructions that the address space holds. A block that executes as many without
an end has come back to its start and never ends. -/
def instructionCount : Nat := addrCount / 4

end Ram

/-- The executor that interprets guest code. -/
structure Interpreter where
  machine : Machine
  core : Core MachineGuest
  /-- The number of blocks left in the time slice. -/
  downcount : Int
  /-- The registers at the start of the latest block. -/
  snapshot : Option Registers

namespace Interpreter

/-- An interpreter that is about to start guest code. -/
def start (machine : Machine) (core : Core MachineGuest) : Interpreter where
  machine := { machine with
    guest := { machine.guest with cpu := { machine.guest.cpu with pc := Machine.mainAddr } } }
  core := core
  downcount := Machine.slice
  snapshot := none

/-- The register file. -/
def registers (x : Interpreter) : Registers :=
  x.machine.guest.cpu

/-- The memory. -/
def ram (x : Interpreter) : Ram :=
  x.machine.guest.memory

/-- Puts a register file in place of the present one. -/
def withRegisters (x : Interpreter) (r : Registers) : Interpreter :=
  { x with machine := { x.machine with guest := { x.machine.guest with cpu := r } } }

/-- Puts a memory in place of the present one. -/
def withRam (x : Interpreter) (ram : Ram) : Interpreter :=
  { x with machine := { x.machine with guest := { x.machine.guest with memory := ram } } }

/-- Begins a new time slice. -/
def renewSlice (x : Interpreter) : Interpreter :=
  { x with downcount := Machine.slice }

/-- The run state of the core: that of the debugger, unless it is running and guest code has come
to its end. -/
def runState (x : Interpreter) : RunState :=
  if x.machine.debugger.coreState ≠ .running then x.machine.debugger.coreState
  else if x.registers.pc = Machine.exitAddr then .powerDown
  else .running

/-- Whether the time slice is used up; it also is when guest code has come to its end. -/
def sliceExpired (x : Interpreter) : Bool :=
  x.downcount ≤ 0 || x.registers.pc == Machine.exitAddr

/-- Begins a block: takes the snapshot and one block off the time slice. -/
def beginBlock (x : Interpreter) (start : Addr) : Interpreter :=
  { x with
    downcount := x.downcount - 1
    snapshot := some { x.registers with pc := start } }

/-- Executes a block. -/
def execute (block : NativeBlock) (x : Interpreter) : Option (BlockEnd × Interpreter) :=
  let x := x.beginBlock block.start
  match x.ram.runBlock block.stop Ram.instructionCount block.start x.registers with
  | none => none
  | some (r, some blockEnd) => some (blockEnd, x.withRegisters r)
  | some (r, none) =>
      some (if 0 < x.downcount then .chain else .dispatch,
        x.withRegisters { r with pc := block.stop })

/-- Dispatches a system call on the machine. -/
def syscall (op : Opcode) (x : Interpreter) : Logged (CallOutcome × Interpreter) := do
  let (outcome, core, machine) ← x.core.call op x.machine
  return (outcome, { x with machine := machine, core := core })

/-- Goes back to the snapshot, if there is one, and forgets it. -/
def restoreSnapshot (x : Interpreter) : Interpreter :=
  match x.snapshot with
  | some r => { x.withRegisters r with snapshot := none }
  | none => x

instance : Executor Interpreter where
  bindRegisters _ x := x.renewSlice
  syncRegisters _ x := x.renewSlice
  runState x := (x.runState, x)
  sliceExpired x := (x.sliceExpired, x)
  pc x := x.registers.pc
  compile pc x := (x.ram.compile pc, x)
  execute := execute
  syscall := syscall
  restoreSnapshot := restoreSnapshot

/-- Binds a call site in the memory of the machine. -/
def bindSite (x : Interpreter) (name : String) (nid : Nid) (site : Addr) :
    Logged (Except Error Unit × Interpreter) := do
  let (result, core, ram) ← x.core.bindSite x.ram name nid site
  return (result, { x.withRam ram with core := core })

/-- Binds deferred imports to guest code in the memory of the machine. -/
def resolve (x : Interpreter) (name : String) (nid : Nid) (target : Addr) :
    Logged (Except Error Nat × Interpreter) := do
  let (result, core, ram) ← x.core.resolve x.ram name nid target
  return (result, { x.withRam ram with core := core })

end Interpreter
end HostCalls
