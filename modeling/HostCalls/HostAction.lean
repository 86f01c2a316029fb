import HostCalls.Instruction
import HostCalls.Registry

/-!
# Host functions as lists of actions

Every action is something that a host function may do: read arguments and set results in the
register file, set other registers, access memory, request or forget work for after the call, and
leave notes in the journal. `HostAction.body` is the host function that does a list of them in
order. It works on any register file and any memory.
-/

namespace HostCalls

/-- Something that a host function may do. -/
inductive HostAction
  | ret (value : Word)
  | retDouble (value : UInt64)
  | retArgument (index : Nat)
  /-- Return the sum of two arguments. -/
  | addArguments (first second : Nat)
  | setGpr (reg : Reg) (value : Word)
  | setPc (value : Addr)
  /-- Return the word at an address, or note why it cannot be read. -/
  | read (addr : Addr)
  /-- Write a word, or note why it cannot be written. -/
  | write (addr : Addr) (value : Word)
  | reschedule (reason : Option String)
  /-- Request a reschedule which may process the callbacks of all threads. -/
  | rescheduleWithCallbacks (callbacks : Bool) (reason : Option String)
  /-- Request work of another kind. -/
  | request (work : Work)
  | clear
  /-- Note what is requested. -/
  | note
  /-- Do some actions if an argument is zero. -/
  | ifZero (index : Nat) (actions : List HostAction)

namespace HostAction

variable {C M : Type} [Cpu C] [Memory M]

/-- The value of an argument. -/
def argument (guest : Guest C M) (index : Nat) : Word :=
  Cpu.gpr guest.cpu (Reg.argument index)

/-- Sets a register of the guest. -/
def assign (guest : Guest C M) (reg : Reg) (value : Word) : Guest C M :=
  { guest with cpu := Cpu.setGpr guest.cpu reg value }

/-- Reads memory into the result register, or notes why it cannot be read. -/
def load (guest : Guest C M) (addr : Addr) : Guest C M :=
  match Memory.read guest.memory addr with
  | (.ok value, memory) => assign { guest with memory := memory } .v0 value
  | (.error e, memory) => { guest with memory := memory }.note s!"read failed: {e.message}"

/-- Writes memory, or notes why it cannot be written. -/
def store (guest : Guest C M) (addr : Addr) (value : Word) : Guest C M :=
  match Memory.write guest.memory addr value with
  | (.ok (), memory) => { guest with memory := memory }
  | (.error e, memory) => { guest with memory := memory }.note s!"write failed: {e.message}"

mutual

/-- Does one action. -/
def run : HostAction → HostBody (Guest C M)
  | .ret value, guest, work => return (assign guest .v0 value, work)
  | .retDouble value, guest, work =>
      return (assign (assign guest .v0 value.toUInt32) .v1 (value >>> 32).toUInt32, work)
  | .retArgument index, guest, work => return (assign guest .v0 (argument guest index), work)
  | .addArguments first second, guest, work =>
      return (assign guest .v0 (argument guest first + argument guest second), work)
  | .setGpr reg value, guest, work => return (assign guest reg value, work)
  | .setPc value, guest, work => return ({ guest with cpu := Cpu.setPc guest.cpu value }, work)
  | .read addr, guest, work => return (load guest addr, work)
  | .write addr value, guest, work => return (store guest addr value, work)
  | .reschedule reason, guest, work => do return (guest, ← work.reschedule reason)
  | .rescheduleWithCallbacks callbacks reason, guest, work => do
      return (guest, ← work.rescheduleWithCallbacks callbacks reason)
  | .request kind, guest, work => return (guest, work.request kind)
  | .clear, guest, work => return (guest, work.clear)
  | .note, guest, work => return (guest.note s!"note:{work.pending.bits}:{work.reason}", work)
  | .ifZero index actions, guest, work =>
      if argument guest index = 0 then body actions guest work else return (guest, work)

/-- The host function that does actions in order. -/
def body : List HostAction → HostBody (Guest C M)
  | [], guest, work => return (guest, work)
  | action :: rest, guest, work => do
      let (guest, work) ← run action guest work
      body rest guest work

end

end HostAction
end HostCalls
