import HostCalls.Error
import HostCalls.Word

/-!
# The collaborators of the core

The core works on a guest that it does not own: a register file, a memory, a thread scheduler and
a debugger. Each is a type of states with the operations below. An operation returns the state it
leaves behind, also where it fails, so a collaborator may fail at any access, count its accesses
or remember them.
-/

namespace HostCalls

/-- A register file. -/
class Cpu (C : Type) where
  gpr : C → Reg → Word
  setGpr : C → Reg → Word → C
  pc : C → Addr
  setPc : C → Addr → C

/-- The memory behind the guest's address space. -/
class Memory (M : Type) where
  read : M → Addr → Except Error Word × M
  write : M → Addr → Word → Except Error Unit × M

/-- The thread scheduler. -/
class Scheduler (S : Type) where
  /-- Runs the pending callbacks of the current thread. -/
  forceCallbacks : S → S
  /-- Runs one pending interrupt and tells whether there was one. -/
  runOneInterrupt : S → Bool × S
  /-- Picks the next thread. -/
  reschedule : String → S → S
  /-- Picks the next thread and processes the callbacks of every thread. -/
  rescheduleWithCallbacks : String → S → S
  /-- Processes the callbacks of every thread. -/
  checkCallbacks : S → S

/-- The debugger of the host. -/
class DebugHost (D : Type) where
  /-- Switches the core to single-stepping. -/
  enableStepping : D → D
  /-- Enters or leaves the display of the debugger. -/
  setDebugMode : Bool → D → D

/-- What a dispatched call runs against: the part of the guest that a host function may touch,
and the scheduler and debugger that it may not. -/
structure Env (G S D : Type) where
  guest : G
  scheduler : S
  debugger : D
deriving DecidableEq

/-- The surroundings of a call. Scheduler and debugger may be two things or one, and what they do may
be kept in one place. -/
class Surroundings (E : Type) (G : outParam Type) extends Scheduler E, DebugHost E where
  guest : E → G
  setGuest : E → G → E

instance {G S D : Type} [Scheduler S] [DebugHost D] : Surroundings (Env G S D) G where
  forceCallbacks env := { env with scheduler := Scheduler.forceCallbacks env.scheduler }
  runOneInterrupt env :=
    let (ran, scheduler) := Scheduler.runOneInterrupt env.scheduler
    (ran, { env with scheduler := scheduler })
  reschedule reason env := { env with scheduler := Scheduler.reschedule reason env.scheduler }
  rescheduleWithCallbacks reason env :=
    { env with scheduler := Scheduler.rescheduleWithCallbacks reason env.scheduler }
  checkCallbacks env := { env with scheduler := Scheduler.checkCallbacks env.scheduler }
  enableStepping env := { env with debugger := DebugHost.enableStepping env.debugger }
  setDebugMode enabled env := { env with debugger := DebugHost.setDebugMode enabled env.debugger }
  guest env := env.guest
  setGuest env guest := { env with guest := guest }

/-- The part of the guest that a host function may touch, together with a journal in which the
function may leave notes, oldest first. -/
structure Guest (C M : Type) where
  cpu : C
  memory : M
  journal : List String
deriving DecidableEq

namespace Guest

variable {C M : Type}

/-- Adds a note to the journal. -/
def note (guest : Guest C M) (text : String) : Guest C M :=
  { guest with journal := guest.journal ++ [text] }

end Guest
end HostCalls
