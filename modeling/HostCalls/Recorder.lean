import HostCalls.RunState
import HostCalls.Environment

/-!
# Recording collaborators

A scheduler and a debugger that do little more than remember, oldest first, what they were asked
to do. The scheduler has a number of pending interrupts; the debugger stops the core when it is
asked for stepping.
-/

namespace HostCalls

/-- A request to a scheduler. -/
inductive SchedulerCall
  | forceCallbacks
  /-- Run one interrupt, and whether there was one. -/
  | interrupt (ran : Bool)
  | reschedule (reason : String)
  | rescheduleWithCallbacks (reason : String)
  | checkCallbacks
deriving DecidableEq, Repr

/-- The text of a request to a scheduler. -/
def SchedulerCall.describe : SchedulerCall → String
  | forceCallbacks => "force_callbacks"
  | interrupt ran => s!"interrupt:{ran}"
  | reschedule reason => s!"reschedule:{reason}"
  | rescheduleWithCallbacks reason => s!"reschedule_with_callbacks:{reason}"
  | checkCallbacks => "check_callbacks"

/-- A scheduler that records what it is asked to do. -/
structure SchedulerRecord where
  calls : List SchedulerCall
  pendingInterrupts : Nat
deriving DecidableEq, Repr

namespace SchedulerRecord

/-- A scheduler that has been asked for nothing. -/
def start (pendingInterrupts : Nat) : SchedulerRecord := ⟨[], pendingInterrupts⟩

/-- Remembers a request. -/
def add (s : SchedulerRecord) (call : SchedulerCall) : SchedulerRecord :=
  { s with calls := s.calls ++ [call] }

/-- Forgets the requests. -/
def forget (s : SchedulerRecord) : SchedulerRecord :=
  { s with calls := [] }

instance : Scheduler SchedulerRecord where
  forceCallbacks s := s.add .forceCallbacks
  runOneInterrupt s :=
    let ran := decide (0 < s.pendingInterrupts)
    (ran, { s.add (.interrupt ran) with pendingInterrupts := s.pendingInterrupts - 1 })
  reschedule reason s := s.add (.reschedule reason)
  rescheduleWithCallbacks reason s := s.add (.rescheduleWithCallbacks reason)
  checkCallbacks s := s.add .checkCallbacks

end SchedulerRecord

/-- A request to a debugger. -/
inductive DebugCall
  | enableStepping
  | setDebugMode (enabled : Bool)
deriving DecidableEq, Repr

/-- The text of a request to a debugger. -/
def DebugCall.describe : DebugCall → String
  | enableStepping => "enable_stepping"
  | setDebugMode enabled => s!"set_debug_mode:{enabled}"

/-- A debugger that records what it is asked to do and holds the run state of the core. -/
structure DebugRecord where
  calls : List DebugCall
  coreState : RunState
  debugMode : Bool
deriving DecidableEq, Repr

namespace DebugRecord

/-- A debugger that has been asked for nothing, on a running core. -/
def start : DebugRecord := ⟨[], .running, false⟩

/-- Remembers a request. -/
def add (d : DebugRecord) (call : DebugCall) : DebugRecord :=
  { d with calls := d.calls ++ [call] }

/-- Forgets the requests. -/
def forget (d : DebugRecord) : DebugRecord :=
  { d with calls := [] }

instance : DebugHost DebugRecord where
  enableStepping d := { d.add .enableStepping with coreState := .stepping }
  setDebugMode enabled d := { d.add (.setDebugMode enabled) with debugMode := enabled }

end DebugRecord
end HostCalls
