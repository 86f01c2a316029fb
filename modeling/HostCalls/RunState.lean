/-!
# The run state of the core
-/

namespace HostCalls

/-- What the core of the guest is doing. -/
inductive RunState
  /-- Guest code runs freely. -/
  | running
  /-- A frame boundary was reached and the host loop takes over. -/
  | nextFrame
  /-- The core is single-stepped by a debugger. -/
  | stepping
  /-- The guest faulted beyond recovery. -/
  | error
  /-- The core is shutting down. -/
  | powerDown
deriving DecidableEq, Repr, Inhabited

namespace RunState

/-- Every run state. -/
def all : List RunState := [running, nextFrame, stepping, error, powerDown]

/-- Whether the dispatch loop goes on in this state. -/
def isRunning : RunState → Bool
  | running => true
  | _ => false

/-- The name shown for a state. -/
def name : RunState → String
  | running => "running"
  | nextFrame => "next-frame"
  | stepping => "stepping"
  | error => "error"
  | powerDown => "power-down"

theorem isRunning_iff {state : RunState} : state.isRunning = true ↔ state = running := by
  cases state <;> simp [isRunning]

end RunState
end HostCalls
