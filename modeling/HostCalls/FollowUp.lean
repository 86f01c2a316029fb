import HostCalls.Config
import HostCalls.Environment
import HostCalls.Hex
import HostCalls.Log
import HostCalls.FollowUp.Pending
import HostCalls.Text.Cut

/-!
# Carrying out pending work

`FollowUp` holds the pending work of the running call together with the reason of the latest
reschedule request, which is cut to the configured capacity. `FollowUp.finish` carries the work
out once the call has returned. A debug break is held back during a blacklisted call and stays
pending until the next call that is not blacklisted; everything else is done or forgotten.
-/

namespace HostCalls

/-- The pending work of a core. -/
structure FollowUp where
  pending : Pending
  reason : String
  /-- Room for the reason, its terminator included. -/
  capacity : Nat
  /-- The functions whose calls never let a debug break through. -/
  blacklist : List Nid
deriving DecidableEq, Repr

/-- How the work after a call ended. -/
inductive FollowUpOutcome
  /-- Everything was carried out. -/
  | completed
  /-- The call is blacklisted and the debug break stays pending. -/
  | breakDeferred
  /-- The core was switched to stepping. -/
  | breakEntered
deriving DecidableEq, Repr

/-- What carrying out the pending work leaves behind. -/
structure Finished (S D : Type) where
  outcome : FollowUpOutcome
  work : FollowUp
  scheduler : S
  debugger : D

namespace FollowUp

/-- Nothing is pending. -/
def ofConfig (config : Config) : FollowUp where
  pending := .none
  reason := ""
  capacity := config.reasonCapacity
  blacklist := config.breakBlacklist

/-- Nothing is pending, and room for a reason of the greatest size is set aside. -/
def alloc (config : Config) : Except CapacityFault FollowUp := do
  reserve config.reasonCapacity
  return ofConfig config

/-- Stored where a request to reschedule gives no reason. -/
def missingReason : String := "Invalid reason"

/-- The greatest size of a stored reason. -/
def reasonLimit (p : FollowUp) : Nat :=
  p.capacity - 1

/-- Whether nothing is pending. -/
def isEmpty (p : FollowUp) : Bool :=
  p.pending.isEmpty

/-- Requests work of one kind. -/
def request (work : Work) (p : FollowUp) : FollowUp :=
  { p with pending := p.pending.add work }

/-- Forgets everything pending. -/
def clear (p : FollowUp) : FollowUp :=
  { p with pending := .none, reason := "" }

/-- Stores the reason as far as there is room for it. -/
def storeReason (reason : String) (p : FollowUp) : Logged FollowUp :=
  if p.reasonLimit < reason.utf8ByteSize then do
    Log.warn s!"reschedule reason of {reason.utf8ByteSize} bytes truncated to {p.reasonLimit}"
    return { p with reason := Text.cut reason p.reasonLimit }
  else
    return { p with reason := reason }

/-- Requests a reschedule. A reason ought to be given; if it is not, that is reported. -/
def reschedule (reason : Option String) (p : FollowUp) : Logged FollowUp := do
  if reason.isNone then
    Log.error "reschedule: expecting a valid reason"
  (p.request .reschedule).storeReason (reason.getD missingReason)

/-- Requests a reschedule which, if so wished, processes the callbacks of all threads. -/
def rescheduleWithCallbacks (callbacks : Bool) (reason : Option String) (p : FollowUp) :
    Logged FollowUp := do
  let p ← p.reschedule reason
  return if callbacks then p.request .rescheduleCallbacks else p

section Finish

variable {H : Type} [Scheduler H] [DebugHost H]

/-- Carries out steps after the call of `nid`; `outcome` is what the steps before led to. -/
def perform (p : FollowUp) (nid : Nid) :
    List FollowUpStep → FollowUpOutcome → H → Logged (FollowUpOutcome × FollowUp × H)
  | [], outcome, host => pure (outcome, p.clear, host)
  | .deliverCurrentCallbacks :: steps, outcome, host =>
      perform p nid steps outcome (Scheduler.forceCallbacks host)
  | .runOneInterrupt :: steps, outcome, host => do
      let (ran, host) := Scheduler.runOneInterrupt host
      unless ran do
        Log.trace "run interrupts requested with none pending"
      perform p nid steps outcome host
  | .rescheduleWithCallbacks :: steps, outcome, host =>
      perform p nid steps outcome (Scheduler.rescheduleWithCallbacks p.reason host)
  | .reschedule :: steps, outcome, host =>
      perform p nid steps outcome (Scheduler.reschedule p.reason host)
  | .checkAllCallbacks :: steps, outcome, host =>
      perform p nid steps outcome (Scheduler.checkCallbacks host)
  | .debugBreak :: steps, _, host =>
      if p.blacklist.contains nid then do
        Log.debug s!"debug break deferred past {Hex.word nid}"
        return (.breakDeferred, { p with pending := .onlyDebugBreak, reason := "" }, host)
      else
        perform p nid steps .breakEntered
          (DebugHost.setDebugMode true (DebugHost.enableStepping host))

/-- Carries out the pending work after the call of `nid` on a host that is both scheduler and
debugger. -/
def finishOn (p : FollowUp) (nid : Nid) (host : H) : Logged (FollowUpOutcome × FollowUp × H) :=
  p.perform nid p.pending.plan .completed host

/-- Without pending work, finishing only forgets the reason. -/
theorem finishOn_of_isEmpty {p : FollowUp} (h : p.isEmpty = true) (nid : Nid) (host : H) :
    p.finishOn nid host = pure (.completed, p.clear, host) := by
  have hNone : p.pending = .none := Pending.isEmpty_iff.mp h
  simp [finishOn, hNone, perform]

end Finish

/-- Carries out the pending work after the call of `nid` on a scheduler and a debugger. -/
def finish {S D : Type} [Scheduler S] [DebugHost D] (p : FollowUp) (nid : Nid) (s : S) (d : D) :
    Logged (Finished S D) := do
  let (outcome, work, host) ← p.finishOn nid (⟨(), s, d⟩ : Env Unit S D)
  return ⟨outcome, work, host.scheduler, host.debugger⟩

end FollowUp
end HostCalls
