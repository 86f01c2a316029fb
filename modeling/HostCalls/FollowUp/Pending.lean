/-!
# Work pending after a call

A host function does not reschedule, deliver callbacks or enter the debugger itself. It requests
such work, and the requests of one call form a set, `Pending`. Once the call has returned,
`Pending.plan` puts the set into the order in which it is carried out:

1. the callbacks of the current thread,
2. one pending interrupt,
3. a reschedule with callbacks, else a plain reschedule, else the callbacks of all threads,
4. the debug break.

Interrupts run before the decision to reschedule because an interrupt handler may itself ask for
it, and a reschedule takes care of the callbacks of all threads.
-/

namespace HostCalls

/-- A kind of work that a host function may request. -/
inductive Work
  | reschedule
  | currentCallbacks
  | allCallbacks
  | rescheduleCallbacks
  | runInterrupts
  /-- Switch the core to stepping. -/
  | debugBreak
deriving DecidableEq, Repr

namespace Work

/-- All kinds of work. -/
def all : List Work :=
  [reschedule, currentCallbacks, allCallbacks, rescheduleCallbacks, runInterrupts, debugBreak]

/-- The name of a kind of work. -/
def name : Work → String
  | reschedule => "RESCHED"
  | currentCallbacks => "CURRENT_CALLBACKS"
  | allCallbacks => "ALL_CALLBACKS"
  | rescheduleCallbacks => "RESCHED_CALLBACKS"
  | runInterrupts => "RUN_INTERRUPTS"
  | debugBreak => "DEBUG_BREAK"

/-- The number that stands for a kind of work in the sum that stands for a set. -/
def weight : Work → Nat
  | reschedule => 1
  | currentCallbacks => 2
  | allCallbacks => 4
  | rescheduleCallbacks => 8
  | runInterrupts => 16
  | debugBreak => 32

end Work

/-- A set of requested work. -/
structure Pending where
  reschedule : Bool
  currentCallbacks : Bool
  allCallbacks : Bool
  rescheduleCallbacks : Bool
  runInterrupts : Bool
  debugBreak : Bool
deriving DecidableEq, Repr

/-- One step of the work after a call. -/
inductive FollowUpStep
  | deliverCurrentCallbacks
  | runOneInterrupt
  | rescheduleWithCallbacks
  | reschedule
  | checkAllCallbacks
  /-- Enter the debugger, unless the call is blacklisted. -/
  | debugBreak
deriving DecidableEq, Repr

/-- The name of a step. -/
def FollowUpStep.name : FollowUpStep → String
  | deliverCurrentCallbacks => "deliver_current_callbacks"
  | runOneInterrupt => "run_one_interrupt"
  | rescheduleWithCallbacks => "reschedule_with_callbacks"
  | reschedule => "reschedule"
  | checkAllCallbacks => "check_all_callbacks"
  | debugBreak => "debug_break"

namespace Pending

/-- Nothing is pending. -/
def none : Pending := ⟨false, false, false, false, false, false⟩

/-- Only the debug break is pending. -/
def onlyDebugBreak : Pending := { none with debugBreak := true }

/-- Whether a kind of work is pending. -/
def has (p : Pending) : Work → Bool
  | .reschedule => p.reschedule
  | .currentCallbacks => p.currentCallbacks
  | .allCallbacks => p.allCallbacks
  | .rescheduleCallbacks => p.rescheduleCallbacks
  | .runInterrupts => p.runInterrupts
  | .debugBreak => p.debugBreak

/-- Requests a kind of work. -/
def add (p : Pending) : Work → Pending
  | .reschedule => { p with reschedule := true }
  | .currentCallbacks => { p with currentCallbacks := true }
  | .allCallbacks => { p with allCallbacks := true }
  | .rescheduleCallbacks => { p with rescheduleCallbacks := true }
  | .runInterrupts => { p with runInterrupts := true }
  | .debugBreak => { p with debugBreak := true }

/-- The pending kinds of work. -/
def toList (p : Pending) : List Work :=
  Work.all.filter p.has

/-- Whether nothing is pending. -/
def isEmpty (p : Pending) : Bool :=
  p == none

/-- The sum that stands for a set. -/
def bits (p : Pending) : Nat :=
  (p.toList.map Work.weight).foldr (· + ·) 0

/-- The set that a number stands for; what stands for no kind of work is ignored. -/
def ofBits (n : Nat) : Pending where
  reschedule := n / Work.weight .reschedule % 2 == 1
  currentCallbacks := n / Work.weight .currentCallbacks % 2 == 1
  allCallbacks := n / Work.weight .allCallbacks % 2 == 1
  rescheduleCallbacks := n / Work.weight .rescheduleCallbacks % 2 == 1
  runInterrupts := n / Work.weight .runInterrupts % 2 == 1
  debugBreak := n / Work.weight .debugBreak % 2 == 1

/-- The decision whether and how to reschedule. -/
def reschedulePlan (p : Pending) : List FollowUpStep :=
  if p.rescheduleCallbacks then [.rescheduleWithCallbacks]
  else if p.reschedule then [.reschedule]
  else if p.allCallbacks then [.checkAllCallbacks]
  else []

/-- The pending work in the order in which it is carried out. -/
def plan (p : Pending) : List FollowUpStep :=
  (if p.currentCallbacks then [.deliverCurrentCallbacks] else [])
    ++ (if p.runInterrupts then [.runOneInterrupt] else [])
    ++ p.reschedulePlan
    ++ (if p.debugBreak then [.debugBreak] else [])

@[simp] theorem has_none (work : Work) : none.has work = false := by
  cases work <;> rfl

theorem has_add (p : Pending) (work other : Work) :
    (p.add work).has other = (p.has other || work == other) := by
  cases work <;> cases other <;> simp [add, has]

/-- Sets with the same members are equal. -/
theorem ext_has {p q : Pending} (h : ∀ work, p.has work = q.has work) : p = q := by
  have h1 := h .reschedule
  have h2 := h .currentCallbacks
  have h3 := h .allCallbacks
  have h4 := h .rescheduleCallbacks
  have h5 := h .runInterrupts
  have h6 := h .debugBreak
  cases p
  cases q
  simp_all [has]

theorem isEmpty_iff {p : Pending} : p.isEmpty = true ↔ p = none := by
  simp [isEmpty]

/-- Each set is read back from its sum. -/
theorem ofBits_bits (p : Pending) : ofBits p.bits = p := by
  obtain ⟨a, b, c, d, e, f⟩ := p
  revert a b c d e f
  decide

/-- Nothing pending means nothing to do. -/
@[simp] theorem plan_none : none.plan = [] := rfl

end Pending
end HostCalls
