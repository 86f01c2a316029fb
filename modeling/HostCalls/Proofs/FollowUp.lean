import HostCalls.FollowUp

/-!
# What finishing a call asks of the host

Finishing hands the pending work to the host step by step. What comes out is a list of requests to
the scheduler, perhaps followed by the debug break, and does not depend on what the host answers.

* `SchedulerStep.ofWork` is the list of requests for a set of work, in the order in which they are
  made.
* `value_finishOn`: finishing makes these requests and no others, then decides on the debug break,
  and leaves nothing pending but a break that was held back.
* `finishOn_of_tidy`: if nothing is pending and no reason is left, finishing changes nothing.
-/

namespace HostCalls

/-- Something that the scheduler is asked to do after a call. -/
inductive SchedulerStep
  | forceCallbacks
  | runOneInterrupt
  | rescheduleWithCallbacks (reason : String)
  | reschedule (reason : String)
  | checkCallbacks
deriving DecidableEq, Repr

namespace SchedulerStep

/-- The requests for a set of work; a reschedule takes care of the callbacks of all threads. -/
def ofWork (asked : Work → Bool) (reason : String) : List SchedulerStep :=
  (if asked .currentCallbacks then [forceCallbacks] else [])
    ++ (if asked .runInterrupts then [runOneInterrupt] else [])
    ++ (if asked .rescheduleCallbacks then [rescheduleWithCallbacks reason]
      else if asked .reschedule then [reschedule reason]
      else if asked .allCallbacks then [checkCallbacks]
      else [])

/-- The debug break is no matter of the scheduler. -/
theorem ofWork_congr {asked other : Work → Bool} (reason : String)
    (h : ∀ work, work ≠ .debugBreak → asked work = other work) :
    ofWork asked reason = ofWork other reason := by
  unfold ofWork
  rw [h .currentCallbacks nofun, h .runInterrupts nofun, h .rescheduleCallbacks nofun,
    h .reschedule nofun, h .allCallbacks nofun]

/-- No request is made twice. -/
theorem nodup_ofWork (asked : Work → Bool) (reason : String) : (ofWork asked reason).Nodup := by
  unfold ofWork
  -- only five kinds of work matter, whatever else is asked
  generalize asked .currentCallbacks = current, asked .runInterrupts = interrupts,
    asked .rescheduleCallbacks = withCallbacks, asked .reschedule = plain,
    asked .allCallbacks = all
  cases current <;> cases interrupts <;> cases withCallbacks <;> cases plain <;> cases all <;> simp

section Perform

variable {H : Type} [Scheduler H]

/-- Makes a request. -/
def perform (host : H) : SchedulerStep → H
  | forceCallbacks => Scheduler.forceCallbacks host
  | runOneInterrupt => (Scheduler.runOneInterrupt host).2
  | rescheduleWithCallbacks reason => Scheduler.rescheduleWithCallbacks reason host
  | reschedule reason => Scheduler.reschedule reason host
  | checkCallbacks => Scheduler.checkCallbacks host

/-- Makes requests one after the other. -/
def performAll (host : H) (steps : List SchedulerStep) : H :=
  steps.foldl perform host

end Perform

section Env

variable {G S D : Type} [Scheduler S] [DebugHost D]

theorem perform_env (env : Env G S D) (step : SchedulerStep) :
    step.perform env = { env with scheduler := step.perform env.scheduler } := by
  cases step <;> rfl

/-- Of the surroundings of a call, only the scheduler is asked. -/
theorem performAll_env (env : Env G S D) (steps : List SchedulerStep) :
    performAll env steps = { env with scheduler := performAll env.scheduler steps } := by
  induction steps generalizing env with
  | nil => rfl
  | cons step rest ih =>
      show performAll (step.perform env) rest = _
      rw [perform_env, ih]
      rfl

end Env

end SchedulerStep

/-- Switches a host to stepping and to the display of the debugger. -/
def DebugHost.enter {H : Type} [DebugHost H] (host : H) : H :=
  DebugHost.setDebugMode true (DebugHost.enableStepping host)

namespace FollowUpStep

/-- The request that a step makes of the scheduler. -/
def schedulerStep? (reason : String) : FollowUpStep → Option SchedulerStep
  | deliverCurrentCallbacks => some .forceCallbacks
  | runOneInterrupt => some .runOneInterrupt
  | rescheduleWithCallbacks => some (.rescheduleWithCallbacks reason)
  | reschedule => some (.reschedule reason)
  | checkAllCallbacks => some .checkCallbacks
  | debugBreak => none

end FollowUpStep

namespace Pending

/-- The steps before the debug break. -/
def schedulerPlan (p : Pending) : List FollowUpStep :=
  (if p.currentCallbacks then [.deliverCurrentCallbacks] else [])
    ++ (if p.runInterrupts then [.runOneInterrupt] else [])
    ++ p.reschedulePlan

theorem plan_eq (p : Pending) :
    p.plan = p.schedulerPlan ++ if p.has .debugBreak then [.debugBreak] else [] := rfl

theorem map_schedulerPlan (p : Pending) (reason : String) :
    p.schedulerPlan.map (·.schedulerStep? reason) =
      (SchedulerStep.ofWork p.has reason).map some := by
  obtain ⟨plain, current, all, withCallbacks, interrupts, _⟩ := p
  cases current <;> cases interrupts <;> cases withCallbacks <;> cases plain <;> cases all <;> rfl

end Pending

namespace FollowUp

/-- The requests that the pending work makes of the scheduler. -/
def schedulerSteps (p : FollowUp) : List SchedulerStep :=
  SchedulerStep.ofWork p.pending.has p.reason

section Finish

variable {H : Type} [Scheduler H] [DebugHost H] (p : FollowUp) (nid : Nid)

theorem value_perform_cons {step : FollowUpStep} {asked : SchedulerStep}
    (h : step.schedulerStep? p.reason = some asked) (rest : List FollowUpStep)
    (outcome : FollowUpOutcome) (host : H) :
    (p.perform nid (step :: rest) outcome host).value =
      (p.perform nid rest outcome (asked.perform host)).value := by
  cases step <;> cases h
  case runOneInterrupt =>
    rw [perform]
    dsimp only
    split <;> rfl
  all_goals rfl

/-- Steps for the scheduler are handed to it, whatever comes behind them. -/
theorem value_perform_append {steps : List FollowUpStep} {asked : List SchedulerStep}
    (h : steps.map (·.schedulerStep? p.reason) = asked.map some) (rest : List FollowUpStep)
    (outcome : FollowUpOutcome) (host : H) :
    (p.perform nid (steps ++ rest) outcome host).value =
      (p.perform nid rest outcome (SchedulerStep.performAll host asked)).value := by
  induction steps generalizing asked host with
  | nil =>
      cases asked with
      | nil => rfl
      | cons _ _ => cases h
  | cons step steps ih =>
      cases asked with
      | nil => cases h
      | cons first asked =>
          rw [List.map_cons, List.map_cons, List.cons.injEq] at h
          rw [List.cons_append, value_perform_cons p nid h.1, ih h.2]
          rfl

/-- Finishing makes the requests of the pending work and then decides on the debug break. -/
theorem value_finishOn (host : H) :
    (p.finishOn nid host).value =
      if p.pending.has .debugBreak then
        if p.blacklist.contains nid then
          (.breakDeferred, { p with pending := .onlyDebugBreak, reason := "" },
            SchedulerStep.performAll host p.schedulerSteps)
        else
          (.breakEntered, p.clear,
            DebugHost.enter (SchedulerStep.performAll host p.schedulerSteps))
      else (.completed, p.clear, SchedulerStep.performAll host p.schedulerSteps) := by
  unfold finishOn
  rw [Pending.plan_eq, value_perform_append p nid (Pending.map_schedulerPlan _ _)]
  split
  · rw [perform]
    split
    · rfl
    · rw [perform]
      rfl
  · rw [perform]
    rfl

/-- Finishing is no matter of the guest. -/
theorem finishOn_guest {G S D : Type} [Scheduler S] [DebugHost D] (env : Env G S D) :
    (p.finishOn nid env).value.2.2.guest = env.guest := by
  rw [value_finishOn, SchedulerStep.performAll_env]
  split
  · split <;> rfl
  · rfl

/-- A state in which no reason is left behind when nothing is pending. -/
def Tidy : Prop :=
  p.isEmpty = true → p.reason = ""

variable {p}

theorem clear_of_tidy (hTidy : p.Tidy) (hEmpty : p.isEmpty = true) : p.clear = p := by
  have hPending : p.pending = .none := Pending.isEmpty_iff.mp hEmpty
  have hReason : p.reason = "" := hTidy hEmpty
  cases p
  cases hPending
  cases hReason
  rfl

/-- Finishing changes nothing if nothing is pending. -/
theorem finishOn_of_tidy (hTidy : p.Tidy) (hEmpty : p.isEmpty = true) (host : H) :
    p.finishOn nid host = pure (.completed, p, host) := by
  rw [finishOn_of_isEmpty hEmpty, clear_of_tidy hTidy hEmpty]

end Finish
end FollowUp
end HostCalls
