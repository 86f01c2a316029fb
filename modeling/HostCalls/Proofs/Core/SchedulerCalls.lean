import HostCalls.Recorder
import HostCalls.Proofs.Core.Run

/-!
# What a run of dispatches asks of the scheduler

Requests are collected in a set and a reason that outlive the call which made them, yet each call
asks the scheduler for what its own body requested and for nothing else.

* `WorkRequest.schedulerSteps_congr`: of the requests of a body, the kinds behind the last `clear`
  count, as a set, and the reason that is given last.
* `scheduler_calls_of_body`: in every run, the scheduler is asked at each dispatch for the steps of
  that dispatch's requests, whatever the run was up to it.
-/

namespace HostCalls

namespace WorkRequest

/-- Whether requests that are not taken back ask for a kind of work. -/
def AskedFor (requests : List WorkRequest) (work : Work) : Prop :=
  ∃ request ∈ sinceClear requests, work ∈ request.kinds

theorem asked_iff {requests : List WorkRequest} {work : Work} :
    asked requests work = true ↔ AskedFor requests work := by
  unfold asked AskedFor
  rw [List.any_eq_true]
  exact exists_congr fun request => and_congr_right fun _ => List.contains_iff_mem

/-- Order and repetition of requests do not matter, apart from which reason is the last. -/
theorem schedulerSteps_congr (capacity : Nat) {requests other : List WorkRequest}
    (hKinds : ∀ work, work ≠ .debugBreak → (AskedFor requests work ↔ AskedFor other work))
    (hReason : lastReason? requests = lastReason? other) :
    schedulerSteps capacity requests = schedulerSteps capacity other := by
  unfold schedulerSteps
  rw [hReason]
  refine SchedulerStep.ofWork_congr _ fun work hWork => ?_
  rw [Bool.eq_iff_iff, asked_iff, asked_iff]
  exact hKinds work hWork

end WorkRequest

section Run

variable {G S D : Type} [Scheduler S] [DebugHost D] {config : Config}

/-- What holds of the scheduler when a run goes on with a dispatch. -/
structure SchedulerLaw (config : Config) (core : Core G) (d : Dispatch G (Env G S D))
    (event : CallEvent) : Prop where
  /-- The scheduler is asked for what the body requested, and for nothing else. -/
  scheduler_eq : (core.dispatch d).2.2.scheduler = SchedulerStep.performAll d.env.scheduler
    (WorkRequest.schedulerSteps config.reasonCapacity event.requests)
  nodup : (WorkRequest.schedulerSteps config.reasonCapacity event.requests).Nodup
  /-- Nothing else could have been asked for, had the same been requested in another run. -/
  unaffected : ∀ {events : List CallEvent} {other : Core G} {d' : Dispatch G (Env G S D)}
    {event' : CallEvent}, CallRun (Env G S D) config events other → d'.Comes other.work event' →
    d'.env.scheduler = d.env.scheduler →
    (∀ work, work ≠ .debugBreak →
      (WorkRequest.AskedFor event'.requests work ↔ WorkRequest.AskedFor event.requests work)) →
    WorkRequest.lastReason? event'.requests = WorkRequest.lastReason? event.requests →
    (other.dispatch d').2.2.scheduler = (core.dispatch d).2.2.scheduler
  reason_before : core.work.reason = ""
  reason_after : (core.dispatch d).2.1.work.reason = ""
  /-- A body that leaves nothing pending needs no finishing. -/
  finish_of_isEmpty : (d.workAfterBody core.work).isEmpty = true →
    ∀ (nid : Nid) (s : S) (debugger : D), (d.workAfterBody core.work).finish nid s debugger =
      pure ⟨.completed, d.workAfterBody core.work, s, debugger⟩

theorem envAfterBody_scheduler (d : Dispatch G (Env G S D)) (work : FollowUp) :
    (d.envAfterBody work).scheduler = d.env.scheduler := by
  unfold Dispatch.envAfterBody
  split <;> rfl

theorem scheduler_dispatch {events : List CallEvent} {core : Core G}
    (hRun : CallRun (Env G S D) config events core) {d : Dispatch G (Env G S D)}
    {event : CallEvent} (hEvent : d.Comes core.work event) :
    (core.dispatch d).2.2.scheduler = SchedulerStep.performAll d.env.scheduler
      (WorkRequest.schedulerSteps config.reasonCapacity event.requests) := by
  have hAsked : (SchedulerStep.performAll (d.envAfterBody core.work)
      (WorkRequest.schedulerSteps config.reasonCapacity event.requests)).scheduler =
        SchedulerStep.performAll d.env.scheduler
          (WorkRequest.schedulerSteps config.reasonCapacity event.requests) := by
    rw [SchedulerStep.performAll_env, envAfterBody_scheduler]
  rw [(dispatched_of_comes hRun.work_eq hEvent).env, ← hAsked]
  -- the debugger is another part of the surroundings
  dsimp only
  split <;> rfl

/-- In every run, each dispatch asks the scheduler for what its own body requested. -/
theorem scheduler_calls_of_body {events : List CallEvent} {core : Core G}
    (hRun : CallRun (Env G S D) config events core) (d : Dispatch G (Env G S D))
    (hBodies : d.registry.OnlyRequests) :
    (∃ event, d.Comes core.work event) ∧
      ∀ event, d.Comes core.work event → SchedulerLaw config core d event := by
  refine ⟨d.exists_comes core.work hBodies, fun event hEvent => ?_⟩
  have hReason : core.work.reason = "" := by rw [hRun.work_eq]; rfl
  refine {
    scheduler_eq := scheduler_dispatch hRun hEvent
    nodup := SchedulerStep.nodup_ofWork _ _
    unaffected := fun hOther hEvent' hScheduler hKinds hLast => ?_
    reason_before := hReason
    reason_after := ?_
    finish_of_isEmpty := fun hEmpty nid s debugger => ?_ }
  · rw [scheduler_dispatch hOther hEvent', scheduler_dispatch hRun hEvent, hScheduler,
      WorkRequest.schedulerSteps_congr _ hKinds hLast]
  · rw [(hRun.dispatch d hEvent).work_eq]
    rfl
  · have hTidy : (d.workAfterBody core.work).Tidy := by
      rw [hEvent.workAfterBody_eq]
      exact WorkRequest.tidy_performAll _ _ hReason
    unfold FollowUp.finish
    rw [FollowUp.finishOn_of_tidy nid hTidy hEmpty]
    rfl

end Run

/-- A function whose work is carried out while its break is held back, and one that takes back half
of its requests. -/
def askThenWithdraw : Registry Unit :=
  .ofRequests
    [(7, [.reschedule (some "early"), .runInterrupts, .debugBreak]),
      (8, [.runInterrupts, .reschedule (some "old"), .clear, .checkAllCallbacks,
        .rescheduleWithCallbacks true (some "first"), .checkCurrentCallbacks,
        .reschedule (some "second"), .checkAllCallbacks])] (by decide)

/-- Nothing of the first call reaches the scheduler in the second, and nothing that the second took
back. -/
theorem withdrawn_requests_stay_away :
    let config : Config := { Config.standard with breakBlacklist := [7] }
    let env : Env Unit SchedulerRecord DebugRecord := ⟨(), .start 0, .start⟩
    let call (op : Opcode) : Dispatch Unit (Env Unit SchedulerRecord DebugRecord) :=
      ⟨askThenWithdraw, op, env⟩
    let first := ((Core.fresh config).dispatch (call (.encode 0 0))).2.1
    let last := call (.encode 0 1)
    let event : CallEvent :=
      .ran 8 [.runInterrupts, .reschedule (some "old"), .clear, .checkAllCallbacks,
        .rescheduleWithCallbacks true (some "first"), .checkCurrentCallbacks,
        .reschedule (some "second"), .checkAllCallbacks]
    last.Comes first.work event ∧ SchedulerLaw config first last event ∧
      (first.dispatch last).2.2.scheduler.calls =
        [.forceCallbacks, .rescheduleWithCallbacks "second"] := by
  intro config env call first last event
  have hAsk : askThenWithdraw.resolve (.encode 0 0) =
      .ok ⟨"Sys", "call", 7,
        .ofRequests [.reschedule (some "early"), .runInterrupts, .debugBreak]⟩ := rfl
  have hWithdraw : askThenWithdraw.resolve (.encode 0 1) =
      .ok ⟨"Sys", "call", 8, .ofRequests event.requests⟩ := rfl
  have hFirst := (call (.encode 0 0)).comes_ofRequests hAsk (Core.fresh config : Core Unit).work
  have hLast : last.Comes first.work event := last.comes_ofRequests hWithdraw first.work
  have hRun := CallRun.fresh.dispatch _ hFirst
  have hBodies : askThenWithdraw.OnlyRequests := Registry.onlyRequests_ofRequests _ (by decide)
  have hLaw := (scheduler_calls_of_body hRun last hBodies).2 _ hLast
  refine ⟨hLast, hLaw, ?_⟩
  rw [hLaw.scheduler_eq]
  decide

end HostCalls
