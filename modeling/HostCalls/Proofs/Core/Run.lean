import HostCalls.Proofs.Core.Call
import HostCalls.Proofs.FollowUp.Request
import HostCalls.Proofs.Registry

/-!
# Runs of dispatches

A run dispatches opcodes one after the other on one core that starts out fresh. Modules may be
registered on the way, and what a dispatch runs against is its own affair.

* `CallEvent` is what became of a dispatch: it failed, or it ran a body that made requests.
  `Dispatch.Comes` ties an event to a dispatch, and `Dispatch.exists_comes` says that there is one
  for every dispatch as long as bodies change the pending work by requests only.
* `Dispatched` says everything that a dispatch does with the pending work, as far as it depends on
  its event and on whether the debug break was pending before; `dispatched_of_comes` proves it.
* `exists_callRun`: whatever such bodies are dispatched, there is a run.
* `CallRun.work_eq`: between the dispatches of a run, nothing but the debug break is pending.
-/

namespace HostCalls

/-- Whether a body changes the pending work by requests only. Which ones it makes may depend on the
guest and on the pending work. -/
def HostBody.OnlyRequests {G : Type} (body : HostBody G) : Prop :=
  ∀ guest work, ∃ requests, (body guest work).value.2 = WorkRequest.performAll work requests

/-- The body that makes requests and does nothing else. -/
def HostBody.ofRequests {G : Type} (requests : List WorkRequest) : HostBody G :=
  fun guest work => pure (guest, WorkRequest.performAll work requests)

theorem HostBody.onlyRequests_ofRequests {G : Type} (requests : List WorkRequest) :
    (ofRequests requests : HostBody G).OnlyRequests :=
  fun _ _ => ⟨requests, rfl⟩

namespace Registry

variable {G : Type} {r : Registry G}

/-- Whether all registered bodies change the pending work by requests only. -/
def OnlyRequests (r : Registry G) : Prop :=
  ∀ m ∈ r.modules, ∀ f ∈ m.functions, ∀ body, f.body = some body → body.OnlyRequests

/-- A dispatched body is the body of a registered function. -/
theorem exists_function_of_resolve {op : Opcode} {callee : Callee G}
    (h : r.resolve op = .ok callee) :
    ∃ m ∈ r.modules, ∃ f ∈ m.functions, f.nid = callee.nid ∧ f.body = some callee.body := by
  obtain ⟨f, hFunction, hNid, hBody⟩ := exists_functionAt?_of_resolve h
  obtain ⟨m, hModule, hAt⟩ := Option.bind_eq_some_iff.mp hFunction
  exact ⟨m, List.mem_of_getElem? hModule, f, List.mem_of_getElem? hAt, hNid, hBody⟩

/-- One module, each function of which makes the same requests in every call. -/
def ofRequests (functions : List (Nid × List WorkRequest))
    (h : functions.length ≤ Opcode.maxFunctions) : Registry G where
  modules := [⟨"Sys", functions.map fun f => ⟨f.1, "call", some (.ofRequests f.2)⟩,
    (List.length_map _).symm ▸ h⟩]
  length_le := Nat.le_add_left 1 255

theorem onlyRequests_ofRequests (functions : List (Nid × List WorkRequest))
    (h : functions.length ≤ Opcode.maxFunctions) :
    (ofRequests functions h : Registry G).OnlyRequests := by
  intro m hModule f hFunction body hBody
  rw [List.mem_singleton.mp hModule] at hFunction
  obtain ⟨g, -, rfl⟩ := List.mem_map.mp hFunction
  cases hBody
  exact HostBody.onlyRequests_ofRequests g.2

end Registry

/-- A dispatch of a run: the modules that are registered at the time, the opcode, and what it runs
against. -/
structure Dispatch (G E : Type) where
  registry : Registry G
  op : Opcode
  env : E

/-- What became of a dispatch. -/
inductive CallEvent
  | failed (failure : CallFailure)
  /-- The body of function `nid` ran and made requests. -/
  | ran (nid : Nid) (requests : List WorkRequest)
deriving DecidableEq

namespace CallEvent

/-- The requests that were made. -/
def requests : CallEvent → List WorkRequest
  | failed _ => []
  | ran _ requests => requests

/-- Whether a debug break may come through: a body ran, and its function is not blacklisted. -/
def eligible (blacklist : List Nid) : CallEvent → Bool
  | failed _ => false
  | ran nid _ => !blacklist.contains nid

section Break

variable (blacklist : List Nid) (armed : Bool) (event : CallEvent)

/-- Whether the debug break is pending once the body has run, if one knows whether it was before. -/
def arms : Bool :=
  event.requests.foldl WorkRequest.arms armed

/-- Whether the debug break comes through. -/
def fires : Bool :=
  event.arms armed && event.eligible blacklist

/-- Whether the debug break is pending afterwards. -/
def defers : Bool :=
  event.arms armed && !event.eligible blacklist

/-- How the dispatch ends. -/
def outcome : CallEvent → CallOutcome
  | failed failure => failure.outcome
  | ran nid requests => .called <|
      if (ran nid requests).fires blacklist armed then .breakEntered
      else if (ran nid requests).defers blacklist armed then .breakDeferred
      else .completed

theorem fires_ran (nid : Nid) (requests : List WorkRequest) :
    (ran nid requests).fires blacklist armed =
      (requests.foldl WorkRequest.arms armed && !blacklist.contains nid) := rfl

theorem defers_ran (nid : Nid) (requests : List WorkRequest) :
    (ran nid requests).defers blacklist armed =
      (requests.foldl WorkRequest.arms armed && blacklist.contains nid) := by
  unfold defers eligible
  rw [Bool.not_not]
  rfl

theorem outcome_ran (nid : Nid) (requests : List WorkRequest) :
    (ran nid requests).outcome blacklist armed = .called
      (if (ran nid requests).fires blacklist armed then .breakEntered
        else if (ran nid requests).defers blacklist armed then .breakDeferred
        else .completed) := rfl

theorem fires_failed (failure : CallFailure) : (failed failure).fires blacklist armed = false :=
  Bool.and_false _

/-- A dispatch that runs no body leaves the debug break as it is. -/
theorem defers_failed (failure : CallFailure) : (failed failure).defers blacklist armed = armed :=
  Bool.and_true _

end Break

end CallEvent

/-- Finishing a call whose body found nothing pending but the debug break. -/
theorem WorkRequest.value_finishOn {H : Type} [Scheduler H] [DebugHost H] (config : Config)
    (armed : Bool) (nid : Nid) (requests : List WorkRequest) (host : H) :
    ((performAll (.standing config armed) requests).finishOn nid host).value =
      let fires := (CallEvent.ran nid requests).fires config.breakBlacklist armed
      let defers := (CallEvent.ran nid requests).defers config.breakBlacklist armed
      let asked := SchedulerStep.performAll host (schedulerSteps config.reasonCapacity requests)
      (if fires then .breakEntered else if defers then .breakDeferred else .completed,
        .standing config defers,
        if fires then DebugHost.enter asked else asked) := by
  have hSettings := settings_performAll (.standing config armed) requests
  have hClear : (performAll (.standing config armed) requests).clear = .standing config false :=
    FollowUp.eq_standing hSettings rfl rfl
  have hDefer : { performAll (.standing config armed) requests with
      pending := .onlyDebugBreak, reason := "" } = FollowUp.standing config true :=
    FollowUp.eq_standing hSettings rfl rfl
  have hBlacklist : (performAll (.standing config armed) requests).blacklist =
      config.breakBlacklist := hSettings.2
  rw [FollowUp.value_finishOn, hDefer, hClear, hBlacklist, has_debugBreak_performAll_standing,
    schedulerSteps_performAll, CallEvent.fires_ran, CallEvent.defers_ran]
  cases requests.foldl arms armed with
  | false => rfl
  | true => cases config.breakBlacklist.contains nid <;> rfl

section Dispatch

variable {G E : Type} [Surroundings E G]

namespace Dispatch

/-- Everything that can become of a dispatch when `work` is pending. -/
inductive Comes (d : Dispatch G E) (work : FollowUp) : CallEvent → Prop
  | failed {failure : CallFailure} (h : d.registry.resolve d.op = .error failure) :
      Comes d work (.failed failure)
  | ran {callee : Callee G} {requests : List WorkRequest} (h : d.registry.resolve d.op = .ok callee)
      (hRequests : (callee.body (Surroundings.guest d.env) work).value.2 =
        WorkRequest.performAll work requests) :
      Comes d work (.ran callee.nid requests)

/-- What a dispatch runs against after its body, if it runs one. -/
def envAfterBody (d : Dispatch G E) (work : FollowUp) : E :=
  match d.registry.resolve d.op with
  | .ok callee =>
      Surroundings.setGuest d.env (callee.body (Surroundings.guest d.env) work).value.1
  | .error _ => d.env

/-- The pending work after the body of a dispatch, if it runs one. -/
def workAfterBody (d : Dispatch G E) (work : FollowUp) : FollowUp :=
  match d.registry.resolve d.op with
  | .ok callee => (callee.body (Surroundings.guest d.env) work).value.2
  | .error _ => work

theorem exists_comes (d : Dispatch G E) (work : FollowUp) (hBodies : d.registry.OnlyRequests) :
    ∃ event, d.Comes work event := by
  cases hResolve : d.registry.resolve d.op with
  | error failure => exact ⟨_, .failed hResolve⟩
  | ok callee =>
      obtain ⟨m, hModule, f, hFunction, -, hBody⟩ :=
        Registry.exists_function_of_resolve hResolve
      obtain ⟨requests, hRequests⟩ :=
        hBodies m hModule f hFunction _ hBody (Surroundings.guest d.env) work
      exact ⟨_, .ran hResolve hRequests⟩

theorem comes_ofRequests {d : Dispatch G E} {moduleName functionName : String} {nid : Nid}
    {requests : List WorkRequest}
    (h : d.registry.resolve d.op = .ok ⟨moduleName, functionName, nid, .ofRequests requests⟩)
    (work : FollowUp) : d.Comes work (.ran nid requests) :=
  .ran h rfl

theorem Comes.workAfterBody_eq {d : Dispatch G E} {work : FollowUp} {event : CallEvent}
    (h : d.Comes work event) :
    d.workAfterBody work = WorkRequest.performAll work event.requests := by
  unfold workAfterBody
  cases h with
  | failed hResolve =>
      rw [hResolve]
      rfl
  | ran hResolve hRequests =>
      rw [hResolve]
      exact hRequests

end Dispatch

namespace Core

/-- What a dispatch leads to. -/
def dispatch (core : Core G) (d : Dispatch G E) : CallOutcome × Core G × E :=
  (({ core with registry := d.registry } : Core G).call d.op d.env).value

theorem value_finishCall {core : Core G} (hTidy : core.work.Tidy) (nid : Nid) (env : E) :
    (core.finishCall nid env).value =
      let done := (core.work.finishOn nid env).value
      (.called done.1,
        { core with
          work := done.2.1
          stats := if done.1 = .breakEntered then core.stats.countBreak else core.stats },
        done.2.2) := by
  unfold finishCall
  split
  · rename_i hEmpty
    rw [FollowUp.finishOn_of_tidy nid hTidy hEmpty env]
    rfl
  · rfl

end Core

/-- What a dispatch does with the pending work, if before it nothing was pending but the debug break,
and that only if `armed`. -/
structure Dispatched (config : Config) (armed : Bool) (core : Core G) (d : Dispatch G E)
    (event : CallEvent) : Prop where
  outcome : (core.dispatch d).1 = event.outcome config.breakBlacklist armed
  work : (core.dispatch d).2.1.work =
    .standing config (event.defers config.breakBlacklist armed)
  breaks : (core.dispatch d).2.1.stats.breaks =
    core.stats.breaks + (event.fires config.breakBlacklist armed).toNat
  /-- The scheduler is asked first, and the debugger last if at all. -/
  env : (core.dispatch d).2.2 =
    let asked := SchedulerStep.performAll (d.envAfterBody core.work)
      (WorkRequest.schedulerSteps config.reasonCapacity event.requests)
    if event.fires config.breakBlacklist armed then DebugHost.enter asked else asked

variable {config : Config} {armed : Bool} {core : Core G} {d : Dispatch G E} {event : CallEvent}

theorem dispatched_of_comes (hWork : core.work = .standing config armed)
    (hEvent : d.Comes core.work event) : Dispatched config armed core d event := by
  cases hEvent with
  | failed hResolve =>
      -- nothing ran, so nothing was requested and nothing is carried out
      have hValue : core.dispatch d = _ := Core.value_call_of_error hResolve
      have hEnv : d.envAfterBody core.work = d.env := by
        unfold Dispatch.envAfterBody
        rw [hResolve]
      refine ⟨by rw [hValue]; rfl, ?_, ?_, ?_⟩
      · rw [hValue, CallEvent.defers_failed]
        exact hWork
      · rw [hValue, CallEvent.fires_failed]
        rfl
      · rw [hValue, hEnv, CallEvent.fires_failed]
        rfl
  | @ran callee requests hResolve hRequests =>
      have hValue : core.dispatch d = _ := Core.value_call_of_ok hResolve
      have hEnv : d.envAfterBody core.work = Surroundings.setGuest d.env
          (callee.body (Surroundings.guest d.env) core.work).value.1 := by
        unfold Dispatch.envAfterBody
        rw [hResolve]
      have hAfter : (({ core with registry := d.registry } : Core G).afterBody d.op.slot callee.body
          (Surroundings.guest d.env)).work =
            WorkRequest.performAll (.standing config armed) requests := by
        show (callee.body (Surroundings.guest d.env) core.work).value.2 = _
        rw [hRequests, hWork]
      have hTidy := WorkRequest.tidy_performAll (.standing config armed) requests rfl
      rw [← hAfter] at hTidy
      rw [Core.value_finishCall hTidy, hAfter, ← hEnv, WorkRequest.value_finishOn] at hValue
      refine ⟨by rw [hValue]; rfl, by rw [hValue], ?_, by rw [hValue]; rfl⟩
      rw [hValue]
      -- only a break that came through is counted
      cases hFires : (CallEvent.ran callee.nid requests).fires config.breakBlacklist armed with
      | true => rfl
      | false =>
          dsimp only
          cases (CallEvent.ran callee.nid requests).defers config.breakBlacklist armed <;> rfl

variable (E) in
/-- A run from a fresh core, with what became of each dispatch. -/
inductive CallRun (config : Config) : List CallEvent → Core G → Prop
  | fresh : CallRun config [] (.fresh config)
  | dispatch {events : List CallEvent} {core : Core G} {event : CallEvent}
      (h : CallRun config events core) (d : Dispatch G E) (hEvent : d.Comes core.work event) :
      CallRun config (events ++ [event]) (core.dispatch d).2.1

/-- Whatever is dispatched is a run, as long as bodies change the pending work by requests only. -/
theorem exists_callRun (config : Config) (ds : List (Dispatch G E))
    (hBodies : ∀ d ∈ ds, d.registry.OnlyRequests) :
    ∃ events, events.length = ds.length ∧
      CallRun E config events
        (ds.foldl (fun core d => (core.dispatch d).2.1) (.fresh config : Core G)) := by
  induction ds using List.reverseRecOn with
  | nil => exact ⟨[], rfl, .fresh⟩
  | append_singleton ds d ih =>
      obtain ⟨events, hLength, hRun⟩ := ih fun e he => hBodies e (List.mem_append_left _ he)
      obtain ⟨event, hEvent⟩ := d.exists_comes
        (ds.foldl (fun core d => (core.dispatch d).2.1) (.fresh config : Core G)).work
        (hBodies d (List.mem_append_right _ List.mem_cons_self))
      refine ⟨events ++ [event], by simp [hLength], ?_⟩
      rw [List.foldl_append]
      exact hRun.dispatch d hEvent

/-- Whether the debug break is pending after a run. -/
def CallEvent.armedAfter (blacklist : List Nid) (events : List CallEvent) : Bool :=
  events.foldl (fun armed event => event.defers blacklist armed) false

theorem CallEvent.armedAfter_concat (blacklist : List Nid) (events : List CallEvent)
    (event : CallEvent) :
    armedAfter blacklist (events ++ [event]) =
      event.defers blacklist (armedAfter blacklist events) := by
  unfold armedAfter
  rw [List.foldl_append]
  rfl

/-- Between the dispatches of a run, nothing but the debug break is pending. -/
theorem CallRun.work_eq {events : List CallEvent} (h : CallRun E config events core) :
    core.work = .standing config (CallEvent.armedAfter config.breakBlacklist events) := by
  induction h with
  | fresh => rfl
  | dispatch h d hEvent ih =>
      rw [CallEvent.armedAfter_concat]
      exact (dispatched_of_comes ih hEvent).work

end Dispatch
end HostCalls
