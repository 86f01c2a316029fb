import HostCalls.Recorder
import HostCalls.Proofs.Core.Run

/-!
# The debug break in a run of dispatches

The debug break is an automaton of one bit. Bodies arm and disarm it, and a call lets it through
unless its function is blacklisted. A dispatch that runs no body does neither.

* `BreakStep` is the automaton.
* `CallEvent.armedAfter_iff`: the break is armed after a run if a call asked for it and since then no
  body forgot it and no call let it through.
* `CallRun.breaks_le`: a run has no more breaks than requests for one, of which one is left over if
  the break is armed.
* `debug_break_automaton`: every dispatch of every run is a step of the automaton.
-/

namespace HostCalls

namespace CallEvent

/-- Whether a break that was asked for is held back: since a call that asked for it, no body has
forgotten it and no call was one to let it through. -/
def HeldBack (blacklist : List Nid) (events : List CallEvent) : Prop :=
  ∃ earlier source later, events = earlier ++ source :: later ∧
    WorkRequest.asked source.requests .debugBreak = true ∧
    (∀ event ∈ later, .clear ∉ event.requests) ∧
    ∀ event ∈ source :: later, event.eligible blacklist = false

/-- The number of requests for a break. -/
def breakRequests (events : List CallEvent) : Nat :=
  (events.flatMap requests).count .debugBreak

section HeldBack

variable {blacklist : List Nid} {events : List CallEvent} {event : CallEvent}

theorem arms_iff (event : CallEvent) (armed : Bool) :
    event.arms armed = true ↔
      WorkRequest.asked event.requests .debugBreak = true ∨ armed = true ∧ .clear ∉ event.requests :=
  WorkRequest.foldl_arms_iff armed event.requests

theorem not_heldBack_nil : ¬ HeldBack blacklist [] := by
  rintro ⟨earlier, source, later, hEq, -⟩
  cases earlier <;> cases hEq

theorem heldBack_of_asked (hAsked : WorkRequest.asked event.requests .debugBreak = true)
    (hEligible : event.eligible blacklist = false) : HeldBack blacklist (events ++ [event]) := by
  refine ⟨events, event, [], rfl, hAsked, nofun, fun e he => ?_⟩
  rw [List.mem_singleton.mp he]
  exact hEligible

/-- A call that neither forgets the break nor lets it through leaves it held back. -/
theorem HeldBack.concat (h : HeldBack blacklist events) (hClear : .clear ∉ event.requests)
    (hEligible : event.eligible blacklist = false) : HeldBack blacklist (events ++ [event]) := by
  obtain ⟨earlier, source, later, rfl, hAsked, hKept, hHeld⟩ := h
  have hEq : earlier ++ source :: later ++ [event] = earlier ++ source :: (later ++ [event]) :=
    List.append_assoc ..
  refine ⟨earlier, source, later ++ [event], hEq, hAsked, fun e he => ?_, fun e he => ?_⟩
  · rcases List.mem_append.mp he with hLater | hLast
    · exact hKept e hLater
    · rw [List.mem_singleton.mp hLast]
      exact hClear
  · rw [← List.cons_append] at he
    rcases List.mem_append.mp he with hBefore | hLast
    · exact hHeld e hBefore
    · rw [List.mem_singleton.mp hLast]
      exact hEligible

theorem heldBack_concat_iff :
    HeldBack blacklist (events ++ [event]) ↔
      (WorkRequest.asked event.requests .debugBreak = true ∨
        HeldBack blacklist events ∧ .clear ∉ event.requests) ∧
      event.eligible blacklist = false := by
  constructor
  · rintro ⟨earlier, source, later, hEq, hAsked, hKept, hHeld⟩
    rcases List.eq_nil_or_concat' later with rfl | ⟨between, last, rfl⟩
    · -- the last call is the one that asked
      obtain ⟨-, hLast⟩ := List.append_inj' hEq rfl
      cases hLast
      exact ⟨Or.inl hAsked, hHeld _ List.mem_cons_self⟩
    · rw [← List.cons_append, ← List.append_assoc] at hEq
      obtain ⟨hEvents, hLast⟩ := List.append_inj' hEq rfl
      cases hLast
      have hBefore : HeldBack blacklist events :=
        ⟨earlier, source, between, hEvents, hAsked,
          fun e he => hKept e (List.mem_append_left _ he),
          fun e he => hHeld e (List.mem_append_left [event] he)⟩
      have hClear : .clear ∉ event.requests :=
        hKept event (List.mem_append_right _ List.mem_cons_self)
      have hEligible : event.eligible blacklist = false :=
        hHeld event (List.mem_append_right (source :: between) List.mem_cons_self)
      exact ⟨Or.inr ⟨hBefore, hClear⟩, hEligible⟩
  · rintro ⟨hAsked | ⟨hBefore, hClear⟩, hEligible⟩
    · exact heldBack_of_asked hAsked hEligible
    · exact hBefore.concat hClear hEligible

/-- The break is armed after a run if it is held back. -/
theorem armedAfter_iff (events : List CallEvent) :
    armedAfter blacklist events = true ↔ HeldBack blacklist events := by
  -- from the end, where the latest call decides what becomes of the break
  induction events using List.reverseRecOn with
  | nil => exact ⟨nofun, fun h => absurd h not_heldBack_nil⟩
  | append_singleton events event ih =>
      rw [armedAfter_concat, heldBack_concat_iff, ← ih, ← arms_iff]
      unfold defers
      rw [Bool.and_eq_true, Bool.not_eq_true']

end HeldBack
end CallEvent

/-- Each request arms the break once at most. -/
theorem WorkRequest.foldl_arms_le (armed : Bool) (requests : List WorkRequest) :
    (requests.foldl arms armed).toNat ≤ armed.toNat + requests.count .debugBreak := by
  induction requests generalizing armed with
  | nil => exact Nat.le_refl _
  | cons request rest ih =>
      have hRest := ih (arms armed request)
      have hFirst : (arms armed request).toNat ≤
          armed.toNat + if request == .debugBreak then 1 else 0 := by
        cases request <;> simp [arms]
      rw [List.foldl_cons, List.count_cons]
      omega

/-- Steps of the debug break: whether it is armed, what became of the dispatch, how that ended, how
many breaks there were, what was asked of the debugger, and whether the break is armed then. -/
inductive BreakStep {E : Type} [DebugHost E] (blacklist : List Nid) :
    Bool → CallEvent → CallOutcome → Nat → (E → E) → Bool → Prop
  /-- Without a body, the break is left as it is. -/
  | idle (armed : Bool) (failure : CallFailure) :
      BreakStep blacklist armed (.failed failure) failure.outcome 0 id armed
  /-- An armed break comes through. -/
  | fires {armed : Bool} {nid : Nid} {requests : List WorkRequest}
      (hArmed : requests.foldl WorkRequest.arms armed = true) (hNid : nid ∉ blacklist) :
      BreakStep blacklist armed (.ran nid requests) (.called .breakEntered) 1 DebugHost.enter false
  /-- An armed break is held back and stays armed. -/
  | deferred {armed : Bool} {nid : Nid} {requests : List WorkRequest}
      (hArmed : requests.foldl WorkRequest.arms armed = true) (hNid : nid ∈ blacklist) :
      BreakStep blacklist armed (.ran nid requests) (.called .breakDeferred) 0 id true
  | quiet {armed : Bool} {nid : Nid} {requests : List WorkRequest}
      (hArmed : requests.foldl WorkRequest.arms armed = false) :
      BreakStep blacklist armed (.ran nid requests) (.called .completed) 0 id false

section Run

variable {G E : Type} [Surroundings E G] {config : Config}

variable (E) in
theorem breakStep_of_event (blacklist : List Nid) (armed : Bool) (event : CallEvent) :
    BreakStep blacklist armed event (event.outcome blacklist armed)
      (event.fires blacklist armed).toNat
      (fun host : E => if event.fires blacklist armed then DebugHost.enter host else host)
      (event.defers blacklist armed) := by
  cases event with
  | failed failure =>
      rw [CallEvent.fires_failed, CallEvent.defers_failed]
      exact .idle armed failure
  | ran nid requests =>
      rw [CallEvent.outcome_ran, CallEvent.fires_ran, CallEvent.defers_ran]
      cases hArmed : requests.foldl WorkRequest.arms armed with
      | false => exact .quiet hArmed
      | true =>
          cases hNid : blacklist.contains nid with
          | true => exact .deferred hArmed (List.contains_iff_mem.mp hNid)
          | false => exact .fires hArmed (by simpa using hNid)

/-- A break that comes through or is held back was asked for in this dispatch or before it. -/
theorem CallEvent.fires_add_defers_le (blacklist : List Nid) (armed : Bool) (event : CallEvent) :
    (event.fires blacklist armed).toNat + (event.defers blacklist armed).toNat ≤
      armed.toNat + event.requests.count .debugBreak := by
  have hArms : (event.arms armed).toNat ≤ _ := WorkRequest.foldl_arms_le armed event.requests
  refine Nat.le_trans ?_ hArms
  unfold fires defers
  cases event.arms armed <;> cases event.eligible blacklist <;> decide

/-- A run has no more breaks than requests for one, the one still armed included. -/
theorem CallRun.breaks_le {events : List CallEvent} {core : Core G}
    (h : CallRun E config events core) :
    core.stats.breaks + (CallEvent.armedAfter config.breakBlacklist events).toNat ≤
      CallEvent.breakRequests events := by
  induction h with
  | fresh => exact Nat.le_refl _
  | @dispatch events core event h d hEvent ih =>
      have hBreaks := (dispatched_of_comes h.work_eq hEvent).breaks
      -- a break that comes through leaves none armed, so each takes a request of its own
      have hStep := event.fires_add_defers_le config.breakBlacklist
        (CallEvent.armedAfter config.breakBlacklist events)
      have hRequests : CallEvent.breakRequests (events ++ [event]) =
          CallEvent.breakRequests events + event.requests.count .debugBreak := by
        simp [CallEvent.breakRequests]
      rw [hBreaks, CallEvent.armedAfter_concat, hRequests]
      omega

/-- What holds of the debug break when a run goes on with a dispatch. -/
structure BreakLaw (config : Config) (events : List CallEvent) (core : Core G) (d : Dispatch G E)
    (event : CallEvent) : Prop where
  /-- Between dispatches the break is all that is pending, if it is armed. -/
  before : core.work.pending =
    if CallEvent.armedAfter config.breakBlacklist events then .onlyDebugBreak else .none
  after : (core.dispatch d).2.1.work.pending =
    if CallEvent.armedAfter config.breakBlacklist (events ++ [event]) then .onlyDebugBreak
    else .none
  /-- The debugger is asked after the scheduler, and only if the break comes through. -/
  step : ∃ breaks debug,
    BreakStep config.breakBlacklist (CallEvent.armedAfter config.breakBlacklist events) event
      (core.dispatch d).1 breaks debug
      (CallEvent.armedAfter config.breakBlacklist (events ++ [event])) ∧
    (core.dispatch d).2.1.stats.breaks = core.stats.breaks + breaks ∧
    (core.dispatch d).2.2 = debug (SchedulerStep.performAll (d.envAfterBody core.work)
      (WorkRequest.schedulerSteps config.reasonCapacity event.requests))
  /-- The break comes through in the first call after the request that may let it through. -/
  breakEntered_iff : (core.dispatch d).1 = .called .breakEntered ↔
    event.eligible config.breakBlacklist = true ∧
      (WorkRequest.asked event.requests .debugBreak = true ∨
        CallEvent.HeldBack config.breakBlacklist events ∧ .clear ∉ event.requests)
  /-- No request makes for a second break. -/
  breaks_le : (core.dispatch d).2.1.stats.breaks +
      (CallEvent.armedAfter config.breakBlacklist (events ++ [event])).toNat ≤
    CallEvent.breakRequests (events ++ [event])

theorem CallEvent.outcome_eq_breakEntered_iff (blacklist : List Nid) (armed : Bool)
    (event : CallEvent) :
    event.outcome blacklist armed = .called .breakEntered ↔ event.fires blacklist armed = true := by
  cases event with
  | failed failure =>
      rw [fires_failed]
      cases failure <;> exact ⟨nofun, nofun⟩
  | ran nid requests =>
      rw [outcome_ran]
      cases (ran nid requests).fires blacklist armed with
      | true => exact ⟨fun _ => rfl, fun _ => rfl⟩
      | false => cases (ran nid requests).defers blacklist armed <;> exact ⟨nofun, nofun⟩

/-- In every run, each dispatch takes the debug break one step further. -/
theorem debug_break_automaton {events : List CallEvent} {core : Core G}
    (hRun : CallRun E config events core) (d : Dispatch G E) (hBodies : d.registry.OnlyRequests) :
    (∃ event, d.Comes core.work event) ∧
      ∀ event, d.Comes core.work event → BreakLaw config events core d event := by
  refine ⟨d.exists_comes core.work hBodies, fun event hEvent => ?_⟩
  have hNext := hRun.dispatch d hEvent
  have hDone := dispatched_of_comes hRun.work_eq hEvent
  refine ⟨?_, ?_, ?_, ?_, hNext.breaks_le⟩
  · rw [hRun.work_eq]
    rfl
  · rw [hNext.work_eq]
    rfl
  · have hStep := breakStep_of_event E config.breakBlacklist
      (CallEvent.armedAfter config.breakBlacklist events) event
    rw [← hDone.outcome, ← CallEvent.armedAfter_concat] at hStep
    exact ⟨_, _, hStep, hDone.breaks, hDone.env⟩
  · have hArms := event.arms_iff (CallEvent.armedAfter config.breakBlacklist events)
    rw [CallEvent.armedAfter_iff] at hArms
    rw [hDone.outcome, CallEvent.outcome_eq_breakEntered_iff, CallEvent.fires, Bool.and_eq_true,
      hArms]
    exact and_comm

end Run

/-- A function that asks for the break, and one that does not. -/
def askThenIdle : Registry Unit :=
  .ofRequests [(7, [.debugBreak, .reschedule (some "asked")]), (8, [.runInterrupts])] (by decide)

/-- A break that was held back, and that outlived a failed dispatch, comes through in the next
call. -/
theorem break_outlives_failed_dispatch :
    let config : Config := { Config.standard with breakBlacklist := [7] }
    let env : Env Unit SchedulerRecord DebugRecord := ⟨(), .start 0, .start⟩
    let call (op : Opcode) : Dispatch Unit (Env Unit SchedulerRecord DebugRecord) :=
      ⟨askThenIdle, op, env⟩
    let first := ((Core.fresh config).dispatch (call (.encode 0 0))).2.1
    let second := (first.dispatch (call .absentModule)).2.1
    let last := call (.encode 0 1)
    let events : List CallEvent :=
      [.ran 7 [.debugBreak, .reschedule (some "asked")], .failed (.invalidOpcode "Sys")]
    last.Comes second.work (.ran 8 [.runInterrupts]) ∧
      BreakLaw config events second last (.ran 8 [.runInterrupts]) ∧
      (second.dispatch last).1 = .called .breakEntered := by
  intro config env call first second last events
  have hAsk : askThenIdle.resolve (.encode 0 0) =
      .ok ⟨"Sys", "call", 7, .ofRequests [.debugBreak, .reschedule (some "asked")]⟩ := rfl
  have hNone : askThenIdle.resolve .absentModule = .error (.invalidOpcode "Sys") := rfl
  have hIdle : askThenIdle.resolve (.encode 0 1) =
      .ok ⟨"Sys", "call", 8, .ofRequests [.runInterrupts]⟩ := rfl
  have hFirst := (call (.encode 0 0)).comes_ofRequests hAsk (Core.fresh config : Core Unit).work
  have hSecond : (call .absentModule).Comes first.work _ := .failed hNone
  have hLast := last.comes_ofRequests hIdle second.work
  have hRun := (CallRun.fresh.dispatch _ hFirst).dispatch _ hSecond
  have hBodies : askThenIdle.OnlyRequests := Registry.onlyRequests_ofRequests _ (by decide)
  have hLaw := (debug_break_automaton hRun last hBodies).2 _ hLast
  have hHeld : CallEvent.HeldBack config.breakBlacklist events :=
    (CallEvent.armedAfter_iff events).mp rfl
  exact ⟨hLast, hLaw, hLaw.breakEntered_iff.mpr ⟨rfl, Or.inr ⟨hHeld, by decide⟩⟩⟩

end HostCalls
