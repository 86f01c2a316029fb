import HostCalls.Proofs.Core.Run
import HostCalls.Recorder

/-!
# Failed dispatches do not show

A dispatch that runs no body is counted and reported, and that is all. A run of dispatches into
which such ones are inserted is therefore, but for the counters, the run without them.

* `Core.call_addFailures`: what a dispatch does is not decided by how many have failed before.
* `Core.onlyCounted_record`: a dispatch that runs no body adds to the counters of failures and
  reports one line.
* `failed_calls_do_not_show` follows a run with the inserted dispatches and one without them side by
  side. The core of the first is at every moment that of the second after some more failures.
-/

namespace HostCalls

/-- The counters after more dispatches have failed, `unimplemented` of them at functions without a
body. -/
def Stats.addFailures (stats : Stats) (failed unimplemented : Nat) : Stats :=
  { stats with
    total := stats.total + failed
    errors := stats.errors + failed
    unimplemented := stats.unimplemented + unimplemented }

/-- One if a dispatch ended at a function without a body. -/
def CallOutcome.unimplementedCount (outcome : CallOutcome) : Nat :=
  if outcome = .unimplemented then 1 else 0

namespace Stats

variable (stats : Stats) (n u : Nat)

theorem addFailures_add (n' u' : Nat) :
    (stats.addFailures n u).addFailures n' u' = stats.addFailures (n + n') (u + u') := by
  simp only [addFailures, Nat.add_assoc]

theorem countFailure_countOpcode (failure : CallFailure) :
    stats.countOpcode.countFailure failure =
      stats.addFailures 1 failure.outcome.unimplementedCount := by
  unfold countOpcode countFailure addFailures CallOutcome.unimplementedCount
  split <;> rfl

theorem countOpcode_addFailures :
    (stats.addFailures n u).countOpcode = stats.countOpcode.addFailures n u := by
  simp only [addFailures, countOpcode, Nat.add_right_comm]

theorem countCall_addFailures (slot : Slot) :
    (stats.addFailures n u).countCall slot = (stats.countCall slot).addFailures n u := rfl

theorem countFailure_addFailures (failure : CallFailure) :
    (stats.addFailures n u).countFailure failure =
      (stats.countFailure failure).addFailures n u := by
  unfold countFailure addFailures
  split <;> simp only [Nat.add_right_comm]

end Stats

namespace Core

variable {G E : Type}

/-- The core after more dispatches have failed. -/
def addFailures (core : Core G) (failed unimplemented : Nat) : Core G :=
  { core with stats := core.stats.addFailures failed unimplemented }

/-- The result of a dispatch on a core on which more dispatches have failed before. -/
def resultAfter (failed unimplemented : Nat) (done : CallOutcome × Core G × E) :
    CallOutcome × Core G × E :=
  (done.1, done.2.1.addFailures failed unimplemented, done.2.2)

variable [Surroundings E G] (core : Core G) (n u : Nat) (op : Opcode) (env : E)

theorem addFailures_add (n' u' : Nat) :
    (core.addFailures n u).addFailures n' u' = core.addFailures (n + n') (u + u') := by
  unfold addFailures
  rw [Stats.addFailures_add]

@[simp] theorem work_addFailures : (core.addFailures n u).work = core.work := rfl

@[simp] theorem registry_addFailures : (core.addFailures n u).registry = core.registry := rfl

theorem finishCall_addFailures (nid : Nid) :
    (core.addFailures n u).finishCall nid env = resultAfter n u <$> core.finishCall nid env := by
  unfold finishCall
  rw [work_addFailures]
  by_cases hIdle : core.work.isEmpty = true
  · rw [if_pos hIdle, if_pos hIdle]
    rfl
  · rw [if_neg hIdle, if_neg hIdle, map_bind]
    refine bind_congr fun done => ?_
    -- a break is counted or not, and either way beside the failures
    dsimp only
    split <;> rfl

/-- What a dispatch does is not decided by how many have failed before. -/
theorem call_addFailures :
    (core.addFailures n u).call op env = resultAfter n u <$> core.call op env := by
  unfold call
  rw [registry_addFailures]
  cases core.registry.resolve op with
  | error failure =>
      rw [map_bind]
      refine bind_congr fun _ => ?_
      simp only [addFailures, Stats.countOpcode_addFailures, Stats.countFailure_addFailures]
      rfl
  | ok callee =>
      rw [map_bind]
      refine bind_congr fun _ => ?_
      rw [map_bind]
      refine bind_congr fun done => ?_
      rw [← finishCall_addFailures]
      simp only [addFailures, Stats.countOpcode_addFailures, Stats.countCall_addFailures]

end Core

/-- An opcode that a run dispatches, and whether it was inserted into the run. -/
structure Raised where
  op : Opcode
  inserted : Bool
deriving DecidableEq

/-- A dispatch of a run: the core and its surroundings before it and after it, how it ended and what
it reported. -/
structure CallRecord (G E : Type) where
  raised : Raised
  before : Core G
  envBefore : E
  outcome : CallOutcome
  after : Core G
  env : E
  lines : List Log.Line

/-- What a dispatch leaves for everyone who does not look at the counters. -/
structure Shown (G E : Type) where
  op : Opcode
  outcome : CallOutcome
  config : Config
  registry : Registry G
  linker : Linker
  work : FollowUp
  env : E
  lines : List Log.Line

namespace CallRecord

variable {G E : Type} (r : CallRecord G E)

/-- What is left of a dispatch if the counters are not looked at. -/
def shown : Shown G E :=
  ⟨r.raised.op, r.outcome, r.after.config, r.after.registry, r.after.linker, r.after.work, r.env,
    r.lines⟩

/-- A dispatch that does nothing but count itself as a failure and report one error. -/
structure OnlyCounted : Prop where
  env : r.env = r.envBefore
  after : r.after = r.before.addFailures 1 r.outcome.unimplementedCount
  lines : ∃ text, r.lines = [⟨.error, text⟩]

/-- The dispatch as it is on a core on which more dispatches have failed before. -/
def addFailures (failed unimplemented : Nat) : CallRecord G E :=
  { r with
    before := r.before.addFailures failed unimplemented
    after := r.after.addFailures failed unimplemented }

/-- How many of the dispatches were inserted. -/
def insertedCount (records : List (CallRecord G E)) : Nat :=
  records.countP (·.raised.inserted)

/-- How many of the inserted dispatches ended at a function without a body. -/
def insertedUnimplementedCount (records : List (CallRecord G E)) : Nat :=
  records.countP fun r => r.raised.inserted && decide (r.outcome = .unimplemented)

theorem insertedCount_cons (records : List (CallRecord G E)) :
    insertedCount (r :: records) =
      (if r.raised.inserted then 1 else 0) + insertedCount records := by
  rw [insertedCount, List.countP_cons, Nat.add_comm]
  rfl

theorem insertedUnimplementedCount_cons (records : List (CallRecord G E)) :
    insertedUnimplementedCount (r :: records) =
      (if r.raised.inserted then r.outcome.unimplementedCount else 0) +
        insertedUnimplementedCount records := by
  rw [insertedUnimplementedCount, List.countP_cons, Nat.add_comm]
  cases r.raised.inserted with
  | true =>
      simp only [Bool.true_and, decide_eq_true_eq]
      rfl
  | false => rfl

end CallRecord

namespace Core

variable {G E : Type} [Surroundings E G]

/-- The record of one dispatch. -/
def record (core : Core G) (env : E) (raised : Raised) : CallRecord G E where
  raised := raised
  before := core
  envBefore := env
  outcome := (core.call raised.op env).value.1
  after := (core.call raised.op env).value.2.1
  env := (core.call raised.op env).value.2.2
  lines := (core.call raised.op env).log

/-- The records of a run, oldest first. -/
def records (core : Core G) (env : E) : List Raised → List (CallRecord G E)
  | [] => []
  | raised :: rest =>
      core.record env raised ::
        records (core.record env raised).after (core.record env raised).env rest

/-- The core and its surroundings after a run. -/
def dispatchAll (core : Core G) (env : E) : List Raised → Core G × E
  | [] => (core, env)
  | raised :: rest =>
      dispatchAll (core.record env raised).after (core.record env raised).env rest

variable {core : Core G} {env : E} {raised : Raised} {run : List Raised}

theorem record_addFailures (n u : Nat) :
    (core.addFailures n u).record env raised = (core.record env raised).addFailures n u := by
  unfold record CallRecord.addFailures
  rw [call_addFailures]
  simp only [Logged.value_map, Logged.log_map, List.append_nil, resultAfter]

/-- A dispatch that runs no body does nothing but count itself as a failure and report one error. -/
theorem onlyCounted_record (h : (core.record env raised).outcome.wasCalled = false) :
    (core.record env raised).OnlyCounted := by
  cases hResolve : core.registry.resolve raised.op with
  | error failure =>
      have hValue : (core.call raised.op env).value = _ := value_call_of_error hResolve
      refine ⟨?_, ?_, failure.message raised.op, ?_⟩
      · simp only [record, hValue]
      · simp only [record, hValue, Stats.countFailure_countOpcode]
        rfl
      · simp only [record, call, hResolve]
        rfl
  | ok callee =>
      -- a dispatch that runs a body ends as a call
      obtain ⟨after, work, env', hValue⟩ := exists_value_call_of_ok env hResolve
      simp only [record, hValue] at h
      cases h

theorem exists_record_of_mem {r : CallRecord G E} (h : r ∈ core.records env run) :
    ∃ (before : Core G) (envBefore : E), r = before.record envBefore r.raised := by
  induction run generalizing core env with
  | nil => cases h
  | cons raised rest ih =>
      rcases List.mem_cons.mp h with rfl | hRest
      · exact ⟨core, env, rfl⟩
      · exact ih hRest

/-- A run beside the one without the inserted dispatches, the one on a core on which `n` more
dispatches have failed before, `u` of them at functions without a body. -/
structure SideBySide (core : Core G) (env : E) (n u : Nat) (run : List Raised) : Prop where
  others : (((core.addFailures n u).records env run).filter (!·.raised.inserted)).map (·.shown) =
    (core.records env (run.filter (!·.inserted))).map (·.shown)
  left : (core.addFailures n u).dispatchAll env run =
    let records := (core.addFailures n u).records env run
    let short := core.dispatchAll env (run.filter (!·.inserted))
    (short.1.addFailures (n + CallRecord.insertedCount records)
        (u + CallRecord.insertedUnimplementedCount records),
      short.2)

/-- A dispatch that was not inserted is made on either side, and is the same on both. -/
theorem SideBySide.other {n u : Nat} (hOther : raised.inserted = false)
    (h : SideBySide (core.record env raised).after (core.record env raised).env n u run) :
    SideBySide core env n u (raised :: run) := by
  have hOwn : (raised :: run).filter (!·.inserted) = raised :: run.filter (!·.inserted) :=
    List.filter_cons_of_pos (by simp [hOther])
  have hRecords : (core.addFailures n u).records env (raised :: run) =
      (core.record env raised).addFailures n u ::
        ((core.record env raised).after.addFailures n u).records (core.record env raised).env
          run := by
    rw [records, record_addFailures]
    rfl
  have hSame : ((core.record env raised).addFailures n u).raised.inserted = false := hOther
  refine ⟨?_, ?_⟩
  · rw [hRecords, hOwn, List.filter_cons_of_pos (by simp [hSame]), List.map_cons, h.others]
    rfl
  · dsimp only
    rw [hRecords, hOwn, dispatchAll, record_addFailures, CallRecord.insertedCount_cons,
      CallRecord.insertedUnimplementedCount_cons]
    simp only [hSame, Bool.false_eq_true, if_false, Nat.zero_add]
    exact h.left

/-- An inserted dispatch is made on one side only and puts one more failure between both. -/
theorem SideBySide.inserted {n u : Nat} (hInserted : raised.inserted = true)
    (hCounted : ((core.addFailures n u).record env raised).OnlyCounted)
    (h : SideBySide core env (n + 1)
      (u + ((core.addFailures n u).record env raised).outcome.unimplementedCount) run) :
    SideBySide core env n u (raised :: run) := by
  have hAfter := hCounted.after.trans (core.addFailures_add n u _ _)
  have hEnv : ((core.addFailures n u).record env raised).env = env := hCounted.env
  have hOwn : (raised :: run).filter (!·.inserted) = run.filter (!·.inserted) :=
    List.filter_cons_of_neg (by simp [hInserted])
  have hSame : ((core.addFailures n u).record env raised).raised.inserted = true := hInserted
  refine ⟨?_, ?_⟩
  · rw [records, List.filter_cons_of_neg (by simp [hSame]), hOwn, hAfter, hEnv]
    exact h.others
  · dsimp only
    rw [records, hOwn, dispatchAll, CallRecord.insertedCount_cons,
      CallRecord.insertedUnimplementedCount_cons, hAfter, hEnv]
    simp only [hSame, if_true, ← Nat.add_assoc]
    exact h.left

theorem sideBySide {n u : Nat}
    (hFailed : ∀ r ∈ (core.addFailures n u).records env run,
      r.raised.inserted = true → r.outcome.wasCalled = false) :
    SideBySide core env n u run := by
  induction run generalizing core env n u with
  | nil => exact ⟨rfl, rfl⟩
  | cons raised rest ih =>
      have hRest : ∀ r ∈ ((core.addFailures n u).record env raised).after.records
          ((core.addFailures n u).record env raised).env rest,
          r.raised.inserted = true → r.outcome.wasCalled = false :=
        fun r hr => hFailed r (List.mem_cons_of_mem _ hr)
      cases hInserted : raised.inserted with
      | false =>
          rw [record_addFailures] at hRest
          exact .other hInserted (ih hRest)
      | true =>
          have hCounted := onlyCounted_record (hFailed _ List.mem_cons_self hInserted)
          rw [hCounted.env, hCounted.after.trans (core.addFailures_add n u _ _)] at hRest
          exact .inserted hInserted hCounted (ih hRest)

/-- A run of which nobody can tell the inserted dispatches who does not look at the counters. -/
structure FailuresHidden (core : Core G) (env : E) (run : List Raised) : Prop where
  /-- All other dispatches are those of the run without the inserted ones. -/
  others : ((core.records env run).filter (!·.raised.inserted)).map (·.shown) =
    (core.records env (run.filter (!·.inserted))).map (·.shown)
  inserted : ∀ r ∈ core.records env run, r.raised.inserted = true → r.OnlyCounted
  /-- In the end, the counters differ by the inserted dispatches and nothing else differs. -/
  left : core.dispatchAll env run =
    let records := core.records env run
    let short := core.dispatchAll env (run.filter (!·.inserted))
    (short.1.addFailures (CallRecord.insertedCount records)
      (CallRecord.insertedUnimplementedCount records), short.2)

/-- Inserted dispatches that run no body do not show. -/
theorem failed_calls_do_not_show
    (hFailed : ∀ r ∈ core.records env run,
      r.raised.inserted = true → r.outcome.wasCalled = false) :
    core.FailuresHidden env run := by
  have hBeside : SideBySide core env 0 0 run := sideBySide hFailed
  refine ⟨hBeside.others, fun r hr hInserted => ?_, ?_⟩
  · have hNotCalled := hFailed r hr hInserted
    obtain ⟨before, envBefore, hRecord⟩ := exists_record_of_mem hr
    rw [hRecord] at hNotCalled ⊢
    exact onlyCounted_record hNotCalled
  · have hLeft := hBeside.left
    simp only [Nat.zero_add] at hLeft
    exact hLeft

/-- A function that asks for the debug break, one that does not, and one without a body. -/
def askIdleAbsent : Registry Unit where
  modules := [⟨"Sys", [⟨7, "ask", some (.ofRequests [.debugBreak])⟩,
    ⟨8, "idle", some (.ofRequests [.runInterrupts])⟩, ⟨9, "absent", none⟩], by decide⟩]
  length_le := by decide

/-- The break is asked for and held back, three dispatches fail, and the next call lets it
through. -/
def interruptedRun : List Raised :=
  [⟨.encode 0 0, false⟩, ⟨.absentModule, true⟩, ⟨.encode 3 0, true⟩, ⟨.encode 0 2, true⟩,
    ⟨.encode 0 1, false⟩]

/-- Failures of all three kinds between the request for a break and the call that lets it through
do not show. -/
theorem failures_while_break_deferred_do_not_show :
    let config : Config := { Config.standard with breakBlacklist := [7] }
    let core : Core Unit := { (Core.fresh config : Core Unit) with registry := askIdleAbsent }
    let env : Env Unit SchedulerRecord DebugRecord := ⟨(), .start 0, .start⟩
    (core.records env interruptedRun).map (·.outcome) =
        [.called .breakDeferred, .invalidOpcode, .unknownFunction, .unimplemented,
          .called .breakEntered] ∧
      core.FailuresHidden env interruptedRun := by
  intro config core env
  have hFailed : ∀ r ∈ core.records env interruptedRun,
      r.raised.inserted = true → r.outcome.wasCalled = false := by
    decide
  exact ⟨by decide, failed_calls_do_not_show hFailed⟩

end Core
end HostCalls
