import HostCalls.Proofs.Core.Call
import HostCalls.Proofs.Linker.Request
import HostCalls.Proofs.Registry
import HostCalls.Recorder

/-!
# The counters balance

Every dispatch is counted once, as a failure or as a call of one function, and the debug breaks are
counted as they are made. However a core is used, its counters therefore agree with each other,
with what was dispatched, and with what the debugger was asked.

* `SteppingMeter` counts how often the debugger is asked for stepping, and `value_call_meter` says
  that a dispatch takes no notice of it.
* `Counts` lists everything that a dispatch does to the counters; `counts_call` proves it.
* `CoreRun` is whatever may be done with a core, with the dispatches and the requests for stepping
  since its counters were last zeroed.
* `Stats.Balanced.counts` is the step of a dispatch and `counters_balance` the run; no counter then
  exceeds 64 bits before the dispatches do.
-/

namespace HostCalls

namespace Table

variable {κ : Type} [Ranked κ]

/-- The sum of the numbers in a list of entries. -/
def sumOf : List (κ × Nat) → Nat
  | [] => 0
  | (_, n) :: rest => n + sumOf rest

/-- The sum of all numbers in a table. -/
def total (t : Table κ Nat) : Nat :=
  sumOf t.entries

theorem sumOf_place (k : κ) (n : Nat) {entries : List (κ × Nat)}
    (h : entries.Pairwise fun a b => rank a.1 < rank b.1) :
    sumOf (place k n entries) + (lookup k entries).getD 0 = sumOf entries + n := by
  induction entries with
  | nil => exact Nat.add_comm n 0
  | cons head rest ih =>
      obtain ⟨key, there⟩ := head
      obtain ⟨hHead, hRest⟩ := List.pairwise_cons.mp h
      rw [place, lookup]
      by_cases hLt : rank k < rank key
      · -- the key comes before all others, so it is not among them
        have hNone : lookup k rest = none := lookup_eq_none fun entry hEntry => by
          have hAfter := hHead entry hEntry
          simp only at hAfter
          omega
        rw [if_pos hLt, if_neg (by omega), hNone]
        simp only [sumOf, Option.getD_none]
        omega
      · rw [if_neg hLt]
        by_cases hEq : rank k = rank key
        · rw [if_pos hEq, if_pos hEq.symm]
          simp only [sumOf, Option.getD_some]
          omega
        · rw [if_neg hEq, if_neg (Ne.symm hEq)]
          simp only [sumOf]
          have hSum := ih hRest
          omega

theorem lookup_le_sumOf (k : κ) (entries : List (κ × Nat)) :
    (lookup k entries).getD 0 ≤ sumOf entries := by
  induction entries with
  | nil => exact Nat.le_refl 0
  | cons head rest ih =>
      rw [lookup, sumOf]
      split
      · exact Nat.le_add_right _ _
      · exact Nat.le_add_left_of_le ih

theorem total_insert (t : Table κ Nat) (k : κ) (n : Nat) :
    (t.insert k n).total + (t.get? k).getD 0 = t.total + n :=
  sumOf_place k n t.ascending

end Table

namespace Stats

/-- The number of calls that ran a body. -/
def ran (stats : Stats) : Nat :=
  stats.calls.total

theorem ran_countCall (stats : Stats) (slot : Slot) :
    (stats.countCall slot).ran = stats.ran + 1 := by
  have hTotal : (stats.countCall slot).ran + stats.callsTo slot =
      stats.ran + (stats.callsTo slot + 1) :=
    stats.calls.total_insert slot (stats.callsTo slot + 1)
  omega

end Stats

/-- Surroundings that count how often the debugger is asked for stepping. -/
structure SteppingMeter (E : Type) where
  inner : E
  steppings : Nat

namespace SteppingMeter

variable {G E : Type} [Surroundings E G]

instance : Surroundings (SteppingMeter E) G where
  forceCallbacks x := { x with inner := Scheduler.forceCallbacks x.inner }
  runOneInterrupt x :=
    let (ran, inner) := Scheduler.runOneInterrupt x.inner
    (ran, { x with inner := inner })
  reschedule reason x := { x with inner := Scheduler.reschedule reason x.inner }
  rescheduleWithCallbacks reason x :=
    { x with inner := Scheduler.rescheduleWithCallbacks reason x.inner }
  checkCallbacks x := { x with inner := Scheduler.checkCallbacks x.inner }
  enableStepping x := ⟨DebugHost.enableStepping x.inner, x.steppings + 1⟩
  setDebugMode enabled x := { x with inner := DebugHost.setDebugMode enabled x.inner }
  guest x := Surroundings.guest x.inner
  setGuest x guest := { x with inner := Surroundings.setGuest x.inner guest }

/-- The scheduler is no matter of the meter. -/
theorem performAll_meter (env : E) (n : Nat) (steps : List SchedulerStep) :
    SchedulerStep.performAll (⟨env, n⟩ : SteppingMeter E) steps =
      ⟨SchedulerStep.performAll env steps, n⟩ := by
  induction steps generalizing env with
  | nil => rfl
  | cons step rest ih =>
      have hStep : step.perform (⟨env, n⟩ : SteppingMeter E) = ⟨step.perform env, n⟩ := by
        cases step <;> rfl
      show SchedulerStep.performAll (step.perform (⟨env, n⟩ : SteppingMeter E)) rest = _
      rw [hStep, ih]
      rfl

end SteppingMeter

/-- One if a dispatch ended in stepping. -/
def CallOutcome.breakCount (outcome : CallOutcome) : Nat :=
  if outcome = .called .breakEntered then 1 else 0

namespace Core

variable {G E : Type} [Surroundings E G]

section Meter

variable (core : Core G) (nid : Nid) (op : Opcode) (env : E) (n : Nat)

theorem value_finishCall_meter :
    (core.finishCall nid (⟨env, n⟩ : SteppingMeter E)).value =
      let done := (core.finishCall nid env).value
      (done.1, done.2.1, ⟨done.2.2, n + done.1.breakCount⟩) := by
  unfold finishCall
  by_cases hIdle : core.work.isEmpty = true
  · rw [if_pos hIdle, if_pos hIdle]
    rfl
  · rw [if_neg hIdle, if_neg hIdle]
    simp only [Logged.value_bind, FollowUp.value_finishOn, SteppingMeter.performAll_meter]
    -- the debugger is asked for stepping in one of three cases only
    split
    · split <;> rfl
    · rfl

/-- A dispatch takes no notice of the meter, which goes up exactly if the dispatch ends in
stepping. -/
theorem value_call_meter :
    (core.call op (⟨env, n⟩ : SteppingMeter E)).value =
      let done := (core.call op env).value
      (done.1, done.2.1, ⟨done.2.2, n + done.1.breakCount⟩) := by
  cases hResolve : core.registry.resolve op with
  | error failure =>
      rw [value_call_of_error hResolve, value_call_of_error hResolve]
      cases failure <;> rfl
  | ok callee =>
      rw [value_call_of_ok hResolve, value_call_of_ok hResolve]
      exact value_finishCall_meter _ _ _ _

/-- How often a dispatch asks the debugger for stepping. -/
def steppingRequests : Nat :=
  (core.call op (⟨env, 0⟩ : SteppingMeter E)).value.2.2.steppings

theorem steppingRequests_eq :
    core.steppingRequests op env = (core.call op env).value.1.breakCount := by
  rw [steppingRequests, value_call_meter]
  exact Nat.zero_add _

end Meter

section Counts

/-- Everything that a dispatch does to the counters. -/
inductive Counts (registry : Registry G) (op : Opcode) (stats : Stats) : CallOutcome → Stats → Prop
  | failed {failure : CallFailure} (h : registry.resolve op = .error failure) :
      Counts registry op stats failure.outcome (stats.countOpcode.countFailure failure)
  | called {f : HostFunction G} {after : FollowUpOutcome}
      (hFunction : registry.functionAt? op.slot.module.toNat op.slot.func.toNat = some f)
      (hBody : f.isImplemented = true) (hAfter : after ≠ .breakEntered) :
      Counts registry op stats (.called after) (stats.countOpcode.countCall op.slot)
  | broke {f : HostFunction G}
      (hFunction : registry.functionAt? op.slot.module.toNat op.slot.func.toNat = some f)
      (hBody : f.isImplemented = true) :
      Counts registry op stats (.called .breakEntered)
        (stats.countOpcode.countCall op.slot).countBreak

theorem counts_call (core : Core G) (op : Opcode) (env : E) :
    Counts core.registry op core.stats (core.call op env).value.1
      (core.call op env).value.2.1.stats := by
  cases hResolve : core.registry.resolve op with
  | error failure =>
      rw [value_call_of_error hResolve]
      exact .failed hResolve
  | ok callee =>
      obtain ⟨f, hFunction, -, hBody⟩ := Registry.exists_functionAt?_of_resolve hResolve
      have hImplemented : f.isImplemented = true := by
        rw [HostFunction.isImplemented, hBody]
        rfl
      obtain ⟨after, work, env', hValue⟩ := exists_value_call_of_ok env hResolve
      rw [hValue]
      dsimp only
      by_cases hBreak : after = .breakEntered
      · rw [if_pos hBreak, hBreak]
        exact .broke hFunction hImplemented
      · rw [if_neg hBreak]
        exact .called hFunction hImplemented hBreak

theorem registry_call (core : Core G) (op : Opcode) (env : E) :
    (core.call op env).value.2.1.registry = core.registry := by
  cases hResolve : core.registry.resolve op with
  | error failure => rw [value_call_of_error hResolve]
  | ok callee =>
      obtain ⟨after, work, env', hValue⟩ := exists_value_call_of_ok env hResolve
      rw [hValue]

end Counts

end Core

/-- Whether a registrar does nothing to a registry but register modules. -/
def Registrar.OnlyRegisters {G : Type} (registrar : Registrar G) : Prop :=
  ∀ r, ∃ more, (registrar r).value.2 = r.registerAll more

/-- Whatever may be done with a core, with the number of dispatches and of requests for stepping
since its counters were last zeroed. -/
inductive CoreRun {G : Type} (config : Config) : Nat → Nat → Core G → Prop
  | fresh : CoreRun config 0 0 (.fresh config)
  | call {dispatches steppings : Nat} {core : Core G} {E : Type} [Surroundings E G]
      (h : CoreRun config dispatches steppings core) (op : Opcode) (env : E) :
      CoreRun config (dispatches + 1) (steppings + core.steppingRequests op env)
        (core.call op env).value.2.1
  | register {dispatches steppings : Nat} {core : Core G}
      (h : CoreRun config dispatches steppings core) (name : String)
      (functions : List (HostFunction G)) :
      CoreRun config dispatches steppings (core.register name functions).value.2
  | init {dispatches steppings : Nat} {core : Core G}
      (h : CoreRun config dispatches steppings core) (registrars : List (Registrar G))
      (hOnly : ∀ registrar ∈ registrars, registrar.OnlyRegisters) :
      CoreRun config dispatches steppings (core.init registrars).value.2
  | bindSite {dispatches steppings : Nat} {core : Core G} {M : Type} [Memory M]
      (h : CoreRun config dispatches steppings core) (m : M) (name : String) (nid : Nid)
      (site : Addr) :
      CoreRun config dispatches steppings (core.bindSite m name nid site).value.2.1
  | resolve {dispatches steppings : Nat} {core : Core G} {M : Type} [Memory M]
      (h : CoreRun config dispatches steppings core) (m : M) (name : String) (nid : Nid)
      (target : Addr) :
      CoreRun config dispatches steppings (core.resolve m name nid target).value.2.1
  | release {dispatches steppings : Nat} {core : Core G}
      (h : CoreRun config dispatches steppings core) (start stop : Addr) :
      CoreRun config dispatches steppings (core.release start stop).value.2
  | load {dispatches steppings : Nat} {core : Core G}
      (h : CoreRun config dispatches steppings core) (bytes : SavedState.Bytes) :
      CoreRun config dispatches steppings (core.load bytes).value.2
  | resetStats {dispatches steppings : Nat} {core : Core G}
      (h : CoreRun config dispatches steppings core) : CoreRun config 0 0 core.resetStats
  | shutdown {dispatches steppings : Nat} {core : Core G}
      (h : CoreRun config dispatches steppings core) : CoreRun config 0 0 core.shutdown.value

namespace Stats

/-- Whether every counter fits a word of 64 bits. -/
def Fits (stats : Stats) : Prop :=
  stats.total < 2 ^ 64 ∧ stats.errors < 2 ^ 64 ∧ stats.unimplemented < 2 ^ 64 ∧
    stats.breaks < 2 ^ 64 ∧ ∀ slot, stats.callsTo slot < 2 ^ 64

/-- What counters say of each other, of what is registered and of what was done since they were last
zeroed. -/
structure Balanced {G : Type} (stats : Stats) (registry : Registry G) (dispatches steppings : Nat) :
    Prop where
  dispatched : stats.total = dispatches
  total : stats.total = stats.errors + stats.ran
  unimplemented_le : stats.unimplemented ≤ stats.errors
  breaks : stats.breaks = steppings
  breaks_le : stats.breaks ≤ stats.ran
  /-- Only calls of registered functions with bodies are counted. -/
  implemented : ∀ {slot count}, stats.calls.get? slot = some count → 0 < count ∧
    ∃ f, registry.functionAt? slot.module.toNat slot.func.toNat = some f ∧
      f.isImplemented = true

namespace Balanced

variable {G : Type} {stats : Stats} {registry : Registry G} {dispatches steppings : Nat}

theorem zero (registry : Registry G) : Stats.zero.Balanced registry 0 0 where
  dispatched := rfl
  total := rfl
  unimplemented_le := Nat.le_refl 0
  breaks := rfl
  breaks_le := Nat.le_refl 0
  implemented := nofun

/-- More modules do no harm. -/
theorem mono {more : Registry G} (h : stats.Balanced registry dispatches steppings)
    (hMore : registry.Extends more) : stats.Balanced more dispatches steppings :=
  { h with
    implemented := fun hCount =>
      let ⟨hPos, f, hFunction, hBody⟩ := h.implemented hCount
      ⟨hPos, f, hMore.functionAt? hFunction, hBody⟩ }

theorem countFailure (h : stats.Balanced registry dispatches steppings) (failure : CallFailure) :
    (stats.countOpcode.countFailure failure).Balanced registry (dispatches + 1) steppings where
  dispatched := congrArg (· + 1) h.dispatched
  total := by
    have hTotal := h.total
    show stats.total + 1 = stats.errors + 1 + stats.ran
    omega
  unimplemented_le := by
    have hLe := h.unimplemented_le
    unfold Stats.countFailure countOpcode
    dsimp only
    split <;> omega
  breaks := h.breaks
  breaks_le := h.breaks_le
  implemented := h.implemented

theorem countCall (h : stats.Balanced registry dispatches steppings) {slot : Slot}
    {f : HostFunction G}
    (hFunction : registry.functionAt? slot.module.toNat slot.func.toNat = some f)
    (hBody : f.isImplemented = true) :
    (stats.countOpcode.countCall slot).Balanced registry (dispatches + 1) steppings where
  dispatched := congrArg (· + 1) h.dispatched
  total := by
    have hTotal := h.total
    rw [ran_countCall]
    show stats.total + 1 = stats.errors + (stats.ran + 1)
    omega
  unimplemented_le := h.unimplemented_le
  breaks := h.breaks
  breaks_le := by
    rw [ran_countCall]
    exact Nat.le_succ_of_le h.breaks_le
  implemented := by
    intro other count hCount
    rcases Table.get?_insert_cases hCount with ⟨rfl, rfl⟩ | ⟨-, hOld⟩
    · exact ⟨Nat.succ_pos _, f, hFunction, hBody⟩
    · exact h.implemented hOld

/-- No more breaks are counted than calls. -/
theorem countBreak (h : stats.Balanced registry dispatches steppings)
    (hCalled : stats.breaks < stats.ran) :
    stats.countBreak.Balanced registry dispatches (steppings + 1) :=
  { h with
    breaks := congrArg (· + 1) h.breaks
    breaks_le := hCalled }

/-- A dispatch keeps the balance. -/
theorem counts (h : stats.Balanced registry dispatches steppings) {op : Opcode}
    {outcome : CallOutcome} {stats' : Stats}
    (hCounts : Core.Counts registry op stats outcome stats') :
    stats'.Balanced registry (dispatches + 1) (steppings + outcome.breakCount) := by
  cases hCounts with
  | @failed failure hResolve =>
      have hNone : failure.outcome.breakCount = 0 := by cases failure <;> rfl
      rw [hNone]
      exact h.countFailure failure
  | @called f after hFunction hBody hAfter =>
      have hNone : (CallOutcome.called after).breakCount = 0 := by
        rw [CallOutcome.breakCount, if_neg (by simpa using hAfter)]
      rw [hNone]
      exact h.countCall hFunction hBody
  | broke hFunction hBody =>
      refine (h.countCall hFunction hBody).countBreak ?_
      rw [ran_countCall]
      exact Nat.lt_succ_of_le h.breaks_le

theorem fits (h : stats.Balanced registry dispatches steppings) (hFew : dispatches < 2 ^ 64) :
    stats.Fits := by
  have hTotal := h.total
  have hDispatched := h.dispatched
  have hUnimplemented := h.unimplemented_le
  have hBreaks := h.breaks_le
  refine ⟨by omega, by omega, by omega, by omega, fun slot => ?_⟩
  have hSlot : stats.callsTo slot ≤ stats.ran := Table.lookup_le_sumOf slot _
  omega

end Balanced

end Stats

namespace Core

variable {G : Type} {core : Core G}

theorem runRegistrars_keeps (core : Core G) {registrars : List (Registrar G)}
    (hOnly : ∀ registrar ∈ registrars, registrar.OnlyRegisters) :
    (core.runRegistrars registrars).value.2.stats = core.stats ∧
      core.registry.Extends (core.runRegistrars registrars).value.2.registry := by
  induction registrars generalizing core with
  | nil => exact ⟨rfl, List.prefix_refl _⟩
  | cons registrar rest ih =>
      obtain ⟨more, hMore⟩ := hOnly registrar List.mem_cons_self core.registry
      have hFirst := core.registry.extends_registerAll more
      have hRest : ∀ other ∈ rest, other.OnlyRegisters :=
        fun other hOther => hOnly other (List.mem_cons_of_mem _ hOther)
      rw [← hMore] at hFirst
      rw [runRegistrars]
      simp only [Logged.value_bind, registerWith, Logged.value_pure]
      -- the modules of a registrar that fails stay registered
      rcases hDone : (registrar core.registry).value with ⟨e | ⟨⟩, registry⟩
      · rw [hDone] at hFirst
        exact ⟨rfl, hFirst⟩
      · rw [hDone] at hFirst
        obtain ⟨hStats, hMore⟩ := ih { core with registry := registry } hRest
        exact ⟨hStats, hFirst.trans hMore⟩

theorem value_init_core (core : Core G) (registrars : List (Registrar G)) :
    (core.init registrars).value.2 = (core.runRegistrars registrars).value.2 := by
  unfold init
  simp only [Logged.value_bind]
  rcases (core.runRegistrars registrars).value with ⟨e | ⟨⟩, core'⟩ <;> rfl

/-- However a core is used, its counters balance. -/
theorem counters_balance {config : Config} {dispatches steppings : Nat}
    (hRun : CoreRun config dispatches steppings core) :
    core.stats.Balanced core.registry dispatches steppings ∧
      (dispatches < 2 ^ 64 → core.stats.Fits) := by
  have hBalanced : core.stats.Balanced core.registry dispatches steppings := by
    induction hRun with
    | fresh => exact .zero _
    | @call dispatches steppings core E _ h op env ih =>
        rw [steppingRequests_eq, registry_call]
        exact ih.counts (counts_call core op env)
    | @register dispatches steppings core h name functions ih =>
        exact ih.mono (core.registry.extends_register name functions)
    | @init dispatches steppings core h registrars hOnly ih =>
        obtain ⟨hStats, hMore⟩ := core.runRegistrars_keeps hOnly
        rw [value_init_core, hStats]
        exact ih.mono hMore
    | bindSite h m name nid site ih => exact ih
    | resolve h m name nid target ih => exact ih
    | release h start stop ih => exact ih
    | load h bytes ih => exact ih
    | resetStats h ih => exact .zero _
    | shutdown h ih => exact .zero _
  exact ⟨hBalanced, hBalanced.fits⟩

/-- A function that asks for the debug break, one that does nothing, and one without a body. -/
def askIdleNone : List (HostFunction Unit) :=
  [⟨7, "ask", some fun guest work => pure (guest, work.request .debugBreak)⟩,
    ⟨8, "idle", some fun guest work => pure (guest, work)⟩, ⟨9, "none", none⟩]

/-- A registrar that registers a module and then fails. -/
def failingRegistrar : Registrar Unit := fun r => do
  let (_, r) ← r.register "More" askIdleNone
  return (.error (.systemError "failing"), r)

/-- A call before the counters are zeroed; then a debug break, a failed dispatch, a failed
registration and one more call. -/
theorem zeroed_run_balances :
    let env : Env Unit SchedulerRecord DebugRecord := ⟨(), .start 0, .start⟩
    let call (core : Core Unit) (op : Opcode) : Core Unit := (core.call op env).value.2.1
    let filled := ((fresh .standard : Core Unit).register "Sys" askIdleNone).value.2
    let zeroed := (call filled (.encode 0 1)).resetStats
    let broken := call (call zeroed (.encode 0 0)) (.encode 0 2)
    let core := call (broken.init [failingRegistrar]).value.2 (.encode 1 1)
    core.stats.Balanced core.registry 3 1 ∧ core.stats.Fits ∧ core.stats.ran = 2 ∧
      core.stats.callsTo ⟨1, 1⟩ = 1 := by
  intro env call filled zeroed broken core
  have hFilled : CoreRun .standard 0 0 filled := .register .fresh "Sys" askIdleNone
  have hZeroed : CoreRun .standard 0 0 zeroed := .resetStats (.call hFilled (.encode 0 1) env)
  have hAsked := CoreRun.call hZeroed (.encode 0 0) env
  have hBroken : CoreRun .standard _ _ broken := .call hAsked (.encode 0 2) env
  have hOnly : ∀ registrar ∈ [failingRegistrar], registrar.OnlyRegisters := by
    intro registrar hMem r
    rw [List.mem_singleton.mp hMem]
    exact ⟨[("More", askIdleNone)], rfl⟩
  have hInit := CoreRun.init hBroken [failingRegistrar] hOnly
  have hRun : CoreRun .standard _ _ core := .call hInit (.encode 1 1) env
  have hSteppings : 0 + zeroed.steppingRequests (.encode 0 0) env +
      (call zeroed (.encode 0 0)).steppingRequests (.encode 0 2) env +
      (broken.init [failingRegistrar]).value.2.steppingRequests (.encode 1 1) env = 1 := by
    decide
  rw [hSteppings] at hRun
  obtain ⟨hBalanced, hFits⟩ := counters_balance hRun
  exact ⟨hBalanced, hFits (by decide), by decide, by decide⟩

end Core
end HostCalls
