import HostCalls.Loop.Script
import HostCalls.Proofs.Loop.Course

/-!
# What an executor may rely on

The executor is bound before anything else, hears of every system call that it raised, and is not
asked to execute a block unless it has just found the core running and the slice not used up, or
has itself chained to the block.

* `Moment` is any moment of a run, also of one that never returns.
* `Protocol` says what the calls are like up to a moment, how they end if the run has returned, and
  that otherwise there are more to come, unless a block never ends.
* `calls_follow_protocol`: it holds at every moment. By `Traced.run_traced` the calls are those of
  the run on the executor itself.
-/

namespace HostCalls
namespace RunLoop

variable {E : Type} [Executor E] {first : RunLoop} {t t' : Traced E} {entry : LoopEntry} {e : E}
  {block : NativeBlock}

/-- A moment of the run of `first` on `e`: the executor at that moment, and what the run returned if
it has. -/
inductive Moment (first : RunLoop) (e : E) :
    Traced E → Option (Except LoopError LoopEnd) → Prop
  | reached {entry : LoopEntry} {loop : RunLoop} {t : Traced E}
      (h : first.Reaches (Traced.start e) entry loop t) : Moment first e t none
  /-- A block was handed over, which may or may not come to its end. -/
  | handed {loop : RunLoop} {t t' : Traced E} {block : NativeBlock}
      (h : first.Reaches (Traced.start e) .dispatchUnchecked loop t)
      (hHands : loop.Hands t block t') : Moment first e t' none
  | returned {fuel : Nat} {ended : Logged (Except LoopError LoopEnd × RunLoop × Traced E)}
      (h : first.run fuel (Traced.start e) = some ended) :
      Moment first e ended.value.2.2 (some ended.value.1)

/-- The run makes more calls after this moment. -/
def GoesOn (first : RunLoop) (e : E) (t : Traced E) : Prop :=
  ∃ t' result calls, first.Moment e t' result ∧ calls ≠ [] ∧ t'.history = t.history ++ calls

/-- The run visits a block that never ends. -/
def InEndlessBlock (first : RunLoop) (e : E) (t : Traced E) : Prop :=
  ∃ loop before block handed, first.Reaches (Traced.start e) .dispatchUnchecked loop before ∧
    loop.Hands before block handed ∧ Executor.execute block handed = none ∧
    (t = before ∨ t = handed)

/-- Right behind each `call` of a history comes one of the calls `next`. Behind the last call there
is none yet, unless the run has returned. -/
def ThenComes (history : List ExecutorCall) (result : Option (Except LoopError LoopEnd))
    (call : ExecutorCall) (next : ExecutorCall → Prop) : Prop :=
  ∀ before after, history = before ++ call :: after →
    (after = [] ∧ result = none) ∨ ∃ following rest, after = following :: rest ∧ next following

/-- What the calls of a run are like up to a moment of it. -/
structure Protocol (first : RunLoop) (e : E) (t : Traced E)
    (result : Option (Except LoopError LoopEnd)) : Prop where
  /-- The registers are bound once, before anything else. -/
  bound_first : t.history = [] ∨ ∃ registers rest,
    t.history = .bindRegisters registers :: rest ∧ ∀ again, .bindRegisters again ∉ rest
  synced : ∀ registers, ThenComes t.history result (.syncRegisters registers)
    fun next => ∃ state, next = .runState state
  raised : ∀ block op, ThenComes t.history result (.execute block (.syscall op))
    fun next => ∃ answer, next = .syscall op answer
  /-- There is no other way to a system call. -/
  raised_before : ∀ op answer before after, t.history = before ++ .syscall op answer :: after →
    ∃ earlier block, before = earlier ++ [.execute block (.syscall op)]
  answered : ∀ op answer, ThenComes t.history result (.syscall op answer)
    fun next => ∃ state, next = .runState state
  rescheduled : ∀ block, ThenComes t.history result (.execute block .reschedule)
    fun next => ∃ registers, next = .syncRegisters registers
  expired : ThenComes t.history result (.sliceExpired true)
    fun next => ∃ registers, next = .syncRegisters registers
  dispatched : ∀ block, ThenComes t.history result (.execute block .dispatch)
    fun next => ∃ expired, next = .sliceExpired expired
  chained : ∀ block, ThenComes t.history result (.execute block .chain)
    fun next => (∃ pc answer, next = .compile pc answer) ∨
      ∃ following answer, next = .execute following answer
  compiled : ∀ pc block, block.start = pc → ThenComes t.history result (.compile pc (.ok block))
    fun next => ∃ answer, next = .execute block answer
  faulted : ∀ block, ThenComes t.history result (.execute block .fpFault)
    fun next => ∃ pc, next = .reportFpFault pc
  /-- The fault is reported at the program counter that the block left behind. -/
  reported : ∀ pc, .reportFpFault pc ∈ t.history →
    ∃ loop before, first.Reaches (Traced.start e) .fpFault loop before ∧ pc = Executor.pc before ∧
      t = before.after (.reportFpFault pc) (Executor.reportFpFault pc before.inner)
  broken : ∀ block, ThenComes t.history result (.execute block .breakpoint)
    fun next => next = .restoreSnapshot
  /-- A call that ends the run has no other behind it, and the run has returned. -/
  ended : ∀ call r, call.Ends (Executor.pc t) r → ∀ before after,
    t.history = before ++ call :: after → after = [] ∧ result = some r
  /-- There is no other way to return. -/
  returned : ∀ r, result = some r →
    ∃ before call, t.history = before ++ [call] ∧ call.Ends (Executor.pc t) r
  /-- A block is handed over only where it may run, also one that never ends. -/
  handed : ∀ loop before block, first.Reaches (Traced.start e) .dispatchUnchecked loop before →
    loop.Hands before block t → ∃ earlier last, before.history = earlier ++ [last] ∧
      (last = .sliceExpired false ∨ ∃ chained, last = .execute chained .chain)
  goes_on : result = none → first.GoesOn e t ∨ first.InEndlessBlock e t

section Moment

variable {loop : RunLoop} {result : Option (Except LoopError LoopEnd)} {call : ExecutorCall}

/-- The last call ends the run if and only if the run has returned. -/
def Settled (calls : List ExecutorCall) (pc : Addr)
    (result : Option (Except LoopError LoopEnd)) : Prop :=
  match result with
  | none => ∀ call ∈ calls.head?, ∀ r, ¬ call.Ends pc r
  | some r => ∃ call rest, calls = call :: rest ∧ call.Ends pc r

theorem fetched_of_hands (h : loop.Hands t block t') : Fetched t block t' := by
  obtain ⟨loop', hObtains⟩ := hands_iff.mp h
  exact fetched_of_obtains hObtains

theorem Moment.course (h : first.Moment e t result) :
    Course t.calls ∧ Settled t.calls (Executor.pc t) result := by
  cases h with
  | reached hReaches =>
      obtain ⟨hCourse, hLeads⟩ := Course.reaches hReaches
      refine ⟨hCourse, fun call hCall r => ?_⟩
      exact ExecutorCall.not_ends_of_leadsTo? (hLeads.last call hCall)
  | handed hReaches hHands =>
      obtain ⟨hCourse, hLeads⟩ := Course.reaches hReaches
      have hFetched := fetched_of_hands hHands
      refine ⟨(hCourse.fetched hLeads hFetched .dispatch).1, fun call hCall r => ?_⟩
      cases hFetched with
      | cached => exact ExecutorCall.not_ends_of_leadsTo? (hLeads.last call hCall)
      | compiled _ hStart =>
          cases hCall
          exact ExecutorCall.not_ends_of_compiled hStart
  | @returned fuel ended hRun =>
      obtain ⟨last, loop', before, taken, hReaches, hStep, hTaken⟩ := exists_leave_of_run hRun
      obtain ⟨hCourse, hLeads⟩ := Course.reaches hReaches
      have hLeg := leg_of_step hStep
      rw [hTaken] at hLeg
      exact hCourse.leg hLeads hLeg

/-- The calls of a moment, oldest first, each with the one right behind it. -/
theorem Moment.precedes (h : first.Moment e t result) {next : ExecutorCall}
    {before rest : List ExecutorCall} (hHistory : t.history = before ++ call :: next :: rest) :
    call.Precedes next := by
  have hChain : t.history.IsChain ExecutorCall.Precedes :=
    List.isChain_reverse.mpr h.course.1.chain
  exact List.isChain_iff_forall_rel_of_append_cons_cons.mp hChain hHistory

theorem Moment.thenComes (h : first.Moment e t result) {next : ExecutorCall → Prop}
    (hEnds : ∀ r, ¬ call.Ends (Executor.pc t) r) (hNext : ∀ c, call.Precedes c → next c) :
    ThenComes t.history result call next := by
  intro before after hHistory
  cases after with
  | cons following rest => exact Or.inr ⟨following, rest, rfl, hNext _ (h.precedes hHistory)⟩
  | nil =>
      cases result with
      | none => exact Or.inl ⟨rfl, rfl⟩
      | some r =>
          obtain ⟨last, rest, hCalls, hLast⟩ := h.course.2
          rw [Traced.history, hCalls, List.reverse_cons] at hHistory
          cases (List.append_inj' hHistory rfl).2
          exact absurd hLast (hEnds r)

/-- Behind a call that leads to an entry, the entry begins. -/
theorem Moment.thenOpens (h : first.Moment e t result) {next : ExecutorCall → Prop}
    (hLeads : call.leadsTo? = some entry) (hNext : ∀ c, ExecutorCall.Opens entry c → next c) :
    ThenComes t.history result call next :=
  h.thenComes (fun _ => ExecutorCall.not_ends_of_leadsTo? hLeads) fun c hPrecedes =>
    hNext c (hPrecedes.opens hLeads)

theorem Moment.bound_first (h : first.Moment e t result) :
    t.history = [] ∨ ∃ registers rest,
      t.history = .bindRegisters registers :: rest ∧ ∀ again, .bindRegisters again ∉ rest := by
  cases hHistory : t.history with
  | nil => exact Or.inl rfl
  | cons call rest =>
      have hLast : call ∈ t.calls.getLast? := by
        rw [← List.head?_reverse]
        show t.history.head? = some call
        rw [hHistory]
        rfl
      obtain ⟨registers, rfl⟩ := h.course.1.started call hLast
      refine Or.inr ⟨registers, rest, rfl, fun again hAgain => ?_⟩
      -- any other call stands right behind one, and none has this one behind it
      obtain ⟨before, after, rfl⟩ := List.append_of_mem hAgain
      rcases List.eq_nil_or_concat' (.bindRegisters registers :: before) with
        hNil | ⟨init, last, hEq⟩
      · cases hNil
      · rw [← List.cons_append, hEq, List.append_assoc] at hHistory
        exact (h.precedes hHistory).ne_bindRegisters again rfl

theorem Moment.raised_before (h : first.Moment e t result) {op : Opcode} {answer : CallOutcome}
    {before after : List ExecutorCall}
    (hHistory : t.history = before ++ .syscall op answer :: after) :
    ∃ earlier block, before = earlier ++ [.execute block (.syscall op)] := by
  rcases List.eq_nil_or_concat' before with rfl | ⟨earlier, last, rfl⟩
  · rcases h.bound_first with hNil | ⟨registers, rest, hBound, -⟩
    · rw [hNil] at hHistory
      cases hHistory
    · rw [hBound] at hHistory
      cases hHistory
  · rw [List.append_assoc] at hHistory
    have hPrecedes : last.Precedes (.syscall op answer) := h.precedes hHistory
    cases hPrecedes with
    | entry hLeads hOpens => cases hOpens
    | raised block => exact ⟨earlier, block, rfl⟩

theorem Moment.ended (h : first.Moment e t result) {r : Except LoopError LoopEnd}
    (hEnds : call.Ends (Executor.pc t) r) {before after : List ExecutorCall}
    (hHistory : t.history = before ++ call :: after) : after = [] ∧ result = some r := by
  cases after with
  | cons following rest => exact absurd hEnds (h.precedes hHistory).not_ends
  | nil =>
      have hCalls : t.calls = call :: before.reverse := by
        rw [← List.reverse_reverse t.calls, ← Traced.history, hHistory, List.reverse_append]
        rfl
      have hSettled := h.course.2
      rw [hCalls] at hSettled
      cases result with
      | none => exact absurd hEnds (hSettled call rfl r)
      | some returned =>
          obtain ⟨last, rest, hLast, hReturned⟩ := hSettled
          cases hLast
          exact ⟨rfl, congrArg some (hReturned.unique hEnds)⟩

theorem Moment.returned_with (h : first.Moment e t result) {r : Except LoopError LoopEnd}
    (hResult : result = some r) :
    ∃ before last, t.history = before ++ [last] ∧ last.Ends (Executor.pc t) r := by
  subst hResult
  obtain ⟨last, rest, hCalls, hLast⟩ := h.course.2
  refine ⟨rest.reverse, last, ?_, hLast⟩
  rw [Traced.history, hCalls, List.reverse_cons]

/-- A fault is reported by the last call of a run, at the entry for it. -/
theorem Moment.reported (h : first.Moment e t result) {pc : Addr}
    (hReported : .reportFpFault pc ∈ t.history) :
    ∃ loop before, first.Reaches (Traced.start e) .fpFault loop before ∧ pc = Executor.pc before ∧
      t = before.after (.reportFpFault pc) (Executor.reportFpFault pc before.inner) := by
  obtain ⟨before, after, hHistory⟩ := List.append_of_mem hReported
  obtain ⟨rfl, hResult⟩ := h.ended (.fpFault pc) hHistory
  cases h with
  | reached => cases hResult
  | handed => cases hResult
  | @returned fuel ended hRun =>
      obtain ⟨entry, loop', there, taken, hReaches, hStep, hTaken⟩ := exists_leave_of_run hRun
      have hLeg := leg_of_step hStep
      have hEnded : ended.value.1 = .ok (.fpFault pc) := Option.some.inj hResult
      rw [hTaken, hEnded] at hLeg
      dsimp only at hLeg
      generalize hAfter : ended.value.2.2 = t' at hLeg
      cases hLeg with
      | fpFault => exact ⟨loop', there, hReaches, rfl, rfl⟩

/-- A visit begins behind a slice that is not used up, or behind a block that chains to the next. -/
theorem Reaches.opened (h : first.Reaches (Traced.start e) .dispatchUnchecked loop t) :
    ∃ earlier last, t.history = earlier ++ [last] ∧
      (last = .sliceExpired false ∨ ∃ block, last = .execute block .chain) := by
  obtain ⟨-, hLeads⟩ := Course.reaches h
  cases hCalls : t.calls with
  | nil => cases hLeads.enter hCalls
  | cons last rest =>
      refine ⟨rest.reverse, last, by rw [Traced.history, hCalls, List.reverse_cons], ?_⟩
      have hLast : last.leadsTo? = some .dispatchUnchecked := hLeads.last last (by rw [hCalls]; rfl)
      cases last with
      | runState state => cases state <;> cases hLast
      | sliceExpired expired =>
          cases expired with
          | true => cases hLast
          | false => exact Or.inl rfl
      | execute block answer =>
          cases answer with
          | chain => exact Or.inr ⟨block, rfl⟩
          | _ => cases hLast
      | _ => cases hLast

/-- A step from a reached entry makes for a later moment. -/
theorem Reaches.exists_moment {taken : Logged (Transition × RunLoop × Traced E)}
    (h : first.Reaches (Traced.start e) entry loop t) (hStep : loop.step t entry = some taken) :
    ∃ result, first.Moment e taken.value.2.2 result := by
  rcases hTaken : taken.value with ⟨transition, loop', t'⟩
  cases transition with
  | goto next => exact ⟨none, .reached (h.goto hStep hTaken)⟩
  | leave r =>
      obtain ⟨fuel, ended, hRun, hValue⟩ := h.run_of_leave hStep hTaken
      have hMoment := Moment.returned hRun
      rw [hValue] at hMoment
      exact ⟨some r, hMoment⟩

/-- The loop is only held up by a block that never ends. -/
theorem exists_endless_of_step (h : loop.step t entry = none) :
    entry = .dispatchUnchecked ∧
      ∃ block handed, loop.Hands t block handed ∧ Executor.execute block handed = none := by
  cases entry with
  | dispatchUnchecked =>
      obtain ⟨fetched, loop', handed, hObtains⟩ := exists_obtains loop t
      cases fetched with
      | error cause =>
          rw [step_of_obtains_error hObtains] at h
          cases h
      | ok block =>
          rw [step_of_obtains_ok hObtains, Option.map_eq_none_iff] at h
          exact ⟨rfl, block, handed, hands_iff.mpr ⟨loop', hObtains⟩, h⟩
  | checkState =>
      obtain ⟨taken, hTaken, -⟩ := step_checkState loop t
      rw [hTaken] at h
      cases h
  | _ => cases h

theorem exists_calls_afterBlock (loop : RunLoop) (t : Traced E) (blockEnd : BlockEnd) :
    ∃ calls, (loop.afterBlock t blockEnd).value.2.2.calls = calls ++ t.calls := by
  rcases loop.afterBlock_cases t blockEnd with ⟨op, -, hValue⟩ | hValue
  · rw [hValue]
    exact ⟨[_], rfl⟩
  · rw [hValue]
    exact ⟨[], rfl⟩

omit [Executor E] in
theorem history_of_calls {calls : List ExecutorCall} (h : t'.calls = calls ++ t.calls) :
    t'.history = t.history ++ calls.reverse := by
  rw [Traced.history, h, List.reverse_append, Traced.history]

theorem Moment.goes_on (h : first.Moment e t none) :
    first.GoesOn e t ∨ first.InEndlessBlock e t := by
  cases h with
  | @reached entry loop _ hReaches =>
      cases hStep : loop.step t entry with
      | some taken =>
          obtain ⟨calls, hNew, hCalls⟩ := (leg_of_step hStep).exists_calls
          obtain ⟨result, hMoment⟩ := hReaches.exists_moment hStep
          exact Or.inl ⟨_, result, calls.reverse, hMoment, by simpa using hNew,
            history_of_calls hCalls⟩
      | none =>
          obtain ⟨rfl, block, handed, hHands, hEndless⟩ := exists_endless_of_step hStep
          exact Or.inr ⟨loop, t, block, handed, hReaches, hHands, hEndless, Or.inl rfl⟩
  | @handed loop before _ block hReaches hHands =>
      cases hExecute : Executor.execute block t with
      | none => exact Or.inr ⟨loop, before, block, t, hReaches, hHands, hExecute, Or.inr rfl⟩
      | some answer =>
          obtain ⟨blockEnd, after⟩ := answer
          obtain ⟨loop', hObtains⟩ := hands_iff.mp hHands
          have hStep := step_of_obtains_ok hObtains
          rw [hExecute] at hStep
          obtain ⟨result, hMoment⟩ := hReaches.exists_moment hStep
          obtain ⟨calls, hCalls⟩ := exists_calls_afterBlock
            { loop' with executed := loop'.executed + 1 } after blockEnd
          rw [Traced.calls_of_execute hExecute, List.append_cons] at hCalls
          exact Or.inl ⟨_, result, _, hMoment, by simp, history_of_calls hCalls⟩

end Moment

/-- At every moment of every run, also of one that never returns, the calls of the executor are as
the entries of the loop promise. -/
theorem calls_follow_protocol {first : RunLoop} {e : E} {t : Traced E}
    {result : Option (Except LoopError LoopEnd)} (h : first.Moment e t result) :
    Protocol first e t result where
  bound_first := h.bound_first
  synced registers := h.thenOpens rfl fun _ => ExecutorCall.Opens.eq_runState
  raised block op := h.thenComes nofun fun _ hPrecedes => by
    cases hPrecedes with
    | entry hLeads _ => cases hLeads
    | raised _ _ answer => exact ⟨answer, rfl⟩
  raised_before _ _ _ _ hHistory := h.raised_before hHistory
  answered op answer := h.thenOpens rfl fun _ => ExecutorCall.Opens.eq_runState
  rescheduled block := h.thenOpens rfl fun _ => ExecutorCall.Opens.eq_syncRegisters
  expired := h.thenOpens rfl fun _ => ExecutorCall.Opens.eq_syncRegisters
  dispatched block := h.thenOpens rfl fun _ => ExecutorCall.Opens.eq_sliceExpired
  chained block := h.thenOpens rfl fun _ => ExecutorCall.Opens.eq_compile_or_execute
  compiled pc block hStart :=
    h.thenComes (fun _ => ExecutorCall.not_ends_of_compiled hStart) fun _ hPrecedes => by
      cases hPrecedes with
      | entry hLeads _ => cases hLeads
      | compiled _ answer => exact ⟨answer, rfl⟩
  faulted block := h.thenOpens rfl fun _ => ExecutorCall.Opens.eq_reportFpFault
  reported _ hReported := h.reported hReported
  broken block := h.thenOpens rfl fun _ => ExecutorCall.Opens.eq_restoreSnapshot
  ended _ _ hEnds _ _ hHistory := h.ended hEnds hHistory
  returned _ hResult := h.returned_with hResult
  handed _ _ _ hReaches _ := hReaches.opened
  goes_on hResult := by
    subst hResult
    exact h.goes_on

/-- An executor whose blocks chain, raise a system call, find the slice used up, and fault. -/
def chainThenFault : Script :=
  ⟨0x08804000, [⟨.chain, none, none, none, none⟩, ⟨.syscall ⟨0xC⟩, none, none, some 1, none⟩,
    ⟨.dispatch, none, none, none, none⟩, ⟨.fpFault, some 0x08900000, none, none, none⟩],
    .running, 0, .invalidOpcode, .empty, .empty, .empty, none⟩

/-- Its run reports the fault where the last block left the program counter, and returns. -/
theorem faulting_run_follows_protocol :
    ∃ fuel ended, bare.run fuel (Traced.start chainThenFault) = some ended ∧
      ended.value.1 = .ok (.fpFault 0x08900000) ∧
      Protocol bare chainThenFault ended.value.2.2 (some ended.value.1) := by
  have hRun : (bare.run 16 (Traced.start chainThenFault)).isSome = true := rfl
  obtain ⟨ended, hEnded⟩ := Option.isSome_iff_exists.mp hRun
  have hResult : ((bare.run 16 (Traced.start chainThenFault)).map (·.value.1)) =
      some (.ok (.fpFault 0x08900000)) := rfl
  rw [hEnded] at hResult
  exact ⟨16, ended, hEnded, Option.some.inj hResult, calls_follow_protocol (.returned hEnded)⟩

end RunLoop
end HostCalls
