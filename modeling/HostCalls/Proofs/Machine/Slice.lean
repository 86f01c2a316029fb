import HostCalls.Proofs.Loop.Counters
import HostCalls.Proofs.Loop.Protocol
import HostCalls.Proofs.Machine.CoreState

/-!
# The time slice of the interpreter

Between two passes through the outer entry of the loop, guest code has a time slice of 64 blocks. It
cannot get around the pass at the end of its slice, and the loop does not pass the entry again and
again without executing anything.

* `Rationed` says of a list of calls that no slice has too many blocks and that there are blocks
  between any two passes; `Rationed.totals` counts them.
* `Paced` is what is known at each entry that a run of the interpreter reaches. The blocks since the
  last pass and the blocks left make up a slice. `rationed_step` is the step, and
  `rationed_of_moment` says so of every moment of a run.
* `leadsOn_of_outer`: after a pass, the loop tries to execute a block or returns. A slice that has
  just begun can only count as used up at the end of guest code, where the core is not running.
* `slices_bound_blocks` puts these together, also in terms of the counters of the loop.
-/

namespace HostCalls

open ExecutorCall (count)

/-- The number of blocks executed since the last pass through the outer entry, if calls are given
latest first. -/
def blocksSincePass (calls : List ExecutorCall) : Nat :=
  count .execute (calls.takeWhile fun call => call.kind ≠ .syncRegisters)

/-- Calls, latest first, of which no slice has more than `ration` blocks. No block comes before the
first pass, and there is one between any two. -/
inductive Rationed (ration : Nat) : List ExecutorCall → Prop
  | nil : Rationed ration []
  | cons {call : ExecutorCall} {past : List ExecutorCall} (hPast : Rationed ration past)
      (hExecute : call.kind = .execute →
        0 < count .syncRegisters past ∧ blocksSincePass past < ration)
      (hPass : call.kind = .syncRegisters →
        count .syncRegisters past = 0 ∨ 0 < blocksSincePass past) :
      Rationed ration (call :: past)

section Rationed

variable {ration : Nat} {call : ExecutorCall} {calls past more : List ExecutorCall}

@[simp] theorem blocksSincePass_nil : blocksSincePass [] = 0 := rfl

theorem blocksSincePass_cons (call : ExecutorCall) (calls : List ExecutorCall) :
    blocksSincePass (call :: calls) =
      if call.kind = .syncRegisters then 0
      else blocksSincePass calls + if call.kind = .execute then 1 else 0 := by
  unfold blocksSincePass
  by_cases hPass : call.kind = .syncRegisters
  · simp [hPass]
  · simp [hPass, List.takeWhile_cons_of_pos]

/-- The blocks behind a pass are counted up to the next one. -/
theorem blocksSincePass_append {middle : List ExecutorCall} (registers : PinnedRegisters)
    (h : ∀ call ∈ middle, call.kind ≠ .syncRegisters) :
    blocksSincePass (middle ++ .syncRegisters registers :: past) = count .execute middle := by
  unfold blocksSincePass
  rw [List.takeWhile_append_of_pos (by simpa using h)]
  simp [ExecutorCall.kind]

theorem exists_execute_of_blocksSincePass {middle : List ExecutorCall}
    {registers : PinnedRegisters}
    (h : 0 < blocksSincePass (middle ++ .syncRegisters registers :: past)) :
    ∃ block answer, .execute block answer ∈ middle := by
  induction middle with
  | nil => exact absurd h (Nat.lt_irrefl 0)
  | cons call middle ih =>
      by_cases hIsExecute : call.kind = .execute
      · obtain ⟨block, answer, rfl⟩ := ExecutorCall.eq_execute_of_kind hIsExecute
        exact ⟨block, answer, List.mem_cons_self⟩
      · rw [List.cons_append, blocksSincePass_cons, if_neg hIsExecute] at h
        split at h
        · exact absurd h (Nat.lt_irrefl 0)
        · obtain ⟨block, answer, hMem⟩ := ih h
          exact ⟨block, answer, List.mem_cons_of_mem _ hMem⟩

namespace Rationed

theorem quiet (h : Rationed ration past) (hExecute : call.kind ≠ .execute)
    (hPass : call.kind ≠ .syncRegisters) : Rationed ration (call :: past) :=
  h.cons (fun hEq => absurd hEq hExecute) fun hEq => absurd hEq hPass

theorem of_append (h : Rationed ration (more ++ past)) : Rationed ration past := by
  induction more with
  | nil => exact h
  | cons call more ih =>
      cases h with
      | cons hPast => exact ih hPast

/-- Every pass pays for one ration of blocks, of which what is left of the present slice has not
been used; and every pass but the last one was followed by a block. -/
theorem totals (h : Rationed ration calls) :
    (count .syncRegisters calls = 0 ∧ count .execute calls = 0) ∨
      (count .execute calls + ration ≤
          ration * count .syncRegisters calls + blocksSincePass calls ∧
        blocksSincePass calls ≤ ration ∧
        count .syncRegisters calls ≤ count .execute calls + 1 ∧
        (0 < blocksSincePass calls → count .syncRegisters calls ≤ count .execute calls)) := by
  induction h with
  | nil => exact Or.inl ⟨rfl, rfl⟩
  | @cons call past hPast hExecute hPass ih =>
      by_cases hIsExecute : call.kind = .execute
      · obtain ⟨hAfterPass, hLeft⟩ := hExecute hIsExecute
        simp only [ExecutorCall.count_cons, blocksSincePass_cons, hIsExecute, reduceCtorEq,
          if_true, if_false, Nat.add_zero]
        omega
      · by_cases hIsPass : call.kind = .syncRegisters
        · have hBefore := hPass hIsPass
          simp only [ExecutorCall.count_cons, blocksSincePass_cons, hIsPass, reduceCtorEq,
            if_true, if_false, Nat.mul_add, Nat.mul_one]
          rcases ih with ⟨hNoPass, hNoBlock⟩ | hTotals
          · rw [hNoPass, hNoBlock]
            omega
          · omega
        · simp only [ExecutorCall.count_cons, blocksSincePass_cons, hIsExecute, hIsPass, if_false,
            Nat.add_zero]
          exact ih

theorem executed_le (h : Rationed ration calls) :
    count .execute calls ≤ ration * count .syncRegisters calls := by
  rcases h.totals with ⟨-, hNone⟩ | hTotals
  · rw [hNone]
    exact Nat.zero_le _
  · omega

theorem passes_le (h : Rationed ration calls) :
    count .syncRegisters calls ≤ count .execute calls + 1 := by
  rcases h.totals with hNone | hTotals <;> omega

theorem blocksSincePass_le (h : Rationed ration calls) : blocksSincePass calls ≤ ration := by
  induction h with
  | nil => exact Nat.zero_le _
  | @cons call past hPast hExecute hPass ih =>
      rw [blocksSincePass_cons]
      split
      · exact Nat.zero_le _
      · split
        · rename_i hIsExecute
          exact (hExecute hIsExecute).2
        · exact ih

end Rationed
end Rationed

@[simp] theorem Traced.history_after {E : Type} (t : Traced E) (call : ExecutorCall) (e : E) :
    (t.after call e).history = t.history ++ [call] :=
  List.reverse_cons

namespace Interpreter

variable {first loop loop' : RunLoop} {e : Interpreter} {t t' t'' : Traced Interpreter}
  {block : NativeBlock} {blockEnd : BlockEnd} {entry : LoopEntry}

/-- A block takes one off the slice, and chains only if something is left of it. -/
theorem downcount_execute {x x' : Interpreter} (h : x.execute block = some (blockEnd, x')) :
    x'.downcount = x.downcount - 1 ∧ (blockEnd = .chain → 0 < x'.downcount) := by
  unfold execute at h
  dsimp only at h
  split at h
  · cases h
  · rename_i r blockEnd' hRun
    cases h
    refine ⟨rfl, ?_⟩
    rintro rfl
    exact absurd hRun Ram.runBlock_ne_chain
  · cases h
    refine ⟨rfl, fun hChain => ?_⟩
    split at hChain
    · assumption
    · cases hChain

theorem downcount_syscall (op : Opcode) (x : Interpreter) :
    (x.syscall op).value.2.downcount = x.downcount := rfl

/-- The blocks since the last pass and the blocks left make up a slice. -/
structure InSlice (t : Traced Interpreter) : Prop where
  passed : 0 < count .syncRegisters t.calls
  slice : t.inner.downcount + blocksSincePass t.calls = 64

/-- What is known when a run of the interpreter reaches an entry. -/
def Paced : LoopEntry → Traced Interpreter → Prop
  | .enter, t => t.calls = []
  | .outer, t => count .syncRegisters t.calls = 0 ∨ 0 < blocksSincePass t.calls
  | .checkState, t => InSlice t
  | .dispatch, t => InSlice t ∧
      (0 < blocksSincePass t.calls ∨ t.inner.registers.pc ≠ Machine.exitAddr)
  | .dispatchUnchecked, t => InSlice t ∧ 0 < t.inner.downcount
  | .fpFault, _ => True
  | .breakpoint, _ => True

/-- Calls that are neither passes nor blocks have no part in a slice. -/
theorem InSlice.quiet (h : InSlice t) {call : ExecutorCall} {x : Interpreter}
    (hExecute : call.kind ≠ .execute) (hPass : call.kind ≠ .syncRegisters)
    (hDowncount : x.downcount = t.inner.downcount) : InSlice (t.after call x) := by
  obtain ⟨hPassed, hSlice⟩ := h
  refine ⟨?_, ?_⟩
  · simp [Traced.after, hPass, hPassed]
  · simp [Traced.after, blocksSincePass_cons, hExecute, hPass, hDowncount, hSlice]

/-- A slice begins with a pass. -/
theorem inSlice_sync (t : Traced Interpreter) (registers : PinnedRegisters) :
    InSlice (Executor.syncRegisters registers t) := by
  have hCalls : (Executor.syncRegisters registers t).calls =
    .syncRegisters registers :: t.calls := rfl
  refine ⟨?_, ?_⟩
  · rw [hCalls]
    simp [ExecutorCall.kind]
  · rw [hCalls, blocksSincePass_cons]
    rfl

/-- Coming by a block takes nothing off the slice. -/
theorem inSlice_of_obtains {result : Except LoopError NativeBlock} (h : InSlice t)
    (hRationed : Rationed 64 t.calls) (hObtains : loop.Obtains t result loop' t') :
    InSlice t' ∧ Rationed 64 t'.calls ∧ t'.inner = t.inner := by
  have hInner : t'.inner = t.inner := eq_of_obtains (Traced.obtains_inner hObtains)
  cases hObtains with
  | hit hFound => exact ⟨h, hRationed, rfl⟩
  | compiled hMissing hCompile hStart =>
      rw [Traced.eq_after_of_compile hCompile]
      exact ⟨h.quiet nofun nofun (congrArg downcount hInner), hRationed.quiet nofun nofun, hInner⟩
  | refused hMissing hCompile hRefused =>
      rw [Traced.eq_after_of_compile hCompile]
      exact ⟨h.quiet nofun nofun (congrArg downcount hInner), hRationed.quiet nofun nofun, hInner⟩

/-- A block is taken off the slice, and the loop goes on with what is left of it. -/
theorem rationed_execute (h : InSlice t) (hRationed : Rationed 64 t.calls)
    (hLeft : 0 < t.inner.downcount) (hExecute : Executor.execute block t = some (blockEnd, t')) :
    Rationed 64 t'.calls ∧ InSlice t' ∧ 0 < blocksSincePass t'.calls ∧
      (blockEnd = .chain → 0 < t'.inner.downcount) := by
  obtain ⟨⟨answer, x⟩, hInner, hEq⟩ := Option.map_eq_some_iff.mp hExecute
  cases hEq
  obtain ⟨hDowncount, hChain⟩ := downcount_execute hInner
  obtain ⟨hPassed, hSlice⟩ := h
  have hBlocks : blocksSincePass (.execute block blockEnd :: t.calls) =
      blocksSincePass t.calls + 1 := blocksSincePass_cons _ _
  refine ⟨hRationed.cons (fun _ => ⟨hPassed, by omega⟩) nofun, ⟨hPassed, ?_⟩, ?_, hChain⟩
  · show x.downcount + blocksSincePass (.execute block blockEnd :: t.calls) = 64
    rw [hBlocks, hDowncount]
    omega
  · show 0 < blocksSincePass (.execute block blockEnd :: t.calls)
    rw [hBlocks]
    exact Nat.succ_pos _

/-- A slice of which no block has been executed counts as used up only at the end of guest code. -/
theorem begun_of_expired (h : InSlice t)
    (hBegun : 0 < blocksSincePass t.calls ∨ t.inner.registers.pc ≠ Machine.exitAddr)
    (hExpired : t.inner.sliceExpired = true) : 0 < blocksSincePass t.calls := by
  have hSlice := h.slice
  unfold sliceExpired at hExpired
  rw [Bool.or_eq_true, decide_eq_true_eq, beq_iff_eq] at hExpired
  rcases hExpired with hUsedUp | hExit
  · omega
  · exact hBegun.resolve_right (not_not_intro hExit)

theorem left_of_not_expired {x : Interpreter} (h : x.sliceExpired = false) : 0 < x.downcount := by
  unfold sliceExpired at h
  rw [Bool.or_eq_false_iff, decide_eq_false_iff_not] at h
  omega

/-- After a block the loop goes on with what an entry needs, also behind a system call. -/
theorem rationed_afterBlock (loop : RunLoop) (hRationed : Rationed 64 t.calls) (h : InSlice t)
    (hBegun : 0 < blocksSincePass t.calls) (hChain : blockEnd = .chain → 0 < t.inner.downcount) :
    Rationed 64 (loop.afterBlock t blockEnd).value.2.2.calls ∧
      ∀ next, (loop.afterBlock t blockEnd).value.1 = .goto next →
        Paced next (loop.afterBlock t blockEnd).value.2.2 := by
  rcases loop.afterBlock_cases t blockEnd with ⟨op, -, hValue⟩ | hValue
  · rw [hValue]
    refine ⟨hRationed.quiet nofun nofun, fun next hNext => ?_⟩
    cases hNext
    exact h.quiet nofun nofun (downcount_syscall op t.inner)
  · rw [hValue]
    refine ⟨hRationed, fun next hNext => ?_⟩
    cases hNext
    cases blockEnd with
    | dispatch => exact ⟨h, Or.inl hBegun⟩
    | chain => exact ⟨h, hChain rfl⟩
    | syscall op => exact h
    | reschedule => exact Or.inr hBegun
    | fpFault => trivial
    | breakpoint => trivial

/-- Every entry of the loop leaves the calls rationed, and the next one with what it needs for
it. -/
theorem rationed_step {taken : Logged (Transition × RunLoop × Traced Interpreter)}
    (hRationed : Rationed 64 t.calls) (hPaced : Paced entry t)
    (hStep : loop.step t entry = some taken) :
    Rationed 64 taken.value.2.2.calls ∧
      ∀ next, taken.value.1 = .goto next → Paced next taken.value.2.2 := by
  cases entry with
  | enter =>
      cases hStep
      refine ⟨hRationed.quiet nofun nofun, fun next hNext => ?_⟩
      cases hNext
      left
      show count .syncRegisters (.bindRegisters _ :: t.calls) = 0
      rw [show t.calls = [] from hPaced]
      rfl
  | outer =>
      cases hStep
      refine ⟨hRationed.cons nofun fun _ => hPaced, fun next hNext => ?_⟩
      cases hNext
      exact inSlice_sync t _
  | checkState =>
      obtain ⟨taken', hTaken', hValue⟩ := RunLoop.step_checkState loop t
      rw [hTaken'] at hStep
      cases hStep
      rw [hValue]
      refine ⟨hRationed.quiet nofun nofun, fun next hNext => ?_⟩
      dsimp only at hNext
      split at hNext
      · rename_i hState
        cases hNext
        have hRunning := runState_eq_running_iff.mp (RunState.isRunning_iff.mp hState)
        exact ⟨InSlice.quiet hPaced nofun nofun rfl, Or.inr hRunning.2⟩
      · cases hNext
  | dispatch =>
      obtain ⟨hInSlice, hBegun⟩ := hPaced
      cases hStep
      refine ⟨hRationed.quiet nofun nofun, fun next hNext => ?_⟩
      cases hNext
      have hBlocks : blocksSincePass (.sliceExpired t.inner.sliceExpired :: t.calls) =
        blocksSincePass t.calls := blocksSincePass_cons _ _
      show Paced (if t.inner.sliceExpired then .outer else .dispatchUnchecked)
        (t.after (.sliceExpired t.inner.sliceExpired) t.inner)
      split
      · rename_i hExpired
        refine Or.inr ?_
        show 0 < blocksSincePass (.sliceExpired t.inner.sliceExpired :: t.calls)
        rw [hBlocks]
        exact begun_of_expired hInSlice hBegun hExpired
      · rename_i hExpired
        have hLeft := left_of_not_expired (Bool.not_eq_true _ ▸ hExpired)
        exact ⟨hInSlice.quiet nofun nofun rfl, hLeft⟩
  | dispatchUnchecked =>
      obtain ⟨hInSlice, hLeft⟩ := hPaced
      rcases RunLoop.unchecked_cases hStep with
        ⟨cause, loop₁, t₁, hObtains, rfl⟩ |
        ⟨block, loop₁, t₁, blockEnd, t₂, hObtains, hExecute, rfl⟩
      · exact ⟨(inSlice_of_obtains hInSlice hRationed hObtains).2.1, nofun⟩
      · obtain ⟨hInSlice₁, hRationed₁, hInner⟩ := inSlice_of_obtains hInSlice hRationed hObtains
        rw [← hInner] at hLeft
        obtain ⟨hRationed₂, hInSlice₂, hBegun, hChain⟩ :=
          rationed_execute hInSlice₁ hRationed₁ hLeft hExecute
        exact rationed_afterBlock _ hRationed₂ hInSlice₂ hBegun hChain
  | fpFault =>
      cases hStep
      exact ⟨hRationed.quiet nofun nofun, nofun⟩
  | breakpoint =>
      cases hStep
      exact ⟨hRationed.quiet nofun nofun, nofun⟩

theorem rationed_of_reaches (h : first.Reaches (Traced.start e) entry loop t) :
    Rationed 64 t.calls ∧ Paced entry t := by
  induction h with
  | enter => exact ⟨.nil, rfl⟩
  | goto _ hStep hTaken ih =>
      obtain ⟨hRationed, hNext⟩ := rationed_step ih.1 ih.2 hStep
      rw [hTaken] at hRationed hNext
      exact ⟨hRationed, hNext _ rfl⟩

/-- At every moment of a run the calls are rationed. -/
theorem rationed_of_moment {result : Option (Except LoopError LoopEnd)}
    (h : first.Moment e t result) : Rationed 64 t.calls := by
  cases h with
  | reached hReaches => exact (rationed_of_reaches hReaches).1
  | handed hReaches hHands =>
      obtain ⟨hRationed, hInSlice, -⟩ := rationed_of_reaches hReaches
      obtain ⟨loop', hObtains⟩ := RunLoop.hands_iff.mp hHands
      exact (inSlice_of_obtains hInSlice hRationed hObtains).2.1
  | returned hRun =>
      obtain ⟨last, loop', t', taken, hReaches, hStep, hTaken⟩ := RunLoop.exists_leave_of_run hRun
      obtain ⟨hRationed, hPaced⟩ := rationed_of_reaches hReaches
      have hAfter := (rationed_step hRationed hPaced hStep).1
      rwa [hTaken] at hAfter

/-- What holds of the calls of a run, oldest first. -/
structure KeepsSlices (history : List ExecutorCall) : Prop where
  /-- Between a pass and the next one, or the end, at most 64 blocks are executed. -/
  bounded : ∀ before registers middle after,
    history = before ++ .syncRegisters registers :: (middle ++ after) →
    (∀ again, .syncRegisters again ∉ middle) → count .execute middle ≤ 64
  before_pass : ∀ before after, history = before ++ after →
    (∀ registers, .syncRegisters registers ∉ before) → count .execute before = 0
  /-- Between any two passes a block is executed. -/
  between : ∀ before registers middle again after,
    history = before ++ .syncRegisters registers :: (middle ++ .syncRegisters again :: after) →
    ∃ block answer, .execute block answer ∈ middle
  executed_le : count .execute history ≤ 64 * count .syncRegisters history
  passes_le : count .syncRegisters history ≤ count .execute history + 1

theorem keepsSlices_of_rationed (h : Rationed 64 t.calls) : KeepsSlices t.history := by
  have hCount : ∀ kind, count kind t.history = count kind t.calls := fun kind =>
    ExecutorCall.count_reverse kind t.calls
  -- latest first, what a history begins with is what calls end with
  have hCalls : ∀ {before after}, t.history = before ++ after →
      t.calls = after.reverse ++ before.reverse := by
    intro before after hHistory
    rw [← List.reverse_append, ← hHistory, Traced.history, List.reverse_reverse]
  constructor
  case bounded =>
    intro before registers middle after hHistory hNoPass
    rw [List.append_cons, ← List.append_assoc] at hHistory
    have hSlice : Rationed 64 (middle.reverse ++ .syncRegisters registers :: before.reverse) := by
      rw [hCalls hHistory] at h
      simpa using h.of_append
    have hLe := hSlice.blocksSincePass_le
    rw [blocksSincePass_append, ExecutorCall.count_reverse] at hLe
    · exact hLe
    · intro call hCall hKind
      obtain ⟨again, rfl⟩ := ExecutorCall.eq_syncRegisters_of_kind hKind
      exact hNoPass again (List.mem_reverse.mp hCall)
  case before_pass =>
    intro before after hHistory hNoPass
    rw [hCalls hHistory] at h
    have hLe := h.of_append.executed_le
    have hNone : count .syncRegisters before.reverse = 0 := by
      refine ExecutorCall.count_eq_zero fun call hCall hKind => ?_
      obtain ⟨registers, rfl⟩ := ExecutorCall.eq_syncRegisters_of_kind hKind
      exact hNoPass registers (List.mem_reverse.mp hCall)
    rw [hNone, ExecutorCall.count_reverse] at hLe
    exact Nat.le_zero.mp hLe
  case between =>
    intro before registers middle again after hHistory
    rw [List.append_cons, ← List.append_assoc, List.append_cons] at hHistory
    have hPass : Rationed 64 (.syncRegisters again ::
        (middle.reverse ++ .syncRegisters registers :: before.reverse)) := by
      rw [hCalls hHistory] at h
      simpa using h.of_append
    cases hPass with
    | cons hPast hExecute hPass =>
        rcases hPass rfl with hNone | hBlocks
        · simp [ExecutorCall.kind] at hNone
        · obtain ⟨block, answer, hMem⟩ := exists_execute_of_blocksSincePass hBlocks
          exact ⟨block, answer, List.mem_reverse.mp hMem⟩
  case executed_le =>
    rw [hCount, hCount]
    exact h.executed_le
  case passes_le =>
    rw [hCount, hCount]
    exact h.passes_le

/-- At a visit the loop executes a block, or the run returns because a compilation is refused. -/
def TriesBlock (first : RunLoop) (e : Interpreter) (loop : RunLoop) (t : Traced Interpreter) :
    Prop :=
  (∃ block handed loop', loop.Hands t block handed ∧
    loop.runBlock t = (Executor.execute block handed).map fun (blockEnd, after) =>
      (.ok blockEnd, loop', after)) ∨
  ∃ cause fuel ended, cause.isRefusal = true ∧ first.run fuel (Traced.start e) = some ended ∧
    ended.value.1 = .error cause

theorem triesBlock_of_reaches (h : first.Reaches (Traced.start e) .dispatchUnchecked loop t) :
    TriesBlock first e loop t := by
  obtain ⟨result, loop', t', hObtains⟩ := RunLoop.exists_obtains loop t
  cases result with
  | ok block =>
      exact Or.inl ⟨block, t', _, RunLoop.hands_iff.mpr ⟨loop', hObtains⟩,
        RunLoop.runBlock_of_obtains_ok hObtains⟩
  | error cause =>
      obtain ⟨fuel, ended, hRun, hValue⟩ :=
        h.run_of_leave (RunLoop.step_of_obtains_error hObtains) rfl
      exact Or.inr ⟨cause, fuel, ended, hObtains.isRefusal, hRun, congrArg Prod.fst hValue⟩

/-- How a run goes on behind a pass that is next at `loop` and `t`. -/
inductive LeadsOn (first : RunLoop) (e : Interpreter) (loop : RunLoop) (t : Traced Interpreter) :
    Prop
  | returns {state : RunState} {fuel : Nat}
      {ended : Logged (Except LoopError LoopEnd × RunLoop × Traced Interpreter)}
      (hRun : first.run fuel (Traced.start e) = some ended)
      (hStopped : ended.value.1 = .ok (.stopped state))
      (hHistory : ended.value.2.2.history =
        t.history ++ [.syncRegisters loop.routines.registers, .runState state])
  | visits {loop' : RunLoop} {t' : Traced Interpreter}
      (hReaches : first.Reaches (Traced.start e) .dispatchUnchecked loop' t')
      (hHistory : t'.history = t.history ++
        [.syncRegisters loop.routines.registers, .runState .running, .sliceExpired false])
      (hTries : TriesBlock first e loop' t')

/-- A new slice is not used up while the core is running. -/
theorem not_expired_of_running {x : Interpreter} (h : x.renewSlice.runState = .running) :
    x.renewSlice.sliceExpired = false := by
  have hPc := (runState_eq_running_iff.mp h).2
  unfold sliceExpired
  rw [Bool.or_eq_false_iff, beq_eq_false_iff_ne]
  exact ⟨rfl, hPc⟩

theorem leadsOn_of_outer (h : first.Reaches (Traced.start e) .outer loop t) :
    LeadsOn first e loop t := by
  have hCheck := h.goto rfl rfl
  let synced := t.after (.syncRegisters loop.routines.registers) t.inner.renewSlice
  obtain ⟨taken, hStep, hTaken⟩ := RunLoop.step_checkState
    { loop with outerPasses := loop.outerPasses + 1 } synced
  rw [show (Executor.runState synced).1 = t.inner.renewSlice.runState from rfl] at hTaken
  by_cases hState : t.inner.renewSlice.runState.isRunning = true
  · have hRunning := RunState.isRunning_iff.mp hState
    have hChecked : (Executor.runState synced).2 =
        synced.after (.runState .running) t.inner.renewSlice := by
      rw [← hRunning]
      rfl
    rw [if_pos hState, hChecked] at hTaken
    have hDispatch := hCheck.goto hStep hTaken
    -- the slice is new and guest code is not at its end, so the loop does not turn back
    have hExpired : (synced.after (.runState .running) t.inner.renewSlice).inner.sliceExpired =
        false := not_expired_of_running hRunning
    have hVisit := hDispatch.goto rfl rfl
    rw [hExpired, if_neg Bool.false_ne_true] at hVisit
    refine .visits hVisit ?_ (triesBlock_of_reaches hVisit)
    simp [synced]
  · rw [if_neg hState] at hTaken
    obtain ⟨fuel, ended, hRun, hValue⟩ := hCheck.run_of_leave hStep hTaken
    have hChecked : (Executor.runState synced).2 =
        synced.after (.runState t.inner.renewSlice.runState) t.inner.renewSlice := rfl
    refine .returns hRun (congrArg Prod.fst hValue) ?_
    rw [hValue, hChecked]
    simp [synced]

/-- A loop that executed at most 64 blocks for each pass since it was `first`, and passed at most
once more than it executed blocks. -/
def CountersKeepSlices (first loop : RunLoop) : Prop :=
  ∃ executed passes, loop.executed = first.executed + executed ∧
    loop.outerPasses = first.outerPasses + passes ∧
    executed ≤ 64 * passes ∧ passes ≤ executed + 1

theorem countersKeepSlices_of_rationed {calls : List ExecutorCall} (h : Rationed 64 calls)
    (hCounts : first.CountsFrom calls loop) : CountersKeepSlices first loop :=
  ⟨_, _, Option.some.inj (hCounts .execute), Option.some.inj (hCounts .syncRegisters),
    h.executed_le, h.passes_le⟩

/-- In every run of the interpreter, each pass through the outer entry lets guest code execute at
most 64 blocks, and is followed by a block or the end of the run before the next one. -/
theorem slices_bound_blocks (first : RunLoop) (e : Interpreter) :
    (∀ t result, first.Moment e t result → KeepsSlices t.history) ∧
      (∀ loop t, first.Reaches (Traced.start e) .outer loop t → LeadsOn first e loop t) ∧
      (∀ entry loop t, first.Reaches (Traced.start e) entry loop t →
        CountersKeepSlices first loop) ∧
      ∀ fuel ended, first.run fuel (Traced.start e) = some ended →
        CountersKeepSlices first ended.value.2.1 := by
  refine ⟨fun t result hMoment => ?_, fun loop t => leadsOn_of_outer,
    fun entry loop t hReaches => ?_, fun fuel ended hRun => ?_⟩
  · exact keepsSlices_of_rationed (rationed_of_moment hMoment)
  · exact countersKeepSlices_of_rationed (rationed_of_reaches hReaches).1 (.reaches hReaches)
  · exact countersKeepSlices_of_rationed (rationed_of_moment (.returned hRun)) (.run hRun)

/-- The first pass of a run leads to a visit, and with the block that is executed there the slice is
kept. -/
theorem first_pass_leads_to_block :
    ∃ loop t, RunLoop.bare.Reaches (Traced.start beforeExit) .outer RunLoop.bare t ∧
      LeadsOn RunLoop.bare beforeExit RunLoop.bare t ∧
      ∃ t', RunLoop.bare.Reaches (Traced.start beforeExit) .dispatchUnchecked loop t' ∧
        count .execute t'.calls = 1 ∧ KeepsSlices t'.history ∧
        CountersKeepSlices RunLoop.bare loop := by
  have hEnter : RunLoop.bare.Reaches (Traced.start beforeExit) .enter RunLoop.bare _ := .enter
  have hOuter := hEnter.goto rfl rfl
  have hCheck := hOuter.goto rfl rfl
  have hDispatch := hCheck.goto rfl rfl
  have hVisit := hDispatch.goto rfl rfl
  have hChained := hVisit.goto rfl rfl
  obtain ⟨hSlices, hLeads, hCounters, -⟩ := slices_bound_blocks RunLoop.bare beforeExit
  exact ⟨_, _, hOuter, hLeads _ _ hOuter, _, hChained, rfl, hSlices _ _ (.reached hChained),
    hCounters _ _ _ hChained⟩

end Interpreter
end HostCalls
