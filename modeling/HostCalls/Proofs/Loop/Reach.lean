import HostCalls.Loop.RunLoop

/-!
# What a run reaches

A statement about every moment of a run, also of one that never ends, is a statement about the
entries that the run reaches.

* `RunLoop.Reaches` is the relation between the start of a run and these entries,
  `Reaches.run_of_leave` and `exists_leave_of_run` lead from it to `RunLoop.run` and back,
* `RunLoop.Invariant` is what no entry breaks, so that it holds wherever a run comes to and ends,
* `RunLoop.Obtains` lists the ways to come by the block for the program counter, and
  `unchecked_cases` says what the loop does with it,
* `RunLoop.Takes` lists what the loop may do at each entry, and `takes_of_step` is the step from it,
* `run_ne_missing`: there always is a block once it has been compiled.
-/

namespace HostCalls

/-- The entry at which the loop goes on after a block. -/
def BlockEnd.next : BlockEnd → LoopEntry
  | dispatch => .dispatch
  | chain => .dispatchUnchecked
  | syscall _ => .checkState
  | reschedule => .outer
  | fpFault => .fpFault
  | breakpoint => .breakpoint

/-- The error that a compilation for `pc` leads to, unless it gave a block that starts there. -/
def LoopError.ofCompiled? (pc : Addr) : Except Error NativeBlock → Option LoopError
  | .error cause => some (.compileFailed cause)
  | .ok block => if block.start = pc then none else some (.wrongStart pc block.start)

theorem LoopError.ofCompiled?_eq_none_iff {pc : Addr} {block : NativeBlock} :
    ofCompiled? pc (.ok block) = none ↔ block.start = pc := by
  unfold ofCompiled?
  split <;> simp_all

theorem LoopError.ofCompiled?_ne_missing {pc asked : Addr} {answer : Except Error NativeBlock} :
    ofCompiled? asked answer ≠ some (.missing pc) := by
  unfold ofCompiled?
  split
  · nofun
  · split <;> nofun

namespace NativeCache

variable {cache : NativeCache} {pc : Addr}

@[simp] theorem get?_insert_self (cache : NativeCache) (block : NativeBlock) :
    (cache.insert block).get? block.start = some block :=
  Table.get?_insert_self _ _ _

theorem lookUp_of_some {block : NativeBlock} (h : cache.get? pc = some block) :
    cache.lookUp pc = (some block, { cache with hits := cache.hits + 1 }) := by
  unfold lookUp
  rw [h]

theorem lookUp_of_none (h : cache.get? pc = none) :
    cache.lookUp pc = (none, { cache with misses := cache.misses + 1 }) := by
  unfold lookUp
  rw [h]

end NativeCache

namespace RunLoop

/-- A loop that has not run, and whose routines are without code. -/
def bare : RunLoop :=
  .ofRoutines ⟨.fresh 0, .empty, .standard⟩

variable {E : Type} [Executor E]

/-- The run of `first` on `e` comes to an entry, with loop and executor as given. -/
inductive Reaches (first : RunLoop) (e : E) : LoopEntry → RunLoop → E → Prop
  | enter : Reaches first e .enter first e
  | goto {entry next : LoopEntry} {loop loop' : RunLoop} {x x' : E}
      {taken : Logged (Transition × RunLoop × E)} (hReached : Reaches first e entry loop x)
      (hStep : loop.step x entry = some taken) (hTaken : taken.value = (.goto next, loop', x')) :
      Reaches first e next loop' x'

variable {first loop loop' : RunLoop} {e x x' : E} {entry : LoopEntry}

theorem runFrom_of_goto {next : LoopEntry} {taken : Logged (Transition × RunLoop × E)}
    (hStep : loop.step x entry = some taken) (hTaken : taken.value = (.goto next, loop', x'))
    (lines : List Log.Line) :
    ∃ lines', ∀ fuel, runFrom (fuel + 1) entry loop x lines = runFrom fuel next loop' x' lines' :=
  ⟨taken.log.reverseAux ((loop.traceEntry entry).log.reverseAux lines), fun fuel => by
    simp only [runFrom, hStep, hTaken]⟩

theorem runFrom_of_leave {result : Except LoopError LoopEnd}
    {taken : Logged (Transition × RunLoop × E)} (hStep : loop.step x entry = some taken)
    (hTaken : taken.value = (.leave result, loop', x')) (fuel : Nat) (lines : List Log.Line) :
    ∃ log, runFrom (fuel + 1) entry loop x lines = some ⟨(result, loop', x'), log⟩ :=
  ⟨(taken.log.reverseAux ((loop.traceEntry entry).log.reverseAux lines)).reverse, by
    simp only [runFrom, hStep, hTaken]⟩

/-- A run goes on from every entry that it reaches. -/
theorem Reaches.run_eq (h : Reaches first e entry loop x) :
    ∃ count lines, ∀ fuel, first.run (count + fuel) e = runFrom fuel entry loop x lines := by
  induction h with
  | enter =>
      refine ⟨0, [], fun fuel => ?_⟩
      rw [Nat.zero_add]
      rfl
  | goto _ hStep hTaken ih =>
      obtain ⟨count, lines, hRun⟩ := ih
      obtain ⟨lines', hNext⟩ := runFrom_of_goto hStep hTaken lines
      refine ⟨count + 1, lines', fun fuel => ?_⟩
      rw [Nat.add_assoc, Nat.add_comm 1 fuel, hRun, hNext]

/-- A run that reaches an entry at which the loop leaves ends there. -/
theorem Reaches.run_of_leave {taken : Logged (Transition × RunLoop × E)}
    {result : Except LoopError LoopEnd} (h : Reaches first e entry loop x)
    (hStep : loop.step x entry = some taken) (hTaken : taken.value = (.leave result, loop', x')) :
    ∃ fuel ended, first.run fuel e = some ended ∧ ended.value = (result, loop', x') := by
  obtain ⟨count, lines, hRun⟩ := h.run_eq
  obtain ⟨log, hLast⟩ := runFrom_of_leave hStep hTaken 0 lines
  exact ⟨count + 1, _, (hRun 1).trans hLast, rfl⟩

theorem Reaches.exists_leave {fuel : Nat} {lines : List Log.Line}
    {ended : Logged (Except LoopError LoopEnd × RunLoop × E)} (h : Reaches first e entry loop x)
    (hRun : runFrom fuel entry loop x lines = some ended) :
    ∃ last loop' x' taken, Reaches first e last loop' x' ∧ loop'.step x' last = some taken ∧
      taken.value = (.leave ended.value.1, ended.value.2) := by
  -- every entry that does not leave reaches the next one, with one unit of fuel less
  induction fuel generalizing entry loop x lines with
  | zero => cases hRun
  | succ fuel ih =>
      rw [runFrom] at hRun
      cases hStep : loop.step x entry with
      | none =>
          rw [hStep] at hRun
          cases hRun
      | some taken =>
          rw [hStep] at hRun
          rcases hTaken : taken.value with ⟨transition, loop', x'⟩
          simp only [hTaken] at hRun
          cases transition with
          | goto next => exact ih (h.goto hStep hTaken) hRun
          | leave result =>
              cases hRun
              exact ⟨entry, loop, x, taken, h, hStep, hTaken⟩

/-- A run that ends has reached the entry from which it left. -/
theorem exists_leave_of_run {fuel : Nat}
    {ended : Logged (Except LoopError LoopEnd × RunLoop × E)}
    (hRun : first.run fuel e = some ended) :
    ∃ last loop' x' taken, Reaches first e last loop' x' ∧ loop'.step x' last = some taken ∧
      taken.value = (.leave ended.value.1, ended.value.2) :=
  Reaches.enter.exists_leave hRun

/-- Every entry keeps `p`, whatever the loop does there. -/
def Invariant (p : RunLoop → E → Prop) : Prop :=
  ∀ entry loop x taken, p loop x → loop.step x entry = some taken →
    p taken.value.2.1 taken.value.2.2

namespace Invariant

variable {p : RunLoop → E → Prop}

theorem reaches (h : Invariant p) (hFirst : p first e) (hReaches : Reaches first e entry loop x) :
    p loop x := by
  induction hReaches with
  | enter => exact hFirst
  | goto _ hStep hTaken ih =>
      have hAfter := h _ _ _ _ ih hStep
      rw [hTaken] at hAfter
      exact hAfter

theorem run (h : Invariant p) (hFirst : p first e) {fuel : Nat}
    {ended : Logged (Except LoopError LoopEnd × RunLoop × E)}
    (hRun : first.run fuel e = some ended) : p ended.value.2.1 ended.value.2.2 := by
  obtain ⟨last, loop', x', taken, hReaches, hStep, hTaken⟩ := exists_leave_of_run hRun
  have hAfter := h _ _ _ _ (h.reaches hFirst hReaches) hStep
  rw [hTaken] at hAfter
  exact hAfter

end Invariant

/-- The loop passes `block` to the executor, which is then in the state `e'`. -/
def Hands (loop : RunLoop) (e : E) (block : NativeBlock) (e' : E) : Prop :=
  ∃ loop', loop.ensureCompiled (Executor.pc e) e = (.ok (), loop', e') ∧
    loop'.cache.get? (Executor.pc e) = some block

/-- How the loop comes by the block for the program counter. -/
inductive Obtains (loop : RunLoop) (e : E) : Except LoopError NativeBlock → RunLoop → E → Prop
  | hit {block : NativeBlock} (hFound : loop.cache.get? (Executor.pc e) = some block) :
      Obtains loop e (.ok block)
        { loop with cache := { loop.cache with hits := loop.cache.hits + 1 } } e
  | compiled {block : NativeBlock} {e' : E} (hMissing : loop.cache.get? (Executor.pc e) = none)
      (hCompile : Executor.compile (Executor.pc e) e = (.ok block, e'))
      (hStart : block.start = Executor.pc e) :
      Obtains loop e (.ok block)
        { loop with
          cache := { loop.cache with misses := loop.cache.misses + 1 }.insert block
          compiled := loop.compiled + 1 } e'
  | refused {answer : Except Error NativeBlock} {cause : LoopError} {e' : E}
      (hMissing : loop.cache.get? (Executor.pc e) = none)
      (hCompile : Executor.compile (Executor.pc e) e = (answer, e'))
      (hRefused : LoopError.ofCompiled? (Executor.pc e) answer = some cause) :
      Obtains loop e (.error cause)
        { loop with cache := { loop.cache with misses := loop.cache.misses + 1 } } e'

theorem exists_obtains (loop : RunLoop) (e : E) :
    ∃ result loop' e', Obtains loop e result loop' e' := by
  cases hGet : loop.cache.get? (Executor.pc e) with
  | some block => exact ⟨_, _, _, .hit hGet⟩
  | none =>
      rcases hCompile : Executor.compile (Executor.pc e) e with ⟨answer, e'⟩
      cases hRefused : LoopError.ofCompiled? (Executor.pc e) answer with
      | some cause => exact ⟨_, _, _, .refused hGet hCompile hRefused⟩
      | none =>
          cases answer with
          | error cause => cases hRefused
          | ok block =>
              have hStart : block.start = Executor.pc e :=
                LoopError.ofCompiled?_eq_none_iff.mp hRefused
              exact ⟨_, _, _, .compiled hGet hCompile hStart⟩

variable {result : Except LoopError NativeBlock} {block : NativeBlock} {cause : LoopError}

theorem Obtains.ensureCompiled_eq (h : Obtains loop e result loop' x) :
    loop.ensureCompiled (Executor.pc e) e = (result.map fun _ => (), loop', x) := by
  unfold ensureCompiled
  cases h with
  | hit hFound =>
      rw [NativeCache.lookUp_of_some hFound]
      rfl
  | compiled hMissing hCompile hStart =>
      rw [NativeCache.lookUp_of_none hMissing]
      simp only [hCompile, hStart, if_true]
      rfl
  | @refused answer _ _ hMissing hCompile hRefused =>
      rw [NativeCache.lookUp_of_none hMissing]
      simp only [hCompile]
      cases answer with
      | error error =>
          cases hRefused
          rfl
      | ok block =>
          by_cases hStart : block.start = Executor.pc e
          · rw [LoopError.ofCompiled?, if_pos hStart] at hRefused
            cases hRefused
          · rw [LoopError.ofCompiled?, if_neg hStart] at hRefused
            cases hRefused
            simp only [if_neg hStart]
            rfl

/-- Once there is a block, the loop finds it. -/
theorem Obtains.get?_eq (h : Obtains loop e (.ok block) loop' x) :
    loop'.cache.get? (Executor.pc e) = some block := by
  cases h with
  | hit hFound => exact hFound
  | compiled _ _ hStart =>
      -- the block is kept under its own start, and found under the program counter
      rw [← hStart]
      exact NativeCache.get?_insert_self _ _

theorem hands_iff : loop.Hands e block x ↔ ∃ loop', Obtains loop e (.ok block) loop' x := by
  constructor
  · rintro ⟨loop', hEnsure, hGet⟩
    obtain ⟨result, loop₁, x₁, hObtains⟩ := exists_obtains loop e
    have hEq := hEnsure.symm.trans hObtains.ensureCompiled_eq
    cases result with
    | error cause => cases hEq
    | ok block' =>
        cases hEq
        rw [hObtains.get?_eq] at hGet
        cases hGet
        exact ⟨loop', hObtains⟩
  · rintro ⟨loop', hObtains⟩
    exact ⟨loop', hObtains.ensureCompiled_eq, hObtains.get?_eq⟩

theorem runBlock_of_obtains_error (h : Obtains loop e (.error cause) loop' x) :
    loop.runBlock e = some (.error cause, loop', x) := by
  unfold runBlock
  simp only [h.ensureCompiled_eq]
  rfl

theorem runBlock_of_obtains_ok (h : Obtains loop e (.ok block) loop' x) :
    loop.runBlock e = (Executor.execute block x).map fun (blockEnd, x') =>
      (.ok blockEnd, { loop' with executed := loop'.executed + 1 }, x') := by
  unfold runBlock
  simp only [h.ensureCompiled_eq, Except.map, h.get?_eq]
  cases Executor.execute block x <;> rfl

theorem step_of_obtains_error (h : Obtains loop e (.error cause) loop' x) :
    loop.step e .dispatchUnchecked = some (return (.leave (.error cause), loop', x)) := by
  unfold step
  simp only [runBlock_of_obtains_error h]

theorem step_of_obtains_ok (h : Obtains loop e (.ok block) loop' x) :
    loop.step e .dispatchUnchecked = (Executor.execute block x).map fun (blockEnd, x') =>
      { loop' with executed := loop'.executed + 1 }.afterBlock x' blockEnd := by
  unfold step
  simp only [runBlock_of_obtains_ok h]
  cases Executor.execute block x <;> rfl

/-- Checking the run state goes on or leaves, and changes nothing but the executor. -/
theorem step_checkState (loop : RunLoop) (e : E) :
    ∃ taken, loop.step e .checkState = some taken ∧
      taken.value = (if (Executor.runState e).1.isRunning then .goto .dispatch
        else .leave (.ok (.stopped (Executor.runState e).1)), loop, (Executor.runState e).2) := by
  unfold step
  dsimp only
  split
  · exact ⟨_, rfl, rfl⟩
  · exact ⟨_, rfl, rfl⟩

theorem value_afterBlock_of_syscall (loop : RunLoop) (e : E) (op : Opcode) :
    (loop.afterBlock e (.syscall op)).value =
      (.goto .checkState, { loop with syscalls := loop.syscalls + 1 },
        (Executor.syscall op e).value.2) := by
  unfold afterBlock
  simp only [Logged.value_bind]
  split <;> rfl

/-- After a system call the loop goes on with what it left behind, after any other block with what
the block left. -/
theorem afterBlock_cases (loop : RunLoop) (e : E) (blockEnd : BlockEnd) :
    (∃ op, blockEnd = .syscall op ∧ (loop.afterBlock e blockEnd).value =
      (.goto .checkState, { loop with syscalls := loop.syscalls + 1 },
        (Executor.syscall op e).value.2)) ∨
      (loop.afterBlock e blockEnd).value = (.goto blockEnd.next, loop, e) := by
  cases blockEnd with
  | syscall op => exact Or.inl ⟨op, rfl, value_afterBlock_of_syscall loop e op⟩
  | dispatch => exact Or.inr rfl
  | chain => exact Or.inr rfl
  | reschedule => exact Or.inr rfl
  | fpFault => exact Or.inr rfl
  | breakpoint => exact Or.inr rfl

/-- Dispatching leaves without a block, or goes on after the one that it executed. -/
theorem unchecked_cases {taken : Logged (Transition × RunLoop × E)}
    (hStep : loop.step e .dispatchUnchecked = some taken) :
    (∃ cause loop' x, Obtains loop e (.error cause) loop' x ∧
      taken = return (.leave (.error cause), loop', x)) ∨
      ∃ block loop' x blockEnd x', Obtains loop e (.ok block) loop' x ∧
        Executor.execute block x = some (blockEnd, x') ∧
        taken = { loop' with executed := loop'.executed + 1 }.afterBlock x' blockEnd := by
  obtain ⟨result, loop', x, hObtains⟩ := exists_obtains loop e
  cases result with
  | error cause =>
      rw [step_of_obtains_error hObtains] at hStep
      exact Or.inl ⟨cause, loop', x, hObtains, (Option.some.inj hStep).symm⟩
  | ok block =>
      rw [step_of_obtains_ok hObtains] at hStep
      obtain ⟨⟨blockEnd, x'⟩, hExecute, hTaken⟩ := Option.map_eq_some_iff.mp hStep
      exact Or.inr ⟨block, loop', x, blockEnd, x', hObtains, hExecute, hTaken.symm⟩

/-- What the loop may do at each of its entries, and what it leaves behind then. -/
inductive Takes (loop : RunLoop) (e : E) : LoopEntry → Transition × RunLoop × E → Prop
  | enter : Takes loop e .enter
      (.goto .outer, loop, Executor.bindRegisters loop.routines.registers e)
  | outer : Takes loop e .outer
      (.goto .checkState, { loop with outerPasses := loop.outerPasses + 1 },
        Executor.syncRegisters loop.routines.registers e)
  | running (hRunning : (Executor.runState e).1.isRunning = true) : Takes loop e .checkState
      (.goto .dispatch, loop, (Executor.runState e).2)
  | stopped (hStopped : ¬ (Executor.runState e).1.isRunning = true) : Takes loop e .checkState
      (.leave (.ok (.stopped (Executor.runState e).1)), loop, (Executor.runState e).2)
  | expired (hExpired : (Executor.sliceExpired e).1 = true) : Takes loop e .dispatch
      (.goto .outer, loop, (Executor.sliceExpired e).2)
  | visits (hLeft : ¬ (Executor.sliceExpired e).1 = true) : Takes loop e .dispatch
      (.goto .dispatchUnchecked, loop, (Executor.sliceExpired e).2)
  | refused {cause : LoopError} {loop' : RunLoop} {x : E}
      (hObtains : Obtains loop e (.error cause) loop' x) : Takes loop e .dispatchUnchecked
      (.leave (.error cause), loop', x)
  | syscall {block : NativeBlock} {loop' : RunLoop} {x x' : E} {op : Opcode}
      (hObtains : Obtains loop e (.ok block) loop' x)
      (hExecute : Executor.execute block x = some (.syscall op, x')) :
      Takes loop e .dispatchUnchecked
      (.goto .checkState,
        { loop' with executed := loop'.executed + 1, syscalls := loop'.syscalls + 1 },
        (Executor.syscall op x').value.2)
  | executed {block : NativeBlock} {loop' : RunLoop} {x x' : E} {blockEnd : BlockEnd}
      {next : LoopEntry} (hObtains : Obtains loop e (.ok block) loop' x)
      (hExecute : Executor.execute block x = some (blockEnd, x'))
      (hOther : ∀ op, blockEnd ≠ .syscall op) (hNext : blockEnd.next = next) :
      Takes loop e .dispatchUnchecked
      (.goto next, { loop' with executed := loop'.executed + 1 }, x')
  | fpFault : Takes loop e .fpFault
      (.leave (.ok (.fpFault (Executor.pc e))), loop, Executor.reportFpFault (Executor.pc e) e)
  | breakpoint : Takes loop e .breakpoint
      (.leave (.ok (.breakpoint (Executor.pc (Executor.restoreSnapshot e)))), loop,
        Executor.restoreSnapshot e)

theorem takes_of_step {taken : Logged (Transition × RunLoop × E)}
    (hStep : loop.step e entry = some taken) : Takes loop e entry taken.value := by
  cases entry with
  | dispatchUnchecked =>
      rcases unchecked_cases hStep with
        ⟨cause, loop₁, x, hObtains, rfl⟩ | ⟨block, loop₁, x, blockEnd, x', hObtains, hExecute, rfl⟩
      · exact .refused hObtains
      · cases blockEnd with
        | syscall op =>
            rw [value_afterBlock_of_syscall]
            exact .syscall hObtains hExecute
        | dispatch => exact .executed hObtains hExecute nofun rfl
        | chain => exact .executed hObtains hExecute nofun rfl
        | reschedule => exact .executed hObtains hExecute nofun rfl
        | fpFault => exact .executed hObtains hExecute nofun rfl
        | breakpoint => exact .executed hObtains hExecute nofun rfl
  | checkState =>
      obtain ⟨taken', hTaken', hValue⟩ := step_checkState loop e
      rw [hTaken'] at hStep
      cases hStep
      rw [hValue]
      split
      · exact .running ‹_›
      · exact .stopped ‹_›
  | dispatch =>
      cases hStep
      show Takes loop e .dispatch (.goto (if _ then _ else _), _)
      split
      · exact .expired ‹_›
      · exact .visits ‹_›
  | enter =>
      cases hStep
      exact .enter
  | outer =>
      cases hStep
      exact .outer
  | fpFault =>
      cases hStep
      exact .fpFault
  | breakpoint =>
      cases hStep
      exact .breakpoint

/-- The loop leaves with an error only where it did not come by a block. -/
theorem obtains_of_leave_error {taken : Logged (Transition × RunLoop × E)}
    (hStep : loop.step e entry = some taken)
    (hTaken : taken.value = (.leave (.error cause), loop', x)) :
    entry = .dispatchUnchecked ∧ Obtains loop e (.error cause) loop' x := by
  have hTakes := takes_of_step hStep
  rw [hTaken] at hTakes
  cases hTakes with
  | refused hObtains => exact ⟨rfl, hObtains⟩

theorem Obtains.ne_missing (h : Obtains loop e (.error cause) loop' x) (pc : Addr) :
    cause ≠ .missing pc := by
  rintro rfl
  cases h with
  | refused _ _ hRefused => exact LoopError.ofCompiled?_ne_missing hRefused

/-- A run never ends for want of a block that was just made. -/
theorem run_ne_missing {fuel : Nat} {ended : Logged (Except LoopError LoopEnd × RunLoop × E)}
    (hRun : first.run fuel e = some ended) (pc : Addr) :
    ended.value.1 ≠ .error (.missing pc) := by
  intro hMissing
  obtain ⟨last, loop', x', taken, -, hStep, hTaken⟩ := exists_leave_of_run hRun
  rw [hMissing] at hTaken
  exact (obtains_of_leave_error hStep hTaken).2.ne_missing pc rfl

end RunLoop
end HostCalls
