import HostCalls.Proofs.Loop.Invalidation
import HostCalls.Proofs.Machine.Compilation
import HostCalls.Proofs.Machine.CoreState

/-!
# Guest code at an address without a word

Memory has words at multiples of four only, but a register, a host function or a block that is cut
off at the last address can make guest code go on anywhere.

* `NativeCache.Aligned` says that the blocks at hand start where they are kept, at multiples of
  four. It holds of a loop that is `OnlyInterpreted`: interpreters compile no other blocks.
* `visit_cases`: at a multiple of four such a loop comes by a block that starts there, and elsewhere
  the compilation is refused.
* `fails_iff_visits_unaligned`: so this is the one way in which a run of the interpreter fails, and
  it never returns at an arithmetic fault either, as no instruction raises one.
-/

namespace HostCalls

/-- The error of a loop that has come to an address without a word. -/
def LoopError.unaligned (pc : Addr) : LoopError :=
  .compileFailed (.invalidArgument s!"unaligned read at {Hex.word pc}")

namespace Ram

variable {pc : Addr}

theorem compile_of_unaligned (ram : Ram) (h : isAligned pc = false) :
    ram.compile pc = .error (.invalidArgument s!"unaligned read at {Hex.word pc}") := by
  have hRead : ram.read pc = .error (.invalidArgument s!"unaligned read at {Hex.word pc}") := by
    unfold read
    rw [h]
    rfl
  show (ram.blockWords 16 pc >>= _) = _
  rw [blockWords, hRead]
  rfl

/-- A compilation is refused where there is no word, and nowhere else. -/
theorem ofCompiled?_compile (ram : Ram) (pc : Addr) :
    LoopError.ofCompiled? pc (ram.compile pc) =
      if isAligned pc then none else some (.unaligned pc) := by
  split
  · rename_i hAligned
    obtain ⟨n, -, hCompile⟩ := ram.compile_eq_cut hAligned
    rw [hCompile, LoopError.ofCompiled?_eq_none_iff]
    rfl
  · rename_i hUnaligned
    rw [ram.compile_of_unaligned (Bool.not_eq_true _ ▸ hUnaligned)]
    rfl

end Ram

namespace NativeCache

/-- Every block at hand starts where it is kept, and this is a multiple of four. -/
def Aligned (cache : NativeCache) : Prop :=
  ∀ pc block, cache.get? pc = some block → block.start = pc ∧ Ram.isAligned pc = true

variable {cache cache' : NativeCache} {block : NativeBlock}

theorem Aligned.empty : empty.Aligned := by
  intro pc block hThere
  cases hThere

/-- Counters do not matter. -/
theorem Aligned.of_blocks (h : cache.Aligned) (hBlocks : cache'.blocks = cache.blocks) :
    cache'.Aligned := by
  intro pc block hThere
  unfold get? at hThere
  rw [hBlocks] at hThere
  exact h pc block hThere

theorem Aligned.insert (h : cache.Aligned) (hStart : Ram.isAligned block.start = true) :
    (cache.insert block).Aligned := by
  intro pc there hThere
  rcases Table.get?_insert_cases hThere with ⟨rfl, rfl⟩ | ⟨-, hOld⟩
  · exact ⟨rfl, hStart⟩
  · exact h pc there hOld

theorem Aligned.invalidate (h : cache.Aligned) (start stop : Addr) :
    (cache.invalidate start stop).2.Aligned := by
  intro pc block hThere
  exact h pc block (((dropped_invalidate cache start stop).get?_iff pc block).mp hThere).1

end NativeCache

namespace Interpreter

variable {first loop loop' : RunLoop} {e x x' : Interpreter} {block : NativeBlock}
  {result : Except LoopError NativeBlock}

/-- At a multiple of four the loop comes by a block that starts there, and elsewhere it comes by
none. -/
theorem obtains_cases (hCache : loop.cache.Aligned) (h : loop.Obtains x result loop' x') :
    (Ram.isAligned (Executor.pc x) = true ∧
        ∃ block, result = .ok block ∧ block.start = Executor.pc x) ∨
      (Ram.isAligned (Executor.pc x) = false ∧ result = .error (.unaligned (Executor.pc x))) := by
  have hGiven := x.ram.ofCompiled?_compile (Executor.pc x)
  cases h with
  | hit hFound =>
      obtain ⟨hStart, hAligned⟩ := hCache _ _ hFound
      exact Or.inl ⟨hAligned, _, rfl, hStart⟩
  | @compiled block _ _ hCompile hStart =>
      have hAnswer : x.ram.compile (Executor.pc x) = .ok block := congrArg Prod.fst hCompile
      rw [hAnswer, LoopError.ofCompiled?_eq_none_iff.mpr hStart] at hGiven
      split at hGiven
      · exact Or.inl ⟨‹_›, block, rfl, hStart⟩
      · cases hGiven
  | @refused answer cause _ _ hCompile hRefused =>
      have hAnswer : x.ram.compile (Executor.pc x) = answer := congrArg Prod.fst hCompile
      rw [hAnswer, hRefused] at hGiven
      split at hGiven
      · cases hGiven
      · cases hGiven
        exact Or.inr ⟨Bool.not_eq_true _ ▸ ‹_›, rfl⟩

theorem aligned_of_obtains (hCache : loop.cache.Aligned) (h : loop.Obtains x result loop' x') :
    loop'.cache.Aligned := by
  have hCases := obtains_cases hCache h
  cases h with
  | hit _ => exact hCache.of_blocks rfl
  | refused _ _ _ => exact hCache.of_blocks rfl
  | compiled _ _ hStart =>
      rcases hCases with ⟨hAligned, -⟩ | ⟨-, hError⟩
      · exact NativeCache.Aligned.insert (hCache.of_blocks rfl) (hStart ▸ hAligned)
      · cases hError

/-- No entry of the loop keeps a block anywhere else. -/
theorem aligned_invariant :
    RunLoop.Invariant fun loop (_ : Interpreter) => loop.cache.Aligned := by
  intro entry loop x taken hCache hStep
  have hTakes := RunLoop.takes_of_step hStep
  generalize taken.value = value at hTakes ⊢
  cases hTakes with
  | refused hObtains => exact aligned_of_obtains hCache hObtains
  | syscall hObtains _ => exact (aligned_of_obtains hCache hObtains).of_blocks rfl
  | executed hObtains _ _ _ => exact (aligned_of_obtains hCache hObtains).of_blocks rfl
  | enter => exact hCache
  | outer => exact hCache
  | running _ => exact hCache
  | stopped _ => exact hCache
  | expired _ => exact hCache
  | visits _ => exact hCache
  | fpFault => exact hCache
  | breakpoint => exact hCache

/-- A loop to which runs on interpreters and invalidations have led from a new one. Each run may be
on another interpreter. -/
inductive OnlyInterpreted : RunLoop → Prop
  | start (routines : RoutineTable) : OnlyInterpreted (.ofRoutines routines)
  | run {loop : RunLoop} (hLoop : OnlyInterpreted loop) {e : Interpreter} {fuel : Nat}
      {ended : Logged (Except LoopError LoopEnd × RunLoop × Interpreter)}
      (hRun : loop.run fuel e = some ended) : OnlyInterpreted ended.value.2.1
  | invalidate {loop : RunLoop} (hLoop : OnlyInterpreted loop) (start stop : Addr) :
      OnlyInterpreted (loop.invalidate start stop).2
  | invalidateCallSite {loop : RunLoop} (hLoop : OnlyInterpreted loop) (site : Addr) :
      OnlyInterpreted (loop.invalidateCallSite site).2

theorem OnlyInterpreted.aligned (h : OnlyInterpreted loop) : loop.cache.Aligned := by
  induction h with
  | start _ => exact .empty
  | run _ hRun ih => exact aligned_invariant.run ih hRun
  | invalidate _ start stop ih => exact ih.invalidate start stop
  | invalidateCallSite _ site ih => exact ih.invalidate site _

/-- What the run of such a loop comes by at a visit. -/
theorem visit_cases (hLoop : OnlyInterpreted first)
    (hReaches : first.Reaches e .dispatchUnchecked loop x) (h : loop.Obtains x result loop' x') :
    (Ram.isAligned x.registers.pc = true ∧
        ∃ block, result = .ok block ∧ block.start = x.registers.pc) ∨
      (Ram.isAligned x.registers.pc = false ∧ result = .error (.unaligned x.registers.pc)) :=
  obtains_cases (aligned_invariant.reaches hLoop.aligned hReaches) h

theorem execute_ne_fpFault : x.execute block ≠ some (.fpFault, x') := by
  intro hExecute
  unfold execute at hExecute
  dsimp only at hExecute
  split at hExecute
  · cases hExecute
  · rename_i hRun
    cases hExecute
    exact Ram.runBlock_ne_fpFault hRun
  · -- a block that falls through chains or goes back to the dispatcher
    split at hExecute <;> cases hExecute

/-- A run on an interpreter never comes to the entry for arithmetic faults. -/
theorem not_reaches_fpFault : ¬ first.Reaches e .fpFault loop x := by
  intro hReaches
  cases hReaches with
  | goto _ hStep hTaken =>
      have hTakes := RunLoop.takes_of_step hStep
      rw [hTaken] at hTakes
      cases hTakes with
      | @executed _ _ _ _ blockEnd _ _ hExecute _ hNext =>
          cases blockEnd with
          | fpFault => exact execute_ne_fpFault hExecute
          | syscall op => cases hNext
          | dispatch => cases hNext
          | chain => cases hNext
          | reschedule => cases hNext
          | breakpoint => cases hNext

theorem run_ne_fpFault {fuel : Nat}
    {ended : Logged (Except LoopError LoopEnd × RunLoop × Interpreter)}
    (hRun : first.run fuel e = some ended) (pc : Addr) : ended.value.1 ≠ .ok (.fpFault pc) := by
  intro hEnd
  obtain ⟨last, loop', x', taken, hReaches, hStep, hTaken⟩ := RunLoop.exists_leave_of_run hRun
  have hTakes := RunLoop.takes_of_step hStep
  rw [hTaken, hEnd] at hTakes
  generalize ended.value.2 = left at hTakes
  cases hTakes with
  | fpFault => exact not_reaches_fpFault hReaches

/-- A run fails only where it visits an address without a word. -/
theorem visits_unaligned_of_run (hLoop : OnlyInterpreted first) {fuel : Nat} {cause : LoopError}
    {ended : Logged (Except LoopError LoopEnd × RunLoop × Interpreter)}
    (hRun : first.run fuel e = some ended) (hEnd : ended.value.1 = .error cause) :
    ∃ loop x, first.Reaches e .dispatchUnchecked loop x ∧
      Ram.isAligned x.registers.pc = false ∧ cause = .unaligned x.registers.pc := by
  obtain ⟨last, loop, x, taken, hReaches, hStep, hTaken⟩ := RunLoop.exists_leave_of_run hRun
  rw [hEnd] at hTaken
  obtain ⟨rfl, hObtains⟩ := RunLoop.obtains_of_leave_error hStep hTaken
  refine ⟨loop, x, hReaches, ?_⟩
  rcases visit_cases hLoop hReaches hObtains with ⟨-, block, hBlock, -⟩ | ⟨hUnaligned, hError⟩
  · cases hBlock
  · exact ⟨hUnaligned, Except.error.inj hError⟩

/-- It fails at each such visit. -/
theorem run_of_visits_unaligned (hLoop : OnlyInterpreted first)
    (hReaches : first.Reaches e .dispatchUnchecked loop x)
    (hUnaligned : Ram.isAligned x.registers.pc = false) :
    ∃ fuel ended, first.run fuel e = some ended ∧
      ended.value.1 = .error (.unaligned x.registers.pc) := by
  obtain ⟨result, loop', x', hObtains⟩ := RunLoop.exists_obtains loop x
  rcases visit_cases hLoop hReaches hObtains with ⟨hAligned, -⟩ | ⟨-, rfl⟩
  · cases hAligned.symm.trans hUnaligned
  · obtain ⟨fuel, ended, hRun, hValue⟩ :=
      hReaches.run_of_leave (RunLoop.step_of_obtains_error hObtains) rfl
    exact ⟨fuel, ended, hRun, congrArg Prod.fst hValue⟩

/-- A run on an interpreter fails if and only if it visits an address that is not a multiple of
four, with the error that there is no word to read. It knows no other error and no arithmetic
fault, and no block is executed but at its start, which is a multiple of four. -/
theorem fails_iff_visits_unaligned (hLoop : OnlyInterpreted first) (e : Interpreter) :
    (∀ fuel ended, first.run fuel e = some ended →
        (∀ pc, ended.value.1 ≠ .ok (.fpFault pc)) ∧
        (∀ pc start, ended.value.1 ≠ .error (.wrongStart pc start)) ∧
        ∀ pc, ended.value.1 ≠ .error (.missing pc)) ∧
      (∀ cause, (∃ fuel ended, first.run fuel e = some ended ∧ ended.value.1 = .error cause) ↔
        ∃ loop x, first.Reaches e .dispatchUnchecked loop x ∧
          Ram.isAligned x.registers.pc = false ∧ cause = .unaligned x.registers.pc) ∧
      ∀ loop x block x', first.Reaches e .dispatchUnchecked loop x → loop.Hands x block x' →
        block.start = x'.registers.pc ∧ Ram.isAligned block.start = true := by
  refine ⟨fun fuel ended hRun => ⟨run_ne_fpFault hRun, fun pc start hEnd => ?_,
    RunLoop.run_ne_missing hRun⟩, fun cause => ⟨?_, ?_⟩, fun loop x block x' hReaches hHands => ?_⟩
  · obtain ⟨loop, x, -, -, hCause⟩ := visits_unaligned_of_run hLoop hRun hEnd
    cases hCause
  · rintro ⟨fuel, ended, hRun, hEnd⟩
    exact visits_unaligned_of_run hLoop hRun hEnd
  · rintro ⟨loop, x, hReaches, hUnaligned, rfl⟩
    exact run_of_visits_unaligned hLoop hReaches hUnaligned
  · obtain ⟨loop', hObtains⟩ := RunLoop.hands_iff.mp hHands
    rcases visit_cases hLoop hReaches hObtains with
      ⟨hAligned, there, hBlock, hStart⟩ | ⟨-, hError⟩
    · cases hBlock
      cases eq_of_obtains hObtains
      exact ⟨hStart, hStart ▸ hAligned⟩
    · cases hError

/-- An interpreter in front of a return to an address in the middle of a word. -/
def beforeOddReturn : Interpreter :=
  let x := (start .zero (.fresh .standard)).withRam
    (Ram.zero.load 0x08804000 [Instruction.returnWord])
  x.withRegisters (x.registers.set .ra 0x08804002)

/-- The run fails where the return leads to. -/
theorem return_between_words_fails :
    ∃ fuel ended, RunLoop.bare.run fuel beforeOddReturn = some ended ∧
      ended.value.1 = .error (.unaligned 0x08804002) ∧
      (LoopError.unaligned 0x08804002).toError = .invalidArgument "unaligned read at 08804002" := by
  have hLoop : OnlyInterpreted RunLoop.bare := .start _
  have hEnter : RunLoop.bare.Reaches beforeOddReturn .enter RunLoop.bare _ := .enter
  have hOuter := hEnter.goto rfl rfl
  have hCheck := hOuter.goto rfl rfl
  have hDispatch := hCheck.goto rfl rfl
  have hVisit := hDispatch.goto rfl rfl
  have hReturned := hVisit.goto rfl rfl
  have hSecond := hReturned.goto rfl rfl
  obtain ⟨fuel, ended, hRun, hEnd⟩ := ((fails_iff_visits_unaligned hLoop beforeOddReturn).2.1 _).mpr
    ⟨_, _, hSecond, by rfl, rfl⟩
  exact ⟨fuel, ended, hRun, hEnd, by rfl⟩

end Interpreter
end HostCalls
