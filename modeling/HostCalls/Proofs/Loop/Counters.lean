import HostCalls.Proofs.Loop.History
import Mathlib.Algebra.GroupWithZero.Nat

/-!
# What the counters of a loop count

The loop counts passes, executed and compiled blocks and system calls, and its cache counts look-ups
and dropped blocks. Both kinds of counters are kept on their own, and yet they tell the same story
as the calls that executors received.

* `LoopUse` is what was done with a loop, a run or an invalidation, and `Diary` is whatever may be
  done with a new loop.
* `CountsFrom` ties counters to calls: `CountsFrom.step` says that each entry of the loop counts the
  calls that it makes.
* `Balanced` ties counters to each other. `Balanced.executes` is the visit to a block: one is
  compiled only where none is at hand, so none takes the place of another.
* `counters_agree_with_calls`: it holds after every sequence of uses and all along the next run,
  also if that never returns.
-/

namespace HostCalls

namespace ExecutorCall

/-- The operations of an executor. -/
inductive Kind
  | bindRegisters
  | syncRegisters
  | runState
  | sliceExpired
  | compile
  | execute
  | syscall
  | reportFpFault
  | restoreSnapshot
deriving DecidableEq

/-- The operation that a call asked for. -/
def kind : ExecutorCall → Kind
  | bindRegisters _ => .bindRegisters
  | syncRegisters _ => .syncRegisters
  | runState _ => .runState
  | sliceExpired _ => .sliceExpired
  | compile _ _ => .compile
  | execute _ _ => .execute
  | syscall _ _ => .syscall
  | reportFpFault _ => .reportFpFault
  | restoreSnapshot => .restoreSnapshot

/-- The number of calls of an operation. -/
def count (kind : Kind) (calls : List ExecutorCall) : Nat :=
  calls.countP fun call => call.kind = kind

@[simp] theorem count_nil (kind : Kind) : count kind [] = 0 := rfl

@[simp] theorem count_cons (kind : Kind) (call : ExecutorCall) (calls : List ExecutorCall) :
    count kind (call :: calls) = count kind calls + if call.kind = kind then 1 else 0 := by
  simp [count, List.countP_cons]

@[simp] theorem count_append (kind : Kind) (calls more : List ExecutorCall) :
    count kind (calls ++ more) = count kind calls + count kind more :=
  List.countP_append

@[simp] theorem count_reverse (kind : Kind) (calls : List ExecutorCall) :
    count kind calls.reverse = count kind calls :=
  List.countP_reverse

theorem count_eq_zero {kind : Kind} {calls : List ExecutorCall}
    (h : ∀ call ∈ calls, call.kind ≠ kind) : count kind calls = 0 :=
  List.countP_eq_zero.mpr fun call hCall => by simpa using h call hCall

theorem eq_syncRegisters_of_kind {call : ExecutorCall} (h : call.kind = .syncRegisters) :
    ∃ registers, call = .syncRegisters registers := by
  cases call <;> cases h
  exact ⟨_, rfl⟩

theorem eq_execute_of_kind {call : ExecutorCall} (h : call.kind = .execute) :
    ∃ block answer, call = .execute block answer := by
  cases call <;> cases h
  exact ⟨_, _, rfl⟩

theorem count_le_length (kind : Kind) (calls : List ExecutorCall) :
    count kind calls ≤ calls.length :=
  List.countP_le_length

end ExecutorCall

open ExecutorCall (count)

/-- Whether a loop could not go on because no block was compiled, or one that starts elsewhere. -/
def LoopError.isRefusal : LoopError → Bool
  | compileFailed _ | wrongStart _ _ => true
  | missing _ => false

/-- A visit fails only because a compilation is refused. -/
theorem RunLoop.Obtains.isRefusal {E : Type} [Executor E] {loop loop' : RunLoop} {x x' : E}
    {cause : LoopError} (h : loop.Obtains x (.error cause) loop' x') : cause.isRefusal = true := by
  cases cause with
  | missing pc => exact absurd rfl (h.ne_missing pc)
  | _ => rfl

/-- One if a run ended because a compilation was refused. -/
def RunLoop.refusals : Except LoopError LoopEnd → Nat
  | .error cause => if cause.isRefusal then 1 else 0
  | .ok _ => 0

/-- One if the loop leaves because a compilation was refused. -/
def Transition.refusals : Transition → Nat
  | goto _ => 0
  | leave result => RunLoop.refusals result

/-- What was done with a loop. -/
inductive LoopUse
  /-- A run made calls, latest first, and returned. -/
  | ran (calls : List ExecutorCall) (result : Except LoopError LoopEnd)
  /-- An invalidation said how many blocks it dropped. -/
  | invalidated (dropped : Nat)

namespace LoopUse

/-- The calls that a use made. -/
@[simp] def calls : LoopUse → List ExecutorCall
  | ran calls _ => calls
  | invalidated _ => []

/-- One if a use is a run that ended because a compilation was refused. -/
@[simp] def refusals : LoopUse → Nat
  | ran _ result => RunLoop.refusals result
  | invalidated _ => 0

/-- The number of blocks that a use dropped. -/
@[simp] def dropped : LoopUse → Nat
  | ran _ _ => 0
  | invalidated dropped => dropped

end LoopUse

/-- A loop and everything that was done with it since it was new, latest first. Each run may be on
another executor. -/
inductive Diary : List LoopUse → RunLoop → Prop
  | start (routines : RoutineTable) : Diary [] (.ofRoutines routines)
  | run {past : List LoopUse} {loop : RunLoop} (hDiary : Diary past loop) {E : Type} [Executor E]
      {e : E} {fuel : Nat} {ended : Logged (Except LoopError LoopEnd × RunLoop × Traced E)}
      (hRun : loop.run fuel (Traced.start e) = some ended) :
      Diary (.ran ended.value.2.2.calls ended.value.1 :: past) ended.value.2.1
  | invalidate {past : List LoopUse} {loop : RunLoop} (hDiary : Diary past loop)
      (start stop : Addr) :
      Diary (.invalidated (loop.invalidate start stop).1 :: past) (loop.invalidate start stop).2
  | invalidateCallSite {past : List LoopUse} {loop : RunLoop} (hDiary : Diary past loop)
      (site : Addr) :
      Diary (.invalidated (loop.invalidateCallSite site).1 :: past)
        (loop.invalidateCallSite site).2

namespace Diary

/-- The calls of all uses, latest first. -/
def calls (uses : List LoopUse) : List ExecutorCall :=
  uses.flatMap LoopUse.calls

/-- The number of runs that ended because a compilation was refused. -/
def refusals (uses : List LoopUse) : Nat :=
  (uses.map LoopUse.refusals).sum

/-- The number of blocks that invalidations dropped. -/
def dropped (uses : List LoopUse) : Nat :=
  (uses.map LoopUse.dropped).sum

variable (use : LoopUse) (past : List LoopUse)

@[simp] theorem calls_cons : calls (use :: past) = use.calls ++ calls past := rfl

@[simp] theorem refusals_cons : refusals (use :: past) = use.refusals + refusals past :=
  List.sum_cons

@[simp] theorem dropped_cons : dropped (use :: past) = use.dropped + dropped past :=
  List.sum_cons

end Diary

namespace RunLoop

/-- The counter for the calls of an operation, if it has one. -/
def counter? (loop : RunLoop) : ExecutorCall.Kind → Option Nat
  | .syncRegisters => some loop.outerPasses
  | .compile => some loop.cache.misses
  | .execute => some loop.executed
  | .syscall => some loop.syscalls
  | _ => none

/-- Since the loop was `base`, each counter went up by the calls of its operation. -/
def CountsFrom (base : RunLoop) (calls : List ExecutorCall) (loop : RunLoop) : Prop :=
  ∀ kind, loop.counter? kind = (base.counter? kind).map (· + count kind calls)

/-- What the counters of a loop say of each other, of the runs that ended because a compilation was
refused, and of the blocks that were dropped. -/
structure Balanced (refusals dropped : Nat) (loop : RunLoop) : Prop where
  /-- Each block that is executed was at hand or has just been compiled. -/
  found : loop.executed = loop.cache.hits + loop.compiled
  missed : loop.cache.misses = loop.compiled + refusals
  /-- Each compiled block is at hand or was dropped. -/
  kept : loop.compiled = loop.cache.size + loop.cache.invalidated
  dropped : loop.cache.invalidated = dropped

/-- The counters of a loop agree with each other and with the calls that it made. -/
structure Accounted (calls : List ExecutorCall) (refusals dropped : Nat) (loop : RunLoop) : Prop
    extends Balanced refusals dropped loop where
  counted : ∀ kind n, loop.counter? kind = some n → n = count kind calls

/-- Whether every counter of a loop and its cache fits a word of 64 bits. -/
def CountersFit (loop : RunLoop) : Prop :=
  loop.outerPasses < 2 ^ 64 ∧ loop.executed < 2 ^ 64 ∧ loop.compiled < 2 ^ 64 ∧
    loop.syscalls < 2 ^ 64 ∧ loop.cache.hits < 2 ^ 64 ∧ loop.cache.misses < 2 ^ 64 ∧
    loop.cache.invalidated < 2 ^ 64

namespace CountsFrom

variable {base first loop loop' : RunLoop} {calls : List ExecutorCall} {call : ExecutorCall}

theorem nil (base : RunLoop) : CountsFrom base [] base := by
  intro kind
  simp

/-- One more call is counted right if the counter for it, and no other, goes up by one. -/
theorem cons (h : CountsFrom base calls loop)
    (hNext : ∀ kind, loop'.counter? kind =
      (loop.counter? kind).map (· + if call.kind = kind then 1 else 0)) :
    CountsFrom base (call :: calls) loop' := by
  intro kind
  rw [hNext, h kind, Option.map_map]
  congr 1
  funext n
  simp [Nat.add_assoc]

/-- A call that has no counter changes none. -/
theorem quiet (h : CountsFrom base calls loop) (hQuiet : loop.counter? call.kind = none) :
    CountsFrom base (call :: calls) loop := by
  refine h.cons fun kind => ?_
  by_cases hKind : call.kind = kind
  · rw [← hKind, hQuiet]
    rfl
  · simp [hKind]

section Run

variable {E : Type} [Executor E] {t t' t'' : Traced E} {entry : LoopEntry} {block : NativeBlock}
  {blockEnd : BlockEnd} {e : E}

theorem obtains {result : Except LoopError NativeBlock} (h : CountsFrom base t.calls loop)
    (hObtains : loop.Obtains t result loop' t') : CountsFrom base t'.calls loop' := by
  cases hObtains with
  | hit hFound =>
      intro kind
      rw [← h kind]
      cases kind <;> rfl
  | compiled hMissing hCompile hStart =>
      rw [Traced.calls_of_compile hCompile]
      exact h.cons fun kind => by cases kind <;> rfl
  | refused hMissing hCompile hRefused =>
      rw [Traced.calls_of_compile hCompile]
      exact h.cons fun kind => by cases kind <;> rfl

theorem executes (h : CountsFrom base t.calls loop)
    (hExecute : Executor.execute block t = some (blockEnd, t')) :
    CountsFrom base t'.calls { loop with executed := loop.executed + 1 } := by
  rw [Traced.calls_of_execute hExecute]
  exact h.cons fun kind => by cases kind <;> rfl

theorem afterBlock (h : CountsFrom base t.calls loop) (blockEnd : BlockEnd) :
    CountsFrom base (loop.afterBlock t blockEnd).value.2.2.calls
      (loop.afterBlock t blockEnd).value.2.1 := by
  rcases loop.afterBlock_cases t blockEnd with ⟨op, -, hValue⟩ | hValue
  · rw [hValue]
    exact h.cons fun kind => by cases kind <;> rfl
  · rw [hValue]
    exact h

/-- Each entry of the loop counts the calls that it makes. -/
theorem step (base : RunLoop) :
    RunLoop.Invariant fun loop (t : Traced E) => CountsFrom base t.calls loop := by
  intro entry loop t taken h hStep
  cases entry with
  | dispatchUnchecked =>
      rcases RunLoop.unchecked_cases hStep with
        ⟨cause, loop₁, t₁, hObtains, rfl⟩ |
        ⟨block, loop₁, t₁, blockEnd, t₂, hObtains, hExecute, rfl⟩
      · exact h.obtains hObtains
      · exact ((h.obtains hObtains).executes hExecute).afterBlock blockEnd
  | checkState =>
      obtain ⟨taken', hTaken', hValue⟩ := RunLoop.step_checkState loop t
      rw [hTaken'] at hStep
      cases hStep
      rw [hValue]
      exact h.quiet rfl
  | outer =>
      cases hStep
      exact h.cons fun kind => by cases kind <;> rfl
  | enter =>
      cases hStep
      exact h.quiet rfl
  | dispatch =>
      cases hStep
      exact h.quiet rfl
  | fpFault =>
      cases hStep
      exact h.quiet rfl
  | breakpoint =>
      cases hStep
      exact h.quiet rfl

theorem reaches (hReaches : first.Reaches (Traced.start e) entry loop t) :
    CountsFrom first t.calls loop :=
  (step first).reaches (.nil first) hReaches

theorem run {fuel : Nat} {ended : Logged (Except LoopError LoopEnd × RunLoop × Traced E)}
    (hRun : first.run fuel (Traced.start e) = some ended) :
    CountsFrom first ended.value.2.2.calls ended.value.2.1 :=
  (step first).run (.nil first) hRun

end Run
end CountsFrom

namespace Balanced

variable {refusals dropped : Nat} {loop loop' : RunLoop}

theorem invalidate (h : Balanced refusals dropped loop) (start stop : Addr) :
    Balanced refusals ((loop.invalidate start stop).1 + dropped)
      (loop.invalidate start stop).2 := by
  -- the dropped blocks are those that were at hand before and are not any more
  have hSplit := Table.size_filter_add (fun _ block => !block.overlaps start stop)
    loop.cache.blocks
  have hKept := h.kept
  have hDropped := h.dropped
  refine { h with kept := ?_, dropped := ?_ }
  · simp only [RunLoop.invalidate, NativeCache.invalidate, NativeCache.size] at hKept ⊢
    omega
  · simp only [RunLoop.invalidate, NativeCache.invalidate]
    omega

section Run

variable {E : Type} [Executor E] {first : RunLoop} {x x' : E} {entry : LoopEntry}
  {block : NativeBlock} {e : E}

/-- A visit that comes by a block executes it. -/
theorem executes (h : Balanced refusals dropped loop)
    (hObtains : loop.Obtains x (.ok block) loop' x') :
    Balanced refusals dropped { loop' with executed := loop'.executed + 1 } := by
  have hFound := h.found
  have hMissed := h.missed
  have hKept := h.kept
  cases hObtains with
  | hit hHit =>
      refine { h with found := ?_ }
      show loop.executed + 1 = loop.cache.hits + 1 + loop.compiled
      omega
  | compiled hMissing hCompile hStart =>
      refine ⟨?_, ?_, ?_, h.dropped⟩
      · show loop.executed + 1 = loop.cache.hits + (loop.compiled + 1)
        omega
      · show loop.cache.misses + 1 = loop.compiled + 1 + refusals
        omega
      · -- nothing was at hand for the address under which the block is kept
        rw [← hStart] at hMissing
        have hSize := Table.size_insert_of_none block hMissing
        show loop.compiled + 1 =
          (loop.cache.blocks.insert block.start block).size + loop.cache.invalidated
        rw [hSize, hKept, NativeCache.size]
        omega

theorem refuses {cause : LoopError} (h : Balanced refusals dropped loop)
    (hObtains : loop.Obtains x (.error cause) loop' x') :
    Balanced (refusals + RunLoop.refusals (.error cause)) dropped loop' := by
  have hRefusal := hObtains.isRefusal
  have hMissed := h.missed
  cases hObtains with
  | refused hMissing hCompile hRefused =>
      rw [RunLoop.refusals, if_pos hRefusal]
      refine { h with missed := ?_ }
      show loop.cache.misses + 1 = loop.compiled + (refusals + 1)
      omega

/-- What comes after a block is not counted among look-ups and blocks. -/
theorem afterBlock (h : Balanced refusals dropped loop) (blockEnd : BlockEnd) :
    Balanced (refusals + (loop.afterBlock x blockEnd).value.1.refusals) dropped
      (loop.afterBlock x blockEnd).value.2.1 := by
  rcases loop.afterBlock_cases x blockEnd with ⟨op, -, hValue⟩ | hValue
  · rw [hValue]
    exact { h with }
  · rw [hValue]
    exact h

/-- Each entry of the loop keeps the balance. -/
theorem step {taken : Logged (Transition × RunLoop × E)} (h : Balanced refusals dropped loop)
    (hStep : loop.step x entry = some taken) :
    Balanced (refusals + taken.value.1.refusals) dropped taken.value.2.1 := by
  cases entry with
  | dispatchUnchecked =>
      rcases RunLoop.unchecked_cases hStep with
        ⟨cause, loop₁, x₁, hObtains, rfl⟩ |
        ⟨block, loop₁, x₁, blockEnd, x₂, hObtains, -, rfl⟩
      · exact h.refuses hObtains
      · exact (h.executes hObtains).afterBlock blockEnd
  | checkState =>
      obtain ⟨taken', hTaken', hValue⟩ := RunLoop.step_checkState loop x
      rw [hTaken'] at hStep
      cases hStep
      rw [hValue]
      split <;> exact h
  | outer =>
      cases hStep
      exact { h with }
  | enter =>
      cases hStep
      exact h
  | dispatch =>
      cases hStep
      exact h
  | fpFault =>
      cases hStep
      exact h
  | breakpoint =>
      cases hStep
      exact h

/-- A run that goes on has not met a refused compilation. -/
theorem reaches (h : Balanced refusals dropped first) (hReaches : first.Reaches e entry loop x) :
    Balanced refusals dropped loop := by
  induction hReaches with
  | enter => exact h
  | goto _ hStep hTaken ih =>
      have hAfter := ih.step hStep
      rw [hTaken] at hAfter
      exact hAfter

theorem run {fuel : Nat} {ended : Logged (Except LoopError LoopEnd × RunLoop × E)}
    (h : Balanced refusals dropped first) (hRun : first.run fuel e = some ended) :
    Balanced (refusals + RunLoop.refusals ended.value.1) dropped ended.value.2.1 := by
  obtain ⟨last, loop', x', taken, hReaches, hStep, hTaken⟩ := RunLoop.exists_leave_of_run hRun
  have hAfter := (h.reaches hReaches).step hStep
  rw [hTaken] at hAfter
  exact hAfter

end Run
end Balanced

namespace Accounted

variable {calls past : List ExecutorCall} {refusals dropped : Nat} {loop first : RunLoop}

theorem start (routines : RoutineTable) : Accounted [] 0 0 (.ofRoutines routines) where
  counted kind n hCounter := by cases kind <;> cases hCounter <;> rfl
  found := rfl
  missed := rfl
  kept := rfl
  dropped := rfl

theorem invalidate (h : Accounted calls refusals dropped loop) (start stop : Addr) :
    Accounted calls refusals ((loop.invalidate start stop).1 + dropped)
      (loop.invalidate start stop).2 :=
  { h.toBalanced.invalidate start stop with counted := h.counted }

/-- Calls that are counted from an account on go on with it. -/
theorem counted_append (h : Accounted past refusals dropped first)
    (hCounts : CountsFrom first calls loop) :
    ∀ kind n, loop.counter? kind = some n → n = count kind (calls ++ past) := by
  intro kind n hCounter
  rw [hCounts kind] at hCounter
  obtain ⟨before, hBefore, rfl⟩ := Option.map_eq_some_iff.mp hCounter
  rw [h.counted kind before hBefore, ExecutorCall.count_append, Nat.add_comm]

/-- No counter exceeds the number of calls. -/
theorem countersFit (h : Accounted calls refusals dropped loop) (hFew : calls.length < 2 ^ 64) :
    loop.CountersFit := by
  have hLe : ∀ kind n, loop.counter? kind = some n → n ≤ calls.length := by
    intro kind n hCounter
    rw [h.counted kind n hCounter]
    exact ExecutorCall.count_le_length kind calls
  have hPasses := hLe .syncRegisters _ rfl
  have hMisses := hLe .compile _ rfl
  have hExecuted := hLe .execute _ rfl
  have hSyscalls := hLe .syscall _ rfl
  have hFound := h.found
  have hKept := h.kept
  unfold CountersFit
  omega

variable {E : Type} [Executor E] {entry : LoopEntry} {t : Traced E} {e : E}

theorem reaches (h : Accounted past refusals dropped first)
    (hReaches : first.Reaches (Traced.start e) entry loop t) :
    Accounted (t.calls ++ past) refusals dropped loop :=
  { h.toBalanced.reaches hReaches with counted := h.counted_append (.reaches hReaches) }

theorem run {fuel : Nat} {ended : Logged (Except LoopError LoopEnd × RunLoop × Traced E)}
    (h : Accounted past refusals dropped first)
    (hRun : first.run fuel (Traced.start e) = some ended) :
    Accounted (ended.value.2.2.calls ++ past) (refusals + RunLoop.refusals ended.value.1) dropped
      ended.value.2.1 :=
  { h.toBalanced.run hRun with counted := h.counted_append (.run hRun) }

end Accounted

theorem accounted_of_diary {uses : List LoopUse} {loop : RunLoop} (h : Diary uses loop) :
    loop.Accounted (Diary.calls uses) (Diary.refusals uses) (Diary.dropped uses) := by
  induction h with
  | start routines => exact .start routines
  | @run past loop _ E _ e fuel ended hRun ih =>
      have hAfter := ih.run hRun
      rw [Nat.add_comm] at hAfter
      simpa using hAfter
  | @invalidate past loop _ start stop ih => simpa using ih.invalidate start stop
  | @invalidateCallSite past loop _ site ih =>
      have hEq : loop.invalidateCallSite site =
        loop.invalidate site (Addr.saturatingAdd site (2 * Instruction.size)) := rfl
      rw [hEq]
      simpa using ih.invalidate site _

/-- Whatever was done with a loop, its counters agree with the calls that it made and with each
other, and they still do at every entry that its next run reaches. -/
theorem counters_agree_with_calls {uses : List LoopUse} {first : RunLoop}
    (hDiary : Diary uses first) :
    (first.Accounted (Diary.calls uses) (Diary.refusals uses) (Diary.dropped uses) ∧
        ((Diary.calls uses).length < 2 ^ 64 → first.CountersFit)) ∧
      ∀ {E : Type} [Executor E] (e : E) (entry : LoopEntry) (loop : RunLoop) (t : Traced E),
        first.Reaches (Traced.start e) entry loop t →
          loop.Accounted (t.calls ++ Diary.calls uses) (Diary.refusals uses)
              (Diary.dropped uses) ∧
            ((t.calls ++ Diary.calls uses).length < 2 ^ 64 → loop.CountersFit) := by
  have hFirst := accounted_of_diary hDiary
  refine ⟨⟨hFirst, hFirst.countersFit⟩, fun e entry loop t hReaches => ?_⟩
  have hNow := hFirst.reaches hReaches
  exact ⟨hNow, hNow.countersFit⟩

/-- An executor that cannot compile its first block. -/
def uncompilable : Script :=
  { oneBlock with failures := .insert .empty 0x08804000 (.notFound "no code") }

/-- The block is compiled, found again, dropped, and cannot be compiled any more. -/
theorem dropped_block_accounted :
    ∃ uses loop, Diary uses loop ∧ Diary.refusals uses = 1 ∧ Diary.dropped uses = 1 ∧
      count .execute (Diary.calls uses) = 2 ∧ loop.cache.hits = 1 ∧ loop.cache.size = 0 ∧
      loop.Accounted (Diary.calls uses) 1 1 := by
  obtain ⟨compiles, hCompiles⟩ : ∃ ended, bare.run 16 (Traced.start oneBlock) = some ended :=
    ⟨_, rfl⟩
  obtain ⟨finds, hFinds⟩ :
      ∃ ended, compiles.value.2.1.run 16 (Traced.start oneBlock) = some ended := by
    cases hCompiles
    exact ⟨_, rfl⟩
  obtain ⟨fails, hFails⟩ : ∃ ended, (finds.value.2.1.invalidateCallSite 0x08803FFC).2.run 16
      (Traced.start uncompilable) = some ended := by
    cases hCompiles
    cases hFinds
    exact ⟨_, rfl⟩
  have hTwice := ((Diary.start bare.routines).run hCompiles).run hFinds
  have hDiary := (hTwice.invalidateCallSite 0x08803FFC).run hFails
  have hAccounted := (counters_agree_with_calls hDiary).1.1
  cases hCompiles
  cases hFinds
  cases hFails
  exact ⟨_, _, hDiary, rfl, rfl, rfl, rfl, rfl, hAccounted⟩

end RunLoop
end HostCalls
