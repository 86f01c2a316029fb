import HostCalls.Loop.Traced
import HostCalls.Proofs.Loop.Reach

/-!
# A traced run is the run

The loop does not notice that its executor is traced: `run_traced` says that a run on a traced
executor is the run on the executor itself, with the same result, loop and log, and with the trace
beside it. What is shown of the trace of a run is thereby shown of the run. By `exists_reaches` the
same goes for what is shown of its entries.
-/

namespace HostCalls
namespace Traced

variable {E : Type} [Executor E] {α : Type} {loop loop' : RunLoop} {t t' : Traced E} {pc : Addr}
  {block : NativeBlock}

theorem calls_of_compile {answer : Except Error NativeBlock}
    (h : Executor.compile pc t = (answer, t')) : t'.calls = .compile pc answer :: t.calls := by
  cases h
  rfl

theorem calls_of_execute {blockEnd : BlockEnd}
    (h : Executor.execute block t = some (blockEnd, t')) :
    t'.calls = .execute block blockEnd :: t.calls := by
  obtain ⟨⟨answer, e⟩, -, hEq⟩ := Option.map_eq_some_iff.mp h
  cases hEq
  rfl

theorem eq_after_of_compile {answer : Except Error NativeBlock}
    (h : Executor.compile pc t = (answer, t')) : t' = t.after (.compile pc answer) t'.inner := by
  cases h
  rfl

theorem eq_after_of_execute {blockEnd : BlockEnd}
    (h : Executor.execute block t = some (blockEnd, t')) :
    t' = t.after (.execute block blockEnd) t'.inner := by
  obtain ⟨⟨answer, e⟩, -, hEq⟩ := Option.map_eq_some_iff.mp h
  cases hEq
  rfl

theorem compile_inner {answer : Except Error NativeBlock}
    (h : Executor.compile pc t = (answer, t')) :
    Executor.compile pc t.inner = (answer, t'.inner) := by
  cases h
  rfl

/-- Drops the trace from what the loop leaves behind. -/
def forget (x : Logged (α × RunLoop × Traced E)) : Logged (α × RunLoop × E) :=
  ⟨(x.value.1, x.value.2.1, x.value.2.2.inner), x.log⟩

theorem obtains_inner {result : Except LoopError NativeBlock}
    (h : loop.Obtains t result loop' t') : loop.Obtains t.inner result loop' t'.inner := by
  cases h with
  | hit hFound => exact .hit hFound
  | compiled hMissing hCompile hStart => exact .compiled hMissing (compile_inner hCompile) hStart
  | refused hMissing hCompile hRefused =>
      exact .refused hMissing (compile_inner hCompile) hRefused

theorem forget_afterBlock (loop : RunLoop) (t : Traced E) (blockEnd : BlockEnd) :
    forget (loop.afterBlock t blockEnd) = loop.afterBlock t.inner blockEnd := by
  cases blockEnd with
  | syscall op =>
      refine Logged.ext ?_ ?_
      · rw [forget, RunLoop.value_afterBlock_of_syscall, RunLoop.value_afterBlock_of_syscall]
        rfl
      · have hLog : (Executor.syscall op t).log = (Executor.syscall op t.inner).log :=
          List.append_nil _
        have hAnswer : (Executor.syscall op t).value.1 = (Executor.syscall op t.inner).value.1 :=
          rfl
        simp only [forget, RunLoop.afterBlock, Logged.log_bind, hLog, hAnswer]
        split <;> rfl
  | dispatch => rfl
  | chain => rfl
  | reschedule => rfl
  | fpFault => rfl
  | breakpoint => rfl

theorem forget_step (loop : RunLoop) (t : Traced E) (entry : LoopEntry) :
    (loop.step t entry).map forget = loop.step t.inner entry := by
  cases entry with
  | dispatchUnchecked =>
      obtain ⟨result, loop', t', hObtains⟩ := RunLoop.exists_obtains loop t
      cases result with
      | error cause =>
          rw [RunLoop.step_of_obtains_error hObtains,
            RunLoop.step_of_obtains_error (obtains_inner hObtains)]
          rfl
      | ok block =>
          rw [RunLoop.step_of_obtains_ok hObtains,
            RunLoop.step_of_obtains_ok (obtains_inner hObtains)]
          show ((((Executor.execute block t'.inner).map _).map _).map forget) = _
          cases Executor.execute block t'.inner with
          | none => rfl
          | some answer => exact congrArg some (forget_afterBlock _ _ _)
  | checkState =>
      have hState : (Executor.runState t).1 = (Executor.runState t.inner).1 := rfl
      simp only [RunLoop.step, hState]
      split <;> rfl
  | enter => rfl
  | outer => rfl
  | dispatch => rfl
  | fpFault => rfl
  | breakpoint => rfl

theorem forget_runFrom (fuel : Nat) (entry : LoopEntry) (loop : RunLoop) (t : Traced E)
    (lines : List Log.Line) :
    (RunLoop.runFrom fuel entry loop t lines).map forget =
      RunLoop.runFrom fuel entry loop t.inner lines := by
  induction fuel generalizing entry loop t lines with
  | zero => rfl
  | succ fuel ih =>
      simp only [RunLoop.runFrom]
      rw [← forget_step]
      cases loop.step t entry with
      | none => rfl
      | some taken =>
          obtain ⟨⟨transition, loop', t'⟩, log⟩ := taken
          cases transition with
          | goto next => exact ih next loop' t' _
          | leave result => rfl

/-- The run on an executor is the one on the traced executor, but for the trace. -/
theorem run_traced (fuel : Nat) (loop : RunLoop) (e : E) :
    (loop.run fuel (start e)).map forget = loop.run fuel e :=
  forget_runFrom fuel .enter loop (start e) []

/-- What a run on an executor reaches, the one on the traced executor reaches too. -/
theorem exists_reaches {first : RunLoop} {e x : E} {entry : LoopEntry}
    (h : first.Reaches e entry loop x) :
    ∃ t, first.Reaches (start e) entry loop t ∧ t.inner = x := by
  induction h with
  | enter => exact ⟨start e, .enter, rfl⟩
  | goto _ hStep hTaken ih =>
      obtain ⟨t, hReached, rfl⟩ := ih
      rw [← forget_step] at hStep
      obtain ⟨⟨⟨transition, loop', t'⟩, log⟩, hTraced, rfl⟩ := Option.map_eq_some_iff.mp hStep
      cases hTaken
      exact ⟨t', hReached.goto hTraced rfl, rfl⟩

end Traced
end HostCalls
