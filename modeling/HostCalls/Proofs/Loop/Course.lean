import HostCalls.Proofs.Loop.Traced
import Mathlib.Data.List.Chain

/-!
# The order in which an executor is called

Each answer of an executor settles which entry the loop takes next, and each entry begins with a
call of its own. So the calls of a run are in an order that can be told from the calls alone.

* `Leg` lists everything that one entry of the loop does to a traced executor, and `leg_of_step`
  says that the list is complete.
* `ExecutorCall.Precedes` says which call may come right behind another, and `ExecutorCall.Ends`
  which calls are the last of a run and what it then returns.
* `Course.leg` is the step and `Course.reaches` the run: the calls stay in order and lead to the
  entry that the loop takes next.
-/

namespace HostCalls

namespace ExecutorCall

/-- The entry that an answered call leads to. A block that raised a system call leads to that call
and not to an entry, and some calls lead nowhere. -/
def leadsTo? : ExecutorCall → Option LoopEntry
  | bindRegisters _ => some .outer
  | syncRegisters _ => some .checkState
  | runState state => if state.isRunning then some .dispatch else none
  | sliceExpired expired => some (if expired then .outer else .dispatchUnchecked)
  | execute _ (.syscall _) => none
  | execute _ blockEnd => some blockEnd.next
  | syscall _ _ => some .checkState
  | compile _ _ => none
  | reportFpFault _ => none
  | restoreSnapshot => none

/-- The calls with which an entry of the loop begins. -/
inductive Opens : LoopEntry → ExecutorCall → Prop
  | enter (registers : PinnedRegisters) : Opens .enter (.bindRegisters registers)
  | outer (registers : PinnedRegisters) : Opens .outer (.syncRegisters registers)
  | checkState (state : RunState) : Opens .checkState (.runState state)
  | dispatch (expired : Bool) : Opens .dispatch (.sliceExpired expired)
  | compile (pc : Addr) (answer : Except Error NativeBlock) :
      Opens .dispatchUnchecked (.compile pc answer)
  | execute (block : NativeBlock) (answer : BlockEnd) :
      Opens .dispatchUnchecked (.execute block answer)
  | fpFault (pc : Addr) : Opens .fpFault (.reportFpFault pc)
  | breakpoint : Opens .breakpoint .restoreSnapshot

/-- Which call may come right behind another. -/
inductive Precedes : ExecutorCall → ExecutorCall → Prop
  | entry {call next : ExecutorCall} {entry : LoopEntry} (hLeads : call.leadsTo? = some entry)
      (hOpens : Opens entry next) : Precedes call next
  /-- A block that was just compiled is executed. -/
  | compiled {pc : Addr} {block : NativeBlock} (hStart : block.start = pc) (answer : BlockEnd) :
      Precedes (.compile pc (.ok block)) (.execute block answer)
  | raised (block : NativeBlock) (op : Opcode) (answer : CallOutcome) :
      Precedes (.execute block (.syscall op)) (.syscall op answer)

/-- The calls that end a run, and what it then returns; `pc` is the program counter afterwards. -/
inductive Ends (pc : Addr) : ExecutorCall → Except LoopError LoopEnd → Prop
  | stopped {state : RunState} (hState : state.isRunning = false) :
      Ends pc (.runState state) (.ok (.stopped state))
  | refused {asked : Addr} {answer : Except Error NativeBlock} {cause : LoopError}
      (hRefused : LoopError.ofCompiled? asked answer = some cause) :
      Ends pc (.compile asked answer) (.error cause)
  | fpFault (reported : Addr) : Ends pc (.reportFpFault reported) (.ok (.fpFault reported))
  | breakpoint : Ends pc .restoreSnapshot (.ok (.breakpoint pc))

variable {call next : ExecutorCall} {pc : Addr} {result : Except LoopError LoopEnd}
  {entry : LoopEntry}

theorem Opens.eq_syncRegisters (h : Opens .outer call) :
    ∃ registers, call = .syncRegisters registers := by
  cases h
  exact ⟨_, rfl⟩

theorem Opens.eq_runState (h : Opens .checkState call) : ∃ state, call = .runState state := by
  cases h
  exact ⟨_, rfl⟩

theorem Opens.eq_sliceExpired (h : Opens .dispatch call) :
    ∃ expired, call = .sliceExpired expired := by
  cases h
  exact ⟨_, rfl⟩

theorem Opens.eq_compile_or_execute (h : Opens .dispatchUnchecked call) :
    (∃ pc answer, call = .compile pc answer) ∨ ∃ block answer, call = .execute block answer := by
  cases h with
  | compile pc answer => exact Or.inl ⟨pc, answer, rfl⟩
  | execute block answer => exact Or.inr ⟨block, answer, rfl⟩

theorem Opens.eq_reportFpFault (h : Opens .fpFault call) : ∃ pc, call = .reportFpFault pc := by
  cases h
  exact ⟨_, rfl⟩

theorem Opens.eq_restoreSnapshot (h : Opens .breakpoint call) : call = .restoreSnapshot := by
  cases h
  rfl

theorem not_ends_of_leadsTo? (h : call.leadsTo? = some entry) : ¬ call.Ends pc result := by
  intro hEnds
  cases hEnds with
  | stopped hState =>
      rw [leadsTo?, hState] at h
      cases h
  | refused => cases h
  | fpFault => cases h
  | breakpoint => cases h

theorem not_ends_of_compiled {asked : Addr} {block : NativeBlock} (hStart : block.start = asked) :
    ¬ (compile asked (.ok block)).Ends pc result := by
  intro hEnds
  cases hEnds with
  | refused hRefused =>
      rw [LoopError.ofCompiled?_eq_none_iff.mpr hStart] at hRefused
      cases hRefused

theorem Ends.unique {other : Except LoopError LoopEnd} (h : call.Ends pc result)
    (hOther : call.Ends pc other) : result = other := by
  cases h with
  | refused hRefused =>
      cases hOther with
      | refused hRefused' => rw [Option.some.inj (hRefused.symm.trans hRefused')]
  | stopped => cases hOther with | stopped => rfl
  | fpFault => cases hOther with | fpFault => rfl
  | breakpoint => cases hOther with | breakpoint => rfl

/-- A call that has another behind it does not end the run. -/
theorem Precedes.not_ends (h : call.Precedes next) : ¬ call.Ends pc result := by
  cases h with
  | entry hLeads _ => exact not_ends_of_leadsTo? hLeads
  | compiled hStart _ => exact not_ends_of_compiled hStart
  | raised => nofun

theorem Precedes.opens (h : call.Precedes next) (hLeads : call.leadsTo? = some entry) :
    Opens entry next := by
  cases h with
  | entry hLeads' hOpens =>
      cases hLeads.symm.trans hLeads'
      exact hOpens
  | compiled => cases hLeads
  | raised => cases hLeads

/-- No call leads back to the entry that binds the registers. -/
theorem leadsTo?_ne_enter (call : ExecutorCall) : call.leadsTo? ≠ some .enter := by
  cases call with
  | runState state => cases state <;> nofun
  | sliceExpired expired => cases expired <;> nofun
  | execute block answer => cases answer <;> nofun
  | _ => nofun

theorem Precedes.ne_bindRegisters (h : call.Precedes next) (registers : PinnedRegisters) :
    next ≠ .bindRegisters registers := by
  rintro rfl
  cases h with
  | @entry _ _ entry hLeads hOpens =>
      cases hOpens
      exact leadsTo?_ne_enter call hLeads

end ExecutorCall

/-- How the executor comes by the block that it is to execute. -/
inductive Fetched {E : Type} [Executor E] (t : Traced E) (block : NativeBlock) : Traced E → Prop
  | cached : Fetched t block t
  | compiled (e : E) (hStart : block.start = Executor.pc t) :
      Fetched t block (t.after (.compile (Executor.pc t) (.ok block)) e)

/-- Everything that an entry of the loop does to a traced executor, and where it leads. -/
inductive Leg {E : Type} [Executor E] (t : Traced E) : LoopEntry → Transition → Traced E → Prop
  | enter (registers : PinnedRegisters) (e : E) :
      Leg t .enter (.goto .outer) (t.after (.bindRegisters registers) e)
  | outer (registers : PinnedRegisters) (e : E) :
      Leg t .outer (.goto .checkState) (t.after (.syncRegisters registers) e)
  | running (e : E) : Leg t .checkState (.goto .dispatch) (t.after (.runState .running) e)
  | stopped {state : RunState} (hState : state.isRunning = false) (e : E) :
      Leg t .checkState (.leave (.ok (.stopped state))) (t.after (.runState state) e)
  | sliced (expired : Bool) (e : E) :
      Leg t .dispatch (.goto (if expired then .outer else .dispatchUnchecked))
        (t.after (.sliceExpired expired) e)
  | refused {answer : Except Error NativeBlock} {cause : LoopError}
      (hRefused : LoopError.ofCompiled? (Executor.pc t) answer = some cause) (e : E) :
      Leg t .dispatchUnchecked (.leave (.error cause)) (t.after (.compile (Executor.pc t) answer) e)
  | raised {block : NativeBlock} {t' : Traced E} (hFetched : Fetched t block t') (op : Opcode)
      (answer : CallOutcome) (e e' : E) :
      Leg t .dispatchUnchecked (.goto .checkState)
        ((t'.after (.execute block (.syscall op)) e).after (.syscall op answer) e')
  | executed {block : NativeBlock} {t' : Traced E} (hFetched : Fetched t block t')
      {blockEnd : BlockEnd} (hEnd : ∀ op, blockEnd ≠ .syscall op) (e : E) :
      Leg t .dispatchUnchecked (.goto blockEnd.next) (t'.after (.execute block blockEnd) e)
  | fpFault : Leg t .fpFault (.leave (.ok (.fpFault (Executor.pc t))))
      (t.after (.reportFpFault (Executor.pc t)) (Executor.reportFpFault (Executor.pc t) t.inner))
  | breakpoint : Leg t .breakpoint
      (.leave (.ok (.breakpoint (Executor.pc (Executor.restoreSnapshot t.inner)))))
      (t.after .restoreSnapshot (Executor.restoreSnapshot t.inner))

section Leg

variable {E : Type} [Executor E] {first loop loop' : RunLoop} {t t' : Traced E} {entry : LoopEntry}
  {e : E} {block : NativeBlock}

theorem fetched_of_obtains (h : loop.Obtains t (.ok block) loop' t') : Fetched t block t' := by
  cases h with
  | hit => exact .cached
  | compiled hMissing hCompile hStart =>
      rw [Traced.eq_after_of_compile hCompile]
      exact .compiled _ hStart

/-- Taking an entry is one of the legs. -/
theorem leg_of_step {taken : Logged (Transition × RunLoop × Traced E)}
    (hStep : loop.step t entry = some taken) : Leg t entry taken.value.1 taken.value.2.2 := by
  cases entry with
  | dispatchUnchecked =>
      rcases RunLoop.unchecked_cases hStep with
        ⟨cause, loop₁, t₁, hObtains, rfl⟩ |
        ⟨block, loop₁, t₁, blockEnd, t₂, hObtains, hExecute, rfl⟩
      · cases hObtains with
        | refused hMissing hCompile hRefused =>
            rw [Traced.eq_after_of_compile hCompile]
            exact .refused hRefused _
      · have hFetched := fetched_of_obtains hObtains
        rw [Traced.eq_after_of_execute hExecute]
        by_cases hRaised : ∃ op, blockEnd = .syscall op
        · obtain ⟨op, rfl⟩ := hRaised
          rw [RunLoop.value_afterBlock_of_syscall]
          exact .raised hFetched op _ _ _
        · have hEnd : ∀ op, blockEnd ≠ .syscall op := fun op hEq => hRaised ⟨op, hEq⟩
          rcases RunLoop.afterBlock_cases { loop₁ with executed := loop₁.executed + 1 }
            (t₁.after (.execute block blockEnd) t₂.inner) blockEnd with ⟨op, hEq, -⟩ | hValue
          · exact absurd hEq (hEnd op)
          · rw [hValue]
            exact .executed hFetched hEnd _
  | checkState =>
      obtain ⟨taken', hTaken', hValue⟩ := RunLoop.step_checkState loop t
      rw [hTaken'] at hStep
      cases hStep
      rw [hValue]
      have hAfter : (Executor.runState t).2 =
        t.after (.runState (Executor.runState t).1) (Executor.runState t.inner).2 := rfl
      rw [hAfter]
      cases hState : (Executor.runState t).1.isRunning with
      | true =>
          rw [RunState.isRunning_iff.mp hState]
          exact .running _
      | false => exact .stopped hState _
  | enter =>
      cases hStep
      exact .enter _ _
  | outer =>
      cases hStep
      exact .outer _ _
  | dispatch =>
      cases hStep
      exact .sliced _ _
  | fpFault =>
      cases hStep
      exact .fpFault
  | breakpoint =>
      cases hStep
      exact .breakpoint

/-- A leg makes calls, and ends with those that it makes. -/
theorem Leg.exists_calls {transition : Transition} (h : Leg t entry transition t') :
    ∃ calls, calls ≠ [] ∧ t'.calls = calls ++ t.calls := by
  have hOne : ∀ (call : ExecutorCall) (e : E),
      ∃ calls, calls ≠ [] ∧ (t.after call e).calls = calls ++ t.calls :=
    fun call _ => ⟨[call], List.cons_ne_nil _ _, rfl⟩
  cases h with
  | raised hFetched =>
      cases hFetched with
      | cached => exact ⟨[_, _], List.cons_ne_nil _ _, rfl⟩
      | compiled => exact ⟨[_, _, _], List.cons_ne_nil _ _, rfl⟩
  | executed hFetched =>
      cases hFetched with
      | cached => exact hOne _ _
      | compiled => exact ⟨[_, _], List.cons_ne_nil _ _, rfl⟩
  | _ => exact hOne _ _

end Leg

/-- Calls, latest first, each of which may come right behind the one before it; the first one binds
the registers. -/
structure Course (calls : List ExecutorCall) : Prop where
  chain : calls.IsChain fun later earlier => earlier.Precedes later
  started : ∀ call ∈ calls.getLast?, ∃ registers, call = .bindRegisters registers

/-- The calls lead to an entry: to the first one if there are none yet. -/
structure LeadsTo (calls : List ExecutorCall) (entry : LoopEntry) : Prop where
  enter : calls = [] → entry = .enter
  last : ∀ call ∈ calls.head?, call.leadsTo? = some entry

namespace Course

variable {calls : List ExecutorCall} {last call : ExecutorCall} {entry : LoopEntry}

theorem nil : Course [] := ⟨.nil, nofun⟩

theorem cons (h : Course (last :: calls)) (hPrecedes : last.Precedes call) :
    Course (call :: last :: calls) := by
  refine ⟨List.isChain_cons_cons.mpr ⟨hPrecedes, h.chain⟩, fun first hFirst => h.started first ?_⟩
  rwa [List.getLast?_cons_cons] at hFirst

/-- An entry begins with one of its calls. -/
theorem opens (h : Course calls) (hLeads : LeadsTo calls entry) (hOpens : call.Opens entry) :
    Course (call :: calls) := by
  cases calls with
  | nil =>
      cases hLeads.enter rfl
      cases hOpens with
      | enter registers =>
          refine ⟨List.isChain_singleton _, fun first hFirst => ⟨registers, ?_⟩⟩
          exact (Option.some.inj hFirst).symm
  | cons last calls => exact h.cons (.entry (hLeads.last last rfl) hOpens)

end Course

section Course

variable {E : Type} [Executor E] {first : RunLoop} {t t' : Traced E} {entry : LoopEntry}
  {transition : Transition} {e : E} {block : NativeBlock}

/-- Executing a block is in order once the executor has come by it. -/
theorem Course.fetched (h : Course t.calls) (hLeads : LeadsTo t.calls .dispatchUnchecked)
    (hFetched : Fetched t block t') (answer : BlockEnd) :
    Course t'.calls ∧ Course (.execute block answer :: t'.calls) := by
  cases hFetched with
  | cached => exact ⟨h, h.opens hLeads (.execute block answer)⟩
  | compiled e hStart =>
      have hCompile : Course (.compile (Executor.pc t) (.ok block) :: t.calls) :=
        h.opens hLeads (.compile _ _)
      exact ⟨hCompile, hCompile.cons (.compiled hStart answer)⟩

/-- Where the calls of a leg lead: to the next entry, or to the end of the run. -/
def Arrives (t : Traced E) : Transition → Prop
  | .goto entry => LeadsTo t.calls entry
  | .leave result => ∃ call calls, t.calls = call :: calls ∧ call.Ends (Executor.pc t) result

theorem leadsTo_cons {call : ExecutorCall} {calls : List ExecutorCall}
    (h : call.leadsTo? = some entry) : LeadsTo (call :: calls) entry :=
  ⟨nofun, fun _ hLast => Option.some.inj hLast ▸ h⟩

/-- A leg keeps the calls in order and leads to where the loop goes. -/
theorem Course.leg (h : Course t.calls) (hLeads : LeadsTo t.calls entry)
    (hLeg : Leg t entry transition t') : Course t'.calls ∧ Arrives t' transition := by
  cases hLeg with
  | enter registers e => exact ⟨h.opens hLeads (.enter registers), leadsTo_cons rfl⟩
  | outer registers e => exact ⟨h.opens hLeads (.outer registers), leadsTo_cons rfl⟩
  | running e => exact ⟨h.opens hLeads (.checkState .running), leadsTo_cons rfl⟩
  | stopped hState e => exact ⟨h.opens hLeads (.checkState _), _, _, rfl, .stopped hState⟩
  | sliced expired e => exact ⟨h.opens hLeads (.dispatch expired), leadsTo_cons rfl⟩
  | refused hRefused e => exact ⟨h.opens hLeads (.compile _ _), _, _, rfl, .refused hRefused⟩
  | raised hFetched op answer e e' =>
      have hRaised := (h.fetched hLeads hFetched (.syscall op)).2
      exact ⟨hRaised.cons (.raised _ op answer), leadsTo_cons rfl⟩
  | @executed block t' hFetched blockEnd hEnd e =>
      refine ⟨(h.fetched hLeads hFetched blockEnd).2, leadsTo_cons ?_⟩
      cases blockEnd with
      | syscall op => exact absurd rfl (hEnd op)
      | _ => rfl
  | fpFault => exact ⟨h.opens hLeads (.fpFault _), _, _, rfl, .fpFault _⟩
  | breakpoint => exact ⟨h.opens hLeads .breakpoint, _, _, rfl, .breakpoint⟩

theorem Course.reaches {loop : RunLoop}
    (hReaches : first.Reaches (Traced.start e) entry loop t) :
    Course t.calls ∧ LeadsTo t.calls entry := by
  induction hReaches with
  | enter => exact ⟨.nil, fun _ => rfl, nofun⟩
  | goto _ hStep hTaken ih =>
      have hNext := ih.1.leg ih.2 (leg_of_step hStep)
      rwa [hTaken] at hNext

end Course
end HostCalls
