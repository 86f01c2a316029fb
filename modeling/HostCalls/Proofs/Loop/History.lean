import HostCalls.Loop.Script
import HostCalls.Proofs.Loop.Standing
import HostCalls.Proofs.Loop.Traced

/-!
# Visits and the history of their loop

A loop is used by a whole sequence of runs and invalidations, and each run may be on an executor of
its own. Whenever the loop visits a program counter, it executes the block that stands for it
according to everything that happened before, and asks for a compilation only if there is none.

* `Session` is what runs and invalidations make of a new loop, with the events on the way,
* `Remembers.step` and `Remembers.reaches` are the invariant along a run, and `Session.remembers` is
  the invariant along a session,
* `visits_agree_with_history` says what follows at each visit. An invalidation of an empty range
  drops blocks as well, so a block may be compiled anew although nothing of it was invalidated
  (`empty_range_drops_block`).
-/

namespace HostCalls

namespace Traced

/-- What the executor was asked for, latest first. -/
def events {E : Type} (t : Traced E) : List LoopEvent :=
  t.calls.map .asked

theorem mem_past_of_invalidated {E : Type} {t : Traced E} {past : List LoopEvent}
    {start stop : Addr} (h : .invalidated start stop ∈ t.events ++ past) :
    .invalidated start stop ∈ past := by
  rcases List.mem_append.mp h with hMem | hMem
  · obtain ⟨call, -, hEq⟩ := List.mem_map.mp hMem
    cases hEq
  · exact hMem

end Traced

namespace Remembers

variable {E : Type} [Executor E] {past : List LoopEvent} {first loop loop' : RunLoop}
  {t t' : Traced E} {entry : LoopEntry}

theorem obtains {result : Except LoopError NativeBlock}
    (h : Remembers (t.events ++ past) loop.cache) (hObtains : loop.Obtains t result loop' t') :
    Remembers (t'.events ++ past) loop'.cache := by
  cases hObtains with
  | hit hFound => exact h.of_blocks rfl
  | compiled hMissing hCompile hStart =>
      rw [Traced.events, Traced.calls_of_compile hCompile]
      exact (h.compiled hMissing hStart).of_blocks rfl
  | refused hMissing hCompile hRefused =>
      rw [Traced.events, Traced.calls_of_compile hCompile]
      exact (h.refused hMissing hRefused).of_blocks rfl

/-- The block that is handed to the executor stands for the program counter. -/
theorem standing_of_obtains {block : NativeBlock} (h : Remembers (t.events ++ past) loop.cache)
    (hObtains : loop.Obtains t (.ok block) loop' t') :
    Standing NativeBlock.Misses (t'.events ++ past) (Executor.pc t) block :=
  ((h.obtains hObtains).get?_iff _ _).mp hObtains.get?_eq

theorem afterBlock (h : Remembers (t.events ++ past) loop.cache) (blockEnd : BlockEnd) :
    Remembers ((loop.afterBlock t blockEnd).value.2.2.events ++ past)
      (loop.afterBlock t blockEnd).value.2.1.cache := by
  rcases loop.afterBlock_cases t blockEnd with ⟨op, -, hValue⟩ | hValue
  · rw [hValue]
    exact h.quiet rfl
  · rw [hValue]
    exact h

/-- No entry of the loop makes cache and history disagree. -/
theorem step (past : List LoopEvent) :
    RunLoop.Invariant fun loop (t : Traced E) => Remembers (t.events ++ past) loop.cache := by
  intro entry loop t taken h hStep
  cases entry with
  | dispatchUnchecked =>
      rcases RunLoop.unchecked_cases hStep with
        ⟨cause, loop₁, t₁, hObtains, rfl⟩ |
        ⟨block, loop₁, t₁, blockEnd, t₂, hObtains, hExecute, rfl⟩
      · exact h.obtains hObtains
      · refine afterBlock ?_ blockEnd
        rw [Traced.events, Traced.calls_of_execute hExecute]
        -- the block is at hand for the program counter, which is where it starts
        have hStart := (h.standing_of_obtains hObtains).start_eq
        exact (h.obtains hObtains).executed (hStart ▸ hObtains.get?_eq) blockEnd
  | checkState =>
      obtain ⟨taken', hTaken', hValue⟩ := RunLoop.step_checkState loop t
      rw [hTaken'] at hStep
      cases hStep
      rw [hValue]
      exact h.quiet rfl
  | enter =>
      cases hStep
      exact h.quiet rfl
  | outer =>
      cases hStep
      exact h.quiet rfl
  | dispatch =>
      cases hStep
      exact h.quiet rfl
  | fpFault =>
      cases hStep
      exact h.quiet rfl
  | breakpoint =>
      cases hStep
      exact h.quiet rfl

/-- At every entry that a run reaches, the cache agrees with what was before the run and on it. -/
theorem reaches {e : E} (h : Remembers past first.cache)
    (hReaches : first.Reaches (Traced.start e) entry loop t) :
    Remembers (t.events ++ past) loop.cache :=
  (step past).reaches (e := Traced.start e) h hReaches

theorem run {e : E} {fuel : Nat} {ended : Logged (Except LoopError LoopEnd × RunLoop × Traced E)}
    (h : Remembers past first.cache) (hRun : first.run fuel (Traced.start e) = some ended) :
    Remembers (ended.value.2.2.events ++ past) ended.value.2.1.cache :=
  (step past).run (e := Traced.start e) h hRun

end Remembers

/-- A loop to which runs and invalidations have led from a new one, and the events on the way,
latest first. Each run may be on another executor. -/
inductive Session : List LoopEvent → RunLoop → Prop
  | start (routines : RoutineTable) : Session [] (.ofRoutines routines)
  | run {past : List LoopEvent} {loop : RunLoop} (hSession : Session past loop) {E : Type}
      [Executor E] {e : E} {fuel : Nat}
      {ended : Logged (Except LoopError LoopEnd × RunLoop × Traced E)}
      (hRun : loop.run fuel (Traced.start e) = some ended) :
      Session (ended.value.2.2.events ++ past) ended.value.2.1
  | invalidate {past : List LoopEvent} {loop : RunLoop} (hSession : Session past loop)
      (start stop : Addr) :
      Session (.invalidated start stop :: past) (loop.invalidate start stop).2
  | invalidateCallSite {past : List LoopEvent} {loop : RunLoop} (hSession : Session past loop)
      (site : Addr) :
      Session (.invalidated site (Addr.saturatingAdd site (2 * Instruction.size)) :: past)
        (loop.invalidateCallSite site).2

theorem Session.remembers {past : List LoopEvent} {loop : RunLoop} (h : Session past loop) :
    Remembers past loop.cache := by
  induction h with
  | start routines => exact .empty
  | run _ hRun ih => exact ih.run hRun
  | invalidate _ start stop ih => exact ih.invalidated start stop
  | invalidateCallSite _ site ih => exact ih.invalidated site _

namespace RunLoop

variable {E : Type} [Executor E]

/-- A visit to the program counter asks for a compilation, and this is the answer. -/
def Asks (loop : RunLoop) (t : Traced E) (answer : Except Error NativeBlock) : Prop :=
  ∃ result loop' t', loop.ensureCompiled (Executor.pc t) t = (result, loop', t') ∧
    t'.calls = .compile (Executor.pc t) answer :: t.calls

variable {first loop loop' : RunLoop} {t t' : Traced E} {answer : Except Error NativeBlock}
  {e : E} {past : List LoopEvent}

theorem asks_iff : loop.Asks t answer ↔
    loop.cache.get? (Executor.pc t) = none ∧ (Executor.compile (Executor.pc t) t).1 = answer := by
  obtain ⟨result, loop₁, t₁, hObtains⟩ := exists_obtains loop t
  have hEnsure := hObtains.ensureCompiled_eq
  constructor
  · rintro ⟨result', loop₂, t₂, hEnsure', hCalls⟩
    cases hEnsure.symm.trans hEnsure'
    cases hObtains with
    | hit hFound => exact absurd hCalls List.ne_cons_self
    | compiled hMissing hCompile hStart =>
        rw [Traced.calls_of_compile hCompile] at hCalls
        cases hCalls
        exact ⟨hMissing, by rw [hCompile]⟩
    | refused hMissing hCompile hRefused =>
        rw [Traced.calls_of_compile hCompile] at hCalls
        cases hCalls
        exact ⟨hMissing, by rw [hCompile]⟩
  · rintro ⟨hMissing, rfl⟩
    refine ⟨_, _, _, hEnsure, ?_⟩
    cases hObtains with
    | hit hFound =>
        rw [hMissing] at hFound
        cases hFound
    | compiled _ hCompile _ =>
        rw [hCompile]
        exact Traced.calls_of_compile hCompile
    | refused _ hCompile _ =>
        rw [hCompile]
        exact Traced.calls_of_compile hCompile

/-- A visit of the run of `first` on `e`, which has come to `loop` and `t`, agrees with what was
before: it executes the block that stands, asks for a compilation if there is none, and leaves if
the compilation is refused, to ask again the next time. -/
structure VisitAgrees (past : List LoopEvent) (first : RunLoop) (e : E) (loop : RunLoop)
    (t : Traced E) : Prop where
  orderly : Orderly (t.events ++ past)
  /-- The visit executes the block that it hands over, unless there is none. -/
  proceeds : (∃ block t' loop', loop.Hands t block t' ∧
      loop.runBlock t = (Executor.execute block t').map fun (blockEnd, t'') =>
        (.ok blockEnd, loop', t'')) ∨
    ∃ answer cause, loop.Asks t answer ∧
      LoopError.ofCompiled? (Executor.pc t) answer = some cause
  executed : ∀ block t', loop.Hands t block t' → block.start = Executor.pc t ∧
    Standing NativeBlock.Misses (t'.events ++ past) (Executor.pc t) block ∧
    Standing NativeBlock.ClearOf (t'.events ++ past) (Executor.pc t) block
  asked : (∃ answer, loop.Asks t answer) ↔
    ∀ block, ¬ Standing NativeBlock.Misses (t.events ++ past) (Executor.pc t) block
  /-- A block that is clear of every range is compiled anew only if it or a range is empty. -/
  asked_clear : ∀ answer, loop.Asks t answer →
    ∀ block, Standing NativeBlock.ClearOf (t.events ++ past) (Executor.pc t) block →
      block.size = 0 ∨ ∃ start stop, .invalidated start stop ∈ past ∧ stop ≤ start
  refused : ∀ answer cause, loop.Asks t answer →
    LoopError.ofCompiled? (Executor.pc t) answer = some cause →
    ∃ fuel ended, first.run fuel (Traced.start e) = some ended ∧ ended.value.1 = .error cause ∧
      ended.value.2.1.cache.blocks = loop.cache.blocks ∧
      ended.value.2.1.compiled = loop.compiled
  /-- Nothing was compiled for the program counter since, so this is the next visit to it. -/
  retried : ∀ later answer cause earlier,
    t.events ++ past = later ++ .asked (.compile (Executor.pc t) answer) :: earlier →
    (∀ again, .asked (.compile (Executor.pc t) again) ∉ later) →
    LoopError.ofCompiled? (Executor.pc t) answer = some cause →
    ∃ again, loop.Asks t again

theorem Reaches.run_of_refused {cause : LoopError}
    (hReaches : first.Reaches (Traced.start e) .dispatchUnchecked loop t)
    (hAsks : loop.Asks t answer)
    (hRefused : LoopError.ofCompiled? (Executor.pc t) answer = some cause) :
    ∃ fuel ended, first.run fuel (Traced.start e) = some ended ∧ ended.value.1 = .error cause ∧
      ended.value.2.1.cache.blocks = loop.cache.blocks ∧
      ended.value.2.1.compiled = loop.compiled := by
  obtain ⟨hMissing, rfl⟩ := asks_iff.mp hAsks
  have hObtains := Obtains.refused hMissing rfl hRefused
  obtain ⟨fuel, ended, hRun, hValue⟩ :=
    hReaches.run_of_leave (step_of_obtains_error hObtains) rfl
  refine ⟨fuel, ended, hRun, ?_⟩
  rw [hValue]
  exact ⟨rfl, rfl, rfl⟩

theorem visitAgrees_of_remembers (h : Remembers (t.events ++ past) loop.cache)
    (hReaches : first.Reaches (Traced.start e) .dispatchUnchecked loop t) :
    VisitAgrees past first e loop t := by
  have hAsked : (∃ answer, loop.Asks t answer) ↔
      ∀ block, ¬ Standing NativeBlock.Misses (t.events ++ past) (Executor.pc t) block := by
    rw [← h.get?_eq_none_iff]
    exact ⟨fun ⟨_, hAsks⟩ => (asks_iff.mp hAsks).1,
      fun hMissing => ⟨_, asks_iff.mpr ⟨hMissing, rfl⟩⟩⟩
  constructor
  case orderly => exact h.orderly
  case proceeds =>
    obtain ⟨result, loop', t', hObtains⟩ := exists_obtains loop t
    cases result with
    | ok block =>
        have hHands : loop.Hands t block t' := hands_iff.mpr ⟨loop', hObtains⟩
        exact Or.inl ⟨block, t', _, hHands, runBlock_of_obtains_ok hObtains⟩
    | error cause =>
        cases hObtains with
        | refused hMissing hCompile hRefused =>
            exact Or.inr ⟨_, cause, asks_iff.mpr ⟨hMissing, congrArg Prod.fst hCompile⟩, hRefused⟩
  case executed =>
    intro block t' hHands
    obtain ⟨loop', hObtains⟩ := hands_iff.mp hHands
    have hStanding := h.standing_of_obtains hObtains
    exact ⟨hStanding.start_eq, hStanding,
      hStanding.mono fun start stop _ => NativeBlock.clearOf_of_misses⟩
  case asked => exact hAsked
  case asked_clear =>
    intro answer hAsks block hClear
    by_cases hEmpty : block.size = 0 ∨
        ∃ start stop, .invalidated start stop ∈ past ∧ stop ≤ start
    · exact hEmpty
    · -- to be clear of every range is to miss it then, so the block would have been at hand
      obtain ⟨hSize, hRanges⟩ := not_or.mp hEmpty
      refine absurd (hClear.misses_of_clearOf hSize fun start stop hMem => ?_)
        (hAsked.mp ⟨answer, hAsks⟩ block)
      have hPast := Traced.mem_past_of_invalidated hMem
      exact UInt32.not_le.mp fun hLe => hRanges ⟨start, stop, hPast, hLe⟩
  case refused => exact fun answer cause => hReaches.run_of_refused
  case retried =>
    intro later answer cause earlier hHistory hLater hRefused
    refine hAsked.mpr fun block => ?_
    have hOrderly := h.orderly
    rw [hHistory] at hOrderly ⊢
    exact hOrderly.not_standing hRefused hLater block

/-- Whatever runs and invalidations there were before, each visit of a run agrees with them, and no
run ends for want of a block. -/
theorem visits_agree_with_history (hSession : Session past first) (e : E) :
    (∀ loop t, first.Reaches (Traced.start e) .dispatchUnchecked loop t →
        VisitAgrees past first e loop t) ∧
      ∀ fuel ended, first.run fuel (Traced.start e) = some ended →
        ∀ pc, ended.value.1 ≠ .error (.missing pc) := by
  refine ⟨fun loop t hReaches => ?_, fun fuel ended hRun pc => run_ne_missing hRun pc⟩
  exact visitAgrees_of_remembers (hSession.remembers.reaches hReaches) hReaches

/-- An executor that powers down when it has executed one block. -/
def oneBlock : Script :=
  ⟨0x08804000, [], .running, 0, .invalidOpcode, .empty, .empty, .empty, none⟩

/-- The block that it compiles. -/
def twoWords : NativeBlock :=
  ⟨0x08804000, 8, Word.bytes 0x08804000⟩

/-- What it is asked for until the program counter is visited. -/
def callsToVisit : List ExecutorCall :=
  [.sliceExpired false, .runState .running, .syncRegisters .standard, .bindRegisters .standard]

/-- The traced executor at the visit. -/
def visited : Traced Script :=
  ⟨oneBlock, callsToVisit⟩

/-- What it is asked for from the visit on if no block is at hand. -/
def callsFromVisit : List ExecutorCall :=
  [.runState .powerDown, .syncRegisters .standard, .execute twoWords .reschedule,
    .compile 0x08804000 (.ok twoWords)]

/-- The loop after its first run on this executor. -/
def afterRun : RunLoop :=
  { bare with
    cache := { NativeCache.empty with misses := 1 }.insert twoWords
    outerPasses := 2
    executed := 1
    compiled := 1 }

theorem reaches_visit (hRegisters : first.routines.registers = .standard) :
    first.Reaches (Traced.start oneBlock) .dispatchUnchecked
      { first with outerPasses := first.outerPasses + 1 } visited := by
  have hEnter : first.Reaches (Traced.start oneBlock) .enter first _ := .enter
  have hOuter := hEnter.goto rfl rfl
  have hCheck := hOuter.goto rfl rfl
  have hDispatch := hCheck.goto rfl rfl
  rw [visited, callsToVisit, ← hRegisters]
  exact hDispatch.goto rfl rfl

theorem session_afterRun :
    Session ((callsFromVisit ++ callsToVisit).map .asked) afterRun := by
  have hVisit := reaches_visit (show bare.routines.registers = .standard from rfl)
  have hOuter := hVisit.goto rfl rfl
  have hCheck := hOuter.goto rfl rfl
  obtain ⟨fuel, ended, hRun, hValue⟩ := hCheck.run_of_leave rfl rfl
  have hSession := (Session.start bare.routines).run hRun
  rw [hValue] at hSession
  exact hSession

/-- A call site elsewhere was rewritten, so the next run executes the block that the first one
compiled. -/
theorem block_outlives_rewrite_elsewhere :
    let past := .invalidated 0x08900000 0x08900008 ::
      (callsFromVisit ++ callsToVisit).map LoopEvent.asked
    let first := (afterRun.invalidateCallSite 0x08900000).2
    Session past first ∧
      ∃ loop t, first.Reaches (Traced.start oneBlock) .dispatchUnchecked loop t ∧
        loop.Hands t twoWords t ∧
        Standing NativeBlock.ClearOf (t.events ++ past) (Executor.pc t) twoWords := by
  intro past first
  have hSession : Session past first := session_afterRun.invalidateCallSite 0x08900000
  have hVisit := reaches_visit (show first.routines.registers = .standard from rfl)
  have hHands : { first with outerPasses := 3 }.Hands visited twoWords visited := ⟨_, rfl, rfl⟩
  have hAgrees := (visits_agree_with_history hSession oneBlock).1 _ _ hVisit
  exact ⟨hSession, _, _, hVisit, hHands, (hAgrees.executed _ _ hHands).2.2⟩

/-- An empty range in the middle of a block covers nothing, and yet the block is dropped. -/
theorem empty_range_drops_block :
    let past := .invalidated 0x08804004 0x08804004 ::
      (callsFromVisit ++ callsToVisit).map LoopEvent.asked
    let first := (afterRun.invalidate 0x08804004 0x08804004).2
    Session past first ∧
      ∃ loop t, first.Reaches (Traced.start oneBlock) .dispatchUnchecked loop t ∧
        Standing NativeBlock.ClearOf (t.events ++ past) (Executor.pc t) twoWords ∧
        loop.Asks t (.ok twoWords) := by
  intro past first
  have hSession : Session past first := session_afterRun.invalidate 0x08804004 0x08804004
  have hVisit := reaches_visit (show first.routines.registers = .standard from rfl)
  refine ⟨hSession, _, _, hVisit, ⟨rfl, ?_⟩, asks_iff.mpr ⟨rfl, rfl⟩⟩
  refine ⟨callsToVisit.map .asked ++ .invalidated 0x08804004 0x08804004 ::
    (callsFromVisit.take 3).map .asked, callsToVisit.map .asked, rfl, ?_, fun start stop hMem => ?_⟩
  · simp [callsToVisit, callsFromVisit]
  · have hRange : start = 0x08804004 ∧ stop = 0x08804004 := by
      simpa [callsToVisit, callsFromVisit] using hMem
    obtain ⟨rfl, rfl⟩ := hRange
    exact NativeBlock.clearOf_of_le (UInt32.le_refl _)

end RunLoop
end HostCalls
