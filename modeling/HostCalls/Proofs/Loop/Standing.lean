import HostCalls.Loop.Traced
import HostCalls.Proofs.Loop.NativeBlock
import HostCalls.Proofs.Loop.Reach

/-!
# Which block stands for an address

The history of a loop is the list of what executors were asked for and of the ranges that were
invalidated. It says which block stands for an address: the one that was compiled for it, unless it
was compiled anew or an invalidation did not spare it.

* `Standing` is what a history says about a block,
* `Orderly` says of a history that only standing blocks were executed, and that compilations were
  asked for only where no block stood,
* `Remembers` says that a cache agrees with an orderly history. It is kept by every kind of event:
  `Remembers.compiled`, `refused`, `executed`, `invalidated` and `quiet`.
-/

namespace HostCalls

/-- What bears on the blocks at hand. -/
inductive LoopEvent
  /-- An executor was asked for something. -/
  | asked (call : ExecutorCall)
  /-- The blocks that overlap a range were dropped. -/
  | invalidated (start stop : Addr)

namespace LoopEvent

/-- Whether an event neither concerns blocks nor drops them. -/
def isQuiet : LoopEvent → Bool
  | asked (.compile _ _) | asked (.execute _ _) | invalidated _ _ => false
  | _ => true

theorem asked_compile_ne {pc other : Addr} (h : other ≠ pc) (answer : Except Error NativeBlock)
    (block : NativeBlock) :
    asked (.compile pc answer) ≠ asked (.compile other (.ok block)) := by
  intro hEq
  cases hEq
  exact h rfl

theorem asked_failure_ne (pc other : Addr) (cause : Error) (block : NativeBlock) :
    asked (.compile pc (.error cause)) ≠ asked (.compile other (.ok block)) := by
  intro hEq
  cases hEq

theorem asked_execute_ne (executed : NativeBlock) (answer : BlockEnd) (pc : Addr)
    (block : NativeBlock) :
    asked (.execute executed answer) ≠ asked (.compile pc (.ok block)) := by
  intro hEq
  cases hEq

theorem invalidated_ne (start stop pc : Addr) (block : NativeBlock) :
    invalidated start stop ≠ asked (.compile pc (.ok block)) := by
  intro hEq
  cases hEq

theorem ne_of_isQuiet {event : LoopEvent} (h : event.isQuiet = true) (pc : Addr)
    (block : NativeBlock) : event ≠ asked (.compile pc (.ok block)) := by
  rintro rfl
  cases h

end LoopEvent

/-- According to the events of the past, latest first, `block` starts at `pc`, is what the most
recent compilation for `pc` that succeeded gave, and is spared by every invalidation since. -/
structure Standing (spares : NativeBlock → Addr → Addr → Prop) (past : List LoopEvent) (pc : Addr)
    (block : NativeBlock) : Prop where
  start_eq : block.start = pc
  latest : ∃ later earlier, past = later ++ .asked (.compile pc (.ok block)) :: earlier ∧
    (∀ other, .asked (.compile pc (.ok other)) ∉ later) ∧
    ∀ start stop, .invalidated start stop ∈ later → spares block start stop

namespace Standing

variable {spares : NativeBlock → Addr → Addr → Prop} {past : List LoopEvent} {pc : Addr}
  {block other : NativeBlock} {event : LoopEvent}

theorem not_nil : ¬ Standing spares [] pc block := by
  rintro ⟨-, later, earlier, hPast, -⟩
  cases later <;> cases hPast

theorem mono {permits : NativeBlock → Addr → Addr → Prop}
    (hPermits : ∀ start stop, .invalidated start stop ∈ past → spares block start stop →
      permits block start stop) (h : Standing spares past pc block) :
    Standing permits past pc block := by
  obtain ⟨hStart, later, earlier, rfl, hLatest, hSpared⟩ := h
  refine ⟨hStart, later, earlier, rfl, hLatest, fun start stop hMem => ?_⟩
  exact hPermits start stop (List.mem_append_left _ hMem) (hSpared start stop hMem)

/-- Unless the block or an invalidated range is empty, to be clear of the ranges is to miss them. -/
theorem misses_of_clearOf (hSize : block.size ≠ 0)
    (hRanges : ∀ start stop, .invalidated start stop ∈ past → start < stop)
    (h : Standing NativeBlock.ClearOf past pc block) : Standing NativeBlock.Misses past pc block :=
  h.mono fun start stop hMem hClear =>
    NativeBlock.misses_of_clearOf hSize (hRanges start stop hMem) hClear

theorem compiled_iff : Standing spares (.asked (.compile pc (.ok other)) :: past) pc block ↔
    block = other ∧ other.start = pc := by
  constructor
  · rintro ⟨hStart, later, earlier, hPast, hLatest, -⟩
    cases later with
    | nil =>
        cases hPast
        exact ⟨rfl, hStart⟩
    | cons first later =>
        cases hPast
        exact absurd List.mem_cons_self (hLatest other)
  · rintro ⟨rfl, hStart⟩
    exact ⟨hStart, [], past, rfl, nofun, nofun⟩

/-- An event that is no successful compilation for `pc` matters only if it is an invalidation. -/
theorem cons_iff (hEvent : ∀ other, event ≠ .asked (.compile pc (.ok other))) :
    Standing spares (event :: past) pc block ↔ Standing spares past pc block ∧
      ∀ start stop, event = .invalidated start stop → spares block start stop := by
  constructor
  · rintro ⟨hStart, later, earlier, hPast, hLatest, hSpared⟩
    cases later with
    | nil =>
        cases hPast
        exact absurd rfl (hEvent block)
    | cons first later =>
        cases hPast
        refine ⟨⟨hStart, later, earlier, rfl, fun other hMem => ?_, fun start stop hMem => ?_⟩,
          fun start stop hEq => ?_⟩
        · exact hLatest other (List.mem_cons_of_mem _ hMem)
        · exact hSpared start stop (List.mem_cons_of_mem _ hMem)
        · exact hSpared start stop (hEq ▸ List.mem_cons_self)
  · rintro ⟨⟨hStart, later, earlier, rfl, hLatest, hSpared⟩, hNow⟩
    refine ⟨hStart, event :: later, earlier, rfl, fun other hMem => ?_, fun start stop hMem => ?_⟩
    · rcases List.mem_cons.mp hMem with hEq | hMem
      · exact hEvent other hEq.symm
      · exact hLatest other hMem
    · rcases List.mem_cons.mp hMem with hEq | hMem
      · exact hNow start stop hEq.symm
      · exact hSpared start stop hMem

theorem cons_iff_of_asked {call : ExecutorCall}
    (hEvent : ∀ other, LoopEvent.asked call ≠ .asked (.compile pc (.ok other))) :
    Standing spares (.asked call :: past) pc block ↔ Standing spares past pc block := by
  rw [cons_iff hEvent]
  exact and_iff_left nofun

/-- While a compilation for `pc` that was refused remains the latest one, no block stands for it. -/
theorem not_of_refused {later earlier : List LoopEvent} {answer : Except Error NativeBlock}
    {cause : LoopError} (hRefused : LoopError.ofCompiled? pc answer = some cause)
    (hLater : ∀ again, .asked (.compile pc again) ∉ later)
    (hEarlier : ∀ block, ¬ Standing spares earlier pc block) :
    ¬ Standing spares (later ++ .asked (.compile pc answer) :: earlier) pc block := by
  -- nothing in `later` compiles for `pc`, so the refused compilation decides
  induction later with
  | nil =>
      intro h
      cases answer with
      | ok given =>
          obtain ⟨-, hStart⟩ := compiled_iff.mp h
          rw [LoopError.ofCompiled?_eq_none_iff.mpr hStart] at hRefused
          cases hRefused
      | error error =>
          exact hEarlier block
            ((cons_iff_of_asked (LoopEvent.asked_failure_ne pc pc error)).mp h)
  | cons event later ih =>
      intro h
      have hEvent : ∀ other, event ≠ .asked (.compile pc (.ok other)) := by
        rintro other rfl
        exact hLater _ List.mem_cons_self
      exact ih (fun again hMem => hLater again (List.mem_cons_of_mem _ hMem))
        ((cons_iff hEvent).mp h).1

end Standing

/-- Each block that was executed stood for its start at the time, and each compilation was asked for
when no block stood. -/
inductive Orderly : List LoopEvent → Prop
  | nil : Orderly []
  | cons {past : List LoopEvent} {event : LoopEvent} (hPast : Orderly past)
      (hExecute : ∀ block answer, event = .asked (.execute block answer) →
        Standing NativeBlock.Misses past block.start block)
      (hCompile : ∀ pc answer, event = .asked (.compile pc answer) →
        ∀ block, ¬ Standing NativeBlock.Misses past pc block) :
      Orderly (event :: past)

/-- A refused compilation leaves its address without a block until the next one. -/
theorem Orderly.not_standing {later earlier : List LoopEvent} {pc : Addr}
    {answer : Except Error NativeBlock} {cause : LoopError}
    (h : Orderly (later ++ .asked (.compile pc answer) :: earlier))
    (hRefused : LoopError.ofCompiled? pc answer = some cause)
    (hLater : ∀ again, .asked (.compile pc again) ∉ later) (block : NativeBlock) :
    ¬ Standing NativeBlock.Misses (later ++ .asked (.compile pc answer) :: earlier) pc block := by
  refine Standing.not_of_refused hRefused hLater ?_
  -- no block stood when the compilation was asked for, which is the event behind `later`
  clear hLater
  induction later with
  | nil =>
      cases h with
      | cons _ _ hCompile => exact hCompile pc answer rfl
  | cons event later ih =>
      cases h with
      | cons hPast _ _ => exact ih hPast

/-- The history is orderly, and the block at hand for an address is the one that stands for it. -/
structure Remembers (past : List LoopEvent) (cache : NativeCache) : Prop where
  orderly : Orderly past
  get?_iff : ∀ pc block, cache.get? pc = some block ↔ Standing NativeBlock.Misses past pc block

namespace Remembers

variable {past : List LoopEvent} {cache cache' : NativeCache} {pc : Addr} {block : NativeBlock}

theorem empty : Remembers [] .empty :=
  ⟨.nil, fun _ _ => ⟨nofun, fun h => absurd h Standing.not_nil⟩⟩

theorem get?_eq_none_iff (h : Remembers past cache) :
    cache.get? pc = none ↔ ∀ block, ¬ Standing NativeBlock.Misses past pc block := by
  rw [Option.eq_none_iff_forall_ne_some]
  exact forall_congr' fun block => not_congr (h.get?_iff pc block)

theorem of_blocks (h : Remembers past cache) (hBlocks : cache'.blocks = cache.blocks) :
    Remembers past cache' := by
  refine ⟨h.orderly, fun pc block => ?_⟩
  rw [← h.get?_iff pc block, NativeCache.get?, hBlocks, NativeCache.get?]

theorem quiet {call : ExecutorCall} (h : Remembers past cache)
    (hQuiet : (LoopEvent.asked call).isQuiet = true) : Remembers (.asked call :: past) cache := by
  refine ⟨.cons h.orderly (fun block answer hEq => ?_) (fun pc answer hEq => ?_),
    fun pc block => ?_⟩
  · rw [hEq] at hQuiet
    cases hQuiet
  · rw [hEq] at hQuiet
    cases hQuiet
  · rw [Standing.cons_iff_of_asked (LoopEvent.ne_of_isQuiet hQuiet pc), ← h.get?_iff pc block]

theorem executed (h : Remembers past cache) (hGet : cache.get? block.start = some block)
    (answer : BlockEnd) : Remembers (.asked (.execute block answer) :: past) cache := by
  refine ⟨.cons h.orderly (fun other answer' hEq => ?_) (fun pc answer' hEq => ?_),
    fun pc other => ?_⟩
  · cases hEq
    exact (h.get?_iff _ _).mp hGet
  · cases hEq
  · rw [Standing.cons_iff_of_asked (LoopEvent.asked_execute_ne block answer pc),
      ← h.get?_iff pc other]

theorem compiled (h : Remembers past cache) (hMissing : cache.get? pc = none)
    (hStart : block.start = pc) :
    Remembers (.asked (.compile pc (.ok block)) :: past) (cache.insert block) := by
  refine ⟨.cons h.orderly nofun fun pc' answer hEq => ?_, fun other there => ?_⟩
  · cases hEq
    exact h.get?_eq_none_iff.mp hMissing
  by_cases hPc : other = pc
  · subst hPc
    rw [Standing.compiled_iff, ← hStart, NativeCache.get?_insert_self]
    exact ⟨fun hEq => ⟨(Option.some.inj hEq).symm, rfl⟩, fun hEq => congrArg some hEq.1.symm⟩
  · have hNe : block.start ≠ other := fun hEq => hPc (hEq.symm.trans hStart)
    rw [NativeCache.get?, NativeCache.insert, Table.get?_insert_of_ne _ _ hNe,
      Standing.cons_iff_of_asked (LoopEvent.asked_compile_ne hPc _), ← h.get?_iff other there]
    rfl

/-- A block that starts elsewhere is the latest one compiled for `pc`, but nothing stands then. -/
theorem refused {answer : Except Error NativeBlock} {cause : LoopError} (h : Remembers past cache)
    (hMissing : cache.get? pc = none) (hRefused : LoopError.ofCompiled? pc answer = some cause) :
    Remembers (.asked (.compile pc answer) :: past) cache := by
  have hNone := h.get?_eq_none_iff.mp hMissing
  refine ⟨.cons h.orderly nofun fun pc' answer' hEq => ?_, fun other there => ?_⟩
  · cases hEq
    exact hNone
  by_cases hPc : other = pc
  · subst hPc
    have hNot : ¬ Standing NativeBlock.Misses ([] ++ .asked (.compile other answer) :: past) other
        there := Standing.not_of_refused hRefused nofun hNone
    rw [hMissing]
    exact ⟨nofun, fun hStanding => absurd hStanding hNot⟩
  · rw [Standing.cons_iff_of_asked (LoopEvent.asked_compile_ne hPc _), ← h.get?_iff other there]

theorem invalidated (h : Remembers past cache) (start stop : Addr) :
    Remembers (.invalidated start stop :: past) (cache.invalidate start stop).2 := by
  refine ⟨.cons h.orderly nofun nofun, fun pc block => ?_⟩
  rw [Standing.cons_iff (LoopEvent.invalidated_ne start stop pc), ← h.get?_iff pc block,
    NativeCache.get?]
  show (cache.blocks.filter _).get? pc = some block ↔ _
  rw [Table.get?_filter, Option.filter_eq_some_iff, Bool.not_eq_true', ← NativeCache.get?]
  refine and_congr_right fun _ => ⟨fun hMisses start' stop' hEq => ?_, fun hSpared => ?_⟩
  · cases hEq
    exact hMisses
  · exact hSpared start stop rfl

end Remembers
end HostCalls
