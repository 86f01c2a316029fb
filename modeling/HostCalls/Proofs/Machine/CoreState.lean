import HostCalls.Machine.Interpreter
import HostCalls.Proofs.Loop.Reach

/-!
# The run state when a block is executed

The loop asks for the run state only at some of its entries. The others rely on what was asked
before, and on the executor not to chain past the end of guest code.

* `Guarded` is what is known at each entry that a run of the interpreter reaches, `Guarded.step`
  carries it over one entry and `guarded_of_reaches` to all of them,
* `executes_while_running`: no block is executed once the debugger has left the running state, and
  the core as a whole is running too, except right after a block that fell through to the end of
  guest code. Such a block chains nevertheless (`chains_past_exit`).
-/

namespace HostCalls

namespace Ram

/-- An instruction that hands control back does so in one of three ways. -/
theorem stepAt_cases {ram : Ram} {addr : Addr} {r : Registers} {blockEnd : BlockEnd}
    (h : (ram.stepAt addr r).2 = some blockEnd) :
    blockEnd = .dispatch ∨ blockEnd = .breakpoint ∨ ∃ op, blockEnd = .syscall op := by
  unfold stepAt at h
  split at h
  · dsimp only at h
    split at h
    · exact Or.inr (Or.inr ⟨_, (Option.some.inj h).symm⟩)
    · exact Or.inl (Option.some.inj h).symm
  · exact Or.inr (Or.inl (Option.some.inj h).symm)
  · exact Or.inl (Option.some.inj h).symm
  · exact Or.inl (Option.some.inj h).symm
  · cases h
  · cases h

theorem runBlock_cases {ram : Ram} {stop : Addr} {fuel : Nat} {addr : Addr} {r r' : Registers}
    {blockEnd : BlockEnd} (hRun : ram.runBlock stop fuel addr r = some (r', some blockEnd)) :
    blockEnd = .dispatch ∨ blockEnd = .breakpoint ∨ ∃ op, blockEnd = .syscall op := by
  induction fuel generalizing addr r with
  | zero => cases hRun
  | succ fuel ih =>
      rw [runBlock] at hRun
      split at hRun
      · split at hRun
        · rename_i hStep
          cases hRun
          exact stepAt_cases (congrArg Prod.snd hStep)
        · exact ih hRun
      · cases hRun

/-- No instruction chains: only a block that falls through does. -/
theorem runBlock_ne_chain {ram : Ram} {stop : Addr} {fuel : Nat} {addr : Addr} {r r' : Registers} :
    ram.runBlock stop fuel addr r ≠ some (r', some .chain) := by
  intro hRun
  rcases runBlock_cases hRun with hEnd | hEnd | ⟨op, hEnd⟩ <;> cases hEnd

theorem runBlock_ne_fpFault {ram : Ram} {stop : Addr} {fuel : Nat} {addr : Addr}
    {r r' : Registers} : ram.runBlock stop fuel addr r ≠ some (r', some .fpFault) := by
  intro hRun
  rcases runBlock_cases hRun with hEnd | hEnd | ⟨op, hEnd⟩ <;> cases hEnd

end Ram

namespace Interpreter

variable {first loop loop' : RunLoop} {e x x' : Interpreter} {block : NativeBlock}
  {blockEnd : BlockEnd} {entry next : LoopEntry}

/-- Executing a block leaves the debugger alone, and a block that chains has fallen through. -/
theorem execute_cases (h : x.execute block = some (blockEnd, x')) :
    x'.machine.debugger = x.machine.debugger ∧
      (blockEnd = .chain → x'.registers.pc = block.stop) := by
  unfold execute at h
  dsimp only at h
  split at h
  · cases h
  · rename_i r blockEnd' hRun
    cases h
    refine ⟨rfl, ?_⟩
    rintro rfl
    exact absurd hRun Ram.runBlock_ne_chain
  · cases h
    exact ⟨rfl, fun _ => rfl⟩

theorem eq_of_obtains {result : Except LoopError NativeBlock}
    (h : loop.Obtains x result loop' x') : x' = x := by
  cases h with
  | hit _ => rfl
  | compiled _ hCompile _ => exact (congrArg Prod.snd hCompile).symm
  | refused _ hCompile _ => exact (congrArg Prod.snd hCompile).symm

theorem runState_eq_running_iff : x.runState = .running ↔
    x.machine.debugger.coreState = .running ∧ x.registers.pc ≠ Machine.exitAddr := by
  unfold runState
  split
  · rename_i hDebugger
    exact ⟨fun h => absurd h hDebugger, fun h => absurd h.1 hDebugger⟩
  · rename_i hDebugger
    split
    · rename_i hExit
      exact ⟨nofun, fun h => absurd hExit h.2⟩
    · rename_i hExit
      exact ⟨fun _ => ⟨Decidable.not_not.mp hDebugger, hExit⟩, fun _ => rfl⟩

theorem pc_ne_exit_of_not_expired (h : x.sliceExpired = false) :
    x.registers.pc ≠ Machine.exitAddr := by
  unfold sliceExpired at h
  rw [Bool.or_eq_false_iff] at h
  exact beq_eq_false_iff_ne.mp h.2

/-- The block before fell through to the end of guest code, and chained. -/
def FellToExit (first : RunLoop) (e x : Interpreter) : Prop :=
  ∃ loop y block, first.Reaches e .dispatchUnchecked loop y ∧ loop.Hands y block y ∧
    y.execute block = some (.chain, x) ∧ block.stop = Machine.exitAddr

/-- What is known when the run of `first` on `e` reaches an entry. -/
def Guarded (first : RunLoop) (e : Interpreter) : LoopEntry → Interpreter → Prop
  | .dispatch, x => x.machine.debugger.coreState = .running
  | .dispatchUnchecked, x => x.machine.debugger.coreState = .running ∧
      (x.registers.pc = Machine.exitAddr → FellToExit first e x)
  | _, _ => True

theorem Guarded.afterBlock (hReaches : first.Reaches e .dispatchUnchecked loop x)
    (hGuarded : Guarded first e .dispatchUnchecked x) (hHands : loop.Hands x block x)
    (hExecute : x.execute block = some (blockEnd, x')) : Guarded first e blockEnd.next x' := by
  obtain ⟨hDebugger, hPc⟩ := execute_cases hExecute
  have hRunning : x'.machine.debugger.coreState = .running := by
    rw [hDebugger]
    exact hGuarded.1
  cases blockEnd with
  | dispatch => exact hRunning
  | chain =>
      -- nothing was asked since the block, so only its own end tells where guest code goes on
      refine ⟨hRunning, fun hExit => ⟨loop, x, block, hReaches, hHands, hExecute, ?_⟩⟩
      rw [← hPc rfl, hExit]
  | syscall op => trivial
  | reschedule => trivial
  | fpFault => trivial
  | breakpoint => trivial

theorem Guarded.step {taken : Logged (Transition × RunLoop × Interpreter)}
    (hReaches : first.Reaches e entry loop x) (hGuarded : Guarded first e entry x)
    (hStep : loop.step x entry = some taken) (hTaken : taken.value = (.goto next, loop', x')) :
    Guarded first e next x' := by
  cases entry with
  | enter =>
      cases hStep
      cases hTaken
      trivial
  | outer =>
      cases hStep
      cases hTaken
      trivial
  | checkState =>
      obtain ⟨taken', hTaken', hValue⟩ := RunLoop.step_checkState loop x
      rw [hTaken'] at hStep
      cases hStep
      rw [hTaken] at hValue
      split at hValue
      · rename_i hState
        cases hValue
        exact (runState_eq_running_iff.mp (RunState.isRunning_iff.mp hState)).1
      · cases hValue
  | dispatch =>
      cases hStep
      cases hTaken
      show Guarded first e (if x.sliceExpired then .outer else .dispatchUnchecked) x
      split
      · trivial
      · rename_i hExpired
        have hPc := pc_ne_exit_of_not_expired (Bool.not_eq_true _ ▸ hExpired)
        exact ⟨hGuarded, fun hExit => absurd hExit hPc⟩
  | dispatchUnchecked =>
      rcases RunLoop.unchecked_cases hStep with
        ⟨cause, loop₁, x₁, -, rfl⟩ | ⟨block, loop₁, x₁, blockEnd, x₂, hObtains, hExecute, rfl⟩
      · cases hTaken
      · cases eq_of_obtains hObtains
        have hHands := RunLoop.hands_iff.mpr ⟨loop₁, hObtains⟩
        rcases RunLoop.afterBlock_cases _ x₂ blockEnd with ⟨op, -, hValue⟩ | hValue
        · cases hTaken.symm.trans hValue
          trivial
        · cases hTaken.symm.trans hValue
          exact hGuarded.afterBlock hReaches hHands hExecute
  | fpFault =>
      cases hStep
      cases hTaken
  | breakpoint =>
      cases hStep
      cases hTaken

theorem guarded_of_reaches (h : first.Reaches e entry loop x) : Guarded first e entry x := by
  induction h with
  | enter => trivial
  | goto hReached hStep hTaken ih => exact ih.step hReached hStep hTaken

/-- When a run executes a block, the debugger is in the running state, and so is the core as a whole
unless the block before fell through to the end of guest code. -/
theorem executes_while_running (hReaches : first.Reaches e .dispatchUnchecked loop x)
    (hHands : loop.Hands x block x') :
    (∃ loop', loop.runBlock x = (x'.execute block).map fun (blockEnd, y) =>
        (.ok blockEnd, loop', y)) ∧
      x'.machine.debugger.coreState = .running ∧
      (x'.runState = .running ↔ ¬ FellToExit first e x') := by
  obtain ⟨loop', hObtains⟩ := RunLoop.hands_iff.mp hHands
  have hRun := RunLoop.runBlock_of_obtains_ok hObtains
  cases eq_of_obtains hObtains
  obtain ⟨hRunning, hExit⟩ := guarded_of_reaches hReaches
  refine ⟨⟨_, hRun⟩, hRunning, ?_⟩
  rw [runState_eq_running_iff]
  constructor
  · rintro ⟨-, hPc⟩ ⟨loop₀, y, block₀, -, -, hExecute, hStop⟩
    exact hPc (((execute_cases hExecute).2 rfl).trans hStop)
  · exact fun hFell => ⟨hRunning, fun hPc => hFell (hExit hPc)⟩

/-- A block that falls through to the end of guest code and chains makes the loop go on there. -/
theorem FellToExit.exists_visit (h : FellToExit first e x) :
    ∃ loop, first.Reaches e .dispatchUnchecked loop x ∧ x.runState = .powerDown := by
  obtain ⟨loop, y, block, hReaches, hHands, hExecute, hStop⟩ := h
  obtain ⟨loop', hObtains⟩ := RunLoop.hands_iff.mp hHands
  have hStep := RunLoop.step_of_obtains_ok hObtains
  rw [show Executor.execute block y = some (.chain, x) from hExecute] at hStep
  have hVisit := hReaches.goto hStep rfl
  have hRunning := (guarded_of_reaches hVisit).1
  refine ⟨_, hVisit, ?_⟩
  unfold runState
  rw [if_neg (not_not_intro hRunning), if_pos (((execute_cases hExecute).2 rfl).trans hStop)]

/-- An interpreter in front of sixteen instructions without effect, the last ones before the end of
guest code. -/
def beforeExit : Interpreter :=
  (start .zero (.fresh .standard)).withRegisters { Registers.zero with pc := 0x087FFFC0 }

/-- The block of these instructions. -/
def lastBlock : NativeBlock :=
  ⟨0x087FFFC0, 64, List.replicate 64 0⟩

/-- The interpreter after it executed the block. -/
def atExit : Interpreter :=
  { beforeExit.withRegisters { Registers.zero with pc := Machine.exitAddr } with
    downcount := 63
    snapshot := some beforeExit.registers }

theorem reaches_beforeExit :
    RunLoop.bare.Reaches beforeExit .dispatchUnchecked { RunLoop.bare with outerPasses := 1 }
      beforeExit := by
  have hEnter : RunLoop.bare.Reaches beforeExit .enter RunLoop.bare _ := .enter
  have hOuter := hEnter.goto rfl rfl
  have hCheck := hOuter.goto rfl rfl
  have hDispatch := hCheck.goto rfl rfl
  exact hDispatch.goto rfl rfl

theorem hands_lastBlock :
    { RunLoop.bare with outerPasses := 1 }.Hands beforeExit lastBlock beforeExit :=
  ⟨_, rfl, rfl⟩

/-- The core runs when the first of two blocks is executed. -/
theorem first_block_executes_while_running :
    RunLoop.bare.Reaches beforeExit .dispatchUnchecked { RunLoop.bare with outerPasses := 1 }
        beforeExit ∧
      { RunLoop.bare with outerPasses := 1 }.Hands beforeExit lastBlock beforeExit ∧
      ¬ FellToExit RunLoop.bare beforeExit beforeExit :=
  ⟨reaches_beforeExit, hands_lastBlock,
    (executes_while_running reaches_beforeExit hands_lastBlock).2.2.mp rfl⟩

/-- It has powered down when the second one is, at the end of guest code. -/
theorem chains_past_exit :
    ∃ loop block, RunLoop.bare.Reaches beforeExit .dispatchUnchecked loop atExit ∧
      loop.Hands atExit block atExit ∧ atExit.runState = .powerDown := by
  have hVisit := reaches_beforeExit.goto rfl rfl
  exact ⟨_, _, hVisit, ⟨_, rfl, rfl⟩, rfl⟩

end Interpreter
end HostCalls
