import HostCalls.Proofs.Loop.History
import HostCalls.Proofs.Machine.CoreState

/-!
# A breakpoint takes its block back

The interpreter takes a snapshot whenever it begins a block, and the loop goes back to it when the
block has hit a breakpoint. No other block is begun in between, so it is the snapshot of this one,
whatever blocks, system calls and runs there were before.

* `hitsBreak_of_run` and `Reaches.run_of_hitsBreak`: on any executor, a run returns at a breakpoint
  if and only if it comes to a visit that hits one, and restores what this visit left.
* `restoreSnapshot_of_execute`: the restored machine differs from the one before the block in the
  program counter at most, which is at the start of the block then.
* `start_eq_of_hands`: a block is handed over only where it starts, so that there is no difference.
  Hence `breakpoint_rolls_back`.
-/

namespace HostCalls

namespace RunLoop

variable {E : Type} [Executor E] {first loop loop' : RunLoop} {e x x' handed : E}
  {entry : LoopEntry} {block : NativeBlock} {pc : Addr} {past : List LoopEvent}
  {taken : Logged (Transition × RunLoop × E)}

/-- At a visit the loop hands over a block that hits a breakpoint, which leaves `x'` behind. -/
def HitsBreak (loop : RunLoop) (x : E) (block : NativeBlock) (handed x' : E) : Prop :=
  loop.Hands x block handed ∧ Executor.execute block handed = some (.breakpoint, x')

/-- The loop goes to the breakpoint entry only from a visit that hits one. -/
theorem hitsBreak_of_goto (hStep : loop.step x entry = some taken)
    (hTaken : taken.value = (.goto .breakpoint, loop', x')) :
    entry = .dispatchUnchecked ∧ ∃ block handed, loop.HitsBreak x block handed x' := by
  have hTakes := takes_of_step hStep
  rw [hTaken] at hTakes
  cases hTakes with
  | @executed block _ handed _ blockEnd _ hObtains hExecute _ hNext =>
      cases blockEnd with
      | breakpoint => exact ⟨rfl, block, handed, hands_iff.mpr ⟨_, hObtains⟩, hExecute⟩
      | syscall op => cases hNext
      | dispatch => cases hNext
      | chain => cases hNext
      | reschedule => cases hNext
      | fpFault => cases hNext

/-- The loop returns at a breakpoint only from the breakpoint entry, with the state restored. -/
theorem restores_of_leave (hStep : loop.step x entry = some taken)
    (hTaken : taken.value = (.leave (.ok (.breakpoint pc)), loop', x')) :
    entry = .breakpoint ∧ x' = Executor.restoreSnapshot x ∧ pc = Executor.pc x' := by
  have hTakes := takes_of_step hStep
  rw [hTaken] at hTakes
  cases hTakes with
  | breakpoint => exact ⟨rfl, rfl, rfl⟩

/-- A run that returns at a breakpoint has come to a visit that hit it. -/
theorem hitsBreak_of_run {fuel : Nat} {ended : Logged (Except LoopError LoopEnd × RunLoop × E)}
    (hRun : first.run fuel e = some ended) (hEnd : ended.value.1 = .ok (.breakpoint pc)) :
    ∃ loop x block handed x', first.Reaches e .dispatchUnchecked loop x ∧
      loop.HitsBreak x block handed x' ∧ ended.value.2.2 = Executor.restoreSnapshot x' ∧
      pc = Executor.pc (Executor.restoreSnapshot x') := by
  obtain ⟨last, loop', x', taken, hReaches, hStep, hTaken⟩ := exists_leave_of_run hRun
  rw [hEnd] at hTaken
  obtain ⟨rfl, hRestored, hPc⟩ := restores_of_leave hStep hTaken
  cases hReaches with
  | goto hVisit hGoto hValue =>
      obtain ⟨rfl, block, handed, hBreak⟩ := hitsBreak_of_goto hGoto hValue
      exact ⟨_, _, block, handed, x', hVisit, hBreak, hRestored, hRestored ▸ hPc⟩

/-- A run that comes to a visit that hits a breakpoint returns at it. -/
theorem Reaches.run_of_hitsBreak (hReaches : first.Reaches e .dispatchUnchecked loop x)
    (hBreak : loop.HitsBreak x block handed x') :
    ∃ fuel ended, first.run fuel e = some ended ∧
      ended.value.1 = .ok (.breakpoint (Executor.pc (Executor.restoreSnapshot x'))) ∧
      ended.value.2.2 = Executor.restoreSnapshot x' := by
  obtain ⟨hHands, hExecute⟩ := hBreak
  obtain ⟨loop', hObtains⟩ := hands_iff.mp hHands
  have hStep := step_of_obtains_ok hObtains
  rw [hExecute] at hStep
  have hEntry := hReaches.goto hStep rfl
  obtain ⟨fuel, ended, hRun, hValue⟩ := hEntry.run_of_leave rfl rfl
  refine ⟨fuel, ended, hRun, ?_⟩
  rw [hValue]
  exact ⟨rfl, rfl⟩

/-- On whichever executors a loop was before, it hands a block over only where the block starts. -/
theorem start_eq_of_hands (hSession : Session past first) (hReaches : first.Reaches e entry loop x)
    (hHands : loop.Hands x block handed) : block.start = Executor.pc x := by
  obtain ⟨loop', hObtains⟩ := hands_iff.mp hHands
  cases hObtains with
  | hit hFound =>
      obtain ⟨t, hTraced, rfl⟩ := Traced.exists_reaches hReaches
      have hRemembers := hSession.remembers.reaches hTraced
      exact ((hRemembers.get?_iff _ block).mp hFound).start_eq
  | compiled _ _ hStart => exact hStart

end RunLoop

namespace Interpreter

variable {x x' : Interpreter} {block : NativeBlock} {blockEnd : BlockEnd}

/-- After a block was executed, the snapshot leads back to the start of this block. -/
theorem restoreSnapshot_of_execute (h : x.execute block = some (blockEnd, x')) :
    x'.restoreSnapshot =
      { x.withRegisters { x.registers with pc := block.start } with
        downcount := x.downcount - 1
        snapshot := none } := by
  unfold execute at h
  dsimp only at h
  split at h
  · cases h
  · cases h
    rfl
  · cases h
    rfl

/-- Of a block that started at `pc`, nothing is left but that it was one block of the slice. The
snapshot is used up. -/
structure RolledBack (before : Interpreter) (pc : Addr) (after : Interpreter) : Prop where
  machine_eq : after.machine = before.machine
  core_eq : after.core = before.core
  pc_eq : after.registers.pc = pc
  downcount_eq : after.downcount = before.downcount - 1
  snapshot_eq : after.snapshot = none

theorem rolledBack_of_execute (hStart : block.start = x.registers.pc)
    (h : x.execute block = some (blockEnd, x')) : RolledBack x block.start x'.restoreSnapshot := by
  rw [restoreSnapshot_of_execute h, hStart]
  exact ⟨rfl, rfl, rfl, rfl, rfl⟩

theorem rolledBack_of_hitsBreak {past : List LoopEvent} {first loop : RunLoop}
    {e handed : Interpreter} (hSession : Session past first)
    (hReaches : first.Reaches e .dispatchUnchecked loop x)
    (hBreak : loop.HitsBreak x block handed x') :
    RolledBack handed block.start (Executor.restoreSnapshot x') := by
  obtain ⟨hHands, hExecute⟩ := hBreak
  have hStart := RunLoop.start_eq_of_hands hSession hReaches hHands
  obtain ⟨loop', hObtains⟩ := RunLoop.hands_iff.mp hHands
  cases eq_of_obtains hObtains
  exact rolledBack_of_execute hStart hExecute

/-- A run that returns at a breakpoint has come to a block that hit it, and leaves everything but
the slice as it was when this block was about to be executed. It returns so whenever it comes to
such a block. -/
theorem breakpoint_rolls_back {past : List LoopEvent} {first : RunLoop}
    (hSession : Session past first) (e : Interpreter) :
    (∀ fuel ended pc, first.run fuel e = some ended → ended.value.1 = .ok (.breakpoint pc) →
      ∃ loop x block handed x', first.Reaches e .dispatchUnchecked loop x ∧
        loop.HitsBreak x block handed x' ∧ block.start = pc ∧
        RolledBack handed pc ended.value.2.2) ∧
      ∀ loop x block handed x', first.Reaches e .dispatchUnchecked loop x →
        loop.HitsBreak x block handed x' →
        ∃ fuel ended, first.run fuel e = some ended ∧
          ended.value.1 = .ok (.breakpoint block.start) ∧
          RolledBack handed block.start ended.value.2.2 := by
  constructor
  · intro fuel ended pc hRun hEnd
    obtain ⟨loop, x, block, handed, x', hReaches, hBreak, hRestored, rfl⟩ :=
      RunLoop.hitsBreak_of_run hRun hEnd
    have hRolledBack := rolledBack_of_hitsBreak hSession hReaches hBreak
    have hStart : block.start = Executor.pc (Executor.restoreSnapshot x') :=
      hRolledBack.pc_eq.symm
    refine ⟨loop, x, block, handed, x', hReaches, hBreak, hStart, ?_⟩
    rw [hRestored, ← hStart]
    exact hRolledBack
  · intro loop x block handed x' hReaches hBreak
    obtain ⟨fuel, ended, hRun, hEnd, hRestored⟩ := hReaches.run_of_hitsBreak hBreak
    have hRolledBack := rolledBack_of_hitsBreak hSession hReaches hBreak
    refine ⟨fuel, ended, hRun, ?_, ?_⟩
    · rw [hEnd]
      exact congrArg (fun pc => Except.ok (LoopEnd.breakpoint pc)) hRolledBack.pc_eq
    · rw [hRestored]
      exact hRolledBack

/-- An interpreter in front of two blocks. The first one sets a register and jumps to the second,
which adds to the register and breaks. -/
def beforeBreak : Interpreter :=
  (start .zero (.fresh .standard)).withRam
    ((Ram.zero.load 0x08804000 [0x24020005, 0x0A201004, 0]).load 0x08804010
      [0x24420001, Instruction.breakWord])

/-- The interpreter between the blocks. -/
def betweenBlocks : Interpreter :=
  { beforeBreak.withRegisters { Registers.zero.set .v0 5 with pc := 0x08804010 } with
    downcount := 63
    snapshot := some beforeBreak.registers }

/-- The block with the breakpoint. -/
def breakingBlock : NativeBlock :=
  ⟨0x08804010, 8, Word.bytes 0x24420001 ++ Word.bytes Instruction.breakWord⟩

/-- What it leaves behind. -/
def atBreak : Interpreter :=
  { betweenBlocks.withRegisters { Registers.zero.set .v0 6 with pc := 0x08804014 } with
    downcount := 62
    snapshot := some betweenBlocks.registers }

theorem reaches_betweenBlocks :
    ∃ loop, RunLoop.bare.Reaches beforeBreak .dispatchUnchecked loop betweenBlocks ∧
      loop.HitsBreak betweenBlocks breakingBlock betweenBlocks atBreak := by
  have hEnter : RunLoop.bare.Reaches beforeBreak .enter RunLoop.bare _ := .enter
  have hOuter := hEnter.goto rfl rfl
  have hCheck := hOuter.goto rfl rfl
  have hDispatch := hCheck.goto rfl rfl
  have hVisit := hDispatch.goto rfl rfl
  have hDispatched := hVisit.goto rfl rfl
  have hSecond := hDispatched.goto rfl rfl
  exact ⟨_, hSecond, ⟨_, rfl, rfl⟩, rfl⟩

/-- The second block is taken back, and the first one is not. -/
theorem break_takes_back_its_block_alone :
    ∃ fuel ended, RunLoop.bare.run fuel beforeBreak = some ended ∧
      ended.value.1 = .ok (.breakpoint 0x08804010) ∧ atBreak.registers.get .v0 = 6 ∧
      ended.value.2.2.registers.get .v0 = 5 ∧ ended.value.2.2.registers.pc = 0x08804010 := by
  have hSession : Session [] RunLoop.bare := .start _
  obtain ⟨loop, hReaches, hBreak⟩ := reaches_betweenBlocks
  obtain ⟨fuel, ended, hRun, hEnd, hRolledBack⟩ :=
    (breakpoint_rolls_back hSession beforeBreak).2 _ _ _ _ _ hReaches hBreak
  have hRegisters : ended.value.2.2.registers = betweenBlocks.registers :=
    congrArg (fun machine => machine.guest.cpu) hRolledBack.machine_eq
  refine ⟨fuel, ended, hRun, hEnd, rfl, ?_, hRolledBack.pc_eq⟩
  rw [hRegisters]
  rfl

end Interpreter
end HostCalls
