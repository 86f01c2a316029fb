import HostCalls.Proofs.Machine.Rollback
import HostCalls.Proofs.Machine.Walk

/-!
# Where a reported breakpoint lies

The loop restores the snapshot before it asks for the program counter, and reports that. So it
reports the start of the block that hit the breakpoint.

* `Ram.Walks.breakpoint` says where in its block the breakpoint lies: it is the last instruction
  that was interpreted, and the program counter is there until the snapshot is restored.
* `reported_word_is_break_iff`: the reported address is that of the breakpoint if and only if the
  breakpoint is the first instruction of its block. `reported_word_is_no_break` is one that is not.
-/

namespace HostCalls

namespace Instruction

theorem eq_breakWord_of_decode {site : Addr} {word : Word} (h : decode site word = .breakpoint) :
    word = breakWord := by
  unfold decode at h
  split at h
  · cases h
  · split at h
    · assumption
    · repeat' split at h
      all_goals cases h

end Instruction

namespace Ram

variable {ram : Ram} {stop addr : Addr} {r r' : Registers} {addrs : List Addr}

/-- The interpreter stops at a breakpoint only where there is one, with the program counter at
it. -/
theorem break_of_stepAt (h : ram.stepAt addr r = (r', some .breakpoint)) :
    ram.fetch addr = Instruction.breakWord ∧ r' = { r with pc := addr } := by
  unfold stepAt at h
  cases hDecode : Instruction.decode addr (ram.fetch addr) with
  | breakpoint =>
      rw [hDecode] at h
      cases h
      exact ⟨Instruction.eq_breakWord_of_decode hDecode, rfl⟩
  | ret =>
      rw [hDecode] at h
      dsimp only at h
      split at h <;> cases h
  | _ =>
      rw [hDecode] at h
      cases h

/-- A walk that hits a breakpoint ends there, and comes to no other one before. -/
theorem Walks.breakpoint (h : ram.Walks stop addr r addrs r' (some .breakpoint)) :
    ∃ n, addrs = addr.consecutive (n + 1) ∧ r'.pc = addr.plusWords n ∧
      ram.fetch (addr.plusWords n) = Instruction.breakWord ∧
      ∀ i < n, ram.fetch (addr.plusWords i) ≠ Instruction.breakWord := by
  generalize hEnd : some BlockEnd.breakpoint = blockEnd at h
  induction h with
  | passed _ => cases hEnd
  | @ends addr _ _ _ _ hStep =>
      cases hEnd
      obtain ⟨hWord, rfl⟩ := break_of_stepAt hStep
      refine ⟨0, rfl, (Addr.plusWords_zero addr).symm, ?_, nofun⟩
      rwa [Addr.plusWords_zero]
  | @goes addr _ _ _ _ _ hBefore hStep _ ih =>
      obtain ⟨n, rfl, hPc, hWord, hOthers⟩ := ih hEnd
      rw [← Addr.plusWords_succ] at hPc hWord
      have hFirst : ram.fetch addr ≠ Instruction.breakWord :=
        fun hBreak => (passesOn_of_step hBefore hStep).2 (.inr hBreak)
      refine ⟨n + 1, rfl, hPc, hWord, ?_⟩
      exact (Addr.forall_plusWords_succ_iff (p := fun a => ram.fetch a ≠ Instruction.breakWord)).mpr
        ⟨hFirst, hOthers⟩

/-- Only a word that is there can be a breakpoint. -/
theorem isAligned_of_fetch_break (h : ram.fetch addr = Instruction.breakWord) :
    isAligned addr = true := by
  unfold fetch at h
  split at h
  · assumption
  · exact absurd h (by decide)

end Ram

namespace Interpreter

variable {x x' : Interpreter} {block : NativeBlock}

/-- A block that hits a breakpoint does so at one of its instructions, the first that is one. -/
theorem break_of_execute (h : x.execute block = some (.breakpoint, x')) :
    ∃ n, x.Interprets block (block.start.consecutive (n + 1)) ∧
      x'.registers.pc = block.start.plusWords n ∧
      x.ram.word (block.start.plusWords n) = Instruction.breakWord ∧
      ∀ i < n, x.ram.word (block.start.plusWords i) ≠ Instruction.breakWord := by
  obtain ⟨addrs, r, walkEnd, hWalks, hEnd, rfl⟩ := execute_eq_some_iff.mp h
  cases walkEnd with
  | none =>
      rw [Option.getD_none] at hEnd
      split at hEnd <;> cases hEnd
  | some walkEnd =>
      obtain rfl : BlockEnd.breakpoint = walkEnd := hEnd
      obtain ⟨n, rfl, hPc, hWord, hOthers⟩ := hWalks.breakpoint
      have hAligned : ∀ i, Ram.isAligned (block.start.plusWords i) = true := by
        intro i
        rw [Ram.isAligned_plusWords, ← Ram.isAligned_plusWords block.start n]
        exact Ram.isAligned_of_fetch_break hWord
      simp only [Ram.fetch_of_isAligned (hAligned _)] at hWord hOthers
      exact ⟨n, ⟨r, _, hWalks⟩, hPc, hWord, hOthers⟩

/-- A run that returns at a breakpoint has come to a block whose instruction `n` is the first
breakpoint, and reports the address at which this block starts. So there is a breakpoint at the
reported address if and only if it is the first instruction of its block. -/
theorem reported_word_is_break_iff {past : List LoopEvent} {first : RunLoop}
    (hSession : Session past first) {e : Interpreter} {fuel : Nat}
    {ended : Logged (Except LoopError LoopEnd × RunLoop × Interpreter)} {pc : Addr}
    (hRun : first.run fuel e = some ended) (hEnd : ended.value.1 = .ok (.breakpoint pc)) :
    ∃ loop x block handed x' n, first.Reaches e .dispatchUnchecked loop x ∧
      loop.HitsBreak x block handed x' ∧ block.start = pc ∧
      handed.Interprets block (pc.consecutive (n + 1)) ∧ x'.registers.pc = pc.plusWords n ∧
      ended.value.2.2.ram.word (pc.plusWords n) = Instruction.breakWord ∧
      (∀ i < n, ended.value.2.2.ram.word (pc.plusWords i) ≠ Instruction.breakWord) ∧
      (ended.value.2.2.ram.word pc = Instruction.breakWord ↔ n = 0) := by
  obtain ⟨loop, x, block, handed, x', hReaches, hBreak, hRestored, hPc⟩ :=
    RunLoop.hitsBreak_of_run hRun hEnd
  have hRolledBack := rolledBack_of_hitsBreak hSession hReaches hBreak
  rw [← hRestored] at hRolledBack hPc
  obtain ⟨hHands, hExecute⟩ := hBreak
  obtain ⟨n, hInterprets, hHit, hWord, hOthers⟩ := break_of_execute hExecute
  -- memory is as it was when the block was about to be executed
  have hRam : ended.value.2.2.ram = handed.ram :=
    congrArg (fun machine => machine.guest.memory) hRolledBack.machine_eq
  have hStart : block.start = pc := hRolledBack.pc_eq.symm.trans hPc.symm
  rw [hStart] at hInterprets hHit hWord hOthers
  refine ⟨loop, x, block, handed, x', n, hReaches, ⟨hHands, hExecute⟩, hStart, hInterprets, hHit,
    hRam ▸ hWord, hRam ▸ hOthers, ?_⟩
  rw [hRam]
  constructor
  · intro hFirst
    rw [← Addr.plusWords_zero pc] at hFirst
    exact Nat.eq_zero_of_not_pos fun hPos => hOthers 0 hPos hFirst
  · rintro rfl
    rwa [Addr.plusWords_zero] at hWord

theorem exists_run_beforeBreak :
    ∃ fuel ended, RunLoop.bare.run fuel beforeBreak = some ended ∧
      ended.value.1 = .ok (.breakpoint 0x08804010) ∧
      ended.value.2.2 = Executor.restoreSnapshot atBreak := by
  obtain ⟨loop, hReaches, hBreak⟩ := reaches_betweenBlocks
  exact hReaches.run_of_hitsBreak hBreak

/-- The breakpoint is the second instruction of its block, and the program counter has come to it
until the block is taken back. -/
theorem break_at_second_instruction :
    ∃ fuel ended, RunLoop.bare.run fuel beforeBreak = some ended ∧
      ended.value.1 = .ok (.breakpoint 0x08804010) ∧
      ∃ loop x block handed x', RunLoop.bare.Reaches beforeBreak .dispatchUnchecked loop x ∧
        loop.HitsBreak x block handed x' ∧
        handed.Interprets block [0x08804010, 0x08804014] ∧ x'.registers.pc = 0x08804014 := by
  have hSession : Session [] RunLoop.bare := .start _
  obtain ⟨fuel, ended, hRun, hEnd, hRestored⟩ := exists_run_beforeBreak
  obtain ⟨loop, x, block, handed, x', n, hReaches, hBreak, -, hInterprets, hPc, -, hOthers,
    hFirst⟩ := reported_word_is_break_iff hSession hRun hEnd
  rw [hRestored] at hOthers hFirst
  -- the first word is not the breakpoint, and the second one is
  have hAbove : n ≠ 0 := fun hZero => absurd (hFirst.mpr hZero) (by decide)
  have hBelow : ¬ 1 < n := fun hLt => hOthers 1 hLt (by decide)
  obtain rfl : n = 1 := by omega
  exact ⟨fuel, ended, hRun, hEnd, loop, x, block, handed, x', hReaches, hBreak, hInterprets, hPc⟩

/-- Yet the start of the block is reported, where there is none. -/
theorem reported_word_is_no_break :
    ∃ fuel ended, RunLoop.bare.run fuel beforeBreak = some ended ∧
      ended.value.1 = .ok (.breakpoint 0x08804010) ∧
      ended.value.2.2.ram.word 0x08804010 ≠ Instruction.breakWord := by
  obtain ⟨fuel, ended, hRun, hEnd, hRestored⟩ := exists_run_beforeBreak
  refine ⟨fuel, ended, hRun, hEnd, ?_⟩
  rw [hRestored]
  decide

end Interpreter
end HostCalls
