import HostCalls.Machine.Interpreter
import HostCalls.Proofs.Instruction
import HostCalls.Proofs.Linker.Mirror
import HostCalls.Proofs.Linker.Tracked

/-!
# Running a call site

The interpreter executes the words of a block as they are in memory when the block runs, so a block
that starts at a tracked site does what the site holds, also if it was compiled before the site was
written.

* `stepAt_of_held`: the first instruction of a site hands control back as the site prescribes,
* `runBlock_of_end`: no other instruction of the block runs,
* `execute_tracked_site`: so the whole block does what the site holds, and nothing else.
-/

namespace HostCalls

/-- Whether control that reaches a site leaves it for `pc`, and the block ends as what the site
holds prescribes. -/
def CallSite.LeavesBy (site : Addr) (r : Registers) (blockEnd : BlockEnd) (pc : Addr) :
    CallSite → Prop
  | stub op => blockEnd = .syscall op ∧ pc = r.get .ra
  | patchedOut => blockEnd = .dispatch ∧ pc = r.get .ra
  | directJump target =>
      blockEnd = .dispatch ∧
        Instruction.jumpTarget? site (Instruction.jumpWord target) = some pc

namespace NativeBlock

/-- A block that is not empty and starts at a multiple of four has an address to itself, even if it
is cut off at the last one. -/
theorem start_lt_stop {block : NativeBlock} (hAligned : Ram.isAligned block.start = true)
    (hSize : block.size ≠ 0) : block.start < block.stop := by
  have hStart : block.start.toNat < 2 ^ 32 := block.start.toNat_lt
  have hMultiple : block.start.toNat % 4 = 0 := by
    unfold Ram.isAligned at hAligned
    exact beq_iff_eq.mp hAligned
  have hPositive : block.size.toNat ≠ 0 := by
    intro hZero
    exact hSize (UInt32.toNat_inj.mp hZero)
  rw [UInt32.lt_iff_toNat_lt]
  unfold stop
  rw [Addr.toNat_saturatingAdd]
  unfold addrCount
  omega

end NativeBlock

namespace Ram

variable {ram : Ram} {site : Addr}

theorem fetch_of_isAligned (hAligned : isAligned site = true) : ram.fetch site = ram.word site := by
  unfold fetch
  rw [if_pos hAligned]

theorem isAligned_second (hAligned : isAligned site = true) :
    isAligned (site + Instruction.size) = true := by
  unfold isAligned at hAligned ⊢
  rw [beq_iff_eq] at hAligned ⊢
  rw [UInt32.toNat_add, show Instruction.size.toNat = 4 from rfl]
  omega

theorem stepAt_of_return (hAligned : isAligned site = true)
    (hFirst : ram.word site = Instruction.returnWord) (r : Registers) :
    ram.stepAt site r =
      ({ r with pc := r.get .ra },
        some (if Instruction.isSyscall (ram.word (site + Instruction.size)) then
          .syscall ⟨ram.word (site + Instruction.size)⟩ else .dispatch)) := by
  unfold stepAt
  rw [fetch_of_isAligned hAligned, hFirst, Instruction.decode_returnWord]
  simp only [fetch_of_isAligned (isAligned_second hAligned)]

theorem stepAt_of_jump {target : Addr} (hAligned : isAligned site = true)
    (hFirst : ram.word site = Instruction.jumpWord target) (r : Registers) :
    ram.stepAt site r =
      ({ r with pc := Instruction.segmentTarget site (Instruction.jumpWord target) },
        some .dispatch) := by
  unfold stepAt
  rw [fetch_of_isAligned hAligned, hFirst, Instruction.decode_jumpWord]

/-- The first instruction of a site hands control back as the site prescribes. -/
theorem stepAt_of_held {held : CallSite} (hAligned : isAligned site = true)
    (hHeld : held.Held ram site)
    (hEncoded : ∀ op, held = .stub op → ∃ module func, op = .encode module func) (r : Registers) :
    ∃ blockEnd pc, ram.stepAt site r = ({ r with pc := pc }, some blockEnd) ∧
      held.LeavesBy site r blockEnd pc := by
  cases held with
  | stub op =>
      obtain ⟨hFirst, hSecond⟩ := hHeld
      obtain ⟨module, func, hOp⟩ := hEncoded op rfl
      rw [word_eq] at hFirst hSecond
      have hSyscall : Instruction.isSyscall op.raw = true := by
        rw [hOp]
        exact Instruction.isSyscall_encode module func
      refine ⟨.syscall op, r.get .ra, ?_, rfl, rfl⟩
      rw [stepAt_of_return hAligned hFirst, hSecond, if_pos hSyscall]
  | patchedOut =>
      obtain ⟨hFirst, hSecond⟩ := hHeld
      rw [word_eq] at hFirst hSecond
      refine ⟨.dispatch, r.get .ra, ?_, rfl, rfl⟩
      rw [stepAt_of_return hAligned hFirst, hSecond]
      rfl
  | directJump target =>
      refine ⟨.dispatch, _, stepAt_of_jump hAligned hHeld.1 r, rfl, ?_⟩
      exact Instruction.jumpTarget?_jumpWord site target

/-- An instruction that hands control back ends the run of its block. -/
theorem runBlock_of_end {stop : Addr} {fuel : Nat} {r r' : Registers} {blockEnd : BlockEnd}
    (hStop : site < stop) (hStep : ram.stepAt site r = (r', some blockEnd)) :
    ram.runBlock stop (fuel + 1) site r = some (r', some blockEnd) := by
  rw [runBlock, if_pos hStop, hStep]

end Ram

namespace Interpreter

/-- However the tracked sites came about, a block that starts at one does what the site holds as
long as memory agrees with it, and changes neither registers nor memory. -/
theorem execute_tracked_site {G M : Type} [Memory M] (pruneResolved : Bool) (m : M)
    (requests : List (LinkerRequest G)) (x : Interpreter) (block : NativeBlock) {held : CallSite}
    (hMirrors : (LinkerRequest.run (Linker.empty pruneResolved) m requests).1.Mirrors x.ram)
    (hTracked : (LinkerRequest.run (Linker.empty pruneResolved) m requests).1.callSite?
      block.start = some held)
    (hAligned : Ram.isAligned block.start = true) (hSize : block.size ≠ 0) :
    ∃ blockEnd x', x.execute block = some (blockEnd, x') ∧
      held.LeavesBy block.start x.registers blockEnd x'.registers.pc ∧
      x'.registers.gpr = x.registers.gpr ∧ x'.ram = x.ram := by
  have hEmpty : (Linker.empty pruneResolved).StubsEncoded := nofun
  have hStubs := hEmpty.run m requests
  obtain ⟨blockEnd, pc, hStep, hLeaves⟩ := Ram.stepAt_of_held hAligned
    (hMirrors block.start held hTracked)
    (fun op hHeld => hStubs block.start op (hHeld ▸ hTracked)) x.registers
  -- beginning a block counts it and takes a snapshot, and leaves the machine alone
  refine ⟨blockEnd, (x.beginBlock block.start).withRegisters { x.registers with pc := pc }, ?_,
    hLeaves, rfl, rfl⟩
  have hRun : x.ram.runBlock block.stop Ram.instructionCount block.start x.registers =
      some ({ x.registers with pc := pc }, some blockEnd) :=
    Ram.runBlock_of_end (NativeBlock.start_lt_stop hAligned hSize) hStep
  unfold execute
  simp only [show (x.beginBlock block.start).ram = x.ram from rfl,
    show (x.beginBlock block.start).registers = x.registers from rfl, hRun]

/-- A registry with one function. -/
def oneFunction : Registry Unit :=
  Registry.empty.registerAll [("Host", [⟨7, "known", none⟩])]

/-- Requests that bind an import of that function and a missing one. -/
def twoBindings : List (LinkerRequest Unit) :=
  [.bind oneFunction "Host" 7 0x08804000, .bind oneFunction "Host" 8 0x08804008]

/-- A machine in whose memory they were bound. -/
def boundMachine : Interpreter :=
  (start .zero (.fresh .standard)).withRam
    (LinkerRequest.run (Linker.empty true) Ram.zero twoBindings).2

/-- A block that ends before the second slot still raises the system call in it, also that for an
absent function. -/
theorem one_word_block_raises_system_call :
    ∃ x', boundMachine.execute ⟨0x08804008, 4, []⟩ =
        some (.syscall (.absentFunction 0), x') ∧
      x'.registers.pc = boundMachine.registers.get .ra := by
  have hMirrors : (LinkerRequest.run (Linker.empty true) Ram.zero twoBindings).1.Mirrors
      boundMachine.ram := by
    have hEmpty : Linker.Mirrored (twoBindings.flatMap LinkerRequest.newSites)
        (fun _ : Ram => True) (Linker.empty true) Ram.zero := .empty _ true trivial
    exact (hEmpty.run Ram.acceptsRollBack (by decide) fun _ hSite => hSite).mirrors
  have hTracked : (LinkerRequest.run (Linker.empty true) Ram.zero twoBindings).1.callSite?
      0x08804008 = some (.stub (.absentFunction 0)) := by
    decide
  obtain ⟨blockEnd, x', hExecute, ⟨hEnd, hPc⟩, -, -⟩ := execute_tracked_site true Ram.zero
    twoBindings boundMachine ⟨0x08804008, 4, []⟩ hMirrors hTracked (by decide) (by decide)
  rw [hEnd] at hExecute
  exact ⟨x', hExecute, hPc⟩

end Interpreter
end HostCalls
