import HostCalls.Proofs.Machine.CallSite

/-!
# Blocks against single instructions

Guest code runs in blocks. `Ram.compile` looks for the end of a block before anything runs, and
`Ram.runBlock` looks for it again, by another test, while the block runs. Here guest code is given
its meaning without blocks, one instruction after the other, and both agree with it.

* `Ram.Executes` is what one instruction does, by one rule for each kind of instruction, and
  `Ram.executes_iff` says that the interpreter does just that.
* `Ram.Interprets` is a number of instructions one after the other, until one of them hands control
  back; `Ram.interprets_iff` says that they lead to one result.
* `Ram.exists_blockWords`: the words that make up a block are those that run, a delay slot at its
  end aside.
* `execute_compiled_block`: a block does what its instructions do.
-/

namespace HostCalls
namespace Ram

/-- What the instruction that control has reached does to the registers, and how it hands control
back if it does. Delay slots are not executed. -/
inductive Executes (ram : Ram) (r : Registers) : Registers → Option BlockEnd → Prop
  | ret (hWord : ram.word r.pc = Instruction.returnWord)
      (hSlot : Instruction.isSyscall (ram.word (r.pc + Instruction.size)) = false) :
      Executes ram r { r with pc := r.get .ra } (some .dispatch)
  | retSyscall (hWord : ram.word r.pc = Instruction.returnWord)
      (hSlot : Instruction.isSyscall (ram.word (r.pc + Instruction.size)) = true) :
      Executes ram r { r with pc := r.get .ra }
        (some (.syscall ⟨ram.word (r.pc + Instruction.size)⟩))
  | breakpoint (hWord : ram.word r.pc = Instruction.breakWord) :
      Executes ram r r (some .breakpoint)
  | jump {target : Addr} (hWord : Instruction.jumpTarget? r.pc (ram.word r.pc) = some target) :
      Executes ram r { r with pc := target } (some .dispatch)
  | call (hWord : Instruction.opcodeField (ram.word r.pc) = Instruction.callClass) :
      Executes ram r
        { r.set .ra (r.pc + 2 * Instruction.size) with
          pc := Instruction.segmentTarget r.pc (ram.word r.pc) } (some .dispatch)
  | addImmediate (hWord : Instruction.opcodeField (ram.word r.pc) = Instruction.addImmediateClass) :
      Executes ram r
        { r.set (Instruction.registerField (ram.word r.pc) 16)
            (r.get (Instruction.registerField (ram.word r.pc) 21) +
              Instruction.signedConstant (ram.word r.pc)) with
          pc := r.pc + Instruction.size } none
  /-- Anything else does nothing. -/
  | other (hReturn : ram.word r.pc ≠ Instruction.returnWord)
      (hBreak : ram.word r.pc ≠ Instruction.breakWord)
      (hClass : Instruction.opcodeField (ram.word r.pc) ∉
        [Instruction.jumpClass, Instruction.callClass, Instruction.addImmediateClass]) :
      Executes ram r { r with pc := r.pc + Instruction.size } none

/-- At most `n` instructions one after the other, until one of them hands control back. -/
inductive Interprets (ram : Ram) : Nat → Registers → Registers → Option BlockEnd → Prop
  | done (r : Registers) : Interprets ram 0 r r none
  | ends {n : Nat} {r r' : Registers} {blockEnd : BlockEnd}
      (hFirst : ram.Executes r r' (some blockEnd)) :
      Interprets ram (n + 1) r r' (some blockEnd)
  | goes {n : Nat} {r r' r'' : Registers} {blockEnd : Option BlockEnd}
      (hFirst : ram.Executes r r' none) (hRest : Interprets ram n r' r'' blockEnd) :
      Interprets ram (n + 1) r r'' blockEnd

/-- Executes the instruction that control has reached and moves on to the next one. -/
def executed (ram : Ram) (r : Registers) : Registers × Option BlockEnd :=
  match ram.stepAt r.pc r with
  | (r', some blockEnd) => (r', some blockEnd)
  | (r', none) => ({ r' with pc := r.pc + Instruction.size }, none)

section Executes

variable {ram : Ram} {r r' : Registers} {blockEnd : Option BlockEnd}

theorem exists_executes (ram : Ram) (r : Registers) : ∃ r' blockEnd, ram.Executes r r' blockEnd := by
  by_cases hReturn : ram.word r.pc = Instruction.returnWord
  · cases hSlot : Instruction.isSyscall (ram.word (r.pc + Instruction.size)) with
    | false => exact ⟨_, _, .ret hReturn hSlot⟩
    | true => exact ⟨_, _, .retSyscall hReturn hSlot⟩
  by_cases hBreak : ram.word r.pc = Instruction.breakWord
  · exact ⟨_, _, .breakpoint hBreak⟩
  by_cases hJump : Instruction.opcodeField (ram.word r.pc) = Instruction.jumpClass
  · exact ⟨_, _, .jump (if_pos hJump)⟩
  by_cases hCall : Instruction.opcodeField (ram.word r.pc) = Instruction.callClass
  · exact ⟨_, _, .call hCall⟩
  by_cases hAdd : Instruction.opcodeField (ram.word r.pc) = Instruction.addImmediateClass
  · exact ⟨_, _, .addImmediate hAdd⟩
  exact ⟨_, _, .other hReturn hBreak (by simp [hJump, hCall, hAdd])⟩

theorem executed_of_executes (hAligned : isAligned r.pc = true)
    (h : ram.Executes r r' blockEnd) : ram.executed r = (r', blockEnd) := by
  unfold executed stepAt
  rw [fetch_of_isAligned hAligned, fetch_of_isAligned (isAligned_second hAligned)]
  cases h with
  | ret hWord hSlot => simp [hWord, hSlot, Instruction.decode_returnWord]
  | retSyscall hWord hSlot => simp [hWord, hSlot, Instruction.decode_returnWord]
  | breakpoint hWord => simp [hWord, Instruction.decode_breakWord]
  | jump hWord => simp [Instruction.decode_of_jumpTarget? hWord]
  | call hWord => simp [Instruction.decode_of_callClass _ hWord]
  | addImmediate hWord => simp [Instruction.decode_of_addImmediateClass _ hWord]
  | other hReturn hBreak hClass =>
      rw [Instruction.decode_of_other _ hReturn hBreak hClass]

/-- The interpreter does with each instruction what its rule says. -/
theorem executes_iff (hAligned : isAligned r.pc = true) :
    ram.Executes r r' blockEnd ↔ ram.executed r = (r', blockEnd) := by
  refine ⟨executed_of_executes hAligned, fun h => ?_⟩
  obtain ⟨q, qEnd, hQ⟩ := exists_executes ram r
  rw [executed_of_executes hAligned hQ] at h
  cases h
  exact hQ

/-- While control stays in a block, the address that has been reached is kept outside of the
registers. -/
theorem executed_withPc (ram : Ram) (r : Registers) (addr : Addr) :
    ram.executed { r with pc := addr } =
      match ram.stepAt addr r with
      | (r', some blockEnd) => (r', some blockEnd)
      | (r', none) => ({ r' with pc := addr + Instruction.size }, none) := by
  have hSet : ∀ reg value, ({ r with pc := addr } : Registers).set reg value =
      { r.set reg value with pc := addr } := by
    intro reg value
    unfold Registers.set
    split <;> rfl
  unfold executed stepAt
  dsimp only
  cases Instruction.decode addr (ram.fetch addr) with
  | addImmediate rt rs constant => simp only [hSet]; rfl
  | call target => simp only [hSet]
  | _ => rfl

/-- The words that end a block are those that hand control back. -/
theorem isSome_iff_of_executes (h : ram.Executes r r' blockEnd) :
    blockEnd.isSome = true ↔
      Instruction.hasDelaySlot (ram.word r.pc) = true ∨
        ram.word r.pc = Instruction.breakWord := by
  unfold Instruction.hasDelaySlot
  rw [Bool.or_eq_true, Bool.or_eq_true, beq_iff_eq, beq_iff_eq, beq_iff_eq]
  cases h with
  | ret hWord => simp [hWord]
  | retSyscall hWord => simp [hWord]
  | breakpoint hWord => simp [hWord]
  | jump hWord => simp [(Instruction.jumpTarget?_eq_some_iff.mp hWord).1]
  | call hWord => simp [hWord]
  | addImmediate hWord =>
      have hClass : Instruction.opcodeField (ram.word r.pc) ≠ 0 := hWord ▸ by decide
      obtain ⟨hReturn, hBreak⟩ := Instruction.ne_of_opcodeField hClass
      simp [hReturn, hBreak, hWord, Instruction.addImmediateClass, Instruction.jumpClass,
        Instruction.callClass]
  | other hReturn hBreak hClass =>
      simp only [List.mem_cons, List.not_mem_nil, or_false, not_or] at hClass
      simp [hReturn, hBreak, hClass]

end Executes

section Block

variable {ram : Ram} {addr : Addr}

theorem read_of_isAligned (hAligned : isAligned addr = true) :
    ram.read addr = .ok (ram.word addr) := by
  unfold read
  rw [if_pos hAligned]

theorem blockWords_succ (hAligned : isAligned addr = true) (limit : Nat) :
    ram.blockWords (limit + 1) addr =
      if Instruction.hasDelaySlot (ram.word addr) then
        .ok [ram.word addr, ram.word (addr + Instruction.size)]
      else if ram.word addr = Instruction.breakWord then .ok [ram.word addr]
      else (ram.word addr :: ·) <$> ram.blockWords limit (addr + Instruction.size) := by
  rw [blockWords, read_of_isAligned hAligned, read_of_isAligned (isAligned_second hAligned)]
  show (if _ then _ else _) = _
  congr 1

/-- Whether a block of these words at an address runs as its instructions do. -/
def RunsAs (ram : Ram) (limit : Nat) (addr : Addr) (r : Registers) (words : List Word) : Prop :=
  ∀ stop fuel, stop.toNat = addr.toNat + 4 * words.length → limit < fuel →
    ∃ r' blockEnd, ram.runBlock stop fuel addr r = some (r', blockEnd) ∧
      ram.Interprets limit { r with pc := addr }
        (if blockEnd.isSome then r' else { r' with pc := stop }) blockEnd

/-- An instruction that hands control back is the last one to run, whatever words come after it. -/
theorem runsAs_of_end {limit : Nat} {r r' : Registers} {blockEnd : BlockEnd}
    (hFirst : ram.Executes { r with pc := addr } r' (some blockEnd))
    (hStep : ram.stepAt addr r = (r', some blockEnd)) {words : List Word} (hWords : words ≠ []) :
    ram.RunsAs (limit + 1) addr r words := by
  intro stop fuel hStop hFuel
  have hLength : words.length ≠ 0 := fun h => hWords (List.length_eq_zero_iff.mp h)
  have hBefore : addr < stop := by
    rw [UInt32.lt_iff_toNat_lt]
    omega
  obtain ⟨fuel, rfl⟩ := Nat.exists_eq_add_one.mpr (Nat.zero_lt_of_lt hFuel)
  exact ⟨r', some blockEnd, runBlock_of_end hBefore hStep, .ends hFirst⟩

/-- An instruction that does not hand control back is followed by the next one. -/
theorem runsAs_cons {limit : Nat} {r r' : Registers} {word : Word} {words : List Word}
    (hFits : addr.toNat + 4 < addrCount)
    (hFirst : ram.Executes { r with pc := addr } { r' with pc := addr + Instruction.size } none)
    (hStep : ram.stepAt addr r = (r', none))
    (hRest : ram.RunsAs limit (addr + Instruction.size) r' words) :
    ram.RunsAs (limit + 1) addr r (word :: words) := by
  intro stop fuel hStop hFuel
  rw [List.length_cons] at hStop
  have hBefore : addr < stop := by
    rw [UInt32.lt_iff_toNat_lt]
    omega
  have hNext : (addr + Instruction.size).toNat = addr.toNat + 4 :=
    CallSite.HasSlots.toNat_second hFits
  obtain ⟨fuel, rfl⟩ := Nat.exists_eq_add_one.mpr (Nat.zero_lt_of_lt hFuel)
  obtain ⟨q, blockEnd, hRun, hInterprets⟩ := hRest stop fuel (by omega) (by omega)
  refine ⟨q, blockEnd, ?_, .goes hFirst hInterprets⟩
  rw [runBlock, if_pos hBefore, hStep]
  exact hRun

/-- The run of a block ends where its words do, or before a delay slot. -/
theorem exists_blockWords (limit : Nat) (hAligned : isAligned addr = true)
    (hFits : addr.toNat + 4 * (limit + 1) < addrCount) (r : Registers) :
    ∃ words, ram.blockWords limit addr = .ok words ∧ words.length ≤ limit + 1 ∧
      ram.RunsAs limit addr r words := by
  -- the address and the registers that a run has reached move on with the words that are left
  induction limit generalizing addr r with
  | zero =>
      refine ⟨[], rfl, Nat.zero_le _, fun stop fuel hStop hFuel => ?_⟩
      obtain ⟨fuel, rfl⟩ := Nat.exists_eq_add_one.mpr (Nat.zero_lt_of_lt hFuel)
      have hEq : stop = addr := UInt32.toNat_inj.mp hStop
      subst hEq
      refine ⟨r, none, ?_, .done _⟩
      rw [runBlock, if_neg (UInt32.lt_irrefl stop)]
  | succ limit ih =>
      obtain ⟨q, blockEnd, hFirst⟩ := exists_executes ram { r with pc := addr }
      have hEnds := isSome_iff_of_executes hFirst
      have hExecuted := executed_of_executes hAligned hFirst
      rw [executed_withPc] at hExecuted
      rw [blockWords_succ hAligned]
      cases hStep : ram.stepAt addr r with
      | mk r' stepEnd =>
        rw [hStep] at hExecuted
        cases stepEnd with
        | some stepEnd =>
            -- both tests find the end here; only the words differ by the slot
            obtain ⟨rfl, rfl⟩ := Prod.mk.inj hExecuted
            split
            · exact ⟨_, rfl, by simp, runsAs_of_end hFirst hStep (List.cons_ne_nil _ _)⟩
            · rename_i hSlot
              rw [if_pos ((hEnds.mp rfl).resolve_left hSlot)]
              exact ⟨_, rfl, by simp, runsAs_of_end hFirst hStep (List.cons_ne_nil _ _)⟩
        | none =>
            obtain ⟨rfl, rfl⟩ := Prod.mk.inj hExecuted
            have hGoes : ¬ (_ ∨ _) := fun h => Bool.false_ne_true (hEnds.mpr h)
            rw [if_neg fun h => hGoes (.inl h), if_neg fun h => hGoes (.inr h)]
            have hSecond : addr.toNat + 4 < addrCount := by omega
            have hNext : (addr + Instruction.size).toNat = addr.toNat + 4 :=
              CallSite.HasSlots.toNat_second hSecond
            obtain ⟨words, hWords, hLength, hRuns⟩ :=
              ih (isAligned_second hAligned) (by omega) r'
            rw [hWords]
            refine ⟨ram.word addr :: words, rfl, by simpa using hLength, ?_⟩
            exact runsAs_cons hSecond hFirst hStep hRuns

end Block

/-- Executes at most `n` instructions until one of them hands control back. -/
def interpreted (ram : Ram) : Nat → Registers → Registers × Option BlockEnd
  | 0, r => (r, none)
  | n + 1, r =>
      match ram.executed r with
      | (r', some blockEnd) => (r', some blockEnd)
      | (r', none) => ram.interpreted n r'

section Interprets

variable {ram : Ram} {r r' : Registers} {blockEnd : Option BlockEnd}

theorem isAligned_of_executes (hAligned : isAligned r.pc = true)
    (h : ram.Executes r r' none) : isAligned r'.pc = true := by
  cases h with
  | addImmediate => exact isAligned_second hAligned
  | other => exact isAligned_second hAligned

/-- Single instructions lead to one result, and to one only. -/
theorem interprets_iff {n : Nat} (hAligned : isAligned r.pc = true) :
    ram.Interprets n r r' blockEnd ↔ ram.interpreted n r = (r', blockEnd) := by
  constructor
  · intro h
    induction h with
    | done r => rfl
    | ends hFirst => rw [interpreted, executed_of_executes hAligned hFirst]
    | goes hFirst hRest ih =>
        rw [interpreted, executed_of_executes hAligned hFirst]
        exact ih (isAligned_of_executes hAligned hFirst)
  · intro h
    induction n generalizing r with
    | zero =>
        cases h
        exact .done _
    | succ n ih =>
        obtain ⟨q, qEnd, hFirst⟩ := exists_executes ram r
        rw [interpreted, executed_of_executes hAligned hFirst] at h
        cases qEnd with
        | some qEnd =>
            cases h
            exact .ends hFirst
        | none => exact .goes hFirst (ih (isAligned_of_executes hAligned hFirst) h)

end Interprets
end Ram

namespace Interpreter

/-- Beginning a block leaves memory and registers alone. -/
theorem execute_of_runBlock {x : Interpreter} {block : NativeBlock} {r : Registers}
    {blockEnd : Option BlockEnd}
    (hRun : x.ram.runBlock block.stop Ram.instructionCount block.start x.registers =
      some (r, blockEnd)) :
    x.execute block =
      some (blockEnd.getD (if 0 < x.downcount - 1 then .chain else .dispatch),
        (x.beginBlock block.start).withRegisters
          (if blockEnd.isSome then r else { r with pc := block.stop })) := by
  have hBegun : (x.beginBlock block.start).ram.runBlock block.stop Ram.instructionCount
      block.start (x.beginBlock block.start).registers = some (r, blockEnd) := hRun
  unfold execute
  dsimp only
  rw [hBegun]
  cases blockEnd <;> rfl

/-- A block that was just compiled does what its instructions do one after the other, up to the
first that hands control back or up to the sixteenth. -/
theorem execute_compiled_block (x : Interpreter) (pc : Addr) (hAligned : Ram.isAligned pc = true)
    (hFits : pc.toNat + 72 < addrCount) :
    ∃ block x' blockEnd, Executor.compile pc x = (.ok block, x) ∧
      Executor.execute block x =
        some (blockEnd.getD (if 0 < x'.downcount then .chain else .dispatch), x') ∧
      x'.downcount = x.downcount - 1 ∧ x'.ram = x.ram ∧
      ∀ r rEnd, x.ram.Interprets 16 { x.registers with pc := pc } r rEnd ↔
        r = x'.registers ∧ rEnd = blockEnd := by
  obtain ⟨words, hWords, hLength, hRuns⟩ := Ram.exists_blockWords 16 hAligned (by omega) x.registers
  let block : NativeBlock := ⟨pc, UInt32.ofNat (4 * words.length), words.flatMap Word.bytes⟩
  have hStop : block.stop.toNat = pc.toNat + 4 * words.length := by
    have hSize : block.size.toNat = 4 * words.length :=
      UInt32.toNat_ofNat_of_lt' (show _ < 2 ^ 32 by omega)
    unfold NativeBlock.stop
    rw [Addr.toNat_saturatingAdd, hSize]
    unfold addrCount at hFits ⊢
    show min (pc.toNat + 4 * words.length) _ = _
    omega
  obtain ⟨r, blockEnd, hRun, hInterprets⟩ :=
    hRuns block.stop Ram.instructionCount hStop (by decide)
  have hCompile : x.ram.compile pc = .ok block := by
    unfold Ram.compile
    rw [show Ram.longestBlock = 16 from rfl, hWords]
    rfl
  refine ⟨block, (x.beginBlock pc).withRegisters
    (if blockEnd.isSome then r else { r with pc := block.stop }), blockEnd, ?_, ?_, rfl, rfl, ?_⟩
  · exact congrArg (·, x) hCompile
  · exact execute_of_runBlock hRun
  · intro q qEnd
    rw [Ram.interprets_iff hAligned] at hInterprets ⊢
    rw [hInterprets, Prod.mk.injEq]
    exact and_congr eq_comm eq_comm

/-- A machine whose code adds one fifteen times and then jumps, with one more addition in the delay
slot. -/
def countAndJump : Interpreter :=
  (start .zero (.fresh .standard)).withRam <|
    Ram.zero.load Machine.mainAddr <|
      List.replicate 15 (Instruction.addImmediateWord 2 2 1) ++
        [Instruction.jumpWord 0x08805000, Instruction.addImmediateWord 2 2 100]

/-- A jump that is the sixteenth instruction of its block is taken, without its delay slot. -/
theorem sixteenth_instruction_jumps :
    ∃ block x', Executor.compile Machine.mainAddr countAndJump = (.ok block, countAndJump) ∧
      Executor.execute block countAndJump = some (.dispatch, x') ∧
      x'.registers.get .v0 = 15 ∧ x'.registers.pc = 0x08805000 := by
  obtain ⟨block, x', blockEnd, hCompile, hExecute, -, -, hInterprets⟩ :=
    execute_compiled_block countAndJump Machine.mainAddr (by decide) (by decide)
  have hCount : countAndJump.ram.Interprets 16
      { countAndJump.registers with pc := Machine.mainAddr }
      { Registers.zero.set .v0 15 with pc := 0x08805000 } (some .dispatch) :=
    (Ram.interprets_iff (by decide)).mpr (by decide)
  obtain ⟨hRegisters, hEnd⟩ := (hInterprets _ _).mp hCount
  rw [← hEnd] at hExecute
  exact ⟨block, x', hCompile, hExecute, hRegisters ▸ by decide, hRegisters ▸ rfl⟩

end Interpreter
end HostCalls
