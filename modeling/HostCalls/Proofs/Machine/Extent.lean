import HostCalls.Proofs.Machine.Walk

/-!
# When a block stays within its words

The end of a block is cut off at the end of the address space, whereas the addresses of instructions
go around it. A block that reaches the end of the address space has no end in front of it then, and
runs on at its start unless one of its own words ends it.

* `Ram.EndsInside` is the condition under which a block is not left, `BlockLength.exists_stops` and
  `BlockLength.of_not_endsInside` are its two cases.
* `compiled_block_stays_inside_iff`: under this condition, and no other, executing a block that was
  just compiled interprets at most sixteen instructions, all of them among its words.
* `last_block_runs_on` is a block that does not.
-/

namespace HostCalls

namespace NativeBlock

/-- Whether an address is less than the size of the block above its start, around the end of the
address space. -/
def Spans (block : NativeBlock) (addr : Addr) : Prop :=
  addr - block.start < block.size

end NativeBlock

namespace Ram

open Instruction (EndsBlock)

variable {ram : Ram} {pc stop addr : Addr} {i n : Nat}

theorem spans_cut_iff (hi : i ≤ 17) (hn : n ≤ 17) :
    (ram.cut pc n).Spans (pc.plusWords i) ↔ i < n := by
  have hDistance : pc.plusWords i - pc = UInt32.ofNat (4 * i) := by
    unfold Addr.plusWords
    rw [UInt32.add_comm, UInt32.add_sub_cancel]
  show pc.plusWords i - pc < (ram.cut pc n).size ↔ i < n
  rw [hDistance, UInt32.lt_iff_toNat_lt, toNat_size_cut ram pc hn,
    UInt32.toNat_ofNat_of_lt' (show 4 * i < 2 ^ 32 by omega)]
  omega

theorem toNat_stop_cut (ram : Ram) (pc : Addr) (hn : n ≤ 17) :
    (ram.cut pc n).stop.toNat = min (pc.toNat + 4 * n) (addrCount - 1) := by
  unfold NativeBlock.stop
  rw [Addr.toNat_saturatingAdd, toNat_size_cut ram pc hn]
  rfl

/-- Behind a block that is not cut off there is its end. -/
theorem not_lt_stop_cut (hn : n ≤ 17) (hFits : pc.toNat + 4 * n < addrCount) :
    ¬ pc.plusWords n < (ram.cut pc n).stop := by
  rw [UInt32.lt_iff_toNat_lt, toNat_stop_cut ram pc hn, Addr.toNat_plusWords]
  unfold addrCount at hFits ⊢
  omega

/-- Every word lies before the end of a block that is cut off. -/
theorem lt_stop_of_cut_off (hn : n ≤ 17) (hPast : addrCount ≤ pc.toNat + 4 * n)
    (hAligned : isAligned addr = true) : addr < (ram.cut pc n).stop := by
  have hMultiple : addr.toNat % 4 = 0 := beq_iff_eq.mp hAligned
  have hBound : addr.toNat < 2 ^ 32 := addr.toNat_lt
  rw [UInt32.lt_iff_toNat_lt, toNat_stop_cut ram pc hn]
  unfold addrCount at hPast ⊢
  omega

/-- Every word can be reached from every other one. -/
theorem exists_eq_plusWords (hAligned : isAligned pc = true) (hTo : isAligned addr = true) :
    ∃ n, addr = pc.plusWords n := by
  have hMultiple : pc.toNat % 4 = 0 := beq_iff_eq.mp hAligned
  have hMultiple' : addr.toNat % 4 = 0 := beq_iff_eq.mp hTo
  have hBound : pc.toNat < 2 ^ 32 := pc.toNat_lt
  have hBound' : addr.toNat < 2 ^ 32 := addr.toNat_lt
  refine ⟨(addr.toNat + 2 ^ 32 - pc.toNat) / 4, UInt32.toNat_inj.mp ?_⟩
  rw [Addr.toNat_plusWords]
  unfold addrCount
  omega

/-- A walk does not go on behind the word that ends the block first. -/
theorem EndsFirstAt.not_passesOn (h : ram.EndsFirstAt pc i) (hAligned : isAligned pc = true)
    (stop : Addr) : ¬ ram.PassesOn stop (pc.plusWords i) := by
  rintro ⟨-, hGoes⟩
  rw [fetch_of_isAligned ((isAligned_plusWords pc i).trans hAligned)] at hGoes
  exact hGoes h.ends

/-- A walk of a block that is cut off goes on wherever the word does not end it. -/
theorem passesOn_iff_of_cut_off (hn : n ≤ 17) (hPast : addrCount ≤ pc.toNat + 4 * n)
    (hAligned : isAligned addr = true) :
    ram.PassesOn (ram.cut pc n).stop addr ↔ ¬ EndsBlock (ram.word addr) := by
  unfold PassesOn
  rw [fetch_of_isAligned hAligned]
  exact and_iff_right (lt_stop_of_cut_off hn hPast hAligned)

/-- Either the block is not cut off, or one of the words that may end it does. -/
def EndsInside (ram : Ram) (pc : Addr) : Prop :=
  pc.toNat + 64 < addrCount ∨ ∃ i < 16, EndsBlock (ram.word (pc.plusWords i))

/-- A block that ends inside has an end, and no walk comes past it. -/
theorem BlockLength.exists_stops (h : ram.BlockLength 16 pc n) (hAligned : isAligned pc = true)
    (hInside : ram.EndsInside pc) :
    (∃ i, ¬ ram.PassesOn (ram.cut pc n).stop (pc.plusWords i)) ∧
      ∀ r addrs r' blockEnd, ram.Walks (ram.cut pc n).stop pc r addrs r' blockEnd →
        addrs.length ≤ 16 ∧ addrs.length ≤ n := by
  rcases h.ends_or_full with ⟨i, hWithin, hOwn, hFirst⟩ | ⟨rfl, hNone⟩
  · have hStops := hFirst.not_passesOn hAligned (ram.cut pc n).stop
    refine ⟨⟨i, hStops⟩, fun r addrs r' blockEnd hWalks => ?_⟩
    have hLength := hWalks.length_le hStops
    omega
  · have hFits : pc.toNat + 64 < addrCount :=
      hInside.resolve_right fun ⟨i, hi, hEnds⟩ => hNone i hi hEnds
    have hPast : ¬ pc.plusWords 16 < (ram.cut pc 16).stop := not_lt_stop_cut (by decide) hFits
    refine ⟨⟨16, fun hPasses => hPast hPasses.1⟩, fun r addrs r' blockEnd hWalks => ?_⟩
    have hLength := hWalks.length_le_of_past hPast
    exact ⟨hLength, hLength⟩

/-- A block that does not end inside has sixteen words, and its end is cut off. -/
theorem BlockLength.of_not_endsInside (h : ram.BlockLength 16 pc n)
    (hOutside : ¬ ram.EndsInside pc) :
    n = 16 ∧ addrCount ≤ pc.toNat + 64 ∧
      ∀ i < 16, ¬ EndsBlock (ram.word (pc.plusWords i)) := by
  obtain ⟨hPast, hNone⟩ := not_or.mp hOutside
  rcases h.ends_or_full with ⟨i, hWithin, -, hFirst⟩ | ⟨hFull, hGoes⟩
  · exact absurd ⟨i, hWithin, hFirst.ends⟩ hNone
  · exact ⟨hFull, Nat.not_lt.mp hPast, hGoes⟩

/-- Then a walk comes to a seventeenth instruction, which is not one of the block. -/
theorem Walks.length_of_not_endsInside {r r' : Registers} {addrs : List Addr}
    {blockEnd : Option BlockEnd} (hAligned : isAligned pc = true)
    (hPast : addrCount ≤ pc.toNat + 64)
    (hGoes : ∀ i < 16, ¬ EndsBlock (ram.word (pc.plusWords i)))
    (h : ram.Walks (ram.cut pc 16).stop pc r addrs r' blockEnd) :
    16 < addrs.length ∧ ∃ addr ∈ addrs, ¬ (ram.cut pc 16).Spans addr := by
  have hAll : ∀ i, isAligned (pc.plusWords i) = true :=
    fun i => (isAligned_plusWords pc i).trans hAligned
  have hPasses : ∀ i < 16, ram.PassesOn (ram.cut pc 16).stop (pc.plusWords i) :=
    fun i hi => (passesOn_iff_of_cut_off (by decide) hPast (hAll i)).mpr (hGoes i hi)
  have hLength : 16 < addrs.length :=
    h.lt_length hPasses (lt_stop_of_cut_off (by decide) hPast (hAll 16))
  refine ⟨hLength, pc.plusWords 16, ?_, ?_⟩
  · exact h.mem_iff.mpr ⟨16, hLength, rfl⟩
  · rw [spans_cut_iff (by decide) (by decide)]
    exact Nat.lt_irrefl 16

end Ram

namespace Interpreter

variable {x : Interpreter} {pc : Addr} {n : Nat}

/-- Executing the block comes to an end after at most sixteen instructions, all of them among the
words of the block. -/
def StaysInside (x : Interpreter) (block : NativeBlock) : Prop :=
  ∃ result addrs, x.execute block = some result ∧ x.Interprets block addrs ∧
    addrs.length ≤ 16 ∧ ∀ addr ∈ addrs, block.Spans addr

theorem exists_execute_of_stops (block : NativeBlock)
    (hStops : ¬ x.ram.PassesOn block.stop (block.start.plusWords n)) :
    ∃ result, x.execute block = some result := by
  obtain ⟨⟨r, walkEnd⟩, hRun⟩ := Ram.exists_runBlock_of_stops x.registers hStops
  exact ⟨_, execute_of_runBlock hRun⟩

theorem staysInside_of_endsInside (hAligned : Ram.isAligned pc = true)
    (hLength : x.ram.BlockLength 16 pc n) (hInside : x.ram.EndsInside pc) :
    x.StaysInside (x.ram.cut pc n) := by
  obtain ⟨⟨i, hStops⟩, hShort⟩ := hLength.exists_stops hAligned hInside
  obtain ⟨result, hExecute⟩ := exists_execute_of_stops (x.ram.cut pc n) hStops
  obtain ⟨addrs, r, walkEnd, hWalks⟩ := exists_execute_iff.mp ⟨result, hExecute⟩
  obtain ⟨hSixteen, hWords⟩ := hShort _ _ _ _ hWalks
  refine ⟨result, addrs, hExecute, ⟨r, walkEnd, hWalks⟩, hSixteen, fun addr hMem => ?_⟩
  obtain ⟨j, hj, rfl⟩ := hWalks.mem_iff.mp hMem
  exact (Ram.spans_cut_iff (by omega) hLength.le).mpr (by omega)

/-- A block that is cut off comes to an end if some word of memory ends a block. -/
theorem exists_execute_iff_of_cut_off (hAligned : Ram.isAligned pc = true) (hn : n ≤ 17)
    (hPast : addrCount ≤ pc.toNat + 4 * n) :
    (∃ result, x.execute (x.ram.cut pc n) = some result) ↔
      ∃ addr, Ram.isAligned addr = true ∧ Instruction.EndsBlock (x.ram.word addr) := by
  have hPasses : ∀ addr, Ram.isAligned addr = true →
      (x.ram.PassesOn (x.ram.cut pc n).stop addr ↔ ¬ Instruction.EndsBlock (x.ram.word addr)) :=
    fun addr => Ram.passesOn_iff_of_cut_off hn hPast
  constructor
  · intro hExecute
    obtain ⟨addrs, r, walkEnd, hWalks⟩ := exists_execute_iff.mp hExecute
    obtain ⟨i, hStops⟩ := hWalks.exists_stops
    have hWord : Ram.isAligned (pc.plusWords i) = true :=
      (Ram.isAligned_plusWords pc i).trans hAligned
    exact ⟨pc.plusWords i, hWord, Decidable.not_not.mp (mt (hPasses _ hWord).mpr hStops)⟩
  · rintro ⟨addr, hWord, hEnds⟩
    obtain ⟨i, rfl⟩ := Ram.exists_eq_plusWords hAligned hWord
    exact exists_execute_of_stops (x.ram.cut pc n) fun h => (hPasses _ hWord).mp h hEnds

/-- A block that was just compiled is executed to its end without leaving its words if and only if
it is not cut off by the end of the address space or one of its words ends it. Otherwise it runs on
behind them, and comes to an end if and only if some word of memory ends a block. -/
theorem compiled_block_stays_inside_iff (x : Interpreter) (pc : Addr)
    (hAligned : Ram.isAligned pc = true) :
    ∃ block, Executor.compile pc x = (.ok block, x) ∧
      (x.StaysInside block ↔ x.ram.EndsInside pc) ∧
      (¬ x.ram.EndsInside pc →
        (∀ addrs, x.Interprets block addrs →
          16 < addrs.length ∧ ∃ addr ∈ addrs, ¬ block.Spans addr) ∧
        ((∃ result, Executor.execute block x = some result) ↔
          ∃ addr, Ram.isAligned addr = true ∧ Instruction.EndsBlock (x.ram.word addr))) := by
  obtain ⟨n, hLength, hCompile⟩ := x.ram.compile_eq_cut hAligned
  -- a walk of a block that is left has one instruction too many
  have hLeaves : ¬ x.ram.EndsInside pc → ∀ addrs, x.Interprets (x.ram.cut pc n) addrs →
      16 < addrs.length ∧ ∃ addr ∈ addrs, ¬ (x.ram.cut pc n).Spans addr := by
    rintro hOutside addrs ⟨r, walkEnd, hWalks⟩
    obtain ⟨rfl, hPast, hGoes⟩ := hLength.of_not_endsInside hOutside
    exact hWalks.length_of_not_endsInside hAligned hPast hGoes
  refine ⟨x.ram.cut pc n, congrArg (·, x) hCompile, ⟨?_, ?_⟩,
    fun hOutside => ⟨hLeaves hOutside, ?_⟩⟩
  · rintro ⟨result, addrs, -, hInterprets, hShort, -⟩
    refine Classical.byContradiction fun hOutside => ?_
    exact absurd (hLeaves hOutside addrs hInterprets).1 (Nat.not_lt.mpr hShort)
  · exact staysInside_of_endsInside hAligned hLength
  · obtain ⟨rfl, hPast, -⟩ := hLength.of_not_endsInside hOutside
    exact exists_execute_iff_of_cut_off hAligned (by decide) hPast

/-- A machine whose last sixteen words end in a jump. -/
def jumpingAtEnd : Interpreter :=
  (start .zero (.fresh .standard)).withRam Ram.jumpAtEnd

/-- A block that is cut off stays within its words if its last word is a jump. -/
theorem jump_keeps_last_block_inside :
    Ram.isAligned 0xFFFFFFC0 = true ∧ ∃ block,
      Executor.compile 0xFFFFFFC0 jumpingAtEnd = (.ok block, jumpingAtEnd) ∧
        jumpingAtEnd.StaysInside block := by
  have hAligned : Ram.isAligned 0xFFFFFFC0 = true := by decide
  obtain ⟨block, hCompile, hInside, -⟩ :=
    compiled_block_stays_inside_iff jumpingAtEnd 0xFFFFFFC0 hAligned
  exact ⟨hAligned, block, hCompile, hInside.mpr (.inr ⟨15, by decide, by decide⟩)⟩

/-- A machine without code. -/
def idle : Interpreter :=
  start .zero (.fresh .standard)

/-- A machine whose last words do nothing, and whose first ones set a register and jump. -/
def idleAtEnd : Interpreter :=
  idle.withRam
    (Ram.zero.load 0 [Instruction.addImmediateWord 2 0 1, Instruction.jumpWord Machine.mainAddr])

/-- If the last sixteen words do nothing, their block runs on at the start of memory, and does not
come to an end unless there is a word that ends a block. -/
theorem last_block_runs_on :
    (∃ block x' addrs, Executor.compile 0xFFFFFFC0 idleAtEnd = (.ok block, idleAtEnd) ∧
      Executor.execute block idleAtEnd = some (.dispatch, x') ∧ x'.registers.get .v0 = 1 ∧
      idleAtEnd.Interprets block addrs ∧ 16 < addrs.length ∧ ∃ addr ∈ addrs, ¬ block.Spans addr) ∧
    ∃ block, Executor.compile 0xFFFFFFC0 idle = (.ok block, idle) ∧
      Executor.execute block idle = none := by
  constructor
  · have hExecute : idleAtEnd.execute (idleAtEnd.ram.cut 0xFFFFFFC0 16) = some (.dispatch, _) := rfl
    obtain ⟨addrs, r, walkEnd, hWalks⟩ := exists_execute_iff.mp ⟨_, hExecute⟩
    have hLeaves := hWalks.length_of_not_endsInside (by decide) (by decide) (by decide)
    exact ⟨_, _, addrs, rfl, hExecute, rfl, ⟨r, walkEnd, hWalks⟩, hLeaves⟩
  · have hEnds : (∃ result, idle.execute (idle.ram.cut 0xFFFFFFC0 16) = some result) ↔
        ∃ addr, Ram.isAligned addr = true ∧ Instruction.EndsBlock (idle.ram.word addr) :=
      exists_execute_iff_of_cut_off (by decide) (by decide) (by decide)
    refine ⟨idle.ram.cut 0xFFFFFFC0 16, rfl, ?_⟩
    refine Option.eq_none_iff_forall_ne_some.mpr fun result hExecute => ?_
    obtain ⟨addr, -, hWord⟩ := hEnds.mp ⟨result, hExecute⟩
    exact absurd hWord (show ¬ Instruction.EndsBlock 0 by decide)

end Interpreter
end HostCalls
