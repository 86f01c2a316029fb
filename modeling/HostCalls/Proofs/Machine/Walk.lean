import HostCalls.Proofs.Machine.Compilation

/-!
# Which instructions a block interprets

The interpreter executes a block with a fixed amount of fuel, and does not say which instructions it
came through.

* `Ram.Walks` is the run of a block with the addresses of the instructions that it interprets. There
  is one at most (`Walks.unique`), and the instructions lie behind one another (`Walks.addrs_eq`).
* `Ram.PassesOn` says at which addresses a walk goes on; `Walks.length_le`, `length_le_of_past` and
  `lt_length` say how far it comes.
* `Ram.runBlock_eq_some_iff`: the interpreter gives the result of the walk if there is one. Its fuel
  is enough, as a walk through all of memory has come back to where it was.
* `Interpreter.execute_eq_some_iff` says the same of the execution of a block.
-/

namespace HostCalls

namespace Instruction

/-- The instructions that do not end a block are those that the interpreter does not stop at. -/
theorem endsBlock_iff {word : Word} (site : Addr) :
    EndsBlock word ↔
      (∀ rt rs constant, decode site word ≠ .addImmediate rt rs constant) ∧
        decode site word ≠ .other := by
  unfold EndsBlock Transfers
  by_cases hReturn : word = returnWord
  · simp [hReturn, decode_returnWord]
  by_cases hBreak : word = breakWord
  · simp [hBreak, decode_breakWord]
  by_cases hJump : opcodeField word = jumpClass
  · simp [decode, hReturn, hBreak, hJump]
  by_cases hCall : opcodeField word = callClass
  · simp [decode_of_callClass, hCall]
  by_cases hAdd : opcodeField word = addImmediateClass
  · rw [decode_of_addImmediateClass site hAdd]
    simp [hReturn, hBreak, hAdd, addImmediateClass, jumpClass, callClass]
  simp [decode, hReturn, hBreak, hJump, hCall, hAdd]

end Instruction

namespace Ram

open Instruction (EndsBlock)

/-- The run of a block that ends at `stop`, from an address on. The instructions at the addresses of
the list are interpreted one after the other, until one of them hands control back or the next one
does not lie before `stop`. -/
inductive Walks (ram : Ram) (stop : Addr) :
    Addr → Registers → List Addr → Registers → Option BlockEnd → Prop
  | passed {addr : Addr} {r : Registers} (hPast : ¬ addr < stop) :
      Walks ram stop addr r [] r none
  | ends {addr : Addr} {r r' : Registers} {blockEnd : BlockEnd} (hBefore : addr < stop)
      (hStep : ram.stepAt addr r = (r', some blockEnd)) :
      Walks ram stop addr r [addr] r' (some blockEnd)
  | goes {addr : Addr} {r r' r'' : Registers} {addrs : List Addr} {blockEnd : Option BlockEnd}
      (hBefore : addr < stop) (hStep : ram.stepAt addr r = (r', none))
      (hRest : Walks ram stop (addr + Instruction.size) r' addrs r'' blockEnd) :
      Walks ram stop addr r (addr :: addrs) r'' blockEnd

/-- A walk goes on behind the instruction at an address. -/
def PassesOn (ram : Ram) (stop addr : Addr) : Prop :=
  addr < stop ∧ ¬ EndsBlock (ram.fetch addr)

variable {ram : Ram} {stop addr : Addr} {r r' q : Registers} {blockEnd qEnd : Option BlockEnd}
  {addrs others : List Addr} {fuel n : Nat}

theorem isSome_stepAt_iff (ram : Ram) (addr : Addr) (r : Registers) :
    (ram.stepAt addr r).2.isSome = true ↔ EndsBlock (ram.fetch addr) := by
  rw [Instruction.endsBlock_iff addr]
  unfold stepAt
  cases Instruction.decode addr (ram.fetch addr) <;> simp

theorem passesOn_of_step (hBefore : addr < stop) (hStep : ram.stepAt addr r = (r', none)) :
    ram.PassesOn stop addr := by
  refine ⟨hBefore, fun hEnds => ?_⟩
  have hSome := (isSome_stepAt_iff ram addr r).mpr hEnds
  rw [hStep] at hSome
  cases hSome

theorem endsBlock_of_step {blockEnd : BlockEnd} (hStep : ram.stepAt addr r = (r', some blockEnd)) :
    EndsBlock (ram.fetch addr) :=
  (isSome_stepAt_iff ram addr r).mp (by rw [hStep]; rfl)

namespace Walks

/-- A block has one run. -/
theorem unique (h : ram.Walks stop addr r addrs r' blockEnd)
    (h' : ram.Walks stop addr r others q qEnd) : addrs = others ∧ r' = q ∧ blockEnd = qEnd := by
  induction h generalizing others with
  | passed hPast =>
      cases h' with
      | passed _ => exact ⟨rfl, rfl, rfl⟩
      | ends hBefore _ => exact absurd hBefore hPast
      | goes hBefore _ _ => exact absurd hBefore hPast
  | ends hBefore hStep =>
      cases h' with
      | passed hPast => exact absurd hBefore hPast
      | ends _ hStep' =>
          cases hStep.symm.trans hStep'
          exact ⟨rfl, rfl, rfl⟩
      | goes _ hStep' _ => cases hStep.symm.trans hStep'
  | goes hBefore hStep _ ih =>
      cases h' with
      | passed hPast => exact absurd hBefore hPast
      | ends _ hStep' => cases hStep.symm.trans hStep'
      | goes _ hStep' hRest' =>
          cases hStep.symm.trans hStep'
          obtain ⟨rfl, rfl, rfl⟩ := ih hRest'
          exact ⟨rfl, rfl, rfl⟩

/-- The instructions lie behind one another, around the end of the address space. -/
theorem addrs_eq (h : ram.Walks stop addr r addrs r' blockEnd) :
    addrs = addr.consecutive addrs.length := by
  induction h with
  | passed _ => rfl
  | ends _ _ => rfl
  | goes _ _ _ ih => exact congrArg (_ :: ·) ih

theorem mem_iff {a : Addr} (h : ram.Walks stop addr r addrs r' blockEnd) :
    a ∈ addrs ↔ ∃ i < addrs.length, a = addr.plusWords i := by
  rw [← Addr.mem_consecutive_iff, ← h.addrs_eq]

/-- All of them lie before the end of the block. -/
theorem lt_stop_of_mem (h : ram.Walks stop addr r addrs r' blockEnd) : ∀ a ∈ addrs, a < stop := by
  induction h with
  | passed _ => nofun
  | ends hBefore _ => exact List.forall_mem_singleton.mpr hBefore
  | goes hBefore _ _ ih => exact List.forall_mem_cons.mpr ⟨hBefore, ih⟩

/-- A walk does not come past an address at which it does not go on. -/
theorem length_le (h : ram.Walks stop addr r addrs r' blockEnd)
    (hStops : ¬ ram.PassesOn stop (addr.plusWords n)) : addrs.length ≤ n + 1 := by
  induction h generalizing n with
  | passed _ => exact Nat.zero_le _
  | ends _ _ => exact Nat.le_add_left 1 n
  | goes hBefore hStep _ ih =>
      cases n with
      | zero =>
          rw [Addr.plusWords_zero] at hStops
          exact absurd (passesOn_of_step hBefore hStep) hStops
      | succ n =>
          rw [Addr.plusWords_succ] at hStops
          exact Nat.succ_le_succ (ih hStops)

/-- Nor does it come past the end of the block. -/
theorem length_le_of_past (h : ram.Walks stop addr r addrs r' blockEnd)
    (hPast : ¬ addr.plusWords n < stop) : addrs.length ≤ n := by
  refine Nat.not_lt.mp fun hLt => hPast (h.lt_stop_of_mem _ ?_)
  exact h.mem_iff.mpr ⟨n, hLt, rfl⟩

/-- As long as it goes on, a walk comes to the next instruction. -/
theorem lt_length (h : ram.Walks stop addr r addrs r' blockEnd)
    (hPasses : ∀ i < n, ram.PassesOn stop (addr.plusWords i))
    (hBefore : addr.plusWords n < stop) : n < addrs.length := by
  induction n generalizing addr r addrs with
  | zero =>
      rw [Addr.plusWords_zero] at hBefore
      cases h with
      | passed hPast => exact absurd hBefore hPast
      | ends _ _ => exact Nat.one_pos
      | goes _ _ _ => exact Nat.succ_pos _
  | succ n ih =>
      rw [Addr.plusWords_succ] at hBefore
      obtain ⟨hFirst, hPasses⟩ := Addr.forall_plusWords_succ_iff.mp hPasses
      cases h with
      | passed hPast => exact absurd hFirst.1 hPast
      | ends _ hStep => exact absurd (endsBlock_of_step hStep) hFirst.2
      | goes _ _ hRest => exact Nat.succ_lt_succ (ih hRest hPasses hBefore)

end Walks

theorem exists_walks_of_runBlock (h : ram.runBlock stop fuel addr r = some (r', blockEnd)) :
    ∃ addrs, ram.Walks stop addr r addrs r' blockEnd := by
  induction fuel generalizing addr r with
  | zero => cases h
  | succ fuel ih =>
      rw [runBlock] at h
      split at h
      · rename_i hBefore
        split at h
        · rename_i hStep
          cases h
          exact ⟨[addr], .ends hBefore hStep⟩
        · rename_i hStep
          obtain ⟨addrs, hWalks⟩ := ih h
          exact ⟨addr :: addrs, .goes hBefore hStep hWalks⟩
      · rename_i hPast
        cases h
        exact ⟨[], .passed hPast⟩

theorem exists_runBlock_iff : (∃ result, ram.runBlock stop fuel addr r = some result) ↔
    ∃ n < fuel, ¬ ram.PassesOn stop (addr.plusWords n) := by
  induction fuel generalizing addr r with
  | zero => simp [runBlock]
  | succ fuel ih =>
      rw [Addr.exists_plusWords_succ_iff (p := fun addr => ¬ ram.PassesOn stop addr), runBlock]
      split
      · rename_i hBefore
        rcases hStep : ram.stepAt addr r with ⟨r', _ | blockEnd⟩
        · have hPasses := passesOn_of_step hBefore hStep
          exact ih.trans (or_iff_right (not_not_intro hPasses)).symm
        · have hStops : ¬ ram.PassesOn stop addr := fun h => h.2 (endsBlock_of_step hStep)
          exact iff_of_true ⟨_, rfl⟩ (Or.inl hStops)
      · rename_i hPast
        exact iff_of_true ⟨_, rfl⟩ (Or.inl fun h => hPast h.1)

theorem plusWords_mod (a : Addr) (n : Nat) :
    a.plusWords (n % instructionCount) = a.plusWords n := by
  apply UInt32.toNat_inj.mp
  rw [Addr.toNat_plusWords, Addr.toNat_plusWords]
  unfold instructionCount addrCount
  omega

/-- The fuel of the interpreter is enough for every block that ends. -/
theorem exists_runBlock_of_stops (r : Registers)
    (hStops : ¬ ram.PassesOn stop (addr.plusWords n)) :
    ∃ result, ram.runBlock stop instructionCount addr r = some result := by
  rw [← plusWords_mod] at hStops
  exact exists_runBlock_iff.mpr ⟨_, Nat.mod_lt _ (by decide), hStops⟩

theorem Walks.exists_stops (h : ram.Walks stop addr r addrs r' blockEnd) :
    ∃ n, ¬ ram.PassesOn stop (addr.plusWords n) := by
  induction h with
  | @passed addr _ hPast =>
      exact ⟨0, fun hPasses => hPast (Addr.plusWords_zero addr ▸ hPasses.1)⟩
  | @ends addr _ _ _ _ hStep =>
      refine ⟨0, fun hPasses => hPasses.2 ?_⟩
      rw [Addr.plusWords_zero]
      exact endsBlock_of_step hStep
  | @goes addr _ _ _ _ _ _ _ _ ih =>
      obtain ⟨n, hStops⟩ := ih
      exact ⟨n + 1, Addr.plusWords_succ addr n ▸ hStops⟩

/-- The interpreter gives the result of the walk, and none if there is no walk. -/
theorem runBlock_eq_some_iff :
    ram.runBlock stop instructionCount addr r = some (r', blockEnd) ↔
      ∃ addrs, ram.Walks stop addr r addrs r' blockEnd := by
  refine ⟨exists_walks_of_runBlock, fun ⟨addrs, hWalks⟩ => ?_⟩
  obtain ⟨n, hStops⟩ := hWalks.exists_stops
  obtain ⟨⟨q, qEnd⟩, hRun⟩ := exists_runBlock_of_stops r hStops
  obtain ⟨others, hOthers⟩ := exists_walks_of_runBlock hRun
  obtain ⟨-, rfl, rfl⟩ := hWalks.unique hOthers
  exact hRun

end Ram

namespace Interpreter

variable {x x' : Interpreter} {block : NativeBlock} {blockEnd : BlockEnd}

/-- Executing the block comes to an end, and the instructions that it interprets are those at the
addresses of the list, one after the other. -/
def Interprets (x : Interpreter) (block : NativeBlock) (addrs : List Addr) : Prop :=
  ∃ r blockEnd, x.ram.Walks block.stop block.start x.registers addrs r blockEnd

/-- Executing a block gives what its walk leaves behind, and nothing if there is no walk. -/
theorem execute_eq_some_iff : x.execute block = some (blockEnd, x') ↔
    ∃ addrs r walkEnd, x.ram.Walks block.stop block.start x.registers addrs r walkEnd ∧
      blockEnd = walkEnd.getD (if 0 < x.downcount - 1 then .chain else .dispatch) ∧
      x' = (x.beginBlock block.start).withRegisters
        (if walkEnd.isSome then r else { r with pc := block.stop }) := by
  constructor
  · intro h
    cases hRun : x.ram.runBlock block.stop Ram.instructionCount block.start x.registers with
    | none =>
        have hBegun : (x.beginBlock block.start).ram.runBlock block.stop Ram.instructionCount
            block.start (x.beginBlock block.start).registers = none := hRun
        unfold execute at h
        simp only [hBegun] at h
        cases h
    | some result =>
        obtain ⟨r, walkEnd⟩ := result
        rw [execute_of_runBlock hRun] at h
        cases h
        obtain ⟨addrs, hWalks⟩ := Ram.runBlock_eq_some_iff.mp hRun
        exact ⟨addrs, r, walkEnd, hWalks, rfl, rfl⟩
  · rintro ⟨addrs, r, walkEnd, hWalks, rfl, rfl⟩
    exact execute_of_runBlock (Ram.runBlock_eq_some_iff.mpr ⟨addrs, hWalks⟩)

theorem exists_execute_iff : (∃ result, x.execute block = some result) ↔
    ∃ addrs, x.Interprets block addrs := by
  constructor
  · rintro ⟨⟨blockEnd, x'⟩, hExecute⟩
    obtain ⟨addrs, r, walkEnd, hWalks, -, -⟩ := execute_eq_some_iff.mp hExecute
    exact ⟨addrs, r, walkEnd, hWalks⟩
  · rintro ⟨addrs, r, walkEnd, hWalks⟩
    exact ⟨_, execute_eq_some_iff.mpr ⟨addrs, r, walkEnd, hWalks, rfl, rfl⟩⟩

end Interpreter
end HostCalls
