import HostCalls.Proofs.Machine.Interpretation

/-!
# Where a block is cut off

`Ram.compile` reads one word after the other until it has found the end of a block. Here the end is
described by the words themselves, at whatever address the block starts: addresses go around the end
of the address space.

* `Addr.plusWords` and `Addr.consecutive` are the addresses of words behind one another.
* `Ram.EndsFirstAt` says which word is the first to end a block, and `Ram.BlockLength` how many
  words the block then has; `BlockLength.unique`: there is one such number.
* `Ram.compile_eq_cut`: the words that are read are those of the block.
* `Ram.getElem?_code_cut`: the bytes of the code, each by the bits of its word that it has.
* `compile_cuts_at_first_end` puts these together.
-/

namespace HostCalls

namespace Addr

/-- The address `n` words above another one. -/
def plusWords (a : Addr) (n : Nat) : Addr :=
  a + UInt32.ofNat (4 * n)

/-- The addresses of words behind one another, from `a` on. -/
def consecutive (a : Addr) : Nat → List Addr
  | 0 => []
  | n + 1 => a :: consecutive (a + Instruction.size) n

theorem toNat_plusWords (a : Addr) (n : Nat) :
    (a.plusWords n).toNat = (a.toNat + 4 * n) % addrCount := by
  unfold plusWords addrCount
  rw [UInt32.toNat_add, UInt32.toNat_ofNat']
  omega

@[simp] theorem plusWords_zero (a : Addr) : a.plusWords 0 = a :=
  UInt32.add_zero a

theorem plusWords_succ (a : Addr) (n : Nat) :
    a.plusWords (n + 1) = (a + Instruction.size).plusWords n := by
  apply UInt32.toNat_inj.mp
  rw [toNat_plusWords, toNat_plusWords, UInt32.toNat_add, show Instruction.size.toNat = 4 from rfl]
  unfold addrCount
  omega

section Forth

variable {a b : Addr} {n : Nat} {p : Addr → Prop}

/-- What holds of one of the next words holds of the first or of one of the others. -/
theorem exists_plusWords_succ_iff : (∃ i < n + 1, p (a.plusWords i)) ↔
    p a ∨ ∃ i < n, p ((a + Instruction.size).plusWords i) := by
  constructor
  · rintro ⟨i, hi, h⟩
    cases i with
    | zero => exact Or.inl (plusWords_zero a ▸ h)
    | succ i => exact Or.inr ⟨i, Nat.lt_of_succ_lt_succ hi, plusWords_succ a i ▸ h⟩
  · rintro (h | ⟨i, hi, h⟩)
    · exact ⟨0, Nat.succ_pos n, (plusWords_zero a).symm ▸ h⟩
    · exact ⟨i + 1, Nat.succ_lt_succ hi, (plusWords_succ a i).symm ▸ h⟩

theorem forall_plusWords_succ_iff : (∀ i < n + 1, p (a.plusWords i)) ↔
    p a ∧ ∀ i < n, p ((a + Instruction.size).plusWords i) := by
  have hExists := exists_plusWords_succ_iff (a := a) (n := n) (p := fun b => ¬ p b)
  simpa [not_or] using not_congr hExists

theorem length_consecutive (a : Addr) (n : Nat) : (a.consecutive n).length = n := by
  induction n generalizing a with
  | zero => rfl
  | succ n ih => rw [consecutive, List.length_cons, ih]

theorem mem_consecutive_iff : b ∈ a.consecutive n ↔ ∃ i < n, b = a.plusWords i := by
  induction n generalizing a with
  | zero => simp [consecutive]
  | succ n ih => rw [consecutive, List.mem_cons, ih, exists_plusWords_succ_iff]

end Forth

end Addr

namespace Instruction

/-- A word that passes control on: a return, a jump or a call. -/
def Transfers (word : Word) : Prop :=
  word = returnWord ∨ opcodeField word = jumpClass ∨ opcodeField word = callClass

/-- A word behind which no other instruction of its block runs. -/
def EndsBlock (word : Word) : Prop :=
  Transfers word ∨ word = breakWord

instance : DecidablePred Transfers :=
  fun word => inferInstanceAs (Decidable (word = _ ∨ _ ∨ _))

instance : DecidablePred EndsBlock :=
  fun word => inferInstanceAs (Decidable (Transfers word ∨ _))

theorem hasDelaySlot_iff {word : Word} : hasDelaySlot word = true ↔ Transfers word := by
  unfold hasDelaySlot Transfers
  rw [Bool.or_eq_true, Bool.or_eq_true, beq_iff_eq, beq_iff_eq, beq_iff_eq, or_assoc]

theorem not_transfers_breakWord : ¬ Transfers breakWord := by
  rw [← hasDelaySlot_iff]
  decide

end Instruction

namespace Ram

open Instruction (Transfers EndsBlock)

variable {ram : Ram} {pc : Addr} {limit i n m : Nat}

theorem isAligned_plusWords (a : Addr) (n : Nat) : isAligned (a.plusWords n) = isAligned a := by
  unfold isAligned
  rw [Addr.toNat_plusWords]
  unfold addrCount
  congr 1
  omega

/-- The word `i` words above an address is the first one from there on that ends a block. -/
structure EndsFirstAt (ram : Ram) (pc : Addr) (i : Nat) : Prop where
  ends : EndsBlock (ram.word (pc.plusWords i))
  first : ∀ j < i, ¬ EndsBlock (ram.word (pc.plusWords j))

/-- How many words the block at an address has, if the first `limit` words may end it. -/
inductive BlockLength (ram : Ram) (limit : Nat) (pc : Addr) : Nat → Prop
  | breakpoint {i : Nat} (hWithin : i < limit) (hFirst : ram.EndsFirstAt pc i)
      (hBreak : ram.word (pc.plusWords i) = Instruction.breakWord) :
      BlockLength ram limit pc (i + 1)
  /-- A word that passes control on takes its delay slot along. -/
  | transfer {i : Nat} (hWithin : i < limit) (hFirst : ram.EndsFirstAt pc i)
      (hTransfers : Transfers (ram.word (pc.plusWords i))) :
      BlockLength ram limit pc (i + 2)
  | full (hNone : ∀ i < limit, ¬ EndsBlock (ram.word (pc.plusWords i))) :
      BlockLength ram limit pc limit

/-- The block of the first `n` words from an address on. -/
def cut (ram : Ram) (pc : Addr) (n : Nat) : NativeBlock :=
  ⟨pc, UInt32.ofNat (4 * n), (pc.consecutive n).flatMap fun addr => Word.bytes (ram.word addr)⟩

theorem EndsFirstAt.unique (h : ram.EndsFirstAt pc n) (h' : ram.EndsFirstAt pc m) : n = m := by
  rcases Nat.lt_trichotomy n m with hLt | hEq | hGt
  · exact absurd h.ends (h'.first n hLt)
  · exact hEq
  · exact absurd h'.ends (h.first m hGt)

/-- What ends first behind a word that does not end the block ends the block. -/
theorem EndsFirstAt.succ (hGoes : ¬ EndsBlock (ram.word pc))
    (h : ram.EndsFirstAt (pc + Instruction.size) i) : ram.EndsFirstAt pc (i + 1) := by
  refine ⟨Addr.plusWords_succ pc i ▸ h.ends, ?_⟩
  exact (Addr.forall_plusWords_succ_iff (p := fun addr => ¬ EndsBlock (ram.word addr))).mpr
    ⟨hGoes, h.first⟩

namespace BlockLength

theorem unique (h : ram.BlockLength limit pc n) (h' : ram.BlockLength limit pc m) : n = m := by
  cases h with
  | breakpoint hWithin hFirst hBreak =>
      cases h' with
      | breakpoint _ hFirst' _ => rw [hFirst.unique hFirst']
      | transfer _ hFirst' hTransfers =>
          cases hFirst.unique hFirst'
          exact absurd (hBreak ▸ hTransfers) Instruction.not_transfers_breakWord
      | full hNone => exact absurd hFirst.ends (hNone _ hWithin)
  | transfer hWithin hFirst hTransfers =>
      cases h' with
      | breakpoint _ hFirst' hBreak =>
          cases hFirst.unique hFirst'
          exact absurd (hBreak ▸ hTransfers) Instruction.not_transfers_breakWord
      | transfer _ hFirst' _ => rw [hFirst.unique hFirst']
      | full hNone => exact absurd hFirst.ends (hNone _ hWithin)
  | full hNone =>
      cases h' with
      | breakpoint hWithin hFirst' _ => exact absurd hFirst'.ends (hNone _ hWithin)
      | transfer hWithin hFirst' _ => exact absurd hFirst'.ends (hNone _ hWithin)
      | full _ => rfl

theorem pos (h : ram.BlockLength (limit + 1) pc n) : 0 < n := by
  cases h <;> exact Nat.succ_pos _

theorem le (h : ram.BlockLength limit pc n) : n ≤ limit + 1 := by
  cases h <;> omega

/-- A word among those that may end the block does, or none of them and the block has them all. -/
theorem ends_or_full (h : ram.BlockLength limit pc n) :
    (∃ i < limit, i < n ∧ ram.EndsFirstAt pc i) ∨
      (n = limit ∧ ∀ i < limit, ¬ EndsBlock (ram.word (pc.plusWords i))) := by
  cases h with
  | @breakpoint i hWithin hFirst _ => exact Or.inl ⟨i, hWithin, Nat.lt_succ_self i, hFirst⟩
  | @transfer i hWithin hFirst _ => exact Or.inl ⟨i, hWithin, by omega, hFirst⟩
  | full hNone => exact Or.inr ⟨rfl, hNone⟩

/-- Only a delay slot can lie behind the words that may end the block. -/
theorem transfers_of_longest (h : ram.BlockLength (limit + 1) pc (limit + 2)) :
    Transfers (ram.word (pc.plusWords limit)) := by
  cases h with
  | breakpoint hWithin => exact absurd hWithin (Nat.lt_irrefl _)
  | transfer _ _ hTransfers => exact hTransfers

theorem succ (hGoes : ¬ EndsBlock (ram.word pc))
    (h : ram.BlockLength limit (pc + Instruction.size) n) :
    ram.BlockLength (limit + 1) pc (n + 1) := by
  cases h with
  | breakpoint hWithin hFirst hBreak =>
      rw [← Addr.plusWords_succ] at hBreak
      exact .breakpoint (Nat.succ_lt_succ hWithin) (hFirst.succ hGoes) hBreak
  | transfer hWithin hFirst hTransfers =>
      rw [← Addr.plusWords_succ] at hTransfers
      exact .transfer (Nat.succ_lt_succ hWithin) (hFirst.succ hGoes) hTransfers
  | full hNone =>
      refine .full ?_
      exact (Addr.forall_plusWords_succ_iff (p := fun addr => ¬ EndsBlock (ram.word addr))).mpr
        ⟨hGoes, hNone⟩

end BlockLength

theorem endsFirstAt_zero (h : EndsBlock (ram.word pc)) : ram.EndsFirstAt pc 0 :=
  ⟨(Addr.plusWords_zero pc).symm ▸ h, nofun⟩

/-- The words that are read for a block are those that it has. -/
theorem exists_blockWords_eq (ram : Ram) (limit : Nat) (hAligned : isAligned pc = true) :
    ∃ n, ram.BlockLength limit pc n ∧
      ram.blockWords limit pc = .ok ((pc.consecutive n).map ram.word) := by
  -- the address moves on with the words that are left to look at
  induction limit generalizing pc with
  | zero => exact ⟨0, .full nofun, rfl⟩
  | succ limit ih =>
      rw [blockWords_succ hAligned]
      by_cases hTransfers : Transfers (ram.word pc)
      · rw [if_pos (Instruction.hasDelaySlot_iff.mpr hTransfers)]
        refine ⟨2, .transfer (Nat.succ_pos limit) (endsFirstAt_zero (.inl hTransfers)) ?_, rfl⟩
        rwa [Addr.plusWords_zero]
      · rw [if_neg fun h => hTransfers (Instruction.hasDelaySlot_iff.mp h)]
        by_cases hBreak : ram.word pc = Instruction.breakWord
        · rw [if_pos hBreak]
          refine ⟨1, .breakpoint (Nat.succ_pos limit) (endsFirstAt_zero (.inr hBreak)) ?_, rfl⟩
          rwa [Addr.plusWords_zero]
        · rw [if_neg hBreak]
          obtain ⟨n, hLength, hWords⟩ := ih (isAligned_second hAligned)
          rw [hWords]
          exact ⟨n + 1, hLength.succ fun h => h.elim hTransfers hBreak, rfl⟩

theorem compile_eq_cut (ram : Ram) (hAligned : isAligned pc = true) :
    ∃ n, ram.BlockLength 16 pc n ∧ ram.compile pc = .ok (ram.cut pc n) := by
  obtain ⟨n, hLength, hWords⟩ := ram.exists_blockWords_eq longestBlock hAligned
  refine ⟨n, hLength, ?_⟩
  unfold compile
  rw [hWords]
  show Except.ok (NativeBlock.mk _ _ _) = _
  rw [List.length_map, Addr.length_consecutive, List.flatMap_map]
  rfl

theorem toNat_size_cut (ram : Ram) (pc : Addr) (h : n ≤ 17) :
    (ram.cut pc n).size.toNat = 4 * n := by
  show (UInt32.ofNat (4 * n)).toNat = 4 * n
  exact UInt32.toNat_ofNat_of_lt' (show 4 * n < 2 ^ 32 by omega)

theorem length_code_cut (ram : Ram) (pc : Addr) (n : Nat) :
    (ram.cut pc n).code.length = 4 * n := by
  show ((pc.consecutive n).flatMap _).length = 4 * n
  rw [List.length_flatMap]
  simp [List.map_const', Addr.length_consecutive, Nat.mul_comm]

/-- The bytes of each word follow those of the word in front of it. -/
theorem getElem?_code_cut (ram : Ram) (pc : Addr) (hi : i < n) {j : Nat} (hj : j < 4) :
    (ram.cut pc n).code[4 * i + j]? =
      some (ram.word (pc.plusWords i) >>> UInt32.ofNat (8 * j)).toUInt8 := by
  induction n generalizing pc i with
  | zero => exact absurd hi (Nat.not_lt_zero i)
  | succ n ih =>
      show (Word.bytes (ram.word pc) ++ (ram.cut (pc + Instruction.size) n).code)[4 * i + j]? = _
      cases i with
      | zero =>
          rw [List.getElem?_append_left (by rw [Word.length_bytes]; omega), Nat.mul_zero,
            Nat.zero_add, Word.getElem?_bytes _ hj, Addr.plusWords_zero]
      | succ i =>
          rw [List.getElem?_append_right (by rw [Word.length_bytes]; omega), Word.length_bytes,
            show 4 * (i + 1) + j - 4 = 4 * i + j by omega, ih _ (Nat.lt_of_succ_lt_succ hi),
            Addr.plusWords_succ]

/-- A block starts where it was asked for, and consists of the bytes of consecutive words, the
lowest byte of each word first: the words up to the first breakpoint, or to the first word that
passes control on and the slot behind it, or sixteen if none of these ends the block. -/
theorem compile_cuts_at_first_end (ram : Ram) (pc : Addr) (hAligned : isAligned pc = true) :
    ∃ block n, ram.compile pc = .ok block ∧ block.start = pc ∧ block.size.toNat = 4 * n ∧
      block.code.length = 4 * n ∧ 1 ≤ n ∧ n ≤ 17 ∧
      (∀ i < n, ∀ j < 4, block.code[4 * i + j]? =
        some (ram.word (pc.plusWords i) >>> UInt32.ofNat (8 * j)).toUInt8) ∧
      (∀ m, ram.BlockLength 16 pc m ↔ m = n) ∧
      (n = 17 → Transfers (ram.word (pc.plusWords 15))) := by
  obtain ⟨n, hLength, hCompile⟩ := ram.compile_eq_cut hAligned
  have hUnique : ∀ m, ram.BlockLength 16 pc m ↔ m = n :=
    fun m => ⟨fun h => h.unique hLength, fun h => h ▸ hLength⟩
  refine ⟨ram.cut pc n, n, hCompile, rfl, ram.toNat_size_cut pc hLength.le,
    ram.length_code_cut pc n, hLength.pos, hLength.le,
    fun i hi j hj => ram.getElem?_code_cut pc hi hj, hUnique, ?_⟩
  rintro rfl
  exact hLength.transfers_of_longest

/-- A memory in which the last word is a jump and the words in front of it do nothing. -/
def jumpAtEnd : Ram :=
  Ram.zero.put 0xFFFFFFFC (Instruction.jumpWord 0x08804000)

/-- The delay slot of a jump in the last word is the first word of memory, and the seventeenth of
the block. -/
theorem slot_of_last_word_is_first_word :
    let ram := jumpAtEnd.put 0 (Instruction.addImmediateWord 2 0 5)
    ∃ block n, ram.compile 0xFFFFFFC0 = .ok block ∧ n = 17 ∧ block.size.toNat = 68 ∧
      (∀ i < 17, ∀ j < 4, block.code[4 * i + j]? =
        some (ram.word (Addr.plusWords 0xFFFFFFC0 i) >>> UInt32.ofNat (8 * j)).toUInt8) ∧
      (∀ j < 4, block.code[60 + j]? = [0x00, 0x10, 0x20, 0x0A][j]?) ∧
      (∀ j < 4, block.code[64 + j]? = [0x05, 0x00, 0x02, 0x24][j]?) ∧
      Addr.plusWords 0xFFFFFFC0 16 = 0 := by
  intro ram
  obtain ⟨block, n, hCompile, -, hSize, -, -, -, hCode, hUnique, -⟩ :=
    compile_cuts_at_first_end ram 0xFFFFFFC0 (by decide)
  have hFirst : ram.EndsFirstAt 0xFFFFFFC0 15 := ⟨by decide, by decide⟩
  have hLength : 17 = n := (hUnique 17).mp (.transfer (by decide) hFirst (by decide))
  subst hLength
  have hJump : ∀ j < 4, some ((ram.word (Addr.plusWords 0xFFFFFFC0 15)) >>>
      UInt32.ofNat (8 * j)).toUInt8 = [0x00, 0x10, 0x20, 0x0A][j]? := by decide
  have hSlot : ∀ j < 4, some ((ram.word (Addr.plusWords 0xFFFFFFC0 16)) >>>
      UInt32.ofNat (8 * j)).toUInt8 = [0x05, 0x00, 0x02, 0x24][j]? := by decide
  exact ⟨block, 17, hCompile, rfl, hSize, hCode,
    fun j hj => (hCode 15 (by decide) j hj).trans (hJump j hj),
    fun j hj => (hCode 16 (by decide) j hj).trans (hSlot j hj), by decide⟩

end Ram
end HostCalls
