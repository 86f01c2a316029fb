import HostCalls.Instruction
import HostCalls.Opcode
import HostCalls.Proofs.Word

/-!
# The fields of an opcode

An opcode that is encoded from two indices gives them back, the function index up to its twelve
bits. The word for an absent function is the one with the reserved index, so it is never taken for
a function, and neither is taken for the marker of unbound stubs.

* `toNat_raw_encode` is the encoded word as a number; the other facts follow from it.
* `moduleIndex_encode`, `toNat_funcIndex_encode` and `isInvalid_encode` read an opcode back.
* `isSyscall_iff` says which words the machine takes for a system call.
* `Slot.isEncodedAs_iff`: those are the encoded words, and the indices in such a word are the only
  ones that it is encoded from.
* `syscall_words_are_encoded_slots` adds which of them are invalid.
-/

namespace HostCalls
namespace Opcode

theorem eq_of_toNat_raw {op op' : Opcode} (h : op.raw.toNat = op'.raw.toNat) : op = op' :=
  congrArg Opcode.mk (UInt32.toNat_inj.mp h)

theorem toNat_raw_encode (module : UInt8) (func : UInt16) :
    (encode module func).raw.toNat =
      module.toNat * 2 ^ 18 + func.toNat % 2 ^ 12 * 2 ^ 6 + 12 := by
  have hModuleFits : module.toNat < 2 ^ 8 := module.toNat_lt
  have hModule : (module.toUInt32 <<< 18 : Word).toNat = module.toNat * 2 ^ 18 := by
    rw [Word.toNat_shiftLeft 18 rfl (by omega) (by rw [UInt8.toNat_toUInt32]; omega),
      UInt8.toNat_toUInt32]
  have hFuncField : (func.toUInt32 &&& 0xFFF : Word).toNat = func.toNat % 2 ^ 12 := by
    rw [Word.toNat_and_low 12 rfl, UInt16.toNat_toUInt32]
  have hFunc : ((func.toUInt32 &&& 0xFFF) <<< 6 : Word).toNat = func.toNat % 2 ^ 12 * 2 ^ 6 := by
    rw [Word.toNat_shiftLeft 6 rfl (by omega) (by omega), hFuncField]
  have hTag : tag.toNat = 12 := rfl
  have hLow : ((func.toUInt32 &&& 0xFFF) <<< 6 ||| tag : Word).toNat =
      func.toNat % 2 ^ 12 * 2 ^ 6 + 12 := by
    rw [Word.toNat_or 6 (by omega) (by omega), hFunc, hTag]
  -- the fields from the highest to the lowest
  have hFields : (encode module func).raw =
      module.toUInt32 <<< 18 ||| ((func.toUInt32 &&& 0xFFF) <<< 6 ||| tag) := by
    unfold encode
    rw [UInt32.or_comm tag, UInt32.or_assoc, UInt32.or_comm tag]
  rw [hFields, Word.toNat_or 18 (by omega) (by omega), hModule, hLow]
  omega

theorem toNat_moduleIndex (op : Opcode) :
    op.moduleIndex.toNat = op.raw.toNat / 2 ^ 18 % 2 ^ 8 := by
  unfold moduleIndex
  rw [UInt32.toNat_toUInt8, Word.toNat_and_low 8 rfl, Word.toNat_shiftRight 18 rfl (by omega)]
  omega

theorem toNat_funcIndex (op : Opcode) :
    op.funcIndex.toNat = op.raw.toNat / 2 ^ 6 % 2 ^ 12 := by
  unfold funcIndex
  rw [UInt32.toNat_toUInt16, Word.toNat_and_low 12 rfl, Word.toNat_shiftRight 6 rfl (by omega)]
  omega

theorem toNat_funcIndex_lt (op : Opcode) : op.funcIndex.toNat < 2 ^ 12 := by
  rw [toNat_funcIndex]
  exact Nat.mod_lt _ (by decide)

@[simp] theorem moduleIndex_encode (module : UInt8) (func : UInt16) :
    (encode module func).moduleIndex = module := by
  have hFits : module.toNat < 2 ^ 8 := module.toNat_lt
  apply UInt8.toNat_inj.mp
  rw [toNat_moduleIndex, toNat_raw_encode]
  omega

theorem toNat_funcIndex_encode (module : UInt8) (func : UInt16) :
    (encode module func).funcIndex.toNat = func.toNat % 2 ^ 12 := by
  rw [toNat_funcIndex, toNat_raw_encode]
  omega

/-- A function index of twelve bits is given back. -/
theorem funcIndex_encode {func : UInt16} (module : UInt8) (hFunc : func.toNat < 2 ^ 12) :
    (encode module func).funcIndex = func := by
  apply UInt16.toNat_inj.mp
  rw [toNat_funcIndex_encode, Nat.mod_eq_of_lt hFunc]

theorem absentFunction_eq_encode (module : UInt8) :
    absentFunction module = encode module absentFunc := by
  have hLow : tag ||| ((absentFunc.toUInt32 &&& 0xFFF) <<< 6) = absentWord := by decide
  unfold absentFunction encode
  rw [UInt32.or_assoc, UInt32.or_comm (module.toUInt32 <<< 18), ← UInt32.or_assoc, hLow]

theorem raw_encode_ne_unboundMarker (module : UInt8) (func : UInt16) :
    (encode module func).raw ≠ unboundMarker := by
  intro hEq
  have hNat := congrArg UInt32.toNat hEq
  rw [toNat_raw_encode, show unboundMarker.toNat = 65535 from rfl] at hNat
  -- the lowest six bits differ
  omega

/-- An encoded opcode is invalid only if its function index is the reserved one; the marker of
unbound stubs is never encoded. -/
theorem isInvalid_encode (module : UInt8) (func : UInt16) :
    (encode module func).isInvalid = true ↔ func.toNat % 2 ^ 12 = absentFunc.toNat := by
  have hMarker : (encode module func).raw ≠ unboundMarker := raw_encode_ne_unboundMarker module func
  unfold isInvalid
  rw [Bool.or_eq_true, beq_iff_eq, beq_iff_eq, or_iff_left hMarker, ← UInt16.toNat_inj,
    toNat_funcIndex_encode]

theorem isInvalid_absentFunction (module : UInt8) :
    (absentFunction module).isInvalid = true := by
  rw [absentFunction_eq_encode]
  exact (isInvalid_encode module absentFunc).mpr (by decide)

@[simp] theorem moduleIndex_absentFunction (module : UInt8) :
    (absentFunction module).moduleIndex = module := by
  rw [absentFunction_eq_encode, moduleIndex_encode]

end Opcode

namespace Instruction

/-- The words that raise a system call: the class is zero and the lowest six bits are those of
every opcode. -/
theorem isSyscall_iff (w : Word) :
    isSyscall w = true ↔ w.toNat < 2 ^ 26 ∧ w.toNat % 2 ^ 6 = 12 := by
  have hSplit : w &&& 0xFC00003F = (w &&& 0xFC000000) ||| (w &&& 0x3F) := by
    apply UInt32.toNat_inj.mp
    simp only [UInt32.toNat_and, UInt32.toNat_or]
    rw [← Nat.and_or_distrib_left]
    rfl
  have hHigh : (w &&& 0xFC000000).toNat = 2 ^ 26 * (w.toNat / 2 ^ 26) :=
    Word.toNat_and_high 26 rfl (by omega)
  have hLow : (w &&& 0x3F).toNat = w.toNat % 2 ^ 6 := Word.toNat_and_low 6 rfl
  unfold isSyscall
  rw [beq_iff_eq, ← UInt32.toNat_inj, hSplit,
    Word.toNat_or 26 (by omega) (by omega), hHigh, hLow,
    show (0x0000000C : Word).toNat = 12 from rfl]
  omega

theorem isSyscall_encode (module : UInt8) (func : UInt16) :
    isSyscall (Opcode.encode module func).raw = true := by
  have hFits : module.toNat < 2 ^ 8 := module.toNat_lt
  rw [isSyscall_iff, Opcode.toNat_raw_encode]
  omega

end Instruction

/-- Whether a word is the opcode of a slot, and the opcode has room for the function index. -/
def Slot.IsEncodedAs (s : Slot) (w : Word) : Prop :=
  s.func.toNat < 2 ^ 12 ∧ w = (Opcode.encode s.module s.func).raw

namespace Opcode

/-- An opcode that raises a system call is put together again from its fields. -/
theorem encode_moduleIndex_funcIndex (op : Opcode) (h : Instruction.isSyscall op.raw = true) :
    encode op.moduleIndex op.funcIndex = op := by
  obtain ⟨hClass, hTag⟩ := (Instruction.isSyscall_iff op.raw).mp h
  apply eq_of_toNat_raw
  rw [toNat_raw_encode, toNat_moduleIndex, toNat_funcIndex]
  omega

/-- Twelve bits of the function index count, and all of them do. -/
theorem encode_eq_iff (module : UInt8) (func func' : UInt16) :
    encode module func = encode module func' ↔
      func.toNat % 2 ^ 12 = func'.toNat % 2 ^ 12 := by
  constructor
  · intro hEq
    rw [← toNat_funcIndex_encode module func, hEq, toNat_funcIndex_encode]
  · intro hLow
    apply eq_of_toNat_raw
    rw [toNat_raw_encode, toNat_raw_encode, hLow]

end Opcode

namespace Slot

variable {s : Slot} {w : Word}

/-- The words that slots are encoded as are those of the system calls, and each of them is encoded
from the slot that is read from it. -/
theorem isEncodedAs_iff :
    s.IsEncodedAs w ↔ Instruction.isSyscall w = true ∧ Opcode.slot ⟨w⟩ = s := by
  constructor
  · rintro ⟨hFits, rfl⟩
    refine ⟨Instruction.isSyscall_encode s.module s.func, ?_⟩
    unfold Opcode.slot
    rw [Opcode.moduleIndex_encode, Opcode.funcIndex_encode s.module hFits]
  · rintro ⟨hSyscall, rfl⟩
    have hAgain := Opcode.encode_moduleIndex_funcIndex ⟨w⟩ hSyscall
    exact ⟨Opcode.toNat_funcIndex_lt ⟨w⟩, congrArg Opcode.raw hAgain.symm⟩

theorem IsEncodedAs.isInvalid_iff (h : s.IsEncodedAs w) :
    Opcode.isInvalid ⟨w⟩ = true ↔ s.func = Opcode.absentFunc := by
  obtain ⟨hFits, rfl⟩ := h
  rw [Opcode.isInvalid_encode, Nat.mod_eq_of_lt hFits, UInt16.toNat_inj]

end Slot

namespace Opcode

/-- The words that raise a system call are exactly the opcodes of slots, each the opcode of one slot
only, which is read from it. The invalid ones among them are those of absent functions; the marker
of unbound stubs is not among them. -/
theorem syscall_words_are_encoded_slots (w : Word) :
    (Instruction.isSyscall w = true ↔ ∃ s : Slot, s.IsEncodedAs w) ∧
      (∀ s : Slot, s.IsEncodedAs w →
        (∀ s' : Slot, s'.IsEncodedAs w → s' = s) ∧ slot ⟨w⟩ = s ∧
          (isInvalid ⟨w⟩ = true ↔ s.func = absentFunc) ∧
          (s.func = absentFunc → w = (absentFunction s.module).raw)) ∧
      (∀ module func, (encode module func).raw ≠ unboundMarker) ∧
      ∀ module func func', encode module func = encode module func' ↔
        func.toNat % 2 ^ 12 = func'.toNat % 2 ^ 12 := by
  refine ⟨⟨?_, ?_⟩, ?_, raw_encode_ne_unboundMarker, encode_eq_iff⟩
  · intro hSyscall
    exact ⟨slot ⟨w⟩, Slot.isEncodedAs_iff.mpr ⟨hSyscall, rfl⟩⟩
  · rintro ⟨s, hEncoded⟩
    exact (Slot.isEncodedAs_iff.mp hEncoded).1
  · intro s hEncoded
    have hSlot : slot ⟨w⟩ = s := (Slot.isEncodedAs_iff.mp hEncoded).2
    refine ⟨?_, hSlot, hEncoded.isInvalid_iff, ?_⟩
    · intro s' hOther
      exact (Slot.isEncodedAs_iff.mp hOther).2.symm.trans hSlot
    · intro hAbsent
      rw [absentFunction_eq_encode, ← hAbsent]
      exact hEncoded.2

/-- The highest word of all that raise a system call. -/
theorem highest_syscall_word_is_absent :
    Instruction.isSyscall 0x03FFFFCC = true ∧
      (∀ s : Slot, s.IsEncodedAs 0x03FFFFCC → s = ⟨255, absentFunc⟩) ∧
      isInvalid ⟨0x03FFFFCC⟩ = true ∧ (absentFunction 255).raw = 0x03FFFFCC := by
  have hEncoded : (⟨255, absentFunc⟩ : Slot).IsEncodedAs 0x03FFFFCC := ⟨by decide, by decide⟩
  obtain ⟨hSyscall, hSlots, -, -⟩ := syscall_words_are_encoded_slots 0x03FFFFCC
  obtain ⟨hUnique, -, hInvalid, hAbsent⟩ := hSlots ⟨255, absentFunc⟩ hEncoded
  exact ⟨hSyscall.mpr ⟨_, hEncoded⟩, hUnique, hInvalid.mpr rfl, (hAbsent rfl).symm⟩

end Opcode
end HostCalls
