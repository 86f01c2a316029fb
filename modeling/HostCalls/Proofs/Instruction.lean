import HostCalls.Instruction
import HostCalls.Proofs.Word

/-!
# Where a jump leads

A jump word keeps bits 27 to 2 of its target; everything else of the address that it leads to comes
from the place of the jump. So a target may be lost in a word, but a word is never lost in a target.

* `segmentTarget_jumpWord_eq_iff`: the targets that are reached are those that are aligned and share
  the segment of the delay slot.
* `jumpWord_segmentTarget`: what a jump leads to is written as the word of the jump again.
* `jumps_are_read_back` puts both together, for every place and every word.
-/

namespace HostCalls

/-- The number of the 256 MiB segment that an address lies in. -/
def Addr.segment (a : Addr) : Nat :=
  a.toNat / 2 ^ 28

namespace Instruction

theorem toNat_jumpWord (target : Addr) :
    (jumpWord target).toNat = 2 ^ 27 + target.toNat % 2 ^ 28 / 2 ^ 2 := by
  have hField : ((target &&& 0x0FFFFFFF) >>> 2 : Word).toNat = target.toNat % 2 ^ 28 / 2 ^ 2 := by
    rw [Word.toNat_shiftRight 2 rfl (by omega), Word.toNat_and_low 28 rfl]
  have hClass : (jumpClass <<< 26 : Word).toNat = 2 ^ 27 := by decide
  -- the class lies above the 26 bits of the field
  unfold jumpWord
  rw [Word.toNat_or 26 (by omega) (by omega), hClass, hField]

theorem toNat_opcodeField (word : Word) : (opcodeField word).toNat = word.toNat / 2 ^ 26 := by
  unfold opcodeField
  rw [Word.toNat_shiftRight 26 rfl (by omega)]

theorem opcodeField_jumpWord (target : Addr) : opcodeField (jumpWord target) = jumpClass := by
  apply UInt32.toNat_inj.mp
  rw [toNat_opcodeField, toNat_jumpWord, show jumpClass.toNat = 2 from rfl]
  omega

theorem toNat_segmentTarget (site : Addr) (word : Word) :
    (segmentTarget site word).toNat =
      2 ^ 28 * (site + size).segment + word.toNat % 2 ^ 26 * 2 ^ 2 := by
  have hSegment : ((site + size) &&& (0xF0000000 : Word)).toNat =
      2 ^ 28 * (site + size).segment :=
    Word.toNat_and_high 28 rfl (by omega)
  have hField : (word &&& (0x03FFFFFF : Word)).toNat = word.toNat % 2 ^ 26 :=
    Word.toNat_and_low 26 rfl
  have hOffset : ((word &&& (0x03FFFFFF : Word)) <<< (2 : Word)).toNat =
      word.toNat % 2 ^ 26 * 2 ^ 2 := by
    rw [Word.toNat_shiftLeft 2 rfl (by omega) (by omega), hField]
  unfold segmentTarget
  rw [Word.toNat_or 28 (by omega) (by omega), hSegment, hOffset]

theorem jumpTarget?_eq_some_iff {site target : Addr} {word : Word} :
    jumpTarget? site word = some target ↔
      opcodeField word = jumpClass ∧ segmentTarget site word = target := by
  unfold jumpTarget?
  split
  · rename_i hClass
    rw [Option.some.injEq, and_iff_right hClass]
  · rename_i hClass
    exact ⟨nofun, fun h => absurd h.1 hClass⟩

theorem jumpTarget?_jumpWord (site target : Addr) :
    jumpTarget? site (jumpWord target) = some (segmentTarget site (jumpWord target)) := by
  unfold jumpTarget?
  rw [if_pos (opcodeField_jumpWord target)]

/-- A jump leads to its target if the target is a multiple of four and lies in the segment of the
delay slot, and somewhere else otherwise. -/
theorem segmentTarget_jumpWord_eq_iff (site target : Addr) :
    segmentTarget site (jumpWord target) = target ↔
      target.toNat % 4 = 0 ∧ target.segment = (site + size).segment := by
  rw [← UInt32.toNat_inj, toNat_segmentTarget, toNat_jumpWord]
  unfold Addr.segment
  omega

/-- The field of a jump lies in the bits of the address that its word keeps. -/
theorem jumpWord_segmentTarget {word : Word} (site : Addr) (hClass : opcodeField word = jumpClass) :
    jumpWord (segmentTarget site word) = word := by
  have hHigh : word.toNat / 2 ^ 26 = 2 := by
    rw [← toNat_opcodeField, hClass]
    rfl
  apply UInt32.toNat_inj.mp
  rw [toNat_jumpWord, toNat_segmentTarget]
  omega

theorem map_jumpWord_jumpTarget? (site : Addr) (word : Word) :
    (jumpTarget? site word).map jumpWord =
      if opcodeField word = jumpClass then some word else none := by
  unfold jumpTarget?
  split
  · rename_i hClass
    rw [Option.map_some, jumpWord_segmentTarget site hClass]
  · rfl

/-- From every place, a jump that was written is read as a jump, and as one to its target exactly if
that is a multiple of four and has the upper four bits of the delay slot, which wraps around behind
the last address. What is read from a word is written as this word again, and something is read from
every word of the class of jumps. -/
theorem jumps_are_read_back (site target : Addr) (word : Word) :
    (∃ reached, jumpTarget? site (jumpWord target) = some reached) ∧
      (jumpTarget? site (jumpWord target) = some target ↔
        target.toNat % 4 = 0 ∧ target.segment = (site + size).segment) ∧
      (∀ reached, jumpTarget? site word = some reached → jumpWord reached = word) ∧
      (jumpTarget? site word).map jumpWord =
        if opcodeField word = jumpClass then some word else none := by
  have hWritten := jumpTarget?_jumpWord site target
  refine ⟨⟨_, hWritten⟩, ?_, ?_, map_jumpWord_jumpTarget? site word⟩
  · rw [hWritten, Option.some.injEq]
    exact segmentTarget_jumpWord_eq_iff site target
  · intro reached hReached
    obtain ⟨hClass, rfl⟩ := jumpTarget?_eq_some_iff.mp hReached
    exact jumpWord_segmentTarget site hClass

/-- Behind the last address begins the lowest segment: a jump in the last word of all reaches it,
and the same jump one word earlier stays in the highest segment. -/
theorem last_jump_is_read_back :
    jumpTarget? 0xFFFFFFFC (jumpWord 0x00001000) = some 0x00001000 ∧
      jumpTarget? 0xFFFFFFF8 (jumpWord 0x00001000) = some 0xF0001000 ∧
      jumpWord 0xF0001000 = jumpWord 0x00001000 := by
  have hReached : jumpTarget? 0xFFFFFFF8 (jumpWord 0x00001000) = some 0xF0001000 := by decide
  obtain ⟨-, hLowest, -, -⟩ := jumps_are_read_back 0xFFFFFFFC 0x00001000 (jumpWord 0x00001000)
  obtain ⟨-, -, hHighest, -⟩ := jumps_are_read_back 0xFFFFFFF8 0x00001000 (jumpWord 0x00001000)
  exact ⟨hLowest.mpr ⟨by decide, by decide⟩, hReached, hHighest 0xF0001000 hReached⟩

theorem decode_returnWord (site : Addr) : decode site returnWord = .ret := by
  unfold decode
  rw [if_pos rfl]

theorem decode_breakWord (site : Addr) : decode site breakWord = .breakpoint := by
  unfold decode
  rw [if_neg (by decide), if_pos rfl]

section Classes

variable {word : Word}

/-- The words that are recognised as a whole are of class zero. -/
theorem ne_of_opcodeField (h : opcodeField word ≠ 0) : word ≠ returnWord ∧ word ≠ breakWord := by
  constructor
  · rintro rfl
    exact h (by decide)
  · rintro rfl
    exact h (by decide)

theorem decode_of_jumpTarget? {site target : Addr} (h : jumpTarget? site word = some target) :
    decode site word = .jump target := by
  obtain ⟨hClass, rfl⟩ := jumpTarget?_eq_some_iff.mp h
  obtain ⟨hReturn, hBreak⟩ := ne_of_opcodeField (hClass ▸ by decide : opcodeField word ≠ 0)
  unfold decode
  rw [if_neg hReturn, if_neg hBreak, if_pos hClass]

theorem decode_of_callClass (site : Addr) (h : opcodeField word = callClass) :
    decode site word = .call (segmentTarget site word) := by
  obtain ⟨hReturn, hBreak⟩ := ne_of_opcodeField (h ▸ by decide : opcodeField word ≠ 0)
  unfold decode
  rw [if_neg hReturn, if_neg hBreak, if_neg (h ▸ by decide), if_pos h]

theorem decode_of_addImmediateClass (site : Addr) (h : opcodeField word = addImmediateClass) :
    decode site word =
      .addImmediate (registerField word 16) (registerField word 21) (signedConstant word) := by
  obtain ⟨hReturn, hBreak⟩ := ne_of_opcodeField (h ▸ by decide : opcodeField word ≠ 0)
  unfold decode
  rw [if_neg hReturn, if_neg hBreak, if_neg (h ▸ by decide), if_neg (h ▸ by decide), if_pos h]

theorem decode_of_other (site : Addr) (hReturn : word ≠ returnWord) (hBreak : word ≠ breakWord)
    (hClass : opcodeField word ∉ [jumpClass, callClass, addImmediateClass]) :
    decode site word = .other := by
  simp only [List.mem_cons, List.not_mem_nil, or_false, not_or] at hClass
  unfold decode
  rw [if_neg hReturn, if_neg hBreak, if_neg hClass.1, if_neg hClass.2.1, if_neg hClass.2.2]

theorem decode_jumpWord (site target : Addr) :
    decode site (jumpWord target) = .jump (segmentTarget site (jumpWord target)) :=
  decode_of_jumpTarget? (jumpTarget?_jumpWord site target)

end Classes

end Instruction
end HostCalls
