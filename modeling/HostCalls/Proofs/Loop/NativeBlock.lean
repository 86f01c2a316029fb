import HostCalls.Loop.NativeBlock

/-!
# Which addresses a block covers

An invalidation drops the blocks that overlap a range, which is a test on the two ends of both. A
block that passes the test covers no address of the range (`clearOf_of_misses`). The converse needs
a block that is not empty and a range that is not (`misses_of_clearOf`): an empty range inside a
block overlaps it.
-/

namespace HostCalls
namespace NativeBlock

/-- Whether an address is one of the block; behind the last address there is none. -/
def Covers (block : NativeBlock) (addr : Addr) : Prop :=
  block.start ≤ addr ∧ addr.toNat < block.start.toNat + block.size.toNat

/-- Whether the block covers no address from `start` up to but not including `stop`. -/
def ClearOf (block : NativeBlock) (start stop : Addr) : Prop :=
  ∀ addr, start ≤ addr → addr < stop → ¬ block.Covers addr

/-- Whether an invalidation of the range from `start` up to `stop` keeps the block. -/
def Misses (block : NativeBlock) (start stop : Addr) : Prop :=
  block.overlaps start stop = false

variable {block : NativeBlock} {start stop : Addr}

theorem overlaps_iff :
    block.overlaps start stop = true ↔ block.start < stop ∧ start < block.stop := by
  unfold overlaps
  rw [Bool.and_eq_true, decide_eq_true_iff, decide_eq_true_iff]

theorem clearOf_of_misses (h : block.Misses start stop) : block.ClearOf start stop := by
  rintro addr hStart hStop ⟨hFrom, hTo⟩
  have hOverlaps : block.overlaps start stop = true := by
    rw [overlaps_iff]
    constructor
    · exact UInt32.lt_of_le_of_lt hFrom hStop
    · refine UInt32.lt_of_le_of_lt hStart ?_
      have hLast : addr.toNat < stop.toNat := UInt32.lt_iff_toNat_lt.mp hStop
      have hBound : stop.toNat < 2 ^ 32 := stop.toNat_lt
      rw [UInt32.lt_iff_toNat_lt, NativeBlock.stop, Addr.toNat_saturatingAdd]
      unfold addrCount
      omega
  rw [Misses, hOverlaps] at h
  cases h

theorem clearOf_of_le (h : stop ≤ start) : block.ClearOf start stop := by
  intro addr hStart hStop _
  exact UInt32.lt_irrefl addr (UInt32.lt_of_lt_of_le hStop (UInt32.le_trans h hStart))

/-- The first address of an overlap is in the block, which it would not be if the block were empty,
and in the range, which it would not be if the range were. -/
theorem misses_of_clearOf (hSize : block.size ≠ 0) (hRange : start < stop)
    (h : block.ClearOf start stop) : block.Misses start stop := by
  rw [Misses, ← Bool.not_eq_true, overlaps_iff]
  rintro ⟨hStart, hStop⟩
  have hPositive : block.size.toNat ≠ 0 := fun hZero => hSize (UInt32.toNat_inj.mp hZero)
  rw [UInt32.lt_iff_toNat_lt, NativeBlock.stop, Addr.toNat_saturatingAdd] at hStop
  by_cases hFirst : block.start ≤ start
  · refine h start (UInt32.le_refl start) hRange ⟨hFirst, ?_⟩
    omega
  · have hBefore : start ≤ block.start := UInt32.le_of_lt (UInt32.not_le.mp hFirst)
    refine h block.start hBefore hStart ⟨UInt32.le_refl block.start, ?_⟩
    omega

end NativeBlock
end HostCalls
