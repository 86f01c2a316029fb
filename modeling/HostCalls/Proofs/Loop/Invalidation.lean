import HostCalls.Machine.Ram
import HostCalls.Proofs.CallSite
import HostCalls.Proofs.Loop.NativeBlock
import HostCalls.Proofs.Loop.Reach

/-!
# What an invalidation drops

Whoever rewrites guest code invalidates its addresses, and no block that covers one of them may
stay. A cache looks at the ends of a range and of its blocks only, and both ends stop short of the
last address of the guest.

* `NativeCache.Dropped` says which blocks are gone from a cache, and that they were counted;
  `dropped_invalidate` is the invalidation by the ends that it looks at.
* `invalidate_drops_covering_iff`: these blocks are the ones that cover an address of the range,
  unless the range has no address and lies inside a block (`reversed_range_drops_block`).
* `overlaps_slots_iff`: a call site is never such a range. If it ends at the last address, its range
  leaves that address out, but no block that starts at a multiple of four covers this one alone.
  So `invalidateCallSite_drops_covering`.
-/

namespace HostCalls

/-- Whether an address is in one of the two slots of a site; behind the last address there is
none. -/
def CallSite.InSlots (site addr : Addr) : Prop :=
  site ≤ addr ∧ addr.toNat < site.toNat + 8

instance (site addr : Addr) : Decidable (CallSite.InSlots site addr) :=
  inferInstanceAs (Decidable (_ ∧ _))

namespace NativeBlock

/-- Whether a block covers an address of some kind. -/
def CoversSome (block : NativeBlock) (kind : Addr → Prop) : Prop :=
  ∃ addr, kind addr ∧ block.Covers addr

/-- Whether a block starts before `stop` and goes on behind `start`. -/
def Straddles (block : NativeBlock) (start stop : Addr) : Prop :=
  block.start < stop ∧ start < block.stop

variable {block : NativeBlock} {start stop site : Addr}

theorem clearOf_iff_not_coversSome :
    block.ClearOf start stop ↔ ¬ block.CoversSome fun addr => start ≤ addr ∧ addr < stop := by
  constructor
  · rintro hClear ⟨addr, ⟨hStart, hStop⟩, hCovers⟩
    exact hClear addr hStart hStop hCovers
  · intro hNone addr hStart hStop hCovers
    exact hNone ⟨addr, ⟨hStart, hStop⟩, hCovers⟩

/-- A block that covers an address of a range overlaps it. -/
theorem overlaps_of_coversSome (h : block.CoversSome fun addr => start ≤ addr ∧ addr < stop) :
    block.overlaps start stop = true := by
  cases hOverlaps : block.overlaps start stop with
  | true => rfl
  | false => exact absurd h (clearOf_iff_not_coversSome.mp (clearOf_of_misses hOverlaps))

/-- A block that is not empty and overlaps a range which is not covers one of its addresses. -/
theorem coversSome_of_overlaps (hSize : block.size ≠ 0) (hRange : start < stop)
    (h : block.overlaps start stop = true) :
    block.CoversSome fun addr => start ≤ addr ∧ addr < stop := by
  refine Classical.byContradiction fun hNone => ?_
  have hMisses : block.overlaps start stop = false :=
    misses_of_clearOf hSize hRange (clearOf_iff_not_coversSome.mpr hNone)
  rw [h] at hMisses
  cases hMisses

theorem not_coversSome_of_le (h : stop ≤ start) :
    ¬ block.CoversSome fun addr => start ≤ addr ∧ addr < stop :=
  clearOf_iff_not_coversSome.mp (clearOf_of_le h)

/-- A block overlaps a range if it covers one of its addresses, or if there is none to cover and the
ends lie the wrong way round inside the block. -/
theorem overlaps_iff_coversSome_or_straddles (hSize : block.size ≠ 0) :
    block.overlaps start stop = true ↔
      (block.CoversSome fun addr => start ≤ addr ∧ addr < stop) ∨
        (stop ≤ start ∧ block.Straddles start stop) := by
  by_cases hRange : start < stop
  · constructor
    · intro hOverlaps
      exact Or.inl (coversSome_of_overlaps hSize hRange hOverlaps)
    · rintro (hCovers | ⟨hReversed, -⟩)
      · exact overlaps_of_coversSome hCovers
      · exact absurd hReversed (UInt32.not_le.mpr hRange)
  · have hReversed : stop ≤ start := UInt32.not_lt.mp hRange
    rw [overlaps_iff]
    constructor
    · intro hStraddles
      exact Or.inr ⟨hReversed, hStraddles⟩
    · rintro (hCovers | ⟨-, hStraddles⟩)
      · exact absurd hCovers (not_coversSome_of_le hReversed)
      · exact hStraddles

/-- The range of a call site is overlapped by the blocks that cover an address of its slots, also if
the last of these addresses is not in the range. -/
theorem overlaps_slots_iff (hSize : block.size ≠ 0)
    (hAligned : Ram.isAligned block.start = true) (hSlots : CallSite.HasSlots site) :
    block.overlaps site (Addr.saturatingAdd site (2 * Instruction.size)) = true ↔
      block.CoversSome (CallSite.InSlots site) := by
  have hStop : (Addr.saturatingAdd site (2 * Instruction.size)).toNat =
      min (site.toNat + 8) (addrCount - 1) :=
    Addr.toNat_saturatingAdd site (2 * Instruction.size)
  have hSite : site.toNat + 4 < addrCount := hSlots
  unfold addrCount at hStop hSite
  constructor
  · intro hOverlaps
    have hRange : site < Addr.saturatingAdd site (2 * Instruction.size) := by
      rw [UInt32.lt_iff_toNat_lt]
      omega
    obtain ⟨addr, ⟨hFrom, hTo⟩, hCovers⟩ := coversSome_of_overlaps hSize hRange hOverlaps
    refine ⟨addr, ⟨hFrom, ?_⟩, hCovers⟩
    rw [UInt32.lt_iff_toNat_lt] at hTo
    omega
  · rintro ⟨addr, ⟨hFrom, hTo⟩, hCoversFrom, hCoversTo⟩
    -- a block that covers the last address covers the three before it, which the range has
    have hMultiple : block.start.toNat % 4 = 0 := beq_iff_eq.mp hAligned
    have hStart : block.start.toNat < 2 ^ 32 := block.start.toNat_lt
    rw [UInt32.le_iff_toNat_le] at hFrom hCoversFrom
    rw [overlaps_iff, UInt32.lt_iff_toNat_lt, UInt32.lt_iff_toNat_lt, hStop, NativeBlock.stop,
      Addr.toNat_saturatingAdd]
    unfold addrCount
    omega

end NativeBlock

namespace NativeCache

/-- From one cache to another, the blocks of which `drops` holds are gone, their number was given
back and added to the count of invalidated blocks, and nothing else is different. -/
structure Dropped (cache : NativeCache) (drops : NativeBlock → Prop) (dropped : Nat)
    (cache' : NativeCache) : Prop where
  get?_iff : ∀ pc block, cache'.get? pc = some block ↔ cache.get? pc = some block ∧ ¬ drops block
  size_add : cache'.size + dropped = cache.size
  invalidated_eq : cache'.invalidated = cache.invalidated + dropped
  hits_eq : cache'.hits = cache.hits
  misses_eq : cache'.misses = cache.misses

variable {cache cache' : NativeCache} {drops drops' : NativeBlock → Prop} {dropped : Nat}

/-- Only what is said of the blocks at hand matters. -/
theorem Dropped.congr (h : Dropped cache drops dropped cache')
    (hDrops : ∀ pc block, cache.get? pc = some block → (drops block ↔ drops' block)) :
    Dropped cache drops' dropped cache' where
  get?_iff pc block := by
    rw [h.get?_iff]
    exact and_congr_right fun hThere => not_congr (hDrops pc block hThere)
  size_add := h.size_add
  invalidated_eq := h.invalidated_eq
  hits_eq := h.hits_eq
  misses_eq := h.misses_eq

/-- Two descriptions of what is gone agree on the blocks that were at hand. -/
theorem Dropped.imp (h : Dropped cache drops dropped cache')
    (h' : Dropped cache drops' dropped cache') {pc : Addr} {block : NativeBlock}
    (hThere : cache.get? pc = some block) (hDrops : drops block) : drops' block := by
  refine Classical.byContradiction fun hKept => ?_
  have hStill : cache'.get? pc = some block := (h'.get?_iff pc block).mpr ⟨hThere, hKept⟩
  exact ((h.get?_iff pc block).mp hStill).2 hDrops

/-- An invalidation drops the blocks that overlap its range. -/
theorem dropped_invalidate (cache : NativeCache) (start stop : Addr) :
    Dropped cache (fun block => block.overlaps start stop = true)
      (cache.invalidate start stop).1 (cache.invalidate start stop).2 where
  get?_iff pc block := by
    show (cache.blocks.filter _).get? pc = some block ↔ _
    rw [Table.get?_filter, Option.filter_eq_some_iff, Bool.not_eq_true', Bool.not_eq_true]
    rfl
  size_add := by
    have hSplit := Table.size_filter_add (fun _ block => !block.overlaps start stop) cache.blocks
    simp only [invalidate, size]
    omega
  invalidated_eq := rfl
  hits_eq := rfl
  misses_eq := rfl

/-- An invalidation drops the blocks that cover an address of its range and no others, exactly
unless the range has no addresses and a block straddles it. Such a block is dropped too. -/
theorem invalidate_drops_covering_iff {cache : NativeCache}
    (hSizes : ∀ pc block, cache.get? pc = some block → block.size ≠ 0) (start stop : Addr) :
    let after := cache.invalidate start stop
    let covering := fun block : NativeBlock =>
      block.CoversSome fun addr => start ≤ addr ∧ addr < stop
    (Dropped cache covering after.1 after.2 ↔ start < stop ∨
        ∀ pc block, cache.get? pc = some block → ¬ block.Straddles start stop) ∧
      Dropped cache (fun block => covering block ∨ (stop ≤ start ∧ block.Straddles start stop))
        after.1 after.2 := by
  intro after covering
  have hDropped : Dropped cache
      (fun block => covering block ∨ (stop ≤ start ∧ block.Straddles start stop))
      after.1 after.2 :=
    (dropped_invalidate cache start stop).congr fun pc block hThere =>
      NativeBlock.overlaps_iff_coversSome_or_straddles (hSizes pc block hThere)
  refine ⟨⟨fun hCovering => ?_, fun hRange => hDropped.congr fun pc block hThere => ?_⟩, hDropped⟩
  · by_cases hRange : start < stop
    · exact Or.inl hRange
    · have hReversed : stop ≤ start := UInt32.not_lt.mp hRange
      refine Or.inr fun pc block hThere hStraddles => ?_
      -- the block is dropped, but there is no address that it could cover
      have hCovers : covering block :=
        hDropped.imp hCovering hThere (Or.inr ⟨hReversed, hStraddles⟩)
      exact NativeBlock.not_coversSome_of_le hReversed hCovers
  · refine or_iff_left ?_
    rintro ⟨hReversed, hStraddles⟩
    rcases hRange with hRange | hNone
    · exact UInt32.not_le.mpr hRange hReversed
    · exact hNone pc block hThere hStraddles

/-- Two blocks, the second of which goes on to the last address of the guest. -/
def lowAndHigh : NativeCache :=
  (NativeCache.empty.insert ⟨0x100, 16, []⟩).insert ⟨0xFFFFFFF0, 32, []⟩

theorem lowAndHigh_cases {pc : Addr} {block : NativeBlock} (h : lowAndHigh.get? pc = some block) :
    block = ⟨0x100, 16, []⟩ ∨ block = ⟨0xFFFFFFF0, 32, []⟩ := by
  rcases Table.get?_insert_cases h with ⟨-, rfl⟩ | ⟨-, hOld⟩
  · exact Or.inr rfl
  · rcases Table.get?_insert_cases hOld with ⟨-, rfl⟩ | ⟨-, hNone⟩
    · exact Or.inl rfl
    · cases hNone

/-- A range that ends with the first address of a block drops it, and leaves the other. -/
theorem last_address_of_range_drops_block :
    let after := lowAndHigh.invalidate 0xFFFFFF00 0xFFFFFFF1
    Dropped lowAndHigh
        (fun block => block.CoversSome fun addr => 0xFFFFFF00 ≤ addr ∧ addr < 0xFFFFFFF1)
        after.1 after.2 ∧
      after.1 = 1 ∧ after.2.get? 0x100 = some ⟨0x100, 16, []⟩ := by
  have hSizes : ∀ pc block, lowAndHigh.get? pc = some block → block.size ≠ 0 := by
    intro pc block hThere
    rcases lowAndHigh_cases hThere with rfl | rfl <;> decide
  exact ⟨(invalidate_drops_covering_iff hSizes _ _).1.mpr (Or.inl (by decide)), by decide,
    by decide⟩

/-- A range whose ends lie the wrong way round covers nothing, and yet the block around it is
dropped. -/
theorem reversed_range_drops_block :
    let after := lowAndHigh.invalidate 0x10C 0x104
    lowAndHigh.get? 0x100 = some ⟨0x100, 16, []⟩ ∧
      (¬ (⟨0x100, 16, []⟩ : NativeBlock).CoversSome fun addr => 0x10C ≤ addr ∧ addr < 0x104) ∧
      after.1 = 1 ∧ after.2.get? 0x100 = none :=
  ⟨by decide, NativeBlock.not_coversSome_of_le (by decide), by decide, by decide⟩

end NativeCache

namespace RunLoop

open NativeCache (lowAndHigh lowAndHigh_cases)

/-- After a call site was invalidated, no block at hand covers an address of its slots, and every
block that covered none is still there. -/
theorem invalidateCallSite_drops_covering {loop : RunLoop} {site : Addr}
    (hSizes : ∀ pc block, loop.cache.get? pc = some block → block.size ≠ 0)
    (hAligned : ∀ pc block, loop.cache.get? pc = some block → Ram.isAligned block.start = true)
    (hSlots : CallSite.HasSlots site) :
    let after := loop.invalidateCallSite site
    loop.cache.Dropped (fun block => block.CoversSome (CallSite.InSlots site)) after.1
        after.2.cache ∧
      after.2 = { loop with cache := after.2.cache } :=
  ⟨(NativeCache.dropped_invalidate loop.cache site _).congr fun pc block hThere =>
    NativeBlock.overlaps_slots_iff (hSizes pc block hThere) (hAligned pc block hThere) hSlots, rfl⟩

/-- The range of a site with the last address leaves this address out, and the block that goes on to
it is dropped all the same. -/
theorem site_at_end_drops_last_block :
    let loop := { bare with cache := lowAndHigh }
    let after := loop.invalidateCallSite 0xFFFFFFFA
    after.1 = 1 ∧ (∀ pc block, after.2.cache.get? pc = some block → ¬ block.Covers 0xFFFFFFFF) ∧
      after.2.cache.get? 0x100 = some ⟨0x100, 16, []⟩ := by
  intro loop after
  have hCases : ∀ pc block, loop.cache.get? pc = some block →
      block.size ≠ 0 ∧ Ram.isAligned block.start = true := by
    intro pc block hThere
    rcases lowAndHigh_cases hThere with rfl | rfl <;> decide
  have hDropped := (invalidateCallSite_drops_covering (fun pc block h => (hCases pc block h).1)
    (fun pc block h => (hCases pc block h).2) (by decide : CallSite.HasSlots 0xFFFFFFFA)).1
  refine ⟨rfl, fun pc block hThere hCovers => ?_, rfl⟩
  exact ((hDropped.get?_iff pc block).mp hThere).2 ⟨0xFFFFFFFF, by decide, hCovers⟩

end RunLoop
end HostCalls
