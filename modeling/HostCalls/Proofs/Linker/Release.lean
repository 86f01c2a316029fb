import HostCalls.Proofs.Linker.DirectJump
import HostCalls.Proofs.Registry

/-!
# Forgetting a range of addresses

When guest code is unloaded, the linker forgets the call sites and the deferred imports at its
addresses, and nothing else. So a range may be forgotten at once or piece by piece.

* `Released` says what forgetting a range leaves behind, site by site and import by import.
  `Released.unique`: this determines the linker and the number of forgotten records.
* `Released.append`: two ranges that meet are forgotten like the one that they make up.
* `releaseByKey?` goes another way about it: it asks for the tracked sites of the range, which is
  not possible for a reversed range, and drops them one by one. `releaseByKey?_eq` says that it
  never asks in vain, and that the result is the same.
* `release_splits_at_any_address` puts this together. It adds that a forgotten site can be bound,
  also one that jumped to guest code before.
-/

namespace HostCalls

/-- Keeping the entries of some keys hides the others. -/
theorem Table.get?_filter_key {κ α : Type} [Ranked κ] (keep : κ → Bool) (t : Table κ α) (k : κ) :
    (t.filter fun key _ => keep key).get? k = if keep k then t.get? k else none := by
  rw [get?_filter]
  cases keep k <;> cases t.get? k <;> rfl

namespace Linker

/-- The number of tracked sites and deferred imports. -/
def records (linker : Linker) : Nat :=
  linker.sites.size + linker.deferred.length

/-- What is left after a linker has forgotten the addresses from `start` up to but not including
`stop`, and `count` records with them. -/
structure Released (linker : Linker) (start stop : Addr) (count : Nat) (linker' : Linker) :
    Prop where
  callSite?_eq : ∀ site, linker'.callSite? site =
    if start ≤ site ∧ site < stop then none else linker.callSite? site
  /-- The other imports are still deferred, in the same order. -/
  deferred_eq : linker'.deferred =
    linker.deferred.filter fun entry => ¬ (start ≤ entry.site ∧ entry.site < stop)
  pruneResolved_eq : linker'.pruneResolved = linker.pruneResolved
  count_add : count + linker'.records = linker.records

section Unique

variable {linker first last other : Linker} {start mid stop : Addr} {count more : Nat}

theorem Released.unique (h : linker.Released start stop count last)
    (hOther : linker.Released start stop more other) : count = more ∧ last = other := by
  have hSame : last = other := by
    refine eq_of_parts (Table.ext_get? fun site => ?_) ?_ ?_
    · exact (h.callSite?_eq site).trans (hOther.callSite?_eq site).symm
    · exact h.deferred_eq.trans hOther.deferred_eq.symm
    · exact h.pruneResolved_eq.trans hOther.pruneResolved_eq.symm
  refine ⟨?_, hSame⟩
  have hCount := h.count_add.trans hOther.count_add.symm
  rw [hSame] at hCount
  exact Nat.add_right_cancel hCount

/-- A range holds no address, so nothing is forgotten with it, unless its start is below its end. -/
theorem released_of_le (linker : Linker) (h : stop ≤ start) :
    linker.Released start stop 0 linker := by
  have hNone (site : Addr) : ¬ (start ≤ site ∧ site < stop) := by
    rintro ⟨hStart, hStop⟩
    exact UInt32.not_lt.mpr (UInt32.le_trans h hStart) hStop
  refine ⟨fun site => (if_neg (hNone site)).symm, ?_, rfl, Nat.zero_add _⟩
  exact (List.filter_eq_self.mpr fun entry _ => decide_eq_true (hNone entry.site)).symm

/-- An address lies in a range if it lies in one of the two parts. -/
theorem within_iff_of_le (hFirst : start ≤ mid) (hSecond : mid ≤ stop) (a : Addr) :
    start ≤ a ∧ a < stop ↔ (start ≤ a ∧ a < mid) ∨ (mid ≤ a ∧ a < stop) := by
  simp only [UInt32.le_iff_toNat_le, UInt32.lt_iff_toNat_lt] at *
  omega

theorem Released.append (h : linker.Released start mid count first)
    (hNext : first.Released mid stop more last) (hFirst : start ≤ mid) (hSecond : mid ≤ stop) :
    linker.Released start stop (count + more) last := by
  have hWithin := within_iff_of_le hFirst hSecond
  refine ⟨fun site => ?_, ?_, hNext.pruneResolved_eq.trans h.pruneResolved_eq, ?_⟩
  · rw [hNext.callSite?_eq, h.callSite?_eq]
    simp only [hWithin site]
    split
    · rename_i hLater
      rw [if_pos (Or.inr hLater)]
    · rename_i hNotLater
      simp only [hNotLater, or_false]
  · rw [hNext.deferred_eq, h.deferred_eq, List.filter_filter]
    refine List.filter_congr fun entry _ => ?_
    simp only [hWithin entry.site, not_or, Bool.decide_and, Bool.and_comm]
  · have hCount := h.count_add
    have hMore := hNext.count_add
    omega

end Unique

section Release

variable {linker : Linker} {start stop : Addr}

theorem value_release_of_lt (linker : Linker) (h : start < stop) :
    let sites := linker.sites.filter fun site _ => !(start ≤ site && site < stop)
    let deferred := linker.deferred.filter fun entry => !entry.isWithin start stop
    (linker.release start stop).value =
      (linker.sites.size + linker.deferred.length - sites.size - deferred.length,
        { linker with sites := sites, deferred := deferred }) := by
  unfold release
  rw [if_pos h]
  simp only
  split <;> rfl

theorem value_release_of_le (linker : Linker) (h : stop ≤ start) :
    (linker.release start stop).value = (0, linker) := by
  unfold release
  rw [if_neg (UInt32.not_lt.mpr h)]
  rfl

/-- Releasing a range forgets it. -/
theorem released_release (linker : Linker) (start stop : Addr) :
    linker.Released start stop (linker.release start stop).value.1
      (linker.release start stop).value.2 := by
  by_cases hRange : start < stop
  · rw [value_release_of_lt linker hRange]
    refine ⟨fun site => ?_, ?_, rfl, ?_⟩
    · refine (Table.get?_filter_key _ _ _).trans ?_
      simp only [Bool.not_eq_true', ← Bool.decide_and, decide_eq_false_iff_not, ite_not]
      rfl
    · refine List.filter_congr fun entry _ => ?_
      simp only [DeferredImport.isWithin, ← Bool.decide_and, decide_not]
    · have hSites := linker.sites.size_filter_add fun site _ => !(start ≤ site && site < stop)
      have hDeferred := linker.deferred.length_filter_le fun entry => !entry.isWithin start stop
      simp only [records]
      omega
  · rw [value_release_of_le linker (UInt32.not_lt.mp hRange)]
    exact linker.released_of_le (UInt32.not_lt.mp hRange)

/-- The tracked sites from `start` up to but not including `stop`; there is no asking for a range
whose start lies behind its end. -/
def sitesWithin? (linker : Linker) (start stop : Addr) : Option (List Addr) :=
  if stop < start then none
  else some ((linker.sites.entries.map Prod.fst).filter fun site => start ≤ site && site < stop)

/-- A table of sites without some of them, which are dropped one by one. -/
def dropEach (sites : Table Addr CallSite) (doomed : List Addr) : Table Addr CallSite :=
  doomed.foldl (fun sites site => sites.filter fun other _ => other != site) sites

/-- Forgets a range by dropping one tracked site after the other, and by keeping the imports on
either side of the range. -/
def releaseByKey? (linker : Linker) (start stop : Addr) : Option (Nat × Linker) :=
  if stop ≤ start then some (0, linker)
  else (linker.sitesWithin? start stop).map fun doomed =>
    let sites := dropEach linker.sites doomed
    let deferred := linker.deferred.filter fun entry => entry.site < start || stop ≤ entry.site
    (linker.records - sites.size - deferred.length,
      { linker with sites := sites, deferred := deferred })

theorem get?_dropEach (sites : Table Addr CallSite) (doomed : List Addr) (site : Addr) :
    (dropEach sites doomed).get? site = if site ∈ doomed then none else sites.get? site := by
  induction doomed generalizing sites with
  | nil => rfl
  | cons head rest ih =>
      have hHead := ih (sites.filter fun other _ => other != head)
      refine hHead.trans ?_
      rw [Table.get?_filter_key]
      by_cases hEq : site = head
      · simp [hEq]
      · simp [hEq]

theorem mem_keys_of_get? {sites : Table Addr CallSite} {site : Addr} {held : CallSite}
    (h : sites.get? site = some held) : site ∈ sites.entries.map Prod.fst :=
  List.mem_map.mpr ⟨(site, held), Table.get?_eq_some_iff.mp h, rfl⟩

theorem dropEach_keys_within (sites : Table Addr CallSite) (start stop : Addr) :
    dropEach sites
        ((sites.entries.map Prod.fst).filter fun site => start ≤ site && site < stop) =
      sites.filter fun site _ => !(start ≤ site && site < stop) := by
  refine Table.ext_get? fun site => ?_
  rw [get?_dropEach, Table.get?_filter_key]
  cases hSite : sites.get? site with
  | none => simp only [ite_self]
  | some held =>
      have hKey := mem_keys_of_get? hSite
      simp only [List.mem_filter, hKey, true_and, Bool.not_eq_true']
      cases (start ≤ site && site < stop : Bool) <;> rfl

/-- The sites of a reversed range are never asked for, and dropping sites one by one comes to the
same as releasing their range. -/
theorem releaseByKey?_eq (linker : Linker) (start stop : Addr) :
    linker.releaseByKey? start stop = some (linker.release start stop).value := by
  unfold releaseByKey?
  split
  · rename_i hLe
    rw [value_release_of_le linker hLe]
  · rename_i hNotLe
    have hRange : start < stop := UInt32.not_le.mp hNotLe
    rw [value_release_of_lt linker hRange, sitesWithin?,
      if_neg (UInt32.not_lt.mpr (UInt32.le_of_lt hRange)), Option.map_some]
    have hDeferred : (linker.deferred.filter fun entry => entry.site < start || stop ≤ entry.site) =
        linker.deferred.filter fun entry => !entry.isWithin start stop := by
      refine List.filter_congr fun entry _ => ?_
      simp only [DeferredImport.isWithin, Bool.not_and, ← decide_not, UInt32.not_le, UInt32.not_lt]
    simp only [dropEach_keys_within, hDeferred, records]

end Release

section Rebind

variable {G M : Type} [Memory M] [FaithfulMemory M]

/-- What binding a function of a registered module to a site does if the site is free for it. -/
structure TakesStub (linker : Linker) (registry : Registry G) (m : M) (name : String) (nid : Nid)
    (site : Addr) : Prop where
  /-- The stub is written and, if that succeeds, tracked. -/
  bind_eq : (linker.bind registry m name nid site).value =
    (linker.hold m site (.stub (registry.opcodeFor name nid).value)).value
  /-- It does succeed at a site with both slots, where every access does. -/
  bound : ∀ {ready : M → Prop}, AcceptsAll ready → ready m → CallSite.HasSlots site →
    ∃ m', (linker.bind registry m name nid site).value =
        (.ok (), linker.track site (.stub (registry.opcodeFor name nid).value), m') ∧
      (CallSite.stub (registry.opcodeFor name nid).value).Held m' site

/-- A site about which nothing is known is free. -/
theorem takesStub_of_untracked {linker : Linker} {site : Addr}
    (hSite : linker.callSite? site = none) (registry : Registry G) (m : M) {name : String}
    {nid : Nid} (hNid : nid ≠ 0) (hModule : (registry.moduleIndex? name).isSome) :
    linker.TakesStub registry m name nid site := by
  have hWanted : wanted? registry name nid =
      some (.stub (registry.opcodeFor name nid).value) := by
    unfold wanted?
    rw [if_neg hNid, if_pos hModule]
  have hBind : (linker.bind registry m name nid site).value =
      (linker.hold m site (.stub (registry.opcodeFor name nid).value)).value := by
    rw [value_bind_eq linker registry m name nid site (by simp [hSite]), hWanted]
  refine ⟨hBind, fun hAccepts hm hSlots => ?_⟩
  obtain ⟨m', hWrite, -⟩ := CallSite.exists_writeSlots_of_acceptsAll hAccepts hm hSlots
    (.stub (registry.opcodeFor name nid).value)
  refine ⟨m', ?_, (CallSite.slotWrite_of_value hWrite).held_after⟩
  rw [hBind, value_hold, hWrite]

end Rebind

/-- A range of addresses may be released piece by piece. -/
theorem release_splits_at_any_address (linker : Linker) {start mid stop : Addr}
    (hFirst : start ≤ mid) (hSecond : mid ≤ stop) :
    let first := (linker.release start mid).value
    let second := (first.2.release mid stop).value
    let whole := (linker.release start stop).value
    whole = (first.1 + second.1, second.2) ∧
      (∀ low high, let after := (linker.release low high).value
        linker.Released low high after.1 after.2 ∧ (high ≤ low → after = (0, linker)) ∧
          linker.releaseByKey? low high = some after) ∧
      ∀ {G M : Type} [Memory M] [FaithfulMemory M] (registry : Registry G) (m : M) (name : String)
        (nid : Nid) (site : Addr), nid ≠ 0 → (registry.moduleIndex? name).isSome →
        start ≤ site → site < stop → whole.2.TakesStub registry m name nid site := by
  intro first second whole
  have hWhole := released_release linker start stop
  have hParts := (released_release linker start mid).append (released_release first.2 mid stop)
    hFirst hSecond
  obtain ⟨hCount, hLinker⟩ := hWhole.unique hParts
  refine ⟨Prod.ext hCount hLinker, fun low high => ?_, ?_⟩
  · exact ⟨released_release linker low high, value_release_of_le linker,
      releaseByKey?_eq linker low high⟩
  · intro G M _ _ registry m name nid site hNid hModule hStart hStop
    have hUntracked : whole.2.callSite? site = none :=
      (hWhole.callSite?_eq site).trans (if_pos ⟨hStart, hStop⟩)
    exact takesStub_of_untracked hUntracked registry m hNid hModule

/-- A jump and a stubbed-out import, with deferred imports in between and behind them. -/
def unloadedLinker : Linker :=
  let sites := ((empty true).track 0x08800100 (.directJump 0x08900000)).track 0x08800108 .patchedOut
  sites.restoreDeferred
    [⟨"Guest", 0x08800110, 7⟩, ⟨"Other", 0x08800104, 9⟩, ⟨"Guest", 0x08800108, 7⟩]

/-- A module with one function, which has no body. -/
def lateModule : Registry Unit :=
  Registry.empty.registerAll [("Guest", [⟨7, "sleep", none⟩])]

/-- The second part begins with the second site. What it ends with is not forgotten, and the site
that jumped, which could not be bound, is bound. -/
theorem released_jump_is_bound_again :
    let first := (unloadedLinker.release 0x08800100 0x08800108).value
    let second := (first.2.release 0x08800108 0x08800110).value
    let whole := (unloadedLinker.release 0x08800100 0x08800110).value
    (first.1 = 2 ∧ second.1 = 2 ∧ whole = (4, second.2)) ∧
      whole.2.deferred = [⟨"Guest", 0x08800110, 7⟩] ∧
      (unloadedLinker.bind lateModule FaultyMemory.zero "Guest" 7 0x08800100).value =
        (.ok (), unloadedLinker, FaultyMemory.zero) ∧
      ∃ m', (whole.2.bind lateModule FaultyMemory.zero "Guest" 7 0x08800100).value =
          (.ok (), whole.2.track 0x08800100 (.stub (.encode 0 0)), m') ∧
        (CallSite.stub (.encode 0 0)).Held m' 0x08800100 := by
  intro first second whole
  obtain ⟨hWhole, hReleased, hTakes⟩ := release_splits_at_any_address unloadedLinker
    (show (0x08800100 : Addr) ≤ 0x08800108 by decide)
    (show (0x08800108 : Addr) ≤ 0x08800110 by decide)
  obtain ⟨hParts, -, -⟩ := hReleased 0x08800100 0x08800110
  have hTakesStub := hTakes lateModule FaultyMemory.zero "Guest" 7 0x08800100 (by decide)
    (by decide) (by decide) (by decide)
  have hJump : unloadedLinker.callSite? 0x08800100 = some (.directJump 0x08900000) := by decide
  refine ⟨⟨by decide, by decide, hWhole⟩, hParts.deferred_eq, value_bind_of_jump hJump _ _ _ _, ?_⟩
  exact hTakesStub.bound FaultyMemory.acceptsAll rfl (by decide)

end Linker
end HostCalls
