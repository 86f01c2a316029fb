import HostCalls.Machine.FaultyMemory
import HostCalls.Proofs.Instruction
import HostCalls.Proofs.Linker.Request

/-!
# Binding deferred imports to guest code

Resolving an import makes every deferred site of it jump to guest code. A pass that reports no
failure has bound all of them:

* `BoundTo.of_written` and `BoundTo.after_write`: a write binds its site and undoes no other,
* `boundTo_of_mem_bound`: so the sites that a pass binds are bound in the end, if nothing is left of
  a write that fails; without a failure they are all its sites,
* `resolved_sites_jump`: then control that reaches such a site goes to the target exactly if the
  target is aligned and in the segment of the site's second slot.

The linker does not look at the target. `resolved_site_misses_target` is a site that it reports as
bound to one address and that jumps to another.
-/

namespace HostCalls
namespace Linker

variable {M : Type} [Memory M] [FaithfulMemory M]

/-- A site that was made to jump to `target`: it is tracked as such, and memory has the jump. -/
structure BoundTo (target : Addr) (sites : Table Addr CallSite) (m : M) (site : Addr) : Prop where
  tracked : sites.get? site = some (.directJump target)
  hasSlots : CallSite.HasSlots site
  held : (CallSite.directJump target).Held m site

namespace BoundTo

variable {target site other : Addr} {sites : Table Addr CallSite} {m m' : M}

theorem of_written (hWrite : CallSite.SlotWrite m site (.directJump target) (.ok ()) m') :
    BoundTo target (sites.insert site (.directJump target)) m' site where
  tracked := Table.get?_insert_self ..
  hasSlots := hWrite.hasSlots
  held := hWrite.held_after

theorem after_write (h : BoundTo target sites m other)
    (hWrite : CallSite.SlotWrite m site (.directJump target) (.ok ()) m')
    (hApart : site ≠ other → Addr.Apart 8 site other) :
    BoundTo target (sites.insert site (.directJump target)) m' other := by
  by_cases hEq : site = other
  · subst hEq
    exact of_written hWrite
  · refine ⟨?_, h.hasSlots, hWrite.held_of_apart h.held h.hasSlots (hApart hEq)⟩
    rw [Table.get?_insert_of_ne _ _ hEq]
    exact h.tracked

theorem of_same_words (h : BoundTo target sites m site) (hSame : word m' = word m) :
    BoundTo target sites m' site :=
  { h with held := h.held.congr (congrFun hSame _) (congrFun hSame _) }

end BoundTo

/-- Whether nothing is left of the write that ends a pass which makes sites jump to `target`, if one
of them cannot be written. -/
def LeavesUnwritten (target : Addr) : List Addr → M → Prop
  | [], _ => True
  | site :: rest, m =>
      match ((CallSite.directJump target).writeSlots m site).value with
      | (.ok (), m') => LeavesUnwritten target rest m'
      | (.error _, m') => word m' = word m

section Pass

variable {name : String} {nid : Nid} {target : Addr} {waiting : List Addr}
  {sites : Table Addr CallSite} {m : M}

/-- Without a failure there is nothing that could be left of one. -/
theorem leavesUnwritten_of_done
    (hDone : (bindSites name nid target waiting sites m).value.failure = none) :
    LeavesUnwritten target waiting m := by
  induction waiting generalizing sites m with
  | nil => trivial
  | cons site rest ih =>
      rw [value_bindSites_cons] at hDone
      rw [LeavesUnwritten]
      rcases hWrite : ((CallSite.directJump target).writeSlots m site).value with ⟨e | ⟨⟩, m₁⟩
      · rw [hWrite] at hDone
        cases hDone
      · rw [hWrite] at hDone
        exact ih hDone

/-- The rest of a pass keeps the sites bound that it started with. -/
theorem BoundTo.after_bindSites {other : Addr} (h : BoundTo target sites m other)
    (hApart : ∀ site ∈ waiting, site ≠ other → Addr.Apart 8 site other)
    (hLeft : LeavesUnwritten target waiting m) :
    BoundTo target (bindSites name nid target waiting sites m).value.sites
      (bindSites name nid target waiting sites m).value.memory other := by
  induction waiting generalizing sites m with
  | nil => exact h
  | cons site rest ih =>
      rw [value_bindSites_cons]
      rw [LeavesUnwritten] at hLeft
      rcases hWrite : ((CallSite.directJump target).writeSlots m site).value with ⟨e | ⟨⟩, m₁⟩
      · rw [hWrite] at hLeft
        exact h.of_same_words hLeft
      · rw [hWrite] at hLeft
        have hBound : BoundTo target (sites.insert site (.directJump target)) m₁ other :=
          h.after_write (CallSite.slotWrite_of_value hWrite) (hApart site List.mem_cons_self)
        exact ih hBound (fun site hSite => hApart site (List.mem_cons_of_mem _ hSite)) hLeft

/-- The sites that a pass binds are bound in the end, wherever the pass stops. -/
theorem boundTo_of_mem_bound (hApart : Addr.AllApart 8 waiting)
    (hLeft : LeavesUnwritten target waiting m) :
    ∀ site ∈ (bindSites name nid target waiting sites m).value.bound,
      BoundTo target (bindSites name nid target waiting sites m).value.sites
        (bindSites name nid target waiting sites m).value.memory site := by
  induction waiting generalizing sites m with
  | nil => exact nofun
  | cons head rest ih =>
      intro site hMem
      rw [value_bindSites_cons] at hMem ⊢
      rw [LeavesUnwritten] at hLeft
      rcases hWrite : ((CallSite.directJump target).writeSlots m head).value with ⟨e | ⟨⟩, m₁⟩
      · rw [hWrite] at hMem
        cases hMem
      · rw [hWrite] at hMem hLeft
        rcases List.mem_cons.mp hMem with rfl | hLater
        · -- bound by this step; the sites that follow may repeat it
          refine (BoundTo.of_written (CallSite.slotWrite_of_value hWrite)).after_bindSites ?_ hLeft
          intro other hOther hNe
          exact hApart other (List.mem_cons_of_mem _ hOther) _ List.mem_cons_self hNe
        · exact ih (hApart.subset (List.subset_cons_self _ _)) hLeft site hLater

end Pass

section Resolve

variable {linker linker' : Linker} {m m' : M} {name : String} {nid : Nid} {target : Addr}
  {count : Nat}

/-- Resolving without a failure binds every deferred site of the import. -/
theorem boundTo_of_resolve (hApart : Addr.AllApart 8 (linker.deferred.map (·.site)))
    (hResolve : (linker.resolve m name nid target).value = (.ok count, linker', m'))
    {entry : DeferredImport} (hEntry : entry ∈ linker.deferred)
    (hFor : entry.isFor name nid = true) : BoundTo target linker'.sites m' entry.site := by
  obtain ⟨hDone, hSites, hMemory⟩ := pass_of_resolve_ok hResolve
  have hWaiting : linker.waiting name nid ⊆ linker.deferred.map (·.site) := by
    intro site hSite
    obtain ⟨other, hOther, -, rfl⟩ := mem_waiting_iff.mp hSite
    exact List.mem_map_of_mem hOther
  have hBound : entry.site ∈ (linker.pass m name nid target).bound := by
    rw [pass, bound_of_done hDone]
    exact mem_waiting_iff.mpr ⟨entry, hEntry, hFor, rfl⟩
  rw [hSites, hMemory]
  exact boundTo_of_mem_bound (hApart.subset hWaiting) (leavesUnwritten_of_done hDone) _ hBound

/-- Where the deferred sites of an import lead once it is resolved. All of them are tracked as
jumps to the target and hold a jump; it leads to the target exactly if the target is a multiple of
four and lies in the segment of the second slot. -/
theorem resolved_sites_jump (hApart : Addr.AllApart 8 (linker.deferred.map (·.site)))
    (hResolve : (linker.resolve m name nid target).value = (.ok count, linker', m')) :
    ∀ entry ∈ linker.deferred, entry.isFor name nid = true →
      linker'.callSite? entry.site = some (.directJump target) ∧
        (Instruction.jumpTarget? entry.site (word m' entry.site)).isSome ∧
        (Instruction.jumpTarget? entry.site (word m' entry.site) = some target ↔
          target.toNat % 4 = 0 ∧ target.segment = (entry.site + Instruction.size).segment) := by
  intro entry hEntry hFor
  have hBound := boundTo_of_resolve hApart hResolve hEntry hFor
  have hWord : word m' entry.site = Instruction.jumpWord target := hBound.held.1
  rw [hWord, Instruction.jumpTarget?_jumpWord, Option.some.injEq]
  exact ⟨hBound.tracked, rfl, Instruction.segmentTarget_jumpWord_eq_iff _ _⟩

end Resolve

/-- A linker with one deferred import. -/
def oneDeferred (site : Addr) : Linker :=
  (empty true).restoreDeferred [⟨"Guest", site, 7⟩]

/-- A target in the segment of the site is reached. -/
theorem resolved_site_reaches_target :
    let after := ((oneDeferred 0x08800100).resolve FaultyMemory.zero "Guest" 7 0x08900000).value
    Instruction.jumpTarget? 0x08800100 (word after.2.2 0x08800100) = some 0x08900000 := by
  intro after
  have hApart : Addr.AllApart 8 ((oneDeferred 0x08800100).deferred.map (·.site)) := by decide
  have hResolve : ((oneDeferred 0x08800100).resolve FaultyMemory.zero "Guest" 7 0x08900000).value =
      (.ok 1, after.2.1, after.2.2) := rfl
  have hJumps := resolved_sites_jump hApart hResolve _ List.mem_cons_self (by decide)
  exact hJumps.2.2.mpr (by decide)

/-- A target in another segment is reported as bound and not reached. -/
theorem resolved_site_misses_target :
    let after := ((oneDeferred 0x08800100).resolve FaultyMemory.zero "Guest" 7 0x48900000).value
    after.1 = .ok 1 ∧
      after.2.1.callSite? 0x08800100 = some (.directJump 0x48900000) ∧
      Instruction.jumpTarget? 0x08800100 (word after.2.2 0x08800100) = some 0x08900000 :=
  ⟨rfl, by decide, by decide⟩

end Linker
end HostCalls
