import HostCalls.Machine.FaultyMemory
import HostCalls.Proofs.Linker.Request

/-!
# What is tracked is what is there

The linker remembers what it wrote, and memory holds it. Both may come apart only if a request
tracks a site that it did not write, forgets to track one, or fails halfway. `Mirrored` says that
they do not:

* every tracked site has the two words for what it holds,
* `Mirrored.perform`: one request keeps this, wherever it fails,
* `tracked_sites_mirror_memory`: so does every run that starts with nothing tracked.

The sites that a run brings up must lie far enough apart to have slots of their own, and the
memory must accept the roll-back of a first slot.
-/

namespace HostCalls

namespace Linker

variable {G M : Type} [Memory M] [FaithfulMemory M]

/-- Every tracked site is in memory as it is remembered. -/
def Mirrors (linker : Linker) (m : M) : Prop :=
  ∀ site held, linker.callSite? site = some held → held.Held m site

/-- What a run keeps of the tracked sites: they are among the sites of the run, have both slots
and are in memory as remembered, and the memory is in a state that accepts roll-backs. -/
structure SitesMirrored (addrs : List Addr) (steady : M → Prop) (sites : Table Addr CallSite)
    (m : M) : Prop where
  listed : ∀ {site held}, sites.get? site = some held → site ∈ addrs
  hasSlots : ∀ {site held}, sites.get? site = some held → CallSite.HasSlots site
  held : ∀ {site held}, sites.get? site = some held → held.Held m site
  steady : steady m

namespace SitesMirrored

variable {addrs : List Addr} {steady : M → Prop} {sites : Table Addr CallSite} {m m' : M}
  {site : Addr} {held : CallSite}

theorem insert (h : SitesMirrored addrs steady sites m) (hAccepts : AcceptsRollBack steady)
    (hApart : Addr.AllApart 8 addrs) (hSite : site ∈ addrs)
    (hWrite : CallSite.SlotWrite m site held (.ok ()) m') :
    SitesMirrored addrs steady (sites.insert site held) m' := by
  have hSteady : steady m' := hWrite.steady_after hAccepts h.steady
  refine ⟨fun hThere => ?_, fun hThere => ?_, fun hThere => ?_, hSteady⟩
  · rcases Table.get?_insert_cases hThere with ⟨rfl, -⟩ | ⟨-, hOld⟩
    · exact hSite
    · exact h.listed hOld
  · rcases Table.get?_insert_cases hThere with ⟨rfl, -⟩ | ⟨-, hOld⟩
    · exact hWrite.hasSlots
    · exact h.hasSlots hOld
  · rcases Table.get?_insert_cases hThere with ⟨rfl, rfl⟩ | ⟨hNe, hOld⟩
    · exact hWrite.held_after
    · -- a site other than the written one is apart from it
      exact hWrite.held_of_apart (h.held hOld) (h.hasSlots hOld)
        (hApart _ hSite _ (h.listed hOld) (Ne.symm hNe))

theorem of_error (h : SitesMirrored addrs steady sites m) (hAccepts : AcceptsRollBack steady)
    (hApart : Addr.AllApart 8 addrs) (hSite : site ∈ addrs) {e : Error}
    (hWrite : CallSite.SlotWrite m site held (.error e) m') :
    SitesMirrored addrs steady sites m' := by
  have hSteady : steady m' := hWrite.steady_after hAccepts h.steady
  refine ⟨h.listed, h.hasSlots, fun {other there} hThere => ?_, hSteady⟩
  refine hWrite.held_of_error hAccepts h.steady (h.held hThere) (h.hasSlots hThere) ?_
  by_cases hEq : other = site
  · exact Or.inl hEq
  · exact Or.inr (hApart _ hSite _ (h.listed hThere) (Ne.symm hEq))

/-- Forgetting sites does no harm. -/
theorem mono {fewer : Table Addr CallSite} (h : SitesMirrored addrs steady sites m)
    (hFewer : ∀ {site held}, fewer.get? site = some held → sites.get? site = some held) :
    SitesMirrored addrs steady fewer m :=
  ⟨fun hThere => h.listed (hFewer hThere), fun hThere => h.hasSlots (hFewer hThere),
    fun hThere => h.held (hFewer hThere), h.steady⟩

theorem bindSites (name : String) (nid : Nid) (target : Addr) {waiting : List Addr}
    (h : SitesMirrored addrs steady sites m) (hAccepts : AcceptsRollBack steady)
    (hApart : Addr.AllApart 8 addrs) (hWaiting : ∀ site ∈ waiting, site ∈ addrs) :
    SitesMirrored addrs steady (Linker.bindSites name nid target waiting sites m).value.sites
      (Linker.bindSites name nid target waiting sites m).value.memory := by
  -- each site that is bound leaves other tracked sites and another memory for the rest
  induction waiting generalizing sites m with
  | nil => exact h
  | cons site rest ih =>
      have hSite : site ∈ addrs := hWaiting site List.mem_cons_self
      have hRest : ∀ site ∈ rest, site ∈ addrs :=
        fun other hOther => hWaiting other (List.mem_cons_of_mem _ hOther)
      rw [value_bindSites_cons]
      rcases hWrite : ((CallSite.directJump target).writeSlots m site).value with ⟨e | ⟨⟩, m'⟩
      · exact h.of_error hAccepts hApart hSite (CallSite.slotWrite_of_value hWrite)
      · exact ih (h.insert hAccepts hApart hSite (CallSite.slotWrite_of_value hWrite)) hRest

end SitesMirrored

/-- What a run keeps: the tracked sites are in memory as remembered, and the deferred sites are
among those of the run. -/
structure Mirrored (addrs : List Addr) (steady : M → Prop) (linker : Linker) (m : M) : Prop where
  sites : SitesMirrored addrs steady linker.sites m
  deferred : ∀ {entry}, entry ∈ linker.deferred → entry.site ∈ addrs

namespace Mirrored

variable {addrs : List Addr} {steady : M → Prop} {linker : Linker} {m : M}

theorem mirrors (h : Mirrored addrs steady linker m) : linker.Mirrors m :=
  fun _ _ hThere => h.sites.held hThere

theorem empty (addrs : List Addr) (pruneResolved : Bool) {m : M} (hm : steady m) :
    Mirrored addrs steady (Linker.empty pruneResolved) m where
  sites := ⟨nofun, nofun, nofun, hm⟩
  deferred := nofun

theorem bind (h : Mirrored addrs steady linker m) (hAccepts : AcceptsRollBack steady)
    (hApart : Addr.AllApart 8 addrs) {registry : Registry G} {name : String} {nid : Nid}
    {site : Addr} (hSite : site ∈ addrs) {result : Except Error Unit} {linker' : Linker} {m' : M}
    (hBind : (linker.bind registry m name nid site).value = (result, linker', m')) :
    Mirrored addrs steady linker' m' := by
  cases bindStep_of_value hBind with
  | jumps => exact h
  | deferred =>
      refine ⟨h.sites, fun {entry} hEntry => ?_⟩
      rcases List.mem_append.mp hEntry with hOld | hNew
      · exact h.deferred hOld
      · rw [List.mem_singleton.mp hNew]
        exact hSite
  | bound hNoJump hWanted hWrite =>
      exact ⟨h.sites.insert hAccepts hApart hSite hWrite, h.deferred⟩
  | failed hNoJump hWanted hWrite =>
      exact ⟨h.sites.of_error hAccepts hApart hSite hWrite, h.deferred⟩

theorem resolve (h : Mirrored addrs steady linker m) (hAccepts : AcceptsRollBack steady)
    (hApart : Addr.AllApart 8 addrs) (name : String) (nid : Nid) (target : Addr) :
    Mirrored addrs steady (linker.resolve m name nid target).value.2.1
      (linker.resolve m name nid target).value.2.2 := by
  rw [value_resolve]
  refine ⟨h.sites.bindSites name nid target hAccepts hApart fun site hSite => ?_,
    fun hEntry => h.deferred (mem_of_mem_leftDeferred hEntry)⟩
  obtain ⟨entry, hEntry, -, rfl⟩ := mem_waiting_iff.mp hSite
  exact h.deferred hEntry

/-- One request keeps what is tracked and what is there together, wherever it fails. -/
theorem perform (h : Mirrored addrs steady linker m) (hAccepts : AcceptsRollBack steady)
    (hApart : Addr.AllApart 8 addrs) {request : LinkerRequest G}
    (hNew : ∀ site ∈ request.newSites, site ∈ addrs) :
    Mirrored addrs steady (request.perform linker m).1 (request.perform linker m).2 := by
  cases request with
  | bind registry name nid site =>
      exact h.bind hAccepts hApart (hNew site List.mem_cons_self) rfl
  | resolve name nid target => exact h.resolve hAccepts hApart name nid target
  | release start stop =>
      exact ⟨h.sites.mono callSite?_of_release,
        fun hEntry => h.deferred (mem_deferred_of_release hEntry)⟩
  | restore entries =>
      exact ⟨h.sites, fun hEntry => hNew _ (List.mem_map_of_mem hEntry)⟩
  | load bytes =>
      simp only [LinkerRequest.perform, value_load]
      cases hRead : SavedState.Section.read bytes with
      | error e => exact h
      | ok entries =>
          simp only [LinkerRequest.newSites, hRead] at hNew
          exact ⟨h.sites, fun hEntry => hNew _ (List.mem_map_of_mem hEntry)⟩
  | clear => exact empty addrs linker.pruneResolved h.sites.steady

theorem run (h : Mirrored addrs steady linker m) (hAccepts : AcceptsRollBack steady)
    (hApart : Addr.AllApart 8 addrs) {requests : List (LinkerRequest G)}
    (hNew : ∀ site ∈ requests.flatMap LinkerRequest.newSites, site ∈ addrs) :
    Mirrored addrs steady (LinkerRequest.run linker m requests).1
      (LinkerRequest.run linker m requests).2 := by
  induction requests generalizing linker m with
  | nil => exact h
  | cons request rest ih =>
      rw [List.flatMap_cons] at hNew
      have hFirst : ∀ site ∈ request.newSites, site ∈ addrs :=
        fun site hSite => hNew site (List.mem_append_left _ hSite)
      have hRest : ∀ site ∈ rest.flatMap LinkerRequest.newSites, site ∈ addrs :=
        fun site hSite => hNew site (List.mem_append_right _ hSite)
      exact ih (h.perform hAccepts hApart hFirst) hRest

end Mirrored

/-- After every request of a run that starts with nothing tracked, each tracked site is in memory
as the linker remembers it. -/
theorem tracked_sites_mirror_memory {steady : M → Prop} (hAccepts : AcceptsRollBack steady)
    (pruneResolved : Bool) (m : M) (hm : steady m) (requests : List (LinkerRequest G))
    (hApart : Addr.AllApart 8 (requests.flatMap LinkerRequest.newSites))
    (performed : List (LinkerRequest G)) (hPerformed : performed <+: requests) :
    (LinkerRequest.run (empty pruneResolved) m performed).1.Mirrors
      (LinkerRequest.run (empty pruneResolved) m performed).2 := by
  have hNew : ∀ site ∈ performed.flatMap LinkerRequest.newSites,
      site ∈ requests.flatMap LinkerRequest.newSites := by
    intro site hSite
    obtain ⟨request, hRequest, hSite⟩ := List.mem_flatMap.mp hSite
    exact List.mem_flatMap.mpr ⟨request, hPerformed.subset hRequest, hSite⟩
  exact ((Mirrored.empty _ pruneResolved hm).run hAccepts hApart hNew).mirrors

/-- A run whose last request binds one site and fails at the second slot of the next. -/
def halfResolvedRun : List (LinkerRequest Unit) :=
  [.bind .empty "Guest" 7 0x08800100, .bind .empty "Guest" 7 0x08800108,
    .resolve "Guest" 7 0x08900000]

/-- Memory in which the second slot of the second of these sites cannot be written. -/
def halfWritableMemory : FaultyMemory :=
  (FaultyMemory.zero.put 0x08800108 0x0C001234).follow ⟨[0x0880010C], [], []⟩

/-- The site bound before the failure is tracked and in memory; the other is neither. -/
theorem half_resolved_run_mirrors_memory :
    let after := LinkerRequest.run (empty true) halfWritableMemory halfResolvedRun
    after.1.callSite? 0x08800100 = some (.directJump 0x08900000) ∧
      (CallSite.directJump 0x08900000).Held after.2 0x08800100 ∧
      after.1.callSite? 0x08800108 = none ∧ word after.2 0x08800108 = 0x0C001234 := by
  have hMirrors := tracked_sites_mirror_memory FaultyMemory.acceptsRollBack true
    halfWritableMemory rfl halfResolvedRun (by decide) halfResolvedRun (List.prefix_refl _)
  have hTracked : (LinkerRequest.run (empty true) halfWritableMemory halfResolvedRun).1.callSite?
      0x08800100 = some (.directJump 0x08900000) := by
    decide
  exact ⟨hTracked, hMirrors _ _ hTracked, by decide, by decide⟩

end Linker
end HostCalls
