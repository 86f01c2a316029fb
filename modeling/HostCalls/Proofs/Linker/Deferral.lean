import HostCalls.Proofs.Linker.Redirect
import HostCalls.Proofs.Linker.Tracked

/-!
# Deferring an import that can be bound later

Deferring an import records its site and asks for nothing. Binding it later takes both slots of the
site, so the two ask for different things.

* `deferred_of_binds`: what is deferred after a run of bindings are the imports whose module was
  missing, each with the site that was asked for.
* `resolve_of_acceptsAll`: where every access succeeds, resolving an import binds all its sites, or
  stops at the first that has only one slot.
* `deferred_import_binds_iff` puts these together: resolving an import succeeds, and binds all its
  sites, exactly if none of the bindings that deferred it was of a site at the end of the address
  space. `one_slot_blocks_import` is a run after which it does not.
-/

namespace HostCalls

/-- A request to bind the site of an import with the modules that are registered at the time. -/
structure BindRequest (G : Type) where
  registry : Registry G
  moduleName : String
  nid : Nid
  site : Addr

namespace BindRequest

variable {G : Type}

def toRequest (request : BindRequest G) : LinkerRequest G :=
  .bind request.registry request.moduleName request.nid request.site

/-- The import that is deferred if the site does not jump; none if its module is there. -/
def deferral? (request : BindRequest G) : Option DeferredImport :=
  match Linker.wanted? request.registry request.moduleName request.nid with
  | some _ => none
  | none => some ⟨request.moduleName, request.site, request.nid⟩

theorem site_of_deferral? {request : BindRequest G} {entry : DeferredImport}
    (h : request.deferral? = some entry) : entry.site = request.site := by
  unfold deferral? at h
  split at h
  · cases h
  · cases h
    rfl

end BindRequest

namespace Linker

section Binds

variable {G M : Type} [Memory M] {linker : Linker}

/-- Whether no tracked site jumps. -/
def NoJumps (linker : Linker) : Prop :=
  ∀ site target, linker.callSite? site ≠ some (.directJump target)

/-- What a site is bound to is never a jump. -/
theorem wanted?_ne_directJump {registry : Registry G} {name : String} {nid : Nid} {target : Addr} :
    wanted? registry name nid ≠ some (.directJump target) := by
  unfold wanted?
  split
  · nofun
  · split <;> nofun

theorem NoJumps.perform (h : linker.NoJumps) (m : M) (request : BindRequest G) :
    (request.toRequest.perform linker m).1.NoJumps := by
  intro site target hJump
  rcases tracked_of_perform hJump with hOld | hTracks
  · exact h site target hOld
  · generalize hHeld : CallSite.directJump target = held at hTracks
    cases hTracks with
    | bound hWanted => exact wanted?_ne_directJump (hHeld ▸ hWanted)

/-- A binding defers its import if the module is missing, and changes the deferred imports in no
other case. -/
theorem deferred_perform (h : linker.NoJumps) (m : M) (request : BindRequest G) :
    (request.toRequest.perform linker m).1.deferred =
      linker.deferred ++ request.deferral?.toList := by
  obtain ⟨registry, name, nid, site⟩ := request
  rcases hBind : (linker.bind registry m name nid site).value with ⟨result, linker', m'⟩
  simp only [BindRequest.toRequest, LinkerRequest.perform, hBind, BindRequest.deferral?]
  cases bindStep_of_value hBind with
  | jumps hJump => exact absurd hJump (h site _)
  | deferred hSite hWanted =>
      rw [hWanted]
      rfl
  | bound hSite hWanted hWrite =>
      rw [hWanted]
      exact (List.append_nil _).symm
  | failed hSite hWanted hWrite =>
      rw [hWanted]
      exact (List.append_nil _).symm

/-- What a run of bindings leaves deferred, in the order in which it was asked for. -/
theorem deferred_of_binds (h : linker.NoJumps) (m : M) (requests : List (BindRequest G)) :
    (LinkerRequest.run linker m (requests.map BindRequest.toRequest)).1.deferred =
      linker.deferred ++ requests.filterMap BindRequest.deferral? := by
  induction requests generalizing linker m with
  | nil => exact (List.append_nil _).symm
  | cons request rest ih =>
      rw [List.map_cons, LinkerRequest.run, ih (h.perform m request), deferred_perform h,
        List.append_assoc, List.filterMap_cons]
      cases request.deferral? <;> rfl

/-- The sites that wait for an import are those of the bindings that deferred it. -/
theorem mem_waiting_iff_deferral {requests : List (BindRequest G)}
    (hDeferred : linker.deferred = requests.filterMap BindRequest.deferral?) {name : String}
    {nid : Nid} {site : Addr} :
    site ∈ linker.waiting name nid ↔
      ∃ request ∈ requests, request.deferral? = some ⟨name, site, nid⟩ := by
  rw [mem_waiting_iff, hDeferred]
  constructor
  · rintro ⟨⟨name', site', nid'⟩, hEntry, hFor, rfl⟩
    simp only [DeferredImport.isFor, Bool.and_eq_true, beq_iff_eq] at hFor
    obtain ⟨rfl, rfl⟩ := hFor
    exact List.mem_filterMap.mp hEntry
  · intro hRequest
    refine ⟨_, List.mem_filterMap.mpr hRequest, ?_, rfl⟩
    simp [DeferredImport.isFor]

theorem forall_waiting_iff_deferral {requests : List (BindRequest G)}
    (hDeferred : linker.deferred = requests.filterMap BindRequest.deferral?) {name : String}
    {nid : Nid} {p : Addr → Prop} :
    (∀ site ∈ linker.waiting name nid, p site) ↔ ∀ request ∈ requests,
      request.deferral? = some ⟨name, request.site, nid⟩ → p request.site := by
  constructor
  · intro h request hRequest hDeferral
    exact h _ ((mem_waiting_iff_deferral hDeferred).mpr ⟨request, hRequest, hDeferral⟩)
  · intro h site hSite
    obtain ⟨request, hRequest, hDeferral⟩ := (mem_waiting_iff_deferral hDeferred).mp hSite
    obtain rfl : site = request.site := BindRequest.site_of_deferral? hDeferral
    exact h request hRequest hDeferral

end Binds

section Resolve

variable {M : Type} [Memory M] {linker : Linker} {m : M} {name : String} {nid : Nid}
  {target : Addr}

/-- What resolving an import leaves behind if all its sites are bound. -/
structure BindsAll (linker : Linker) (name : String) (nid : Nid) (target : Addr)
    (result : Except Error Nat) (linker' : Linker) (m' : M) : Prop where
  result_eq : result = .ok (linker.waiting name nid).length
  tracked : ∀ site ∈ linker.waiting name nid,
    linker'.callSite? site = some (.directJump target)
  /-- None of them stays deferred if resolved imports are pruned. -/
  deferred : linker.pruneResolved = true → ∀ entry ∈ linker'.deferred,
    entry.isFor name nid = false
  /-- Memory holds the jumps if the sites do not overlap. -/
  held : ∀ [FaithfulMemory M], Addr.AllApart 8 (linker.waiting name nid) →
    ∀ site ∈ linker.waiting name nid, (CallSite.directJump target).Held m' site

/-- What resolving an import leaves behind if it stops at a site with one slot: the sites in front
of this one are bound, and nothing is done to this one or to those behind it. -/
structure StopsAt (linker : Linker) (name : String) (nid : Nid) (target : Addr)
    (before : List Addr) (site : Addr) (result : Except Error Nat) (linker' : Linker) : Prop where
  exists_behind : ∃ behind, linker.waiting name nid = before ++ site :: behind
  slots : ∀ earlier ∈ before, earlier ≤ 0xFFFFFFFB
  oneSlot : 0xFFFFFFFB < site
  result_eq : result = .error (CallSite.pastEnd site)
  callSite?_eq : ∀ other, linker'.callSite? other =
    if other ∈ before then some (.directJump target) else linker.callSite? other
  deferred_eq : linker'.deferred = linker.leftDeferred name nid before

theorem bindsAll_of_done (hDone : (linker.pass m name nid target).failure = none) :
    let after := (linker.resolve m name nid target).value
    BindsAll linker name nid target after.1 after.2.1 after.2.2 := by
  intro after
  have hValue : after = _ := resolve_of_done hDone
  have hBound : (linker.pass m name nid target).bound = linker.waiting name nid :=
    bound_of_done hDone
  rw [hValue]
  refine ⟨rfl, fun site hSite => ?_, fun hPrune entry hEntry => ?_, fun hApart site hSite => ?_⟩
  · refine (get?_bindSites _ _ _).trans (if_pos ?_)
    rw [← hBound] at hSite
    exact hSite
  · simp only [leftDeferred, hPrune, if_true, prune_waiting, List.mem_filter,
      Bool.not_eq_true'] at hEntry
    exact hEntry.2
  · rw [← hBound] at hSite
    exact (boundTo_of_mem_bound hApart (leavesUnwritten_of_done hDone) site hSite).held

/-- Where every access succeeds, a pass stops at the first site with one slot. -/
theorem exists_stopsAt_of_acceptsAll {ready : M → Prop} (hAccepts : AcceptsAll ready) (hm : ready m)
    (target : Addr) (hOneSlot : ∃ site ∈ linker.waiting name nid, ¬ site ≤ 0xFFFFFFFB) :
    let after := (linker.resolve m name nid target).value
    ∃ before site, StopsAt linker name nid target before site after.1 after.2.1 := by
  intro after
  obtain ⟨hBound, hFailure, -⟩ := bindSites_of_acceptsAll hAccepts name nid target
    (linker.waiting name nid) linker.sites hm
  simp only [CallSite.hasSlots_iff] at hBound hFailure
  obtain ⟨site, hFind⟩ :
      ∃ site, (linker.waiting name nid).find? (¬ · ≤ 0xFFFFFFFB) = some site := by
    refine Option.isSome_iff_exists.mp (List.find?_isSome.mpr ?_)
    simpa using hOneSlot
  -- the sites in front of it have both slots, so they are what the pass binds
  obtain ⟨hSite, before, behind, hSplit, hBefore⟩ := List.find?_eq_some_iff_append.mp hFind
  simp only [decide_eq_true_eq, Bool.not_eq_true', decide_eq_false_iff_not, Decidable.not_not]
    at hSite hBefore
  have hTake : (linker.waiting name nid).takeWhile (· ≤ 0xFFFFFFFB) = before := by
    rw [hSplit, List.takeWhile_append_of_pos (by simpa using hBefore),
      List.takeWhile_cons_of_neg (by simpa using hSite), List.append_nil]
  have hPassBound : (linker.pass m name nid target).bound = before := hBound.trans hTake
  have hPassFailure : (linker.pass m name nid target).failure = some (CallSite.pastEnd site) := by
    rw [pass, hFailure, hFind, Option.map_some]
  have hValue : after = _ := value_resolve linker m name nid target
  rw [hValue, hPassBound, hPassFailure]
  refine ⟨before, site, ⟨behind, hSplit⟩, hBefore, ?_, rfl, fun other => ?_, rfl⟩
  · exact Nat.lt_of_not_le hSite
  · rw [← hPassBound]
    exact get?_bindSites _ _ _

/-- Where every access succeeds, resolving an import succeeds exactly if all its sites have both
slots, and each of the two results says what was bound. -/
theorem resolve_of_acceptsAll {ready : M → Prop} (hAccepts : AcceptsAll ready) (hm : ready m)
    (linker : Linker) (name : String) (nid : Nid) (target : Addr) :
    let after := (linker.resolve m name nid target).value
    ((∃ count, after.1 = .ok count) ↔ ∀ site ∈ linker.waiting name nid, site ≤ 0xFFFFFFFB) ∧
      ((∃ count, after.1 = .ok count) →
        BindsAll linker name nid target after.1 after.2.1 after.2.2) ∧
      ((∃ e, after.1 = .error e) →
        ∃ before site, StopsAt linker name nid target before site after.1 after.2.1) := by
  intro after
  by_cases hSlots : ∀ site ∈ linker.waiting name nid, site ≤ 0xFFFFFFFB
  · obtain ⟨hDone, -⟩ := done_of_acceptsAll hAccepts hm name nid target fun site hSite =>
      CallSite.hasSlots_iff.mpr (hSlots site hSite)
    have hAll := bindsAll_of_done hDone
    refine ⟨⟨fun _ => hSlots, fun _ => ⟨_, hAll.result_eq⟩⟩, fun _ => hAll, ?_⟩
    rintro ⟨e, hError⟩
    cases hError.symm.trans hAll.result_eq
  · have hOneSlot : ∃ site ∈ linker.waiting name nid, ¬ site ≤ 0xFFFFFFFB := by
      simpa using hSlots
    obtain ⟨before, site, hStops⟩ := exists_stopsAt_of_acceptsAll hAccepts hm target hOneSlot
    have hNotOk : ¬ ∃ count, after.1 = .ok count := by
      rintro ⟨count, hOk⟩
      cases hOk.symm.trans hStops.result_eq
    exact ⟨iff_of_false hNotOk hSlots, fun hOk => absurd hOk hNotOk, fun _ => ⟨before, site, hStops⟩⟩

end Resolve

/-- An import that was deferred is bound at all its sites if each has both slots, and at those in
front of the first that has one only if not. -/
theorem deferred_import_binds_iff {G M N : Type} [Memory M] [Memory N] {ready : N → Prop}
    (hAccepts : AcceptsAll ready) (pruneResolved : Bool) (m : M) (requests : List (BindRequest G))
    {n : N} (hn : ready n) (name : String) (nid : Nid) (target : Addr) :
    let linker :=
      (LinkerRequest.run (empty pruneResolved) m (requests.map BindRequest.toRequest)).1
    let after := (linker.resolve n name nid target).value
    linker.deferred = requests.filterMap BindRequest.deferral? ∧
      linker.pruneResolved = pruneResolved ∧
      ((∃ count, after.1 = .ok count) ↔ ∀ request ∈ requests,
        request.deferral? = some ⟨name, request.site, nid⟩ → request.site ≤ 0xFFFFFFFB) ∧
      ((∃ count, after.1 = .ok count) →
        BindsAll linker name nid target after.1 after.2.1 after.2.2) ∧
      ((∃ e, after.1 = .error e) →
        ∃ before site, StopsAt linker name nid target before site after.1 after.2.1) := by
  intro linker after
  have hNoJumps : (empty pruneResolved).NoJumps := nofun
  have hDeferred : linker.deferred = requests.filterMap BindRequest.deferral? :=
    deferred_of_binds hNoJumps m requests
  have hPrune : linker.pruneResolved = pruneResolved := LinkerRequest.pruneResolved_run _ _ _
  obtain ⟨hOk, hAll, hStops⟩ := resolve_of_acceptsAll hAccepts hn linker name nid target
  rw [forall_waiting_iff_deferral hDeferred] at hOk
  exact ⟨hDeferred, hPrune, hOk, hAll, hStops⟩

/-- Bindings that defer one import at two sites, stub one out, and defer another import at a site
with one slot. -/
def mixedBindings : List (BindRequest Unit) :=
  [⟨.empty, "Guest", 7, 0x08800100⟩, ⟨.empty, "Guest", 0, 0x08800108⟩,
    ⟨.empty, "Other", 7, 0xFFFFFFFC⟩, ⟨.empty, "Guest", 7, 0x08800110⟩]

/-- The first import is bound at both its sites. The other stays deferred and is in nobody's way. -/
theorem mixed_bindings_bind_both :
    let linker := (LinkerRequest.run (empty true) partlyReadOnlyMemory
      (mixedBindings.map BindRequest.toRequest)).1
    let after := (linker.resolve FaultyMemory.zero "Guest" 7 0x08900000).value
    after.1 = .ok 2 ∧ after.2.1.callSite? 0x08800100 = some (.directJump 0x08900000) ∧
      after.2.1.callSite? 0x08800110 = some (.directJump 0x08900000) ∧
      after.2.1.deferred = [⟨"Other", 0xFFFFFFFC, 7⟩] := by
  intro linker after
  obtain ⟨hDeferred, -, hIff, hAll, -⟩ := deferred_import_binds_iff FaultyMemory.acceptsAll true
    partlyReadOnlyMemory mixedBindings (n := FaultyMemory.zero) rfl "Guest" 7 0x08900000
  have hBinds := hAll (hIff.mpr (by decide))
  have hWaiting : linker.waiting "Guest" 7 = [0x08800100, 0x08800110] := by decide
  refine ⟨?_, hBinds.tracked _ ?_, hBinds.tracked _ ?_, by decide⟩
  · rw [hBinds.result_eq]
    rfl
  · decide
  · decide

/-- Bindings that defer one import at two sites, the first of which has one slot. -/
def oneSlotBindings : List (BindRequest Unit) :=
  [⟨.empty, "Guest", 7, 0xFFFFFFFC⟩, ⟨.empty, "Guest", 7, 0x08800100⟩]

/-- Both are accepted, and neither can be bound: the first has no second slot, and it comes before
the other in every attempt. -/
theorem one_slot_blocks_import :
    let linker := (LinkerRequest.run (empty true) FaultyMemory.zero
      (oneSlotBindings.map BindRequest.toRequest)).1
    let after := (linker.resolve FaultyMemory.zero "Guest" 7 0x08900000).value
    linker.deferred = [⟨"Guest", 0xFFFFFFFC, 7⟩, ⟨"Guest", 0x08800100, 7⟩] ∧
      after.1 = .error (CallSite.pastEnd 0xFFFFFFFC) ∧ after.2.1 = linker ∧
      after.2.1.callSite? 0x08800100 = none := by
  refine ⟨by decide, rfl, by decide, by decide⟩

end Linker
end HostCalls
