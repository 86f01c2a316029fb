import HostCalls.Machine.FaultyMemory
import HostCalls.Proofs.Linker.Redirect
import Mathlib.Data.List.Basic

/-!
# Resolving several imports

Requests for different imports do not get in each other's way, as long as each deferred site belongs
to one import and overlaps no other.

* `Linker.resolveEach` performs requests one after the other, and `ResolvedEach` says what they
  leave behind in terms of what was deferred before the first of them.
* `resolvedEach_of_acceptsAll` is the run, by induction on the requests: the first one binds the
  sites of its import and leaves those of the others waiting (`waiting_of_unresolvedBy`).
* `resolve_order_has_no_effect`: none of this mentions the order of the requests.
-/

namespace HostCalls

namespace DeferredImport

/-- A site waits for one function. -/
theorem eq_of_isFor {name name' : String} {nid nid' : Nid} {entry : DeferredImport}
    (h : entry.isFor name nid = true) (h' : entry.isFor name' nid' = true) :
    name' = name ∧ nid' = nid := by
  simp only [isFor, Bool.and_eq_true, beq_iff_eq] at h h'
  exact ⟨h'.2.symm.trans h.2, h'.1.symm.trans h.1⟩

end DeferredImport

namespace ResolveRequest

/-- Whether two requests name the same import. -/
def SameImport (request other : ResolveRequest) : Prop :=
  request.moduleName = other.moduleName ∧ request.nid = other.nid

/-- Whether a site waits for the import that a request names. -/
def isFor (request : ResolveRequest) (entry : DeferredImport) : Bool :=
  entry.isFor request.moduleName request.nid

/-- The sites that wait for the import that a request names, oldest first. -/
def waiting (linker : Linker) (request : ResolveRequest) : List Addr :=
  linker.waiting request.moduleName request.nid

/-- The jumps that a request asks for. -/
def jumps (linker : Linker) (request : ResolveRequest) : List Jump :=
  (request.waiting linker).map (Jump.mk · request.target)

end ResolveRequest

namespace Linker

/-- What a list of requests leaves behind: the result of each beside it, the linker and the
memory. -/
structure ResolveRun (M : Type) where
  results : List (ResolveRequest × Except Error Nat)
  linker : Linker
  memory : M

/-- Performs requests to resolve imports one after the other, whether they fail or not. -/
def resolveEach {M : Type} [Memory M] (linker : Linker) (m : M) :
    List ResolveRequest → ResolveRun M
  | [] => ⟨[], linker, m⟩
  | request :: rest =>
      let (result, linker', m') :=
        (linker.resolve m request.moduleName request.nid request.target).value
      let run := linker'.resolveEach m' rest
      { run with results := (request, result) :: run.results }

/-- Whether each deferred site belongs to one import, overlaps no other site and has both slots. -/
structure OwnSites (linker : Linker) : Prop where
  sameImport : ∀ entry ∈ linker.deferred, ∀ other ∈ linker.deferred, entry.site = other.site →
    entry.moduleName = other.moduleName ∧ entry.nid = other.nid
  apart : Addr.AllApart 8 (linker.deferred.map (·.site))
  site_le : ∀ entry ∈ linker.deferred, entry.site ≤ 0xFFFFFFFB

namespace OwnSites

variable {linker : Linker}

theorem mono (h : linker.OwnSites) {fewer : Linker} (hFewer : fewer.deferred ⊆ linker.deferred) :
    fewer.OwnSites where
  sameImport entry hEntry other hOther :=
    h.sameImport entry (hFewer hEntry) other (hFewer hOther)
  apart := h.apart.subset (List.map_subset _ hFewer)
  site_le entry hEntry := h.site_le entry (hFewer hEntry)

theorem waiting_subset (linker : Linker) (name : String) (nid : Nid) :
    linker.waiting name nid ⊆ linker.deferred.map (·.site) :=
  List.map_subset _ List.filter_sublist.subset

theorem hasSlots (h : linker.OwnSites) {name : String} {nid : Nid} {site : Addr}
    (hSite : site ∈ linker.waiting name nid) : CallSite.HasSlots site := by
  obtain ⟨entry, hEntry, -, rfl⟩ := mem_waiting_iff.mp hSite
  exact CallSite.hasSlots_iff.mpr (h.site_le entry hEntry)

/-- The jumps of different imports do not overlap. -/
theorem agrees (h : linker.OwnSites) {request other : ResolveRequest}
    (hOther : ¬ request.SameImport other) {jump jump' : Jump} (hJump : jump ∈ request.jumps linker)
    (hJump' : jump' ∈ other.jumps linker) : jump.Agrees jump' := by
  obtain ⟨site, hSite, rfl⟩ := List.mem_map.mp hJump
  obtain ⟨site', hSite', rfl⟩ := List.mem_map.mp hJump'
  refine Or.inr (h.apart _ (waiting_subset _ _ _ hSite) _ (waiting_subset _ _ _ hSite') ?_)
  rintro rfl
  obtain ⟨entry, hEntry, hFor, hEq⟩ := mem_waiting_iff.mp hSite
  obtain ⟨entry', hEntry', hFor', hEq'⟩ := mem_waiting_iff.mp hSite'
  obtain ⟨hName, hNid⟩ := h.sameImport entry hEntry entry' hEntry' (hEq.trans hEq'.symm)
  -- so the one entry waits for both imports
  have hBoth : entry.isFor other.moduleName other.nid = true := by
    unfold DeferredImport.isFor at hFor' ⊢
    rw [hName, hNid]
    exact hFor'
  obtain ⟨hSameName, hSameNid⟩ := DeferredImport.eq_of_isFor hFor hBoth
  exact hOther ⟨hSameName.symm, hSameNid.symm⟩

end OwnSites

section Deferred

variable {name : String} {nid : Nid}

/-- What is left deferred once all requests have succeeded. -/
def unresolvedBy (linker : Linker) (requests : List ResolveRequest) : List DeferredImport :=
  if linker.pruneResolved then
    linker.deferred.filter fun entry => !requests.any (·.isFor entry)
  else linker.deferred

theorem unresolvedBy_subset (linker : Linker) (requests : List ResolveRequest) :
    linker.unresolvedBy requests ⊆ linker.deferred := by
  unfold unresolvedBy
  split
  · exact List.filter_sublist.subset
  · exact List.Subset.refl _

theorem leftDeferred_waiting (linker : Linker) (request : ResolveRequest) :
    linker.leftDeferred request.moduleName request.nid (request.waiting linker) =
      linker.unresolvedBy [request] := by
  unfold leftDeferred unresolvedBy ResolveRequest.waiting
  rw [prune_waiting]
  simp only [List.any_cons, List.any_nil, Bool.or_false, ResolveRequest.isFor]

theorem unresolvedBy_cons {linker after : Linker} (request : ResolveRequest)
    (rest : List ResolveRequest) (hDeferred : after.deferred = linker.unresolvedBy [request])
    (hPrune : after.pruneResolved = linker.pruneResolved) :
    after.unresolvedBy rest = linker.unresolvedBy (request :: rest) := by
  unfold unresolvedBy at hDeferred ⊢
  rw [hPrune, hDeferred]
  split
  · rw [List.filter_filter]
    refine List.filter_congr fun entry _ => ?_
    cases hFor : request.isFor entry <;> simp [hFor]
  · rfl

/-- Resolving an import leaves the sites waiting that wait for another. -/
theorem waiting_of_unresolvedBy {linker after : Linker} {request other : ResolveRequest}
    (hOther : ¬ request.SameImport other)
    (hDeferred : after.deferred = linker.unresolvedBy [request]) :
    other.waiting after = other.waiting linker := by
  unfold ResolveRequest.waiting waiting
  rw [hDeferred, unresolvedBy]
  split
  · rw [List.filter_filter]
    congr 1
    refine List.filter_congr fun entry _ => ?_
    cases hFor : entry.isFor other.moduleName other.nid with
    | false => rfl
    | true =>
        have hNot : request.isFor entry = false := by
          refine Bool.eq_false_iff.mpr fun hBoth => hOther ?_
          exact DeferredImport.eq_of_isFor hFor hBoth
        simp [hNot]
  · rfl

end Deferred

variable {M : Type} [Memory M] [FaithfulMemory M] [CellMemory M]

/-- What requests leave behind that all succeed, in terms of the linker and the memory before. -/
structure ResolvedEach (linker : Linker) (m : M) (requests : List ResolveRequest)
    (run : ResolveRun M) : Prop where
  results_eq : run.results = requests.map fun request => (request,
    .ok (request.waiting linker).length)
  redirected : Redirected (requests.flatMap (·.jumps linker)) linker.sites m run.linker.sites
    run.memory
  deferred_eq : run.linker.deferred = linker.unresolvedBy requests
  pruneResolved_eq : run.linker.pruneResolved = linker.pruneResolved

/-- One request binds the sites of its import, and does nothing else. -/
theorem exists_resolve_of_acceptsAll {ready : M → Prop} (hAccepts : AcceptsAll ready)
    {linker : Linker} {m : M} (hm : ready m) (hOwn : linker.OwnSites) (request : ResolveRequest) :
    ∃ linker' m', (linker.resolve m request.moduleName request.nid request.target).value =
        (.ok (request.waiting linker).length, linker', m') ∧
      Redirected (request.jumps linker) linker.sites m linker'.sites m' ∧
      linker'.deferred = linker.unresolvedBy [request] ∧
      linker'.pruneResolved = linker.pruneResolved ∧ ready m' := by
  obtain ⟨hDone, hReady⟩ := done_of_acceptsAll hAccepts hm request.moduleName request.nid
    request.target fun site hSite => hOwn.hasSlots hSite
  have hJumps := redirected_resolve (hOwn.apart.subset (OwnSites.waiting_subset _ _ _))
    (leavesUnwritten_of_done hDone)
  rw [pass, bound_of_done hDone, resolve_of_done hDone] at hJumps
  exact ⟨_, _, resolve_of_done hDone, hJumps, leftDeferred_waiting linker request, rfl, hReady⟩

theorem resolvedEach_of_acceptsAll {ready : M → Prop} (hAccepts : AcceptsAll ready)
    {linker : Linker} {m : M} (hm : ready m) (hOwn : linker.OwnSites)
    {requests : List ResolveRequest} (hDistinct : requests.Pairwise (¬ ·.SameImport ·)) :
    ResolvedEach linker m requests (linker.resolveEach m requests) := by
  induction requests generalizing linker m with
  | nil =>
      refine ⟨rfl, Redirected.nil rfl, ?_, rfl⟩
      unfold unresolvedBy
      split
      · exact (List.filter_eq_self.mpr fun entry _ => rfl).symm
      · rfl
  | cons request rest ih =>
      obtain ⟨hOthers, hRest⟩ := List.pairwise_cons.mp hDistinct
      obtain ⟨after, m', hResolve, hJumps, hDeferred, hPrune, hReady⟩ :=
        exists_resolve_of_acceptsAll hAccepts hm hOwn request
      have hOwn' : after.OwnSites := hOwn.mono (hDeferred ▸ unresolvedBy_subset linker [request])
      have hRun := ih hReady hOwn' hRest
      -- the first request leaves the sites of the others waiting
      have hWaiting : ∀ other ∈ rest, other.waiting after = other.waiting linker :=
        fun other hOther => waiting_of_unresolvedBy (hOthers other hOther) hDeferred
      have hLater : rest.flatMap (·.jumps after) = rest.flatMap (·.jumps linker) := by
        refine List.flatMap_congr fun other hOther => ?_
        unfold ResolveRequest.jumps
        rw [hWaiting other hOther]
      rw [resolveEach, hResolve]
      refine ⟨?_, ?_, ?_, hRun.pruneResolved_eq.trans hPrune⟩
      · refine congrArg (_ :: ·) (hRun.results_eq.trans ?_)
        refine List.map_congr_left fun other hOther => ?_
        rw [hWaiting other hOther]
      · have hRedirected := hRun.redirected
        rw [hLater] at hRedirected
        refine hJumps.trans hRedirected fun jump hJump other hOther => ?_
        obtain ⟨request', hRequest', hOther⟩ := List.mem_flatMap.mp hOther
        exact hOwn.agrees (hOthers request' hRequest') hJump hOther
      · rw [hRun.deferred_eq]
        exact unresolvedBy_cons request rest hDeferred hPrune

/-- In whatever order imports are resolved, each request binds as many sites, and all of them
together leave the same memory and the same linker behind. -/
theorem resolve_order_has_no_effect {ready : M → Prop} (hAccepts : AcceptsAll ready)
    {linker : Linker} {m : M} (hm : ready m) (hOwn : linker.OwnSites)
    {requests reordered : List ResolveRequest} (hPerm : reordered.Perm requests)
    (hDistinct : requests.Pairwise (¬ ·.SameImport ·)) :
    let run := linker.resolveEach m requests
    let run' := linker.resolveEach m reordered
    word run'.memory = word run.memory ∧ run'.linker = run.linker ∧
      run'.results.Perm run.results ∧
      run.results = requests.map fun request => (request,
        .ok (linker.deferred.countP request.isFor)) := by
  have hSymm : ∀ {request other : ResolveRequest},
      ¬ request.SameImport other → ¬ other.SameImport request :=
    fun hNot hSame => hNot ⟨hSame.1.symm, hSame.2.symm⟩
  have hDistinct' : reordered.Pairwise (¬ ·.SameImport ·) :=
    (hPerm.pairwise_iff hSymm).mpr hDistinct
  have hRun := resolvedEach_of_acceptsAll hAccepts hm hOwn hDistinct
  have hRun' := resolvedEach_of_acceptsAll hAccepts hm hOwn hDistinct'
  obtain ⟨hSites, hWords⟩ := hRun.redirected.unique hRun'.redirected
    (fun jump => (hPerm.flatMap_right _).mem_iff) rfl
  refine ⟨hWords, eq_of_parts hSites ?_ ?_, ?_, ?_⟩
  · rw [hRun.deferred_eq, hRun'.deferred_eq]
    unfold unresolvedBy
    simp only [hPerm.any_eq]
  · rw [hRun.pruneResolved_eq, hRun'.pruneResolved_eq]
  · rw [hRun.results_eq, hRun'.results_eq]
    exact hPerm.map _
  · rw [hRun.results_eq]
    refine List.map_congr_left fun request _ => ?_
    rw [ResolveRequest.waiting, waiting, List.length_map, List.countP_eq_length_filter]
    rfl

/-- Imports that have the module or the identifier in common, one of them deferred twice at a
site. -/
def relatedImports : Linker :=
  (empty true).restoreDeferred
    [⟨"Guest", 0x08800100, 7⟩, ⟨"Guest", 0x08800108, 8⟩, ⟨"Other", 0x08800110, 7⟩,
      ⟨"Guest", 0x08800100, 7⟩, ⟨"Other", 0x08800118, 9⟩]

/-- Requests for three of them, and for one that is not deferred. -/
def relatedRequests : List ResolveRequest :=
  [⟨"Guest", 7, 0x08900000⟩, ⟨"Guest", 8, 0x08900100⟩, ⟨"Other", 7, 0x08900200⟩,
    ⟨"Other", 8, 0x08900300⟩]

/-- The requests in reverse do the same. -/
theorem reversed_requests_bind_the_same :
    let run := relatedImports.resolveEach FaultyMemory.zero relatedRequests
    let run' := relatedImports.resolveEach FaultyMemory.zero relatedRequests.reverse
    word run'.memory = word run.memory ∧ run'.linker = run.linker ∧
      run'.results.Perm run.results ∧
      run.linker.deferred = [⟨"Other", 0x08800118, 9⟩] ∧
      run.linker.callSite? 0x08800110 = some (.directJump 0x08900200) := by
  intro run run'
  have hOwn : relatedImports.OwnSites := ⟨by decide, by decide, by decide⟩
  have hDistinct : relatedRequests.Pairwise (¬ ·.SameImport ·) := by
    simp [relatedRequests, ResolveRequest.SameImport]
  obtain ⟨hWords, hLinker, hResults, -⟩ := resolve_order_has_no_effect FaultyMemory.acceptsAll
    (m := FaultyMemory.zero) rfl hOwn relatedRequests.reverse_perm hDistinct
  exact ⟨hWords, hLinker, hResults, by decide, by decide⟩

end Linker
end HostCalls
