import HostCalls.Machine.FaultyMemory
import HostCalls.Proofs.SavedState.RoundTrip

/-!
# Resolving after a load

A saved state keeps the deferred imports and drops the tracked call sites. Resolving asks for the
deferred imports only, so nobody who resolves imports can tell a linker that loaded a saved state
from the one that saved it.

* `Linker.bindSites_of_sites`: what is tracked has no influence on a pass over deferred sites.
* `Linker.SameDeferred.resolve`: resolving keeps linkers with the same deferred imports alike, also
  where it fails half way.
* `Linker.resolve_after_load`: so a sequence of requests goes the same way on both.
-/

namespace HostCalls

/-- What is seen of a request from outside: its result, and memory and the deferred imports after
it. -/
structure ResolveView (M : Type) where
  result : Except Error Nat
  memory : M
  deferred : List DeferredImport

namespace Linker

variable {M : Type} [Memory M]

/-- Performs requests one after the other, whether they fail or not. -/
def resolveAll (linker : Linker) (m : M) : List ResolveRequest → List (ResolveView M)
  | [] => []
  | request :: rest =>
      let (result, linker', m') :=
        (linker.resolve m request.moduleName request.nid request.target).value
      ⟨result, m', linker'.deferred⟩ :: linker'.resolveAll m' rest

/-- What is tracked has no influence on a pass over deferred sites. -/
theorem bindSites_of_sites (name : String) (nid : Nid) (target : Addr) (waiting : List Addr)
    (sites sites' : Table Addr CallSite) (m : M) :
    let pass := (bindSites name nid target waiting sites m).value
    let pass' := (bindSites name nid target waiting sites' m).value
    pass'.failure = pass.failure ∧ pass'.bound = pass.bound ∧ pass'.memory = pass.memory := by
  induction waiting generalizing sites sites' m with
  | nil => exact ⟨rfl, rfl, rfl⟩
  | cons site rest ih =>
      rw [value_bindSites_cons, value_bindSites_cons]
      rcases ((CallSite.directJump target).writeSlots m site).value with ⟨e | ⟨⟩, m₁⟩
      · exact ⟨rfl, rfl, rfl⟩
      · obtain ⟨hFailure, hBound, hMemory⟩ := ih (sites.insert site (.directJump target))
          (sites'.insert site (.directJump target)) m₁
        exact ⟨hFailure, congrArg (site :: ·) hBound, hMemory⟩

/-- Linkers that agree in everything that resolving asks for. -/
structure SameDeferred (p q : Linker) : Prop where
  deferred : q.deferred = p.deferred
  pruneResolved : q.pruneResolved = p.pruneResolved

namespace SameDeferred

variable {p q : Linker}

theorem pass (h : p.SameDeferred q) (m : M) (name : String) (nid : Nid) (target : Addr) :
    (q.pass m name nid target).failure = (p.pass m name nid target).failure ∧
      (q.pass m name nid target).bound = (p.pass m name nid target).bound ∧
      (q.pass m name nid target).memory = (p.pass m name nid target).memory := by
  have hWaiting : q.waiting name nid = p.waiting name nid := by
    unfold waiting
    rw [h.deferred]
  unfold Linker.pass
  rw [hWaiting]
  exact bindSites_of_sites ..

/-- A request has the same result and the same effect on memory, and leaves linkers behind that
agree. -/
theorem resolve (h : p.SameDeferred q) (m : M) (name : String) (nid : Nid) (target : Addr) :
    let after := (p.resolve m name nid target).value
    let after' := (q.resolve m name nid target).value
    after'.1 = after.1 ∧ after.2.1.SameDeferred after'.2.1 ∧ after'.2.2 = after.2.2 := by
  obtain ⟨hFailure, hBound, hMemory⟩ := h.pass m name nid target
  have hLeft : q.leftDeferred name nid (q.pass m name nid target).bound =
      p.leftDeferred name nid (p.pass m name nid target).bound := by
    unfold leftDeferred
    rw [hBound, h.deferred, h.pruneResolved]
  rw [value_resolve, value_resolve, hFailure, hBound]
  exact ⟨rfl, ⟨hBound ▸ hLeft, h.pruneResolved⟩, hMemory⟩

theorem resolveAll (h : p.SameDeferred q) (m : M) (requests : List ResolveRequest) :
    q.resolveAll m requests = p.resolveAll m requests := by
  induction requests generalizing p q m with
  | nil => rfl
  | cons request rest ih =>
      obtain ⟨hResult, hSame, hMemory⟩ :=
        h.resolve m request.moduleName request.nid request.target
      unfold Linker.resolveAll
      dsimp only
      rw [hResult, hMemory, hSame.deferred, ih hSame]

end SameDeferred

/-- What one linker saved is loaded by another, and from then on no sequence of requests to resolve
imports goes another way there than on the first, on any memory. -/
theorem resolve_after_load (sender receiver : Linker)
    (hPrune : receiver.pruneResolved = sender.pruneResolved) (hFits : sender.DeferredFits) :
    ∃ loaded, (receiver.load sender.save).value = (.ok (), loaded) ∧
      ∀ {M : Type} [Memory M] (m : M) (requests : List ResolveRequest),
        loaded.resolveAll m requests = sender.resolveAll m requests ∧
          loaded.resolveAll (⟨m, []⟩ : Watched M) requests =
            sender.resolveAll (⟨m, []⟩ : Watched M) requests := by
  refine ⟨_, receiver.load_of_own hFits.sectionForm_save, fun m requests => ?_⟩
  have hSame : sender.SameDeferred { receiver with deferred := sender.deferred } := ⟨rfl, hPrune⟩
  exact ⟨hSame.resolveAll m requests, hSame.resolveAll _ requests⟩

/-- A linker with two deferred imports of one function. -/
def twoDeferred : Linker :=
  (empty true).restoreDeferred [⟨"Late", 0x08800100, 7⟩, ⟨"Late", 0x08800200, 7⟩]

/-- A linker that tracks the first site, and defers something else. -/
def otherLinker : Linker :=
  ((empty true).restoreDeferred [⟨"Old", 4, 5⟩]).track 0x08800100 .patchedOut

/-- A pass that fails half way, and the one that goes on with what is left. -/
theorem half_pass_resumes_after_load :
    ∃ loaded, (otherLinker.load twoDeferred.save).value = (.ok (), loaded) ∧
      loaded.callSite? 0x08800100 ≠ twoDeferred.callSite? 0x08800100 ∧
      let m := FaultyMemory.zero.follow { FaultPlan.none with failWrites := [3] }
      let views := loaded.resolveAll (⟨m, []⟩ : Watched FaultyMemory)
        [⟨"Late", 7, 0x08900000⟩, ⟨"Late", 7, 0x08900000⟩]
      views.map (fun view => (view.result.toOption, view.deferred.length,
        view.memory.accesses.length)) = [(none, 1, 5), (some 1, 0, 8)] := by
  have hFits : twoDeferred.DeferredFits := ⟨by decide, by decide⟩
  obtain ⟨loaded, hLoad, hViews⟩ := resolve_after_load twoDeferred otherLinker rfl hFits
  have hLoaded : loaded = { otherLinker with deferred := twoDeferred.deferred } := by
    rw [otherLinker.load_of_own hFits.sectionForm_save] at hLoad
    exact (Prod.mk.inj hLoad).2.symm
  refine ⟨loaded, hLoad, ?_, ?_⟩
  · rw [hLoaded]
    decide
  · intro m views
    rw [show views = _ from (hViews m _).2]
    decide

end Linker
end HostCalls
