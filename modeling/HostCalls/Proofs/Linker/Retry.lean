import HostCalls.Proofs.Linker.Redirect

/-!
# Trying again

A resolution that fails halfway may be asked for again, once what made it fail is mended. What it
did before makes no difference then.

* `Attempted` lists what attempts leave behind, made one after the other in memories that may fail
  in other places each time.
* `PartlyResolved`: whatever the attempts did is a part of what the resolution is to do, and
  `PartlyResolved.attempt` is one more attempt.
* `retries_converge`: so the attempt that succeeds leaves behind what a single one would have, were
  the first to succeed.
-/

namespace HostCalls
namespace Linker

variable {M : Type} [Memory M] [FaithfulMemory M]

/-- The linker and the memory after attempts to resolve an import. Roll-backs are accepted, and the
next attempt finds the words that the last one left; which accesses fail may be different. -/
inductive Attempted (linker : Linker) (m : M) (name : String) (nid : Nid) (target : Addr) :
    Linker → M → Prop
  | none {m' : M} (hSame : word m' = word m) : Attempted linker m name nid target linker m'
  | again {before : Linker} {m₁ m₂ : M} (hBefore : Attempted linker m name nid target before m₁)
      (hRollBack : RollBacksAccepted target (before.waiting name nid) m₁)
      (hSame : word m₂ = word (before.resolve m₁ name nid target).value.2.2) :
      Attempted linker m name nid target (before.resolve m₁ name nid target).value.2.1 m₂

variable [CellMemory M] {linker : Linker} {m : M} {name : String} {nid : Nid} {target : Addr}

/-- What is left behind once some of the sites of an import are bound. -/
structure PartlyResolved (linker : Linker) (m : M) (name : String) (nid : Nid) (target : Addr)
    (bound : List Addr) (linker' : Linker) (m' : M) : Prop where
  bound_subset : bound ⊆ linker.waiting name nid
  redirected : Redirected (bound.map (Jump.mk · target)) linker.sites m linker'.sites m'
  deferred_eq : linker'.deferred = linker.leftDeferred name nid bound
  pruneResolved_eq : linker'.pruneResolved = linker.pruneResolved

namespace PartlyResolved

variable {bound : List Addr} {before : Linker} {m₁ m₂ : M}

/-- No site waits now that did not wait at first. -/
theorem waiting_subset (h : PartlyResolved linker m name nid target bound before m₁) :
    before.waiting name nid ⊆ linker.waiting name nid := by
  intro site hSite
  obtain ⟨entry, hEntry, hFor, rfl⟩ := mem_waiting_iff.mp hSite
  rw [h.deferred_eq] at hEntry
  exact mem_waiting_iff.mpr ⟨entry, mem_of_mem_leftDeferred hEntry, hFor, rfl⟩

/-- The sites that wait at first are bound or still wait. -/
theorem mem_append_waiting_iff (h : PartlyResolved linker m name nid target bound before m₁)
    (site : Addr) :
    site ∈ bound ++ before.waiting name nid ↔ site ∈ linker.waiting name nid := by
  rw [List.mem_append]
  constructor
  · rintro (hBound | hWaits)
    · exact h.bound_subset hBound
    · exact h.waiting_subset hWaits
  · intro hSite
    by_cases hBound : site ∈ bound
    · exact Or.inl hBound
    · obtain ⟨entry, hEntry, hFor, rfl⟩ := mem_waiting_iff.mp hSite
      refine Or.inr (mem_waiting_iff.mpr ⟨entry, ?_, hFor, rfl⟩)
      rw [h.deferred_eq]
      exact mem_leftDeferred_of_not_mem hEntry hBound

theorem hasSlots (h : PartlyResolved linker m name nid target bound before m₁) {site : Addr}
    (hSite : site ∈ bound) : CallSite.HasSlots site :=
  (h.redirected.boundTo ⟨site, target⟩ (List.mem_map_of_mem hSite)).hasSlots

/-- The words tell all about a memory that matters here. -/
theorem of_same_words (h : PartlyResolved linker m name nid target bound before m₁)
    (hSame : word m₂ = word m₁) : PartlyResolved linker m name nid target bound before m₂ where
  bound_subset := h.bound_subset
  redirected := by
    have hJumps := h.redirected.trans (Redirected.nil hSame) nofun
    rwa [List.append_nil] at hJumps
  deferred_eq := h.deferred_eq
  pruneResolved_eq := h.pruneResolved_eq

/-- One more attempt binds some of the sites that are left, or all of them. -/
theorem attempt (h : PartlyResolved linker m name nid target bound before m₁)
    (hApart : Addr.AllApart 8 (linker.waiting name nid))
    (hLeft : LeavesUnwritten target (before.waiting name nid) m₁) :
    PartlyResolved linker m name nid target (bound ++ (before.pass m₁ name nid target).bound)
      (before.resolve m₁ name nid target).value.2.1
      (before.resolve m₁ name nid target).value.2.2 where
  bound_subset := by
    intro site hSite
    rcases List.mem_append.mp hSite with hBound | hNew
    · exact h.bound_subset hBound
    · exact h.waiting_subset (mem_waiting_of_mem_bound hNew)
  redirected := by
    rw [List.map_append]
    refine h.redirected.trans (redirected_resolve (hApart.subset h.waiting_subset) hLeft) ?_
    -- both passes make sites of the import jump to the same target
    intro jump hJump other hOther
    obtain ⟨site, hSite, rfl⟩ := List.mem_map.mp hJump
    obtain ⟨site', hSite', rfl⟩ := List.mem_map.mp hOther
    have hWaits : site' ∈ linker.waiting name nid :=
      h.waiting_subset (mem_waiting_of_mem_bound hSite')
    by_cases hEq : site = site'
    · exact Or.inl (by rw [hEq])
    · exact Or.inr (hApart site (h.bound_subset hSite) site' hWaits hEq)
  deferred_eq := leftDeferred_append _ h.deferred_eq h.pruneResolved_eq
  pruneResolved_eq := h.pruneResolved_eq

/-- Two ways in which all waiting sites may have been bound leave the same behind. -/
theorem unique {bound' : List Addr} {after after' : Linker} {n n₁ : M}
    (h : PartlyResolved linker m name nid target bound after m₁)
    (h' : PartlyResolved linker n name nid target bound' after' n₁)
    (hBound : ∀ site, site ∈ bound' ↔ site ∈ bound) (hSame : word n = word m) :
    after' = after ∧ word n₁ = word m₁ := by
  have hJumps : ∀ jump, jump ∈ bound'.map (Jump.mk · target) ↔
      jump ∈ bound.map (Jump.mk · target) := by
    simp [List.mem_map, hBound]
  obtain ⟨hSites, hWords⟩ := h.redirected.unique h'.redirected hJumps hSame
  refine ⟨eq_of_parts hSites ?_ (h'.pruneResolved_eq.trans h.pruneResolved_eq.symm), hWords⟩
  rw [h'.deferred_eq, h.deferred_eq, leftDeferred_congr linker hBound]

end PartlyResolved

/-- Whatever attempts did is a part of what the resolution is to do. -/
theorem Attempted.partlyResolved {before : Linker} {m₁ : M}
    (h : Attempted linker m name nid target before m₁)
    (hApart : Addr.AllApart 8 (linker.waiting name nid)) :
    ∃ bound, PartlyResolved linker m name nid target bound before m₁ := by
  induction h with
  | none hSame =>
      exact ⟨[], List.nil_subset _, Redirected.nil hSame, (leftDeferred_nil linker).symm, rfl⟩
  | again hBefore hRollBack hSame ih =>
      obtain ⟨bound, hPartly⟩ := ih
      have hNext := hPartly.attempt hApart (leavesUnwritten_of_accepted hRollBack)
      exact ⟨_, hNext.of_same_words hSame⟩

/-- A resolution that succeeds is complete, whatever was attempted before. -/
theorem PartlyResolved.complete {bound : List Addr} {before after : Linker} {m₁ m₂ : M}
    {count : Nat}
    (h : PartlyResolved linker m name nid target bound before m₁)
    (hApart : Addr.AllApart 8 (linker.waiting name nid))
    (hResolve : (before.resolve m₁ name nid target).value = (.ok count, after, m₂)) :
    PartlyResolved linker m name nid target (bound ++ before.waiting name nid) after m₂ := by
  obtain ⟨hDone, -⟩ := pass_of_resolve_ok hResolve
  have hNext := h.attempt hApart (leavesUnwritten_of_done hDone)
  rw [pass, bound_of_done hDone, hResolve] at hNext
  exact hNext

/-- The attempt that succeeds leaves behind what a single request would have that finds the same
words and fails nowhere; and such a request fails nowhere if all its accesses succeed. -/
theorem retries_converge {before after : Linker} {m₁ m₂ : M} {count : Nat}
    (hApart : Addr.AllApart 8 (linker.waiting name nid))
    (hAttempts : Attempted linker m name nid target before m₁)
    (hRetry : (before.resolve m₁ name nid target).value = (.ok count, after, m₂)) :
    (∀ {clean once : M} {all : Nat} {afterOnce : Linker}, word clean = word m →
      (linker.resolve clean name nid target).value = (.ok all, afterOnce, once) →
        afterOnce = after ∧ word once = word m₂) ∧
      ∀ {ready : M → Prop}, AcceptsAll ready → ∀ {clean : M}, ready clean → word clean = word m →
        ∃ once, (linker.resolve clean name nid target).value =
          (.ok (linker.waiting name nid).length, after, once) ∧ word once = word m₂ := by
  obtain ⟨bound, hPartly⟩ := hAttempts.partlyResolved hApart
  have hAll := hPartly.complete hApart hRetry
  have hOnce : ∀ {clean once : M} {all : Nat} {afterOnce : Linker}, word clean = word m →
      (linker.resolve clean name nid target).value = (.ok all, afterOnce, once) →
        afterOnce = after ∧ word once = word m₂ := by
    intro clean once all afterOnce hSame hResolve
    have hNone : PartlyResolved linker clean name nid target [] linker clean :=
      ⟨List.nil_subset _, Redirected.nil rfl, (leftDeferred_nil linker).symm, rfl⟩
    refine hAll.unique (hNone.complete hApart hResolve) (fun site => ?_) hSame
    exact (hPartly.mem_append_waiting_iff site).symm
  refine ⟨hOnce, fun {ready} hAccepts {clean} hReady hSame => ?_⟩
  -- the sites have slots, because the attempts have written all of them
  have hSlots : ∀ site ∈ linker.waiting name nid, CallSite.HasSlots site :=
    fun site hSite => hAll.hasSlots ((hPartly.mem_append_waiting_iff site).mpr hSite)
  obtain ⟨hDone, -⟩ := done_of_acceptsAll hAccepts hReady name nid target hSlots
  have hResolve := resolve_of_done hDone
  obtain ⟨hLinker, hWords⟩ := hOnce hSame hResolve
  rw [hLinker] at hResolve
  exact ⟨_, hResolve, hWords⟩

/-- The first attempt cannot write a second slot, the next cannot read a first one, and the third
goes through. It leaves behind what a single request does in a memory without faults. -/
theorem twice_failed_request_converges :
    let first := (crowdedSites.resolve halfWritableMemory "Guest" 7 0x08900000).value
    let second := (first.2.1.resolve (first.2.2.follow { FaultPlan.none with
      unmapped := [0x08800108] }) "Guest" 7 0x08900000).value
    let third := (second.2.1.resolve (second.2.2.follow .none) "Guest" 7 0x08900000).value
    let once := (crowdedSites.resolve (halfWritableMemory.follow .none) "Guest" 7
      0x08900000).value
    (∀ count, first.1 ≠ .ok count) ∧ (∀ count, second.1 ≠ .ok count) ∧ third.1 = .ok 1 ∧
      once.1 = .ok 3 ∧ once.2.1 = third.2.1 ∧ word once.2.2 = word third.2.2 := by
  intro first second third once
  have hRollBacks (linker : Linker) {m : FaultyMemory} (hm : m.plan.failWrites = []) :
      RollBacksAccepted 0x08900000 (linker.waiting "Guest" 7) m :=
    rollBacksAccepted_of_steady FaultyMemory.acceptsRollBack _ _ hm
  have hFirst : Attempted crowdedSites halfWritableMemory "Guest" 7 0x08900000 first.2.1
      (first.2.2.follow { FaultPlan.none with unmapped := [0x08800108] }) :=
    (Attempted.none rfl).again (hRollBacks _ rfl) rfl
  have hSecond : Attempted crowdedSites halfWritableMemory "Guest" 7 0x08900000 second.2.1
      (second.2.2.follow .none) := hFirst.again (hRollBacks _ rfl) rfl
  have hThird : third = (.ok 1, third.2.1, third.2.2) := rfl
  have hOnce : once = (.ok 3, once.2.1, once.2.2) := rfl
  have hMended : word (halfWritableMemory.follow .none) = word halfWritableMemory := rfl
  obtain ⟨hSame, -⟩ := retries_converge (by decide) hSecond hThird
  obtain ⟨hLinker, hWords⟩ := hSame hMended hOnce
  exact ⟨nofun, nofun, rfl, rfl, hLinker, hWords⟩

end Linker
end HostCalls
