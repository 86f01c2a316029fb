import HostCalls.Proofs.Linker.Deferral

/-!
# When a jump stays where it is

Resolving an import does not look at what its sites hold. So a site that jumps to guest code is made
to jump elsewhere if an import still waits there that can be bound. Pruning takes care of the import
that was bound, and of no other one that was deferred at the same site.

* `Linker.bindable` are the sites that a resolution can bind, and a site is `Settled` if it is none
  of them for any import.
* `mem_bindable_of_perform` and `mem_waiting_of_perform`: while a site jumps, no import begins to
  wait there. `run_while_jumping` carries such facts over a run.
* `pruned_jump_stays_iff_settled` puts this together: a site that was made to jump stays as it is
  exactly if it is settled, and it is if only one import was ever deferred there. With two of them
  it need not be (`second_import_moves_jump`).
-/

namespace HostCalls

namespace LinkerRequest

variable {G : Type}

/-- The requests that bind a site or resolve an import. -/
inductive BindsOrResolves : LinkerRequest G → Prop
  | bind (registry : Registry G) (name : String) (nid : Nid) (site : Addr) :
      BindsOrResolves (.bind registry name nid site)
  | resolve (name : String) (nid : Nid) (target : Addr) :
      BindsOrResolves (.resolve name nid target)

theorem BindsOrResolves.not_forgets {request : LinkerRequest G} (h : request.BindsOrResolves)
    (site : Addr) : ¬ request.Forgets site := by
  cases h with
  | bind => exact id
  | resolve => exact id

end LinkerRequest

namespace Linker

variable {G M : Type} [Memory M] {linker after : Linker} {m : M} {name : String} {nid : Nid}
  {target site : Addr} {request : LinkerRequest G}

/-- The sites that a resolution of an import can bind: those that wait in front of the first with
one slot. -/
def bindable (linker : Linker) (name : String) (nid : Nid) : List Addr :=
  (linker.waiting name nid).takeWhile (CallSite.HasSlots ·)

/-- Whether no resolution can bind a site. -/
def Settled (linker : Linker) (site : Addr) : Prop :=
  ∀ name nid, site ∉ linker.bindable name nid

/-- Whether a site jumps to `target` after all further bindings and resolutions, in whatever
memory. -/
def Pinned (G : Type) (linker : Linker) (site target : Addr) : Prop :=
  ∀ {N : Type} [Memory N] (n : N) (later : List (LinkerRequest G)),
    (∀ request ∈ later, request.BindsOrResolves) →
    (LinkerRequest.run linker n later).1.callSite? site = some (.directJump target)

section Bindable

theorem mem_waiting_of_mem_bindable (h : site ∈ linker.bindable name nid) :
    site ∈ linker.waiting name nid :=
  List.takeWhile_subset _ h

theorem hasSlots_of_mem_bindable (h : site ∈ linker.bindable name nid) :
    CallSite.HasSlots site := by
  have hAll := List.all_eq_true.mp (List.all_takeWhile (l := linker.waiting name nid)) site h
  exact of_decide_eq_true hAll

theorem mem_takeWhile_of_mem_bound {waiting : List Addr} {sites : Table Addr CallSite}
    (h : site ∈ (bindSites name nid target waiting sites m).value.bound) :
    site ∈ waiting.takeWhile (CallSite.HasSlots ·) := by
  induction waiting generalizing sites m with
  | nil => cases h
  | cons head rest ih =>
      rw [value_bindSites_cons] at h
      rcases hWrite : ((CallSite.directJump target).writeSlots m head).value with ⟨e | ⟨⟩, m'⟩
      · rw [hWrite] at h
        cases h
      · rw [hWrite] at h
        have hSlots : CallSite.HasSlots head := (CallSite.slotWrite_of_value hWrite).hasSlots
        rw [List.takeWhile_cons_of_pos (by simpa using hSlots)]
        rcases List.mem_cons.mp h with rfl | hRest
        · exact List.mem_cons_self
        · exact List.mem_cons_of_mem _ (ih hRest)

/-- Whatever the memory does, a resolution binds none but these sites. -/
theorem mem_bindable_of_mem_bound (h : site ∈ (linker.pass m name nid target).bound) :
    site ∈ linker.bindable name nid :=
  mem_takeWhile_of_mem_bound h

/-- Where every access succeeds, it binds all of them. -/
theorem bound_of_acceptsAll {ready : M → Prop} (hAccepts : AcceptsAll ready) (hm : ready m)
    (linker : Linker) (name : String) (nid : Nid) (target : Addr) :
    (linker.pass m name nid target).bound = linker.bindable name nid :=
  (bindSites_of_acceptsAll hAccepts name nid target (linker.waiting name nid) linker.sites hm).1

/-- Deferred imports that are dropped at sites with both slots stood in nobody's way. -/
theorem mem_bindable_of_filter {keep : DeferredImport → Bool}
    (hDeferred : after.deferred = linker.deferred.filter keep)
    (hSlots : ∀ entry, keep entry = false → CallSite.HasSlots entry.site)
    (h : site ∈ after.bindable name nid) : site ∈ linker.bindable name nid := by
  let reachable := fun entry : DeferredImport => decide (CallSite.HasSlots entry.site)
  have hReach : (fun entry => !keep entry || reachable entry) = reachable := by
    funext entry
    cases hKeep : keep entry with
    | true => rfl
    | false => simp [reachable, hSlots entry hKeep]
  have hFor : (linker.deferred.filter keep).filter (·.isFor name nid) =
      (linker.deferred.filter (·.isFor name nid)).filter keep := by
    simp only [List.filter_filter, Bool.and_comm]
  unfold bindable waiting at h ⊢
  rw [List.takeWhile_map] at h ⊢
  change site ∈ List.map _ (List.takeWhile reachable _) at h
  rw [hDeferred, hFor, List.takeWhile_filter, hReach] at h
  obtain ⟨entry, hEntry, hSite⟩ := List.mem_map.mp h
  exact List.mem_map.mpr ⟨entry, (List.mem_filter.mp hEntry).1, hSite⟩

theorem leftDeferred_eq_filter (linker : Linker) (name : String) (nid : Nid) (bound : List Addr) :
    linker.leftDeferred name nid bound = linker.deferred.filter fun entry =>
      !(linker.pruneResolved && (entry.isFor name nid && bound.contains entry.site)) := by
  unfold leftDeferred prune
  cases linker.pruneResolved with
  | true => rfl
  | false => exact (List.filter_eq_self.mpr fun _ _ => rfl).symm

/-- Deferring one more import makes no site bindable but its own. -/
theorem mem_bindable_of_defer {entry : DeferredImport}
    (h : site ∈ (linker.defer entry).bindable name nid) :
    site ∈ linker.bindable name nid ∨ site = entry.site := by
  have hWaiting : (linker.defer entry).waiting name nid =
      linker.waiting name nid ++ ([entry].filter (·.isFor name nid)).map (·.site) := by
    simp only [waiting, defer, List.filter_append, List.map_append]
  unfold bindable at h ⊢
  rw [hWaiting, List.takeWhile_append] at h
  split at h
  · rename_i hAll
    rw [(List.takeWhile_prefix _).eq_of_length hAll]
    rcases List.mem_append.mp h with hOld | hNew
    · exact Or.inl hOld
    · obtain ⟨other, hOther, rfl⟩ := List.mem_map.mp (List.takeWhile_subset _ hNew)
      exact Or.inr (congrArg _ (List.mem_singleton.mp (List.mem_filter.mp hOther).1))
  · exact Or.inl h

end Bindable

section Perform

/-- An import is deferred by a request that binds a site which does not jump. -/
theorem mem_deferred_of_perform {entry : DeferredImport} (hRequest : request.BindsOrResolves)
    (h : entry ∈ (request.perform linker m).1.deferred) :
    entry ∈ linker.deferred ∨
      (∃ asked : BindRequest G, request = asked.toRequest ∧ asked.deferral? = some entry) ∧
        ∀ target, linker.callSite? entry.site ≠ some (.directJump target) := by
  cases hRequest with
  | bind registry name nid there =>
      rcases hBind : (linker.bind registry m name nid there).value with ⟨result, linker', m'⟩
      simp only [LinkerRequest.perform, hBind] at h
      cases bindStep_of_value hBind with
      | jumps => exact Or.inl h
      | bound => exact Or.inl h
      | failed => exact Or.inl h
      | deferred hNoJump hWanted =>
          rcases List.mem_append.mp h with hOld | hNew
          · exact Or.inl hOld
          · rw [List.mem_singleton.mp hNew]
            refine Or.inr ⟨⟨⟨registry, name, nid, there⟩, rfl, ?_⟩, hNoJump⟩
            rw [BindRequest.deferral?, hWanted]
  | resolve name nid latest =>
      simp only [LinkerRequest.perform, value_resolve] at h
      exact Or.inl (mem_of_mem_leftDeferred h)

/-- No import begins to wait at a site that jumps. -/
theorem mem_waiting_of_perform (hJump : linker.callSite? site = some (.directJump target))
    (hRequest : request.BindsOrResolves)
    (h : site ∈ (request.perform linker m).1.waiting name nid) :
    site ∈ linker.waiting name nid := by
  obtain ⟨entry, hEntry, hFor, rfl⟩ := mem_waiting_iff.mp h
  rcases mem_deferred_of_perform hRequest hEntry with hOld | ⟨-, hNoJump⟩
  · exact mem_waiting_iff.mpr ⟨entry, hOld, hFor, rfl⟩
  · exact absurd hJump (hNoJump target)

/-- Nor does one that waits there begin to be bindable. -/
theorem mem_bindable_of_perform (hJump : linker.callSite? site = some (.directJump target))
    (hRequest : request.BindsOrResolves)
    (h : site ∈ (request.perform linker m).1.bindable name nid) :
    site ∈ linker.bindable name nid := by
  cases hRequest with
  | bind registry other otherNid there =>
      rcases hBind : (linker.bind registry m other otherNid there).value with ⟨result, linker', m'⟩
      simp only [LinkerRequest.perform, hBind] at h
      cases bindStep_of_value hBind with
      | jumps => exact h
      | bound => exact h
      | failed => exact h
      | deferred hNoJump hWanted =>
          refine (mem_bindable_of_defer h).resolve_right ?_
          rintro rfl
          exact hNoJump target hJump
  | resolve other otherNid latest =>
      simp only [LinkerRequest.perform, value_resolve] at h
      refine mem_bindable_of_filter (leftDeferred_eq_filter linker other otherNid _)
        (fun entry hDropped => ?_) h
      -- an import is dropped only if the pass has bound its site
      simp only [Bool.not_eq_false', Bool.and_eq_true, List.contains_iff_mem] at hDropped
      exact hasSlots_of_mem_bindable (mem_bindable_of_mem_bound hDropped.2.2)

/-- An import whose resolution binds a site does not wait there afterwards, if resolved imports are
pruned. -/
theorem not_mem_waiting_of_bound (hPrune : linker.pruneResolved = true)
    (hBound : site ∈ (linker.pass m name nid target).bound) :
    site ∉ ((LinkerRequest.resolve name nid target : LinkerRequest G).perform linker m).1.waiting
      name nid := by
  intro h
  simp only [LinkerRequest.perform, value_resolve] at h
  obtain ⟨entry, hEntry, hFor, rfl⟩ := mem_waiting_iff.mp h
  rw [leftDeferred_eq_filter] at hEntry
  have hKept := (List.mem_filter.mp hEntry).2
  simp [hPrune, hFor, hBound] at hKept

/-- A site jumps because a request made it, or because it did before. -/
theorem rebinds?_of_perform
    (h : (request.perform linker m).1.callSite? site = some (.directJump target)) :
    linker.callSite? site = some (.directJump target) ∨
      request.rebinds? linker m site = some target := by
  rcases tracked_of_perform h with hOld | hTracks
  · exact Or.inl hOld
  · generalize hHeld : CallSite.directJump target = held at hTracks
    cases hTracks with
    | bound hWanted => exact absurd (hHeld ▸ hWanted) wanted?_ne_directJump
    | @resolved name nid latest hWaiting =>
        cases hHeld
        by_cases hBound : site ∈ (linker.pass m name nid target).bound
        · exact Or.inr (if_pos hBound)
        · have hOld := (get?_bindSites (linker.waiting name nid) linker.sites m).trans
            (if_neg hBound)
          exact Or.inl (hOld.symm.trans h)

end Perform

section Run

variable {requests : List (LinkerRequest G)}

/-- What every binding and resolution keeps while a site jumps, a run of them keeps. -/
theorem run_while_jumping (P : Linker → Prop)
    (hJump : linker.callSite? site = some (.directJump target))
    (hRequests : ∀ request ∈ requests, request.BindsOrResolves)
    (hKeeps : ∀ {linker : Linker} {m : M} {request : LinkerRequest G} {target : Addr},
      linker.callSite? site = some (.directJump target) → request.BindsOrResolves → P linker →
      P (request.perform linker m).1)
    (h : P linker) : P (LinkerRequest.run linker m requests).1 := by
  induction requests generalizing linker m target with
  | nil => exact h
  | cons request rest ih =>
      have hFirst := hRequests request List.mem_cons_self
      exact ih (callSite?_perform hJump (hFirst.not_forgets site))
        (fun later hLater => hRequests later (List.mem_cons_of_mem _ hLater))
        (hKeeps hJump hFirst h)

theorem Settled.perform (h : linker.Settled site)
    (hJump : linker.callSite? site = some (.directJump target))
    (hRequest : request.BindsOrResolves) : (request.perform linker m).1.Settled site :=
  fun name nid hBindable => h name nid (mem_bindable_of_perform hJump hRequest hBindable)

theorem Settled.rebinds?_eq_none (h : linker.Settled site) (m : M)
    (hRequest : request.BindsOrResolves) : request.rebinds? linker m site = none := by
  cases hRequest with
  | bind => rfl
  | resolve name nid latest =>
      exact if_neg fun hBound => h name nid (mem_bindable_of_mem_bound hBound)

theorem Settled.run (h : linker.Settled site)
    (hJump : linker.callSite? site = some (.directJump target))
    (hRequests : ∀ request ∈ requests, request.BindsOrResolves) :
    (LinkerRequest.run linker m requests).1.callSite? site = some (.directJump target) := by
  have hKept : (LinkerRequest.run linker m requests).1.Settled site ∧
      (LinkerRequest.run linker m requests).1.callSite? site = some (.directJump target) := by
    refine run_while_jumping
      (fun linker => linker.Settled site ∧ linker.callSite? site = some (.directJump target))
      hJump hRequests (fun hJumps hRequest hBoth => ?_) ⟨h, hJump⟩
    refine ⟨hBoth.1.perform hJumps hRequest, ?_⟩
    rw [callSite?_perform hBoth.2 (hRequest.not_forgets site), hBoth.1.rebinds?_eq_none _ hRequest]
    rfl
  exact hKept.2

/-- A site that is not settled can be made to jump anywhere. -/
theorem moves_of_bindable (h : site ∈ linker.bindable name nid) (target : Addr) :
    (LinkerRequest.run linker FaultyMemory.zero
      [(.resolve name nid target : LinkerRequest G)]).1.callSite? site =
        some (.directJump target) := by
  have hBound := bound_of_acceptsAll FaultyMemory.acceptsAll (m := FaultyMemory.zero) rfl linker
    name nid target
  exact (get?_bindSites _ _ _).trans (if_pos (hBound ▸ h))

/-- Every deferred import was asked for. -/
theorem mem_deferred_of_run {entry : DeferredImport}
    (hRequests : ∀ request ∈ requests, request.BindsOrResolves)
    (h : entry ∈ (LinkerRequest.run linker m requests).1.deferred) :
    entry ∈ linker.deferred ∨
      ∃ asked : BindRequest G, asked.toRequest ∈ requests ∧ asked.deferral? = some entry := by
  induction requests generalizing linker m with
  | nil => exact Or.inl h
  | cons request rest ih =>
      rcases ih (fun later hLater => hRequests later (List.mem_cons_of_mem _ hLater)) h with
        hFirst | ⟨asked, hAsked, hDeferral⟩
      · rcases mem_deferred_of_perform (hRequests request List.mem_cons_self) hFirst with
          hOld | ⟨⟨asked, rfl, hDeferral⟩, -⟩
        · exact Or.inl hOld
        · exact Or.inr ⟨asked, List.mem_cons_self, hDeferral⟩
      · exact Or.inr ⟨asked, List.mem_cons_of_mem _ hAsked, hDeferral⟩

theorem exists_asked_of_waiting {pruneResolved : Bool}
    (hRequests : ∀ request ∈ requests, request.BindsOrResolves)
    (h : site ∈ (LinkerRequest.run (empty pruneResolved) m requests).1.waiting name nid) :
    ∃ asked : BindRequest G, asked.toRequest ∈ requests ∧
      asked.deferral? = some ⟨name, site, nid⟩ := by
  obtain ⟨⟨name', site', nid'⟩, hEntry, hFor, rfl⟩ := mem_waiting_iff.mp h
  simp only [DeferredImport.isFor, Bool.and_eq_true, beq_iff_eq] at hFor
  obtain ⟨rfl, rfl⟩ := hFor
  exact (mem_deferred_of_run hRequests hEntry).resolve_left List.not_mem_nil

/-- Every jump was made by a resolution. -/
theorem exists_resolve_of_run
    (h : (LinkerRequest.run linker m requests).1.callSite? site = some (.directJump target)) :
    linker.callSite? site = some (.directJump target) ∨
      ∃ earlier later name nid, requests = earlier ++ .resolve name nid target :: later ∧
        let reached := LinkerRequest.run linker m earlier
        site ∈ (reached.1.pass reached.2 name nid target).bound := by
  induction requests generalizing linker m with
  | nil => exact Or.inl h
  | cons request rest ih =>
      rcases ih h with hFirst | ⟨earlier, later, name, nid, rfl, hBound⟩
      · rcases rebinds?_of_perform hFirst with hOld | hRebinds
        · exact Or.inl hOld
        · obtain ⟨name, nid, rfl, -⟩ := exists_deferred_of_rebinds? hRebinds
          refine Or.inr ⟨[], rest, name, nid, rfl, ?_⟩
          simp only [LinkerRequest.rebinds?, Option.ite_none_right_eq_some] at hRebinds
          exact hRebinds.1
      · exact Or.inr ⟨request :: earlier, later, name, nid, rfl, hBound⟩

/-- An import that has bound a site does not wait there any more, if resolved imports are pruned. -/
theorem not_mem_waiting_of_run {earlier later : List (LinkerRequest G)}
    (hPrune : linker.pruneResolved = true)
    (hLater : ∀ request ∈ later, request.BindsOrResolves)
    (hBound : let reached := LinkerRequest.run linker m earlier
      site ∈ (reached.1.pass reached.2 name nid target).bound) :
    site ∉ (LinkerRequest.run linker m (earlier ++ .resolve name nid target :: later)).1.waiting
      name nid := by
  rw [LinkerRequest.run_append, LinkerRequest.run]
  have hJump := (get?_bindSites _ _ _).trans (if_pos hBound)
  refine run_while_jumping (fun linker => site ∉ linker.waiting name nid) hJump hLater
    (fun hJumps hRequest hNot hWaits => hNot (mem_waiting_of_perform hJumps hRequest hWaits)) ?_
  exact not_mem_waiting_of_bound ((LinkerRequest.pruneResolved_run _ _ _).trans hPrune) hBound

end Run

/-- What holds of a site that jumps to `target` after the run `before` of bindings and resolutions,
with resolved imports pruned; `linker` is what the run has led to. -/
structure PrunedJump (linker : Linker) (m : M) (before : List (LinkerRequest G))
    (site target : Addr) : Prop where
  /-- Further bindings and resolutions leave it a jump, to where a resolution bound it last. -/
  tracked : ∀ {N : Type} [Memory N] (n : N) (later : List (LinkerRequest G)),
    (∀ request ∈ later, request.BindsOrResolves) →
    (LinkerRequest.run linker n later).1.callSite? site =
      some (.directJump (LinkerRequest.latestTarget linker n site target later))
  /-- None of them can move it exactly if it is settled. -/
  pinned_iff : linker.Pinned G site target ↔ linker.Settled site
  /-- An import that has bound the site does not wait there any more. -/
  once_each : ∀ {earlier later : List (LinkerRequest G)} {name : String} {nid : Nid}
    {latest : Addr}, before = earlier ++ .resolve name nid latest :: later →
    let reached := LinkerRequest.run (empty true) m earlier
    site ∈ (reached.1.pass reached.2 name nid latest).bound → site ∉ linker.waiting name nid
  /-- If there was no other import to defer at the site, it is settled. -/
  settled_of_single : ∀ only : DeferredImport,
    (∀ (asked : BindRequest G) (entry : DeferredImport), asked.toRequest ∈ before →
      asked.deferral? = some entry → entry.site = site → entry = only) → linker.Settled site

theorem pinned_iff_settled (hJump : linker.callSite? site = some (.directJump target)) :
    linker.Pinned G site target ↔ linker.Settled site := by
  constructor
  · intro hPinned name nid hBindable
    obtain ⟨other, hOther⟩ : ∃ other : Addr, other ≠ target := by
      by_cases hZero : target = 0
      · exact ⟨4, by rw [hZero]; decide⟩
      · exact ⟨0, Ne.symm hZero⟩
    have hMoved := moves_of_bindable (G := G) hBindable other
    have hStayed := hPinned FaultyMemory.zero [.resolve name nid other]
      fun request hRequest => List.mem_singleton.mp hRequest ▸ .resolve name nid other
    cases hMoved.symm.trans hStayed
    exact hOther rfl
  · intro hSettled N _ n later hLater
    exact hSettled.run hJump hLater

/-- If one import alone was deferred at a site, its resolution settles the site. -/
theorem settled_of_single {before : List (LinkerRequest G)} (m : M)
    (hBefore : ∀ request ∈ before, request.BindsOrResolves) (only : DeferredImport)
    (hOnly : ∀ (asked : BindRequest G) (entry : DeferredImport), asked.toRequest ∈ before →
      asked.deferral? = some entry → entry.site = site → entry = only)
    (hJump : (LinkerRequest.run (empty true) m before).1.callSite? site =
      some (.directJump target)) :
    (LinkerRequest.run (empty true) m before).1.Settled site := by
  rcases exists_resolve_of_run hJump with hNone | ⟨earlier, later, name, nid, rfl, hBound⟩
  · cases hNone
  · have hEarlier : ∀ request ∈ earlier, request.BindsOrResolves :=
      fun request hRequest => hBefore request (List.mem_append_left _ hRequest)
    have hLater : ∀ request ∈ later, request.BindsOrResolves := fun request hRequest =>
      hBefore request (List.mem_append_right _ (List.mem_cons_of_mem _ hRequest))
    obtain ⟨asked, hAsked, hDeferral⟩ :=
      exists_asked_of_waiting hEarlier (mem_waiting_of_mem_bound hBound)
    have hResolved : ⟨name, site, nid⟩ = only :=
      hOnly asked _ (List.mem_append_left _ hAsked) hDeferral rfl
    intro name' nid' hBindable
    have hWaits := mem_waiting_of_mem_bindable hBindable
    obtain ⟨asked', hAsked', hDeferral'⟩ := exists_asked_of_waiting hBefore hWaits
    have hLeft : ⟨name', site, nid'⟩ = only := hOnly asked' _ hAsked' hDeferral' rfl
    -- what is left to bind is the import that was resolved, and this one does not wait any more
    cases hLeft.trans hResolved.symm
    exact not_mem_waiting_of_run rfl hLater hBound hWaits

/-- With resolved imports pruned, a site that bindings and resolutions have made jump to guest code
jumps from then on, and no resolution makes it jump elsewhere exactly if it is settled. -/
theorem pruned_jump_stays_iff_settled (m : M) {before : List (LinkerRequest G)}
    (hBefore : ∀ request ∈ before, request.BindsOrResolves) {site target : Addr}
    (hJump : (LinkerRequest.run (empty true) m before).1.callSite? site =
      some (.directJump target)) :
    PrunedJump (LinkerRequest.run (empty true) m before).1 m before site target where
  tracked n later hLater :=
    callSite?_run hJump fun request hRequest => (hLater request hRequest).not_forgets site
  pinned_iff := pinned_iff_settled hJump
  once_each := by
    rintro earlier later name nid latest rfl reached hBound
    refine not_mem_waiting_of_run rfl (fun request hRequest => ?_) hBound
    exact hBefore request (List.mem_append_right _ (List.mem_cons_of_mem _ hRequest))
  settled_of_single only hOnly := settled_of_single m hBefore only hOnly hJump

/-- A run that defers one import at a site twice and another one elsewhere, and resolves the
first. -/
def repeatedRun : List (LinkerRequest Unit) :=
  [.bind .empty "Guest" 7 0x08800100, .bind .empty "Guest" 7 0x08800100,
    .bind .empty "Other" 7 0x08800108, .resolve "Guest" 7 0x08900000]

/-- The site is settled although it was deferred twice, so resolving both imports again, in a memory
where one slot cannot be written, leaves it alone. -/
theorem repeated_import_stays_bound :
    let reached := (LinkerRequest.run (empty true) FaultyMemory.zero repeatedRun).1
    let later : List (LinkerRequest Unit) :=
      [.resolve "Guest" 7 0x08900100, .bind .empty "Other" 7 0x08800100,
        .resolve "Other" 7 0x08900200]
    reached.callSite? 0x08800100 = some (.directJump 0x08900000) ∧
      reached.Settled 0x08800100 ∧
      (LinkerRequest.run reached partlyReadOnlyMemory later).1.callSite? 0x08800100 =
        some (.directJump 0x08900000) := by
  intro reached later
  have hBefore : ∀ request ∈ repeatedRun, request.BindsOrResolves := by
    simp only [repeatedRun, List.forall_mem_cons]
    exact ⟨.bind .., .bind .., .bind .., .resolve .., nofun⟩
  have hLater : ∀ request ∈ later, request.BindsOrResolves := by
    simp only [later, List.forall_mem_cons]
    exact ⟨.resolve .., .bind .., .resolve .., nofun⟩
  have hJump : reached.callSite? 0x08800100 = some (.directJump 0x08900000) := by decide
  have hPruned := pruned_jump_stays_iff_settled FaultyMemory.zero hBefore hJump
  have hSettled : reached.Settled 0x08800100 := by
    refine hPruned.settled_of_single ⟨"Guest", 0x08800100, 7⟩ ?_
    rintro ⟨registry, name, nid, site⟩ entry hAsked hDeferral hSite
    simp only [repeatedRun, BindRequest.toRequest, List.mem_cons, LinkerRequest.bind.injEq,
      List.not_mem_nil, reduceCtorEq, or_false] at hAsked
    rcases hAsked with ⟨rfl, rfl, rfl, rfl⟩ | ⟨rfl, rfl, rfl, rfl⟩ | ⟨rfl, rfl, rfl, rfl⟩
    · cases hDeferral
      rfl
    · cases hDeferral
      rfl
    · cases hDeferral
      cases hSite
  exact ⟨hJump, hSettled, hPruned.pinned_iff.mpr hSettled partlyReadOnlyMemory later hLater⟩

/-- A run that defers two imports at one site and resolves the first. -/
def sharedRun : List (LinkerRequest Unit) :=
  [.bind .empty "Guest" 7 0x08800100, .bind .empty "Other" 7 0x08800100,
    .resolve "Guest" 7 0x08900000]

/-- The second import still waits at the site, and its resolution moves the jump. -/
theorem second_import_moves_jump :
    let reached := LinkerRequest.run (empty true) FaultyMemory.zero sharedRun
    let after := LinkerRequest.run reached.1 reached.2
      [(.resolve "Other" 7 0x08900FC0 : LinkerRequest Unit)]
    reached.1.callSite? 0x08800100 = some (.directJump 0x08900000) ∧
      after.1.callSite? 0x08800100 = some (.directJump 0x08900FC0) :=
  ⟨by decide, by decide⟩

end Linker
end HostCalls
