import HostCalls.Proofs.Linker.Mirror

/-!
# A jump to guest code is not taken back

A site that jumps to guest code is not made a stub again, whatever is requested and whatever fails.
Only what forgets the site ends this.

* `LinkerRequest.rebinds?` is the target to which a request makes a site jump, and
  `LinkerRequest.targets` are those of a run.
* `callSite?_perform` is the step: a site that jumps still does so, to where the request rebinds it
  or to where it did before. `callSite?_run` is the run.
* `direct_jump_lasts` adds that only an import deferred at the site can rebind it, that binding it
  anew has no effect, and that memory holds the jump as long as call sites do not overlap.
-/

namespace HostCalls

namespace LinkerRequest

variable {G M : Type} [Memory M]

/-- Whether a request makes the linker forget a site. -/
def Forgets (site : Addr) : LinkerRequest G → Prop
  | release start stop => start ≤ site ∧ site < stop
  | clear => True
  | bind .. | resolve .. | restore _ | load _ => False

/-- The target to which a request makes a deferred site jump, if it does. -/
def rebinds? (linker : Linker) (m : M) (site : Addr) : LinkerRequest G → Option Addr
  | resolve name nid target =>
      if site ∈ (linker.pass m name nid target).bound then some target else none
  | bind .. | release .. | restore _ | load _ | clear => none

/-- The targets to which the requests of a run make a site jump, oldest first. -/
def targets (linker : Linker) (m : M) (site : Addr) : List (LinkerRequest G) → List Addr
  | [] => []
  | request :: rest =>
      (request.rebinds? linker m site).toList ++
        targets (request.perform linker m).1 (request.perform linker m).2 site rest

/-- Where a site jumps after a run, if it jumped to `target` before. -/
def latestTarget (linker : Linker) (m : M) (site target : Addr)
    (requests : List (LinkerRequest G)) : Addr :=
  (targets linker m site requests).getLast?.getD target

theorem run_append (linker : Linker) (m : M) (before after : List (LinkerRequest G)) :
    run linker m (before ++ after) =
      run (run linker m before).1 (run linker m before).2 after := by
  induction before generalizing linker m with
  | nil => rfl
  | cons request rest ih => exact ih _ _

theorem latestTarget_cons (linker : Linker) (m : M) (site target : Addr)
    (request : LinkerRequest G) (rest : List (LinkerRequest G)) :
    latestTarget linker m site target (request :: rest) =
      latestTarget (request.perform linker m).1 (request.perform linker m).2 site
        ((request.rebinds? linker m site).getD target) rest := by
  unfold latestTarget
  rw [targets, List.getLast?_append]
  generalize (targets (request.perform linker m).1 (request.perform linker m).2 site rest).getLast?
    = latest?
  cases latest? with
  | some latest => rfl
  | none => cases request.rebinds? linker m site <;> rfl

end LinkerRequest

namespace Linker

section Step

variable {G M : Type} [Memory M] {name : String} {nid : Nid} {target site : Addr}

/-- A pass makes the sites jump that it binds, and no other. -/
theorem get?_bindSites (waiting : List Addr) (sites : Table Addr CallSite) (m : M) :
    (bindSites name nid target waiting sites m).value.sites.get? site =
      if site ∈ (bindSites name nid target waiting sites m).value.bound then
        some (.directJump target)
      else sites.get? site := by
  induction waiting generalizing sites m with
  | nil => rfl
  | cons head rest ih =>
      rw [value_bindSites_cons]
      rcases ((CallSite.directJump target).writeSlots m head).value with ⟨e | ⟨⟩, m'⟩
      · rfl
      · simp only [ih, List.mem_cons]
        by_cases hEq : site = head
        · subst hEq
          simp
        · simp [hEq, Table.get?_insert_of_ne _ _ (Ne.symm hEq)]

theorem mem_waiting_of_mem_bound {waiting : List Addr} {sites : Table Addr CallSite} {m : M}
    (h : site ∈ (bindSites name nid target waiting sites m).value.bound) : site ∈ waiting := by
  induction waiting generalizing sites m with
  | nil => cases h
  | cons head rest ih =>
      rw [value_bindSites_cons] at h
      rcases hWrite : ((CallSite.directJump target).writeSlots m head).value with ⟨e | ⟨⟩, m'⟩
      · rw [hWrite] at h
        cases h
      · rw [hWrite] at h
        rcases List.mem_cons.mp h with rfl | hRest
        · exact List.mem_cons_self
        · exact List.mem_cons_of_mem _ (ih hRest)

variable {linker : Linker} {m : M} {request : LinkerRequest G}

/-- Only the resolution of an import that waits at the site makes it jump. -/
theorem exists_deferred_of_rebinds? {latest : Addr}
    (h : request.rebinds? linker m site = some latest) :
    ∃ name nid, request = .resolve name nid latest ∧
      ∃ entry ∈ linker.deferred, entry.isFor name nid = true ∧ entry.site = site := by
  cases request with
  | resolve name nid target =>
      rw [LinkerRequest.rebinds?] at h
      split at h
      · rename_i hBound
        cases h
        exact ⟨name, nid, rfl, mem_waiting_iff.mp (mem_waiting_of_mem_bound hBound)⟩
      · cases h
  | _ => cases h

/-- A request keeps a site jumping unless it makes the linker forget the site. -/
theorem callSite?_perform (hJump : linker.callSite? site = some (.directJump target))
    (hKept : ¬ request.Forgets site) :
    (request.perform linker m).1.callSite? site =
      some (.directJump ((request.rebinds? linker m site).getD target)) := by
  cases request with
  | bind registry name nid other =>
      rcases hBind : (linker.bind registry m name nid other).value with ⟨result, linker', m'⟩
      simp only [LinkerRequest.perform, hBind]
      cases bindStep_of_value hBind with
      | jumps => exact hJump
      | deferred => exact hJump
      | failed => exact hJump
      | bound hNoJump hWanted hWrite =>
          -- a site that jumps is not written, so the written one is another
          have hOther : other ≠ site := fun hEq => hNoJump target (hEq ▸ hJump)
          exact (Table.get?_insert_of_ne _ _ hOther).trans hJump
  | resolve name nid latest =>
      simp only [LinkerRequest.perform, value_resolve, LinkerRequest.rebinds?]
      refine (get?_bindSites _ _ _).trans ?_
      split
      · rename_i hBound
        rw [pass, if_pos hBound, Option.getD_some]
      · rename_i hBound
        rw [pass, if_neg hBound, Option.getD_none]
        exact hJump
  | release start stop =>
      simp only [LinkerRequest.perform, value_release]
      split
      · refine (Table.get?_filter _ _ _).trans (Option.filter_eq_some_iff.mpr ⟨hJump, ?_⟩)
        simp only [Bool.not_eq_true', ← Bool.not_eq_true, Bool.and_eq_true, decide_eq_true_eq]
        exact hKept
      · exact hJump
  | restore entries => exact hJump
  | load bytes =>
      simp only [LinkerRequest.perform, value_load]
      split <;> exact hJump
  | clear => exact absurd trivial hKept

theorem callSite?_run {requests : List (LinkerRequest G)}
    (hJump : linker.callSite? site = some (.directJump target))
    (hKept : ∀ request ∈ requests, ¬ request.Forgets site) :
    (LinkerRequest.run linker m requests).1.callSite? site =
      some (.directJump (LinkerRequest.latestTarget linker m site target requests)) := by
  induction requests generalizing linker m target with
  | nil => exact hJump
  | cons request rest ih =>
      have hFirst := hKept request List.mem_cons_self
      rw [LinkerRequest.latestTarget_cons]
      exact ih (callSite?_perform hJump hFirst) fun later hLater =>
        hKept later (List.mem_cons_of_mem _ hLater)

/-- Binding a site that jumps has no effect. -/
theorem value_bind_of_jump (hJump : linker.callSite? site = some (.directJump target))
    (registry : Registry G) (m : M) (name : String) (nid : Nid) :
    (linker.bind registry m name nid site).value = (.ok (), linker, m) := by
  unfold bind
  rw [hJump]
  rfl

end Step

variable {G M : Type} [Memory M]

/-- What holds after a list of requests that is performed while a site jumps to `target`. -/
structure JumpLasts (linker : Linker) (m : M) (site target : Addr)
    (requests : List (LinkerRequest G)) : Prop where
  /-- The site still jumps: to where a request made it jump last, or else to `target`. -/
  tracked : (LinkerRequest.run linker m requests).1.callSite? site =
    some (.directJump (LinkerRequest.latestTarget linker m site target requests))
  /-- Only the resolution of an import that was deferred at this very site changed where. -/
  changed : ∀ {earlier later : List (LinkerRequest G)} {request : LinkerRequest G},
    requests = earlier ++ request :: later →
    let reached := LinkerRequest.run linker m earlier
    (request.perform reached.1 reached.2).1.callSite? site ≠ reached.1.callSite? site →
    ∃ name nid latest, request = .resolve name nid latest ∧
      ∃ entry ∈ reached.1.deferred, entry.isFor name nid = true ∧ entry.site = site
  /-- Binding the site now succeeds and leaves everything alone, the linker and, in whatever state
  and of whatever kind it is, the memory. -/
  bind_idle : ∀ {M' : Type} [Memory M'] (registry : Registry G) (m' : M') (name : String)
    (nid : Nid), ((LinkerRequest.run linker m requests).1.bind registry m' name nid site).value =
      (.ok (), (LinkerRequest.run linker m requests).1, m')
  /-- If the linker began with nothing tracked and the sites that it was told of are apart, then
  memory holds the jump. -/
  words : ∀ [FaithfulMemory M] {steady : M → Prop}, AcceptsRollBack steady →
    ∀ (pruneResolved : Bool) (m₀ : M) (before : List (LinkerRequest G)), steady m₀ →
    (linker, m) = LinkerRequest.run (empty pruneResolved) m₀ before →
    Addr.AllApart 8 ((before ++ requests).flatMap LinkerRequest.newSites) →
    (CallSite.directJump (LinkerRequest.latestTarget linker m site target requests)).Held
      (LinkerRequest.run linker m requests).2 site

/-- A site that jumps to guest code does so until the linker is made to forget it. -/
theorem direct_jump_lasts {linker : Linker} {m : M} {site target : Addr}
    (hJump : linker.callSite? site = some (.directJump target))
    (requests : List (LinkerRequest G)) (hKept : ∀ request ∈ requests, ¬ request.Forgets site) :
    linker.JumpLasts m site target requests := by
  have hTracked := callSite?_run (m := m) hJump hKept
  refine ⟨hTracked, ?_, ?_, ?_⟩
  · intro earlier later request hSplit reached hChanged
    have hReached := callSite?_run (m := m) hJump fun other hOther =>
      hKept other (hSplit ▸ List.mem_append_left _ hOther)
    have hNext := callSite?_perform (m := reached.2) hReached
      (hKept request (hSplit ▸ List.mem_append_right _ List.mem_cons_self))
    cases hRebinds : request.rebinds? reached.1 reached.2 site with
    | some latest =>
        obtain ⟨name, nid, hRequest, hDeferred⟩ := exists_deferred_of_rebinds? hRebinds
        exact ⟨name, nid, latest, hRequest, hDeferred⟩
    | none =>
        -- a request that does not rebind the site leaves it as it was
        refine absurd ?_ hChanged
        rw [hNext, hReached, hRebinds, Option.getD_none]
  · intro M' _ registry m' name nid
    exact value_bind_of_jump hTracked registry m' name nid
  · intro _ steady hAccepts pruneResolved m₀ before hm hBefore hApart
    -- the whole run, from the beginning, keeps what is tracked and what is there together
    have hRun := (Mirrored.empty _ pruneResolved hm).run hAccepts hApart fun _ hSite => hSite
    rw [LinkerRequest.run_append, ← hBefore] at hRun
    exact hRun.mirrors site _ hTracked

/-- A run that defers an import at one site and makes that jump to guest code. -/
def jumpingRun : List (LinkerRequest Unit) :=
  [.bind .empty "Guest" 7 0x08800100, .resolve "Guest" 7 0x08900000]

/-- Requests after that run: the site is bound anew, another is bound in vain, the import is
resolved to other code, and other sites are forgotten. -/
def laterRun : List (LinkerRequest Unit) :=
  [.bind .empty "Guest" 0 0x08800100, .bind .empty "Other" 0 0x08800108,
    .resolve "Guest" 7 0x08900100, .restore [], .load [1, 2], .release 0x08800108 0x08800200]

/-- Memory in which one slot cannot be written. -/
def partlyReadOnlyMemory : FaultyMemory :=
  FaultyMemory.zero.follow ⟨[0x0880010C], [], []⟩

/-- The later resolution takes effect, because resolved imports stay deferred here; nothing else
does. -/
theorem rebound_jump_lasts :
    let reached := LinkerRequest.run (empty false) partlyReadOnlyMemory jumpingRun
    let after := LinkerRequest.run reached.1 reached.2 laterRun
    reached.1.callSite? 0x08800100 = some (.directJump 0x08900000) ∧
      after.1.callSite? 0x08800100 = some (.directJump 0x08900100) ∧
      (CallSite.directJump 0x08900100).Held after.2 0x08800100 ∧
      (after.1.bind (.empty : Registry Unit) after.2 "Other" 9 0x08800100).value =
        (.ok (), after.1, after.2) := by
  intro reached after
  have hJump : reached.1.callSite? 0x08800100 = some (.directJump 0x08900000) := by decide
  have hKept : ∀ request ∈ laterRun, ¬ request.Forgets 0x08800100 := by
    simp [laterRun, LinkerRequest.Forgets]
  have hLasts := direct_jump_lasts (m := reached.2) hJump laterRun hKept
  have hLatest : LinkerRequest.latestTarget reached.1 reached.2 0x08800100 0x08900000 laterRun =
      0x08900100 := by decide
  have hTracked := hLasts.tracked
  have hHeld := hLasts.words FaultyMemory.acceptsRollBack false partlyReadOnlyMemory jumpingRun rfl
    rfl (by decide)
  rw [hLatest] at hTracked hHeld
  exact ⟨hJump, hTracked, hHeld, hLasts.bind_idle .empty after.2 "Other" 9⟩

end Linker
end HostCalls
