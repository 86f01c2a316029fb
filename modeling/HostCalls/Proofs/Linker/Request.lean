import HostCalls.Proofs.CallSite
import HostCalls.SavedState.Section

/-!
# Requests to the linker

A run of the linker is a list of requests, performed one after the other on a linker and a memory.
A request that fails leaves both behind for the next one all the same.

* `bindStep_of_value` lists everything that binding a site can do.
* `value_bindSites_cons` is one step of a pass over deferred sites, and `bound_of_done` says that a
  pass without a failure binds them all.
* `value_resolve`, `value_release` and `value_load` say what the other requests leave behind.
* `pruneResolved_run`: no request changes whether resolved imports are pruned.
-/

namespace HostCalls
namespace Linker

theorem eq_of_parts {linker linker' : Linker} (hSites : linker'.sites = linker.sites)
    (hDeferred : linker'.deferred = linker.deferred)
    (hPrune : linker'.pruneResolved = linker.pruneResolved) : linker' = linker := by
  cases linker
  cases hSites
  cases hDeferred
  cases hPrune
  rfl

section Bind

variable {G M : Type} [Memory M]

/-- What the site of an import is to hold; nothing as long as its module is not registered. -/
def wanted? (registry : Registry G) (name : String) (nid : Nid) : Option CallSite :=
  if nid = 0 then some .patchedOut
  else if (registry.moduleIndex? name).isSome then some (.stub (registry.opcodeFor name nid).value)
  else none

/-- Everything that binding a site can do. -/
inductive BindStep (linker : Linker) (registry : Registry G) (m : M) (name : String) (nid : Nid)
    (site : Addr) : Except Error Unit → Linker → M → Prop
  /-- The site jumps to guest code and is left alone. -/
  | jumps {target : Addr} (hSite : linker.callSite? site = some (.directJump target)) :
      BindStep linker registry m name nid site (.ok ()) linker m
  | deferred (hSite : ∀ target, linker.callSite? site ≠ some (.directJump target))
      (hWanted : wanted? registry name nid = none) :
      BindStep linker registry m name nid site (.ok ()) (linker.defer ⟨name, site, nid⟩) m
  | bound {held : CallSite} {m' : M}
      (hSite : ∀ target, linker.callSite? site ≠ some (.directJump target))
      (hWanted : wanted? registry name nid = some held)
      (hWrite : CallSite.SlotWrite m site held (.ok ()) m') :
      BindStep linker registry m name nid site (.ok ()) (linker.track site held) m'
  | failed {held : CallSite} {e : Error} {m' : M}
      (hSite : ∀ target, linker.callSite? site ≠ some (.directJump target))
      (hWanted : wanted? registry name nid = some held)
      (hWrite : CallSite.SlotWrite m site held (.error e) m') :
      BindStep linker registry m name nid site (.error e) linker m'

theorem value_hold (linker : Linker) (m : M) (site : Addr) (held : CallSite) :
    (linker.hold m site held).value =
      match (held.writeSlots m site).value with
      | (.ok (), m) => (.ok (), linker.track site held, m)
      | (.error e, m) => (.error e, linker, m) := by
  unfold hold
  simp only [Logged.value_bind]
  rcases (held.writeSlots m site).value with ⟨e | ⟨⟩, m'⟩ <;> rfl

/-- Binding looks at the registry only for what the site is to hold. -/
theorem value_bind_eq (linker : Linker) (registry : Registry G) (m : M) (name : String) (nid : Nid)
    (site : Addr) (hSite : ∀ target, linker.callSite? site ≠ some (.directJump target)) :
    (linker.bind registry m name nid site).value =
      match wanted? registry name nid with
      | some held => (linker.hold m site held).value
      | none => (.ok (), linker.defer ⟨name, site, nid⟩, m) := by
  unfold bind wanted?
  split
  · rename_i target hJump
    exact absurd hJump (hSite target)
  · split
    · rfl
    · split
      · simp only [Logged.value_bind]
        split <;> rfl
      · rfl

theorem bindStep_bind (linker : Linker) (registry : Registry G) (m : M) (name : String) (nid : Nid)
    (site : Addr) :
    BindStep linker registry m name nid site (linker.bind registry m name nid site).value.1
      (linker.bind registry m name nid site).value.2.1
      (linker.bind registry m name nid site).value.2.2 := by
  by_cases hSite : ∃ target, linker.callSite? site = some (.directJump target)
  · -- a site that jumps is left alone before the registry is looked at
    obtain ⟨target, hJump⟩ := hSite
    have hValue : (linker.bind registry m name nid site).value = (.ok (), linker, m) := by
      unfold bind
      rw [hJump]
      rfl
    rw [hValue]
    exact .jumps hJump
  · have hNoJump : ∀ target, linker.callSite? site ≠ some (.directJump target) :=
      fun target hJump => hSite ⟨target, hJump⟩
    rw [value_bind_eq linker registry m name nid site hNoJump]
    cases hWanted : wanted? registry name nid with
    | none => exact .deferred hNoJump hWanted
    | some held =>
        simp only [value_hold]
        rcases hWrite : (held.writeSlots m site).value with ⟨e | ⟨⟩, m'⟩
        · exact .failed hNoJump hWanted (CallSite.slotWrite_of_value hWrite)
        · exact .bound hNoJump hWanted (CallSite.slotWrite_of_value hWrite)

theorem bindStep_of_value {linker linker' : Linker} {registry : Registry G} {m m' : M}
    {name : String} {nid : Nid} {site : Addr} {result : Except Error Unit}
    (h : (linker.bind registry m name nid site).value = (result, linker', m')) :
    BindStep linker registry m name nid site result linker' m' := by
  have hStep := bindStep_bind linker registry m name nid site
  rwa [h] at hStep

end Bind

section Resolve

variable {M : Type} [Memory M]

theorem value_bindSites_cons (name : String) (nid : Nid) (target site : Addr) (rest : List Addr)
    (sites : Table Addr CallSite) (m : M) :
    (bindSites name nid target (site :: rest) sites m).value =
      match ((CallSite.directJump target).writeSlots m site).value with
      | (.error e, m) => ⟨some e, [], sites, m⟩
      | (.ok (), m) =>
          let pass :=
            (bindSites name nid target rest (sites.insert site (.directJump target)) m).value
          { pass with bound := site :: pass.bound } := by
  rw [bindSites]
  simp only [Logged.value_bind]
  rcases ((CallSite.directJump target).writeSlots m site).value with ⟨e | ⟨⟩, m'⟩ <;> rfl

/-- A pass without a failure binds all its sites. -/
theorem bound_of_done {name : String} {nid : Nid} {target : Addr} {waiting : List Addr}
    {sites : Table Addr CallSite} {m : M}
    (hDone : (bindSites name nid target waiting sites m).value.failure = none) :
    (bindSites name nid target waiting sites m).value.bound = waiting := by
  induction waiting generalizing sites m with
  | nil => rfl
  | cons site rest ih =>
      rw [value_bindSites_cons] at hDone ⊢
      rcases hWrite : ((CallSite.directJump target).writeSlots m site).value with ⟨e | ⟨⟩, m₁⟩
      · rw [hWrite] at hDone
        cases hDone
      · rw [hWrite] at hDone
        exact congrArg (site :: ·) (ih hDone)

/-- The sites of the deferred imports of function `nid` of the module called `name`, oldest
first. -/
def waiting (linker : Linker) (name : String) (nid : Nid) : List Addr :=
  (linker.deferred.filter (·.isFor name nid)).map (·.site)

/-- The pass over the deferred sites of an import. -/
def pass (linker : Linker) (m : M) (name : String) (nid : Nid) (target : Addr) : Pass M :=
  (bindSites name nid target (linker.waiting name nid) linker.sites m).value

/-- The deferred imports that a pass leaves. -/
def leftDeferred (linker : Linker) (name : String) (nid : Nid) (bound : List Addr) :
    List DeferredImport :=
  if linker.pruneResolved then prune name nid bound linker.deferred else linker.deferred

theorem value_resolve (linker : Linker) (m : M) (name : String) (nid : Nid) (target : Addr) :
    (linker.resolve m name nid target).value =
      ((match (linker.pass m name nid target).failure with
          | some e => .error e
          | none => .ok (linker.pass m name nid target).bound.length),
        { linker with
          sites := (linker.pass m name nid target).sites
          deferred := linker.leftDeferred name nid (linker.pass m name nid target).bound },
        (linker.pass m name nid target).memory) := rfl

/-- A resolution that reports no error is a pass without a failure. -/
theorem pass_of_resolve_ok {linker linker' : Linker} {m m' : M} {name : String} {nid : Nid}
    {target : Addr} {count : Nat}
    (h : (linker.resolve m name nid target).value = (.ok count, linker', m')) :
    (linker.pass m name nid target).failure = none ∧
      linker'.sites = (linker.pass m name nid target).sites ∧
      m' = (linker.pass m name nid target).memory := by
  rw [value_resolve, Prod.mk.injEq, Prod.mk.injEq] at h
  obtain ⟨hResult, hLinker, hMemory⟩ := h
  refine ⟨?_, by rw [← hLinker], hMemory.symm⟩
  cases hFailure : (linker.pass m name nid target).failure with
  | none => rfl
  | some e =>
      rw [hFailure] at hResult
      cases hResult

theorem mem_waiting_iff {linker : Linker} {name : String} {nid : Nid} {site : Addr} :
    site ∈ linker.waiting name nid ↔
      ∃ entry ∈ linker.deferred, entry.isFor name nid = true ∧ entry.site = site := by
  simp [waiting, and_assoc]

theorem mem_of_mem_leftDeferred {linker : Linker} {name : String} {nid : Nid} {bound : List Addr}
    {entry : DeferredImport} (h : entry ∈ linker.leftDeferred name nid bound) :
    entry ∈ linker.deferred := by
  unfold leftDeferred prune at h
  split at h
  · exact (List.mem_filter.mp h).1
  · exact h

end Resolve

/-- Releasing filters both what is tracked and what is deferred. -/
theorem value_release (linker : Linker) (start stop : Addr) :
    (linker.release start stop).value.2 =
      if start < stop then
        { linker with
          sites := linker.sites.filter fun site _ => !(start ≤ site && site < stop)
          deferred := linker.deferred.filter fun entry => !entry.isWithin start stop }
      else linker := by
  unfold release
  by_cases hRange : start < stop
  · rw [if_pos hRange, if_pos hRange]
    simp only
    split <;> rfl
  · rw [if_neg hRange, if_neg hRange]
    rfl

theorem callSite?_of_release {linker : Linker} {start stop site : Addr} {held : CallSite}
    (h : (linker.release start stop).value.2.callSite? site = some held) :
    linker.callSite? site = some held := by
  rw [value_release] at h
  split at h
  · simp only [callSite?, Table.get?_filter, Option.filter_eq_some_iff] at h
    exact h.1
  · exact h

theorem mem_deferred_of_release {linker : Linker} {start stop : Addr} {entry : DeferredImport}
    (h : entry ∈ (linker.release start stop).value.2.deferred) : entry ∈ linker.deferred := by
  rw [value_release] at h
  split at h
  · exact (List.mem_filter.mp h).1
  · exact h

theorem load_eq (linker : Linker) (bytes : SavedState.Bytes) :
    (linker.load bytes).value =
      match SavedState.Section.read bytes with
      | .error e => (.error e.toError, linker)
      | .ok entries => (.ok (), linker.restoreDeferred entries) := by
  unfold load
  cases SavedState.Section.read bytes <;> rfl

/-- Only bytes that are accepted replace the deferred imports. -/
theorem value_load (linker : Linker) (bytes : SavedState.Bytes) :
    (linker.load bytes).value.2 =
      match SavedState.Section.read bytes with
      | .ok entries => linker.restoreDeferred entries
      | .error _ => linker := by
  rw [load_eq]
  cases SavedState.Section.read bytes <;> rfl

section Settings

variable {G M : Type} [Memory M] (linker : Linker)

@[simp] theorem pruneResolved_bind (registry : Registry G) (m : M) (name : String) (nid : Nid)
    (site : Addr) :
    (linker.bind registry m name nid site).value.2.1.pruneResolved = linker.pruneResolved := by
  rcases hBind : (linker.bind registry m name nid site).value with ⟨result, linker', m'⟩
  cases bindStep_of_value hBind <;> rfl

@[simp] theorem pruneResolved_release (start stop : Addr) :
    (linker.release start stop).value.2.pruneResolved = linker.pruneResolved := by
  rw [value_release]
  split <;> rfl

@[simp] theorem pruneResolved_load (bytes : SavedState.Bytes) :
    (linker.load bytes).value.2.pruneResolved = linker.pruneResolved := by
  rw [value_load]
  split <;> rfl

end Settings

end Linker

/-- A request to make the deferred imports of a function jump to `target`. -/
structure ResolveRequest where
  moduleName : String
  nid : Nid
  target : Addr

/-- A request to the linker. A call site is bound with the modules that are registered at the time;
`restore` and `load` replace the deferred imports. -/
inductive LinkerRequest (G : Type)
  | bind (registry : Registry G) (name : String) (nid : Nid) (site : Addr)
  | resolve (name : String) (nid : Nid) (target : Addr)
  | release (start stop : Addr)
  | restore (entries : List DeferredImport)
  | load (bytes : SavedState.Bytes)
  | clear

namespace LinkerRequest

variable {G M : Type} [Memory M]

/-- The call sites that a request makes known to the linker. -/
def newSites : LinkerRequest G → List Addr
  | bind _ _ _ site => [site]
  | restore entries => entries.map (·.site)
  | load bytes =>
      match SavedState.Section.read bytes with
      | .ok entries => entries.map (·.site)
      | .error _ => []
  | resolve .. | release .. | clear => []

/-- The linker and the memory after a request, whether it failed or not. -/
def perform (linker : Linker) (m : M) : LinkerRequest G → Linker × M
  | bind registry name nid site => (linker.bind registry m name nid site).value.2
  | resolve name nid target => (linker.resolve m name nid target).value.2
  | release start stop => ((linker.release start stop).value.2, m)
  | restore entries => (linker.restoreDeferred entries, m)
  | load bytes => ((linker.load bytes).value.2, m)
  | clear => (linker.clear, m)

/-- The linker and the memory after a list of requests. -/
def run (linker : Linker) (m : M) : List (LinkerRequest G) → Linker × M
  | [] => (linker, m)
  | request :: rest => run (request.perform linker m).1 (request.perform linker m).2 rest

/-- Whether resolved imports are pruned is settled at the start. -/
theorem pruneResolved_run (linker : Linker) (m : M) (requests : List (LinkerRequest G)) :
    (run linker m requests).1.pruneResolved = linker.pruneResolved := by
  induction requests generalizing linker m with
  | nil => rfl
  | cons request rest ih =>
      rw [run, ih]
      cases request with
      | bind registry name nid site => exact linker.pruneResolved_bind registry m name nid site
      | release start stop => exact linker.pruneResolved_release start stop
      | load bytes => exact linker.pruneResolved_load bytes
      | resolve | restore | clear => rfl

end LinkerRequest
end HostCalls
