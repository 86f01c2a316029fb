import HostCalls.Proofs.Core.Accounting
import HostCalls.Proofs.Core.Run

/-!
# A core after its shutdown

A core keeps parts of its configuration in three places: the configuration itself, the linker,
which knows whether it prunes, and the pending work, which knows the room for a reason and which
calls hold a debug break back. A shutdown makes everything else as new and relies on these copies.

* `CoreRequest` is whatever may be asked of a core, with what it is asked against, and
  `CoreRequest.run` a run of such requests with their answers.
* `Core.Configured` says that the copies agree with the configuration. Each request keeps it
  (`Configured.perform`), and so does a run (`Configured.run`), as long as bodies change the pending
  work by requests only.
* `shutdown_renews`: whatever was asked of a core, its shutdown leaves the core that the
  configuration makes.
-/

namespace HostCalls

/-- Whether a registrar adds to a registry only such bodies as change the pending work by requests
only. -/
def Registrar.KeepsRequests {G : Type} (registrar : Registrar G) : Prop :=
  ∀ r : Registry G, r.OnlyRequests → (registrar r).value.2.OnlyRequests

/-- Something asked of a core, together with the memory or the surroundings that it works on. -/
inductive CoreRequest (G E M : Type)
  | init (registrars : List (Registrar G))
  | register (name : String) (functions : List (HostFunction G))
  | bindSite (m : M) (name : String) (nid : Nid) (site : Addr)
  | resolve (m : M) (name : String) (nid : Nid) (target : Addr)
  | release (start stop : Addr)
  | save
  | load (bytes : SavedState.Bytes)
  | call (op : Opcode) (env : E)
  | resetStats
  | shutdown

/-- What a core answers, together with what it leaves behind besides itself. -/
inductive CoreAnswer (E M : Type)
  /-- There is nothing to tell. -/
  | silent
  | done (result : Except Error Unit)
  | registered (result : Except Error Nat)
  | bound (result : Except Error Unit) (m : M)
  | resolved (result : Except Error Nat) (m : M)
  | released (count : Nat)
  | saved (bytes : SavedState.Bytes)
  | called (outcome : CallOutcome) (env : E)

namespace CoreRequest

variable {G E M : Type} [Surroundings E G] [Memory M]

/-- Does what is asked of a core. -/
def perform (core : Core G) : CoreRequest G E M → Logged (CoreAnswer E M × Core G)
  | init registrars => do
      let (result, core) ← core.init registrars
      return (.done result, core)
  | register name functions => do
      let (result, core) ← core.register name functions
      return (.registered result, core)
  | bindSite m name nid site => do
      let (result, core, m) ← core.bindSite m name nid site
      return (.bound result m, core)
  | resolve m name nid target => do
      let (result, core, m) ← core.resolve m name nid target
      return (.resolved result m, core)
  | release start stop => do
      let (count, core) ← core.release start stop
      return (.released count, core)
  | save => return (.saved core.save, core)
  | load bytes => do
      let (result, core) ← core.load bytes
      return (.done result, core)
  | call op env => do
      let (outcome, core, env) ← core.call op env
      return (.called outcome env, core)
  | resetStats => return (.silent, core.resetStats)
  | shutdown => do
      let core ← core.shutdown
      return (.silent, core)

/-- Does one thing after the other, and tells all answers in order. -/
def run (core : Core G) : List (CoreRequest G E M) → Logged (List (CoreAnswer E M) × Core G)
  | [] => return ([], core)
  | request :: rest => do
      let (answer, core) ← request.perform core
      let (answers, core) ← run core rest
      return (answer :: answers, core)

/-- Whether all bodies that a request brings along change the pending work by requests only. -/
def OnlyRequests : CoreRequest G E M → Prop
  | init registrars => ∀ registrar ∈ registrars, registrar.KeepsRequests
  | register _ functions => ∀ f ∈ functions, ∀ body, f.body = some body → body.OnlyRequests
  | bindSite .. | resolve .. | release .. | save | load _ | call .. | resetStats | shutdown => True

end CoreRequest

namespace Registry

variable {G : Type} {r : Registry G}

theorem onlyRequests_empty : (empty : Registry G).OnlyRequests := by
  intro m hModule
  cases hModule

/-- A module that is refused leaves the registry as it is. -/
theorem OnlyRequests.register (h : r.OnlyRequests) (name : String)
    {functions : List (HostFunction G)}
    (hFunctions : ∀ f ∈ functions, ∀ body, f.body = some body → body.OnlyRequests) :
    (r.register name functions).value.2.OnlyRequests := by
  unfold Registry.register
  cases hAdd : r.add? name functions with
  | error e => exact h
  | ok r' =>
      obtain ⟨-, hLength, hModules⟩ := add?_eq_ok_iff.mp hAdd
      intro m hModule
      have hModule' : m ∈ r'.modules := hModule
      rw [hModules, List.mem_append, List.mem_singleton] at hModule'
      rcases hModule' with hOld | rfl
      · exact h m hOld
      · exact hFunctions

end Registry

namespace FollowUp

/-- Finishing a call leaves the settings as they are, whether a break is held back or not. -/
theorem settings_finishOn {H : Type} [Scheduler H] [DebugHost H] (p : FollowUp) (nid : Nid)
    (host : H) :
    (p.finishOn nid host).value.2.1.capacity = p.capacity ∧
      (p.finishOn nid host).value.2.1.blacklist = p.blacklist := by
  rw [value_finishOn]
  split
  · split <;> exact ⟨rfl, rfl⟩
  · exact ⟨rfl, rfl⟩

end FollowUp

namespace Core

variable {G E M : Type}

/-- A core whose copies of the configuration agree with it, and whose bodies cannot change them. -/
structure Configured (config : Config) (core : Core G) : Prop where
  config_eq : core.config = config
  pruneResolved : core.linker.pruneResolved = config.pruneResolved
  capacity : core.work.capacity = config.reasonCapacity
  blacklist : core.work.blacklist = config.breakBlacklist
  bodies : core.registry.OnlyRequests

variable {config : Config} {core : Core G}

theorem configured_fresh (config : Config) : (fresh config : Core G).Configured config where
  config_eq := rfl
  pruneResolved := rfl
  capacity := rfl
  blacklist := rfl
  bodies := Registry.onlyRequests_empty

namespace Configured

/-- The five parts that a shutdown renews are all that can have changed. -/
theorem value_shutdown (h : core.Configured config) : core.shutdown.value = fresh config := by
  have hLinker : core.linker.clear = .empty config.pruneResolved :=
    congrArg Linker.empty h.pruneResolved
  have hWork : core.work.clear = .ofConfig config := by
    unfold FollowUp.clear FollowUp.ofConfig
    rw [h.capacity, h.blacklist]
  show ({ core with
    registry := .empty, linker := core.linker.clear, work := core.work.clear, stats := .zero } :
      Core G) = fresh config
  rw [hLinker, hWork, h.config_eq]
  rfl

theorem withRegistry (h : core.Configured config) {registry : Registry G}
    (hBodies : registry.OnlyRequests) :
    ({ core with registry := registry } : Core G).Configured config :=
  { h with bodies := hBodies }

theorem withLinker (h : core.Configured config) {linker : Linker}
    (hPrunes : linker.pruneResolved = core.linker.pruneResolved) :
    ({ core with linker := linker } : Core G).Configured config :=
  { h with pruneResolved := hPrunes.trans h.pruneResolved }

theorem withStats (h : core.Configured config) (stats : Stats) :
    ({ core with stats := stats } : Core G).Configured config :=
  { h with }

theorem withWork (h : core.Configured config) {work : FollowUp}
    (hSettings : work.capacity = core.work.capacity ∧ work.blacklist = core.work.blacklist) :
    ({ core with work := work } : Core G).Configured config :=
  { h with
    capacity := hSettings.1.trans h.capacity
    blacklist := hSettings.2.trans h.blacklist }

theorem runRegistrars (h : core.Configured config) {registrars : List (Registrar G)}
    (hKeep : ∀ registrar ∈ registrars, registrar.KeepsRequests) :
    (core.runRegistrars registrars).value.2.Configured config := by
  induction registrars generalizing core with
  | nil => exact h
  | cons registrar rest ih =>
      have hFirst := h.withRegistry (hKeep registrar List.mem_cons_self core.registry h.bodies)
      have hRest : ∀ other ∈ rest, other.KeepsRequests :=
        fun other hOther => hKeep other (List.mem_cons_of_mem _ hOther)
      rw [Core.runRegistrars]
      simp only [Logged.value_bind, registerWith, Logged.value_pure]
      -- a registrar that fails ends the list, and what it has registered stays
      rcases hDone : (registrar core.registry).value with ⟨e | ⟨⟩, registry⟩
      · rw [hDone] at hFirst
        exact hFirst
      · rw [hDone] at hFirst
        exact ih hFirst hRest

section Call

variable [Surroundings E G]

theorem finishCall (h : core.Configured config) (nid : Nid) (env : E) :
    (core.finishCall nid env).value.2.1.Configured config := by
  unfold Core.finishCall
  split
  · exact h
  · exact (h.withWork (core.work.settings_finishOn nid env)).withStats _

theorem call (h : core.Configured config) (op : Opcode) (env : E) :
    (core.call op env).value.2.1.Configured config := by
  cases hResolve : core.registry.resolve op with
  | error failure =>
      rw [value_call_of_error hResolve]
      exact h.withStats _
  | ok callee =>
      obtain ⟨m, hModule, f, hFunction, -, hBody⟩ := Registry.exists_function_of_resolve hResolve
      obtain ⟨requests, hRequests⟩ :=
        h.bodies m hModule f hFunction _ hBody (Surroundings.guest env) core.work
      have hSettings := WorkRequest.settings_performAll core.work requests
      rw [← hRequests] at hSettings
      rw [value_call_of_ok hResolve]
      exact ((h.withWork hSettings).withStats _).finishCall callee.nid _

variable [Memory M]

/-- Whatever is asked of a core, the copies of its configuration stay as they are. -/
theorem perform (h : core.Configured config) {request : CoreRequest G E M}
    (hOnly : request.OnlyRequests) : (request.perform core).value.2.Configured config := by
  cases request with
  | init registrars =>
      show (core.init registrars).value.2.Configured config
      rw [value_init_core]
      exact h.runRegistrars hOnly
  | register name functions => exact h.withRegistry (h.bodies.register name hOnly)
  | bindSite m name nid site =>
      exact h.withLinker (core.linker.pruneResolved_bind core.registry m name nid site)
  | resolve m name nid target => exact h.withLinker rfl
  | release start stop => exact h.withLinker (core.linker.pruneResolved_release start stop)
  | save => exact h
  | load bytes => exact h.withLinker (core.linker.pruneResolved_load bytes)
  | call op env => exact h.call op env
  | resetStats => exact h.withStats _
  | shutdown =>
      show core.shutdown.value.Configured config
      rw [h.value_shutdown]
      exact configured_fresh config

theorem run (h : core.Configured config) {requests : List (CoreRequest G E M)}
    (hOnly : ∀ request ∈ requests, request.OnlyRequests) :
    (CoreRequest.run core requests).value.2.Configured config := by
  induction requests generalizing core with
  | nil => exact h
  | cons request rest ih =>
      have hFirst := h.perform (hOnly request List.mem_cons_self)
      exact ih hFirst fun other hOther => hOnly other (List.mem_cons_of_mem _ hOther)

end Call

end Configured

section Shutdown

variable [Surroundings E G] [Memory M]

/-- Whatever was asked of the core that a configuration makes, its shutdown leaves that core again:
it cannot be told from the new one by anything that is asked of it later. -/
theorem shutdown_renews (hCore : ofConfig config = .ok core)
    (before : List (CoreRequest G E M)) (hOnly : ∀ request ∈ before, request.OnlyRequests) :
    let stopped := (CoreRequest.run core before).value.2.shutdown.value
    stopped = core ∧ stopped = fresh config ∧
      ∀ later : List (CoreRequest G E M),
        CoreRequest.run stopped later = CoreRequest.run core later := by
  intro stopped
  have hFresh : core = fresh config := by
    unfold ofConfig at hCore
    split at hCore
    · cases hCore
      rfl
    · cases hCore
  have hConfigured := (configured_fresh config).run hOnly
  rw [← hFresh] at hConfigured
  have hStopped : stopped = fresh config := hConfigured.value_shutdown
  refine ⟨hStopped.trans hFresh.symm, hStopped, fun later => ?_⟩
  rw [hStopped, hFresh]

end Shutdown

/-- Registers a function that asks for the debug break, and then fails. -/
def registerAsking : Registrar Unit := fun r => do
  let (_, r) ← r.register "Sys"
    [⟨7, "ask", some (.ofRequests [.reschedule (some "asked"), .debugBreak])⟩]
  return (.error (.systemError "failing"), r)

/-- A failed initialisation, a bound and a deferred import, and a call whose break is held back. -/
def busyRun : List (CoreRequest Unit (Env Unit SchedulerRecord DebugRecord) FaultyMemory) :=
  [.init [registerAsking], .bindSite .zero "Sys" 7 0x08800100, .bindSite .zero "Late" 9 0x08800200,
    .call (.encode 0 0) ⟨(), .start 0, .start⟩]

/-- Nothing is left of a module, two call sites, a break that was held back, and a counted call. -/
theorem busy_core_renewed :
    let config : Config := { Config.standard with breakBlacklist := [7], pruneResolved := false }
    let used := (CoreRequest.run (fresh config) busyRun).value.2
    used.registry.size = 1 ∧ used.linker.sites.size = 1 ∧ used.linker.deferred.length = 1 ∧
      used.work.pending.has .debugBreak = true ∧ used.stats.total = 1 ∧
      used.shutdown.value = fresh config := by
  intro config used
  have hCore : ofConfig config = .ok (fresh config : Core Unit) := rfl
  have hRegistrar : registerAsking.KeepsRequests := by
    intro r hBodies
    refine hBodies.register "Sys" fun f hFunction body hBody => ?_
    rw [List.mem_singleton.mp hFunction] at hBody
    cases hBody
    exact HostBody.onlyRequests_ofRequests _
  have hOnly : ∀ request ∈ busyRun, request.OnlyRequests := by
    intro request hMem
    simp only [busyRun, List.mem_cons, List.not_mem_nil, or_false] at hMem
    rcases hMem with rfl | rfl | rfl | rfl
    · intro registrar hRegistrars
      rw [List.mem_singleton.mp hRegistrars]
      exact hRegistrar
    all_goals exact trivial
  exact ⟨by decide, by decide, by decide, by decide, by decide,
    (shutdown_renews hCore busyRun hOnly).2.1⟩

end Core
end HostCalls
