import HostCalls.SavedState.Section
import HostCalls.Stats

/-!
# The state of a core

A `Core` holds everything that dispatching changes on the side of the host: the registry, the
linker, the pending work and the counters. A core is only made from a usable
configuration, and `Core.shutdown` makes it as new.
-/

namespace HostCalls

/-- The state of a core on the side of the host. -/
structure Core (G : Type) where
  config : Config
  registry : Registry G
  linker : Linker
  work : FollowUp
  stats : Stats

namespace Core

variable {G : Type}

/-- A core that has done nothing yet. -/
def fresh (config : Config) : Core G where
  config := config
  registry := .empty
  linker := .empty config.pruneResolved
  work := .ofConfig config
  stats := .zero

/-- The core for a configuration, if that is usable. -/
def ofConfig (config : Config) : Except Error (Core G) :=
  match config.validate with
  | .ok () => .ok (fresh config)
  | .error e => .error e

/-- The core for a configuration, with all that it sets aside. It is the one of `ofConfig`, unless
the room for a reason is larger than the host allows. -/
def alloc (config : Config) : Except CapacityFault (Except Error (Core G)) :=
  match config.validate with
  | .error e => .ok (.error e)
  | .ok () => do
      let work ← FollowUp.alloc config
      return .ok { fresh config with work := work }

theorem alloc_of_le {config : Config} (h : config.reasonCapacity ≤ 0x7FFFFFFFFFFFFFFF) :
    alloc config = .ok (ofConfig config : Except Error (Core G)) := by
  unfold alloc ofConfig FollowUp.alloc
  rw [reserve_of_le h]
  cases config.validate <;> rfl

/-- A usable configuration does not have to be one that the host allows. -/
theorem alloc_of_lt {config : Config} (hUsable : config.validate = .ok ())
    (h : 0x7FFFFFFFFFFFFFFF < config.reasonCapacity) :
    (alloc config : Except CapacityFault (Except Error (Core G))) = .error .overflow := by
  unfold alloc FollowUp.alloc
  rw [hUsable, reserve_of_lt h]
  rfl

/-- Lets a registrar work on the registry. -/
def registerWith (core : Core G) (registrar : Registrar G) :
    Logged (Except Error Unit × Core G) := do
  let (result, registry) ← registrar core.registry
  return (result, { core with registry := registry })

/-- Lets registrars work on the registry one after the other until one fails. -/
def runRegistrars (core : Core G) : List (Registrar G) →
    Logged (Except Error Unit × Core G)
  | [] => return (.ok (), core)
  | registrar :: rest => do
      match ← core.registerWith registrar with
      | (.ok (), core) => core.runRegistrars rest
      | (.error e, core) => return (.error (e.during "module registration"), core)

/-- Fills the registry. -/
def init (core : Core G) (registrars : List (Registrar G)) :
    Logged (Except Error Unit × Core G) := do
  match ← core.runRegistrars registrars with
  | (.ok (), core) => do
      Log.info s!"HLE initialized with {core.registry.size} modules"
      return (.ok (), core)
  | (.error e, core) => return (.error e, core)

/-- Forgets all modules, call sites, deferred imports, pending work and counters. -/
def shutdown (core : Core G) : Logged (Core G) := do
  Log.info "HLE shut down"
  return {
    core with
    registry := .empty
    linker := core.linker.clear
    work := core.work.clear
    stats := .zero }

/-- Zeroes the counters. -/
def resetStats (core : Core G) : Core G :=
  { core with stats := .zero }

/-- Registers one module and returns its index. -/
def register (core : Core G) (name : String) (functions : List (HostFunction G)) :
    Logged (Except Error Nat × Core G) := do
  let (result, registry) ← core.registry.register name functions
  return (result, { core with registry := registry })

/-- Binds a call site; see `Linker.bind`. -/
def bindSite {M : Type} [Memory M] (core : Core G) (m : M) (name : String) (nid : Nid)
    (site : Addr) : Logged (Except Error Unit × Core G × M) := do
  let (result, linker, m) ← core.linker.bind core.registry m name nid site
  return (result, { core with linker := linker }, m)

/-- Binds deferred imports to guest code; see `Linker.resolve`. -/
def resolve {M : Type} [Memory M] (core : Core G) (m : M) (name : String) (nid : Nid)
    (target : Addr) : Logged (Except Error Nat × Core G × M) := do
  let (result, linker, m) ← core.linker.resolve m name nid target
  return (result, { core with linker := linker }, m)

/-- Forgets the call sites of guest code that is unloaded; see `Linker.release`. -/
def release (core : Core G) (start stop : Addr) : Logged (Nat × Core G) := do
  let (released, linker) ← core.linker.release start stop
  return (released, { core with linker := linker })

/-- The saved form of the deferred imports. -/
def save (core : Core G) : SavedState.Bytes :=
  core.linker.save

/-- Puts saved deferred imports in place of the present ones; see `Linker.load`. -/
def load (core : Core G) (bytes : SavedState.Bytes) : Logged (Except Error Unit × Core G) := do
  let (result, linker) ← core.linker.load bytes
  return (result, { core with linker := linker })

end Core
end HostCalls
