import HostCalls.CallSite
import HostCalls.Registry
import HostCalls.Table

/-!
# Binding the imports of guest code

The linker keeps track of the call sites that it has written and of the imports that it could not
bind yet.

* `Linker.bind` writes the stub of an import. Identifier zero stubs the import out. An import from
  a module that is not registered leaves memory alone and is deferred. A site that jumps to guest
  code is left alone altogether.
* `Linker.resolve` makes every deferred site of an import jump to guest code, oldest first. The
  first site that cannot be written ends the pass; sites written before it stay written and, if
  resolved imports are pruned, leave the deferred list.
* `Linker.release` forgets everything in a range of addresses.
-/

namespace HostCalls

/-- A call site whose import waits for its module. -/
structure DeferredImport where
  moduleName : String
  site : Addr
  nid : Nid
deriving DecidableEq, Repr

namespace DeferredImport

/-- Whether a site imports function `nid` of the module called `name`. -/
def isFor (name : String) (nid : Nid) (entry : DeferredImport) : Bool :=
  entry.nid == nid && entry.moduleName == name

/-- Whether a site lies in the half-open range from `start` to `stop`. -/
def isWithin (start stop : Addr) (entry : DeferredImport) : Bool :=
  start ≤ entry.site && entry.site < stop

end DeferredImport

/-- The tracked call sites and the deferred imports, oldest first. -/
structure Linker where
  sites : Table Addr CallSite
  deferred : List DeferredImport
  /-- Whether a deferred import is forgotten once it is bound. -/
  pruneResolved : Bool
deriving DecidableEq

namespace Linker

/-- Nothing is tracked. -/
def empty (pruneResolved : Bool) : Linker where
  sites := .empty
  deferred := []
  pruneResolved := pruneResolved

/-- Forgets everything tracked. -/
def clear (linker : Linker) : Linker :=
  empty linker.pruneResolved

/-- What a tracked site holds. -/
def callSite? (linker : Linker) (site : Addr) : Option CallSite :=
  linker.sites.get? site

/-- Puts a list in place of the deferred imports. -/
def restoreDeferred (linker : Linker) (entries : List DeferredImport) : Linker :=
  { linker with deferred := entries }

/-- Records what a site holds. -/
def track (linker : Linker) (site : Addr) (held : CallSite) : Linker :=
  { linker with sites := linker.sites.insert site held }

/-- Adds a deferred import. -/
def defer (linker : Linker) (entry : DeferredImport) : Linker :=
  { linker with deferred := linker.deferred ++ [entry] }

section Bind

variable {G M : Type} [Memory M]

/-- Writes a site and, if that succeeds, tracks what it holds. -/
def hold (linker : Linker) (m : M) (site : Addr) (held : CallSite) :
    Logged (Except Error Unit × Linker × M) := do
  match ← held.writeSlots m site with
  | (.ok (), m) => return (.ok (), linker.track site held, m)
  | (.error e, m) => return (.error e, linker, m)

/-- Binds the call site at `site` to function `nid` of the module called `name`. -/
def bind (linker : Linker) (registry : Registry G) (m : M) (name : String) (nid : Nid)
    (site : Addr) : Logged (Except Error Unit × Linker × M) :=
  match linker.callSite? site with
  | some (.directJump target) => do
      Log.warn (s!"not patching {name}/{Hex.word nid} at {Hex.word site}: "
        ++ s!"already jumps to {Hex.word target}")
      return (.ok (), linker, m)
  | _ =>
      if nid = 0 then linker.hold m site .patchedOut
      else if (registry.moduleIndex? name).isSome then do
        let op ← registry.opcodeFor name nid
        let bound ← linker.hold m site (.stub op)
        if bound.1.isOk then
          Log.trace s!"patched {name}/{Hex.word nid} at {Hex.word site} with {op.describe}"
        return bound
      else do
        Log.info (s!"syscall {name}/{Hex.word nid} at {Hex.word site} "
          ++ "deferred until the module loads")
        return (.ok (), linker.defer ⟨name, site, nid⟩, m)

end Bind

section Resolve

variable {M : Type} [Memory M]

/-- What a pass over deferred sites leaves behind: the error that ended it, if one did, the sites
that were bound, and all tracked sites. -/
structure Pass (M : Type) where
  failure : Option Error
  bound : List Addr
  sites : Table Addr CallSite
  memory : M

/-- Makes sites jump to `target` one after the other until one cannot be written; `name` and `nid`
tell what they import. -/
def bindSites (name : String) (nid : Nid) (target : Addr) :
    List Addr → Table Addr CallSite → M → Logged (Pass M)
  | [], sites, m => return ⟨none, [], sites, m⟩
  | site :: rest, sites, m => do
      Log.info
        s!"resolving {name}/{Hex.word nid} at {Hex.word site} to {Hex.word target}"
      match ← (CallSite.directJump target).writeSlots m site with
      | (.error e, m) => do
          Log.error s!"failed to resolve {name}/{Hex.word nid} at {Hex.word site}: {e.message}"
          return ⟨some e, [], sites, m⟩
      | (.ok (), m) => do
          let pass ← bindSites name nid target rest
            (sites.insert site (.directJump target)) m
          return { pass with bound := site :: pass.bound }

/-- The deferred imports without those of function `nid` of the module called `name` whose sites
were bound. -/
def prune (name : String) (nid : Nid) (bound : List Addr) (entries : List DeferredImport) :
    List DeferredImport :=
  entries.filter fun entry => !(entry.isFor name nid && bound.contains entry.site)

/-- Makes every deferred import of function `nid` of the module called `name` jump to `target`, and
tells how many sites were bound. -/
def resolve (linker : Linker) (m : M) (name : String) (nid : Nid) (target : Addr) :
    Logged (Except Error Nat × Linker × M) := do
  let waiting := (linker.deferred.filter (·.isFor name nid)).map (·.site)
  let pass ← bindSites name nid target waiting linker.sites m
  let deferred :=
    if linker.pruneResolved then prune name nid pass.bound linker.deferred else linker.deferred
  let result := match pass.failure with
    | some e => .error e
    | none => .ok pass.bound.length
  return (result, { linker with sites := pass.sites, deferred := deferred }, pass.memory)

end Resolve

/-- Forgets the call sites and deferred imports from `start` up to but not including `stop`, and
tells how many they were. -/
def release (linker : Linker) (start stop : Addr) : Logged (Nat × Linker) :=
  if start < stop then do
    let sites := linker.sites.filter fun site _ => !(start ≤ site && site < stop)
    let deferred := linker.deferred.filter fun entry => !entry.isWithin start stop
    let released := linker.sites.size + linker.deferred.length - sites.size - deferred.length
    if released > 0 then
      Log.debug
        s!"released {released} call-site records in {Hex.word start}..{Hex.word stop}"
    return (released, { linker with sites := sites, deferred := deferred })
  else return (0, linker)

end Linker
end HostCalls
