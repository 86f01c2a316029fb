import HostCalls.Machine.FaultyMemory
import HostCalls.Proofs.Core.Call
import HostCalls.Proofs.Linker.Request
import HostCalls.Proofs.Registry
import HostCalls.Recorder

/-!
# A bound site calls the function it was bound to

Binding narrows two look-ups by name to an opcode, and a dispatch widens the opcode to two look-ups
by index, perhaps after many more registrations.

* `second_word_of_bind` is what binding leaves in the second slot.
* `bound_call_runs_designated_body`: dispatching that word runs the body that look-up by name
  designated when the site was bound, once, and no other. Without such a body it runs none, and the
  outcome tells an unimplemented function from a missing one.
-/

namespace HostCalls

namespace Linker

variable {G M : Type} [Memory M] [FaithfulMemory M]

theorem wanted?_of_registered {r : Registry G} {name : String} {nid : Nid} {i : Nat}
    (hIndex : r.moduleIndex? name = some i) (hNid : nid ≠ 0) :
    wanted? r name nid = some (.stub (r.opcodeFor name nid).value) := by
  unfold wanted?
  rw [if_neg hNid, hIndex]
  rfl

theorem second_word_of_bind {linker linker' : Linker} {r : Registry G} {m m' : M} {name : String}
    {nid : Nid} {site : Addr} {i : Nat} (hIndex : r.moduleIndex? name = some i) (hNid : nid ≠ 0)
    (hSite : ∀ target, linker.callSite? site ≠ some (.directJump target))
    (hBind : (linker.bind r m name nid site).value = (.ok (), linker', m')) :
    word m' (site + Instruction.size) = (r.opcodeFor name nid).value.raw := by
  cases bindStep_of_value hBind with
  | jumps hJump => exact absurd hJump (hSite _)
  | deferred hNoJump hWanted =>
      rw [wanted?_of_registered hIndex hNid] at hWanted
      cases hWanted
  | bound hNoJump hWanted hWrite =>
      rw [wanted?_of_registered hIndex hNid] at hWanted
      cases hWanted
      exact hWrite.held_after.2

end Linker

namespace Core

variable {G S D M : Type} [Scheduler S] [DebugHost D] [Memory M] [FaithfulMemory M]

/-- Whatever is registered after a site was bound, its opcode runs the body that was designated by
name at the time, once, and no other; where there was none, it runs none. -/
theorem bound_call_runs_designated_body {r : Registry G} {linker linker' : Linker} {m m' : M}
    {name : String} {nid : Nid} {site : Addr} (hName : ∃ module ∈ r.modules, module.name = name)
    (hNid : nid ≠ 0) (hSite : ∀ target, linker.callSite? site ≠ some (.directJump target))
    (hBind : (linker.bind r m name nid site).value = (.ok (), linker', m'))
    {core : Core G} {more : List (String × List (HostFunction G))}
    (hCore : core.registry = r.registerAll more) (env : Env G S D) :
    let op : Opcode := ⟨word m' (site + Instruction.size)⟩
    r.moduleIndex? name = some op.moduleIndex.toNat ∧
      (∀ f body, r.findFunction? name nid = some f → f.body = some body →
        r.funcIndex? op.moduleIndex.toNat nid = some op.funcIndex.toNat ∧
          RanOnly core op env op.slot f body) ∧
      (∀ f, r.findFunction? name nid = some f → f.body = none →
        (core.call op env).value.1 = .unimplemented ∧ RanNone core op env) ∧
      (r.findFunction? name nid = none →
        (core.call op env).value.1 = .invalidOpcode ∧ RanNone core op env) := by
  intro op
  obtain ⟨i, hIndex⟩ := Registry.exists_moduleIndex? hName
  have hOp : op = (r.opcodeFor name nid).value :=
    congrArg Opcode.mk (Linker.second_word_of_bind hIndex hNid hSite hBind)
  have hExtends : r.Extends core.registry := by
    rw [hCore]
    exact Registry.extends_registerAll r more
  cases hFind : r.findFunction? name nid with
  | none =>
      obtain ⟨hInvalid, hModule⟩ := Registry.opcodeFor_of_missing hIndex hFind
      rw [← hOp] at hInvalid hModule
      obtain ⟨moduleName, hResolve⟩ := Registry.resolve_of_invalid core.registry hInvalid
      refine ⟨by rw [hIndex, hModule], nofun, nofun, fun _ => ⟨?_, ranNone_of_error hResolve⟩⟩
      rw [value_call_of_error hResolve]
      rfl
  | some g =>
      obtain ⟨hValid, hModule, hFunc, hFunction⟩ := Registry.opcodeFor_of_found hIndex hFind
      rw [← hOp] at hValid hModule hFunc hFunction
      rw [← hModule] at hFunc hFunction
      -- the indices lead to the same function in the grown registry
      have hGrown := hExtends.functionAt? hFunction
      refine ⟨by rw [hIndex, hModule], fun f body hEq hBody => ?_, fun f hEq hBody => ?_, nofun⟩
      · cases hEq
        obtain ⟨moduleName, hResolve⟩ := Registry.resolve_of_body hValid hGrown hBody
        exact ⟨hFunc, ranOnly_of_ok hResolve hGrown hBody⟩
      · cases hEq
        obtain ⟨moduleName, hResolve⟩ := Registry.resolve_of_noBody hValid hGrown hBody
        refine ⟨?_, ranNone_of_error hResolve⟩
        rw [value_call_of_error hResolve]
        rfl

/-- A body that adds a slot to the account which is its whole guest. -/
def addEntry (slot : Slot) : HostBody (List Slot) :=
  fun account work => pure (account ++ [slot], work)

/-- Two modules with one name, the first of which has two functions with one identifier. -/
def twins : Registry (List Slot) :=
  Registry.empty.registerAll
    [("Twin", [⟨7, "first", some (addEntry ⟨0, 0⟩)⟩, ⟨7, "second", some (addEntry ⟨0, 1⟩)⟩]),
      ("Twin", [⟨7, "third", some (addEntry ⟨1, 0⟩)⟩])]

/-- One more module with that name. -/
def lateTwin : List (String × List (HostFunction (List Slot))) :=
  [("Twin", [⟨7, "fourth", some (addEntry ⟨2, 0⟩)⟩])]

/-- A core in which it was registered later. -/
def twinCore : Core (List Slot) :=
  { (fresh .standard : Core (List Slot)) with registry := twins.registerAll lateTwin }

/-- Of all functions that share name and identifier, a bound site calls the first. -/
theorem twin_call_runs_first :
    let bound := ((Linker.empty true).bind twins FaultyMemory.zero "Twin" 7 0x08800100).value
    let op : Opcode := ⟨word bound.2.2 (0x08800100 + Instruction.size)⟩
    let env : Env (List Slot) SchedulerRecord DebugRecord := ⟨[], .start 0, .start⟩
    op.slot = ⟨0, 0⟩ ∧
      RanOnly twinCore op env op.slot ⟨7, "first", some (addEntry ⟨0, 0⟩)⟩ (addEntry ⟨0, 0⟩) ∧
      (twinCore.call op env).value.2.2.guest = [⟨0, 0⟩] := by
  intro bound op env
  have hName : ∃ module ∈ twins.modules, module.name = "Twin" := by decide
  have hSite : ∀ target, (Linker.empty true).callSite? 0x08800100 ≠ some (.directJump target) := by
    intro target hJump
    cases hJump
  have hBind : ((Linker.empty true).bind twins FaultyMemory.zero "Twin" 7 0x08800100).value =
      (.ok (), bound.2.1, bound.2.2) := rfl
  have hCore : twinCore.registry = twins.registerAll lateTwin := rfl
  have hCall := bound_call_runs_designated_body hName (by decide) hSite hBind hCore env
  have hRan := (hCall.2.1 _ _ rfl rfl).2
  exact ⟨by decide, hRan, hRan.guest⟩

end Core
end HostCalls
