import HostCalls.Proofs.Linker.Request
import HostCalls.Proofs.Registry

/-!
# What a request can track

A tracked site holds what some request made it hold, and there are two of them:

* `Tracks` lists what a request may make a site hold, and `tracked_of_perform` says that nothing
  else becomes tracked,
* `StubsEncoded.run`: so every stub that a run tracks has an opcode that was encoded from two
  indices.
-/

namespace HostCalls
namespace Linker

variable {G M : Type} [Memory M]

theorem tracked_of_bindSites {name : String} {nid : Nid} {target : Addr} {waiting : List Addr}
    {sites : Table Addr CallSite} {m : M} {site : Addr} {held : CallSite}
    (h : (bindSites name nid target waiting sites m).value.sites.get? site = some held) :
    sites.get? site = some held ∨ (site ∈ waiting ∧ held = .directJump target) := by
  induction waiting generalizing sites m with
  | nil => exact Or.inl h
  | cons head rest ih =>
      -- what the rest of the pass found tracked, the first site or an earlier request tracked
      rw [value_bindSites_cons] at h
      rcases hWrite : ((CallSite.directJump target).writeSlots m head).value with ⟨e | ⟨⟩, m'⟩
      · rw [hWrite] at h
        exact Or.inl h
      · rw [hWrite] at h
        rcases ih h with hSites | ⟨hRest, hHeld⟩
        · rcases Table.get?_insert_cases hSites with ⟨rfl, hHeld⟩ | ⟨-, hOld⟩
          · exact Or.inr ⟨List.mem_cons_self, hHeld⟩
          · exact Or.inl hOld
        · exact Or.inr ⟨List.mem_cons_of_mem _ hRest, hHeld⟩

/-- What a request may make a site hold. -/
inductive Tracks (linker : Linker) (site : Addr) : LinkerRequest G → CallSite → Prop
  | bound {registry : Registry G} {name : String} {nid : Nid} {held : CallSite}
      (hWanted : wanted? registry name nid = some held) :
      Tracks linker site (.bind registry name nid site) held
  | resolved {name : String} {nid : Nid} {target : Addr}
      (hWaiting : site ∈ linker.waiting name nid) :
      Tracks linker site (.resolve name nid target) (.directJump target)

theorem tracked_of_perform {linker : Linker} {m : M} {request : LinkerRequest G} {site : Addr}
    {held : CallSite} (h : (request.perform linker m).1.callSite? site = some held) :
    linker.callSite? site = some held ∨ Tracks linker site request held := by
  cases request with
  | bind registry name nid other =>
      rcases hBind : (linker.bind registry m name nid other).value with ⟨result, linker', m'⟩
      simp only [LinkerRequest.perform, hBind] at h
      cases bindStep_of_value hBind with
      | jumps => exact Or.inl h
      | deferred => exact Or.inl h
      | bound hNoJump hWanted hWrite =>
          rcases Table.get?_insert_cases h with ⟨rfl, rfl⟩ | ⟨-, hOld⟩
          · exact Or.inr (.bound hWanted)
          · exact Or.inl hOld
      | failed => exact Or.inl h
  | resolve name nid target =>
      simp only [LinkerRequest.perform, value_resolve, callSite?] at h
      rcases tracked_of_bindSites h with hOld | ⟨hWaiting, rfl⟩
      · exact Or.inl hOld
      · exact Or.inr (.resolved hWaiting)
  | release start stop => exact Or.inl (callSite?_of_release h)
  | restore entries => exact Or.inl h
  | load bytes =>
      simp only [LinkerRequest.perform, value_load] at h
      split at h <;> exact Or.inl h
  | clear => cases h

/-- Whether the opcode of every tracked stub is encoded from two indices. -/
def StubsEncoded (linker : Linker) : Prop :=
  ∀ site op, linker.callSite? site = some (.stub op) → ∃ module func, op = .encode module func

/-- The opcode that an import wants is encoded, also if the function is absent. -/
theorem encoded_of_wanted? {registry : Registry G} {name : String} {nid : Nid} {op : Opcode}
    (h : wanted? registry name nid = some (.stub op)) :
    ∃ module func, op = .encode module func := by
  unfold wanted? at h
  split at h
  · cases h
  · cases hIndex : registry.moduleIndex? name with
    | none =>
        rw [hIndex] at h
        cases h
    | some i =>
        rw [hIndex] at h
        cases h
        rw [Registry.value_opcodeFor hIndex]
        cases registry.funcIndex? i nid with
        | some j => exact ⟨_, _, rfl⟩
        | none => exact ⟨_, _, Opcode.absentFunction_eq_encode _⟩

namespace StubsEncoded

variable {linker : Linker}

theorem perform (h : linker.StubsEncoded) (m : M) (request : LinkerRequest G) :
    (request.perform linker m).1.StubsEncoded := by
  intro site op hSite
  rcases tracked_of_perform hSite with hOld | hTracks
  · exact h site op hOld
  · cases hTracks with
    | bound hWanted => exact encoded_of_wanted? hWanted

theorem run (h : linker.StubsEncoded) (m : M) (requests : List (LinkerRequest G)) :
    (LinkerRequest.run linker m requests).1.StubsEncoded := by
  induction requests generalizing linker m with
  | nil => exact h
  | cons request rest ih => exact ih (h.perform m request) _

end StubsEncoded

end Linker
end HostCalls
