import HostCalls.Core.Call
import HostCalls.Proofs.Opcode

/-!
# Indices of host functions

Look-up by name is look-up by the first index, and an index once given out stays good: later
registrations only add modules at the end.

* `findFunction?_eq` takes look-up by name to the indices that an opcode carries.
* `Extends` is what registration does to a registry; `extends_registerAll` says so of any number
  of registrations, refused ones included.
* `resolve_of_invalid`, `resolve_of_noBody` and `resolve_of_body` say where an opcode leads.
-/

namespace HostCalls
namespace HostModule

variable {G : Type}

theorem function?_eq (m : HostModule G) (nid : Nid) :
    m.function? nid = (m.funcIndex? nid).bind (m.functions[·]?) :=
  List.find?_eq_bind_findIdx?_getElem?

end HostModule

namespace Registry

variable {G : Type}

section LookUp

variable {r : Registry G} {name : String} {nid : Nid} {i j : Nat}

theorem findModule?_eq (r : Registry G) (name : String) :
    r.findModule? name = (r.moduleIndex? name).bind r.module? :=
  List.find?_eq_bind_findIdx?_getElem?

theorem exists_moduleIndex? (hName : ∃ m ∈ r.modules, m.name = name) :
    ∃ i, r.moduleIndex? name = some i := by
  obtain ⟨m, hMem, hEq⟩ := hName
  cases hIndex : r.moduleIndex? name with
  | some i => exact ⟨i, rfl⟩
  | none =>
      have hNone := List.findIdx?_eq_none_iff.mp hIndex m hMem
      simp [hEq] at hNone

theorem exists_module? (hIndex : r.moduleIndex? name = some i) :
    ∃ m, r.module? i = some m := by
  obtain ⟨hLt, -⟩ := List.findIdx?_eq_some_iff_getElem.mp hIndex
  exact ⟨r.modules[i], List.getElem?_eq_getElem hLt⟩

/-- A module index fits its field of an opcode. -/
theorem moduleIndex?_lt (hIndex : r.moduleIndex? name = some i) : i < 2 ^ 8 := by
  obtain ⟨hLt, -⟩ := List.findIdx?_eq_some_iff_getElem.mp hIndex
  have hModules : r.modules.length ≤ 256 := r.length_le
  omega

/-- A function index fits its field of an opcode and is not the reserved one. -/
theorem funcIndex?_lt (hIndex : r.funcIndex? i nid = some j) : j < Opcode.absentFunc.toNat := by
  obtain ⟨m, -, hFunc⟩ := Option.bind_eq_some_iff.mp hIndex
  obtain ⟨hLt, -⟩ := List.findIdx?_eq_some_iff_getElem.mp hFunc
  have hFunctions : m.functions.length ≤ 4095 := m.length_le
  rw [show Opcode.absentFunc.toNat = 4095 from rfl]
  omega

/-- Look-up by name goes through the indices of the first module with that name and of its first
function with that identifier. -/
theorem findFunction?_eq (hIndex : r.moduleIndex? name = some i) :
    r.findFunction? name nid = (r.funcIndex? i nid).bind (r.functionAt? i) := by
  obtain ⟨m, hModule⟩ := exists_module? hIndex
  have hFind : r.findFunction? name nid = m.function? nid := by
    unfold findFunction?
    rw [findModule?_eq, hIndex, Option.bind_some, hModule, Option.bind_some]
  have hFuncIndex : r.funcIndex? i nid = m.funcIndex? nid := by
    unfold funcIndex?
    rw [hModule, Option.bind_some]
  have hAt : r.functionAt? i = fun k => m.functions[k]? := by
    funext k
    unfold functionAt?
    rw [hModule, Option.bind_some]
  rw [hFind, hFuncIndex, hAt, HostModule.function?_eq]

/-- An import that is found has a function index, and the function is there. -/
theorem exists_funcIndex? {f : HostFunction G} (hIndex : r.moduleIndex? name = some i)
    (hFind : r.findFunction? name nid = some f) :
    ∃ j, r.funcIndex? i nid = some j ∧ r.functionAt? i j = some f := by
  rw [findFunction?_eq hIndex] at hFind
  exact Option.bind_eq_some_iff.mp hFind

/-- An import that is not found has no function index. -/
theorem funcIndex?_eq_none (hIndex : r.moduleIndex? name = some i)
    (hFind : r.findFunction? name nid = none) : r.funcIndex? i nid = none := by
  cases hFunc : r.funcIndex? i nid with
  | none => rfl
  | some j =>
      obtain ⟨m, hModule, hAt⟩ := Option.bind_eq_some_iff.mp hFunc
      obtain ⟨hLt, -⟩ := List.findIdx?_eq_some_iff_getElem.mp hAt
      rw [findFunction?_eq hIndex, hFunc, Option.bind_some] at hFind
      unfold functionAt? at hFind
      rw [hModule, Option.bind_some, List.getElem?_eq_getElem hLt] at hFind
      cases hFind

theorem value_opcodeFor (hIndex : r.moduleIndex? name = some i) :
    (r.opcodeFor name nid).value =
      match r.funcIndex? i nid with
      | some j => .encode i.toUInt8 j.toUInt16
      | none => .absentFunction i.toUInt8 := by
  unfold opcodeFor
  rw [hIndex]
  simp only
  cases r.funcIndex? i nid <;> rfl

/-- The opcode for an import that is found carries the indices of the function. -/
theorem opcodeFor_of_found {f : HostFunction G} (hIndex : r.moduleIndex? name = some i)
    (hFind : r.findFunction? name nid = some f) :
    ¬ (r.opcodeFor name nid).value.isInvalid = true ∧
      (r.opcodeFor name nid).value.moduleIndex.toNat = i ∧
      r.funcIndex? i nid = some (r.opcodeFor name nid).value.funcIndex.toNat ∧
      r.functionAt? i (r.opcodeFor name nid).value.funcIndex.toNat = some f := by
  obtain ⟨j, hFunc, hFunction⟩ := exists_funcIndex? hIndex hFind
  have hi : i < 2 ^ 8 := moduleIndex?_lt hIndex
  have hj : j < Opcode.absentFunc.toNat := funcIndex?_lt hFunc
  rw [show Opcode.absentFunc.toNat = 4095 from rfl] at hj
  -- neither index is cut off by its field, and the function index is not the reserved one
  have hModuleNat : i.toUInt8.toNat = i := by
    rw [UInt8.toNat_ofNat']
    omega
  have hFuncNat : j.toUInt16.toNat = j := by
    rw [UInt16.toNat_ofNat']
    omega
  have hField : (Opcode.encode i.toUInt8 j.toUInt16).funcIndex = j.toUInt16 :=
    Opcode.funcIndex_encode _ (by omega)
  rw [value_opcodeFor hIndex, hFunc]
  simp only [Opcode.moduleIndex_encode, hField, hModuleNat, hFuncNat]
  refine ⟨?_, trivial, trivial, hFunction⟩
  rw [Opcode.isInvalid_encode, hFuncNat, show Opcode.absentFunc.toNat = 4095 from rfl]
  omega

/-- The opcode for an import that is not found still carries the module index. -/
theorem opcodeFor_of_missing (hIndex : r.moduleIndex? name = some i)
    (hFind : r.findFunction? name nid = none) :
    (r.opcodeFor name nid).value.isInvalid = true ∧
      (r.opcodeFor name nid).value.moduleIndex.toNat = i := by
  have hi : i < 2 ^ 8 := moduleIndex?_lt hIndex
  rw [value_opcodeFor hIndex, funcIndex?_eq_none hIndex hFind]
  refine ⟨Opcode.isInvalid_absentFunction _, ?_⟩
  rw [Opcode.moduleIndex_absentFunction, UInt8.toNat_ofNat']
  omega

end LookUp

section Growth

/-- Whether a registry has the modules of another, each at its old place. -/
def Extends (r r' : Registry G) : Prop :=
  r.modules <+: r'.modules

theorem Extends.functionAt? {r r' : Registry G} (h : r.Extends r') {i j : Nat} {f : HostFunction G}
    (hFunction : r.functionAt? i j = some f) : r'.functionAt? i j = some f := by
  obtain ⟨m, hModule, hAt⟩ := Option.bind_eq_some_iff.mp hFunction
  obtain ⟨added, hModules⟩ := h
  -- modules are added behind those that are there
  have hLt : i < r.modules.length := (List.getElem?_eq_some_iff.mp hModule).1
  refine Option.bind_eq_some_iff.mpr ⟨m, ?_, hAt⟩
  unfold module?
  rw [← hModules, List.getElem?_append_left hLt]
  exact hModule

theorem extends_register (r : Registry G) (name : String) (functions : List (HostFunction G)) :
    r.Extends (r.register name functions).value.2 := by
  unfold register
  cases hAdd : r.add? name functions with
  | error e => exact List.prefix_refl _
  | ok r' =>
      obtain ⟨-, hFunctions, hModules⟩ := add?_eq_ok_iff.mp hAdd
      exact ⟨_, hModules.symm⟩

/-- The registry after a list of registrations, each of which may be refused. -/
def registerAll (r : Registry G) : List (String × List (HostFunction G)) → Registry G
  | [] => r
  | (name, functions) :: rest => (r.register name functions).value.2.registerAll rest

theorem extends_registerAll (r : Registry G) (more : List (String × List (HostFunction G))) :
    r.Extends (r.registerAll more) := by
  induction more generalizing r with
  | nil => exact List.prefix_refl _
  | cons head rest ih =>
      obtain ⟨name, functions⟩ := head
      exact (extends_register r name functions).trans (ih _)

end Growth

section Resolve

variable {r : Registry G} {op : Opcode} {f : HostFunction G}

theorem resolve_of_invalid (r : Registry G) (hInvalid : op.isInvalid = true) :
    ∃ moduleName, r.resolve op = .error (.invalidOpcode moduleName) := by
  unfold resolve
  rw [if_pos hInvalid]
  exact ⟨_, rfl⟩

theorem resolve_of_noBody (hValid : ¬ op.isInvalid = true)
    (hFunction : r.functionAt? op.moduleIndex.toNat op.funcIndex.toNat = some f)
    (hBody : f.body = none) :
    ∃ moduleName, r.resolve op = .error (.unimplemented moduleName f.name) := by
  obtain ⟨m, hModule, hAt⟩ := Option.bind_eq_some_iff.mp hFunction
  unfold resolve
  rw [if_neg hValid, hModule]
  simp only [hAt, hBody]
  exact ⟨_, rfl⟩

theorem resolve_of_body {body : HostBody G} (hValid : ¬ op.isInvalid = true)
    (hFunction : r.functionAt? op.moduleIndex.toNat op.funcIndex.toNat = some f)
    (hBody : f.body = some body) :
    ∃ moduleName, r.resolve op = .ok ⟨moduleName, f.name, f.nid, body⟩ := by
  obtain ⟨m, hModule, hAt⟩ := Option.bind_eq_some_iff.mp hFunction
  unfold resolve
  rw [if_neg hValid, hModule]
  simp only [hAt, hBody]
  exact ⟨_, rfl⟩

/-- An opcode leads to the body of the function that has its indices. -/
theorem exists_functionAt?_of_resolve {callee : Callee G} (h : r.resolve op = .ok callee) :
    ∃ f, r.functionAt? op.moduleIndex.toNat op.funcIndex.toNat = some f ∧
      f.nid = callee.nid ∧ f.body = some callee.body := by
  unfold resolve at h
  split at h
  · cases h
  · split at h
    · cases h
    · rename_i m hModule
      split at h
      · cases h
      · rename_i f hAt
        split at h
        · cases h
        · rename_i body hBody
          cases h
          exact ⟨f, Option.bind_eq_some_iff.mpr ⟨m, hModule, hAt⟩, rfl, hBody⟩

end Resolve

end Registry
end HostCalls
