import HostCalls.Opcode
import HostCalls.FollowUp
import HostCalls.Text.Quoted

/-!
# The registry of host functions

Host functions are registered in modules, in tables whose order gives them their indices. Names
are not made unique: a later module or function of the same name or identifier is kept but is
shadowed by the first one in every look-up by name, so the indices handed out for a module stay
good until the registry is cleared.

* `Registry.register` adds a module, and refuses it when its indices would not fit an opcode.
  The sizes that it guarantees are part of the types `HostModule` and `Registry`.
* `Registry.opcodeFor` is the opcode that a call site should carry for an import.
-/

namespace HostCalls

/-- The host's implementation of a function: it may work on its part of the guest, and request
work for after the call. -/
abbrev HostBody (G : Type) := G → FollowUp → Logged (G × FollowUp)

/-- A function that a module exports. Without a body it is known but not implemented. -/
structure HostFunction (G : Type) where
  nid : Nid
  name : String
  body : Option (HostBody G)

namespace HostFunction

variable {G : Type}

/-- Whether there is a body. -/
def isImplemented (f : HostFunction G) : Bool :=
  f.body.isSome

/-- The text shown for a function. -/
def describe (f : HostFunction G) : String :=
  "HleFunction \x7b nid: " ++ Hex.markedWord f.nid ++ ", name: " ++ Text.quoted f.name
    ++ s!", implemented: {f.isImplemented} \x7d"

end HostFunction

/-- A named table of functions, small enough for its indices to fit an opcode. -/
structure HostModule (G : Type) where
  name : String
  functions : List (HostFunction G)
  length_le : functions.length ≤ Opcode.maxFunctions

namespace HostModule

variable {G : Type}

/-- The index of the first function with an identifier. -/
def funcIndex? (m : HostModule G) (nid : Nid) : Option Nat :=
  m.functions.findIdx? fun f => f.nid == nid

/-- The first function with an identifier. -/
def function? (m : HostModule G) (nid : Nid) : Option (HostFunction G) :=
  m.functions.find? fun f => f.nid == nid

end HostModule

/-- The registered modules, few enough for their indices to fit an opcode. -/
structure Registry (G : Type) where
  modules : List (HostModule G)
  length_le : modules.length ≤ Opcode.maxModules

/-- Why a module is not registered. -/
inductive RegisterError
  /-- Every module index is taken. -/
  | tableFull
  /-- There are more functions than function indices. -/
  | tooManyFunctions (count : Nat)
deriving DecidableEq, Repr

/-- The error reported for the module called `name`. -/
def RegisterError.toError (name : String) : RegisterError → Error
  | tableFull =>
      .invalidArgument s!"cannot register {name}: module table full ({Opcode.maxModules} modules)"
  | tooManyFunctions count =>
      .invalidArgument
        s!"cannot register {name}: {count} functions exceed the limit of {Opcode.maxFunctions}"

namespace Registry

variable {G : Type}

/-- No module is registered. -/
def empty : Registry G where
  modules := []
  length_le := Nat.zero_le _

/-- The number of registered modules. -/
def size (r : Registry G) : Nat :=
  r.modules.length

/-- Whether no module is registered. -/
def isEmpty (r : Registry G) : Bool :=
  r.modules.isEmpty

/-- The registry with one more module, if its indices fit. -/
def add? (r : Registry G) (name : String) (functions : List (HostFunction G)) :
    Except RegisterError (Registry G) :=
  if hModules : r.modules.length < Opcode.maxModules then
    if hFunctions : functions.length ≤ Opcode.maxFunctions then
      .ok {
        modules := r.modules ++ [⟨name, functions, hFunctions⟩]
        length_le := by
          rw [List.length_append]
          exact hModules }
    else .error (.tooManyFunctions functions.length)
  else .error .tableFull

/-- Registers a module and returns its index. -/
def register (r : Registry G) (name : String) (functions : List (HostFunction G)) :
    Logged (Except Error Nat × Registry G) :=
  match r.add? name functions with
  | .error e => return (.error (e.toError name), r)
  | .ok r' => do
      Log.debug s!"registered module {name} ({functions.length} functions) at {r.size}"
      return (.ok r.size, r')

/-- The index of the first module called `name`. -/
def moduleIndex? (r : Registry G) (name : String) : Option Nat :=
  r.modules.findIdx? fun m => m.name == name

/-- The module with an index. -/
def module? (r : Registry G) (index : Nat) : Option (HostModule G) :=
  r.modules[index]?

/-- The first module called `name`. -/
def findModule? (r : Registry G) (name : String) : Option (HostModule G) :=
  r.modules.find? fun m => m.name == name

/-- The index of `nid` in the module with an index. -/
def funcIndex? (r : Registry G) (moduleIndex : Nat) (nid : Nid) : Option Nat :=
  (r.module? moduleIndex).bind (·.funcIndex? nid)

/-- The function `nid` of the module called `name`. -/
def findFunction? (r : Registry G) (name : String) (nid : Nid) : Option (HostFunction G) :=
  (r.findModule? name).bind (·.function? nid)

/-- The function with a module index and a function index. -/
def functionAt? (r : Registry G) (moduleIndex funcIndex : Nat) : Option (HostFunction G) :=
  (r.module? moduleIndex).bind (·.functions[funcIndex]?)

/-- The name of function `nid` of the module called `name`, or a text that shows `nid`. -/
def functionName (r : Registry G) (name : String) (nid : Nid) : String :=
  match r.findFunction? name nid with
  | some f => f.name
  | none => s!"[UNK: {Hex.markedWord nid}]"

/-- The name of the function with a module index and a function index. -/
def functionNameAt (r : Registry G) (moduleIndex funcIndex : Nat) : String :=
  ((r.functionAt? moduleIndex funcIndex).map (·.name)).getD "[unknown]"

/-- The identifier of the first function called `functionName` in the module called `name`. -/
def nidByName? (r : Registry G) (name functionName : String) : Option Nid :=
  ((r.findModule? name).bind (·.functions.find? fun f => f.name == functionName)).map (·.nid)

/-- The opcode that a call site should carry to import `nid` from the module called `name`. -/
def opcodeFor (r : Registry G) (name : String) (nid : Nid) : Logged Opcode :=
  match r.moduleIndex? name with
  | none => do
      Log.error s!"unknown module {name} for syscall {Hex.word nid}"
      return .absentModule
  | some moduleIndex =>
      match r.funcIndex? moduleIndex nid with
      | some funcIndex => return .encode moduleIndex.toUInt8 funcIndex.toUInt16
      | none => do
          Log.info s!"syscall {Hex.word nid} missing from module {name}"
          return .absentFunction moduleIndex.toUInt8

theorem add?_eq_ok_iff {r r' : Registry G} {name : String}
    {functions : List (HostFunction G)} :
    r.add? name functions = .ok r' ↔
      r.size < Opcode.maxModules ∧
        ∃ h : functions.length ≤ Opcode.maxFunctions,
          r'.modules = r.modules ++ [⟨name, functions, h⟩] := by
  unfold add? size
  constructor
  · intro h
    split at h
    · split at h
      · rename_i hModules hFunctions
        cases h
        exact ⟨hModules, hFunctions, rfl⟩
      · cases h
    · cases h
  · rintro ⟨hModules, hFunctions, hEq⟩
    rw [dif_pos hModules, dif_pos hFunctions]
    cases r'
    cases hEq
    rfl

end Registry

/-- A step of registration, which may register modules and may fail after having done so. -/
abbrev Registrar (G : Type) := Registry G → Logged (Except Error Unit × Registry G)

end HostCalls
