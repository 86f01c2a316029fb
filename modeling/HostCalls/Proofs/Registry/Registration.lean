import HostCalls.Proofs.Registry

/-!
# Runs of registrations

Opcodes in guest memory carry indices that were handed out long ago, so registering must not change
the answer to anything that was asked before. A module is added behind all others or not at all,
and a look-up by name stops at the first module of that name: what comes later is not reached.

* `Registers` lists what a registration may come to; `registers_register` says that nothing else
  happens, and `Registers.refused_iff` when one is refused.
* `Extends.findModule?_eq` and `Extends.moduleIndex?_eq`: a name once registered leads to the same
  module for good. All other look-ups go through these two.
* `registrations_keep_answers` says so of every run of registrations.
-/

namespace HostCalls
namespace Registry

variable {G : Type}

/-- What a registration comes to: its result, and the registry after it. -/
inductive Registers (r : Registry G) (name : String) (functions : List (HostFunction G)) :
    Except Error Nat → Registry G → Prop
  | added {r' : Registry G} (hRoom : r.size < 256) (hFits : functions.length ≤ 4095)
      (hModules : r'.modules = r.modules ++ [⟨name, functions, hFits⟩]) :
      Registers r name functions (.ok r.size) r'
  /-- A full table is noticed before the functions are counted. -/
  | full (hFull : r.size = 256) :
      Registers r name functions
        (.error (.invalidArgument s!"cannot register {name}: module table full ({256} modules)")) r
  | tooMany (hRoom : r.size < 256) (hMany : 4095 < functions.length) :
      Registers r name functions
        (.error (.invalidArgument
          s!"cannot register {name}: {functions.length} functions exceed the limit of {4095}")) r

theorem registers_register (r : Registry G) (name : String) (functions : List (HostFunction G)) :
    r.Registers name functions (r.register name functions).value.1
      (r.register name functions).value.2 := by
  unfold register
  cases hAdd : r.add? name functions with
  | ok r' =>
      obtain ⟨hRoom, hFits, hModules⟩ := add?_eq_ok_iff.mp hAdd
      exact .added hRoom hFits hModules
  | error e =>
      unfold add? at hAdd
      split at hAdd
      · rename_i hRoom
        split at hAdd
        · cases hAdd
        · rename_i hMany
          cases hAdd
          exact .tooMany hRoom (Nat.lt_of_not_le hMany)
      · rename_i hFull
        cases hAdd
        exact .full (Nat.le_antisymm r.length_le (Nat.le_of_not_lt hFull))

theorem Registers.refused_iff {r r' : Registry G} {name : String}
    {functions : List (HostFunction G)} {result : Except Error Nat}
    (h : r.Registers name functions result r') :
    (∃ text, result = .error (.invalidArgument text)) ↔
      r.size = 256 ∨ 4095 < functions.length := by
  cases h with
  | added hRoom hFits =>
      refine iff_of_false ?_ (by omega)
      rintro ⟨text, hText⟩
      cases hText
  | full hFull => exact iff_of_true ⟨_, rfl⟩ (Or.inl hFull)
  | tooMany hRoom hMany => exact iff_of_true ⟨_, rfl⟩ (Or.inr hMany)

theorem registerAll_append (r : Registry G) (run later : List (String × List (HostFunction G))) :
    r.registerAll (run ++ later) = (r.registerAll run).registerAll later := by
  induction run generalizing r with
  | nil => rfl
  | cons head rest ih => exact ih _

/-- A module with this name is registered. -/
def HasModule (r : Registry G) (name : String) : Prop :=
  ∃ m ∈ r.modules, m.name = name

namespace Extends

variable {r r' : Registry G} {name : String} {i : Nat}

theorem module?_eq (h : r.Extends r') (hLt : i < r.size) : r'.module? i = r.module? i := by
  obtain ⟨added, hModules⟩ := h
  unfold module?
  rw [← hModules]
  exact List.getElem?_append_left hLt

theorem findModule?_eq (h : r.Extends r') (hName : r.HasModule name) :
    r'.findModule? name = r.findModule? name := by
  obtain ⟨added, hModules⟩ := h
  obtain ⟨m, hMem, hEq⟩ := hName
  obtain ⟨first, hFirst⟩ : ∃ first, r.modules.find? (fun m => m.name == name) = some first :=
    Option.isSome_iff_exists.mp (List.find?_isSome.mpr ⟨m, hMem, by simp [hEq]⟩)
  unfold findModule?
  rw [← hModules, List.find?_append, hFirst, Option.some_or]

theorem moduleIndex?_eq (h : r.Extends r') (hName : r.HasModule name) :
    r'.moduleIndex? name = r.moduleIndex? name := by
  obtain ⟨added, hModules⟩ := h
  obtain ⟨i, hIndex⟩ := exists_moduleIndex? hName
  rw [hIndex]
  unfold moduleIndex? at hIndex ⊢
  rw [← hModules, List.findIdx?_append, hIndex, Option.some_or]

theorem findFunction?_eq (h : r.Extends r') (hName : r.HasModule name) (nid : Nid) :
    r'.findFunction? name nid = r.findFunction? name nid := by
  unfold findFunction?
  rw [h.findModule?_eq hName]

theorem functionName_eq (h : r.Extends r') (hName : r.HasModule name) (nid : Nid) :
    r'.functionName name nid = r.functionName name nid := by
  unfold functionName
  rw [h.findFunction?_eq hName]

theorem nidByName?_eq (h : r.Extends r') (hName : r.HasModule name) (functionName : String) :
    r'.nidByName? name functionName = r.nidByName? name functionName := by
  unfold nidByName?
  rw [h.findModule?_eq hName]

/-- The opcode for an import stays the same, and so does what is reported about it. -/
theorem opcodeFor_eq (h : r.Extends r') (hName : r.HasModule name) (nid : Nid) :
    r'.opcodeFor name nid = r.opcodeFor name nid := by
  obtain ⟨i, hIndex⟩ := exists_moduleIndex? hName
  have hLt : i < r.size := (List.findIdx?_eq_some_iff_getElem.mp hIndex).1
  have hFunc : r'.funcIndex? i nid = r.funcIndex? i nid := by
    unfold funcIndex?
    rw [h.module?_eq hLt]
  unfold opcodeFor
  rw [h.moduleIndex?_eq hName, hIndex]
  simp only [hFunc]

end Extends

/-- Whatever was asked of one registry has the same answer from another one. -/
structure KeepsAnswers (r r' : Registry G) : Prop where
  moduleIndex? : ∀ name, r.HasModule name → r'.moduleIndex? name = r.moduleIndex? name
  findFunction? : ∀ name nid, r.HasModule name →
    r'.findFunction? name nid = r.findFunction? name nid
  functionName : ∀ name nid, r.HasModule name →
    r'.functionName name nid = r.functionName name nid
  nidByName? : ∀ name functionName, r.HasModule name →
    r'.nidByName? name functionName = r.nidByName? name functionName
  opcodeFor : ∀ name nid, r.HasModule name → r'.opcodeFor name nid = r.opcodeFor name nid
  functionAt? : ∀ i j f, r.functionAt? i j = some f → r'.functionAt? i j = some f

theorem Extends.keepsAnswers {r r' : Registry G} (h : r.Extends r') : r.KeepsAnswers r' where
  moduleIndex? := fun _ hName => h.moduleIndex?_eq hName
  findFunction? := fun _ nid hName => h.findFunction?_eq hName nid
  functionName := fun _ nid hName => h.functionName_eq hName nid
  nidByName? := fun _ functionName hName => h.nidByName?_eq hName functionName
  opcodeFor := fun _ nid hName => h.opcodeFor_eq hName nid
  functionAt? := fun _ _ _ hFunction => h.functionAt? hFunction

/-- In every run of registrations, each one is refused, for one of two reasons, and changes nothing,
or adds its module under the next index. No answer given at one point of the run is another one at
a later point, whatever is registered in between. -/
theorem registrations_keep_answers (r : Registry G)
    (run later : List (String × List (HostFunction G))) (name : String)
    (functions : List (HostFunction G)) :
    let before := r.registerAll run
    let result := (before.register name functions).value.1
    before.Registers name functions result (r.registerAll (run ++ [(name, functions)])) ∧
      ((∃ text, result = .error (.invalidArgument text)) ↔
        before.size = 256 ∨ 4095 < functions.length) ∧
      before.KeepsAnswers (r.registerAll (run ++ later)) := by
  intro before result
  have hRegisters : before.Registers name functions result
      (r.registerAll (run ++ [(name, functions)])) := by
    rw [registerAll_append]
    exact registers_register before name functions
  refine ⟨hRegisters, hRegisters.refused_iff, ?_⟩
  rw [registerAll_append]
  exact (extends_registerAll before later).keepsAnswers

/-- Of two modules with one name, and of two functions with one identifier, the first one wins. -/
example :
    let r := (empty : Registry Unit).registerAll
      [("A", [⟨7, "first", none⟩, ⟨7, "second", none⟩]), ("A", [⟨7, "third", none⟩])]
    r.size = 2 ∧ r.functionName "A" 7 = "first" ∧ r.nidByName? "A" "third" = none := by
  decide

end Registry
end HostCalls
