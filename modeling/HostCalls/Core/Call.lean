import HostCalls.Core

/-!
# Dispatching a system call

`Registry.resolve` finds the body that an opcode leads to, or tells why there is none. A dispatch
that finds none is counted and logged but hidden from the guest, for which the call did nothing.
A dispatch that finds a body runs it on the guest and then carries out the work it requested.
-/

namespace HostCalls

/-- How the dispatch of an opcode ended. -/
inductive CallOutcome
  /-- The body ran; how the work after it ended. -/
  | called (after : FollowUpOutcome)
  /-- The function has no body. -/
  | unimplemented
  /-- The opcode can never be dispatched. -/
  | invalidOpcode
  /-- The opcode's module or function is not registered. -/
  | unknownFunction
deriving DecidableEq, Repr

namespace CallOutcome

/-- Every outcome. -/
def all : List CallOutcome :=
  [called .completed, called .breakDeferred, called .breakEntered, unimplemented, invalidOpcode,
   unknownFunction]

/-- The name of an outcome. -/
def name : CallOutcome → String
  | called .completed => "completed"
  | called .breakDeferred => "break_deferred"
  | called .breakEntered => "break_entered"
  | unimplemented => "unimplemented"
  | invalidOpcode => "invalid_opcode"
  | unknownFunction => "unknown_function"

/-- Whether a body ran. -/
def wasCalled : CallOutcome → Bool
  | called _ => true
  | _ => false

/-- The text by which an outcome is logged. -/
def describe : CallOutcome → String
  | called .completed => "Called(Completed)"
  | called .breakDeferred => "Called(BreakDeferred)"
  | called .breakEntered => "Called(BreakEntered)"
  | unimplemented => "Unimplemented"
  | invalidOpcode => "InvalidOpcode"
  | unknownFunction => "UnknownFunction"

end CallOutcome

/-- Why an opcode leads to no body. -/
inductive CallFailure
  /-- The opcode can never be dispatched; the name of the module that it seems to mean. -/
  | invalidOpcode (moduleName : String)
  /-- No module has the opcode's module index. -/
  | noModule
  /-- The module has no function with the opcode's function index. -/
  | noFunction (moduleName : String)
  /-- The function has no body. -/
  | unimplemented (moduleName functionName : String)
deriving DecidableEq, Repr

namespace CallFailure

/-- The outcome of a dispatch that failed. -/
def outcome : CallFailure → CallOutcome
  | invalidOpcode _ => .invalidOpcode
  | noModule => .unknownFunction
  | noFunction _ => .unknownFunction
  | unimplemented _ _ => .unimplemented

/-- The text logged when the dispatch of `op` fails. -/
def message (op : Opcode) : CallFailure → String
  | invalidOpcode moduleName =>
      s!"trying to call invalid syscall {Hex.markedWord op.raw} in module {moduleName}"
  | noModule =>
      s!"syscall {Hex.markedWord op.raw}: bad module index {op.moduleIndex.toNat}"
  | noFunction moduleName =>
      s!"syscall {Hex.markedWord op.raw}: bad function index {op.funcIndex.toNat} "
        ++ s!"in module {moduleName}"
  | unimplemented moduleName functionName =>
      s!"unimplemented HLE function {moduleName}::{functionName}"

end CallFailure

/-- The body that an opcode leads to, with the names it is traced by. -/
structure Callee (G : Type) where
  moduleName : String
  functionName : String
  nid : Nid
  body : HostBody G

namespace Registry

variable {G : Type}

/-- The body that an opcode leads to. -/
def resolve (r : Registry G) (op : Opcode) : Except CallFailure (Callee G) :=
  if op.isInvalid then
    .error (.invalidOpcode
      (((r.module? op.moduleIndex.toNat).map (·.name)).getD "unknown"))
  else
    match r.module? op.moduleIndex.toNat with
    | none => .error .noModule
    | some m =>
        match m.functions[op.funcIndex.toNat]? with
        | none => .error (.noFunction m.name)
        | some f =>
            match f.body with
            | none => .error (.unimplemented m.name f.name)
            | some body => .ok ⟨m.name, f.name, f.nid, body⟩

end Registry

namespace Stats

/-- Counts a dispatch that failed. -/
def countFailure (stats : Stats) (failure : CallFailure) : Stats :=
  { stats with
    errors := stats.errors + 1
    unimplemented :=
      if failure.outcome = .unimplemented then stats.unimplemented + 1 else stats.unimplemented }

end Stats

namespace Core

variable {G E : Type} [Surroundings E G]

/-- Carries out the work pending after the call of `nid`, if there is any, and counts a debug
break. -/
def finishCall (core : Core G) (nid : Nid) (env : E) : Logged (CallOutcome × Core G × E) :=
  if core.work.isEmpty then return (.called .completed, core, env)
  else do
    let (outcome, work, env) ← core.work.finishOn nid env
    let stats := if outcome = .breakEntered then core.stats.countBreak else core.stats
    return (.called outcome, { core with work := work, stats := stats }, env)

/-- Dispatches an opcode raised by guest code. -/
def call (core : Core G) (op : Opcode) (env : E) : Logged (CallOutcome × Core G × E) := do
  let stats := core.stats.countOpcode
  match core.registry.resolve op with
  | .error failure => do
      Log.error (failure.message op)
      return (failure.outcome, { core with stats := stats.countFailure failure }, env)
  | .ok callee => do
      Log.trace s!"{callee.moduleName}::{callee.functionName}"
      let (guest, work) ← callee.body (Surroundings.guest env) core.work
      let core := { core with work := work, stats := stats.countCall op.slot }
      core.finishCall callee.nid (Surroundings.setGuest env guest)

end Core
end HostCalls
