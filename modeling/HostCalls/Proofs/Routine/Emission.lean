import HostCalls.Proofs.Routine.CodeSpace
import HostCalls.Routine.Emission

/-!
# What an emission does to a code space

An emission may look at the space and act on what it is answered, so what it is going to ask for
depends on the space. Whatever that is, the space is in the end as these requests leave it.

* `Emission.requests` are the requests of an emission, oldest first; if a write faults it is the
  last of them. `Emission.routine` adds the bytes that they have written.
* `RunsTo` lists what an emission can come to, and `runsTo_run` says that the list is complete: only
  a write into a protected space keeps an emission from its end.
-/

namespace HostCalls

/-- What was asked of the code space for a routine, and the bytes that were written. -/
structure Routine where
  requests : List SpaceRequest
  bytes : List UInt8
deriving Inhabited

theorem SpaceRequest.perform_write_of_ok {space space' : CodeSpace} {bytes : List UInt8}
    {result : Except Error Nat} (h : space.write bytes = .ok (result, space')) :
    (perform space (.write bytes)).2 = space' := by
  cases result <;> simp only [perform, h]

/-- Only a write into a protected space faults. -/
theorem CodeSpace.isProtected_of_fault {space : CodeSpace} {bytes : List UInt8}
    {fault : ProtectionFault} (h : space.write bytes = .error fault) :
    space.isProtected = true ∧ fault = ⟨bytes.length⟩ := by
  have hAnswers := space.answers_perform (.write bytes)
  simp only [SpaceRequest.perform, h] at hAnswers
  cases hAnswers with
  | faulted hProtected => exact ⟨hProtected, rfl⟩

namespace Emission

variable {σ : Type}

/-- What an emission asks of the space, oldest first. -/
def requests : Emission σ → CodeSpace → List SpaceRequest
  | done _ _, _ => []
  | write bytes next, space =>
      .write bytes :: match space.write bytes with
        | .error _ => []
        | .ok (result, space) => (next result).requests space
  | protect next, space => .protect :: next.requests space.protect.value
  | inspect next, space => (next space).requests space

/-- The routine that an emission leaves at the end of the space. -/
def routine (emission : Emission σ) (space : CodeSpace) : Routine where
  requests := emission.requests space
  bytes := (space.taken (emission.requests space)).flatten

/-- What an emission can come to that makes some requests of a space. -/
inductive RunsTo (space : CodeSpace) (requests : List SpaceRequest) :
    Except ProtectionFault (Except Error Unit × σ × CodeSpace) → Prop
  | ended (result : Except Error Unit) (state : σ) :
      RunsTo space requests (.ok (result, state, space.run requests))
  | faulted (earlier : List SpaceRequest) {bytes : List UInt8}
      (hRequests : requests = earlier ++ [.write bytes])
      (hProtected : (space.run earlier).isProtected = true) :
      RunsTo space requests (.error ⟨bytes.length⟩)

/-- What comes of the later requests comes of all of them. -/
theorem RunsTo.cons {space : CodeSpace} {request : SpaceRequest} {rest : List SpaceRequest}
    {result : Except ProtectionFault (Except Error Unit × σ × CodeSpace)}
    (h : RunsTo (request.perform space).2 rest result) : RunsTo space (request :: rest) result := by
  cases h with
  | ended result state => exact .ended result state
  | faulted earlier hRequests hProtected =>
      exact .faulted (request :: earlier) (congrArg (request :: ·) hRequests) hProtected

theorem runsTo_run (emission : Emission σ) (space : CodeSpace) :
    RunsTo space (emission.requests space) (emission.run space).value := by
  -- the answer to a request picks the emission that goes on, so the induction is over all of them
  induction emission generalizing space with
  | done result state => exact .ended result state
  | write bytes next ih =>
      rw [run, requests]
      cases hWrite : space.write bytes with
      | error fault =>
          obtain ⟨hProtected, rfl⟩ := CodeSpace.isProtected_of_fault hWrite
          exact .faulted [] rfl hProtected
      | ok written =>
          obtain ⟨result, space'⟩ := written
          refine RunsTo.cons ?_
          rw [SpaceRequest.perform_write_of_ok hWrite]
          exact ih result space'
  | protect next ih => exact RunsTo.cons (ih space.protect.value)
  | inspect next ih => exact ih space space

end Emission
end HostCalls
