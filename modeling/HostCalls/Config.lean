import HostCalls.Error
import HostCalls.Word

/-!
# Configuration of the core

`Config.standard` is what a core starts from; `Config.validate` refuses the settings under which
no core can work. It knows nothing of `maxCapacity`, the limit that the host has for the memory it
sets aside in one piece: asking for more is not an error but a `CapacityFault`, which ends
everything up to the outermost caller. A host that runs out of memory below the limit is not
described.
-/

namespace HostCalls

namespace Nid

/-- The call by which a guest thread suspends interrupts. -/
def suspendInterrupts : Nid := 0x092968F4

/-- The call by which a guest thread resumes interrupts. -/
def resumeInterrupts : Nid := 0x5F10D406

/-- The wait loop of the idle thread. -/
def idle : Nid := 0xC0DE0006

end Nid

/-- The settings of a core. -/
structure Config where
  /-- Room for a reschedule reason, its terminator included. -/
  reasonCapacity : Nat
  /-- The functions whose calls never let a debug break through. -/
  breakBlacklist : List Nid
  /-- Bytes set aside for the routines of the dispatch loop. -/
  codeSpace : Nat
  /-- Whether a deferred import is forgotten once it is bound. -/
  pruneResolved : Bool
deriving DecidableEq, Repr

namespace Config

/-- The settings a core has unless told otherwise. -/
def standard : Config where
  reasonCapacity := 512
  breakBlacklist := [Nid.suspendInterrupts, Nid.resumeInterrupts, Nid.idle]
  codeSpace := 8192
  pruneResolved := true

/-- A code space without room for anything is refused with this error. -/
def noCodeSpace : Error :=
  .configError "code space size must be non-zero"

/-- Checks that a core can work with these settings. -/
def validate (config : Config) : Except Error Unit :=
  if config.reasonCapacity < 2 then
    .error (.configError
      s!"reschedule reason capacity {config.reasonCapacity} leaves no room for a reason")
  else if config.codeSpace = 0 then .error noCodeSpace
  else .ok ()

/-- The usable settings: room for one byte of a reason, and for some code. -/
theorem validate_eq_ok_iff {config : Config} :
    config.validate = .ok () ↔ 2 ≤ config.reasonCapacity ∧ config.codeSpace ≠ 0 := by
  unfold validate
  split
  · rename_i hRoom
    constructor
    · intro h
      cases h
    · rintro ⟨hCapacity, _⟩
      omega
  · rename_i hRoom
    split
    · rename_i hSpace
      constructor
      · intro h
        cases h
      · rintro ⟨_, hNe⟩
        exact absurd hSpace hNe
    · rename_i hSpace
      constructor
      · intro _
        exact ⟨by omega, hSpace⟩
      · intro _
        rfl

end Config

/-- The greatest number of bytes that are set aside in one piece. Sizes have 64 bits, of which the
highest must be free. -/
def maxCapacity : Nat := 0x7FFFFFFFFFFFFFFF

/-- More was to be set aside than the host ever does. -/
inductive CapacityFault
  | overflow
deriving DecidableEq, Repr

/-- The text shown for a fault. -/
def CapacityFault.message : CapacityFault → String
  | overflow => "capacity overflow"

/-- Sets aside a number of bytes. -/
def reserve (capacity : Nat) : Except CapacityFault Unit :=
  if capacity ≤ maxCapacity then .ok () else .error .overflow

theorem reserve_of_le {capacity : Nat} (h : capacity ≤ 0x7FFFFFFFFFFFFFFF) :
    reserve capacity = .ok () :=
  if_pos h

theorem reserve_of_lt {capacity : Nat} (h : 0x7FFFFFFFFFFFFFFF < capacity) :
    reserve capacity = .error .overflow :=
  if_neg (Nat.not_le.mpr h)

end HostCalls
