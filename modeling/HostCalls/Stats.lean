import HostCalls.Opcode
import HostCalls.Table

/-!
# Dispatch counters

`Stats` counts the dispatched opcodes of a core, those that failed, the debug breaks, and for each
function the calls that ran its body.
-/

namespace HostCalls

instance : Ranked Slot where
  rank slot := slot.module.toNat * 65536 + slot.func.toNat
  rank_inj := by
    rintro ⟨m, f⟩ ⟨n, g⟩ h
    simp only at h
    have hf : f.toNat < 65536 := f.toNat_lt
    have hg : g.toNat < 65536 := g.toNat_lt
    have hFunc : f = g := UInt16.toNat_inj.mp (by omega)
    have hModule : m = n := UInt8.toNat_inj.mp (by omega)
    rw [hFunc, hModule]

/-- What a core has dispatched. -/
structure Stats where
  /-- All dispatched opcodes. -/
  total : Nat
  /-- Opcodes that reached no body. -/
  errors : Nat
  /-- Opcodes that reached a function without a body. -/
  unimplemented : Nat
  /-- Debug breaks that switched the core to stepping. -/
  breaks : Nat
  /-- Calls that ran a body, by function. -/
  calls : Table Slot Nat
deriving DecidableEq

namespace Stats

/-- Nothing has been dispatched. -/
def zero : Stats := ⟨0, 0, 0, 0, .empty⟩

/-- The number of calls that ran the body of a function. -/
def callsTo (stats : Stats) (slot : Slot) : Nat :=
  (stats.calls.get? slot).getD 0

/-- Counts a dispatched opcode. -/
def countOpcode (stats : Stats) : Stats :=
  { stats with total := stats.total + 1 }

/-- Counts a call that ran the body of a function. -/
def countCall (stats : Stats) (slot : Slot) : Stats :=
  { stats with calls := stats.calls.insert slot (stats.callsTo slot + 1) }

/-- Counts a debug break. -/
def countBreak (stats : Stats) : Stats :=
  { stats with breaks := stats.breaks + 1 }

end Stats
end HostCalls
