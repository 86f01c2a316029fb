import HostCalls.Environment

/-!
# Register files

`Registers` is the register file of the guest machine, whose register zero is hardwired to zero.
`FlatRegisters` has 32 ordinary registers.
-/

namespace HostCalls

/-- A register file with a hardwired zero. -/
structure Registers where
  gpr : Vector Word 32
  pc : Addr
deriving DecidableEq

namespace Registers

/-- All registers are zero. -/
def zero : Registers := ⟨Vector.replicate 32 0, 0⟩

/-- The value of a register. -/
def get (r : Registers) (reg : Reg) : Word :=
  r.gpr[reg]

/-- Sets a register, but never register zero. -/
def set (r : Registers) (reg : Reg) (value : Word) : Registers :=
  if reg.val = 0 then r else { r with gpr := r.gpr.set reg value }

instance : Cpu Registers where
  gpr := get
  setGpr := set
  pc r := r.pc
  setPc r pc := { r with pc := pc }

theorem get_set (r : Registers) (reg other : Reg) (value : Word) :
    (r.set reg value).get other =
      if reg = other ∧ reg.val ≠ 0 then value else r.get other := by
  unfold set get
  by_cases hZero : reg.val = 0
  · simp [hZero]
  · rw [if_neg hZero]
    by_cases hEq : reg = other
    · subst hEq
      simp [hZero]
    · have hVal : reg.val ≠ other.val := fun h => hEq (Fin.ext h)
      simp [hEq, hVal]

@[simp] theorem pc_set (r : Registers) (reg : Reg) (value : Word) :
    (r.set reg value).pc = r.pc := by
  unfold set
  split <;> rfl

end Registers

/-- A register file in which every register can be set. -/
structure FlatRegisters where
  gpr : Vector Word 32
  pc : Addr
deriving DecidableEq

namespace FlatRegisters

/-- All registers are zero. -/
def zero : FlatRegisters := ⟨Vector.replicate 32 0, 0⟩

instance : Cpu FlatRegisters where
  gpr r reg := r.gpr[reg]
  setGpr r reg value := { r with gpr := r.gpr.set reg value }
  pc r := r.pc
  setPc r pc := { r with pc := pc }

end FlatRegisters
end HostCalls
