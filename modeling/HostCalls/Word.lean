/-!
# Words and addresses

The guest has 32-bit words, 32-bit addresses and 32 general registers. A guest binary names an
imported function by a 32-bit identifier. Address arithmetic wraps around unless it is said to
stop at the last address.
-/

namespace HostCalls

/-- A word of guest memory. -/
abbrev Word := UInt32

/-- A guest virtual address. -/
abbrev Addr := UInt32

/-- The identifier by which a guest binary names an imported function. -/
abbrev Nid := UInt32

/-- A general register. -/
abbrev Reg := Fin 32

/-- The number of addresses of the guest. -/
def addrCount : Nat := 4294967296

/-- The last address of the guest. -/
def lastAddr : Addr := 0xFFFFFFFF

/-- The address `n` bytes above `a`, or the last address if there is none. -/
def Addr.saturatingAdd (a : Addr) (n : UInt32) : Addr :=
  if a.toNat + n.toNat < addrCount then a + n else lastAddr

theorem Addr.toNat_saturatingAdd (a : Addr) (n : UInt32) :
    (Addr.saturatingAdd a n).toNat = min (a.toNat + n.toNat) (addrCount - 1) := by
  unfold Addr.saturatingAdd addrCount
  split
  · rename_i h
    rw [UInt32.toNat_add, Nat.mod_eq_of_lt h]
    omega
  · rename_i h
    rw [show lastAddr.toNat = 4294967295 from rfl]
    omega

/-- The bytes of a word, lowest first. -/
def Word.bytes (w : Word) : List UInt8 :=
  [w.toUInt8, (w >>> 8).toUInt8, (w >>> 16).toUInt8, (w >>> 24).toUInt8]

@[simp] theorem Word.length_bytes (w : Word) : (Word.bytes w).length = 4 := rfl

/-- Byte `j` has the bits of the word from `8 * j` on. -/
theorem Word.getElem?_bytes (w : Word) {j : Nat} (h : j < 4) :
    (Word.bytes w)[j]? = some (w >>> UInt32.ofNat (8 * j)).toUInt8 := by
  match j, h with
  | 0, _ =>
      show some w.toUInt8 = some (w >>> 0).toUInt8
      rw [UInt32.shiftRight_zero]
  | 1, _ | 2, _ | 3, _ => rfl

end HostCalls
