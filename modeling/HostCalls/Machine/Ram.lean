import HostCalls.Environment
import HostCalls.Hex
import HostCalls.Instruction
import HostCalls.Loop.NativeBlock

/-!
# Memory of the guest machine

`Ram` is word-addressed and refuses addresses that are not multiples of four. Words that were
never stored are zero. `Ram.compile` cuts a block out of it: up to the first breakpoint, up to
the first word with a delay slot together with that slot, or else sixteen words.
-/

namespace HostCalls

/-- Word-addressed memory. -/
structure Ram where
  words : Table Addr Word
deriving DecidableEq

namespace Ram

/-- Memory in which every word is zero. -/
def zero : Ram := ⟨.empty⟩

/-- The word at an address, stored or not. -/
def word (ram : Ram) (addr : Addr) : Word :=
  (ram.words.get? addr).getD 0

/-- Stores a word. -/
def put (ram : Ram) (addr : Addr) (value : Word) : Ram :=
  ⟨ram.words.insert addr value⟩

/-- Stores words one behind the other. -/
def load (ram : Ram) (addr : Addr) : List Word → Ram
  | [] => ram
  | w :: rest => (ram.put addr w).load (addr + Instruction.size) rest

/-- Whether a word may be at an address. -/
def isAligned (addr : Addr) : Bool :=
  addr.toNat % 4 == 0

/-- Reads a word. -/
def read (ram : Ram) (addr : Addr) : Except Error Word :=
  if isAligned addr then .ok (ram.word addr)
  else .error (.invalidArgument s!"unaligned read at {Hex.word addr}")

/-- Writes a word. -/
def write (ram : Ram) (addr : Addr) (value : Word) : Except Error Ram :=
  if isAligned addr then .ok (ram.put addr value)
  else .error (.invalidArgument s!"unaligned write at {Hex.word addr}")

instance : Memory Ram where
  read ram addr := (ram.read addr, ram)
  write ram addr value :=
    match ram.write addr value with
    | .ok ram => (.ok (), ram)
    | .error e => (.error e, ram)

/-- The word at an address, or zero where no word can be. -/
def fetch (ram : Ram) (addr : Addr) : Word :=
  if isAligned addr then ram.word addr else 0

/-- The greatest number of words of a block, a delay slot not counted. -/
def longestBlock : Nat := 16

/-- The words of the block at an address, of which at most `limit` are read, a delay slot not
counted. -/
def blockWords (ram : Ram) : Nat → Addr → Except Error (List Word)
  | 0, _ => .ok []
  | limit + 1, addr => do
      let w ← ram.read addr
      if Instruction.hasDelaySlot w then
        let slot ← ram.read (addr + Instruction.size)
        return [w, slot]
      else if w = Instruction.breakWord then return [w]
      else
        let rest ← ram.blockWords limit (addr + Instruction.size)
        return w :: rest

/-- The block at an address. -/
def compile (ram : Ram) (pc : Addr) : Except Error NativeBlock := do
  let words ← ram.blockWords longestBlock pc
  return ⟨pc, UInt32.ofNat (4 * words.length), words.flatMap Word.bytes⟩

end Ram
end HostCalls
