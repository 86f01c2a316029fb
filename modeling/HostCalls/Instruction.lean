import HostCalls.Word

/-!
# Instruction words

The words of guest code that the core writes or recognises. A jump keeps 26 bits of its target;
the upper four bits are those of the address behind the jump, so a jump stays in its 256 MiB
segment. The word behind a jump, its delay slot, belongs to the jump.

* `Instruction.jumpWord` and `Instruction.jumpTarget?` write and read the plain jump.
* `Instruction.decode` sorts the words that the block interpreter tells apart.
-/

namespace HostCalls

/-- The register of the first result. -/
def Reg.v0 : Reg := 2

/-- The register of the second result. -/
def Reg.v1 : Reg := 3

/-- The register of the first argument. -/
def Reg.a0 : Reg := 4

/-- The register of the return address. -/
def Reg.ra : Reg := 31

/-- The register of the argument with index `n`; eight arguments travel in registers. -/
def Reg.argument (n : Nat) : Reg :=
  Fin.ofNat 32 (Reg.a0.val + n)

/-- What the block interpreter sees in an instruction word. -/
inductive Instruction
  | ret
  | breakpoint
  | jump (target : Addr)
  | call (target : Addr)
  /-- Add a constant to `rs` and put the sum into `rt`. -/
  | addImmediate (rt rs : Reg) (constant : Word)
  /-- Anything else does nothing. -/
  | other
deriving DecidableEq, Repr

namespace Instruction

/-- The width of an instruction in bytes. -/
def size : UInt32 := 4

/-- The word that returns to the caller. -/
def returnWord : Word := 0x03E00008

/-- The word that does nothing. -/
def nopWord : Word := 0

/-- The word that stops at a breakpoint. -/
def breakWord : Word := 0x0000000D

/-- The six bits that select the class of an instruction. -/
def opcodeField (word : Word) : Word :=
  word >>> 26

/-- The class of jumps. -/
def jumpClass : Word := 0x02

/-- The class of calls. -/
def callClass : Word := 0x03

/-- The class of additions of a constant. -/
def addImmediateClass : Word := 0x09

/-- The jump to `target` within the segment of the jump. -/
def jumpWord (target : Addr) : Word :=
  (jumpClass <<< 26) ||| ((target &&& 0x0FFFFFFF) >>> 2)

/-- The call of `target` within the segment of the call. -/
def callWord (target : Addr) : Word :=
  (callClass <<< 26) ||| ((target &&& 0x0FFFFFFF) >>> 2)

/-- The word that adds a signed constant to register `rs` and puts the sum into `rt`. -/
def addImmediateWord (rt rs : UInt32) (constant : Int16) : Word :=
  (addImmediateClass <<< 26) ||| (rs <<< 21) ||| (rt <<< 16) ||| constant.toUInt16.toUInt32

/-- Where a jump or call `word` at `site` leads: 26 bits of the word, and the segment of the
delay slot. -/
def segmentTarget (site : Addr) (word : Word) : Addr :=
  ((site + size) &&& (0xF0000000 : Word)) ||| ((word &&& (0x03FFFFFF : Word)) <<< (2 : Word))

/-- The target of a jump at `site`, if the word is one. -/
def jumpTarget? (site : Addr) (word : Word) : Option Addr :=
  if opcodeField word = jumpClass then some (segmentTarget site word) else none

/-- Whether a word raises a system call. -/
def isSyscall (word : Word) : Bool :=
  word &&& 0xFC00003F == 0x0000000C

/-- The register named by the five bits of a word above bit `shift`. -/
def registerField (word : Word) (shift : UInt32) : Reg :=
  Fin.ofNat 32 (word >>> shift).toNat

/-- The signed constant in the lower half of a word. -/
def signedConstant (word : Word) : Word :=
  if word &&& 0x8000 = 0 then word &&& 0xFFFF else word ||| 0xFFFF0000

/-- Reads the word at `site`. -/
def decode (site : Addr) (word : Word) : Instruction :=
  if word = returnWord then .ret
  else if word = breakWord then .breakpoint
  else if opcodeField word = jumpClass then .jump (segmentTarget site word)
  else if opcodeField word = callClass then .call (segmentTarget site word)
  else if opcodeField word = addImmediateClass then
    .addImmediate (registerField word 16) (registerField word 21) (signedConstant word)
  else .other

/-- Whether a word passes control on and has a delay slot. -/
def hasDelaySlot (word : Word) : Bool :=
  word == returnWord || opcodeField word == jumpClass || opcodeField word == callClass

end Instruction
end HostCalls
