import HostCalls.Environment
import HostCalls.Hex
import HostCalls.Instruction
import HostCalls.Log
import HostCalls.Opcode

/-!
# Call sites

A call site is two instruction slots of guest memory. What a site holds determines its two words:

| held          | first slot         | second slot |
|---------------|--------------------|-------------|
| `stub op`     | return to caller   | `op`        |
| `patchedOut`  | return to caller   | no-op       |
| `directJump t`| jump to `t`        | no-op       |

A stub raises its system call from the delay slot of the return. `writeSlots` writes both words or
neither: if the second write fails, the first slot is given back its previous word.
-/

namespace HostCalls

/-- What a tracked call site holds. -/
inductive CallSite
  /-- A return with a system call in its delay slot. -/
  | stub (op : Opcode)
  /-- A return; the import was stubbed out. -/
  | patchedOut
  /-- A jump to guest code, which must not be made a stub again. -/
  | directJump (target : Addr)
deriving DecidableEq, Repr

namespace CallSite

/-- Whether a site is bound to guest code. -/
def isDirectJump : CallSite → Bool
  | directJump _ => true
  | _ => false

/-- The word in the first slot. -/
def firstWord : CallSite → Word
  | stub _ => Instruction.returnWord
  | patchedOut => Instruction.returnWord
  | directJump target => Instruction.jumpWord target

/-- The word in the second slot. -/
def secondWord : CallSite → Word
  | stub op => op.raw
  | patchedOut => Instruction.nopWord
  | directJump _ => Instruction.nopWord

/-- The address of the second slot, if the address space goes on that far. -/
def secondSlot? (site : Addr) : Option Addr :=
  if site.toNat + Instruction.size.toNat < addrCount then some (site + Instruction.size) else none

/-- The error for a site whose second slot has no address. -/
def pastEnd (site : Addr) : Error :=
  .invalidArgument s!"call site {Hex.word site} runs past the address space"

variable {M : Type} [Memory M]

/-- Gives the first slot back its previous word after the write of the second slot failed with
`error`. -/
def rollBack (m : M) (site : Addr) (previous : Word) (error : Error) :
    Logged (Except Error Unit × M) :=
  match Memory.write m site previous with
  | (.ok (), m) => return (.error error, m)
  | (.error _, m) => do
      Log.warn s!"could not restore {Hex.word site} after a failed call-site write"
      return (.error error, m)

/-- Writes both slots of a site, or neither. -/
def writeSlots (m : M) (site : Addr) (held : CallSite) : Logged (Except Error Unit × M) :=
  match secondSlot? site with
  | none => return (.error (pastEnd site), m)
  | some slot =>
      match Memory.read m site with
      | (.error e, m) => return (.error e, m)
      | (.ok previous, m) =>
          match Memory.write m site held.firstWord with
          | (.error e, m) => return (.error e, m)
          | (.ok (), m) =>
              match Memory.write m slot held.secondWord with
              | (.ok (), m) => return (.ok (), m)
              | (.error e, m) => rollBack m site previous e

end CallSite
end HostCalls
