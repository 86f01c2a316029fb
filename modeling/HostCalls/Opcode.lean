import HostCalls.Hex
import HostCalls.Word

/-!
# System call opcodes

A bound call site carries an instruction word that names a function by two indices:

```text
 31      26 25         18 17               6 5      0
+----------+-------------+------------------+--------+
|  000000  | module (8)  |  function (12)   | 001100 |
+----------+-------------+------------------+--------+
```

The last function index is reserved for "this module has no such function"; besides those words
one more, the marker that some loaders leave behind, cannot be dispatched.
-/

namespace HostCalls

/-- An instruction word read as a system call. -/
structure Opcode where
  raw : Word
deriving DecidableEq, Repr

/-- A module index and a function index. -/
structure Slot where
  module : UInt8
  func : UInt16
deriving DecidableEq, Repr

namespace Opcode

/-- The lowest six bits of every system call. -/
def tag : Word := 0x0000000C

/-- The word for an absent function of module zero; it also stands for an absent module. -/
def absentWord : Word := 0x0003FFCC

/-- The marker that some loaders leave in stubs they never bound. -/
def unboundMarker : Word := 0x0000FFFF

/-- The function index reserved for absent functions. -/
def absentFunc : UInt16 := 0x0FFF

/-- The number of modules that have an index. -/
def maxModules : Nat := 256

/-- The number of functions of a module that have an index; the reserved one is not among
them. -/
def maxFunctions : Nat := 4095

/-- The opcode of the function with these indices; twelve bits of the function index count. -/
def encode (module : UInt8) (func : UInt16) : Opcode :=
  ⟨tag ||| (module.toUInt32 <<< 18) ||| ((func.toUInt32 &&& 0xFFF) <<< 6)⟩

/-- The opcode for a module that lacks the requested function. -/
def absentFunction (module : UInt8) : Opcode :=
  ⟨absentWord ||| (module.toUInt32 <<< 18)⟩

/-- The opcode for a module that is not there. -/
def absentModule : Opcode :=
  ⟨absentWord⟩

/-- The module index. -/
def moduleIndex (op : Opcode) : UInt8 :=
  ((op.raw >>> 18) &&& 0xFF).toUInt8

/-- The function index. -/
def funcIndex (op : Opcode) : UInt16 :=
  ((op.raw >>> 6) &&& 0xFFF).toUInt16

/-- Both indices. -/
def slot (op : Opcode) : Slot :=
  ⟨op.moduleIndex, op.funcIndex⟩

/-- Whether an opcode can never be dispatched. -/
def isInvalid (op : Opcode) : Bool :=
  op.funcIndex == absentFunc || op.raw == unboundMarker

/-- The text shown for an opcode. -/
def describe (op : Opcode) : String :=
  s!"Opcode({Hex.markedWord op.raw}: module={op.moduleIndex.toNat}, func={op.funcIndex.toNat})"

end Opcode
end HostCalls
