import HostCalls.Table
import HostCalls.Word

/-!
# Native blocks and their cache

A `NativeBlock` is a block of guest code in the form in which the host executes it. The cache
keeps at most one block for each address at which guest code is entered. Whoever changes guest
code has to invalidate the blocks that the changed range touches.
-/

namespace HostCalls

/-- A block of guest code in the form in which the host executes it. -/
structure NativeBlock where
  /-- The first guest address of the block. -/
  start : Addr
  /-- The number of guest bytes. -/
  size : UInt32
  /-- The code that the host executes. -/
  code : List UInt8
deriving DecidableEq, Repr

namespace NativeBlock

/-- The address behind the block, or the last address if there is none. -/
def stop (block : NativeBlock) : Addr :=
  Addr.saturatingAdd block.start block.size

/-- Whether the block reaches into the range from `start` up to but not including `stop`. -/
def overlaps (block : NativeBlock) (start stop : Addr) : Bool :=
  block.start < stop && start < block.stop

end NativeBlock

/-- The blocks at hand, by the addresses at which they start, and what happened to them. -/
structure NativeCache where
  blocks : Table Addr NativeBlock
  hits : Nat
  misses : Nat
  /-- Blocks dropped because guest code was changed. -/
  invalidated : Nat
deriving DecidableEq

namespace NativeCache

/-- No block is at hand. -/
def empty : NativeCache := ⟨.empty, 0, 0, 0⟩

/-- The block that starts at an address. -/
def get? (cache : NativeCache) (pc : Addr) : Option NativeBlock :=
  cache.blocks.get? pc

/-- Whether a block starts at an address. -/
def contains (cache : NativeCache) (pc : Addr) : Bool :=
  cache.blocks.contains pc

/-- Looks up the block that starts at an address, and counts the look-up. -/
def lookUp (cache : NativeCache) (pc : Addr) : Option NativeBlock × NativeCache :=
  match cache.get? pc with
  | some block => (some block, { cache with hits := cache.hits + 1 })
  | none => (none, { cache with misses := cache.misses + 1 })

/-- Keeps a block, in place of one that starts at the same address. -/
def insert (cache : NativeCache) (block : NativeBlock) : NativeCache :=
  { cache with blocks := cache.blocks.insert block.start block }

/-- Drops the blocks that overlap the range from `start` up to `stop`, and tells how many they
were. -/
def invalidate (cache : NativeCache) (start stop : Addr) : Nat × NativeCache :=
  let kept := cache.blocks.filter fun _ block => !block.overlaps start stop
  let dropped := cache.blocks.size - kept.size
  (dropped, { cache with blocks := kept, invalidated := cache.invalidated + dropped })

/-- Drops every block, which is not counted as invalidation. -/
def clear (cache : NativeCache) : NativeCache :=
  { cache with blocks := .empty }

/-- The number of blocks at hand. -/
def size (cache : NativeCache) : Nat :=
  cache.blocks.size

/-- Whether no block is at hand. -/
def isEmpty (cache : NativeCache) : Bool :=
  cache.size == 0

end NativeCache
end HostCalls
