import Frond.Text.Decimal
import Frond.Arena.Memory

/-!
# A bump arena

An arena hands out memory from a chain of blocks it gets from the host. Each block keeps a
cursor (`used`); a request takes the first place at or after the cursor of the current block,
or of a later one, whose address is a multiple of the requested alignment and where the
request ends inside the block. When no block has room, a new block is appended: at least the
arena's block size, and large enough for the request at any alignment. Resetting puts every
cursor back to 0 and keeps the blocks, so the same requests land in the same places again.

Memory handed out is zero: a new block comes zero-filled from the host, and every request sets
its bytes to zero before it is handed out, also when they were handed out before a reset. The
requests that copy bytes, text or plain values into the arena write them over those zeros.

Sizes are rounded up to 16 bytes. Every count is a machine word: a sum that would reach 2^64
is refused as a layout overflow. A block larger than 2^63 - 16 bytes has no layout, an arena
holds at most 10000 blocks, and the host may refuse a block; each of these failures leaves the
arena as it was.

Where a new block lies is up to the host (`Allocator`). The standard host places blocks one
after another from a fixed address, rounded to 16 bytes, and refuses blocks above 2^40 bytes.
-/

namespace Frond

/-- Machine words are below this bound. -/
def wordBound : Nat := UInt64.size

/-- Rounds `x` up to a multiple of `a`. -/
def alignUp (x a : Nat) : Nat := (x + a - 1) / a * a

/-- Whether `n` is a power of two. -/
def isPowerOfTwo (n : Nat) : Bool := n != 0 && (n &&& (n - 1)) == 0

example : isPowerOfTwo 4096 = true ∧ isPowerOfTwo 12 = false ∧ isPowerOfTwo 0 = false := by
  decide
example : alignUp 17 16 = 32 ∧ alignUp 0 16 = 0 ∧ alignUp 32 16 = 32 := by decide

/-- Why the arena refused a request. -/
inductive ArenaError where
  /-- The host refused a block of `size` bytes. -/
  | outOfMemory (size align : Nat)
  /-- The alignment is not a power of two. -/
  | invalidAlignment (align : Nat)
  /-- A new block was needed but the arena holds the most blocks it may. -/
  | blockLimit (limit : Nat)
  /-- A size computation would leave the address space. -/
  | layoutOverflow (size : Nat)
  deriving DecidableEq, Repr

/-- The written form of a refusal. -/
def ArenaError.message : ArenaError → String
  | .outOfMemory size align =>
    "host allocator refused " ++ decimal size ++ " bytes (alignment " ++ decimal align ++ ")"
  | .invalidAlignment align => "alignment " ++ decimal align ++ " is not a power of two"
  | .blockLimit limit => "arena block limit of " ++ decimal limit ++ " blocks reached"
  | .layoutOverflow size =>
    "allocation of " ++ decimal size ++ " bytes overflows the address space"

/-- A block of host memory: its address, its size, and the cursor up to which it is in use. -/
structure Block where
  base : Nat
  size : Nat
  used : Nat
  deriving DecidableEq, Repr, Inhabited

namespace Block

/-- Where a request of `size` bytes at alignment `align` fits: the offset of the first address
    at or after the cursor that is a multiple of `align`, if the request ends inside the
    block and rounding the address up stays below 2^64. -/
def fit (b : Block) (size align : Nat) : Option Nat :=
  let current := b.base + b.used
  if current + align - 1 < wordBound then
    let offset := alignUp current align - b.base
    if offset + size ≤ b.size then some offset else none
  else none

end Block

/-- The host's block allocator: the address of a new zero-filled block of `size` bytes, given
    the blocks the arena already holds, or nothing when the host refuses. -/
structure Allocator where
  place : Array Block → Nat → Option Nat

namespace Allocator

/-- The largest block the standard host grants. -/
def hostLimit : Nat := Nat.pow 2 40

/-- Where the standard host puts the first block. -/
def heapStart : Nat := UInt32.size

/-- The standard host: blocks one after another from `heapStart`, each at a multiple of 16,
    none larger than `hostLimit`. -/
def standard : Allocator where
  place blocks size :=
    if size > hostLimit then none
    else some (match blocks.back? with
      | some b => alignUp (b.base + b.size) 16
      | none => heapStart)

end Allocator

/-- A piece of memory handed out: the block it lies in, its offset and address there, and its
    length. Its bytes are zero when it is handed out. -/
structure Region where
  block : Nat
  offset : Nat
  address : Nat
  size : Nat
  deriving DecidableEq, Repr

/-- An arena: its blocks in order, the block requests start from, the smallest size of a new
    block, the bytes handed out since the last reset, the host, and the memory its blocks lie
    in. -/
structure Arena where
  blocks : Array Block
  current : Nat
  blockSize : Nat
  total : Nat
  allocator : Allocator
  mem : Memory

namespace Arena

/-- The smallest block. -/
def minBlockSize : Nat := 4096

/-- Every request is rounded up to a multiple of this, and blocks are aligned to it. -/
def defaultAlignment : Nat := 16

/-- The most blocks an arena holds. -/
def maxBlocks : Nat := 10000

/-- The largest size that has a block layout: rounded up to 16 it must stay below 2^63. -/
def layoutLimit : Nat := Nat.pow 2 63 - 16

/-- A new block of `size` bytes from the host. -/
def newBlock (host : Allocator) (blocks : Array Block) (size : Nat) : Except ArenaError Block :=
  if size > layoutLimit then .error (.layoutOverflow size)
  else match host.place blocks size with
    | some base => .ok ⟨base, size, 0⟩
    | none => .error (.outOfMemory size defaultAlignment)

/-- An arena with one block of `blockSize` bytes, at least `minBlockSize`. -/
def create (host : Allocator) (blockSize : Nat) : Except ArenaError Arena := do
  let size := max blockSize minBlockSize
  let b ← newBlock host #[] size
  return ⟨#[b], 0, size, 0, host, Memory.blank.fill b.base b.size⟩

/-- An arena on the standard host with blocks of at least `minBlockSize` bytes. -/
def standard : Except ArenaError Arena := create .standard minBlockSize

/-- The first block from index `i` on with room for the request, and the offset there. -/
def findRoom (blocks : Array Block) (size align : Nat) (i : Nat) : Option (Nat × Nat) :=
  if h : i < blocks.size then
    match blocks[i].fit size align with
    | some offset => some (i, offset)
    | none => findRoom blocks size align (i + 1)
  else none
termination_by blocks.size - i

/-- Takes `aligned` bytes at `offset` in block `i` for a request of `size` bytes, and zeroes
    the `size` bytes handed out. -/
def commit (a : Arena) (i offset aligned size : Nat) : Region × Arena :=
  let base := match a.blocks[i]? with
    | some b => b.base
    | none => 0
  (⟨i, offset, base + offset, size⟩,
   { a with blocks := a.blocks.modify i ({ · with used := offset + aligned }), current := i,
            total := min (a.total + aligned) (wordBound - 1),
            mem := a.mem.fill (base + offset) size })

/-- Hands out `size` zero bytes at an address that is a multiple of `align`. -/
def allocAligned (a : Arena) (size align : Nat) : Except ArenaError (Region × Arena) :=
  if !isPowerOfTwo align then .error (.invalidAlignment align)
  else if size + (defaultAlignment - 1) ≥ wordBound then .error (.layoutOverflow size)
  else
    let aligned := alignUp size defaultAlignment
    match findRoom a.blocks aligned align a.current with
    | some (i, offset) => .ok (a.commit i offset aligned size)
    | none =>
      if a.blocks.size ≥ maxBlocks then .error (.blockLimit maxBlocks)
      else if aligned + align ≥ wordBound then .error (.layoutOverflow size)
      else
        match newBlock a.allocator a.blocks (max a.blockSize (aligned + align)) with
        | .error e => .error e
        | .ok b =>
          match b.fit aligned align with
          | none => .error (.layoutOverflow size)
          | some offset =>
            let a' := { a with blocks := a.blocks.push b, mem := a.mem.fill b.base b.size }
            .ok (a'.commit a.blocks.size offset aligned size)

/-- Hands out `size` zero bytes at the default alignment. -/
def alloc (a : Arena) (size : Nat) : Except ArenaError (Region × Arena) :=
  a.allocAligned size defaultAlignment

/-- The arena with `bytes` written at `addr`. -/
def store (a : Arena) (addr : Nat) (bytes : Bytes) : Arena := { a with mem := a.mem.write addr bytes }

/-- Hands out `len` zero bytes. -/
def allocZeroedBytes (a : Arena) (len : Nat) : Except ArenaError (Region × Arena) := a.alloc len

/-- Copies `bytes` into the arena. -/
def allocBytes (a : Arena) (bytes : Bytes) : Except ArenaError (Region × Arena) :=
  (a.alloc bytes.length).map fun (r, a') => (r, a'.store r.address bytes)

/-- Copies the UTF-8 bytes of `text` into the arena. -/
def allocStr (a : Arena) (text : String) : Except ArenaError (Region × Arena) :=
  a.allocBytes (Bytes.ofString text)

/-- Copies plain values into the arena, one after another, at their alignment. -/
def allocSliceCopy {α : Type} (a : Arena) (layout : ElemLayout α) (items : List α) :
    Except ArenaError (Region × Arena) :=
  (a.allocAligned (layout.size * items.length) layout.align).map fun (r, a') =>
    (r, a'.store r.address (items.flatMap layout.encode))

/-- Copies one plain value into the arena, at its alignment. -/
def allocValue {α : Type} (a : Arena) (layout : ElemLayout α) (x : α) :
    Except ArenaError (Region × Arena) :=
  (a.allocAligned layout.size layout.align).map fun (r, a') => (r, a'.store r.address (layout.encode x))

/-- Puts the cursor of each of the first `maxBlocks` blocks back to 0; the blocks stay. -/
def reset (a : Arena) : Arena :=
  { a with blocks := a.blocks.mapIdx fun i b => if i < maxBlocks then { b with used := 0 } else b,
           current := 0, total := 0 }

/-- How many blocks the arena holds. -/
def blockCount (a : Arena) : Nat := a.blocks.size

/-- The bytes of all blocks together. -/
def capacity (a : Arena) : Nat := a.blocks.foldl (fun n b => n + b.size) 0

/-- Requests `size` bytes up to `count` times, stopping at the first refusal: how many were
    granted, the refusal if any, and the arena after them. -/
def allocRepeat (a : Arena) (size count : Nat) : Nat × Option ArenaError × Arena :=
  go a count 0
where
  /-- Goes on with `done` requests granted so far and `left` remaining. -/
  go (a : Arena) : Nat → Nat → Nat × Option ArenaError × Arena
    | 0, done => (done, none, a)
    | left + 1, done =>
      match a.alloc size with
      | .error e => (done, some e, a)
      | .ok (_, a') => go a' left (done + 1)

/-- The debugging form: block count, capacity, block size and bytes handed out. -/
def describe (a : Arena) : String :=
  "Arena \x7b blocks: " ++ decimal a.blockCount ++ ", capacity: " ++ decimal a.capacity ++
    ", block_size: " ++ decimal a.blockSize ++ ", total_allocated: " ++ decimal a.total ++ " \x7d"

end Arena

end Frond
