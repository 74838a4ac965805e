import Frond.Arena.Basic
import Frond.SwapRemove

/-!
# Growable vectors in an arena

A vector keeps its elements one after another in a region of arena memory: the address of the
region, how many elements are in it and how many fit. It starts with room for 8 elements; a push
into a full vector first takes a new region for twice as many from the arena and copies the
elements' bytes over (the old region stays taken until the arena is reset). A push whose growth
the arena refuses changes neither the vector nor the arena.

Reading an element decodes the bytes of its slot; writing one encodes it into the slot. Removal
by `swapRemove?` moves the last element into the hole.
-/

namespace Frond

/-- A vector in an arena: the layout of its elements, the address of its region, how many
    elements it holds and how many fit in the region. -/
structure ArenaVec (α : Type) where
  layout : ElemLayout α
  data : Nat
  len : Nat
  cap : Nat

namespace ArenaVec

variable {α : Type}

/-- The capacity of a new vector. -/
def initialCapacity : Nat := 8

/-- A region for `count` elements: its address and the arena after it. -/
def allocate (a : Arena) (layout : ElemLayout α) (count : Nat) : Except ArenaError (Nat × Arena) :=
  if layout.size * count ≥ wordBound then .error (.layoutOverflow (wordBound - 1))
  else (a.allocAligned (layout.size * count) layout.align).map fun (r, a') => (r.address, a')

/-- An empty vector with room for `initialCapacity` elements. -/
def create (a : Arena) (layout : ElemLayout α) : Except ArenaError (ArenaVec α × Arena) :=
  (allocate a layout initialCapacity).map fun (p, a') => (⟨layout, p, 0, initialCapacity⟩, a')

/-- The address of slot `i`. -/
def slot (v : ArenaVec α) (i : Nat) : Nat := v.data + i * v.layout.size

/-- The element in slot `i`. -/
def read (v : ArenaVec α) (a : Arena) (i : Nat) : α :=
  v.layout.decode (a.mem.read (v.slot i) v.layout.size)

/-- The arena with `x` written into slot `i`. -/
def write (v : ArenaVec α) (a : Arena) (i : Nat) (x : α) : Arena :=
  a.store (v.slot i) (v.layout.encode x)

/-- Moves the elements to a new region for twice as many. -/
def grow (v : ArenaVec α) (a : Arena) : Except ArenaError (ArenaVec α × Arena) :=
  if 2 * v.cap ≥ wordBound then .error (.layoutOverflow (wordBound - 1))
  else (allocate a v.layout (2 * v.cap)).map fun (p, a') =>
    ({ v with data := p, cap := 2 * v.cap },
     { a' with mem := a'.mem.copy v.data p (v.len * v.layout.size) })

/-- Appends an element, growing first when full. -/
def push (v : ArenaVec α) (a : Arena) (x : α) : Except ArenaError (ArenaVec α × Arena) := do
  let (v, a) ← if v.len = v.cap then v.grow a else pure (v, a)
  pure ({ v with len := v.len + 1 }, v.write a v.len x)

/-- The element at an index. -/
def get? (v : ArenaVec α) (a : Arena) (i : Nat) : Option α :=
  if i < v.len then some (v.read a i) else none

/-- Writes an element at an index; nothing when the index is past the end. -/
def set? (v : ArenaVec α) (a : Arena) (i : Nat) (x : α) : Option Arena :=
  if i < v.len then some (v.write a i x) else none

/-- The last element. -/
def last? (v : ArenaVec α) (a : Arena) : Option α :=
  if v.len = 0 then none else some (v.read a (v.len - 1))

/-- Removes the element at an index and moves the last one into its place; nothing when the
    index is past the end. -/
def swapRemove? (v : ArenaVec α) (a : Arena) (i : Nat) : Option (α × ArenaVec α × Arena) :=
  if i < v.len then
    some (v.read a i, { v with len := v.len - 1 }, v.write a i (v.read a (v.len - 1)))
  else none

/-- Removes every element; the capacity stays. -/
def clear (v : ArenaVec α) : ArenaVec α := { v with len := 0 }

/-- The elements, first to last. -/
def asSlice (v : ArenaVec α) (a : Arena) : List α := (List.range v.len).map (v.read a)

/-- How many elements there are. -/
def length (v : ArenaVec α) : Nat := v.len

/-- How many elements fit before the next growth. -/
def capacity (v : ArenaVec α) : Nat := v.cap

end ArenaVec

/-- The debugging form of a list of numbers: `[1, 2]`. -/
def listForm (xs : List Nat) : String :=
  "[" ++ ", ".intercalate (xs.map decimal) ++ "]"

example : listForm [1, 2] = "[1, 2]" := by decide
example : listForm [] = "[]" := by decide

end Frond
