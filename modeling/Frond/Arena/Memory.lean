import Frond.Bytes.Basic

/-!
# Host memory and plain values

The bytes an arena hands out live in host memory, here a byte at every address. A write puts a
run of bytes at an address, a fill sets a range to zero, and a read takes a run of bytes back.

A value of a plain type (one the program copies byte for byte) lies in memory by its layout:
its size and alignment, and the bytes of a value, such that reading back the bytes written for a
value gives the value.

* `read_write_self`, `read_write_inside`: reading written bytes gives them back;
  `read_write_of_apart`, `read_fill_of_apart`: a write or fill elsewhere leaves a read alone.
* `ElemLayout`, `ElemLayout.word`: the layout of a plain type, and the little-endian layout of a
  64-bit word.
-/

namespace Frond

/-- Whether the ranges `[a, a + n)` and `[b, b + k)` lie one after the other. -/
def Apart (a n b k : Nat) : Prop := a + n ≤ b ∨ b + k ≤ a

instance (a n b k : Nat) : Decidable (Apart a n b k) := inferInstanceAs (Decidable (_ ∨ _))

theorem Apart.symm {a n b k : Nat} (h : Apart a n b k) : Apart b k a n := Or.symm h

/-- Ranges inside two ranges that lie apart lie apart. -/
theorem Apart.mono {a n b k a' n' b' k' : Nat} (h : Apart a n b k) (ha : a ≤ a')
    (ha' : a' + n' ≤ a + n) (hb : b ≤ b') (hb' : b' + k' ≤ b + k) : Apart a' n' b' k' := by
  unfold Apart at *
  omega

/-- Host memory: the byte at every address. -/
structure Memory where
  byte : Nat → UInt8

namespace Memory

/-- Memory that holds only zero bytes. -/
def blank : Memory := ⟨fun _ => 0⟩

/-- The `n` bytes from `addr` on. -/
def read (m : Memory) (addr n : Nat) : Bytes := (List.range n).map fun i => m.byte (addr + i)

/-- The memory with `bytes` written from `addr` on. -/
def write (m : Memory) (addr : Nat) (bytes : Bytes) : Memory :=
  let arr := bytes.toArray
  ⟨fun p => if addr ≤ p then arr[p - addr]?.getD (m.byte p) else m.byte p⟩

/-- The memory with the `n` bytes from `addr` on set to zero. -/
def fill (m : Memory) (addr n : Nat) : Memory :=
  ⟨fun p => if addr ≤ p ∧ p < addr + n then 0 else m.byte p⟩

/-- The memory with the `n` bytes from `src` copied to `dst`. -/
def copy (m : Memory) (src dst n : Nat) : Memory := m.write dst (m.read src n)

/-! ## Laws -/

variable (m : Memory)

@[simp] theorem length_read (addr n : Nat) : (m.read addr n).length = n := by simp [read]

theorem getElem_read (addr n i : Nat) (h : i < (m.read addr n).length) :
    (m.read addr n)[i] = m.byte (addr + i) := by
  simp [read]

theorem write_byte (addr : Nat) (bytes : Bytes) (p : Nat) :
    (m.write addr bytes).byte p = if addr ≤ p then bytes[p - addr]?.getD (m.byte p) else m.byte p := by
  simp [write]

theorem write_byte_of_apart {addr p : Nat} {bytes : Bytes} (h : Apart p 1 addr bytes.length) :
    (m.write addr bytes).byte p = m.byte p := by
  rw [write_byte]
  split
  · rw [List.getElem?_eq_none (by unfold Apart at h; omega)]
    rfl
  · rfl

@[simp] theorem write_nil (addr : Nat) : m.write addr [] = m := by
  simp [write]

theorem fill_byte_of_apart {addr n p : Nat} (h : Apart p 1 addr n) :
    (m.fill addr n).byte p = m.byte p := by
  unfold Apart at h
  simp only [fill]
  rw [if_neg (by omega)]

/-- Two memories that agree on a range read the same bytes there. -/
theorem read_congr {m' : Memory} {addr n : Nat}
    (h : ∀ i < n, m.byte (addr + i) = m'.byte (addr + i)) :
    m.read addr n = m'.read addr n := by
  simp only [read]
  exact List.map_congr_left fun i hi => h i (List.mem_range.mp hi)

theorem read_write_of_apart {addr n b : Nat} {bytes : Bytes} (h : Apart addr n b bytes.length) :
    (m.write b bytes).read addr n = m.read addr n :=
  read_congr _ fun i hi => write_byte_of_apart m (by unfold Apart at *; omega)

theorem read_fill_of_apart {addr n b k : Nat} (h : Apart addr n b k) :
    (m.fill b k).read addr n = m.read addr n :=
  read_congr _ fun i hi => fill_byte_of_apart m (by unfold Apart at *; omega)

/-- Reading part of what was just written gives that part. -/
theorem read_write_inside (addr : Nat) {k n : Nat} {bytes : Bytes} (h : k + n ≤ bytes.length) :
    (m.write addr bytes).read (addr + k) n = (bytes.drop k).take n := by
  apply List.ext_getElem
  · simp
    omega
  · intro i h₁ h₂
    simp only [getElem_read, write_byte, List.getElem_take, List.getElem_drop]
    rw [if_pos (by omega), show addr + k + i - addr = k + i by omega,
      List.getElem?_eq_getElem (by simp at h₁; omega)]
    rfl

theorem read_write_self (addr : Nat) (bytes : Bytes) :
    (m.write addr bytes).read addr bytes.length = bytes := by
  have := read_write_inside m addr (show 0 + bytes.length ≤ bytes.length by omega)
  simpa using this

/-- A read of `n` bytes at offset `k` of a longer read is part of it. -/
theorem read_drop_take (addr : Nat) {len k n : Nat} (h : k + n ≤ len) :
    ((m.read addr len).drop k).take n = m.read (addr + k) n := by
  apply List.ext_getElem
  · simp
    omega
  · intro i h₁ h₂
    simp only [List.getElem_take, List.getElem_drop, getElem_read, Nat.add_assoc]

end Memory

/-! ## Plain values -/

/-- How values of a plain type lie in memory: size and alignment in bytes, and the bytes of a
    value. A value takes exactly `size` bytes, and reading back its bytes gives the value. -/
structure ElemLayout (α : Type) where
  size : Nat
  align : Nat
  encode : α → Bytes
  decode : Bytes → α
  length_encode : ∀ x, (encode x).length = size
  decode_encode : ∀ x, decode (encode x) = x

attribute [simp] ElemLayout.length_encode ElemLayout.decode_encode

namespace ElemLayout

/-- The low `k` bytes of `v`, least significant first. -/
def leBytes : Nat → Nat → Bytes
  | 0, _ => []
  | k + 1, v => (v % 256).toUInt8 :: leBytes k (v / 256)

/-- The number whose bytes these are, least significant first. -/
def ofLeBytes : Bytes → Nat
  | [] => 0
  | b :: r => b.toNat + 256 * ofLeBytes r

@[simp] theorem length_leBytes (k v : Nat) : (leBytes k v).length = k := by
  induction k generalizing v <;> simp [leBytes, *]

theorem ofLeBytes_leBytes (k v : Nat) : ofLeBytes (leBytes k v) = v % Nat.pow 256 k := by
  induction k generalizing v with
  | zero => exact (Nat.mod_one v).symm
  | succ k ih =>
    have hb : ((v % 256).toUInt8).toNat = v % 256 := by simp [Nat.toUInt8_eq]
    rw [leBytes, ofLeBytes, ih, hb, show Nat.pow 256 (k + 1) = Nat.pow 256 k * 256 from rfl,
      Nat.mul_comm _ 256, Nat.mod_mul]

theorem toUInt64_ofLeBytes (x : UInt64) : (ofLeBytes (leBytes 8 x.toNat)).toUInt64 = x := by
  rw [ofLeBytes_leBytes, Nat.mod_eq_of_lt (by simpa using x.toNat_lt), Nat.toUInt64_eq,
    UInt64.ofNat_toNat]

theorem toUInt32_ofLeBytes (x : UInt32) : (ofLeBytes (leBytes 4 x.toNat)).toUInt32 = x := by
  rw [ofLeBytes_leBytes, Nat.mod_eq_of_lt (by simpa using x.toNat_lt), Nat.toUInt32_eq,
    UInt32.ofNat_toNat]

/-- A 64-bit word: eight bytes, least significant first, aligned to 8. -/
def word : ElemLayout UInt64 where
  size := 8
  align := 8
  encode x := leBytes 8 x.toNat
  decode bs := (ofLeBytes bs).toUInt64
  length_encode _ := length_leBytes 8 _
  decode_encode := toUInt64_ofLeBytes

example : word.encode 0x0102 = [2, 1, 0, 0, 0, 0, 0, 0] := by decide

end ElemLayout

end Frond
