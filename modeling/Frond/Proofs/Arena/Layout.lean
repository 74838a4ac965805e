import Frond.Arena.Basic

/-!
# What one request does to an arena

The arena's layout in the blocks, said once per function so that the theorems about whole runs
never unfold the arena again.

* `alignUp_ge`, `alignUp_mod`, `alignUp_lt`: rounding up to a positive alignment.
* `Block.fit_eq_some`: a place found in a block lies at or after its cursor, inside the block,
  at the alignment asked for.
* `findRoom_eq_some`, `findRoom_first`, `findRoom_of_first`, `findRoom_eq_none_iff`: the
  search finds the first block at or after its start with room, and nothing when none has.
* `allocAligned_eq_ok`: a granted request takes its bytes in a block found at or after the
  current one, or in a new block from the host appended to the chain, and nothing else changes.
* `places_commit`, `places_push`, `places_reset`: where the blocks lie after each change; a
  reset also clears the cursors of the first `maxBlocks` blocks (`reset_used`).
* `Request.perform_eq_ok`: every allocation function is an aligned request followed by a copy
  of its contents into the region handed out.
-/

namespace Frond

/-! ## 1. Rounding up -/

section Align

variable {x a : Nat}

theorem alignUp_ge (ha : 0 < a) : x ≤ alignUp x a := by
  unfold alignUp
  have := Nat.lt_div_mul_add (a := x + a - 1) ha
  omega

theorem alignUp_mod (x a : Nat) : alignUp x a % a = 0 := Nat.mul_mod_left _ _

theorem alignUp_lt (ha : 0 < a) : alignUp x a < x + a := by
  unfold alignUp
  have := Nat.div_mul_le_self (x + a - 1) a
  omega

/-- A multiple of the alignment needs no rounding. -/
theorem alignUp_of_dvd (ha : 0 < a) (h : a ∣ x) : alignUp x a = x := by
  obtain ⟨k, rfl⟩ := h
  unfold alignUp
  rw [show a * k + a - 1 = (a - 1) + a * k by omega, Nat.add_mul_div_left _ _ ha,
    Nat.div_eq_of_lt (by omega), Nat.zero_add, Nat.mul_comm]

end Align

theorem pos_of_isPowerOfTwo {n : Nat} (h : isPowerOfTwo n = true) : 0 < n := by
  unfold isPowerOfTwo at h
  simp only [Bool.and_eq_true, bne_iff_ne] at h
  omega

/-- The powers of two up to 16 are 1, 2, 4, 8 and 16, and each divides 16. -/
theorem dvd_sixteen_of_isPowerOfTwo {n : Nat} (h : isPowerOfTwo n = true) (hn : n ≤ 16) :
    n ∣ 16 := by
  have hsmall : ∀ m < 17, isPowerOfTwo m = true → m ∣ 16 := by decide
  exact hsmall n (by omega) h

/-! ## 2. Fitting a request into a block -/

/-- **Where a request fits.** The offset is at or after the block's cursor, the request ends
    inside the block, and its address is a multiple of the alignment. -/
theorem Block.fit_eq_some {b : Block} {size align o : Nat} (ha : 0 < align)
    (h : b.fit size align = some o) :
    b.used ≤ o ∧ o + size ≤ b.size ∧ (b.base + o) % align = 0 := by
  unfold Block.fit at h
  dsimp only at h
  split at h
  · split at h
    · rename_i hend
      cases h
      have hge : b.base + b.used ≤ alignUp (b.base + b.used) align := alignUp_ge ha
      refine ⟨by omega, hend, ?_⟩
      rw [Nat.add_sub_cancel' (by omega)]
      exact alignUp_mod _ _
    · cases h
  · cases h

/-- **An empty block takes a request it has room for at any padding.** Rounding the block's
    address up to the alignment adds less than the alignment, so a request fits at an offset
    below the alignment; when the alignment divides the address, at offset 0. -/
theorem Block.fit_of_empty {b : Block} {size align : Nat} (ha : 0 < align) (hused : b.used = 0)
    (hroom : size + align ≤ b.size) (hend : b.base + b.size ≤ wordBound) :
    ∃ o, b.fit size align = some o ∧ o < align ∧ (align ∣ b.base → o = 0) ∧
      o + size ≤ b.size := by
  have hge : b.base ≤ alignUp b.base align := alignUp_ge ha
  have hpad : alignUp b.base align < b.base + align := alignUp_lt ha
  -- the rounded address stays inside the block, so neither check of `fit` refuses
  have hword : b.base + b.used + align - 1 < wordBound := by omega
  have hfits : alignUp (b.base + b.used) align - b.base + size ≤ b.size := by
    rw [hused, Nat.add_zero]
    omega
  refine ⟨alignUp (b.base + b.used) align - b.base, ?_, ?_, fun hdvd => ?_, hfits⟩
  · simp only [Block.fit, if_pos hword, if_pos hfits]
  · rw [hused, Nat.add_zero]
    omega
  · rw [hused, Nat.add_zero, alignUp_of_dvd ha hdvd, Nat.sub_self]

/-- The search for room looks at the blocks from `i` on and stops at one where the request
    fits. -/
theorem findRoom_eq_some {blocks : Array Block} {size align i j o : Nat}
    (h : Arena.findRoom blocks size align i = some (j, o)) :
    i ≤ j ∧ ∃ hj : j < blocks.size, blocks[j].fit size align = some o := by
  fun_induction Arena.findRoom blocks size align i with
  | case1 i hi ho hfit =>
    simp only [Option.some.injEq, Prod.mk.injEq] at h
    obtain ⟨rfl, rfl⟩ := h
    exact ⟨Nat.le_refl _, hi, hfit⟩
  | case2 i hi hfit ih =>
    obtain ⟨hle, hj⟩ := ih h
    exact ⟨by omega, hj⟩
  | case3 i hi => cases h

/-- The block found is the first with room: no block between the start and it has any. -/
theorem findRoom_first {blocks : Array Block} {size align i j o : Nat}
    (h : Arena.findRoom blocks size align i = some (j, o)) :
    ∀ k (hk : k < blocks.size), i ≤ k → k < j → blocks[k].fit size align = none := by
  fun_induction Arena.findRoom blocks size align i with
  | case1 i hi o' hfit =>
    simp only [Option.some.injEq, Prod.mk.injEq] at h
    obtain ⟨rfl, rfl⟩ := h
    intro k hk hik hkj
    omega
  | case2 i hi hfit ih =>
    intro k hk hik hkj
    rcases Nat.eq_or_lt_of_le hik with rfl | hlt
    · exact hfit
    · exact ih h k hk hlt hkj
  | case3 i hi => cases h

/-- A block with room, and none with room between the start and it, is the block found. -/
theorem findRoom_of_first {blocks : Array Block} {size align i j o : Nat} (hij : i ≤ j)
    (hj : j < blocks.size) (hfit : blocks[j].fit size align = some o)
    (hbefore : ∀ k (hk : k < blocks.size), i ≤ k → k < j → blocks[k].fit size align = none) :
    Arena.findRoom blocks size align i = some (j, o) := by
  fun_induction Arena.findRoom blocks size align i with
  | case1 i hi o' hfit' =>
    rcases Nat.eq_or_lt_of_le hij with rfl | hlt
    · simp_all
    · simp [hbefore i hi (Nat.le_refl i) hlt] at hfit'
  | case2 i hi hfit' ih =>
    rcases Nat.eq_or_lt_of_le hij with rfl | hlt
    · simp [hfit] at hfit'
    · exact ih hlt fun k hk hik hkj => hbefore k hk (by omega) hkj
  | case3 i hi => omega

/-- The search finds nothing exactly when no block from the start on has room. -/
theorem findRoom_eq_none_iff {blocks : Array Block} {size align i : Nat} :
    Arena.findRoom blocks size align i = none ↔
      ∀ j (hj : j < blocks.size), i ≤ j → blocks[j].fit size align = none := by
  fun_induction Arena.findRoom blocks size align i with
  | case1 i hi o hfit =>
    simp only [reduceCtorEq, false_iff]
    intro h
    simp [h i hi (Nat.le_refl i)] at hfit
  | case2 i hi hfit ih =>
    rw [ih]
    constructor
    · intro h j hj hij
      rcases Nat.eq_or_lt_of_le hij with rfl | hlt
      · exact hfit
      · exact h j hj hlt
    · intro h j hj hij
      exact h j hj (by omega)
  | case3 i hi =>
    simp only [true_iff]
    intro j hj hij
    omega

/-- A new block from the host is empty and has the size asked for. -/
theorem newBlock_eq_ok {host : Allocator} {blocks : Array Block} {size : Nat} {b : Block}
    (h : Arena.newBlock host blocks size = .ok b) : b.used = 0 ∧ b.size = size := by
  unfold Arena.newBlock at h
  split at h
  · cases h
  · split at h
    · cases h
      exact ⟨rfl, rfl⟩
    · cases h

/-- A block the host grants has a layout. -/
theorem newBlock_size_le {host : Allocator} {blocks : Array Block} {size : Nat} {b : Block}
    (h : Arena.newBlock host blocks size = .ok b) : b.size ≤ Arena.layoutLimit := by
  unfold Arena.newBlock at h
  split at h
  · cases h
  · rename_i hlayout
    split at h
    · cases h
      exact Nat.le_of_not_lt hlayout
    · cases h

/-! ## 3. Taking bytes -/

namespace Arena

section Commit

variable (a : Arena) (i o al sz : Nat)

@[simp] theorem commit_blocks :
    (a.commit i o al sz).2.blocks = a.blocks.modify i ({ · with used := o + al }) := rfl

@[simp] theorem commit_current : (a.commit i o al sz).2.current = i := rfl

@[simp] theorem commit_total :
    (a.commit i o al sz).2.total = min (a.total + al) (wordBound - 1) := rfl

theorem commit_of_getElem? {a : Arena} {i : Nat} {b : Block} (hb : a.blocks[i]? = some b)
    (o al sz : Nat) :
    (a.commit i o al sz).1 = ⟨i, o, b.base + o, sz⟩ ∧
      (a.commit i o al sz).2.mem = a.mem.fill (b.base + o) sz := by
  simp [commit, hb]

end Commit

/-- **What a granted request does.** The alignment is a power of two and the size rounds up to
    16 within a machine word. The bytes are taken where the request fits in a block at or after
    the current one, or in a new empty block from the host, large enough for the request at its
    alignment, appended to the chain while it has fewer than `maxBlocks` blocks and
    zero-filled. -/
theorem allocAligned_eq_ok {a : Arena} {size align : Nat} {r : Region} {a' : Arena}
    (h : a.allocAligned size align = .ok (r, a')) :
    isPowerOfTwo align = true ∧ size + 15 < wordBound ∧
    ((∃ i o, a.current ≤ i ∧ (∃ hi : i < a.blocks.size,
        a.blocks[i].fit (alignUp size 16) align = some o) ∧
        (r, a') = a.commit i o (alignUp size 16) size) ∨
     (∃ b o, a.blocks.size < maxBlocks ∧
        newBlock a.allocator a.blocks (max a.blockSize (alignUp size 16 + align)) = .ok b ∧
        b.used = 0 ∧ b.fit (alignUp size 16) align = some o ∧
        (r, a') = { a with blocks := a.blocks.push b, mem := a.mem.fill b.base b.size }.commit
          a.blocks.size o (alignUp size 16) size)) := by
  unfold allocAligned at h
  split at h
  · cases h
  rename_i hpow
  split at h
  · cases h
  rename_i hsize
  refine ⟨by simpa using hpow, by simp [defaultAlignment] at hsize; omega, ?_⟩
  dsimp only at h
  split at h
  · -- room in a block at or after the current one
    rename_i i o hfind
    obtain ⟨hle, hi, hfit⟩ := findRoom_eq_some hfind
    exact .inl ⟨i, o, hle, ⟨hi, hfit⟩, (Except.ok.inj h).symm⟩
  · -- a new block
    split at h
    · cases h
    rename_i hcount
    split at h
    · cases h
    split at h
    · cases h
    rename_i b hb
    split at h
    · cases h
    rename_i o hfit
    exact .inr ⟨b, o, by omega, hb, (newBlock_eq_ok hb).1, hfit, (Except.ok.inj h).symm⟩

/-- A new arena holds one empty block from the host and has handed out nothing. -/
theorem create_eq_ok {host : Allocator} {blockSize : Nat} {a : Arena}
    (h : create host blockSize = .ok a) :
    ∃ b : Block, newBlock host #[] (max blockSize minBlockSize) = .ok b ∧ b.used = 0 ∧
      a.blocks = #[b] ∧ a.current = 0 ∧ a.total = 0 ∧ a.allocator = host ∧
      a.mem = Memory.blank.fill b.base b.size := by
  unfold create at h
  dsimp only at h
  cases hb : newBlock host #[] (max blockSize minBlockSize) with
  | error e =>
    rw [hb] at h
    cases h
  | ok b =>
    simp only [hb] at h
    cases h
    exact ⟨b, rfl, (newBlock_eq_ok hb).1, rfl, rfl, rfl, rfl, rfl⟩

/-- A granted request hands out as many bytes as it asked for. -/
theorem allocAligned_size {a : Arena} {size align : Nat} {r : Region} {a' : Arena}
    (h : a.allocAligned size align = .ok (r, a')) : r.size = size := by
  obtain ⟨-, -, ⟨i, o, -, -, hra⟩ | ⟨b, o, -, -, -, -, hra⟩⟩ := allocAligned_eq_ok h <;>
    obtain ⟨rfl, -⟩ := Prod.ext_iff.mp hra <;> rfl

/-! ## 4. Where the blocks lie -/

/-- Where each block lies, its address and size, in the order of the chain. -/
def places (a : Arena) : List (Nat × Nat) := a.blocks.toList.map fun b => (b.base, b.size)

/-- Taking bytes moves a cursor only: every block stays where it is. -/
@[simp] theorem places_commit (a : Arena) (i o al sz : Nat) :
    (a.commit i o al sz).2.places = a.places := by
  apply List.ext_getElem
  · simp [places]
  · intro j h₁ h₂
    simp only [places, commit_blocks, Array.toList_modify, List.getElem_map, List.getElem_modify]
    split <;> rfl

@[simp] theorem places_push (a : Arena) (b : Block) (m : Memory) :
    ({ a with blocks := a.blocks.push b, mem := m } : Arena).places =
      a.places ++ [(b.base, b.size)] := by
  simp [places]

@[simp] theorem places_withMem (a : Arena) (m : Memory) :
    ({ a with mem := m } : Arena).places = a.places := rfl

@[simp] theorem places_store (a : Arena) (addr : Nat) (bytes : Bytes) :
    (a.store addr bytes).places = a.places := rfl

@[simp] theorem places_reset (a : Arena) : a.reset.places = a.places := by
  apply List.ext_getElem
  · simp [places, reset]
  · intro j h₁ h₂
    simp only [places, reset, Array.toList_mapIdx, List.getElem_map, List.getElem_mapIdx]
    split <;> rfl

/-- A reset clears the cursor of every block of a chain of at most `maxBlocks` blocks. -/
theorem reset_used {a : Arena} (h : a.blocks.size ≤ maxBlocks) : ∀ b ∈ a.reset.blocks, b.used = 0 := by
  intro b hb
  obtain ⟨i, hi, rfl⟩ := Array.mem_iff_getElem.mp hb
  simp only [reset, Array.getElem_mapIdx]
  simp only [reset, Array.size_mapIdx] at hi
  rw [if_pos (by omega)]

/-! ## 5. The requests a program makes -/

/-- A call of one of the arena's allocation functions. The functions that copy plain values take
    them with the layout of their type. -/
inductive Request : Type 1 where
  | alloc (size : Nat)
  | allocAligned (size align : Nat)
  | allocZeroedBytes (len : Nat)
  | allocBytes (bytes : Bytes)
  | allocStr (text : String)
  | allocSliceCopy {α : Type} (layout : ElemLayout α) (items : List α)
  | allocValue {α : Type} (layout : ElemLayout α) (x : α)

namespace Request

/-- How many bytes a request takes. -/
def size : Request → Nat
  | alloc size | allocAligned size _ | allocZeroedBytes size => size
  | allocBytes bytes => bytes.length
  | allocStr text => (Bytes.ofString text).length
  | allocSliceCopy layout items => layout.size * items.length
  | allocValue layout _ => layout.size

/-- The alignment a request asks for. -/
def align : Request → Nat
  | allocAligned _ align => align
  | allocSliceCopy layout _ | allocValue layout _ => layout.align
  | _ => defaultAlignment

/-- The bytes a request copies into its region; the requests for zero bytes copy none. -/
def contents : Request → Bytes
  | allocBytes bytes => bytes
  | allocStr text => Bytes.ofString text
  | allocSliceCopy layout items => items.flatMap layout.encode
  | allocValue layout x => layout.encode x
  | _ => []

/-- Runs a request on an arena. -/
def perform : Request → Arena → Except ArenaError (Region × Arena)
  | alloc size, a => a.alloc size
  | allocAligned size align, a => a.allocAligned size align
  | allocZeroedBytes len, a => a.allocZeroedBytes len
  | allocBytes bytes, a => a.allocBytes bytes
  | allocStr text, a => a.allocStr text
  | allocSliceCopy layout items, a => a.allocSliceCopy layout items
  | allocValue layout x, a => a.allocValue layout x

theorem length_contents_le (q : Request) : q.contents.length ≤ q.size := by
  cases q with
  | allocSliceCopy layout items =>
    simp [contents, size, List.length_flatMap, List.map_const', Nat.mul_comm]
  | _ => simp [contents, size]

@[simp] theorem store_nil (a : Arena) (addr : Nat) : a.store addr [] = a := by
  simp [store]

/-- A granted request copied into the arena after a granted aligned request. -/
theorem map_store_eq_ok {x : Except ArenaError (Region × Arena)} {bytes : Bytes} {r : Region}
    {a' : Arena} (h : x.map (fun p => (p.1, p.2.store p.1.address bytes)) = .ok (r, a')) :
    ∃ a'', x = .ok (r, a'') ∧ a' = a''.store r.address bytes := by
  cases x with
  | error e => cases h
  | ok p =>
    simp only [Except.map, Except.ok.injEq, Prod.mk.injEq] at h
    obtain ⟨rfl, rfl⟩ := h
    exact ⟨p.2, rfl, rfl⟩

/-- **Every request is an aligned request followed by a copy.** It takes its size at its
    alignment as `allocAligned` does, then writes its contents at the address handed out. -/
theorem perform_eq_ok {q : Request} {a a' : Arena} {r : Region} (h : q.perform a = .ok (r, a')) :
    ∃ a'', a.allocAligned q.size q.align = .ok (r, a'') ∧ a' = a''.store r.address q.contents := by
  cases q with
  | alloc size | allocAligned size align | allocZeroedBytes size =>
    exact ⟨a', h, (store_nil a' r.address).symm⟩
  | allocBytes bytes | allocStr text | allocSliceCopy layout items | allocValue layout x =>
    exact map_store_eq_ok h

end Request

end Arena

end Frond
