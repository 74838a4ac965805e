import Frond.Proofs.Arena.Layout

/-!
# A refused request leaves the arena as it was

The arena functions return a new arena or a refusal. A program that keeps one arena and changes
it in place makes the same checks in the same order: the alignment, the rounded size, the
search for room, the block limit, the size of a new block, the host, and the place in the new
block. It appends the new block and moves a cursor only after the last of them.
`allocAlignedIn` and `Request.performIn` are that program.

* `allocAlignedIn_run`, `Request.performIn_run`: the program in place gives what the arena
  functions give, and leaves the arena it started from when they refuse.
* `newBlock_eq_error`, `allocAligned_eq_error`: why a request is refused.
* `allocAligned_eq_blockLimit`: the block limit is reported only when no block from the
  current one on has room.
* `refusal_leaves_arena`: every allocation function, run in place, refuses exactly when it
  refuses as a function, and then leaves the arena unchanged; the block limit is reported only
  when no block from the current one on has room.
* `fresh_block_fits`: a block appended for a request always takes it, so the layout overflow
  reported when a new block has no room for its request never happens.
-/

namespace Frond.Arena

/-! ## 1. The arena changed in place -/

/-- A computation on one arena changed in place, which may stop with a refusal. -/
abbrev InPlace := EStateM ArenaError Arena

/-- Where a request of `aligned` bytes goes: the first block from the current one on with room,
    or else a new block from the host, appended once every check has passed. -/
def roomIn (size aligned align : Nat) : InPlace (Nat × Nat) := do
  let a ← get
  match findRoom a.blocks aligned align a.current with
  | some found => pure found
  | none =>
    if a.blocks.size ≥ maxBlocks then throw (.blockLimit maxBlocks)
    else if aligned + align ≥ wordBound then throw (.layoutOverflow size)
    else
      match newBlock a.allocator a.blocks (max a.blockSize (aligned + align)) with
      | .error e => throw e
      | .ok b =>
        match b.fit aligned align with
        | none => throw (.layoutOverflow size)
        | some offset =>
          set { a with blocks := a.blocks.push b, mem := a.mem.fill b.base b.size }
          pure (a.blocks.size, offset)

/-- `allocAligned` on an arena changed in place. -/
def allocAlignedIn (size align : Nat) : InPlace Region :=
  if !isPowerOfTwo align then throw (.invalidAlignment align)
  else if size + (defaultAlignment - 1) ≥ wordBound then throw (.layoutOverflow size)
  else do
    let aligned := alignUp size defaultAlignment
    let (i, offset) ← roomIn size aligned align
    modifyGet fun a => a.commit i offset aligned size

/-- A request on an arena changed in place: the aligned request, then the copy of its
    contents into the region handed out. -/
def Request.performIn (q : Request) : InPlace Region := do
  let r ← allocAlignedIn q.size q.align
  modify (·.store r.address q.contents)
  pure r

/-- What a change in place leaves: the result and the arena after it, or the refusal and the
    arena it started from. -/
def settle {α : Type} (a : Arena) : Except ArenaError (α × Arena) → EStateM.Result ArenaError Arena α
  | .ok (r, a') => .ok r a'
  | .error e => .error e a

section Settle

variable {α : Type} {a s : Arena} {x : Except ArenaError (α × Arena)}

@[simp] theorem settle_eq_error_iff {e : ArenaError} :
    settle a x = .error e s ↔ x = .error e ∧ s = a := by
  cases x with
  | ok p => simp [settle]
  | error e' => simp [settle, eq_comm]

@[simp] theorem settle_eq_ok_iff {r : α} : settle a x = .ok r s ↔ x = .ok (r, s) := by
  cases x with
  | ok p => simp [settle, Prod.ext_iff]
  | error e' => simp [settle]

end Settle

/-! ## 2. The same checks in the same order -/

/-- **The aligned request in place.** Every check that can refuse comes before the arena is
    written, so a refusal leaves the arena it started from. -/
theorem allocAlignedIn_run (a : Arena) (size align : Nat) :
    (allocAlignedIn size align).run a = settle a (a.allocAligned size align) := by
  unfold allocAlignedIn allocAligned
  by_cases hpow : isPowerOfTwo align = true
  case neg => simp only [hpow, Bool.not_false, if_true]; rfl
  by_cases hsize : size + (defaultAlignment - 1) ≥ wordBound
  case pos => simp only [hpow, hsize, Bool.not_true, Bool.false_eq_true, if_true, if_false]; rfl
  simp only [hpow, hsize, Bool.not_true, Bool.false_eq_true, if_false, EStateM.run_bind]
  unfold roomIn
  simp only [EStateM.run_bind, EStateM.run_get]
  cases hfind : findRoom a.blocks (alignUp size defaultAlignment) align a.current with
  | some found => rfl
  | none =>
    dsimp only
    by_cases hcount : a.blocks.size ≥ maxBlocks
    case pos => simp only [hcount, if_true]; rfl
    by_cases hreq : alignUp size defaultAlignment + align ≥ wordBound
    case pos => simp only [hcount, hreq, if_true, if_false]; rfl
    simp only [hcount, hreq, if_false]
    cases newBlock a.allocator a.blocks (max a.blockSize (alignUp size defaultAlignment + align)) with
    | error e => rfl
    | ok b =>
      dsimp only
      cases b.fit (alignUp size defaultAlignment) align with
      | none => rfl
      | some o => rfl

namespace Request

/-- The requests for zero bytes copy nothing. -/
theorem map_store_nil (x : Except ArenaError (Region × Arena)) :
    x.map (fun p => (p.1, p.2.store p.1.address [])) = x := by
  cases x <;> simp [Except.map]

/-- Every request is the aligned request of its size and alignment, followed by the copy of
    its contents. -/
theorem perform_eq_map (q : Request) (a : Arena) :
    q.perform a =
      (a.allocAligned q.size q.align).map fun p => (p.1, p.2.store p.1.address q.contents) := by
  cases q with
  | alloc size | allocAligned size align | allocZeroedBytes size => exact (map_store_nil _).symm
  | allocBytes bytes | allocStr text | allocSliceCopy layout items | allocValue layout x => rfl

theorem perform_eq_error_iff {q : Request} {a : Arena} {e : ArenaError} :
    q.perform a = .error e ↔ a.allocAligned q.size q.align = .error e := by
  rw [perform_eq_map]
  cases a.allocAligned q.size q.align <;> simp [Except.map]

/-- **Every request in place.** It gives what the request gives as a function, and leaves the
    arena it started from when the request is refused. -/
theorem performIn_run (q : Request) (a : Arena) : q.performIn.run a = settle a (q.perform a) := by
  unfold performIn
  rw [EStateM.run_bind, allocAlignedIn_run, perform_eq_map]
  cases a.allocAligned q.size q.align with
  | error e => rfl
  | ok p => rfl

end Request

/-! ## 3. Why a request is refused -/

/-- The host refuses a block whose size has no layout, and one it cannot place. -/
theorem newBlock_eq_error {host : Allocator} {blocks : Array Block} {size : Nat} {e : ArenaError}
    (h : newBlock host blocks size = .error e) :
    (layoutLimit < size ∧ e = .layoutOverflow size) ∨
      (size ≤ layoutLimit ∧ host.place blocks size = none ∧
        e = .outOfMemory size defaultAlignment) := by
  unfold newBlock at h
  split at h
  · cases h
    exact .inl ⟨by omega, rfl⟩
  · split at h
    · cases h
    · rename_i hplace
      cases h
      exact .inr ⟨by omega, hplace, rfl⟩

/-- **Why a request is refused.** The alignment is not a power of two; or the size does not
    round up to 16 inside a machine word; or no block from the current one on has room, and
    then the chain holds `maxBlocks` blocks, or a new block large enough for the request at its
    alignment would leave the machine word, or the host refuses that block, or the request does
    not fit in it. -/
theorem allocAligned_eq_error {a : Arena} {size align : Nat} {e : ArenaError}
    (h : a.allocAligned size align = .error e) :
    (isPowerOfTwo align = false ∧ e = .invalidAlignment align) ∨
    (isPowerOfTwo align = true ∧ wordBound ≤ size + 15 ∧ e = .layoutOverflow size) ∨
    (isPowerOfTwo align = true ∧ size + 15 < wordBound ∧
      findRoom a.blocks (alignUp size 16) align a.current = none ∧
      (maxBlocks ≤ a.blocks.size ∧ e = .blockLimit maxBlocks ∨
       a.blocks.size < maxBlocks ∧ wordBound ≤ alignUp size 16 + align ∧
         e = .layoutOverflow size ∨
       a.blocks.size < maxBlocks ∧ alignUp size 16 + align < wordBound ∧
         (newBlock a.allocator a.blocks (max a.blockSize (alignUp size 16 + align)) = .error e ∨
          ∃ b, newBlock a.allocator a.blocks (max a.blockSize (alignUp size 16 + align)) = .ok b ∧
            b.fit (alignUp size 16) align = none ∧ e = .layoutOverflow size))) := by
  unfold allocAligned at h
  have hdef : defaultAlignment = 16 := rfl
  have hal : alignUp size defaultAlignment = alignUp size 16 := rfl
  split at h
  · rename_i hpow
    cases h
    exact .inl ⟨by simpa using hpow, rfl⟩
  rename_i hpow
  have hpow' : isPowerOfTwo align = true := by simpa using hpow
  split at h
  · rename_i hsize
    cases h
    exact .inr (.inl ⟨hpow', by omega, rfl⟩)
  rename_i hsize
  dsimp only at h
  split at h
  · cases h
  rename_i hfind
  refine .inr (.inr ⟨hpow', by omega, hfind, ?_⟩)
  split at h
  · rename_i hcount
    cases h
    exact .inl ⟨by omega, rfl⟩
  rename_i hcount
  split at h
  · rename_i hreq
    cases h
    exact .inr (.inl ⟨by omega, by omega, rfl⟩)
  rename_i hreq
  split at h
  · rename_i e' hb
    cases h
    exact .inr (.inr ⟨by omega, by omega, .inl hb⟩)
  rename_i b hb
  split at h
  · rename_i hfit
    cases h
    exact .inr (.inr ⟨by omega, by omega, .inr ⟨b, hb, hfit, rfl⟩⟩)
  · cases h

/-- **The block limit is the last resort.** It is reported only when the chain holds
    `maxBlocks` blocks and none from the current one on has room. -/
theorem allocAligned_eq_blockLimit {a : Arena} {size align n : Nat}
    (h : a.allocAligned size align = .error (.blockLimit n)) :
    n = maxBlocks ∧ maxBlocks ≤ a.blocks.size ∧
      ∀ j (hj : j < a.blocks.size), a.current ≤ j →
        a.blocks[j].fit (alignUp size 16) align = none := by
  obtain ⟨-, he⟩ | ⟨-, -, he⟩ | ⟨-, -, hfind, hcases⟩ := allocAligned_eq_error h
  · cases he
  · cases he
  rcases hcases with ⟨hcount, he⟩ | ⟨-, -, he⟩ | ⟨-, -, hb | ⟨b, -, -, he⟩⟩
  · cases he
    exact ⟨rfl, hcount, findRoom_eq_none_iff.mp hfind⟩
  · cases he
  · -- the host reports its own refusals, never the block limit
    rcases newBlock_eq_error hb with ⟨-, he⟩ | ⟨-, -, he⟩ <;> cases he
  · cases he

/-- **A request no block can hold is refused.** A request larger than every block of the chain
    has room in none of them, and one larger than any block layout gets no new block either. -/
theorem allocAligned_of_oversize {a : Arena} {size : Nat} (align : Nat)
    (hblocks : ∀ b ∈ a.blocks, b.size < size) (hlayout : layoutLimit < size) :
    ∃ e, a.allocAligned size align = .error e := by
  cases h : a.allocAligned size align with
  | error e => exact ⟨e, rfl⟩
  | ok p =>
    exfalso
    obtain ⟨hpow, -, hplace⟩ := allocAligned_eq_ok h
    have hround : size ≤ alignUp size 16 := alignUp_ge (by decide)
    rcases hplace with ⟨i, o, -, ⟨hi, hfit⟩, -⟩ | ⟨b, o, -, hb, -, -, -⟩
    · -- the block found would hold the whole request
      have hinside := (Block.fit_eq_some (pos_of_isPowerOfTwo hpow) hfit).2.1
      have hsmall := hblocks _ (Array.getElem_mem hi)
      omega
    · -- the new block is at least the request, so it has no layout
      have hroom : alignUp size 16 + align ≤ b.size :=
        (newBlock_eq_ok hb).2 ▸ Nat.le_max_right _ _
      have hle := newBlock_size_le hb
      omega

/-! ## 4. Refusals are atomic -/

/-- **A refused request leaves the arena as it was.** Every allocation function, run on an
    arena changed in place, is refused exactly when it is refused as a function, and then the
    arena is the one it started from: its blocks with their sizes and cursors, the current
    block, the bytes handed out, the block size, the host and the memory. It grants exactly
    what the function grants. The block limit is reported only when the chain is full and no
    block from the current one on has room for the request. -/
theorem refusal_leaves_arena (q : Request) (a : Arena) :
    (∀ e s, q.performIn.run a = .error e s ↔ q.perform a = .error e ∧ s = a) ∧
    (∀ r s, q.performIn.run a = .ok r s ↔ q.perform a = .ok (r, s)) ∧
    (∀ n, q.perform a = .error (.blockLimit n) →
      n = maxBlocks ∧ maxBlocks ≤ a.blocks.size ∧
      ∀ j (hj : j < a.blocks.size), a.current ≤ j →
        a.blocks[j].fit (alignUp q.size 16) q.align = none) := by
  refine ⟨fun e s => ?_, fun r s => ?_, fun n h => ?_⟩
  · rw [Request.performIn_run, settle_eq_error_iff]
  · rw [Request.performIn_run, settle_eq_ok_iff]
  · exact allocAligned_eq_blockLimit (Request.perform_eq_error_iff.mp h)

/-! ## 5. A new block takes its request -/

/-- **A fresh block always fits its request.** When no block from the current one on has room
    and the arena appends one, that block is at least the rounded size plus the alignment. On a
    host that places it at a multiple of 16 and inside the address space, the request fits at an
    offset below the alignment, and at offset 0 for an alignment up to 16. So the arena grants
    the request in the new block, whose cursor ends inside it, and the layout overflow that a
    new block without room would report is never reached. -/
theorem fresh_block_fits {a : Arena} {size align : Nat} {b : Block}
    (hpow : isPowerOfTwo align = true)
    (hroom : findRoom a.blocks (alignUp size 16) align a.current = none)
    (hcount : a.blocks.size < maxBlocks) (hreq : alignUp size 16 + align < wordBound)
    (hnew : newBlock a.allocator a.blocks (max a.blockSize (alignUp size 16 + align)) = .ok b)
    (hbase : b.base % 16 = 0) (hend : b.base + b.size ≤ wordBound) :
    ∃ o, b.fit (alignUp size 16) align = some o ∧ o < align ∧ (align ≤ 16 → o = 0) ∧
      o + alignUp size 16 ≤ b.size ∧
      a.allocAligned size align =
        .ok ({ a with blocks := a.blocks.push b, mem := a.mem.fill b.base b.size }.commit
          a.blocks.size o (alignUp size 16) size) := by
  obtain ⟨hused, hsize⟩ := newBlock_eq_ok hnew
  have ha := pos_of_isPowerOfTwo hpow
  have hroomb : alignUp size 16 + align ≤ b.size := by
    rw [hsize]
    exact Nat.le_max_right _ _
  obtain ⟨o, hfit, hpad, hzero, hinside⟩ := Block.fit_of_empty ha hused hroomb hend
  refine ⟨o, hfit, hpad, fun hle => hzero ?_, hinside, ?_⟩
  · exact Nat.dvd_trans (dvd_sixteen_of_isPowerOfTwo hpow hle) (Nat.dvd_of_mod_eq_zero hbase)
  -- a size that rounds up past the machine word would leave no room for the alignment
  have hword : size + (defaultAlignment - 1) < wordBound := by
    have hmod := alignUp_mod size 16
    have hge : size ≤ alignUp size 16 := alignUp_ge (by decide)
    have hw : wordBound = 2 ^ 64 := rfl
    have hd : defaultAlignment = 16 := rfl
    rw [hw] at hreq ⊢
    rw [hd]
    omega
  unfold allocAligned
  simp only [hpow, Bool.not_true, Bool.false_eq_true, if_false, if_neg (Nat.not_le.mpr hword)]
  have hal : alignUp size defaultAlignment = alignUp size 16 := rfl
  rw [hal, hroom]
  dsimp only
  rw [if_neg (Nat.not_le.mpr hcount), if_neg (Nat.not_le.mpr hreq), hnew]
  dsimp only
  rw [hfit]

/-- On the standard host a request of 5000 bytes at alignment 64 does not fit in the first
    block of 4096 bytes and takes a new block of 5072 bytes at its start. -/
theorem fresh_block_fits_standard :
    let a : Arena := ⟨#[⟨Allocator.heapStart, 4096, 0⟩], 0, 4096, 0, .standard,
      Memory.blank.fill Allocator.heapStart 4096⟩
    let b : Block := ⟨Allocator.heapStart + 4096, 5072, 0⟩
    findRoom a.blocks (alignUp 5000 16) 64 a.current = none ∧
      newBlock a.allocator a.blocks (max a.blockSize (alignUp 5000 16 + 64)) = .ok b ∧
      ∃ o, b.fit (alignUp 5000 16) 64 = some o ∧ o < 64 ∧ (64 ≤ 16 → o = 0) ∧
        o + alignUp 5000 16 ≤ b.size ∧
        a.allocAligned 5000 64 =
          .ok ({ a with blocks := a.blocks.push b, mem := a.mem.fill b.base b.size }.commit
            a.blocks.size o (alignUp 5000 16) 5000) := by
  intro a b
  have hroom : findRoom a.blocks (alignUp 5000 16) 64 a.current = none := by decide +kernel
  have hnew : newBlock a.allocator a.blocks (max a.blockSize (alignUp 5000 16 + 64)) = .ok b := by
    have hplace : Allocator.standard.place #[⟨Allocator.heapStart, 4096, 0⟩] 5072 =
        some (Allocator.heapStart + 4096) := by
      decide
    show newBlock .standard #[⟨Allocator.heapStart, 4096, 0⟩]
      (max 4096 (alignUp 5000 16 + 64)) = _
    rw [show max 4096 (alignUp 5000 16 + 64) = 5072 by decide, newBlock, if_neg (by decide),
      hplace]
  exact ⟨hroom, hnew, fresh_block_fits (by decide) hroom (by decide) (by decide) hnew (by decide)
    (by decide)⟩

end Frond.Arena
