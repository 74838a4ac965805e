import Frond.Proofs.Arena.Layout
import Mathlib.Algebra.BigOperators.Group.List.Basic
import Mathlib.Order.Interval.Finset.Nat
import Mathlib.Algebra.Order.BigOperators.Group.List
import Mathlib.Algebra.Order.Group.Nat
import Mathlib.Algebra.Ring.Nat

/-!
# The arena's layout invariant

A program uses an arena by a sequence of calls: requests of any of its allocation functions, at
any size and alignment, and resets. A `History` follows such a sequence and records the grants
made since the last reset: the alignment asked for and the region handed out.

Where the host puts a block is up to the host. The host must put each block inside the address
space and away from the other blocks (`Placed`); under that, every history keeps `Sound`:

* the blocks keep their places in the chain; a cursor never passes the end of its block, and
  every block after the current one has its cursor at 0;
* the chain never has more than `maxBlocks` blocks, so a reset clears every cursor;
* every grant lies in its block below the cursor, at the alignment asked for, and no two grants
  overlap;
* the bytes handed out, counted rounded up to 16, are the sum over the grants and no more than
  the sum of the cursors, so the count never saturates.

Main statements: `Placed.sum_lt` (placed blocks fit in the address space together),
`Sound.call` (one call keeps the invariant), `Sound.foldl` (so does every run), `Sound.apart`
(no two grants overlap), `standard_placed` (the standard host places its blocks as required)
and `arena_layout` (the invariant read off at any point of any run).
-/

namespace Frond

open Arena

/-! ## 1. Blocks in the address space -/

/-- Blocks placed as the host must place them: each ends inside the address space, and no two
    overlap. -/
def Placed (ps : List (Nat × Nat)) : Prop :=
  (∀ p ∈ ps, p.1 + p.2 < wordBound) ∧ ps.Pairwise fun p q => Apart p.1 p.2 q.1 q.2

theorem Placed.of_prefix {ps qs : List (Nat × Nat)} (h : Placed qs) (hpre : ps <+: qs) :
    Placed ps :=
  ⟨fun p hp => h.1 p (hpre.subset hp), h.2.sublist hpre.sublist⟩

/-- The addresses that the ranges `[start, start + length)` of a list cover. -/
def cover (ps : List (Nat × Nat)) : Finset Nat :=
  ps.foldr (fun p s => Finset.Ico p.1 (p.1 + p.2) ∪ s) ∅

@[simp] theorem cover_nil : cover [] = ∅ := rfl

@[simp] theorem cover_cons (p : Nat × Nat) (ps : List (Nat × Nat)) :
    cover (p :: ps) = Finset.Ico p.1 (p.1 + p.2) ∪ cover ps := rfl

theorem disjoint_cover {p : Nat × Nat} {ps : List (Nat × Nat)}
    (h : ∀ q ∈ ps, Apart p.1 p.2 q.1 q.2) : Disjoint (Finset.Ico p.1 (p.1 + p.2)) (cover ps) := by
  induction ps with
  | nil => simp
  | cons q qs ih =>
    simp only [cover_cons, Finset.disjoint_union_right]
    refine ⟨?_, ih fun r hr => h r (List.mem_cons_of_mem q hr)⟩
    rw [Finset.disjoint_left]
    intro x hx hx'
    simp only [Finset.mem_Ico] at hx hx'
    have := h q List.mem_cons_self
    unfold Apart at this
    omega

/-- Ranges that lie apart cover as many addresses as their lengths add up to. -/
theorem card_cover {ps : List (Nat × Nat)} (h : ps.Pairwise fun p q => Apart p.1 p.2 q.1 q.2) :
    (cover ps).card = (ps.map Prod.snd).sum := by
  induction ps with
  | nil => rfl
  | cons p ps ih =>
    obtain ⟨hp, hps⟩ := List.pairwise_cons.mp h
    rw [cover_cons, Finset.card_union_of_disjoint (disjoint_cover hp)]
    simp [ih hps]

theorem cover_subset {ps : List (Nat × Nat)} {n : Nat} (h : ∀ p ∈ ps, p.1 + p.2 ≤ n) :
    cover ps ⊆ Finset.range n := by
  intro x hx
  induction ps with
  | nil => simp at hx
  | cons p ps ih =>
    simp only [cover_cons, Finset.mem_union, Finset.mem_Ico] at hx
    rcases hx with hx | hx
    · have := h p List.mem_cons_self
      simp only [Finset.mem_range]
      omega
    · exact ih (fun q hq => h q (List.mem_cons_of_mem p hq)) hx

/-- **Placed blocks fit in the address space together**: their sizes add up to less than
    `2 ^ 64`. -/
theorem Placed.sum_lt {ps : List (Nat × Nat)} (h : Placed ps) :
    (ps.map Prod.snd).sum < wordBound := by
  have hsub : cover ps ⊆ Finset.range (wordBound - 1) :=
    cover_subset fun p hp => by have := h.1 p hp; omega
  have hcard := Finset.card_le_card hsub
  rw [Finset.card_range, card_cover h.2] at hcard
  have : 0 < wordBound := by decide
  omega

/-! ## 2. Histories -/

namespace Arena

/-- A call a program makes on an arena: a request of one of the allocation functions, or a
    reset. -/
inductive Call : Type 1 where
  | request (q : Request)
  | reset

/-- A region handed out since the last reset, and the alignment it was asked at. -/
structure Grant where
  align : Nat
  region : Region

/-- The bytes a grant takes from its block: its size rounded up to 16. -/
def Grant.taken (g : Grant) : Nat := alignUp g.region.size 16

/-- A grant lies in its block at its offset, ends below the block's cursor, and starts at the
    alignment it was asked at. -/
def Grant.Inside (g : Grant) (blocks : Array Block) : Prop :=
  ∃ hb : g.region.block < blocks.size,
    g.region.address = blocks[g.region.block].base + g.region.offset ∧
    g.region.offset + g.taken ≤ blocks[g.region.block].used ∧
    g.region.address % g.align = 0

/-- An arena and the grants it made since its last reset, oldest first. -/
structure History where
  arena : Arena
  grants : List Grant

namespace History

/-- The history after one more call. A refused request changes nothing. -/
def call (t : History) : Call → History
  | .request q =>
    match q.perform t.arena with
    | .ok (r, a) => ⟨a, t.grants ++ [⟨q.align, r⟩]⟩
    | .error _ => t
  | .reset => ⟨t.arena.reset, []⟩

/-- The history of a sequence of calls on an arena. -/
def run (a : Arena) (calls : List Call) : History := calls.foldl call ⟨a, []⟩

/-- The layout invariant. -/
structure Sound (t : History) : Prop where
  count_le : t.arena.blocks.size ≤ maxBlocks
  current_lt : t.arena.current < t.arena.blocks.size
  used_le : ∀ b ∈ t.arena.blocks, b.used ≤ b.size
  empty_after : ∀ i (hi : i < t.arena.blocks.size), t.arena.current < i →
    t.arena.blocks[i].used = 0
  inside : ∀ g ∈ t.grants, g.Inside t.arena.blocks
  ordered : t.grants.Pairwise fun g h =>
    g.region.block = h.region.block → g.region.offset + g.taken ≤ h.region.offset
  total_eq : t.arena.total = (t.grants.map Grant.taken).sum
  total_le : t.arena.total ≤ (t.arena.blocks.toList.map Block.used).sum

end History

/-! ## 3. One call keeps the invariant -/

/-- Moving one cursor moves the sum of the cursors by as much. -/
theorem sum_used_modify (l : List Block) (f : Block → Block) {j : Nat} (hj : j < l.length) :
    ((l.modify j f).map Block.used).sum + l[j].used = (l.map Block.used).sum + (f l[j]).used := by
  induction l generalizing j with
  | nil => cases hj
  | cons b l ih =>
    cases j with
    | zero =>
      simp only [List.modify_zero_cons, List.map_cons, List.sum_cons, List.getElem_cons_zero]
      omega
    | succ j =>
      have := ih (j := j) (by simpa using hj)
      simp only [List.modify_succ_cons, List.map_cons, List.sum_cons, List.getElem_cons_succ]
      omega

/-- Cursors within their blocks add up to no more than the blocks' sizes. -/
theorem sum_used_le {a : Arena} (h : ∀ b ∈ a.blocks, b.used ≤ b.size) :
    (a.blocks.toList.map Block.used).sum ≤ (a.places.map Prod.snd).sum := by
  rw [places, List.map_map]
  exact List.sum_le_sum fun b hb => h b (Array.mem_toList_iff.mp hb)

/-- Moving one cursor to a place within its block keeps every cursor within its block. -/
theorem used_le_modify {blocks : Array Block} (h : ∀ b ∈ blocks, b.used ≤ b.size) {j u : Nat}
    (hj : j < blocks.size) (hu : u ≤ blocks[j].size) :
    ∀ b ∈ blocks.modify j ({ · with used := u }), b.used ≤ b.size := by
  intro b hb
  obtain ⟨i, hi, rfl⟩ := Array.mem_iff_getElem.mp hb
  rw [Array.getElem_modify]
  split
  · rename_i heq
    subst heq
    exact hu
  · exact h _ (Array.getElem_mem _)

theorem Grant.Inside.push {g : Grant} {blocks : Array Block} (hg : g.Inside blocks) (b : Block) :
    g.Inside (blocks.push b) := by
  obtain ⟨hb, haddr, hbelow, hal⟩ := hg
  refine ⟨by simp only [Array.size_push]; omega, ?_, ?_, hal⟩ <;>
    rw [Array.getElem_push_lt hb] <;> assumption

/-- A grant stays inside its block when a cursor moves forward. -/
theorem Grant.Inside.raise {g : Grant} {blocks : Array Block} (hg : g.Inside blocks) {j u : Nat}
    (hj : j < blocks.size) (hu : blocks[j].used ≤ u) :
    g.Inside (blocks.modify j ({ · with used := u })) := by
  obtain ⟨hb, haddr, hbelow, hal⟩ := hg
  refine ⟨by simpa using hb, ?_, ?_, hal⟩
  · rw [Array.getElem_modify]
    split <;> exact haddr
  · rw [Array.getElem_modify]
    split
    · rename_i heq
      subst heq
      exact Nat.le_trans hbelow hu
    · exact hbelow

namespace History

/-- Appending an empty block keeps the invariant while the chain is short of `maxBlocks`. -/
theorem Sound.push {a : Arena} {gs : List Grant} (h : Sound ⟨a, gs⟩) {b : Block}
    (hcount : a.blocks.size < maxBlocks) (hb : b.used = 0) (m : Memory) :
    Sound ⟨{ a with blocks := a.blocks.push b, mem := m }, gs⟩ where
  count_le := by simp only [Array.size_push]; omega
  current_lt := by simpa using Nat.lt_succ_of_lt h.current_lt
  used_le := by
    intro c hc
    rcases Array.mem_push.mp hc with hc | rfl
    · exact h.used_le c hc
    · omega
  empty_after := by
    intro i hi hlt
    simp only [Array.getElem_push]
    split
    · exact h.empty_after i _ hlt
    · exact hb
  inside g hg := Grant.Inside.push (h.inside g hg) b
  ordered := h.ordered
  total_eq := h.total_eq
  total_le := by simpa [hb] using h.total_le

/-- **Taking bytes keeps the invariant.** The bytes go to a block at or after the current one,
    at a place the block's `fit` found: at or after its cursor, so after every earlier grant in
    that block. The count stays exact because the cursors, which bound it, stay within blocks
    that together fit in the address space. -/
theorem Sound.commit {a : Arena} {gs : List Grant} (h : Sound ⟨a, gs⟩) {j o sz align : Nat}
    (hj : a.current ≤ j) (hjs : j < a.blocks.size)
    (hfit : a.blocks[j].fit (alignUp sz 16) align = some o) (halign : 0 < align)
    (hroom : (a.places.map Prod.snd).sum < wordBound) :
    Sound ⟨(a.commit j o (alignUp sz 16) sz).2,
      gs ++ [⟨align, (a.commit j o (alignUp sz 16) sz).1⟩]⟩ := by
  obtain ⟨hcount, -, hle, hempty, hinside, hordered, htotal_eq, htotal_le⟩ := h
  dsimp only at hcount hle hempty hinside hordered htotal_eq htotal_le
  obtain ⟨hused, hend, haddr⟩ := Block.fit_eq_some halign hfit
  obtain ⟨hr, -⟩ := commit_of_getElem? (Array.getElem?_eq_getElem hjs) o (alignUp sz 16) sz
  rw [hr]
  -- the cursor of block `j` moves from where it was to the end of the new grant
  have hused' : ∀ b ∈ (a.commit j o (alignUp sz 16) sz).2.blocks, b.used ≤ b.size :=
    commit_blocks a j o _ sz ▸ used_le_modify hle hjs hend
  have hsum := sum_used_modify a.blocks.toList ({ · with used := o + alignUp sz 16 })
    (j := j) (by simpa using hjs)
  have hcap := sum_used_le hused'
  simp only [places_commit, commit_blocks, Array.toList_modify, Array.getElem_toList] at hsum hcap
  refine ⟨by simpa using hcount, by simpa using hjs, hused', ?_, ?_, ?_, ?_, ?_⟩ <;> dsimp only
  · intro i hi hlt
    simp only [commit_current] at hlt
    simp only [commit_blocks]
    rw [Array.getElem_modify, if_neg (by omega)]
    exact hempty i _ (by omega)
  · intro g hg
    rcases List.mem_append.mp hg with hg | hg
    · exact Grant.Inside.raise (hinside g hg) hjs (by omega)
    · rw [List.mem_singleton] at hg
      subst hg
      refine ⟨by simpa using hjs, ?_, ?_, haddr⟩ <;>
        simp [Array.getElem_modify_self, Grant.taken]
  · refine List.pairwise_append.mpr ⟨hordered, List.pairwise_singleton _ _, ?_⟩
    intro g hg g' hg' hblock
    rw [List.mem_singleton] at hg'
    subst hg'
    obtain ⟨hb, -, hbelow, -⟩ := hinside g hg
    dsimp only at hblock ⊢
    subst hblock
    omega
  · simp only [commit_total, List.map_append, List.sum_append, List.map_singleton,
      List.sum_singleton, ← htotal_eq, Grant.taken]
    omega
  · simp only [commit_total, commit_blocks, Array.toList_modify]
    omega

/-- A reset clears every cursor and forgets the grants. -/
theorem Sound.reset {t : History} (h : t.Sound) : Sound ⟨t.arena.reset, []⟩ where
  count_le := by simpa [Arena.reset] using h.count_le
  current_lt := by simpa [Arena.reset] using Nat.lt_of_le_of_lt (Nat.zero_le _) h.current_lt
  used_le b hb := by
    rw [reset_used h.count_le b hb]
    exact Nat.zero_le _
  empty_after i hi _ := reset_used h.count_le _ (Array.getElem_mem hi)
  inside := by simp
  ordered := List.Pairwise.nil
  total_eq := rfl
  total_le := Nat.zero_le _

/-- The invariant does not look at memory: writing or copying bytes keeps it. -/
theorem Sound.withMem {a : Arena} {gs : List Grant} (h : Sound ⟨a, gs⟩) (m : Memory) :
    Sound ⟨{ a with mem := m }, gs⟩ :=
  ⟨h.count_le, h.current_lt, h.used_le, h.empty_after, h.inside, h.ordered, h.total_eq,
    h.total_le⟩

theorem sound_create {host : Allocator} {blockSize : Nat} {a : Arena}
    (h : create host blockSize = .ok a) : Sound ⟨a, []⟩ := by
  obtain ⟨b, -, hb, hblocks, hcur, htotal, -⟩ := create_eq_ok h
  refine ⟨?_, ?_, ?_, ?_, by simp, List.Pairwise.nil, by simpa using htotal, by simp [htotal]⟩ <;>
    simp only [hblocks, hcur]
  · simp [maxBlocks]
  · simp
  · simp [hb]
  · intro i hi hlt
    simp at hi
    omega

theorem call_request_ok {t : History} {q : Request} {r : Region} {a : Arena}
    (h : q.perform t.arena = .ok (r, a)) :
    t.call (.request q) = ⟨a, t.grants ++ [⟨q.align, r⟩]⟩ := by
  simp [call, h]

theorem call_request_error {t : History} {q : Request} {e : ArenaError}
    (h : q.perform t.arena = .error e) : t.call (.request q) = t := by
  simp [call, h]

/-- **One call keeps the invariant**, when the blocks after it are placed as the host must
    place them. A granted request is an aligned request in an existing block, or in a new empty
    block appended first, followed by a copy into memory. -/
theorem Sound.call {t : History} (h : t.Sound) (c : Call) (hp : Placed (t.call c).arena.places) :
    (t.call c).Sound := by
  cases c with
  | reset => exact h.reset
  | request q =>
    cases hq : q.perform t.arena with
    | error e =>
      rw [call_request_error hq]
      exact h
    | ok p =>
      obtain ⟨r, a'⟩ := p
      rw [call_request_ok hq] at hp ⊢
      obtain ⟨a'', halloc, rfl⟩ := Request.perform_eq_ok hq
      apply Sound.withMem
      rw [places_store] at hp
      obtain ⟨hpow, -, hcases⟩ := allocAligned_eq_ok halloc
      have halign := pos_of_isPowerOfTwo hpow
      rcases hcases with ⟨i, o, hle, ⟨hi, hfit⟩, hra⟩ | ⟨b, o, hcount, -, hb, hfit, hra⟩
      · -- room in a block at or after the current one
        obtain ⟨rfl, rfl⟩ := Prod.ext_iff.mp hra
        rw [places_commit] at hp
        exact h.commit hle hi hfit halign hp.sum_lt
      · -- a new block, appended and then used
        obtain ⟨rfl, rfl⟩ := Prod.ext_iff.mp hra
        rw [places_commit] at hp
        have hpush := h.push hcount hb (t.arena.mem.fill b.base b.size)
        refine hpush.commit (j := t.arena.blocks.size) (Nat.le_of_lt h.current_lt)
          (by simp) ?_ halign hp.sum_lt
        simpa using hfit

/-! ## 4. Over whole histories -/

/-- **Where a call leaves the blocks.** Every block stays where it is, and a call appends at
    most one block: one from the host, given the blocks before it, while the chain is short of
    `maxBlocks`. The host stays the same. -/
theorem places_call (t : History) (c : Call) :
    (t.call c).arena.allocator = t.arena.allocator ∧
    ((t.call c).arena.places = t.arena.places ∨
      ∃ b size, t.arena.blocks.size < maxBlocks ∧
        newBlock t.arena.allocator t.arena.blocks size = .ok b ∧
        (t.call c).arena.places = t.arena.places ++ [(b.base, b.size)]) := by
  cases c with
  | reset => exact ⟨rfl, .inl (places_reset _)⟩
  | request q =>
    cases hq : q.perform t.arena with
    | error e =>
      rw [call_request_error hq]
      exact ⟨rfl, .inl rfl⟩
    | ok p =>
      obtain ⟨r, a'⟩ := p
      rw [call_request_ok hq]
      obtain ⟨a'', halloc, rfl⟩ := Request.perform_eq_ok hq
      obtain ⟨-, -, ⟨i, o, -, -, hra⟩ | ⟨b, o, hcount, hb, -, -, hra⟩⟩ := allocAligned_eq_ok halloc <;>
        obtain ⟨rfl, rfl⟩ := Prod.ext_iff.mp hra
      · exact ⟨rfl, .inl (by simp)⟩
      · exact ⟨rfl, .inr ⟨b, _, hcount, hb, by simp⟩⟩

theorem places_prefix_call (t : History) (c : Call) :
    t.arena.places <+: (t.call c).arena.places := by
  rcases (places_call t c).2 with h | ⟨b, -, -, -, h⟩
  · exact h ▸ List.prefix_refl _
  · exact h ▸ List.prefix_append _ _

theorem places_prefix_foldl (calls : List Call) (t : History) :
    t.arena.places <+: (calls.foldl call t).arena.places := by
  induction calls generalizing t with
  | nil => exact List.prefix_refl _
  | cons c calls ih => exact (places_prefix_call t c).trans (ih (t.call c))

/-- **Every run keeps the invariant**, when the blocks at its end are placed as the host must
    place them. -/
theorem Sound.foldl {t : History} (h : t.Sound) (calls : List Call)
    (hp : Placed (calls.foldl History.call t).arena.places) :
    (calls.foldl History.call t).Sound := by
  induction calls generalizing t with
  | nil => exact h
  | cons c calls ih =>
    -- the blocks after the first call are among the blocks at the end, so they are placed
    have hc : Placed (t.call c).arena.places := hp.of_prefix (places_prefix_foldl calls (t.call c))
    exact ih (h.call c hc) hp

theorem run_take_prefix (a : Arena) (calls : List Call) {i j : Nat} (hij : i ≤ j) :
    (run a (calls.take i)).arena.places <+: (run a (calls.take j)).arena.places := by
  -- the longer prefix is the shorter one and some more calls
  have hsplit : calls.take j = calls.take i ++ (calls.take j).drop i := by
    have := List.take_append_drop i (calls.take j)
    rw [List.take_take, Nat.min_eq_left hij] at this
    exact this.symm
  unfold run
  rw [hsplit, List.foldl_append]
  exact places_prefix_foldl _ _

/-- Blocks at two places of a placed chain lie apart. -/
theorem apart_blocks {a : Arena} (hp : Placed a.places) {i j : Nat} (hi : i < a.blocks.size)
    (hj : j < a.blocks.size) (hne : i ≠ j) :
    Apart a.blocks[i].base a.blocks[i].size a.blocks[j].base a.blocks[j].size := by
  have hpair := List.pairwise_iff_getElem.mp hp.2
  rcases Nat.lt_or_gt_of_ne hne with hlt | hlt
  · simpa [places] using hpair i j (by simpa [places]) (by simpa [places]) hlt
  · exact (by simpa [places] using hpair j i (by simpa [places]) (by simpa [places]) hlt :
      Apart a.blocks[j].base a.blocks[j].size a.blocks[i].base a.blocks[i].size).symm

/-- **No two grants overlap.** Two grants in one block are in order, the later one at or after
    the end of the earlier one; two grants in different blocks lie in blocks the host put
    apart. -/
theorem Sound.apart {t : History} (h : t.Sound) (hp : Placed t.arena.places) :
    t.grants.Pairwise fun g g' =>
      Apart g.region.address g.region.size g'.region.address g'.region.size := by
  refine h.ordered.imp_of_mem ?_
  intro g g' hg hg' hord
  obtain ⟨hb, haddr, hbelow, -⟩ := h.inside g hg
  obtain ⟨hb', haddr', hbelow', -⟩ := h.inside g' hg'
  have hsize : g.region.size ≤ g.taken := alignUp_ge (by decide)
  have hsize' : g'.region.size ≤ g'.taken := alignUp_ge (by decide)
  by_cases hblock : g.region.block = g'.region.block
  · -- one block: the later grant starts at or after the end of the earlier one
    have horder := hord hblock
    have hbase : t.arena.blocks[g.region.block].base = t.arena.blocks[g'.region.block].base := by
      simp only [hblock]
    unfold Apart
    omega
  · -- two blocks: each grant lies inside its own block
    have hused := h.used_le _ (Array.getElem_mem hb)
    have hused' := h.used_le _ (Array.getElem_mem hb')
    exact (apart_blocks hp hb hb' hblock).mono (by omega) (by omega) (by omega) (by omega)

/-- What every call keeps holds after any calls. -/
theorem call_invariant {P : History → Prop} (hcall : ∀ t c, P t → P (t.call c)) :
    ∀ (calls : List Call) (t : History), P t → P (calls.foldl call t) := by
  intro calls
  induction calls with
  | nil => exact fun _ h => h
  | cons c calls ih => exact fun t h => ih (t.call c) (hcall t c h)

/-- A call keeps every block within a layout: it appends at most one block, from the host. -/
theorem layout_call (t : History) (c : Call) (h : ∀ p ∈ t.arena.places, p.2 ≤ layoutLimit) :
    ∀ p ∈ (t.call c).arena.places, p.2 ≤ layoutLimit := by
  rcases (places_call t c).2 with hsame | ⟨b, _, -, hb, happend⟩
  · rwa [hsame]
  · intro p hp
    rw [happend, List.mem_append, List.mem_singleton] at hp
    rcases hp with hold | rfl
    · exact h p hold
    · exact newBlock_size_le hb

/-- **Every block has a layout**, after any calls on an arena from `create`. -/
theorem size_le_layoutLimit_run {host : Allocator} {blockSize : Nat} {a : Arena}
    (h : create host blockSize = .ok a) (calls : List Call) :
    ∀ b ∈ (run a calls).arena.blocks, b.size ≤ layoutLimit := by
  obtain ⟨b₀, hb₀, -, hblocks, -⟩ := create_eq_ok h
  have hstart : ∀ p ∈ a.places, p.2 ≤ layoutLimit := by
    simpa [places, hblocks] using newBlock_size_le hb₀
  have hrun := call_invariant (P := fun t => ∀ p ∈ t.arena.places, p.2 ≤ layoutLimit)
    (fun t c h => layout_call t c h) calls ⟨a, []⟩ hstart
  intro b hb
  exact hrun (b.base, b.size) (List.mem_map_of_mem (Array.mem_toList_iff.mpr hb))

end History

/-! ## 5. The standard host places its blocks as required -/

open Allocator (heapStart hostLimit)

/-- Blocks one after another, each ending at or before the next one starts, and each ending by
    `heapStart` plus `hostLimit + 16` bytes for every block of the chain. -/
def Stacked (ps : List (Nat × Nat)) : Prop :=
  ps.Pairwise (fun p q => p.1 + p.2 ≤ q.1) ∧
    ∀ p ∈ ps, p.1 + p.2 ≤ heapStart + ps.length * (hostLimit + 16)

/-- Where the standard host puts a new block: after the end of the last block, rounded up to
    16, or at `heapStart` for the first. -/
def nextBase (ps : List (Nat × Nat)) : Nat :=
  match ps.getLast? with
  | some p => alignUp (p.1 + p.2) 16
  | none => heapStart

theorem newBlock_standard {blocks : Array Block} {size : Nat} {b : Block}
    (h : newBlock .standard blocks size = .ok b) :
    b.size = size ∧ size ≤ hostLimit ∧
      b.base = nextBase (blocks.toList.map fun c => (c.base, c.size)) := by
  unfold newBlock at h
  split at h
  · cases h
  · split at h
    · rename_i base hplace
      cases h
      simp only [Allocator.standard] at hplace
      split at hplace
      · cases hplace
      · rename_i hlimit
        refine ⟨rfl, by omega, ?_⟩
        rcases blocks with ⟨l⟩
        simp only [Option.some.injEq, List.back?_toArray] at hplace
        rw [← hplace, nextBase, List.getLast?_map]
        cases l.getLast? <;> rfl
    · cases h

/-- In a stacked chain every block ends by the end of the last one. -/
theorem Stacked.le_last {ps : List (Nat × Nat)} (h : Stacked ps) {q : Nat × Nat}
    (hq : ps.getLast? = some q) : ∀ p ∈ ps, p.1 + p.2 ≤ q.1 + q.2 := by
  obtain ⟨init, rfl⟩ := List.getLast?_eq_some_iff.mp hq
  intro p hp
  rcases List.mem_append.mp hp with hp | hp
  · have := (List.pairwise_append.mp h.1).2.2 p hp q List.mem_cons_self
    omega
  · rw [List.mem_singleton.mp hp]

/-- The block the standard host appends keeps the chain stacked. -/
theorem Stacked.push {ps : List (Nat × Nat)} (h : Stacked ps) {size : Nat}
    (hsize : size ≤ hostLimit) : Stacked (ps ++ [(nextBase ps, size)]) := by
  have hmul : (ps.length + 1) * (hostLimit + 16) =
      ps.length * (hostLimit + 16) + (hostLimit + 16) := Nat.succ_mul _ _
  -- the new block starts after every block of the chain, less than 16 bytes after the last
  have hbase : (∀ p ∈ ps, p.1 + p.2 ≤ nextBase ps) ∧
      nextBase ps < heapStart + ps.length * (hostLimit + 16) + 16 := by
    cases hq : ps.getLast? with
    | none =>
      rw [List.getLast?_eq_none_iff.mp hq]
      simp [nextBase]
    | some q =>
      have hend := h.le_last hq
      have hq_bound := h.2 q (List.mem_of_getLast? hq)
      have hup : q.1 + q.2 ≤ alignUp (q.1 + q.2) 16 := alignUp_ge (by decide)
      have hlt : alignUp (q.1 + q.2) 16 < q.1 + q.2 + 16 := alignUp_lt (by decide)
      simp only [nextBase, hq]
      exact ⟨fun p hp => Nat.le_trans (hend p hp) hup, by omega⟩
  refine ⟨List.pairwise_append.mpr ⟨h.1, List.pairwise_singleton _ _, ?_⟩, ?_⟩
  · intro p hp r hr
    rw [List.mem_singleton.mp hr]
    exact hbase.1 p hp
  · intro p hp
    rw [List.length_append, List.length_singleton, hmul]
    rcases List.mem_append.mp hp with hp | hp
    · have := h.2 p hp
      omega
    · rw [List.mem_singleton.mp hp]
      dsimp only
      omega

/-- A stacked chain of at most `maxBlocks` blocks is placed inside the address space. -/
theorem Stacked.placed {ps : List (Nat × Nat)} (h : Stacked ps) (hlen : ps.length ≤ maxBlocks) :
    Placed ps := by
  have hmax : heapStart + maxBlocks * (hostLimit + 16) < wordBound := by decide
  have hle : ps.length * (hostLimit + 16) ≤ maxBlocks * (hostLimit + 16) :=
    Nat.mul_le_mul_right _ hlen
  refine ⟨fun p hp => ?_, h.1.imp Or.inl⟩
  have := h.2 p hp
  omega

/-- An arena on the standard host whose blocks are stacked, at most `maxBlocks` of them. -/
def StandardChain (a : Arena) : Prop :=
  a.allocator = .standard ∧ Stacked a.places ∧ a.places.length ≤ maxBlocks

/-- The chain depends on the host and the blocks' places only. -/
theorem StandardChain.congr {a a' : Arena} (h : StandardChain a) (hhost : a'.allocator = a.allocator)
    (hplaces : a'.places = a.places) : StandardChain a' := by
  unfold StandardChain at *
  rw [hhost, hplaces]
  exact h

theorem StandardChain.placed {a : Arena} (h : StandardChain a) : Placed a.places :=
  h.2.1.placed h.2.2

/-- On the standard host every call keeps the blocks stacked. -/
theorem StandardChain.call {t : History} (h : StandardChain t.arena) (c : Call) :
    StandardChain (t.call c).arena := by
  obtain ⟨hhost, hstacked, hlen⟩ := h
  obtain ⟨hkeep, hcases⟩ := History.places_call t c
  refine ⟨hkeep.trans hhost, ?_⟩
  rcases hcases with hsame | ⟨b, size, hcount, hb, hplaces⟩
  · rw [hsame]
    exact ⟨hstacked, hlen⟩
  · -- a new block from the standard host
    rw [hhost] at hb
    obtain ⟨hbsize, hlimit, hbase⟩ := newBlock_standard hb
    rw [hplaces, hbase, hbsize]
    refine ⟨hstacked.push hlimit, ?_⟩
    simp only [places, List.length_append, List.length_map, Array.length_toList,
      List.length_singleton]
    omega

theorem standardChain_create {blockSize : Nat} {a : Arena} (h : create .standard blockSize = .ok a) :
    StandardChain a := by
  obtain ⟨b, hb, -, hblocks, -, -, hhost, -⟩ := create_eq_ok h
  obtain ⟨hbsize, hlimit, hbase⟩ := newBlock_standard hb
  have hfirst : a.places = [] ++ [(nextBase [], b.size)] := by
    simp [places, hblocks, hbase, nextBase]
  rw [StandardChain, hfirst]
  exact ⟨hhost, Stacked.push ⟨List.Pairwise.nil, by simp⟩ (hbsize ▸ hlimit), by simp [maxBlocks]⟩

theorem standardChain_run {blockSize : Nat} {a : Arena} (h : create .standard blockSize = .ok a)
    (calls : List Call) : StandardChain (History.run a calls).arena :=
  History.call_invariant (P := fun t => StandardChain t.arena) (fun _ c h => h.call c) calls
    ⟨a, []⟩ (standardChain_create h)

/-- **The standard host places blocks as the layout invariant asks**, over any calls on an
    arena it created: one after another from `heapStart`, no two overlapping, all inside the
    address space. -/
theorem standard_placed {blockSize : Nat} {a : Arena} (h : create .standard blockSize = .ok a)
    (calls : List Call) : Placed (History.run a calls).arena.places :=
  (standardChain_run h calls).placed

/-! ## 6. The layout at every point of every run -/

/-- **The arena's layout invariant.** Take an arena from `create` and any sequence of calls:
    requests of any allocation function at any size and alignment, and resets; assume the host
    placed the blocks inside the address space and apart. Then every block keeps its place and
    size in the chain as the run goes on, and after every prefix of the calls:
    * every cursor is within its block, and every block after the current one is empty;
    * the chain has at most `maxBlocks` blocks, so a reset clears every cursor;
    * every region handed out since the last reset lies in its block below the cursor, at the
      alignment asked for, and no two of them overlap;
    * the bytes counted as handed out are the sizes of those regions rounded up to 16, added
      up, and no more than the cursors added up. -/
theorem arena_layout {host : Allocator} {blockSize : Nat} {a : Arena} (calls : List Call)
    (hcreate : create host blockSize = .ok a)
    (hplaced : Placed (History.run a calls).arena.places) :
    (∀ i j, i ≤ j →
      (History.run a (calls.take i)).arena.places <+: (History.run a (calls.take j)).arena.places) ∧
    ∀ i, let t := History.run a (calls.take i)
      (∀ b ∈ t.arena.blocks, b.used ≤ b.size) ∧
      (∀ k (hk : k < t.arena.blocks.size), t.arena.current < k → t.arena.blocks[k].used = 0) ∧
      t.arena.blockCount ≤ maxBlocks ∧ (∀ b ∈ t.arena.reset.blocks, b.used = 0) ∧
      (∀ g ∈ t.grants, g.Inside t.arena.blocks) ∧
      t.grants.Pairwise (fun g g' =>
        Apart g.region.address g.region.size g'.region.address g'.region.size) ∧
      t.arena.total = (t.grants.map Grant.taken).sum ∧
      t.arena.total ≤ (t.arena.blocks.toList.map Block.used).sum := by
  refine ⟨fun i j hij => History.run_take_prefix a calls hij, fun i => ?_⟩
  -- the blocks after a prefix of the calls are among the blocks at the end
  have hprefix := History.run_take_prefix a calls (Nat.le_max_left i calls.length)
  rw [List.take_of_length_le (Nat.le_max_right _ _)] at hprefix
  have hp := hplaced.of_prefix hprefix
  have hs : (History.run a (calls.take i)).Sound := (History.sound_create hcreate).foldl _ hp
  exact ⟨hs.used_le, hs.empty_after, hs.count_le, reset_used hs.count_le, hs.inside, hs.apart hp,
    hs.total_eq, hs.total_le⟩

/-- The invariant on an arena of the standard host: requests at the default alignment and at
    64, a string and a slice of words, a reset, and a request larger than a block. -/
theorem arena_layout_standard :
    let a : Arena := ⟨#[⟨heapStart, 4096, 0⟩], 0, 4096, 0, .standard,
      Memory.blank.fill heapStart 4096⟩
    let calls := [Call.request (.alloc 10), .request (.allocAligned 100 64),
      .request (.allocStr "arena"), .reset, .request (.allocSliceCopy ElemLayout.word [1, 2, 3]),
      .request (.alloc 5000)]
    create .standard 4096 = .ok a ∧ Placed (History.run a calls).arena.places ∧
      ∀ i, (History.run a (calls.take i)).grants.Pairwise fun g g' =>
        Apart g.region.address g.region.size g'.region.address g'.region.size := by
  intro a calls
  have hcreate : create .standard 4096 = .ok a := rfl
  have hplaced := standard_placed hcreate calls
  exact ⟨hcreate, hplaced, fun i => ((arena_layout calls hcreate hplaced).2 i).2.2.2.2.2.1⟩

end Arena

end Frond
