import Frond.Proofs.Arena.Invariant
import Frond.Arena.Vector

/-!
# Vectors in an arena refine lists

A vector keeps its elements in a region of the arena. Take any sequence of vector operations
(push, writes through an index, swap-removal, clearing), with other requests of the same arena
in between: the elements read from the vector's region are those of a list, changed by each
operation as a list is, because no request of the arena overwrites a region handed out before.

* `read_call_of_grant`: a request of the arena leaves the bytes of every earlier grant alone.
* `push_eq_ok`, `grow_eq_ok`, `swapRemove?_eq_some`: what each operation does to the vector and
  the arena.
* `VecState.Refines`: the vector stands for a list; every operation keeps it (`Refines.call`),
  and so does every run (`Refines.foldl`).
* `vector_refines_list`: at every point of every run the vector reads back the list.
-/

namespace Frond

open Arena

/-! ## 1. A request leaves earlier grants alone -/

namespace Arena.History

/-- A grant lies inside the place of one of the blocks. -/
theorem Sound.within_place {t : History} (h : t.Sound) {g : Grant} (hg : g ∈ t.grants) :
    ∃ p ∈ t.arena.places, p.1 ≤ g.region.address ∧
      g.region.address + g.region.size ≤ p.1 + p.2 := by
  obtain ⟨hb, haddr, hbelow, -⟩ := h.inside g hg
  have hused := h.used_le _ (Array.getElem_mem hb)
  have hsize : g.region.size ≤ g.taken := alignUp_ge (by decide)
  refine ⟨(t.arena.blocks[g.region.block].base, t.arena.blocks[g.region.block].size), ?_,
    by dsimp only; omega, by dsimp only; omega⟩
  exact List.mem_map.mpr ⟨_, Array.mem_toList_iff.mpr (Array.getElem_mem hb), rfl⟩

/-- **A request leaves the bytes of earlier grants alone.** It zeroes and writes its own region
    only, and zero-fills a new block if it appends one; its region lies apart from every earlier
    grant, and a new block apart from every earlier block. -/
theorem read_call_of_grant {t : History} (h : t.Sound) {q : Request}
    (hp : Placed (t.call (.request q)).arena.places) {g : Grant} (hg : g ∈ t.grants)
    {p n : Nat} (hlo : g.region.address ≤ p) (hhi : p + n ≤ g.region.address + g.region.size) :
    (t.call (.request q)).arena.mem.read p n = t.arena.mem.read p n := by
  have hs := h.call (.request q) hp
  cases hq : q.perform t.arena with
  | error e => rw [call_request_error hq]
  | ok res =>
    obtain ⟨r, a'⟩ := res
    rw [call_request_ok hq] at hp hs ⊢
    -- the new grant lies apart from the old one, so from the bytes read
    have hnew : Apart p n r.address r.size :=
      ((List.pairwise_append.mp (hs.apart hp)).2.2 g hg _ List.mem_cons_self).mono
        hlo hhi (Nat.le_refl _) (Nat.le_refl _)
    obtain ⟨a'', halloc, rfl⟩ := Request.perform_eq_ok hq
    -- the contents are copied inside the new region
    have hcontents : Apart p n r.address q.contents.length := by
      have := q.length_contents_le
      have := allocAligned_size halloc
      exact hnew.mono (Nat.le_refl _) (Nat.le_refl _) (Nat.le_refl _) (by omega)
    show (a''.mem.write r.address q.contents).read p n = _
    rw [Memory.read_write_of_apart _ hcontents]
    obtain ⟨-, -, ⟨i, o, -, ⟨hi, -⟩, hra⟩ | ⟨b, o, -, -, -, -, hra⟩⟩ := allocAligned_eq_ok halloc
    · -- a block of the chain: only the new region is zeroed
      obtain ⟨hr, hmem⟩ := commit_of_getElem? (Array.getElem?_eq_getElem hi) o
        (alignUp q.size 16) q.size
      obtain ⟨rfl, rfl⟩ := Prod.ext_iff.mp hra
      rw [hr] at hnew
      rw [hmem, Memory.read_fill_of_apart _ hnew]
    · -- a new block: it is zero-filled whole, and lies apart from the old blocks
      obtain ⟨hr, hmem⟩ := commit_of_getElem? (a := { t.arena with
          blocks := t.arena.blocks.push b, mem := t.arena.mem.fill b.base b.size })
        (i := t.arena.blocks.size) (b := b) (by simp) o (alignUp q.size 16) q.size
      obtain ⟨rfl, rfl⟩ := Prod.ext_iff.mp hra
      simp only [places_store, places_commit, places_push] at hp
      obtain ⟨pl, hpl, hplo, hphi⟩ := h.within_place hg
      have hblock : Apart pl.1 pl.2 b.base b.size :=
        (List.pairwise_append.mp hp.2).2.2 pl hpl _ List.mem_cons_self
      rw [hr] at hnew
      rw [hmem, Memory.read_fill_of_apart _ hnew, Memory.read_fill_of_apart _
        (hblock.mono (by omega) (by omega) (Nat.le_refl _) (Nat.le_refl _))]

end Arena.History

/-! ## 2. What each vector operation does -/

namespace ArenaVec

variable {α : Type}

theorem allocate_eq_ok {a : Arena} {layout : ElemLayout α} {count p : Nat} {a' : Arena}
    (h : allocate a layout count = .ok (p, a')) :
    ∃ r, a.allocAligned (layout.size * count) layout.align = .ok (r, a') ∧ r.address = p := by
  unfold allocate at h
  split at h
  · cases h
  · cases hr : a.allocAligned (layout.size * count) layout.align with
    | error e => simp [hr, Except.map] at h
    | ok res =>
      obtain ⟨r, a''⟩ := res
      simp only [hr, Except.map, Except.ok.injEq, Prod.mk.injEq] at h
      obtain ⟨rfl, rfl⟩ := h
      exact ⟨r, rfl, rfl⟩

/-- A new vector takes a region for `initialCapacity` elements and holds none. -/
theorem create_eq_ok {a : Arena} {layout : ElemLayout α} {v : ArenaVec α} {a' : Arena}
    (h : create a layout = .ok (v, a')) :
    ∃ r, a.allocAligned (layout.size * initialCapacity) layout.align = .ok (r, a') ∧
      v = ⟨layout, r.address, 0, initialCapacity⟩ := by
  unfold create at h
  cases hp : allocate a layout initialCapacity with
  | error e => simp [hp, Except.map] at h
  | ok res =>
    obtain ⟨p, a''⟩ := res
    simp only [hp, Except.map, Except.ok.injEq, Prod.mk.injEq] at h
    obtain ⟨rfl, rfl⟩ := h
    obtain ⟨r, hr, rfl⟩ := allocate_eq_ok hp
    exact ⟨r, hr, rfl⟩

/-- A growth takes a region for twice as many elements and copies the elements' bytes there. -/
theorem grow_eq_ok {v v' : ArenaVec α} {a a' : Arena} (h : v.grow a = .ok (v', a')) :
    ∃ r a₁, a.allocAligned (v.layout.size * (2 * v.cap)) v.layout.align = .ok (r, a₁) ∧
      v' = { v with data := r.address, cap := 2 * v.cap } ∧
      a' = { a₁ with mem := a₁.mem.copy v.data r.address (v.len * v.layout.size) } := by
  unfold grow at h
  split at h
  · cases h
  · cases hp : allocate a v.layout (2 * v.cap) with
    | error e => simp [hp, Except.map] at h
    | ok res =>
      obtain ⟨p, a₁⟩ := res
      simp only [hp, Except.map, Except.ok.injEq, Prod.mk.injEq] at h
      obtain ⟨rfl, rfl⟩ := h
      obtain ⟨r, hr, rfl⟩ := allocate_eq_ok hp
      exact ⟨r, a₁, hr, rfl, rfl⟩

/-- **What a push does.** Below capacity it writes the element into the next slot; at capacity
    it first moves the elements to a region twice as large. -/
theorem push_eq_ok {v v' : ArenaVec α} {a a' : Arena} {x : α} (h : v.push a x = .ok (v', a')) :
    (v.len ≠ v.cap ∧ v' = { v with len := v.len + 1 } ∧ a' = v.write a v.len x) ∨
    (v.len = v.cap ∧ ∃ w a₁, v.grow a = .ok (w, a₁) ∧ v' = { w with len := v.len + 1 } ∧
      a' = w.write a₁ v.len x) := by
  unfold push at h
  split at h
  · rename_i hfull
    cases hg : v.grow a with
    | error e => simp [hg, bind, Except.bind] at h
    | ok res =>
      obtain ⟨w, a₁⟩ := res
      simp only [hg, bind, Except.bind, pure, Except.pure, Except.ok.injEq, Prod.mk.injEq] at h
      obtain ⟨rfl, rfl⟩ := h
      have hlen : w.len = v.len := by
        obtain ⟨r, a₂, -, rfl, -⟩ := grow_eq_ok hg
        rfl
      exact .inr ⟨hfull, w, a₁, rfl, by rw [hlen], by rw [hlen]⟩
  · rename_i hroom
    simp only [bind, Except.bind, pure, Except.pure, Except.ok.injEq, Prod.mk.injEq] at h
    obtain ⟨rfl, rfl⟩ := h
    exact .inl ⟨hroom, rfl, rfl⟩

/-- A push fails only when the vector is full and its growth fails. -/
theorem push_eq_error {v : ArenaVec α} {a : Arena} {x : α} {e : ArenaError}
    (h : v.push a x = .error e) : v.len = v.cap := by
  unfold push at h
  split at h
  · assumption
  · simp [bind, Except.bind, pure, Except.pure] at h

theorem set?_eq_some {v : ArenaVec α} {a a' : Arena} {i : Nat} {x : α}
    (h : v.set? a i x = some a') : i < v.len ∧ a' = v.write a i x := by
  unfold set? at h
  split at h
  · exact ⟨by assumption, (Option.some.inj h).symm⟩
  · cases h

theorem set?_eq_none {v : ArenaVec α} {a : Arena} {i : Nat} {x : α} (h : v.set? a i x = none) :
    v.len ≤ i := by
  unfold set? at h
  split at h
  · cases h
  · omega

/-- Removal moves the last element into the hole and drops the last slot. -/
theorem swapRemove?_eq_some {v v' : ArenaVec α} {a a' : Arena} {i : Nat} {y : α}
    (h : v.swapRemove? a i = some (y, v', a')) :
    i < v.len ∧ y = v.read a i ∧ v' = { v with len := v.len - 1 } ∧
      a' = v.write a i (v.read a (v.len - 1)) := by
  unfold swapRemove? at h
  split at h
  · simp only [Option.some.injEq, Prod.mk.injEq] at h
    obtain ⟨rfl, rfl, rfl⟩ := h
    exact ⟨by assumption, rfl, rfl, rfl⟩
  · cases h

theorem swapRemove?_eq_none {v : ArenaVec α} {a : Arena} {i : Nat}
    (h : v.swapRemove? a i = none) : v.len ≤ i := by
  unfold swapRemove? at h
  split at h
  · cases h
  · omega

/-- Writing an element changes the arena's memory only. -/
@[simp] theorem places_write (v : ArenaVec α) (a : Arena) (i : Nat) (x : α) :
    (v.write a i x).places = a.places := rfl

@[simp] theorem allocator_write (v : ArenaVec α) (a : Arena) (i : Nat) (x : α) :
    (v.write a i x).allocator = a.allocator := rfl

section Slots

variable (v : ArenaVec α)

/-- Distinct slots lie apart. -/
theorem slot_apart {i j : Nat} (h : i ≠ j) :
    Apart (v.slot i) v.layout.size (v.slot j) v.layout.size := by
  unfold slot Apart
  rcases Nat.lt_or_gt_of_ne h with hlt | hlt <;>
  · have := Nat.mul_le_mul_right v.layout.size (Nat.succ_le_of_lt hlt)
    rw [Nat.succ_mul] at this
    omega

/-- A slot below the capacity lies in the vector's region. -/
theorem slot_add_le {i : Nat} (h : i < v.cap) :
    v.slot i + v.layout.size ≤ v.data + v.layout.size * v.cap := by
  unfold slot
  have := Nat.mul_le_mul_right v.layout.size (Nat.succ_le_of_lt h)
  rw [Nat.succ_mul, Nat.mul_comm v.cap] at this
  omega

/-- Writing a slot changes the bytes of that slot only. -/
theorem read_write (a : Arena) (i j : Nat) (x : α) :
    (v.write a j x).mem.read (v.slot i) v.layout.size =
      if i = j then v.layout.encode x else a.mem.read (v.slot i) v.layout.size := by
  show (a.mem.write (v.slot j) (v.layout.encode x)).read _ _ = _
  split
  · rename_i hij
    subst hij
    simpa using Memory.read_write_self a.mem (v.slot i) (v.layout.encode x)
  · rename_i hij
    exact Memory.read_write_of_apart _ (by simpa using v.slot_apart hij)

end Slots

end ArenaVec

/-! ## 3. A vector beside other requests -/

namespace Arena

/-- The grant the arena of a history makes for an aligned request, as a list: empty when it
    refuses. -/
def History.grantOf (t : History) (size align : Nat) : List Grant :=
  match t.arena.allocAligned size align with
  | .ok (r, _) => [⟨align, r⟩]
  | .error _ => []

theorem History.grantOf_of_ok {t : History} {size align : Nat} {r : Region} {a : Arena}
    (h : t.arena.allocAligned size align = .ok (r, a)) : t.grantOf size align = [⟨align, r⟩] := by
  simp [History.grantOf, h]

end Arena

/-- An operation of a program that holds a vector in an arena: one of the vector's own, or a
    request of the same arena. -/
inductive VecCall (α : Type) : Type 1 where
  | push (x : α)
  | set (i : Nat) (x : α)
  | swapRemove (i : Nat)
  | clear
  | request (q : Request)

/-- A vector, the history of its arena, and the list the vector stands for. -/
structure VecState (α : Type) where
  hist : History
  vec : ArenaVec α
  model : List α

namespace VecState

variable {α : Type}

/-- The state after one more operation. The list changes as the operation changes a list, the
    vector and the arena as the vector's functions change them; the region a growth takes is a
    grant of the arena like any other. -/
def call (s : VecState α) : VecCall α → VecState α
  | .push x =>
    match s.vec.push s.hist.arena x with
    | .ok (v, a) =>
      let growth := if s.vec.len = s.vec.cap then
        s.hist.grantOf (s.vec.layout.size * (2 * s.vec.cap)) s.vec.layout.align else []
      ⟨⟨a, s.hist.grants ++ growth⟩, v, s.model ++ [x]⟩
    | .error _ => s
  | .set i x =>
    match s.vec.set? s.hist.arena i x with
    | some a => ⟨{ s.hist with arena := a }, s.vec, s.model.set i x⟩
    | none => { s with model := s.model.set i x }
  | .swapRemove i =>
    let model := match swapRemove s.model i with
      | some (_, l) => l
      | none => s.model
    match s.vec.swapRemove? s.hist.arena i with
    | some (_, v, a) => ⟨{ s.hist with arena := a }, v, model⟩
    | none => { s with model := model }
  | .clear => { s with vec := s.vec.clear, model := [] }
  | .request q => { s with hist := s.hist.call (.request q) }

/-- A new vector on the arena of a history, standing for the empty list. -/
def start (t : History) (layout : ElemLayout α) : Option (VecState α) :=
  match ArenaVec.create t.arena layout with
  | .ok (v, a) =>
    some ⟨⟨a, t.grants ++ t.grantOf (layout.size * ArenaVec.initialCapacity) layout.align⟩, v, []⟩
  | .error _ => none

/-- The vector stands for the list: its region is a grant of the arena, large enough for its
    capacity, which is 8 times a power of two; it holds as many elements as the list, no more
    than its capacity; and the bytes in each of its slots are those of the list's element. -/
structure Refines (s : VecState α) : Prop where
  sound : s.hist.Sound
  region : ∃ g ∈ s.hist.grants, g.region.address = s.vec.data ∧
    g.region.size = s.vec.layout.size * s.vec.cap
  len_eq : s.vec.len = s.model.length
  len_le : s.vec.len ≤ s.vec.cap
  cap_eq : ∃ k, s.vec.cap = ArenaVec.initialCapacity * 2 ^ k
  slots : ∀ i (hi : i < s.model.length),
    s.hist.arena.mem.read (s.vec.slot i) s.vec.layout.size = s.vec.layout.encode s.model[i]

/-! ## 4. What the vector reads -/

namespace Refines

variable {s : VecState α} (h : s.Refines)
include h

theorem read_eq {i : Nat} (hi : i < s.model.length) : s.vec.read s.hist.arena i = s.model[i] := by
  rw [ArenaVec.read, h.slots i hi, ElemLayout.decode_encode]

theorem asSlice_eq : s.vec.asSlice s.hist.arena = s.model := by
  apply List.ext_getElem
  · simp [ArenaVec.asSlice, h.len_eq]
  · intro i _ hi
    simp only [ArenaVec.asSlice, List.getElem_map, List.getElem_range]
    exact h.read_eq hi

theorem get?_eq (i : Nat) : s.vec.get? s.hist.arena i = s.model[i]? := by
  unfold ArenaVec.get?
  rw [h.len_eq]
  split
  · rename_i hi
    rw [h.read_eq hi, List.getElem?_eq_getElem hi]
  · rename_i hi
    rw [List.getElem?_eq_none (by omega)]

theorem last?_eq : s.vec.last? s.hist.arena = s.model.getLast? := by
  unfold ArenaVec.last?
  rw [List.getLast?_eq_getElem?, h.len_eq]
  split
  · rename_i h0
    rw [List.getElem?_eq_none (by omega)]
  · rename_i h0
    rw [h.read_eq (by omega), List.getElem?_eq_getElem (by omega)]

end Refines

/-! ## 5. Each operation keeps the vector standing for the list -/

/-- **Writing one slot** keeps the invariant for a list that differs from the old one at most at
    that index, and may be one shorter or longer within the capacity. -/
theorem Refines.write {s : VecState α} (h : s.Refines) (j : Nat) (y : α) {len : Nat}
    {model : List α} (hlen : len ≤ s.vec.cap) (hmlen : model.length = len)
    (hold : ∀ i (hi : i < model.length), i ≠ j → ∃ hi' : i < s.model.length, model[i] = s.model[i])
    (hnew : ∀ hj : j < model.length, model[j] = y) :
    Refines ⟨{ s.hist with arena := s.vec.write s.hist.arena j y }, { s.vec with len := len }, model⟩ where
  sound := h.sound.withMem _
  region := h.region
  len_eq := hmlen.symm
  len_le := hlen
  cap_eq := h.cap_eq
  slots i hi := by
    show (s.vec.write s.hist.arena j y).mem.read (s.vec.slot i) s.vec.layout.size = _
    rw [ArenaVec.read_write]
    split
    · rename_i hij
      subst hij
      rw [hnew hi]
    · rename_i hij
      obtain ⟨hi', heq⟩ := hold i hi hij
      rw [h.slots i hi', heq]

theorem Refines.set {s : VecState α} (h : s.Refines) (i : Nat) (x : α) :
    (s.call (.set i x)).Refines := by
  cases hset : s.vec.set? s.hist.arena i x with
  | none =>
    -- past the end nothing is written, and the list is left as it is
    have hi : s.model.length ≤ i := h.len_eq ▸ ArenaVec.set?_eq_none hset
    simp only [call, hset, List.set_eq_of_length_le hi]
    exact h
  | some a =>
    obtain ⟨hi, rfl⟩ := ArenaVec.set?_eq_some hset
    simp only [call, hset]
    refine h.write i x h.len_le (by simp [h.len_eq]) (fun k hk hki => ?_) (fun _ => ?_)
    · exact ⟨by simpa using hk, List.getElem_set_ne (Ne.symm hki) _⟩
    · exact List.getElem_set_self _

theorem Refines.swapRemove {s : VecState α} (h : s.Refines) (i : Nat) :
    (s.call (.swapRemove i)).Refines := by
  cases hsr : s.vec.swapRemove? s.hist.arena i with
  | none =>
    have hi : s.model.length ≤ i := h.len_eq ▸ ArenaVec.swapRemove?_eq_none hsr
    have hnone : Frond.swapRemove s.model i = none := (swapRemove_eq_none_iff _ _).mpr hi
    simp only [call, hsr, hnone]
    exact h
  | some res =>
    obtain ⟨y, v, a⟩ := res
    obtain ⟨hi, -, rfl, rfl⟩ := ArenaVec.swapRemove?_eq_some hsr
    have hlen := h.len_eq
    have hi' : i < s.model.length := hlen ▸ hi
    have hsome : Frond.swapRemove s.model i = some (s.model[i],
        (s.model.set i (s.model.getLast (List.ne_nil_of_length_pos (by omega)))).dropLast) := by
      simp [Frond.swapRemove, hi']
    simp only [call, hsr, hsome]
    -- the last element moves into the hole, read from its slot
    have hlast : s.vec.read s.hist.arena (s.vec.len - 1) =
        s.model.getLast (List.ne_nil_of_length_pos (by omega)) := by
      rw [h.read_eq (by omega), List.getLast_eq_getElem]
      simp only [hlen]
    rw [hlast]
    refine h.write i _ (by have := h.len_le; omega) (by simp [h.len_eq]) (fun k hk hki => ?_)
      (fun _ => ?_)
    · simp only [List.length_dropLast, List.length_set] at hk
      exact ⟨by omega, by simp [List.getElem_set_ne (Ne.symm hki)]⟩
    · simp

theorem Refines.clear {s : VecState α} (h : s.Refines) : (s.call .clear).Refines where
  sound := h.sound
  region := h.region
  len_eq := rfl
  len_le := Nat.zero_le _
  cap_eq := h.cap_eq
  slots _ hi := absurd hi (Nat.not_lt_zero _)

/-- A request of the arena leaves the vector's slots alone: they lie in its region, a grant. -/
theorem Refines.read_call {s : VecState α} (h : s.Refines) (q : Request)
    (hp : Placed (s.hist.call (.request q)).arena.places) {i : Nat} (hi : i < s.vec.cap) :
    (s.hist.call (.request q)).arena.mem.read (s.vec.slot i) s.vec.layout.size =
      s.hist.arena.mem.read (s.vec.slot i) s.vec.layout.size := by
  obtain ⟨g, hg, haddr, hsize⟩ := h.region
  refine History.read_call_of_grant h.sound hp hg ?_ ?_
  · rw [haddr]
    exact Nat.le_add_right _ _
  · rw [haddr, hsize]
    exact s.vec.slot_add_le hi

theorem History.grants_subset_call (t : History) (q : Request) :
    ∀ g ∈ t.grants, g ∈ (t.call (.request q)).grants := by
  intro g hg
  cases hq : q.perform t.arena with
  | error e =>
    rw [History.call_request_error hq]
    exact hg
  | ok res =>
    obtain ⟨r, a⟩ := res
    rw [History.call_request_ok hq]
    exact List.mem_append_left _ hg

theorem Refines.request {s : VecState α} (h : s.Refines) (q : Request)
    (hp : Placed (s.hist.call (.request q)).arena.places) : (s.call (.request q)).Refines where
  sound := h.sound.call _ hp
  region := by
    obtain ⟨g, hg, hrest⟩ := h.region
    exact ⟨g, History.grants_subset_call _ _ g hg, hrest⟩
  len_eq := h.len_eq
  len_le := h.len_le
  cap_eq := h.cap_eq
  slots i hi := by
    have := h.len_eq
    have := h.len_le
    dsimp only [call] at hi ⊢
    rw [h.read_call q hp (by omega), h.slots i hi]

/-- **A growth keeps the elements.** The request for the new region leaves the old region's
    bytes alone, and the copy moves them slot by slot; the new region is a grant, for twice as
    many elements. -/
theorem Refines.grow {s : VecState α} (h : s.Refines) {w : ArenaVec α} {a₁ : Arena}
    (hg : s.vec.grow s.hist.arena = .ok (w, a₁)) (hp : Placed a₁.places) :
    Refines ⟨⟨a₁, s.hist.grants ++
      s.hist.grantOf (s.vec.layout.size * (2 * s.vec.cap)) s.vec.layout.align⟩, w, s.model⟩ := by
  obtain ⟨r, a₂, halloc, rfl, rfl⟩ := ArenaVec.grow_eq_ok hg
  -- the growth is a request of the arena
  have hcall : s.hist.call (.request (.allocAligned (s.vec.layout.size * (2 * s.vec.cap))
      s.vec.layout.align)) = ⟨a₂, s.hist.grants ++ [⟨s.vec.layout.align, r⟩]⟩ :=
    History.call_request_ok halloc
  have hp' : Placed (s.hist.call (.request (.allocAligned (s.vec.layout.size * (2 * s.vec.cap))
      s.vec.layout.align))).arena.places := by
    rw [hcall]
    simpa using hp
  have hsound := h.sound.call _ hp'
  rw [hcall] at hsound
  rw [History.grantOf_of_ok halloc]
  obtain ⟨k, hk⟩ := h.cap_eq
  have hlen := h.len_eq
  have hle := h.len_le
  refine ⟨hsound.withMem _, ⟨_, List.mem_append_right _ List.mem_cons_self, rfl,
    allocAligned_size halloc⟩, hlen, by dsimp only; omega, ⟨k + 1, ?_⟩, ?_⟩
  · simp only [ArenaVec.initialCapacity] at hk ⊢
    rw [hk, Nat.pow_succ]
    omega
  · intro i hi
    dsimp only at hi
    -- slot `i` of the new region holds the bytes copied from slot `i` of the old one
    have hbound : i * s.vec.layout.size + s.vec.layout.size ≤ s.vec.len * s.vec.layout.size := by
      have := Nat.mul_le_mul_right s.vec.layout.size (show i + 1 ≤ s.vec.len by omega)
      rwa [Nat.succ_mul] at this
    have hframe := h.read_call _ hp' (i := i) (by omega)
    rw [hcall] at hframe
    show (a₂.mem.write r.address (a₂.mem.read s.vec.data (s.vec.len * s.vec.layout.size))).read
      (r.address + i * s.vec.layout.size) s.vec.layout.size = _
    rw [Memory.read_write_inside _ _ (by simpa using hbound), Memory.read_drop_take _ _ hbound]
    exact hframe.trans (h.slots i hi)

theorem Refines.push {s : VecState α} (h : s.Refines) (x : α)
    (hp : Placed (s.call (.push x)).hist.arena.places) : (s.call (.push x)).Refines := by
  cases hpush : s.vec.push s.hist.arena x with
  | error e =>
    simp only [call, hpush]
    exact h
  | ok res =>
    obtain ⟨v, a⟩ := res
    simp only [call, hpush] at hp ⊢
    have hlen := h.len_eq
    have hle := h.len_le
    -- the old elements stay in their slots and the new one goes into slot `len`
    have hold : ∀ k (hk : k < (s.model ++ [x]).length), k ≠ s.vec.len →
        ∃ hk' : k < s.model.length, (s.model ++ [x])[k] = s.model[k] := by
      intro k hk hkl
      simp only [List.length_append, List.length_singleton] at hk
      exact ⟨by omega, List.getElem_append_left _⟩
    have hnew : ∀ hj : s.vec.len < (s.model ++ [x]).length, (s.model ++ [x])[s.vec.len] = x :=
      fun _ => List.getElem_concat_length hlen _
    rcases ArenaVec.push_eq_ok hpush with ⟨hroom, rfl, rfl⟩ | ⟨hfull, w, a₁, hg, rfl, rfl⟩
    · rw [if_neg hroom, List.append_nil]
      exact h.write s.vec.len x (by omega) (by simp [hlen]) hold hnew
    · -- full: the elements move to a region twice as large first
      rw [if_pos hfull]
      have hgrow := h.grow hg (by simpa [ArenaVec.write] using hp)
      obtain ⟨r, a₂, -, rfl, -⟩ := ArenaVec.grow_eq_ok hg
      -- a capacity of `8 * 2 ^ k` leaves room for one more after doubling
      obtain ⟨k, hk⟩ := h.cap_eq
      have hpos := Nat.two_pow_pos k
      simp only [ArenaVec.initialCapacity] at hk
      exact hgrow.write s.vec.len x (by dsimp only; omega) (by simp [hlen]) hold hnew

theorem Refines.call {s : VecState α} (h : s.Refines) (c : VecCall α)
    (hp : Placed (s.call c).hist.arena.places) : (s.call c).Refines := by
  cases c with
  | push x => exact h.push x hp
  | set i x => exact h.set i x
  | swapRemove i => exact h.swapRemove i
  | clear => exact h.clear
  | request q => exact h.request q hp

/-! ## 6. Over whole runs -/

/-- **What an operation does to the blocks**: what a request of the arena does to them, or
    nothing. -/
theorem blocks_call (s : VecState α) (c : VecCall α) :
    ∃ t : History, (t = s.hist ∨ ∃ q, t = s.hist.call (.request q)) ∧
      (s.call c).hist.arena.places = t.arena.places ∧
      (s.call c).hist.arena.allocator = t.arena.allocator := by
  cases c with
  | push x =>
    cases hpush : s.vec.push s.hist.arena x with
    | error e => exact ⟨s.hist, .inl rfl, by simp [call, hpush], by simp [call, hpush]⟩
    | ok res =>
      obtain ⟨v, a⟩ := res
      rcases ArenaVec.push_eq_ok hpush with ⟨-, -, rfl⟩ | ⟨-, w, a₁, hg, -, rfl⟩
      · exact ⟨s.hist, .inl rfl, by simp [call, hpush], by simp [call, hpush]⟩
      · obtain ⟨r, a₂, halloc, -, rfl⟩ := ArenaVec.grow_eq_ok hg
        refine ⟨_, .inr ⟨.allocAligned (s.vec.layout.size * (2 * s.vec.cap)) s.vec.layout.align,
          rfl⟩, ?_, ?_⟩ <;>
          simp [call, hpush, @History.call_request_ok s.hist (.allocAligned _ _) r a₂ halloc]
  | set i x =>
    cases hset : s.vec.set? s.hist.arena i x with
    | none => exact ⟨s.hist, .inl rfl, by simp [call, hset], by simp [call, hset]⟩
    | some a =>
      obtain ⟨-, rfl⟩ := ArenaVec.set?_eq_some hset
      exact ⟨s.hist, .inl rfl, by simp [call, hset], by simp [call, hset]⟩
  | swapRemove i =>
    cases hsr : s.vec.swapRemove? s.hist.arena i with
    | none => exact ⟨s.hist, .inl rfl, by simp [call, hsr], by simp [call, hsr]⟩
    | some res =>
      obtain ⟨y, v, a⟩ := res
      obtain ⟨-, -, -, rfl⟩ := ArenaVec.swapRemove?_eq_some hsr
      exact ⟨s.hist, .inl rfl, by simp [call, hsr], by simp [call, hsr]⟩
  | clear => exact ⟨s.hist, .inl rfl, rfl, rfl⟩
  | request q => exact ⟨_, .inr ⟨q, rfl⟩, rfl, rfl⟩

theorem places_prefix_call (s : VecState α) (c : VecCall α) :
    s.hist.arena.places <+: (s.call c).hist.arena.places := by
  obtain ⟨t, ht, hplaces, -⟩ := s.blocks_call c
  rw [hplaces]
  rcases ht with rfl | ⟨q, rfl⟩
  · exact List.prefix_refl _
  · exact History.places_prefix_call _ _

theorem places_prefix_foldl (calls : List (VecCall α)) (s : VecState α) :
    s.hist.arena.places <+: (calls.foldl call s).hist.arena.places := by
  induction calls generalizing s with
  | nil => exact List.prefix_refl _
  | cons c calls ih => exact (places_prefix_call s c).trans (ih (s.call c))

theorem places_prefix_take (calls : List (VecCall α)) (s : VecState α) (i : Nat) :
    ((calls.take i).foldl call s).hist.arena.places <+: (calls.foldl call s).hist.arena.places := by
  have hsplit := congrArg (fun l => (l.foldl call s).hist.arena.places) (List.take_append_drop i calls)
  simp only [List.foldl_append] at hsplit
  rw [← hsplit]
  exact places_prefix_foldl _ _

/-- Over a run the vector keeps standing for the list, when the blocks at its end are placed as
    the host must place them. -/
theorem Refines.foldl {s : VecState α} (h : s.Refines) (calls : List (VecCall α))
    (hp : Placed (calls.foldl VecState.call s).hist.arena.places) :
    (calls.foldl VecState.call s).Refines := by
  induction calls generalizing s with
  | nil => exact h
  | cons c calls ih =>
    -- the blocks after the first operation are among the blocks at the end
    have hc : Placed (s.call c).hist.arena.places :=
      hp.of_prefix (places_prefix_foldl calls (s.call c))
    exact ih (h.call c hc) hp

/-- A new vector takes its region by an aligned request of the arena. -/
theorem start_eq_some {t : History} {layout : ElemLayout α} {s₀ : VecState α}
    (h : start t layout = some s₀) :
    ∃ r a, t.arena.allocAligned (layout.size * ArenaVec.initialCapacity) layout.align = .ok (r, a) ∧
      s₀ = ⟨t.call (.request (.allocAligned (layout.size * ArenaVec.initialCapacity) layout.align)),
        ⟨layout, r.address, 0, ArenaVec.initialCapacity⟩, []⟩ := by
  unfold start at h
  cases hc : ArenaVec.create t.arena layout with
  | error e => simp [hc] at h
  | ok res =>
    obtain ⟨v, a⟩ := res
    simp only [hc, Option.some.injEq] at h
    subst h
    obtain ⟨r, halloc, rfl⟩ := ArenaVec.create_eq_ok hc
    refine ⟨r, a, halloc, ?_⟩
    rw [@History.call_request_ok t (.allocAligned _ _) r a halloc, History.grantOf_of_ok halloc]
    rfl

theorem refines_start {t : History} (h : t.Sound) {layout : ElemLayout α} {s₀ : VecState α}
    (hs : start t layout = some s₀) (hp : Placed s₀.hist.arena.places) : s₀.Refines := by
  obtain ⟨r, a, halloc, rfl⟩ := start_eq_some hs
  have hcall := @History.call_request_ok t
    (.allocAligned (layout.size * ArenaVec.initialCapacity) layout.align) r a halloc
  refine ⟨h.call _ hp, ⟨⟨layout.align, r⟩, ?_, rfl, allocAligned_size halloc⟩, rfl,
    Nat.zero_le _, ⟨0, rfl⟩, fun _ hi => absurd hi (Nat.not_lt_zero _)⟩
  rw [hcall]
  exact List.mem_append_right _ List.mem_cons_self

theorem places_prefix_start {t : History} {layout : ElemLayout α} {s₀ : VecState α}
    (hs : start t layout = some s₀) : t.arena.places <+: s₀.hist.arena.places := by
  obtain ⟨r, a, -, rfl⟩ := start_eq_some hs
  exact History.places_prefix_call _ _

/-- On the standard host the blocks stay stacked over every operation. -/
theorem standardChain_call {s : VecState α} (h : StandardChain s.hist.arena) (c : VecCall α) :
    StandardChain (s.call c).hist.arena := by
  obtain ⟨t, ht, hplaces, hhost⟩ := s.blocks_call c
  rcases ht with rfl | ⟨q, rfl⟩
  · exact h.congr hhost hplaces
  · exact (StandardChain.call h (.request q)).congr hhost hplaces

/-- On the standard host the blocks of a vector's arena are placed as required, over any
    operations. -/
theorem standard_placed {blockSize : Nat} {a₀ : Arena} {layout : ElemLayout α}
    {s₀ : VecState α} (pre : List Call) (calls : List (VecCall α))
    (hcreate : create .standard blockSize = .ok a₀)
    (hstart : start (History.run a₀ pre) layout = some s₀) :
    Placed (calls.foldl call s₀).hist.arena.places := by
  suffices ∀ (calls : List (VecCall α)) (s : VecState α), StandardChain s.hist.arena →
      StandardChain (calls.foldl call s).hist.arena by
    obtain ⟨r, a, -, rfl⟩ := start_eq_some hstart
    exact (this calls _ (StandardChain.call (standardChain_run hcreate pre) _)).placed
  intro calls
  induction calls with
  | nil => exact fun _ h => h
  | cons c calls ih => exact fun s h => ih (s.call c) (standardChain_call h c)

/-! ## 7. What the vector reads back, at every point -/

theorem Refines.set?_eq {s : VecState α} (h : s.Refines) (j : Nat) (x : α) :
    (s.vec.set? s.hist.arena j x).map s.vec.asSlice =
      if j < s.model.length then some (s.model.set j x) else none := by
  have hstep := h.set j x
  cases hset : s.vec.set? s.hist.arena j x with
  | none =>
    have := ArenaVec.set?_eq_none hset
    rw [h.len_eq] at this
    rw [if_neg (by omega)]
    rfl
  | some a =>
    obtain ⟨hj, -⟩ := ArenaVec.set?_eq_some hset
    simp only [VecState.call, hset] at hstep
    rw [if_pos (h.len_eq ▸ hj)]
    exact congrArg some hstep.asSlice_eq

theorem Refines.swapRemove?_eq {s : VecState α} (h : s.Refines) (j : Nat) :
    (s.vec.swapRemove? s.hist.arena j).map (fun r => (r.1, r.2.1.asSlice r.2.2)) =
      Frond.swapRemove s.model j := by
  have hstep := h.swapRemove j
  cases hsr : s.vec.swapRemove? s.hist.arena j with
  | none =>
    have := ArenaVec.swapRemove?_eq_none hsr
    rw [h.len_eq] at this
    rw [Option.map_none, eq_comm, swapRemove_eq_none_iff]
    exact this
  | some res =>
    obtain ⟨y, v, a⟩ := res
    obtain ⟨hj, rfl, -, -⟩ := ArenaVec.swapRemove?_eq_some hsr
    have hj' : j < s.model.length := h.len_eq ▸ hj
    cases hl : Frond.swapRemove s.model j with
    | none =>
      rw [swapRemove_eq_none_iff] at hl
      omega
    | some res' =>
      obtain ⟨z, l⟩ := res'
      simp only [VecState.call, hsr, hl] at hstep
      have hz : s.model[j] = z := by
        simpa [List.getElem?_eq_getElem hj'] using (perm_swapRemove hl).1
      rw [Option.map_some, h.read_eq hj', hz]
      exact congrArg (fun l => some (z, l)) hstep.asSlice_eq

end VecState

/-- **Vectors in an arena refine lists.** Start a vector on an arena from `create`, after any
    requests, and run any operations on it (pushes, writes through an index, swap-removals,
    clearing) with any requests of the same arena in between; assume the host placed the blocks
    inside the address space and apart. After every prefix of the operations:
    * the vector's elements are the list's, where a push appends, a write replaces one element,
      a swap-removal moves the last element into the hole and drops the last, and clearing
      empties the list;
    * its length is at most its capacity, which is 8 times a power of two;
    * reading an index and reading the last element give the list's; writing an index and
      swap-removing give what they give on the list, past the end nothing;
    * a push fails only at capacity, when the arena refuses the growth, and then changes
      nothing. -/
theorem vector_refines_list {α : Type} {host : Allocator} {blockSize : Nat} {a₀ : Arena}
    {layout : ElemLayout α} {s₀ : VecState α} (pre : List Call) (calls : List (VecCall α))
    (hcreate : create host blockSize = .ok a₀)
    (hstart : VecState.start (History.run a₀ pre) layout = some s₀)
    (hplaced : Placed (calls.foldl VecState.call s₀).hist.arena.places) :
    ∀ i, let s := (calls.take i).foldl VecState.call s₀
      s.vec.asSlice s.hist.arena = s.model ∧
      s.vec.length ≤ s.vec.capacity ∧ (∃ k, s.vec.capacity = 8 * 2 ^ k) ∧
      (∀ j, s.vec.get? s.hist.arena j = s.model[j]?) ∧
      s.vec.last? s.hist.arena = s.model.getLast? ∧
      (∀ j x, (s.vec.set? s.hist.arena j x).map s.vec.asSlice =
        if j < s.model.length then some (s.model.set j x) else none) ∧
      (∀ j, (s.vec.swapRemove? s.hist.arena j).map (fun r => (r.1, r.2.1.asSlice r.2.2)) =
        swapRemove s.model j) ∧
      (∀ x e, s.vec.push s.hist.arena x = .error e →
        s.vec.length = s.vec.capacity ∧ s.call (.push x) = s) := by
  intro i
  -- the blocks at every point are among the blocks at the end
  have hpre : Placed (History.run a₀ pre).arena.places := hplaced.of_prefix
    ((VecState.places_prefix_start hstart).trans (VecState.places_prefix_foldl calls s₀))
  have hs₀ := VecState.refines_start ((History.sound_create hcreate).foldl pre hpre) hstart
    (hplaced.of_prefix (VecState.places_prefix_foldl calls s₀))
  have h := hs₀.foldl (calls.take i) (hplaced.of_prefix (VecState.places_prefix_take calls s₀ i))
  refine ⟨h.asSlice_eq, h.len_le, h.cap_eq, h.get?_eq, h.last?_eq, h.set?_eq, h.swapRemove?_eq,
    fun x e hpush => ⟨ArenaVec.push_eq_error hpush, ?_⟩⟩
  simp [VecState.call, hpush]

open Allocator (heapStart) in
/-- A vector of words on the standard host, after a request of the arena: nine pushes, the last
    of which doubles the capacity, a write, another request, a swap-removal and a push. -/
theorem vector_refines_list_words :
    let a₀ : Arena := ⟨#[⟨heapStart, 4096, 0⟩], 0, 4096, 0, .standard,
      Memory.blank.fill heapStart 4096⟩
    let pre := [Call.request (.allocValue ElemLayout.word 5)]
    let s₀ := (VecState.start (History.run a₀ pre) ElemLayout.word).getD
      ⟨History.run a₀ pre, ⟨ElemLayout.word, 0, 0, 0⟩, []⟩
    let calls := (List.range 9).map (fun n => VecCall.push n.toUInt64) ++
      [.set 0 7, .request (.alloc 100), .swapRemove 2, .push 10]
    create .standard 4096 = .ok a₀ ∧ VecState.start (History.run a₀ pre) ElemLayout.word = some s₀ ∧
      Placed (calls.foldl VecState.call s₀).hist.arena.places ∧
      (calls.foldl VecState.call s₀).vec.asSlice (calls.foldl VecState.call s₀).hist.arena =
        (calls.foldl VecState.call s₀).model := by
  intro a₀ pre s₀ calls
  have hcreate : create .standard 4096 = .ok a₀ := rfl
  have hsome : (VecState.start (History.run a₀ pre) ElemLayout.word).isSome = true := by
    decide +kernel
  have hstart : VecState.start (History.run a₀ pre) ElemLayout.word = some s₀ := by
    obtain ⟨s, hs⟩ := Option.isSome_iff_exists.mp hsome
    simp only [s₀, hs, Option.getD_some]
  have hplaced := VecState.standard_placed pre calls hcreate hstart
  have h := (vector_refines_list pre calls hcreate hstart hplaced calls.length).1
  rw [List.take_length] at h
  exact ⟨hcreate, hstart, hplaced, h⟩

end Frond
