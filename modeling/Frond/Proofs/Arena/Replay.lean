import Frond.Proofs.Arena.Invariant
import Frond.Proofs.Arena.Refusal

/-!
# A reset arena replays the same requests in the same places

After a reset every block stays in the chain with its cursor back at 0. Requests that were
granted one after another from a fresh arena are granted again after the reset, each in the
block and at the offset it had the first time: the search for room reaches the block a request
took the first time with the same cursors before it, and where the first run appended a block,
the second finds that block in the chain, empty. So the second run appends nothing.

* `performAll`, `lastOr`: requests run one after another, and the arena they leave.
* `Fresh`: an arena that has handed out nothing since it was made or reset
  (`fresh_create`, `fresh_reset`).
* `Replays s s'`: `s'` holds the blocks of `s`, with their cursors, and behind them empty
  blocks. It starts between a fresh arena and the reset of its run (`Replays.start`), and one
  granted request keeps it (`Replays.perform`), so a whole run does (`Replays.performAll`).
* `reset_replays`: the second run gives the same regions, counts the same bytes after every
  request, and keeps the blocks of the first run's end.
-/

namespace Frond.Arena

/-! ## 1. Runs of requests -/

/-- Runs requests one after another: the region each is given and the arena after it, or the
    first refusal. -/
def performAll (a : Arena) : List Request → Except ArenaError (List (Region × Arena))
  | [] => .ok []
  | q :: qs =>
    match q.perform a with
    | .error e => .error e
    | .ok (r, a') => (performAll a' qs).map ((r, a') :: ·)

/-- The arena after the last of the steps of a run from `a`: `a` when there are none. -/
def lastOr (a : Arena) (steps : List (Region × Arena)) : Arena :=
  (steps.getLast?.map Prod.snd).getD a

theorem performAll_cons_of_ok {a t : Arena} {q : Request} {r : Region}
    (h : q.perform a = .ok (r, t)) (qs : List Request) :
    performAll a (q :: qs) = (performAll t qs).map ((r, t) :: ·) := by
  simp [performAll, h]

theorem performAll_cons_eq_ok {a : Arena} {q : Request} {qs : List Request}
    {steps : List (Region × Arena)} (h : performAll a (q :: qs) = .ok steps) :
    ∃ r t rest, q.perform a = .ok (r, t) ∧ performAll t qs = .ok rest ∧
      steps = (r, t) :: rest := by
  cases hq : q.perform a with
  | error e => simp [performAll, hq] at h
  | ok p =>
    obtain ⟨r, t⟩ := p
    rw [performAll_cons_of_ok hq] at h
    cases hrest : performAll t qs with
    | error e => simp [hrest, Except.map] at h
    | ok rest =>
      simp only [hrest, Except.map, Except.ok.injEq] at h
      exact ⟨r, t, rest, rfl, hrest, h.symm⟩

theorem lastOr_cons (a t : Arena) (r : Region) (rest : List (Region × Arena)) :
    lastOr a ((r, t) :: rest) = lastOr t rest := by
  simp only [lastOr, List.getLast?_cons]
  cases rest.getLast? <;> rfl

/-! ## 2. What the first run does to the chain -/

theorem length_places (a : Arena) : a.places.length = a.blocks.size := by simp [places]

theorem blockCount_eq_length (a : Arena) : a.blockCount = a.places.length :=
  (length_places a).symm

/-- The capacity is read off where the blocks lie. -/
theorem capacity_eq_foldl (a : Arena) : a.capacity = (a.places.map Prod.snd).foldl (· + ·) 0 := by
  rw [capacity, places, List.map_map, List.foldl_map, ← Array.foldl_toList]
  rfl

/-- A granted request keeps every block where it is, and appends one only while the chain is
    short of `maxBlocks`. -/
theorem perform_places {q : Request} {s t : Arena} {r : Region} (h : q.perform s = .ok (r, t)) :
    s.places <+: t.places ∧ (s.blocks.size ≤ maxBlocks → t.blocks.size ≤ maxBlocks) := by
  have hc := History.places_call ⟨s, []⟩ (.request q)
  rw [History.call_request_ok h] at hc
  dsimp only at hc
  rcases hc.2 with heq | ⟨b, size, hlt, -, heq⟩
  · have hlen := congrArg List.length heq
    rw [length_places, length_places] at hlen
    exact ⟨by rw [heq], fun hle => by omega⟩
  · have hlen := congrArg List.length heq
    rw [length_places, List.length_append, length_places, List.length_singleton] at hlen
    exact ⟨by rw [heq]; exact List.prefix_append _ _, fun _ => by omega⟩

theorem performAll_places {σ : List Request} {s : Arena} {steps : List (Region × Arena)}
    (h : performAll s σ = .ok steps) :
    s.places <+: (lastOr s steps).places ∧
      (s.blocks.size ≤ maxBlocks → (lastOr s steps).blocks.size ≤ maxBlocks) := by
  induction σ generalizing s steps with
  | nil =>
    simp only [performAll, Except.ok.injEq] at h
    subst h
    exact ⟨List.prefix_refl _, id⟩
  | cons q σ ih =>
    obtain ⟨r, t, rest, hq, hrest, rfl⟩ := performAll_cons_eq_ok h
    rw [lastOr_cons]
    obtain ⟨hpre, hcount⟩ := perform_places hq
    obtain ⟨hpre', hcount'⟩ := ih hrest
    exact ⟨hpre.trans hpre', hcount' ∘ hcount⟩

/-! ## 3. Fresh arenas -/

/-- An arena that has handed out nothing since it was made or last reset: every cursor is at
    the start of its block, the search starts from the first block, no bytes are counted, and
    the chain is no longer than an arena's may be. -/
structure Fresh (a : Arena) : Prop where
  used_eq : ∀ b ∈ a.blocks, b.used = 0
  current_eq : a.current = 0
  total_eq : a.total = 0
  count_le : a.blocks.size ≤ maxBlocks

theorem fresh_create {host : Allocator} {blockSize : Nat} {a : Arena}
    (h : create host blockSize = .ok a) : a.Fresh := by
  obtain ⟨b, -, hused, hblocks, hcur, htotal, -, -⟩ := create_eq_ok h
  refine ⟨fun b' hb' => ?_, hcur, htotal, by simp [hblocks, maxBlocks]⟩
  rw [hblocks] at hb'
  simp only [List.mem_toArray, List.mem_singleton] at hb'
  exact hb' ▸ hused

theorem fresh_reset {a : Arena} (h : a.blocks.size ≤ maxBlocks) : a.reset.Fresh :=
  ⟨reset_used h, rfl, rfl, by simpa [reset] using h⟩

/-! ## 4. The replay relation -/

/-- `s'` replays `s`: it holds the blocks of `s` first, with the same cursors, and behind them
    only empty blocks; the search starts from the same block, and as many bytes are counted.
    The search of `s` starts at one of its blocks or just past the last. -/
structure Replays (s s' : Arena) : Prop where
  current_le : s.current ≤ s.blocks.size
  agree : ∀ j, j < s.blocks.size → s'.blocks[j]? = s.blocks[j]?
  empty_after : ∀ j b, s.blocks.size ≤ j → s'.blocks[j]? = some b → b.used = 0
  current_eq : s'.current = s.current
  total_eq : s'.total = s.total

/-- Two blocks in the same place with the same cursor are the same block. -/
theorem block_eq_of_place {b b' : Block} (hp : (b.base, b.size) = (b'.base, b'.size))
    (hu : b.used = b'.used) : b = b' := by
  cases b
  cases b'
  simp_all

theorem getElem?_places (a : Arena) (j : Nat) :
    a.places[j]? = a.blocks[j]?.map fun b => (b.base, b.size) := by
  simp [places]

/-- Where an arena's places begin with a block's place, and its block there has that block's
    cursor, it holds that block. -/
theorem getElem?_eq_of_places_prefix {a : Arena} {ps : List (Nat × Nat)} (hpre : ps <+: a.places)
    {j : Nat} (hj : j < ps.length) {b : Block} (hp : ps[j] = (b.base, b.size))
    (hu : ∀ b', a.blocks[j]? = some b' → b'.used = b.used) : a.blocks[j]? = some b := by
  have hq := List.prefix_iff_getElem?.mp hpre j hj
  rw [getElem?_places, hp] at hq
  obtain ⟨b', hb', hpb⟩ := Option.map_eq_some_iff.mp hq
  rw [hb', block_eq_of_place hpb (hu b' hb')]

/-- **A fresh arena is replayed by the reset of any arena its run reaches.** Its blocks lie
    where they lie there, and all cursors are 0 in both. -/
theorem Replays.start {a a' : Arena} (ha : a.Fresh) (ha' : a'.Fresh)
    (hpre : a.places <+: a'.places) : Replays a a' where
  current_le := by rw [ha.current_eq]; omega
  agree j hj := by
    rw [Array.getElem?_eq_getElem hj]
    refine getElem?_eq_of_places_prefix hpre (by rwa [length_places]) (by simp [places])
      fun b' hb' => ?_
    rw [ha'.used_eq b' (Array.mem_of_getElem? hb'), ha.used_eq _ (Array.getElem_mem hj)]
  empty_after j b _ hb := ha'.used_eq b (Array.mem_of_getElem? hb)
  current_eq := by rw [ha.current_eq, ha'.current_eq]
  total_eq := by rw [ha.total_eq, ha'.total_eq]

section Replays

variable {s s' : Arena}

theorem Replays.getElem_eq (h : Replays s s') {j : Nat} (hj : j < s.blocks.size) :
    ∃ hj' : j < s'.blocks.size, s'.blocks[j] = s.blocks[j] := by
  have hag := h.agree j hj
  rw [Array.getElem?_eq_getElem hj] at hag
  exact Array.getElem?_eq_some_iff.mp hag

/-- The search for room finds the same block at the same offset in the replay. -/
theorem Replays.findRoom_eq (h : Replays s s') {al align i o : Nat}
    (hfind : findRoom s.blocks al align s.current = some (i, o)) :
    findRoom s'.blocks al align s'.current = some (i, o) := by
  obtain ⟨hci, hi, hfit⟩ := findRoom_eq_some hfind
  obtain ⟨hi', hblock⟩ := h.getElem_eq hi
  rw [h.current_eq]
  refine findRoom_of_first hci hi' (hblock ▸ hfit) fun k hk hck hki => ?_
  obtain ⟨_, hkblock⟩ := h.getElem_eq (Nat.lt_trans hki hi)
  rw [hkblock]
  exact findRoom_first hfind k _ hck hki

/-- Appending to `s` the block that stands behind its blocks in `s'` keeps the relation. -/
theorem Replays.push (h : Replays s s') {b : Block} (hb : s'.blocks[s.blocks.size]? = some b)
    (m : Memory) : Replays { s with blocks := s.blocks.push b, mem := m } s' where
  current_le := by
    show s.current ≤ (s.blocks.push b).size
    have := h.current_le
    rw [Array.size_push]
    omega
  agree j hj := by
    dsimp only at hj ⊢
    rw [Array.size_push] at hj
    rw [Array.getElem?_push]
    split
    · subst j
      exact hb
    · exact h.agree j (by omega)
  empty_after j b' hj hb' := by
    dsimp only at hj
    rw [Array.size_push] at hj
    exact h.empty_after j b' (by omega) hb'
  current_eq := h.current_eq
  total_eq := h.total_eq

/-- Taking bytes at the same place in both arenas hands out the same region and keeps the
    relation. -/
theorem Replays.commit (h : Replays s s') {i : Nat} (hi : i < s.blocks.size) (o al sz : Nat) :
    (s'.commit i o al sz).1 = (s.commit i o al sz).1 ∧
      Replays (s.commit i o al sz).2 (s'.commit i o al sz).2 := by
  refine ⟨by simp only [Arena.commit, h.agree i hi], ?_⟩
  refine ⟨by simp only [commit_current, commit_blocks, Array.size_modify]; omega, ?_, ?_, rfl, ?_⟩
  · intro j hj
    simp only [commit_blocks, Array.size_modify] at hj ⊢
    simp only [Array.getElem?_modify, h.agree j hj]
  · intro j b hj hb
    simp only [commit_blocks, Array.size_modify, Array.getElem?_modify] at hj hb
    rw [if_neg (by omega)] at hb
    exact h.empty_after j b hj hb
  · simp only [commit_total, h.total_eq]

theorem Replays.store (h : Replays s s') (x x' : Nat) (bs bs' : Bytes) :
    Replays (s.store x bs) (s'.store x' bs') :=
  ⟨h.current_le, h.agree, h.empty_after, h.current_eq, h.total_eq⟩

end Replays

/-! ## 5. One request, then a whole run -/

/-- A request that finds room in a block is granted there. -/
theorem allocAligned_of_findRoom {a : Arena} {size align i o : Nat}
    (hpow : isPowerOfTwo align = true) (hsize : size + 15 < wordBound)
    (hfind : findRoom a.blocks (alignUp size 16) align a.current = some (i, o)) :
    a.allocAligned size align = .ok (a.commit i o (alignUp size 16) size) := by
  have hfind' : findRoom a.blocks (alignUp size defaultAlignment) align a.current = some (i, o) :=
    hfind
  have hs : ¬ size + (defaultAlignment - 1) ≥ wordBound := by simp only [defaultAlignment]; omega
  unfold allocAligned
  rw [if_neg (by simp [hpow]), if_neg hs]
  dsimp only
  rw [hfind']
  rfl

/-- A request granted in a block the search finds in `s` is granted in the same block of
    `s'`, with the same region; `s'` keeps its blocks where they are. -/
theorem Replays.allocAligned (h : Replays s s') {size align i o : Nat} {r : Region} {t : Arena}
    (hpow : isPowerOfTwo align = true) (hsize : size + 15 < wordBound)
    (hfind : findRoom s.blocks (alignUp size 16) align s.current = some (i, o))
    (hra : (r, t) = s.commit i o (alignUp size 16) size) :
    ∃ t', s'.allocAligned size align = .ok (r, t') ∧ t'.places = s'.places ∧ Replays t t' := by
  obtain ⟨-, hi, -⟩ := findRoom_eq_some hfind
  obtain ⟨hr, hrep⟩ := h.commit hi o (alignUp size 16) size
  have hr' : (s'.commit i o (alignUp size 16) size).1 = r := hr.trans (congrArg Prod.fst hra).symm
  have ht : (s.commit i o (alignUp size 16) size).2 = t := (congrArg Prod.snd hra).symm
  refine ⟨(s'.commit i o (alignUp size 16) size).2, ?_, places_commit _ _ _ _ _, ht ▸ hrep⟩
  rw [allocAligned_of_findRoom hpow hsize (h.findRoom_eq hfind), ← hr']

/-- **Where the first run took its bytes.** A granted request took them in a block the search
    finds, or in a block appended behind the others. In the second case a replay `s'` that holds
    the blocks after the request already holds that block, empty, behind those of `s`. Either
    way the search finds the block in an arena that `s'` replays. -/
theorem Replays.found_of_allocAligned (h : Replays s s') {size align : Nat} {r : Region}
    {t : Arena} (halloc : s.allocAligned size align = .ok (r, t)) (hpre : t.places <+: s'.places) :
    ∃ s₂ i o, Replays s₂ s' ∧
      findRoom s₂.blocks (alignUp size 16) align s₂.current = some (i, o) ∧
      (r, t) = s₂.commit i o (alignUp size 16) size := by
  obtain ⟨hpow, hsize, hcases⟩ := allocAligned_eq_ok halloc
  cases hfind : findRoom s.blocks (alignUp size 16) align s.current with
  | some p =>
    obtain ⟨i, o⟩ := p
    rw [allocAligned_of_findRoom hpow hsize hfind, Except.ok.injEq] at halloc
    exact ⟨s, i, o, h, hfind, halloc.symm⟩
  | none =>
    rcases hcases with ⟨i, o, hci, ⟨hi, hfit⟩, -⟩ | ⟨b, o, -, -, hused, hfit, hra⟩
    · rw [findRoom_eq_none_iff.mp hfind i hi hci] at hfit
      cases hfit
    have ht : t = _ := congrArg Prod.snd hra
    rw [ht, places_commit, places_push] at hpre
    have hb : s'.blocks[s.blocks.size]? = some b :=
      getElem?_eq_of_places_prefix hpre (by simp [length_places]) (by simp [← length_places])
        fun b' hb' => by rw [h.empty_after _ b' (Nat.le_refl _) hb', hused]
    refine ⟨_, s.blocks.size, o, h.push hb (s.mem.fill b.base b.size), ?_, hra⟩
    show findRoom (s.blocks.push b) _ _ s.current = _
    refine findRoom_of_first h.current_le (by simp) (by simpa using hfit) fun k hk hck hks => ?_
    rw [Array.getElem_push_lt hks]
    exact findRoom_eq_none_iff.mp hfind k hks hck

/-- **One request.** A request granted on `s` is granted on a replay `s'` of `s` with the same
    region, provided the blocks `s` holds afterwards are among those of `s'`. The replay keeps
    its blocks where they are, and the relation holds afterwards. -/
theorem Replays.perform {s s' : Arena} (h : Replays s s') {q : Request} {r : Region} {t : Arena}
    (hq : q.perform s = .ok (r, t)) (hpre : t.places <+: s'.places) :
    ∃ t', q.perform s' = .ok (r, t') ∧ t'.places = s'.places ∧ Replays t t' := by
  obtain ⟨t₀, halloc, rfl⟩ := Request.perform_eq_ok hq
  rw [places_store] at hpre
  obtain ⟨hpow, hsize, -⟩ := allocAligned_eq_ok halloc
  obtain ⟨s₂, i, o, hrep, hfind, hra⟩ := h.found_of_allocAligned halloc hpre
  obtain ⟨t', halloc', hpl, hrep'⟩ := hrep.allocAligned hpow hsize hfind hra
  refine ⟨t'.store r.address q.contents, ?_, by rw [places_store, hpl], hrep'.store _ _ _ _⟩
  rw [Request.perform_eq_map, halloc']
  rfl

/-- **A whole run.** Requests granted one after another on `s` are granted on a replay `s'`
    with the same regions and the same count of bytes after each, when the blocks at the end of
    the run on `s` are among those of `s'`; the replay keeps its blocks where they are. -/
theorem Replays.performAll {σ : List Request} : ∀ {s s' : Arena} {steps : List (Region × Arena)},
    Replays s s' → s.performAll σ = .ok steps → (lastOr s steps).places <+: s'.places →
    ∃ steps', s'.performAll σ = .ok steps' ∧ steps'.map Prod.fst = steps.map Prod.fst ∧
      steps'.map (·.2.total) = steps.map (·.2.total) ∧ ∀ p ∈ steps', p.2.places = s'.places := by
  induction σ with
  | nil =>
    intro s s' steps _ hrun _
    simp only [Arena.performAll, Except.ok.injEq] at hrun
    subst hrun
    exact ⟨[], rfl, rfl, rfl, by simp⟩
  | cons q σ ih =>
    intro s s' steps h hrun hpre
    obtain ⟨r, t, rest, hq, hrest, rfl⟩ := performAll_cons_eq_ok hrun
    rw [lastOr_cons] at hpre
    obtain ⟨t', hq', hpl, hrep⟩ := h.perform hq ((performAll_places hrest).1.trans hpre)
    obtain ⟨rest', hrest', hfst, htot, hplaces⟩ := ih hrep hrest (hpl ▸ hpre)
    refine ⟨(r, t') :: rest', ?_, by simp [hfst], by simp [htot, hrep.total_eq], ?_⟩
    · rw [performAll_cons_of_ok hq', hrest']
      rfl
    · intro p hp
      rcases List.mem_cons.mp hp with rfl | hp
      · exact hpl
      · exact (hplaces p hp).trans hpl

/-! ## 6. Replay after a reset -/

/-- **A reset arena replays the same requests in the same places.** Requests granted one after
    another on a fresh arena are all granted again after a reset of the arena they leave. Each
    is given the same region, in the same block at the same offset; as many bytes are counted
    after each as the first time; and no block is appended: the block count and the capacity
    stay those of the first run's end. -/
theorem reset_replays {a : Arena} (ha : a.Fresh) {σ : List Request}
    {steps : List (Region × Arena)} (h : a.performAll σ = .ok steps) :
    ∃ steps', (lastOr a steps).reset.performAll σ = .ok steps' ∧
      steps'.map Prod.fst = steps.map Prod.fst ∧
      steps'.map (·.2.total) = steps.map (·.2.total) ∧
      ∀ p ∈ steps', p.2.blockCount = (lastOr a steps).blockCount ∧
        p.2.capacity = (lastOr a steps).capacity := by
  obtain ⟨hpre, hcount⟩ := performAll_places h
  have hstart := Replays.start ha (fresh_reset (hcount ha.count_le)) (by rwa [places_reset])
  obtain ⟨steps', hrun, hfst, htot, hplaces⟩ :=
    hstart.performAll h (by rw [places_reset])
  refine ⟨steps', hrun, hfst, htot, fun p hp => ?_⟩
  have hpl : p.2.places = (lastOr a steps).places := (hplaces p hp).trans (places_reset _)
  rw [blockCount_eq_length, blockCount_eq_length, capacity_eq_foldl, capacity_eq_foldl, hpl]
  exact ⟨rfl, rfl⟩

open Allocator (heapStart) in
/-- On a fresh standard arena the aligned request does not fit behind the first, so the first
    run appends a second block; after the reset the second run finds it in the chain. -/
theorem reset_replays_appended_block :
    let a : Arena := ⟨#[⟨heapStart, 4096, 0⟩], 0, 4096, 0, .standard,
      Memory.blank.fill heapStart 4096⟩
    let σ := [Request.alloc 3000, .allocAligned 2000 64, .allocValue ElemLayout.word 7,
      .alloc 10]
    let steps := (a.performAll σ).toOption.getD []
    a.Fresh ∧ a.performAll σ = .ok steps ∧ (lastOr a steps).blockCount = 2 ∧
      ∃ steps', (lastOr a steps).reset.performAll σ = .ok steps' ∧
        steps'.map Prod.fst = steps.map Prod.fst ∧
        steps'.map (·.2.total) = steps.map (·.2.total) ∧
        ∀ p ∈ steps', p.2.blockCount = (lastOr a steps).blockCount ∧
          p.2.capacity = (lastOr a steps).capacity := by
  intro a σ steps
  have hfresh : a.Fresh := fresh_create (show create .standard 4096 = .ok a from rfl)
  have hok : (a.performAll σ).isOk = true := by decide +kernel
  have hrun : a.performAll σ = .ok steps := by
    cases hx : a.performAll σ with
    | error e =>
      rw [hx] at hok
      cases hok
    | ok st =>
      show Except.ok st = Except.ok ((a.performAll σ).toOption.getD [])
      rw [hx]
      rfl
  have hcount : (lastOr a steps).blockCount = 2 := by decide +kernel
  exact ⟨hfresh, hrun, hcount, reset_replays hfresh hrun⟩

end Frond.Arena
