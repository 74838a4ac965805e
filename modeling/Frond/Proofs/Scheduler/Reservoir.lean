import Frond.Proofs.Scheduler.Step
import Mathlib.Data.Nat.Factorial.Basic
import Mathlib.Data.List.Nodup
import Mathlib.Algebra.BigOperators.Group.List.Basic

/-!
# Ties are broken uniformly

A step takes out an event due at the earliest time of the queue. When `k` events share that
time, at positions `p₁ < … < pₖ`, the scan chooses among them by reservoir sampling: from `p₁`
on, the `j`-th of them draws a number below `j` and becomes the choice when it draws 0, and
events due later draw nothing. Draws made before `p₁`, for events that tied a time the queue
later undercuts, only move the generator on.

* `reservoir`: the last candidate whose draw is 0, or the first; `drawVectors n`: every vector
  of draws for `n` candidates after the first, the `j`-th below `j + 2`.
* `countP_reservoir`: each of `n + 1` distinct candidates is chosen by exactly `n!` of the
  `(n + 1)!` draw vectors.
* `choose_reaches`, `choose_ties`: the scan up to the first earliest event, and from there on.
* `tie_choice_uniform`: a step takes out the candidate that reservoir sampling chooses with the
  generator's draws, and each candidate is chosen by as many draw vectors as any other.
-/

namespace Frond

namespace Scheduler

/-! ## 1. Reservoir choice over draw vectors -/

/-- The candidate reservoir sampling keeps: the last one whose draw is 0, or `first` when no
    draw is. -/
def reservoir {α : Type} (first : α) (cands : List (α × Nat)) : α :=
  cands.foldl (fun c x => if x.2 = 0 then x.1 else c) first

/-- Every vector of draws for `n` candidates after the first, in order: the `j`-th draw (from 0)
    is one of the values below `j + 2`. -/
def drawVectors : Nat → List (List Nat)
  | 0 => [[]]
  | n + 1 => (drawVectors n).flatMap fun v => (List.range (n + 2)).map fun x => v ++ [x]

section Reservoir

variable {α : Type}

theorem reservoir_append (a : α) (cs : List (α × Nat)) (b : α) (x : Nat) :
    reservoir a (cs ++ [(b, x)]) = if x = 0 then b else reservoir a cs := by
  simp [reservoir]

theorem reservoir_mem (a : α) (cs : List (α × Nat)) : reservoir a cs ∈ a :: cs.map Prod.fst := by
  induction cs using List.reverseRecOn with
  | nil => simp [reservoir]
  | append_singleton cs c ih =>
    rw [reservoir_append, List.map_append, ← List.cons_append]
    split
    · simp
    · exact List.mem_append_left _ ih

/-- Over candidates zipped with at least as many draws, the choice is one of the candidates. -/
theorem reservoir_zip_mem (a : α) (as : List α) {v : List Nat} (h : as.length ≤ v.length) :
    reservoir a (as.zip v) ∈ a :: as := by
  have hmem := reservoir_mem a (as.zip v)
  rwa [List.map_fst_zip h] at hmem

end Reservoir

theorem mem_drawVectors {n : Nat} {v : List Nat} :
    v ∈ drawVectors n ↔ v.length = n ∧ ∀ j (h : j < v.length), v[j] < j + 2 := by
  induction n generalizing v with
  | zero =>
    simp only [drawVectors, List.mem_singleton]
    constructor
    · rintro rfl
      exact ⟨rfl, fun j hj => absurd hj (Nat.not_lt_zero _)⟩
    · rintro ⟨hlen, -⟩
      exact List.eq_nil_of_length_eq_zero hlen
  | succ n ih =>
    simp only [drawVectors, List.mem_flatMap, List.mem_map, List.mem_range]
    constructor
    · rintro ⟨w, hw, x, hx, rfl⟩
      obtain ⟨hlen, hw⟩ := ih.mp hw
      refine ⟨by simp [hlen], fun j hj => ?_⟩
      rw [List.getElem_append]
      split
      · exact hw j ‹_›
      · simp only [List.length_append, List.length_singleton] at hj
        simp only [List.getElem_singleton]
        omega
    · rintro ⟨hlen, hv⟩
      obtain ⟨w, x, rfl⟩ : ∃ w x, v = w ++ [x] := by
        refine ⟨v.dropLast, v.getLast (List.ne_nil_of_length_pos (by omega)), ?_⟩
        exact (List.dropLast_append_getLast _).symm
      simp only [List.length_append, List.length_singleton] at hlen
      refine ⟨w, ih.mpr ⟨by omega, fun j hj => ?_⟩, x, ?_, rfl⟩
      · have := hv j (by simp; omega)
        rwa [List.getElem_append_left hj] at this
      · have := hv w.length (by simp)
        simp only [List.getElem_append_right (Nat.le_refl _), Nat.sub_self,
          List.getElem_singleton] at this
        omega

theorem length_drawVectors (n : Nat) : (drawVectors n).length = (n + 1).factorial := by
  induction n with
  | zero => rfl
  | succ n ih =>
    simp only [drawVectors, List.length_flatMap, List.length_map, List.length_range,
      List.map_const', ih, List.sum_replicate_nat, Nat.factorial_succ (n + 1)]
    exact Nat.mul_comm _ _

theorem nodup_drawVectors (n : Nat) : (drawVectors n).Nodup := by
  induction n with
  | zero => simp [drawVectors]
  | succ n ih =>
    refine List.nodup_flatMap.mpr ⟨fun v _ => ?_, ih.imp fun {v w} hne => ?_⟩
    · exact List.nodup_range.map fun x y h => by simpa using h
    · simp only [Function.onFun, List.disjoint_left, List.mem_map]
      rintro _ ⟨x, -, rfl⟩ ⟨y, -, h⟩
      exact hne (List.append_inj_left' h.symm rfl)

section Count

variable {α : Type} [DecidableEq α]

/-- One more candidate `b` after the choice `r` of the others: of the `m + 1` values of its draw,
    0 chooses `b` and every other value keeps `r`. -/
theorem countP_range_last (b r y : α) (m : Nat) :
    (List.range (m + 1)).countP (fun x => (if x = 0 then b else r) = y) =
      (if b = y then 1 else 0) + (if r = y then m else 0) := by
  rw [List.range_succ_eq_map, List.countP_cons, List.countP_map]
  by_cases hr : r = y <;> by_cases hb : b = y <;> simp [Function.comp_def, hr, hb, Nat.add_comm]

/-- The vectors that extend one for `as` by a draw for one more candidate `b`: the draw 0
    chooses `b`, and the `as.length + 1` others keep the choice among `as`. -/
theorem countP_append_draw (a b y : α) (as : List α) {v : List Nat} (hlen : v.length = as.length) :
    ((List.range (as.length + 2)).map fun x => v ++ [x]).countP
        (fun w => reservoir a ((as ++ [b]).zip w) = y) =
      (if b = y then 1 else 0) + (if reservoir a (as.zip v) = y then as.length + 1 else 0) := by
  rw [List.countP_map]
  have hlast : ∀ x, reservoir a ((as ++ [b]).zip (v ++ [x])) =
      if x = 0 then b else reservoir a (as.zip v) := fun x => by
    rw [List.zip_append hlen.symm, List.zip_cons_cons, List.zip_nil_left, reservoir_append]
  simp only [Function.comp_def, hlast]
  exact countP_range_last b _ y (as.length + 1)

theorem sum_map_ite_countP {β : Type} (l : List β) (P : β → Prop) [DecidablePred P] (c : Nat) :
    (l.map fun v => if P v then c else 0).sum = c * l.countP (fun v => P v) := by
  induction l with
  | nil => simp
  | cons v l ih =>
    by_cases hv : P v <;> simp [hv, ih, Nat.mul_add, Nat.add_comm]

/-- **Reservoir sampling is uniform.** Among `n + 1` distinct candidates, each is chosen by
    exactly `n!` of the `(n + 1)!` vectors of draws. -/
theorem countP_reservoir (as : List α) :
    ∀ a, (a :: as).Nodup → ∀ y ∈ a :: as,
      (drawVectors as.length).countP (fun v => reservoir a (as.zip v) = y) =
        as.length.factorial := by
  induction as using List.reverseRecOn with
  | nil =>
    intro a _ y hy
    obtain rfl : y = a := List.mem_singleton.mp hy
    simp [drawVectors, reservoir]
  | append_singleton as b ih =>
    intro a hnd y hy
    rw [← List.cons_append, List.nodup_append] at hnd
    obtain ⟨hnd, -, hb⟩ := hnd
    have hb : b ∉ a :: as := fun h => hb b h b (List.mem_singleton_self b) rfl
    -- a vector for `as ++ [b]` is one for `as` and a last draw, which chooses `b` when it is 0
    have hblock : ∀ v ∈ drawVectors as.length, _ := fun v hv =>
      countP_append_draw a b y as (mem_drawVectors.mp hv).1
    rw [List.length_append, List.length_singleton, drawVectors, List.countP_flatMap]
    simp only [Function.comp_def]
    rw [List.map_congr_left hblock, List.sum_map_add, List.map_const', List.sum_replicate_nat,
      sum_map_ite_countP, length_drawVectors]
    by_cases hyb : b = y
    · -- the last candidate: chosen exactly when its own draw is 0
      subst hyb
      have hnone : (drawVectors as.length).countP (fun v => reservoir a (as.zip v) = b) = 0 := by
        refine List.countP_eq_zero.mpr fun v hv' hv => hb ?_
        have hmem := reservoir_zip_mem a as (Nat.le_of_eq (mem_drawVectors.mp hv').1.symm)
        rwa [of_decide_eq_true hv] at hmem
      rw [if_pos rfl, hnone, Nat.mul_zero, Nat.add_zero, Nat.mul_one]
    · -- an earlier candidate: chosen as before, whenever the last draw is not 0
      have hy' : y ∈ a :: as := by
        rcases List.mem_append.mp (show y ∈ (a :: as) ++ [b] by simpa using hy) with h | h
        · exact h
        · exact absurd (List.mem_singleton.mp h).symm hyb
      rw [if_neg hyb, Nat.mul_zero, Nat.zero_add, ih a hnd y hy', Nat.factorial_succ]

end Count

/-! ## 2. The scan of a step -/

theorem drawBelow_snd (s : UInt64) (limit : UInt32) : (Random.drawBelow s limit).2 = Random.mix s :=
  rfl

/-- A draw below a positive limit is below it. -/
theorem drawBelow_lt (s : UInt64) {limit : UInt32} (h : 0 < limit.toNat) :
    (Random.drawBelow s limit).1.toNat < limit.toNat := by
  have hne : (limit == 0) = false := by
    simp only [beq_eq_false_iff_ne, ne_eq]
    intro h0
    simp [h0] at h
  have hlim := limit.toNat_lt
  simp only [Random.drawBelow, hne, Bool.false_eq_true, if_false, UInt64.toNat_toUInt32,
    UInt64.toNat_mod, UInt32.toNat_toUInt64]
  have := Nat.mod_lt (Random.draw s).1.toNat h
  rw [Nat.mod_eq_of_lt (by omega)]
  exact this

/-- **The scan before the first earliest event.** Over events all due after `x`, from a best
    time after `x`, the scan only moves the generator on; at `x` it starts over, with `x` as the
    choice and a tie count of 1. -/
theorem choose_reaches (x : Event) (rest : List Event) (l : List Event)
    (hl : ∀ e ∈ l, x.deliverAt < e.deliverAt) (i : Nat) (best : UInt64) (chosen : Nat)
    (ties : UInt32) (rng : UInt64) (hbest : x.deliverAt < best) :
    ∃ c, (choose l i best chosen ties rng).2 = Random.mix^[c] rng ∧
      choose (l ++ x :: rest) i best chosen ties rng =
        choose rest (i + l.length + 1) x.deliverAt (i + l.length) 1 (Random.mix^[c] rng) := by
  induction l generalizing i best chosen ties rng with
  | nil =>
    refine ⟨0, rfl, ?_⟩
    simp [choose, hbest]
  | cons e l ih =>
    have he : x.deliverAt < e.deliverAt := hl e List.mem_cons_self
    have hl' : ∀ e ∈ l, x.deliverAt < e.deliverAt := fun e' h => hl e' (List.mem_cons_of_mem e h)
    rw [List.cons_append]
    simp only [choose]
    split
    · obtain ⟨c, hc, heq⟩ := ih hl' (i + 1) e.deliverAt i 1 rng he
      refine ⟨c, hc, ?_⟩
      rw [heq, List.length_cons]
      congr 1 <;> omega
    · split
      · obtain ⟨c, hc, heq'⟩ := ih hl' (i + 1) best _ _ (Random.drawBelow rng _).2 hbest
        refine ⟨c + 1, by rw [hc, drawBelow_snd, Function.iterate_succ_apply], ?_⟩
        rw [heq', drawBelow_snd, ← Function.iterate_succ_apply, List.length_cons]
        congr 1 <;> omega
      · obtain ⟨c, hc, heq⟩ := ih hl' (i + 1) best chosen ties rng hbest
        refine ⟨c, hc, ?_⟩
        rw [heq, List.length_cons]
        congr 1 <;> omega

theorem reservoir_cons {α : Type} (a b : α) (x : Nat) (cs : List (α × Nat)) :
    reservoir a ((b, x) :: cs) = reservoir (if x = 0 then b else a) cs := rfl

/-- The draws of the ties from a generator state on, the `m`-th of them below the tie count
    before it plus `m + 1`. -/
def tieDraws (rng : UInt64) (ties n : Nat) : List Nat :=
  (List.range n).map fun m => (Random.drawBelow (Random.mix^[m] rng) (ties + m + 1).toUInt32).1.toNat

theorem tieDraws_succ (rng : UInt64) (ties n : Nat) :
    tieDraws rng ties (n + 1) =
      (Random.drawBelow rng (ties + 1).toUInt32).1.toNat :: tieDraws (Random.mix rng) (ties + 1) n := by
  simp only [tieDraws, List.range_succ_eq_map, List.map_cons, List.map_map, Function.comp_def,
    Function.iterate_succ_apply, Function.iterate_zero_apply, Nat.add_zero]
  have hlim : ∀ m, ties + m.succ + 1 = ties + 1 + m + 1 := fun m => by omega
  simp only [hlim]

/-- **The scan from the first earliest event on.** Once the best time is the earliest of the
    queue, each event due then draws below the tie count, in order, and becomes the choice when
    it draws 0; later events draw nothing. So the choice is the reservoir's among them, and the
    generator moves once per tie. -/
theorem choose_ties (D : UInt64) (l : List Event) (hl : ∀ e ∈ l, D ≤ e.deliverAt)
    (i chosen : Nat) (ties : UInt32) (rng : UInt64)
    (hbound : ties.toNat + l.countP (·.deliverAt == D) < 2 ^ 32) :
    choose l i D chosen ties rng =
      (reservoir chosen ((l.findIdxs (·.deliverAt == D) i).zip
          (tieDraws rng ties.toNat (l.countP (·.deliverAt == D)))),
        Random.mix^[l.countP (·.deliverAt == D)] rng) := by
  induction l generalizing i chosen ties rng with
  | nil => rfl
  | cons e l ih =>
    have hl' : ∀ e ∈ l, D ≤ e.deliverAt := fun e' h => hl e' (List.mem_cons_of_mem e h)
    have hnlt : ¬ e.deliverAt < D := UInt64.not_lt.mpr (hl e List.mem_cons_self)
    by_cases hD : e.deliverAt = D
    · -- a tie: the count goes up by one without saturating, and one draw is made
      have hp : (e.deliverAt == D) = true := beq_iff_eq.mpr hD
      rw [List.countP_cons, if_pos hp] at hbound
      have hsat : (ties == 0xFFFFFFFF) = false := by
        simp only [beq_eq_false_iff_ne, ne_eq, UInt32.ext_iff]
        simp only [UInt32.reduceToNat]
        omega
      have hsucc : (ties + 1).toNat = ties.toNat + 1 := by
        rw [UInt32.toNat_add, UInt32.toNat_one, Nat.mod_eq_of_lt (by omega)]
      have hlim : (ties.toNat + 1).toUInt32 = ties + 1 := by
        apply UInt32.toNat.inj
        rw [hsucc, Nat.toUInt32_eq, UInt32.toNat_ofNat', Nat.mod_eq_of_lt (by omega)]
      simp only [choose, hnlt, if_false, hp, if_true, hsat, Bool.false_eq_true]
      rw [ih hl' (i + 1) _ (ties + 1) _ (by omega), List.countP_cons, if_pos hp,
        List.findIdxs_cons, if_pos hp, tieDraws_succ, List.zip_cons_cons, reservoir_cons,
        Function.iterate_succ_apply, drawBelow_snd, hsucc, hlim]
      congr 3
      simp [beq_iff_eq, UInt32.ext_iff]
    · have hp : (e.deliverAt == D) = false := by simpa using hD
      simp only [choose, hnlt, if_false, hp, Bool.false_eq_true]
      rw [ih hl' (i + 1) chosen ties rng (by rwa [List.countP_cons, hp] at hbound),
        List.countP_cons, List.findIdxs_cons, hp]
      rfl

/-! ## 3. A step among ties -/

/-- The generator's state when the scan of a step reaches index `i` of the queue: the state after
    the draws for the events between the first and `i`. -/
def rngAt (s : Scheduler) (i : Nat) : UInt64 :=
  match s.queue with
  | [] => s.rng
  | e :: es => (choose (es.take (i - 1)) 1 e.deliverAt 0 1 s.rng).2

section Ties

variable {D : UInt64}

/-- A queue with an event due at `D` splits at the first of them. -/
theorem exists_first_due {q : List Event} (h : q.findIdxs (·.deliverAt == D) ≠ []) :
    ∃ l x rest, q = l ++ x :: rest ∧ (∀ e ∈ l, e.deliverAt ≠ D) ∧ x.deliverAt = D := by
  induction q with
  | nil => exact absurd rfl h
  | cons e q ih =>
    by_cases he : e.deliverAt = D
    · exact ⟨[], e, q, rfl, by simp, he⟩
    · have hq : q.findIdxs (·.deliverAt == D) ≠ [] := by
        rw [List.findIdxs_cons, if_neg (by simpa using he)] at h
        rw [Ne, List.findIdxs_eq_nil_iff] at h ⊢
        exact h
      obtain ⟨l, x, rest, rfl, hl, hx⟩ := ih hq
      refine ⟨e :: l, x, rest, rfl, ?_, hx⟩
      intro e' he'
      rcases List.mem_cons.mp he' with rfl | he'
      · exact he
      · exact hl e' he'

/-- The events due at `D` are the first of them and those after it. -/
theorem findIdxs_of_first {l rest : List Event} {x : Event} (hl : ∀ e ∈ l, e.deliverAt ≠ D)
    (hx : x.deliverAt = D) :
    (l ++ x :: rest).findIdxs (·.deliverAt == D) =
      l.length :: rest.findIdxs (·.deliverAt == D) (l.length + 1) := by
  have hnone : l.findIdxs (·.deliverAt == D) = [] :=
    List.findIdxs_eq_nil_iff.mpr fun e he => by simpa using hl e he
  rw [List.findIdxs_append, hnone, List.findIdxs_cons, if_pos (by simpa using hx)]
  simp

/-- **The scan reaches the first earliest event.** Whether the queue starts with it or with
    later events, the scan arrives there with the state `rngAt` gives, the event as the choice and
    a tie count of 1. -/
theorem choose_at_first {s : Scheduler} {l rest : List Event} {x : Event}
    (hq : s.queue = l ++ x :: rest) (hl : ∀ e ∈ l, D < e.deliverAt) (hx : x.deliverAt = D) :
    ∃ e es, s.queue = e :: es ∧
      choose es 1 e.deliverAt 0 1 s.rng =
        choose rest (l.length + 1) D l.length 1 (s.rngAt l.length) := by
  cases l with
  | nil =>
    refine ⟨x, rest, hq, ?_⟩
    simp only [rngAt, hq, List.nil_append, List.length_nil, hx]
    rfl
  | cons e l =>
    have he := hl e List.mem_cons_self
    have hl' : ∀ e' ∈ l, x.deliverAt < e'.deliverAt := fun e' h =>
      hx ▸ hl e' (List.mem_cons_of_mem e h)
    obtain ⟨c, hc, hcont⟩ := choose_reaches x rest l hl' 1 e.deliverAt 0 1 s.rng (hx ▸ he)
    refine ⟨e, l ++ x :: rest, hq, ?_⟩
    have hrng : s.rngAt (e :: l).length = Random.mix^[c] s.rng := by
      simp only [rngAt, hq, List.cons_append, List.length_cons, Nat.add_sub_cancel,
        List.take_left' rfl]
      exact hc
    rw [hcont, hrng, hx, List.length_cons]
    congr 1 <;> omega

/-- A step takes out the event at the index the scan chose. -/
theorem step_of_choose {s : Scheduler} {e : Event} {es : List Event} (hq : s.queue = e :: es)
    {c : Nat} {r : UInt64} (hc : choose es 1 e.deliverAt 0 1 s.rng = (c, r)) {ev : Event}
    (hev : s.queue[c]? = some ev) : ∃ s', s.step = some (ev, s') ∧ s'.rng = r := by
  rw [hq] at hev
  obtain ⟨hlt, hget⟩ := List.getElem?_eq_some_iff.mp hev
  have hsr : swapRemove (e :: es) c = some (ev,
      ((e :: es).set c ((e :: es).getLast (List.cons_ne_nil e es))).dropLast) := by
    simp only [List.length_cons] at hlt
    simp [swapRemove, hlt, hget]
  simp only [step, hq, hc, hsr]
  exact ⟨_, rfl, rfl⟩

end Ties

/-- **Ties are broken uniformly.** Let `D` be the earliest time of the queue, held by the events
    at positions `p = [p₁, …, pₖ]` with `k < 2 ^ 32`. Let `g` be the generator when the scan of
    a step reaches `p₁`, and `d` the draws it then makes for `p₂, …, pₖ`: consecutive draws from
    `g` below 2, 3, …, `k`. The step takes out the event at the last `pⱼ` whose draw is 0, or at
    `p₁` when none is, and leaves the generator `k - 1` draws past `g`. The draws are one of the
    `k!` vectors of values below 2, …, `k`, and each of the `k` positions is chosen by exactly
    `(k - 1)!` of them. -/
theorem tie_choice_uniform (s : Scheduler) (D : UInt64) (hmin : ∀ e ∈ s.queue, D ≤ e.deliverAt)
    (hk : s.queue.findIdxs (·.deliverAt == D) ≠ [])
    (hbound : (s.queue.findIdxs (·.deliverAt == D)).length < 2 ^ 32) :
    let p := s.queue.findIdxs (·.deliverAt == D)
    let g := s.rngAt (p.headD 0)
    let d := tieDraws g 1 (p.length - 1)
    let c := reservoir (p.headD 0) (p.tail.zip d)
    c ∈ p ∧
      (∃ ev s', s.queue[c]? = some ev ∧ s.step = some (ev, s') ∧
        s'.rng = Random.mix^[p.length - 1] g) ∧
      d ∈ drawVectors (p.length - 1) ∧
      (drawVectors (p.length - 1)).length = p.length.factorial ∧
      (drawVectors (p.length - 1)).Nodup ∧
      ∀ x ∈ p, (drawVectors (p.length - 1)).countP
        (fun v => reservoir (p.headD 0) (p.tail.zip v) = x) = (p.length - 1).factorial := by
  intro p g d c
  have hk' : p.length < 2 ^ 32 := hbound
  obtain ⟨l, x, rest, hq, hl, hx⟩ := exists_first_due hk
  have hp : p = l.length :: rest.findIdxs (·.deliverAt == D) (l.length + 1) := by
    show s.queue.findIdxs _ = _
    rw [hq]
    exact findIdxs_of_first hl hx
  have hlen : p.length = rest.countP (·.deliverAt == D) + 1 := by
    rw [hp, List.length_cons, List.length_findIdxs]
  have hrest : ∀ e ∈ rest, D ≤ e.deliverAt := fun e he => hmin e (by simp [hq, he])
  have hl' : ∀ e ∈ l, D < e.deliverAt := fun e he =>
    UInt64.lt_of_le_of_ne (hmin e (by simp [hq, he])) (fun h => hl e he h.symm)
  obtain ⟨e, es, hqe, hreach⟩ := choose_at_first hq hl' hx
  have hk1 : p.length - 1 = rest.countP (·.deliverAt == D) := by omega
  have hcons : p = p.headD 0 :: p.tail := by rw [hp]; rfl
  -- from the first earliest event on, the scan is the reservoir over the ties
  have hscan : choose es 1 e.deliverAt 0 1 s.rng = (c, Random.mix^[p.length - 1] g) := by
    have hbound' : 1 + rest.countP (·.deliverAt == D) < 2 ^ 32 := by omega
    rw [hreach, choose_ties D rest hrest _ _ 1 _ (by simpa only [UInt32.toNat_one] using hbound')]
    simp only [c, d, g, hk1, UInt32.toNat_one]
    rw [hp, List.headD_cons, List.tail_cons]
  have hcp : c ∈ p := by
    have hmem := reservoir_zip_mem (p.headD 0) p.tail (v := d) (by simp [d, tieDraws])
    rwa [← hcons] at hmem
  refine ⟨hcp, ?_, ?_, ?_, nodup_drawVectors _, fun y hy => ?_⟩
  · have hlt : c < s.queue.length := by
      have := List.lt_add_of_mem_findIdxs c hcp
      omega
    obtain ⟨s', hstep, hrng⟩ := step_of_choose hqe hscan (List.getElem?_eq_getElem hlt)
    exact ⟨_, s', List.getElem?_eq_getElem hlt, hstep, hrng⟩
  · refine mem_drawVectors.mpr ⟨by simp [d, tieDraws], fun j hj => ?_⟩
    have hj' : j + 2 < 2 ^ 32 := by simp [d, tieDraws] at hj; omega
    have hlim : ((1 + j + 1).toUInt32).toNat = j + 2 := by
      rw [Nat.toUInt32_eq, UInt32.toNat_ofNat', Nat.mod_eq_of_lt (by omega)]
      omega
    simp only [d, tieDraws, List.getElem_map, List.getElem_range]
    exact hlim ▸ drawBelow_lt _ (by omega)
  · rw [length_drawVectors, Nat.sub_add_cancel (by omega)]
  · have hnd : (p.headD 0 :: p.tail).Nodup := hcons ▸ List.nodup_findIdxs
    have hlen' : p.tail.length = p.length - 1 := List.length_tail
    rw [← hlen']
    exact countP_reservoir p.tail (p.headD 0) hnd y (hcons ▸ hy)

/-- Two actors due at 9 ms and then two due at 4 ms: the later pair's tie is undercut, and the
    step chooses between positions 2 and 3, each by one of the two draw vectors. -/
theorem tie_choice_uniform_undercut :
    let s : Scheduler := ⟨1, 0, 4, [⟨1, 9, 0⟩, ⟨2, 9, 1⟩, ⟨3, 4, 2⟩, ⟨4, 4, 3⟩]⟩
    (∀ e ∈ s.queue, 4 ≤ e.deliverAt) ∧ s.queue.findIdxs (·.deliverAt == 4) = [2, 3] ∧
      let p := s.queue.findIdxs (·.deliverAt == 4)
      let g := s.rngAt (p.headD 0)
      let d := tieDraws g 1 (p.length - 1)
      let c := reservoir (p.headD 0) (p.tail.zip d)
      c ∈ p ∧
        (∃ ev s', s.queue[c]? = some ev ∧ s.step = some (ev, s') ∧
          s'.rng = Random.mix^[p.length - 1] g) ∧
        d ∈ drawVectors (p.length - 1) ∧
        (drawVectors (p.length - 1)).length = p.length.factorial ∧
        (drawVectors (p.length - 1)).Nodup ∧
        ∀ x ∈ p, (drawVectors (p.length - 1)).countP
          (fun v => reservoir (p.headD 0) (p.tail.zip v) = x) = (p.length - 1).factorial := by
  intro s
  have hp : s.queue.findIdxs (·.deliverAt == 4) = [2, 3] := by decide
  exact ⟨by decide, hp, tie_choice_uniform s 4 (by decide) (by rw [hp]; decide)
    (by rw [hp]; decide)⟩

end Scheduler

end Frond
