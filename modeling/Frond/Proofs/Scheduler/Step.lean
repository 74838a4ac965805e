import Frond.Scheduler.Basic
import Mathlib.Data.UInt

/-!
# One call of the scheduler

What each call does to the scheduler, said once so that the theorems about whole sessions never
unfold the scheduler again.

* `choose_earliest`: the reservoir choice over the queue keeps an index that holds an earliest
  event, whatever the draws.
* `step_eq_some`, `step_eq_none_iff`: a step takes out an earliest event, leaves the other
  events (reordered), moves the clock up to the event's time and nothing else; it delivers
  nothing exactly when the queue is empty.
* `schedule_eq_ok`, `advance_eq_ok`: a request that is granted queues the event at the sum of
  the clock and the delay, or moves the clock by the sum, without wrapping.
* `runUntilIdle_of_step_none`, `runUntilIdle_of_step_some`: a drain is a run of steps;
  `runUntilIdle_perm`: it delivers each queued event once and leaves the queue empty.
-/

namespace Frond

namespace Scheduler

/-! ## 1. The choice of the next event -/

section Drop

variable {q es : List Event} {i : Nat} {e : Event}

theorem getElem?_of_drop_eq_cons (h : q.drop i = e :: es) : q[i]? = some e := by
  have := congrArg (·[0]?) h
  simpa using this

theorem drop_succ_of_drop_eq_cons (h : q.drop i = e :: es) : q.drop (i + 1) = es := by
  rw [← List.tail_drop, h]
  rfl

theorem take_succ_of_drop_eq_cons (h : q.drop i = e :: es) :
    q.take (i + 1) = q.take i ++ [e] := by
  rw [List.take_add_one, getElem?_of_drop_eq_cons h]
  rfl

end Drop

/-- **The choice keeps an earliest event.** The loop invariant of the scan: when `chosen` is an
    index before `i` that holds the time `best`, and no event before `i` is earlier, the scan of
    the rest of the queue ends at an index that holds an event no later than any queued one. -/
theorem choose_earliest {q es : List Event} {i chosen : Nat} {best : UInt64} {ties : UInt32}
    {rng : UInt64} (hdrop : q.drop i = es) (hc : chosen < i)
    (hbest : q[chosen]?.map (·.deliverAt) = some best)
    (hfirst : ∀ e ∈ q.take i, best ≤ e.deliverAt) :
    ∃ e, q[(choose es i best chosen ties rng).1]? = some e ∧
      ∀ e' ∈ q, e.deliverAt ≤ e'.deliverAt := by
  fun_induction choose es i best chosen ties rng with
  | case1 i best chosen ties rng =>
    -- the whole queue has been seen
    have hall : q.take i = q := List.take_of_length_le (List.drop_eq_nil_iff.mp hdrop)
    obtain ⟨e, he, rfl⟩ := Option.map_eq_some_iff.mp hbest
    exact ⟨e, he, fun e' he' => hfirst e' (by rw [hall]; exact he')⟩
  | case2 e es i best chosen ties rng hlt ih =>
    -- an earlier event becomes the choice
    refine ih (drop_succ_of_drop_eq_cons hdrop) (Nat.lt_succ_self i)
      (by simp [getElem?_of_drop_eq_cons hdrop]) ?_
    intro e' he'
    rw [take_succ_of_drop_eq_cons hdrop, List.mem_append, List.mem_singleton] at he'
    rcases he' with he' | rfl
    · exact UInt64.le_of_lt (UInt64.lt_of_lt_of_le hlt (hfirst e' he'))
    · exact UInt64.le_iff_toNat_le.mpr (Nat.le_refl _)
  | case3 e es i best chosen ties rng hlt heq ties' v rng' hv ih =>
    -- a tie: the choice stays or moves to `i`, at the same time either way
    have he : e.deliverAt = best := by simpa using heq
    refine ih (drop_succ_of_drop_eq_cons hdrop) ?_ ?_ ?_
    · split
      · exact Nat.lt_succ_self i
      · exact Nat.lt_succ_of_lt hc
    · split
      · simp [getElem?_of_drop_eq_cons hdrop, he]
      · exact hbest
    · intro e' he'
      rw [take_succ_of_drop_eq_cons hdrop, List.mem_append, List.mem_singleton] at he'
      rcases he' with he' | rfl
      · exact hfirst e' he'
      · exact UInt64.le_iff_toNat_le.mpr (by rw [he])
  | case4 e es i best chosen ties rng hlt hne ih =>
    refine ih (drop_succ_of_drop_eq_cons hdrop) (Nat.lt_succ_of_lt hc) hbest ?_
    intro e' he'
    rw [take_succ_of_drop_eq_cons hdrop, List.mem_append, List.mem_singleton] at he'
    rcases he' with he' | rfl
    · exact hfirst e' he'
    · exact UInt64.not_lt.mp hlt

/-- The scan a step starts, from the first event, ends at an index holding an earliest event. -/
theorem choose_cons_earliest (e : Event) (es : List Event) (rng : UInt64) :
    ∃ ev, (e :: es)[(choose es 1 e.deliverAt 0 1 rng).1]? = some ev ∧
      ∀ e' ∈ e :: es, ev.deliverAt ≤ e'.deliverAt :=
  choose_earliest (q := e :: es) rfl Nat.one_pos rfl (by simp [UInt64.le_iff_toNat_le])

/-- The scan a step starts ends at an index of the queue. -/
theorem choose_cons_lt_length (e : Event) (es : List Event) (rng : UInt64) :
    (choose es 1 e.deliverAt 0 1 rng).1 < (e :: es).length := by
  obtain ⟨ev, hat, -⟩ := choose_cons_earliest e es rng
  exact (List.getElem?_eq_some_iff.mp hat).1

/-! ## 2. A step -/

/-- **What a step does.** It takes out an event no later than any queued one; that event and the
    events left are the queue, each as often; the clock moves up to the event's time if it is
    behind; the numbering stays. -/
theorem step_eq_some {s s' : Scheduler} {e : Event} (h : s.step = some (e, s')) :
    (e :: s'.queue).Perm s.queue ∧ (∀ e' ∈ s.queue, e.deliverAt ≤ e'.deliverAt) ∧
      s'.now = max s.now e.deliverAt ∧ s'.nextSeq = s.nextSeq := by
  unfold step at h
  split at h
  · cases h
  · rename_i e₀ es hq
    dsimp only at h
    split at h
    · rename_i ev queue hsr
      simp only [Option.some.injEq, Prod.mk.injEq] at h
      obtain ⟨rfl, rfl⟩ := h
      obtain ⟨hat, hperm⟩ := perm_swapRemove hsr
      obtain ⟨ev', hat', hmin⟩ := choose_cons_earliest e₀ es s.rng
      -- the event taken out is the one the scan chose
      obtain rfl : ev' = ev := Option.some.inj (hat'.symm.trans (hq ▸ hat))
      exact ⟨hq ▸ hperm, hq ▸ hmin, rfl, rfl⟩
    · cases h

/-- A step delivers nothing exactly when the queue is empty. -/
theorem step_eq_none_iff {s : Scheduler} : s.step = none ↔ s.queue = [] := by
  constructor
  · intro h
    unfold step at h
    split at h
    · assumption
    · rename_i e₀ es hq
      dsimp only at h
      split at h
      · cases h
      · rename_i hsr
        -- the chosen index is in the queue, so `swapRemove` finds it
        have hlt := choose_cons_lt_length e₀ es s.rng
        have := (swapRemove_eq_none_iff _ _).mp hsr
        rw [hq] at this
        omega
  · intro h
    unfold step
    rw [h]

theorem step_now_le {s s' : Scheduler} {e : Event} (h : s.step = some (e, s')) :
    s.now ≤ s'.now ∧ e.deliverAt ≤ s'.now := by
  rw [(step_eq_some h).2.2.1, UInt64.le_iff_toNat_le, UInt64.le_iff_toNat_le, UInt64.toNat_max]
  omega

/-! ## 3. Scheduling and moving the clock -/

theorem addTime_eq_some {t d u : UInt64} (h : addTime t d = some u) :
    u.toNat = t.toNat + d.toNat := by
  unfold addTime at h
  split at h
  · rename_i hlt
    cases h
    rw [UInt64.toNat_add, Nat.mod_eq_of_lt hlt]
  · cases h

/-- A granted request to schedule queues, at the end, the event for the actor at the clock plus
    the delay (with no wrap) and numbered by the counter, and moves the counter on. -/
theorem schedule_eq_ok {s s' : Scheduler} {a : ActorId} {d : UInt64} {e : Event}
    (h : s.schedule a d = .ok (e, s')) :
    e.actor = a ∧ e.deliverAt.toNat = s.now.toNat + d.toNat ∧ e.seq = s.nextSeq ∧
      s' = { s with nextSeq := s.nextSeq + 1, queue := s.queue ++ [e] } := by
  unfold schedule at h
  split at h
  · rename_i due hdue
    simp only [Except.ok.injEq, Prod.mk.injEq] at h
    obtain ⟨rfl, rfl⟩ := h
    exact ⟨rfl, addTime_eq_some hdue, rfl, rfl⟩
  · cases h

/-- A granted request to move the clock adds the delta to it, with no wrap, and changes nothing
    else. -/
theorem advance_eq_ok {s s' : Scheduler} {d : UInt64} (h : s.advance d = .ok s') :
    s'.now.toNat = s.now.toNat + d.toNat ∧ s' = { s with now := s'.now } := by
  unfold advance at h
  split at h
  · rename_i now hnow
    cases h
    exact ⟨addTime_eq_some hnow, rfl⟩
  · cases h

/-! ## 4. Draining the queue -/

/-- A drain on a scheduler with nothing to deliver hands out nothing and changes nothing. -/
theorem runUntilIdle_of_step_none {s : Scheduler} (h : s.step = none) :
    s.runUntilIdle = ([], s) := by
  rw [runUntilIdle]
  split
  · rfl
  · rename_i e s' h'
    rw [h] at h'
    cases h'

/-- Otherwise it delivers what one step delivers, then drains the scheduler after that step. -/
theorem runUntilIdle_of_step_some {s s' : Scheduler} {e : Event} (h : s.step = some (e, s')) :
    s.runUntilIdle = ((e, s'.now) :: s'.runUntilIdle.1, s'.runUntilIdle.2) := by
  rw [runUntilIdle]
  split
  · rename_i h'
    rw [h] at h'
    cases h'
  · rename_i e' s'' h'
    rw [h] at h'
    obtain ⟨rfl, rfl⟩ := Prod.mk.inj (Option.some.inj h')
    rfl

/-- **A drain delivers each queued event once.** The events `runUntilIdle` hands out are the
    queue, each as often, as many as were pending, and the queue is empty after it. -/
theorem runUntilIdle_perm (s : Scheduler) :
    (s.runUntilIdle.1.map Prod.fst).Perm s.queue ∧ s.runUntilIdle.1.length = s.pending ∧
      s.runUntilIdle.2.queue = [] := by
  have hperm : (s.runUntilIdle.1.map Prod.fst).Perm s.queue ∧ s.runUntilIdle.2.queue = [] := by
    fun_induction runUntilIdle s with
    | case1 s h =>
      rw [step_eq_none_iff.mp h]
      exact ⟨List.Perm.refl _, rfl⟩
    | case2 s e s' h _ rest final hrun ih =>
      rw [hrun] at ih
      exact ⟨(ih.1.cons e).trans (step_eq_some h).1, ih.2⟩
  refine ⟨hperm.1, ?_, hperm.2⟩
  simpa [pending] using hperm.1.length_eq

end Scheduler

end Frond
