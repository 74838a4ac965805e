import Frond.Proofs.Scheduler.Step

/-!
# Sessions: delivery order and conservation of events

A program drives the scheduler by a sequence of calls, in any order: it schedules actors, moves
the clock, draws random numbers, steps and drains. A `Session` follows such a sequence and
records the events the granted schedule requests created, in order, and the events delivered,
each with the clock just after its delivery.

* `Session.call`, `Session.run`: one call, and a whole sequence of calls from a seed.
* `drain_induction`: a drain is a run of steps, so what every step keeps a drain keeps.
* `InOrder`: deliveries so far came in order of time and none is later than the clock or any
  queued event; kept by every call.
* `Conserved`: every event created is delivered or queued, exactly once, and the events are
  numbered in the order they were created; kept by every call.
* `delivery_order`: the clock never goes back, every step delivers an earliest event, and the
  delivery times of a whole session never decrease.
* `events_conserved`: no event is lost or delivered twice, the `i`th event created is numbered
  `i`, and a drain delivers all that is pending.
-/

namespace Frond

/-- A call on the scheduler's interface. A request to schedule or to move the clock may be
    refused, and then changes nothing. -/
inductive Scheduler.Call
  | schedule (actor : ActorId) (delay : UInt64)
  | advance (delta : UInt64)
  | nextU64
  | nextBelow (limit : UInt32)
  | step
  | runUntilIdle
  deriving DecidableEq, Repr

/-- A session so far: the scheduler, the events created by the granted schedule requests in the
    order they were granted, and the events delivered, each with the clock just after it. -/
structure Session where
  sched : Scheduler
  created : List Event
  delivered : List (Event × UInt64)

namespace Session

open Scheduler (Call)

/-- A fresh scheduler from a seed, with nothing created or delivered. -/
def start (seed : UInt64) : Session := ⟨Scheduler.create seed, [], []⟩

/-- The session after one more call. -/
def call (t : Session) : Call → Session
  | .schedule a d =>
    match t.sched.schedule a d with
    | .ok (e, s) => ⟨s, t.created ++ [e], t.delivered⟩
    | .error _ => t
  | .advance d =>
    match t.sched.advance d with
    | .ok s => { t with sched := s }
    | .error _ => t
  | .nextU64 => { t with sched := t.sched.nextU64.2 }
  | .nextBelow k => { t with sched := (t.sched.nextBelow k).2 }
  | .step =>
    match t.sched.step with
    | some (e, s) => ⟨s, t.created, t.delivered ++ [(e, s.now)]⟩
    | none => t
  | .runUntilIdle => ⟨t.sched.runUntilIdle.2, t.created, t.delivered ++ t.sched.runUntilIdle.1⟩

/-- The session after a sequence of calls on a fresh scheduler. -/
def run (seed : UInt64) (calls : List Call) : Session := calls.foldl call (start seed)

/-! ## 1. What one call does -/

theorem call_step_of_some {t : Session} {e : Event} {s : Scheduler}
    (h : t.sched.step = some (e, s)) :
    t.call .step = ⟨s, t.created, t.delivered ++ [(e, s.now)]⟩ := by
  simp [call, h]

theorem call_step_of_none {t : Session} (h : t.sched.step = none) : t.call .step = t := by
  simp [call, h]

/-- A step delivers one event or changes nothing, so it keeps what holds and what every delivery
    keeps. -/
theorem step_keeps {P : Session → Prop} {t : Session} (h : P t)
    (hdeliver : ∀ e s, t.sched.step = some (e, s) → P ⟨s, t.created, t.delivered ++ [(e, s.now)]⟩) :
    P (t.call .step) := by
  cases hs : t.sched.step with
  | none => rw [call_step_of_none hs]; exact h
  | some p =>
    obtain ⟨e, s⟩ := p
    rw [call_step_of_some hs]
    exact hdeliver e s hs

/-- **A drain is a run of steps.** What every step keeps, a drain keeps. -/
theorem drain_induction (P : Session → Prop) (hstep : ∀ t, P t → P (t.call .step))
    {t : Session} (h : P t) : P (t.call .runUntilIdle) := by
  -- induction along the drain of the scheduler, carrying the session that holds it
  suffices ∀ s t, t.sched = s → P t → P (t.call .runUntilIdle) from this _ t rfl h
  intro s
  fun_induction Scheduler.runUntilIdle s with
  | case1 s hs =>
    intro t ht hp
    subst ht
    have hdrain : t.call .runUntilIdle = t := by
      simp [call, Scheduler.runUntilIdle_of_step_none hs]
    rw [hdrain]
    exact hp
  | case2 s e s' hs _ rest final hrun ih =>
    intro t ht hp
    subst ht
    -- the drain delivers what the step does, then drains the scheduler after it
    have hdrain : t.call .runUntilIdle = (t.call .step).call .runUntilIdle := by
      simp [call, Scheduler.runUntilIdle_of_step_some hs, hs]
    rw [hdrain]
    exact ih (t.call .step) (by simp [call, hs]) (hstep t hp)

theorem call_invariant {P : Session → Prop} (hcall : ∀ t c, P t → P (t.call c)) :
    ∀ (calls : List Call) (t : Session), P t → P (calls.foldl call t) := by
  intro calls
  induction calls with
  | nil => exact fun _ h => h
  | cons c calls ih => exact fun t h => ih (t.call c) (hcall t c h)

/-! ## 2. The clock -/

theorem now_le_step (t : Session) : t.sched.now ≤ (t.call .step).sched.now := by
  cases hs : t.sched.step with
  | none => rw [call_step_of_none hs]; exact UInt64.le_refl _
  | some p =>
    obtain ⟨e, s⟩ := p
    rw [call_step_of_some hs]
    exact (Scheduler.step_now_le hs).1

/-- No call moves the clock back. -/
theorem now_le_call (t : Session) (c : Call) : t.sched.now ≤ (t.call c).sched.now := by
  cases c with
  | schedule a d =>
    simp only [call]
    split
    · rename_i e s hs
      rw [(Scheduler.schedule_eq_ok hs).2.2.2]
      exact UInt64.le_refl _
    · exact UInt64.le_refl _
  | advance d =>
    simp only [call]
    split
    · rename_i s hs
      rw [UInt64.le_iff_toNat_le, (Scheduler.advance_eq_ok hs).1]
      omega
    · exact UInt64.le_refl _
  | nextU64 => exact UInt64.le_refl _
  | nextBelow k => exact UInt64.le_refl _
  | step => exact now_le_step t
  | runUntilIdle =>
    exact drain_induction (fun t' => t.sched.now ≤ t'.sched.now)
      (fun t' h => UInt64.le_trans h (now_le_step t')) (UInt64.le_refl _)

theorem now_le_foldl (calls : List Call) (t : Session) :
    t.sched.now ≤ (calls.foldl call t).sched.now := by
  induction calls generalizing t with
  | nil => exact UInt64.le_refl _
  | cons c calls ih => exact UInt64.le_trans (now_le_call t c) (ih (t.call c))

/-! ## 3. Deliveries come in order of time -/

/-- Deliveries so far came in order of time, each no later than the clock just after it, and
    none is later than the clock or than any event still queued. -/
structure InOrder (t : Session) : Prop where
  sorted : (t.delivered.map (·.1.deliverAt)).Pairwise (· ≤ ·)
  due : ∀ p ∈ t.delivered, p.1.deliverAt ≤ p.2
  le_now : ∀ p ∈ t.delivered, p.1.deliverAt ≤ t.sched.now
  le_queued : ∀ p ∈ t.delivered, ∀ e ∈ t.sched.queue, p.1.deliverAt ≤ e.deliverAt

theorem inOrder_start (seed : UInt64) : (start seed).InOrder :=
  ⟨List.Pairwise.nil, nofun, nofun, nofun⟩

/-- The order depends only on the deliveries, the clock and the queue. -/
theorem InOrder.of_eq {t t' : Session} (h : t.InOrder) (hd : t'.delivered = t.delivered)
    (hnow : t'.sched.now = t.sched.now) (hq : t'.sched.queue = t.sched.queue) : t'.InOrder := by
  obtain ⟨hsorted, hdue, hle, hqueued⟩ := h
  refine ⟨?_, ?_, ?_, ?_⟩ <;> rw [hd]
  · exact hsorted
  · exact hdue
  · rw [hnow]; exact hle
  · rw [hq]; exact hqueued

/-- **A step keeps the order**: the event it delivers is no earlier than any delivered before,
    since those were no later than it while it was queued. -/
theorem InOrder.step {t : Session} (h : t.InOrder) : (t.call .step).InOrder := by
  refine step_keeps h fun e s hs => ?_
  obtain ⟨hperm, hmin, -, -⟩ := Scheduler.step_eq_some hs
  obtain ⟨hnow, hdue⟩ := Scheduler.step_now_le hs
  have he : e ∈ t.sched.queue := hperm.subset List.mem_cons_self
  have hleft : ∀ e' ∈ s.queue, e' ∈ t.sched.queue := fun e' he' =>
    hperm.subset (List.mem_cons_of_mem e he')
  refine ⟨?_, ?_, ?_, ?_⟩
  · simp only [List.map_append, List.map_cons, List.map_nil]
    refine List.pairwise_append.mpr ⟨h.sorted, List.pairwise_singleton _ _, ?_⟩
    intro a ha b hb
    obtain ⟨p, hp, rfl⟩ := List.mem_map.mp ha
    obtain rfl := List.mem_singleton.mp hb
    exact h.le_queued p hp e he
  · intro p hp
    rcases List.mem_append.mp hp with hp | hp
    · exact h.due p hp
    · obtain rfl := List.mem_singleton.mp hp
      exact hdue
  · intro p hp
    rcases List.mem_append.mp hp with hp | hp
    · exact UInt64.le_trans (h.le_now p hp) hnow
    · obtain rfl := List.mem_singleton.mp hp
      exact hdue
  · intro p hp e' he'
    rcases List.mem_append.mp hp with hp | hp
    · exact h.le_queued p hp e' (hleft e' he')
    · obtain rfl := List.mem_singleton.mp hp
      exact hmin e' (hleft e' he')

/-- **Every call keeps the order.** Scheduling queues an event no earlier than the clock, moving
    the clock only raises it, draws touch neither, and a drain is a run of steps. -/
theorem InOrder.call {t : Session} (h : t.InOrder) (c : Call) : (t.call c).InOrder := by
  cases c with
  | schedule a d =>
    simp only [Session.call]
    split
    · rename_i e s hs
      obtain ⟨-, hdue, -, rfl⟩ := Scheduler.schedule_eq_ok hs
      refine ⟨h.sorted, h.due, h.le_now, ?_⟩
      intro p hp e' he'
      rcases List.mem_append.mp he' with he' | he'
      · exact h.le_queued p hp e' he'
      · obtain rfl := List.mem_singleton.mp he'
        have := h.le_now p hp
        rw [UInt64.le_iff_toNat_le] at this ⊢
        omega
    · exact h
  | advance d =>
    simp only [Session.call]
    split
    · rename_i s hs
      obtain ⟨hnow, hs'⟩ := Scheduler.advance_eq_ok hs
      refine ⟨h.sorted, h.due, fun p hp => ?_, fun p hp e' he' => ?_⟩
      · have := h.le_now p hp
        show p.1.deliverAt ≤ s.now
        rw [UInt64.le_iff_toNat_le] at this ⊢
        omega
      · rw [hs'] at he'
        exact h.le_queued p hp e' he'
    · exact h
  | nextU64 => exact h.of_eq rfl rfl rfl
  | nextBelow k => exact h.of_eq rfl rfl rfl
  | step => exact h.step
  | runUntilIdle => exact drain_induction InOrder (fun _ ht => ht.step) h

/-! ## 4. No event is lost or duplicated -/

/-- Every event created is delivered or still queued, each as often as it was created; the
    events are numbered `0, 1, 2, …` in the order they were created; and the counter holds the
    next number. -/
structure Conserved (t : Session) : Prop where
  perm : (t.delivered.map Prod.fst ++ t.sched.queue).Perm t.created
  numbered : t.created.map Event.seq = (List.range t.created.length).map Nat.toUInt64
  next : t.sched.nextSeq = t.created.length.toUInt64

theorem conserved_start (seed : UInt64) : (start seed).Conserved :=
  ⟨List.Perm.nil, rfl, rfl⟩

/-- What is conserved depends only on the events created and delivered, the queue and the
    counter. -/
theorem Conserved.of_eq {t t' : Session} (h : t.Conserved) (hc : t'.created = t.created)
    (hd : t'.delivered = t.delivered) (hq : t'.sched.queue = t.sched.queue)
    (hn : t'.sched.nextSeq = t.sched.nextSeq) : t'.Conserved := by
  obtain ⟨hperm, hnum, hnext⟩ := h
  refine ⟨?_, ?_, ?_⟩ <;> rw [hc]
  · rw [hd, hq]; exact hperm
  · exact hnum
  · rw [hn]; exact hnext

theorem Conserved.step {t : Session} (h : t.Conserved) : (t.call .step).Conserved := by
  refine step_keeps h fun e s hs => ?_
  obtain ⟨hperm, -, -, hseq⟩ := Scheduler.step_eq_some hs
  refine ⟨?_, h.numbered, hseq.trans h.next⟩
  -- the delivered event moves from the queue to the end of the deliveries
  have : (t.delivered.map Prod.fst ++ e :: s.queue).Perm
      (t.delivered.map Prod.fst ++ t.sched.queue) := hperm.append_left _
  simpa using this.trans h.perm

/-- **Every call keeps every event.** A granted schedule creates an event, queues it and numbers
    it by the counter; a step moves an event from the queue to the deliveries; a drain is a run of
    steps; nothing else touches the queue or the counter. -/
theorem Conserved.call {t : Session} (h : t.Conserved) (c : Call) : (t.call c).Conserved := by
  cases c with
  | schedule a d =>
    simp only [Session.call]
    split
    · rename_i e s hs
      obtain ⟨-, -, hseq, rfl⟩ := Scheduler.schedule_eq_ok hs
      refine ⟨?_, ?_, ?_⟩
      · simpa [← List.append_assoc] using h.perm.append_right [e]
      · simp [h.numbered, hseq, h.next, List.range_succ]
      · simp [h.next]
    · exact h
  | advance d =>
    simp only [Session.call]
    split
    · rename_i s hs
      obtain ⟨-, hs'⟩ := Scheduler.advance_eq_ok hs
      exact h.of_eq rfl rfl (by rw [hs']) (by rw [hs'])
    · exact h
  | nextU64 => exact h.of_eq rfl rfl rfl rfl
  | nextBelow k => exact h.of_eq rfl rfl rfl rfl
  | step => exact h.step
  | runUntilIdle => exact drain_induction Conserved (fun _ ht => ht.step) h

/-- Fewer than `2 ^ 64` numbers `0, 1, …` stay apart as 64-bit words. -/
theorem nodup_range_toUInt64 {n : Nat} (hn : n ≤ 2 ^ 64) :
    ((List.range n).map Nat.toUInt64).Nodup := by
  refine (List.nodup_range).map_on ?_
  intro a ha b hb hab
  rw [List.mem_range] at ha hb
  have := congrArg UInt64.toNat hab
  simp only [Nat.toUInt64_eq, UInt64.toNat_ofNat'] at this
  rwa [Nat.mod_eq_of_lt (by omega), Nat.mod_eq_of_lt (by omega)] at this

/-! ## 5. Over whole sessions -/

theorem run_take_le (seed : UInt64) (calls : List Call) {i j : Nat} (hij : i ≤ j) :
    (run seed (calls.take i)).sched.now ≤ (run seed (calls.take j)).sched.now := by
  -- the longer prefix is the shorter one and some more calls
  have hsplit : calls.take j = calls.take i ++ (calls.take j).drop i := by
    have := List.take_append_drop i (calls.take j)
    rw [List.take_take, Nat.min_eq_left hij] at this
    exact this.symm
  unfold run
  rw [hsplit, List.foldl_append]
  exact now_le_foldl _ _

/-- **Delivery order.** Over any session from any seed, in any interleaving of calls: the clock
    never goes back; every step delivers an event that was queued and no later than any queued
    event, and leaves the clock at the later of its old value and the event's time, so at or
    after that time; and the times of all events delivered over the session, by steps and drains
    alike, never decrease. -/
theorem delivery_order (seed : UInt64) (calls : List Call) :
    (∀ i j, i ≤ j →
      (run seed (calls.take i)).sched.now ≤ (run seed (calls.take j)).sched.now) ∧
    (∀ (s s' : Scheduler) (e : Event), s.step = some (e, s') →
      e ∈ s.queue ∧ (∀ e' ∈ s.queue, e.deliverAt ≤ e'.deliverAt) ∧
        s'.now = max s.now e.deliverAt ∧ e.deliverAt ≤ s'.now) ∧
    ((run seed calls).delivered.map (·.1.deliverAt)).Pairwise (· ≤ ·) ∧
    ∀ p ∈ (run seed calls).delivered, p.1.deliverAt ≤ p.2 := by
  have horder : (run seed calls).InOrder :=
    call_invariant (fun _ c h => h.call c) calls _ (inOrder_start seed)
  refine ⟨fun i j hij => run_take_le seed calls hij, ?_, horder.sorted, horder.due⟩
  intro s s' e hs
  obtain ⟨hperm, hmin, hnow, -⟩ := Scheduler.step_eq_some hs
  exact ⟨hperm.subset List.mem_cons_self, hmin, hnow, (Scheduler.step_now_le hs).2⟩

/-- **No event lost or duplicated.** Over any session from any seed with fewer than `2 ^ 64`
    granted schedule requests: the `i`th event created is numbered `i`, and a granted request
    creates the event for its actor at the clock plus the delay, numbered by the counter; the
    events delivered and the events still queued are the events created, each exactly once; the
    number pending is the number created less the number delivered; and a drain hands out every
    pending event once, as many as were pending, and empties the queue. -/
theorem events_conserved (seed : UInt64) (calls : List Call) :
    let t := run seed calls
    t.created.length < 2 ^ 64 →
    (∀ i (h : i < t.created.length), t.created[i].seq.toNat = i) ∧
    (∀ (s s' : Scheduler) (a : ActorId) (d : UInt64) (e : Event),
      s.schedule a d = .ok (e, s') →
      e.actor = a ∧ e.deliverAt.toNat = s.now.toNat + d.toNat ∧ e.seq = s.nextSeq) ∧
    (t.delivered.map Prod.fst ++ t.sched.queue).Perm t.created ∧
    (t.delivered.map Prod.fst ++ t.sched.queue).Nodup ∧
    t.sched.pending = t.created.length - t.delivered.length ∧
    (∀ s : Scheduler, (s.runUntilIdle.1.map Prod.fst).Perm s.queue ∧
      s.runUntilIdle.1.length = s.pending ∧ s.runUntilIdle.2.queue = []) := by
  intro t hlen
  have hc : t.Conserved := call_invariant (fun _ c h => h.call c) calls _ (conserved_start seed)
  -- distinct numbers make distinct events
  have hnodup : t.created.Nodup := by
    have := nodup_range_toUInt64 (Nat.le_of_lt hlen)
    rw [← hc.numbered] at this
    exact this.of_map _
  refine ⟨?_, ?_, hc.perm, hc.perm.nodup_iff.mpr hnodup, ?_, Scheduler.runUntilIdle_perm⟩
  · intro i hi
    have := congrArg (·[i]?) hc.numbered
    simp only [List.getElem?_map, List.getElem?_range hi, List.getElem?_eq_getElem hi,
      Option.map_some, Option.some.injEq] at this
    rw [this, Nat.toUInt64_eq, UInt64.toNat_ofNat', Nat.mod_eq_of_lt (by omega)]
  · intro s s' a d e hs
    obtain ⟨ha, hdue, hseq, -⟩ := Scheduler.schedule_eq_ok hs
    exact ⟨ha, hdue, hseq⟩
  · have := hc.perm.length_eq
    simp only [List.length_append, List.length_map] at this
    simp only [Scheduler.pending]
    omega

/-- Two events scheduled, one stepped, the clock moved, one more scheduled, then a drain: the
    three events are accounted for. -/
theorem events_conserved_interleaved :
    let t := run 3 [.schedule 1 5, .schedule 2 1, .step, .advance 10, .schedule 3 0, .runUntilIdle]
    t.created.length < 2 ^ 64 ∧
    ((∀ i (h : i < t.created.length), t.created[i].seq.toNat = i) ∧
    (∀ (s s' : Scheduler) (a : ActorId) (d : UInt64) (e : Event),
      s.schedule a d = .ok (e, s') →
      e.actor = a ∧ e.deliverAt.toNat = s.now.toNat + d.toNat ∧ e.seq = s.nextSeq) ∧
    (t.delivered.map Prod.fst ++ t.sched.queue).Perm t.created ∧
    (t.delivered.map Prod.fst ++ t.sched.queue).Nodup ∧
    t.sched.pending = t.created.length - t.delivered.length ∧
    (∀ s : Scheduler, (s.runUntilIdle.1.map Prod.fst).Perm s.queue ∧
      s.runUntilIdle.1.length = s.pending ∧ s.runUntilIdle.2.queue = [])) :=
  have hlen : (run 3 [.schedule 1 5, .schedule 2 1, .step, .advance 10, .schedule 3 0,
    .runUntilIdle]).created.length < 2 ^ 64 := by decide
  ⟨hlen, events_conserved _ _ hlen⟩

end Session

end Frond
