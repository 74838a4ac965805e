import Frond.Proofs.Scheduler.Refusal
import Frond.Proofs.Scheduler.RandomState

/-!
# The scheduler in an arena runs as the scheduler with a list

The program keeps the scheduler's queue in a vector in an arena (`QueueStore.inArena`): the vector
is made with the scheduler, which the arena may refuse, and an append into a full vector needs a
region twice as large, which the arena may refuse too. A `SimSession` follows calls on that
scheduler as a `Session` follows calls on the scheduler whose queue is a list.

* `Sim.Tracks`: the scheduler in the arena stands for a list scheduler: its queue is a vector
  that stands for the list (`VecState.Refines`) in an arena of the standard host, and the
  generator, the clock and the sequence number are the same.
* `Sim.Tracks.trySchedule`, `Sim.Tracks.stepIn`, `Sim.Tracks.drainIn`: each call in the arena is
  the list scheduler's call, except a request to schedule whose append the arena refused, which
  changes nothing.
* `SimSession.Tracks.call`, `SimSession.Tracks.foldl`: so, call by call, the session in the
  arena stands for the list session of the same calls less those refused requests (`granted`).
* `inArena_runs_as_list`: from a scheduler made on an arena of the standard host, the session in
  the arena creates and delivers what that list session does, and its vector holds that
  session's queue; `inArena_in_order_and_conserved`: so it keeps the order of delivery, the
  events and a generator that never holds 0.
-/

namespace Frond

open Arena

namespace Sim

/-! ## 1. The drain, step by step -/

section Drain

variable {Q : Type} (st : QueueStore Q) {s s' s'' : Sim Q} {fuel : Nat}

theorem drainIn_succ_of_none (h : (stepIn st).run s = .ok none s') :
    (drainIn st (fuel + 1)).run s = .ok [] s' := by
  simp only [drainIn, EStateM.run_bind, h]
  rfl

theorem drainIn_succ_of_some {e : Event} {rest : List (Event × UInt64)}
    (h : (stepIn st).run s = .ok (some e) s') (hrest : (drainIn st fuel).run s' = .ok rest s'') :
    (drainIn st (fuel + 1)).run s = .ok ((e, s'.now) :: rest) s'' := by
  simp only [drainIn, EStateM.run_bind, h, EStateM.run_get, hrest]
  rfl

theorem runUntilIdleIn_run :
    (runUntilIdleIn st).run s = (drainIn st ((st.events s.queue).length + 1)).run s := by
  simp only [runUntilIdleIn, EStateM.run_bind, EStateM.run_get]

end Drain

/-! ## 2. The scheduler in the arena stands for a list scheduler -/

/-- The scheduler in an arena stands for the list scheduler `sc`, through the vector state `v`:
    its queue is `v`'s vector in `v`'s arena, an arena of the standard host in which the vector
    stands for `v`'s list; and `sc` has that list for its queue, with the same generator, clock
    and sequence number. -/
structure Tracks (s : Sim (ArenaVec Event × Arena)) (v : VecState Event) (sc : Scheduler) :
    Prop where
  refines : v.Refines
  chain : StandardChain v.hist.arena
  queue : s.queue = (v.vec, v.hist.arena)
  sched : sc = ⟨s.rng, s.now, s.nextSeq, v.model⟩

namespace Tracks

variable {s : Sim (ArenaVec Event × Arena)} {v : VecState Event} {sc : Scheduler}

theorem events (h : Tracks s v sc) : QueueStore.inArena.events s.queue = sc.queue := by
  rw [h.queue, h.sched]
  exact h.refines.asSlice_eq

theorem now_eq (h : Tracks s v sc) : sc.now = s.now := by
  rw [h.sched]

/-- After an operation of the vector, a scheduler whose queue is the vector where the operation
    left it stands for the list scheduler with the operation's list. -/
theorem vecCall (h : Tracks s v sc) (c : VecCall Event) (s' : Sim (ArenaVec Event × Arena))
    (hq : s'.queue = ((v.call c).vec, (v.call c).hist.arena)) :
    Tracks s' (v.call c) ⟨s'.rng, s'.now, s'.nextSeq, (v.call c).model⟩ :=
  have hchain := VecState.standardChain_call h.chain c
  ⟨h.refines.call c hchain.placed, hchain, hq, rfl⟩

/-- A push the arena granted: the vector it leaves stands for the list with the event appended. -/
theorem push (h : Tracks s v sc) {e : Event} {q : ArenaVec Event × Arena}
    (hpush : v.vec.push v.hist.arena e = .ok q) (s' : Sim (ArenaVec Event × Arena))
    (hq : s'.queue = q) :
    Tracks s' (v.call (.push e)) ⟨s'.rng, s'.now, s'.nextSeq, v.model ++ [e]⟩ := by
  have h' := h.vecCall (.push e) s' (by simp [VecState.call, hpush, hq])
  simpa [VecState.call, hpush] using h'

/-- A swap removal in the vector: the vector it leaves stands for what it reads back. -/
theorem swapRemove (h : Tracks s v sc) {j : Nat} {ev : Event} {w : ArenaVec Event} {a' : Arena}
    (hvs : v.vec.swapRemove? v.hist.arena j = some (ev, w, a'))
    (s' : Sim (ArenaVec Event × Arena)) (hq : s'.queue = (w, a')) :
    Tracks s' (v.call (.swapRemove j)) ⟨s'.rng, s'.now, s'.nextSeq, w.asSlice a'⟩ := by
  have hcall : (v.call (.swapRemove j)).vec = w ∧ (v.call (.swapRemove j)).hist.arena = a' := by
    simp [VecState.call, hvs]
  have h' := h.vecCall (.swapRemove j) s' (by rw [hq, hcall.1, hcall.2])
  have hmodel : (v.call (.swapRemove j)).model = w.asSlice a' := by
    rw [← h'.refines.asSlice_eq, hcall.1, hcall.2]
  rwa [hmodel] at h'

theorem withRng (h : Tracks s v sc) (r : UInt64 → UInt64) :
    Tracks { s with rng := r s.rng } v { sc with rng := r sc.rng } := by
  obtain ⟨hr, hc, hq, rfl⟩ := h
  exact ⟨hr, hc, hq, rfl⟩

theorem nextU64 (h : Tracks s v sc) : Tracks s.nextU64.2 v sc.nextU64.2 :=
  h.withRng fun x => (Random.draw x).2

theorem nextBelow (h : Tracks s v sc) (k : UInt32) :
    Tracks (s.nextBelow k).2 v (sc.nextBelow k).2 :=
  h.withRng fun x => (Random.drawBelow x k).2

/-- Moving the clock in the arena is moving the list scheduler's clock, and a refusal changes
    nothing. -/
theorem advanceOk (h : Tracks s v sc) (d : UInt64) :
    match sc.advance d with
    | .ok sc' => Tracks (Sim.advanceOk d s).2 v sc'
    | .error _ => (Sim.advanceOk d s).2 = s := by
  obtain ⟨hr, hc, hq, rfl⟩ := h
  unfold Scheduler.advance Sim.advanceOk
  rw [tryAdvance_run]
  dsimp only
  cases Scheduler.addTime s.now d with
  | none => rfl
  | some now => exact ⟨hr, hc, hq, rfl⟩

/-- A request to schedule in the arena is the list scheduler's request: refused for the same
    deadline; and once the deadline is granted, either the arena refuses the append and nothing
    changes, or the event is pushed onto the vector. -/
theorem trySchedule (h : Tracks s v sc) (a : ActorId) (d : UInt64) :
    match sc.schedule a d with
    | .error err => (Sim.trySchedule .inArena a d).run s = .error (.sched err) s
    | .ok (e, sc') => (∃ err, (Sim.trySchedule .inArena a d).run s = .error (.alloc err) s) ∨
        ∃ s', (Sim.trySchedule .inArena a d).run s = .ok e s' ∧
          Tracks s' (v.call (.push e)) sc' := by
  obtain ⟨hr, hc, hq, rfl⟩ := h
  rw [trySchedule_run]
  unfold Scheduler.schedule
  dsimp only
  cases Scheduler.addTime s.now d with
  | none => rfl
  | some due =>
    dsimp only
    rw [hq]
    cases hpush : v.vec.push v.hist.arena ⟨a, due, s.nextSeq⟩ with
    | error err => exact .inl ⟨err, by simp only [QueueStore.inArena, hpush]⟩
    | ok q =>
      simp only [QueueStore.inArena, hpush]
      exact .inr ⟨_, rfl, Tracks.push ⟨hr, hc, hq, rfl⟩ hpush _ rfl⟩

/-- A step in the arena is the list scheduler's step: the same draws, the same event taken out,
    and the vector left holding the list without it. -/
theorem stepIn (h : Tracks s v sc) :
    match sc.step with
    | none => (Sim.stepIn .inArena).run s = .ok none s
    | some (e, sc') => ∃ s' v', (Sim.stepIn .inArena).run s = .ok (some e) s' ∧
        Tracks s' v' sc' := by
  have hev := h.events
  obtain ⟨hr, hc, hq, rfl⟩ := h
  rw [stepIn_run, hev]
  unfold Scheduler.step
  dsimp only
  cases hm : v.model with
  | nil => rfl
  | cons e es =>
    dsimp only
    rw [hq]
    have hlt := Scheduler.choose_cons_lt_length e es s.rng
    set pick := Scheduler.choose es 1 e.deliverAt 0 1 s.rng
    -- the vector removes what the list removes
    have hsr := hr.swapRemove?_eq pick.1
    rw [hm] at hsr
    cases hvs : v.vec.swapRemove? v.hist.arena pick.1 with
    | none =>
      rw [hvs, Option.map_none, eq_comm, swapRemove_eq_none_iff] at hsr
      exact absurd hsr (Nat.not_le_of_lt hlt)
    | some r =>
      obtain ⟨ev, w, a'⟩ := r
      rw [hvs, Option.map_some] at hsr
      simp only [QueueStore.inArena, hvs, Option.map_some, ← hsr]
      exact ⟨_, _, rfl, Tracks.swapRemove ⟨hr, hc, hq, rfl⟩ hvs _ rfl⟩

/-- A drain in the arena with fuel past the number of queued events delivers what the list
    scheduler's drain delivers. The induction is on the fuel, which each delivery takes one of,
    as it takes one event out of the queue. -/
theorem drainIn (h : Tracks s v sc) {fuel : Nat} (hfuel : sc.queue.length < fuel) :
    ∃ s' v', (Sim.drainIn .inArena fuel).run s = .ok sc.runUntilIdle.1 s' ∧
      Tracks s' v' sc.runUntilIdle.2 := by
  induction fuel generalizing s v sc with
  | zero => exact absurd hfuel (Nat.not_lt_zero _)
  | succ fuel ih =>
    have hstep := h.stepIn
    cases hs : sc.step with
    | none =>
      rw [hs] at hstep
      rw [Scheduler.runUntilIdle_of_step_none hs]
      exact ⟨s, v, drainIn_succ_of_none .inArena hstep, h⟩
    | some p =>
      obtain ⟨e, sc'⟩ := p
      rw [hs] at hstep
      obtain ⟨s', v', hrun, h'⟩ := hstep
      have hlen := Scheduler.step_queue_length hs
      obtain ⟨s'', v'', hrest, h''⟩ := ih h' (by omega)
      rw [Scheduler.runUntilIdle_of_step_some hs, h'.now_eq]
      exact ⟨s'', v'', drainIn_succ_of_some .inArena hrun hrest, h''⟩

theorem runUntilIdleIn (h : Tracks s v sc) :
    ∃ s' v', (Sim.runUntilIdleIn .inArena).run s = .ok sc.runUntilIdle.1 s' ∧
      Tracks s' v' sc.runUntilIdle.2 := by
  rw [runUntilIdleIn_run, h.events]
  exact h.drainIn (Nat.lt_succ_self _)

end Tracks

end Sim

/-! ## 3. Sessions in the arena -/

/-- A session on the scheduler changed in place: the scheduler, the events created by the
    granted requests to schedule, and the events delivered, each with the clock just after it. -/
structure SimSession (Q : Type) where
  sim : Sim Q
  created : List Event
  delivered : List (Event × UInt64)

namespace SimSession

variable {Q : Type} (st : QueueStore Q)

/-- The session after one more call, made as the program makes it. -/
def call (u : SimSession Q) : Scheduler.Call → SimSession Q
  | .schedule a d =>
    match (Sim.trySchedule st a d).run u.sim with
    | .ok e s => ⟨s, u.created ++ [e], u.delivered⟩
    | .error _ s => { u with sim := s }
  | .advance d => { u with sim := (Sim.advanceOk d u.sim).2 }
  | .nextU64 => { u with sim := u.sim.nextU64.2 }
  | .nextBelow k => { u with sim := (u.sim.nextBelow k).2 }
  | .step =>
    match (Sim.stepIn st).run u.sim with
    | .ok (some e) s => ⟨s, u.created, u.delivered ++ [(e, s.now)]⟩
    | .ok none s => { u with sim := s }
    | .error _ s => { u with sim := s }
  | .runUntilIdle =>
    match (Sim.runUntilIdleIn st).run u.sim with
    | .ok evs s => ⟨s, u.created, u.delivered ++ evs⟩
    | .error _ s => { u with sim := s }

/-- Whether a call is a request to schedule whose append the store refused. -/
def appendRefused (u : SimSession Q) : Scheduler.Call → Bool
  | .schedule a d =>
    match (Sim.trySchedule st a d).run u.sim with
    | .error (.alloc _) _ => true
    | _ => false
  | _ => false

/-- The calls of a run from `u`, less the requests to schedule whose append the store refused. -/
def granted (u : SimSession Q) : List Scheduler.Call → List Scheduler.Call
  | [] => []
  | c :: cs => (if u.appendRefused st c then [] else [c]) ++ granted (u.call st c) cs

theorem granted_sublist (u : SimSession Q) (calls : List Scheduler.Call) :
    List.Sublist (u.granted st calls) calls := by
  induction calls generalizing u with
  | nil => exact List.Sublist.slnil
  | cons c calls ih =>
    rw [granted]
    split
    · exact (ih (u.call st c)).cons c
    · exact (ih (u.call st c)).cons_cons c

/-- The session in the arena stands for the list session `t`: the scheduler for `t`'s scheduler
    through `v`, and the same events created and delivered. -/
structure Tracks (u : SimSession (ArenaVec Event × Arena)) (v : VecState Event) (t : Session) :
    Prop where
  sim : u.sim.Tracks v t.sched
  created : u.created = t.created
  delivered : u.delivered = t.delivered

namespace Tracks

variable {u : SimSession (ArenaVec Event × Arena)} {v : VecState Event} {t : Session}

theorem schedule (h : Tracks u v t) (a : ActorId) (d : UInt64) :
    ∃ v', Tracks (u.call .inArena (.schedule a d)) v'
      (if u.appendRefused .inArena (.schedule a d) then t else t.call (.schedule a d)) := by
  have hs := h.sim.trySchedule a d
  cases hsch : t.sched.schedule a d with
  | error err =>
    rw [hsch] at hs
    simp only [call, appendRefused, hs, Session.call, hsch]
    exact ⟨v, h⟩
  | ok p =>
    obtain ⟨e, sc'⟩ := p
    rw [hsch] at hs
    rcases hs with ⟨err, hrun⟩ | ⟨s', hrun, hs'⟩
    · simp only [call, appendRefused, hrun, if_true]
      exact ⟨v, h⟩
    · simp only [call, appendRefused, hrun, Bool.false_eq_true, if_false, Session.call, hsch]
      exact ⟨_, hs', by rw [h.created], h.delivered⟩

theorem advance (h : Tracks u v t) (d : UInt64) :
    Tracks (u.call .inArena (.advance d)) v (t.call (.advance d)) := by
  have hs := h.sim.advanceOk d
  simp only [call, Session.call]
  cases hadv : t.sched.advance d with
  | ok sc' =>
    rw [hadv] at hs
    exact ⟨hs, h.created, h.delivered⟩
  | error err =>
    rw [hadv] at hs
    rw [hs]
    exact h

theorem step (h : Tracks u v t) : ∃ v', Tracks (u.call .inArena .step) v' (t.call .step) := by
  have hs := h.sim.stepIn
  cases hst : t.sched.step with
  | none =>
    rw [hst] at hs
    rw [Session.call_step_of_none hst]
    simp only [call, hs]
    exact ⟨v, h⟩
  | some p =>
    obtain ⟨e, sc'⟩ := p
    rw [hst] at hs
    obtain ⟨s', v', hrun, hs'⟩ := hs
    rw [Session.call_step_of_some hst]
    simp only [call, hrun]
    exact ⟨v', hs', h.created, by rw [h.delivered, hs'.now_eq]⟩

theorem runUntilIdle (h : Tracks u v t) :
    ∃ v', Tracks (u.call .inArena .runUntilIdle) v' (t.call .runUntilIdle) := by
  obtain ⟨s', v', hrun, hs'⟩ := h.sim.runUntilIdleIn
  simp only [call, Session.call, hrun]
  exact ⟨v', hs', h.created, by rw [h.delivered]⟩

/-- Each call keeps the session in the arena standing for the list session that makes the same
    call, or, for a request whose append the arena refused, no call. Only a request to schedule
    can be refused so. -/
theorem call (h : Tracks u v t) (c : Scheduler.Call) :
    ∃ v', Tracks (u.call .inArena c) v'
      (if u.appendRefused .inArena c then t else t.call c) := by
  cases c with
  | schedule a d => exact h.schedule a d
  | advance d => exact ⟨v, h.advance d⟩
  | nextU64 => exact ⟨v, h.sim.nextU64, h.created, h.delivered⟩
  | nextBelow k => exact ⟨v, h.sim.nextBelow k, h.created, h.delivered⟩
  | step => exact h.step
  | runUntilIdle => exact h.runUntilIdle

theorem foldl (h : Tracks u v t) (calls : List Scheduler.Call) :
    ∃ v', Tracks (calls.foldl (SimSession.call .inArena) u) v'
      ((u.granted .inArena calls).foldl Session.call t) := by
  induction calls generalizing u v t with
  | nil => exact ⟨v, h⟩
  | cons c calls ih =>
    obtain ⟨v₁, h₁⟩ := h.call c
    obtain ⟨v', h'⟩ := ih h₁
    -- the list session makes the call exactly when the arena did not refuse it
    have hfirst : (if u.appendRefused .inArena c then [] else [c]).foldl Session.call t =
        if u.appendRefused .inArena c then t else t.call c := by
      split <;> rfl
    refine ⟨v', ?_⟩
    rw [List.foldl_cons, granted, List.foldl_append, hfirst]
    exact h'

end Tracks

/-- A scheduler just made on an arena of the standard host, after any requests of that arena,
    stands for the list scheduler of the same seed. -/
theorem tracks_start {blockSize : Nat} {a₀ : Arena}
    {s₀ : Sim (ArenaVec Event × Arena)} (pre : List Arena.Call) (seed : UInt64)
    (hcreate : create .standard blockSize = .ok a₀)
    (hsim : Sim.create (History.run a₀ pre).arena seed = .ok s₀) :
    ∃ v, Tracks ⟨s₀, [], []⟩ v (Session.start seed) := by
  unfold Sim.create at hsim
  cases hc : ArenaVec.create (History.run a₀ pre).arena Event.layout with
  | error e =>
    rw [hc] at hsim
    cases hsim
  | ok q =>
    obtain ⟨vec, a⟩ := q
    rw [hc] at hsim
    cases hsim
    obtain ⟨v, hstart, hvec, ha, hmodel⟩ : ∃ v, VecState.start (History.run a₀ pre) Event.layout =
        some v ∧ v.vec = vec ∧ v.hist.arena = a ∧ v.model = [] :=
      ⟨⟨⟨a, (History.run a₀ pre).grants ++ (History.run a₀ pre).grantOf
        (Event.layout.size * ArenaVec.initialCapacity) Event.layout.align⟩, vec, []⟩,
        by simp only [VecState.start, hc], rfl, rfl, rfl⟩
    -- the vector's region is the arena's next grant, on a chain of the standard host
    have hchain : StandardChain v.hist.arena := by
      obtain ⟨r, a', -, rfl⟩ := VecState.start_eq_some hstart
      exact (standardChain_run hcreate pre).call _
    have hsound := (History.sound_create hcreate).foldl pre (standard_placed hcreate pre)
    refine ⟨v, ⟨VecState.refines_start hsound hstart hchain.placed, hchain, ?_, ?_⟩, rfl, rfl⟩
    · rw [hvec, ha]
    · rw [hmodel]
      rfl

end SimSession

/-- **The scheduler in an arena runs as the scheduler with a list.** Make the scheduler on an
    arena of the standard host, after any requests of that arena, and make any calls on it. The
    arena may refuse to grow the queue; a request to schedule so refused changes nothing. The
    session then ends where the list session of the same seed ends after the same calls less
    those refused requests: with the same events created, the same events delivered at the same
    clocks, the same generator, clock and sequence number, and a vector that holds the list
    session's queue. -/
theorem inArena_runs_as_list {blockSize : Nat} {a₀ : Arena}
    {s₀ : Sim (ArenaVec Event × Arena)} (pre : List Arena.Call) (seed : UInt64)
    (calls : List Scheduler.Call) (hcreate : create .standard blockSize = .ok a₀)
    (hsim : Sim.create (History.run a₀ pre).arena seed = .ok s₀) :
    let u := calls.foldl (SimSession.call .inArena) ⟨s₀, [], []⟩
    let t := Session.run seed (SimSession.granted .inArena ⟨s₀, [], []⟩ calls)
    u.created = t.created ∧ u.delivered = t.delivered ∧ u.sim.rng = t.sched.rng ∧
      u.sim.now = t.sched.now ∧ u.sim.nextSeq = t.sched.nextSeq ∧
      QueueStore.inArena.events u.sim.queue = t.sched.queue := by
  intro u t
  obtain ⟨v₀, h₀⟩ := SimSession.tracks_start pre seed hcreate hsim
  obtain ⟨v, h⟩ := h₀.foldl calls
  have hq := h.sim.events
  obtain ⟨-, -, -, hsched⟩ := h.sim
  exact ⟨h.created, h.delivered, (congrArg Scheduler.rng hsched).symm,
    (congrArg Scheduler.now hsched).symm, (congrArg Scheduler.nextSeq hsched).symm, hq⟩

open Allocator (heapStart) in
/- The program's arena, fresh from the standard host, grants the scheduler its queue. -/
example : create .standard 4096 =
      .ok ⟨#[⟨heapStart, 4096, 0⟩], 0, 4096, 0, .standard, Memory.blank.fill heapStart 4096⟩ ∧
    (Sim.create (History.run ⟨#[⟨heapStart, 4096, 0⟩], 0, 4096, 0, .standard,
      Memory.blank.fill heapStart 4096⟩ []).arena 42).toBool = true :=
  ⟨rfl, by decide +kernel⟩

/-- So the scheduler in an arena keeps what every list session keeps, whatever the arena refuses:
    deliveries come in order of time, each no later than the clock just after it; every event
    created is delivered or still in the vector, exactly once, and numbered in the order it was
    created; and the generator never holds 0. -/
theorem inArena_in_order_and_conserved {blockSize : Nat} {a₀ : Arena}
    {s₀ : Sim (ArenaVec Event × Arena)} (pre : List Arena.Call) (seed : UInt64)
    (calls : List Scheduler.Call) (hcreate : create .standard blockSize = .ok a₀)
    (hsim : Sim.create (History.run a₀ pre).arena seed = .ok s₀) :
    let u := calls.foldl (SimSession.call .inArena) ⟨s₀, [], []⟩
    (u.delivered.map (·.1.deliverAt)).Pairwise (· ≤ ·) ∧
      (∀ p ∈ u.delivered, p.1.deliverAt ≤ p.2) ∧
      (u.delivered.map Prod.fst ++ QueueStore.inArena.events u.sim.queue).Perm u.created ∧
      u.created.map Event.seq = (List.range u.created.length).map Nat.toUInt64 ∧
      u.sim.rng ≠ 0 := by
  intro u
  obtain ⟨hc, hd, hrng, -, -, hq⟩ := inArena_runs_as_list pre seed calls hcreate hsim
  -- the list session of the granted calls keeps its invariants from the start
  set t := Session.run seed (SimSession.granted .inArena ⟨s₀, [], []⟩ calls)
  have hord : t.InOrder := Session.call_invariant (fun _ c h => h.call c) _ _
    (Session.inOrder_start seed)
  have hcons : t.Conserved := Session.call_invariant (fun _ c h => h.call c) _ _
    (Session.conserved_start seed)
  have hne : t.sched.rng ≠ 0 :=
    Session.call_invariant (P := fun t => t.sched.rng ≠ 0) (fun _ c h => Session.rng_ne_zero_call h c)
      _ _ (Random.normalizeSeed_ne_zero seed)
  rw [hc, hd, hq, hrng]
  exact ⟨hord.sorted, hord.due, hcons.perm, hcons.numbered, hne⟩

end Frond
