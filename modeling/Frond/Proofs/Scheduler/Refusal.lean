import Frond.Scheduler.InPlace
import Frond.Proofs.Scheduler.Step
import Frond.Proofs.Arena.VectorRefinement

/-!
# A refused call changes nothing

The scheduler's calls made in place (`Frond.Scheduler.InPlace`), over any store of the queue.

* `trySchedule_run`, `tryAdvance_run`, `stepIn_run`: each call as one function of the state it
  starts from, with every refusal before the first write.
* `trySchedule_list`, `tryAdvance_list`, `stepIn_list`: with the queue in a list the calls are
  `Scheduler.schedule`, `Scheduler.advance` and `Scheduler.step`.
* `trySchedule_inArena_alloc`: in an arena, an append is refused only when the vector is full.
* `refused_calls_change_nothing`: a deadline or a clock is refused exactly when the sum passes
  2^64 - 1; the calls that answer with a flag answer false exactly when the call is refused; a
  refused call, also one whose append the store refused, leaves the whole state as it was; and a
  step on an empty queue draws nothing and changes nothing.
-/

namespace Frond

namespace Scheduler

variable {t d u : UInt64}

theorem addTime_eq_none_iff : addTime t d = none ↔ 2 ^ 64 - 1 < t.toNat + d.toNat := by
  have hsize : UInt64.size = 2 ^ 64 := rfl
  unfold addTime
  by_cases h : t.toNat + d.toNat < UInt64.size
  · simp only [h, if_true, reduceCtorEq, false_iff]
    omega
  · simp only [h, if_false, true_iff]
    omega

theorem addTime_eq_some_add (h : addTime t d = some u) : u = t + d := by
  unfold addTime at h
  split at h
  · exact (Option.some.inj h).symm
  · cases h

theorem addTime_of_le (h : t.toNat + d.toNat ≤ 2 ^ 64 - 1) : addTime t d = some (t + d) := by
  have hsize : UInt64.size = 2 ^ 64 := rfl
  unfold addTime
  rw [if_pos (by omega)]

end Scheduler

namespace Sim

section Calls

variable {Q : Type} (st : QueueStore Q) (s : Sim Q) (a : ActorId) (d : UInt64)

/-! ## 1. Each call as a function of its state -/

theorem trySchedule_run :
    (trySchedule st a d).run s =
      match Scheduler.addTime s.now d with
      | none => .error (.sched (.deadlineOverflow s.now d)) s
      | some due =>
        match st.push s.queue ⟨a, due, s.nextSeq⟩ with
        | .error err => .error (.alloc err) s
        | .ok queue => .ok ⟨a, due, s.nextSeq⟩ { s with queue, nextSeq := s.nextSeq + 1 } := by
  unfold trySchedule
  simp only [EStateM.run_bind, EStateM.run_get]
  cases Scheduler.addTime s.now d with
  | none => rfl
  | some due =>
    simp only [EStateM.run_bind, EStateM.run_pure]
    cases st.push s.queue ⟨a, due, s.nextSeq⟩ <;> rfl

theorem tryAdvance_run :
    (tryAdvance d : EStateM SimError (Sim Q) UInt64).run s =
      match Scheduler.addTime s.now d with
      | none => .error (.sched (.clockOverflow s.now d)) s
      | some now => .ok now { s with now } := by
  unfold tryAdvance
  simp only [EStateM.run_bind, EStateM.run_get]
  cases Scheduler.addTime s.now d <;> rfl

theorem stepIn_run :
    (stepIn st).run s =
      match st.events s.queue with
      | [] => .ok none s
      | e :: es =>
        let pick := Scheduler.choose es 1 e.deliverAt 0 1 s.rng
        match st.swapRemove s.queue pick.1 with
        | none => .ok none { s with rng := pick.2 }
        | some (ev, queue) =>
          .ok (some ev) { s with rng := pick.2, queue, now := max s.now ev.deliverAt } := by
  unfold stepIn
  simp only [EStateM.run_bind, EStateM.run_get]
  cases st.events s.queue with
  | nil => rfl
  | cons e es =>
    dsimp only
    cases st.swapRemove s.queue (Scheduler.choose es 1 e.deliverAt 0 1 s.rng).1 <;> rfl

/-- A step on an empty queue answers nothing before it draws. -/
theorem stepIn_of_events_nil (h : st.events s.queue = []) : (stepIn st).run s = .ok none s := by
  rw [stepIn_run, h]

/-! ## 2. Why a call is refused -/

theorem trySchedule_eq_error {err : SimError} {s' : Sim Q}
    (h : (trySchedule st a d).run s = .error err s') :
    s' = s ∧ (err = .sched (.deadlineOverflow s.now d) ∧ 2 ^ 64 - 1 < s.now.toNat + d.toNat ∨
      ∃ e, err = .alloc e ∧ st.push s.queue ⟨a, s.now + d, s.nextSeq⟩ = .error e) := by
  rw [trySchedule_run] at h
  cases hdue : Scheduler.addTime s.now d with
  | none =>
    rw [hdue] at h
    cases h
    exact ⟨rfl, .inl ⟨rfl, Scheduler.addTime_eq_none_iff.mp hdue⟩⟩
  | some due =>
    rw [hdue] at h
    obtain rfl := Scheduler.addTime_eq_some_add hdue
    dsimp only at h
    cases hpush : st.push s.queue ⟨a, s.now + d, s.nextSeq⟩ with
    | error e =>
      rw [hpush] at h
      cases h
      exact ⟨rfl, .inr ⟨e, rfl, rfl⟩⟩
    | ok q =>
      rw [hpush] at h
      cases h

theorem tryAdvance_eq_error {err : SimError} {s' : Sim Q}
    (h : (tryAdvance d : EStateM SimError (Sim Q) UInt64).run s = .error err s') :
    s' = s ∧ err = .sched (.clockOverflow s.now d) ∧ 2 ^ 64 - 1 < s.now.toNat + d.toNat := by
  rw [tryAdvance_run] at h
  cases hdue : Scheduler.addTime s.now d with
  | none =>
    rw [hdue] at h
    cases h
    exact ⟨rfl, rfl, Scheduler.addTime_eq_none_iff.mp hdue⟩
  | some now =>
    rw [hdue] at h
    cases h

theorem trySchedule_of_overflow (h : 2 ^ 64 - 1 < s.now.toNat + d.toNat) :
    (trySchedule st a d).run s = .error (.sched (.deadlineOverflow s.now d)) s := by
  rw [trySchedule_run, Scheduler.addTime_eq_none_iff.mpr h]

theorem tryAdvance_of_overflow (h : 2 ^ 64 - 1 < s.now.toNat + d.toNat) :
    (tryAdvance d : EStateM SimError (Sim Q) UInt64).run s =
      .error (.sched (.clockOverflow s.now d)) s := by
  rw [tryAdvance_run, Scheduler.addTime_eq_none_iff.mpr h]

theorem trySchedule_refused_iff :
    (∃ err s', (trySchedule st a d).run s = .error err s') ↔
      2 ^ 64 - 1 < s.now.toNat + d.toNat ∨
        ∃ e, st.push s.queue ⟨a, s.now + d, s.nextSeq⟩ = .error e := by
  constructor
  · rintro ⟨err, s', h⟩
    rcases (trySchedule_eq_error st s a d h).2 with ⟨-, hover⟩ | ⟨e, -, hpush⟩
    · exact .inl hover
    · exact .inr ⟨e, hpush⟩
  · intro h
    by_cases hover : 2 ^ 64 - 1 < s.now.toNat + d.toNat
    · exact ⟨_, s, trySchedule_of_overflow st s a d hover⟩
    · -- the deadline is granted, so the refusal is the store's
      obtain ⟨e, hpush⟩ := h.resolve_left hover
      refine ⟨.alloc e, s, ?_⟩
      rw [trySchedule_run, Scheduler.addTime_of_le (by omega)]
      dsimp only
      rw [hpush]

theorem tryAdvance_refused_iff :
    (∃ err s', (tryAdvance d : EStateM SimError (Sim Q) UInt64).run s = .error err s') ↔
      2 ^ 64 - 1 < s.now.toNat + d.toNat := by
  constructor
  · rintro ⟨err, s', h⟩
    exact (tryAdvance_eq_error s d h).2.2
  · intro hover
    exact ⟨_, s, tryAdvance_of_overflow s d hover⟩

theorem deadline_refused_iff :
    (∃ s', (trySchedule st a d).run s = .error (.sched (.deadlineOverflow s.now d)) s') ↔
      2 ^ 64 - 1 < s.now.toNat + d.toNat := by
  constructor
  · rintro ⟨s', h⟩
    rcases (trySchedule_eq_error st s a d h).2 with ⟨-, hover⟩ | ⟨e, he, -⟩
    · exact hover
    · cases he
  · intro hover
    exact ⟨s, trySchedule_of_overflow st s a d hover⟩

theorem clock_refused_iff :
    (∃ s', (tryAdvance d : EStateM SimError (Sim Q) UInt64).run s =
      .error (.sched (.clockOverflow s.now d)) s') ↔ 2 ^ 64 - 1 < s.now.toNat + d.toNat := by
  constructor
  · rintro ⟨s', h⟩
    exact (tryAdvance_eq_error s d h).2.2
  · intro hover
    exact ⟨s, tryAdvance_of_overflow s d hover⟩

/-! ## 3. The calls that answer with a flag -/

theorem scheduleOk_eq_false_iff :
    (scheduleOk st a d s).1 = false ↔ ∃ err s', (trySchedule st a d).run s = .error err s' := by
  unfold scheduleOk
  cases (trySchedule st a d).run s <;> simp

theorem advanceOk_eq_false_iff :
    (advanceOk d s).1 = false ↔
      ∃ err s', (tryAdvance d : EStateM SimError (Sim Q) UInt64).run s = .error err s' := by
  unfold advanceOk
  cases (tryAdvance d : EStateM SimError (Sim Q) UInt64).run s <;> simp

theorem scheduleOk_of_refused (h : (scheduleOk st a d s).1 = false) :
    (scheduleOk st a d s).2 = s := by
  obtain ⟨err, s', hrun⟩ := (scheduleOk_eq_false_iff st s a d).mp h
  unfold scheduleOk
  rw [hrun]
  exact (trySchedule_eq_error st s a d hrun).1

theorem advanceOk_of_refused (h : (advanceOk d s).1 = false) : (advanceOk d s).2 = s := by
  obtain ⟨err, s', hrun⟩ := (advanceOk_eq_false_iff s d).mp h
  unfold advanceOk
  rw [hrun]
  exact (tryAdvance_eq_error s d hrun).1

/-- **A refused call changes nothing.** A deadline is refused exactly when the clock plus the
    delay passes 2^64 - 1, and so is a new clock; the flag answers false exactly when the call is
    refused, for scheduling also when the store refuses the append; every refusal leaves the
    clock, the queue, the sequence number and the generator as they were; and a step on an empty
    queue answers nothing, draws nothing and changes nothing. -/
theorem refused_calls_change_nothing :
    ((∃ s', (trySchedule st a d).run s = .error (.sched (.deadlineOverflow s.now d)) s') ↔
        2 ^ 64 - 1 < s.now.toNat + d.toNat) ∧
      ((∃ s', (tryAdvance d : EStateM SimError (Sim Q) UInt64).run s =
        .error (.sched (.clockOverflow s.now d)) s') ↔ 2 ^ 64 - 1 < s.now.toNat + d.toNat) ∧
      ((scheduleOk st a d s).1 = false ↔ 2 ^ 64 - 1 < s.now.toNat + d.toNat ∨
        ∃ e, st.push s.queue ⟨a, s.now + d, s.nextSeq⟩ = .error e) ∧
      ((advanceOk d s).1 = false ↔ 2 ^ 64 - 1 < s.now.toNat + d.toNat) ∧
      (∀ err s', (trySchedule st a d).run s = .error err s' → s' = s) ∧
      (∀ err s', (tryAdvance d : EStateM SimError (Sim Q) UInt64).run s = .error err s' →
        s' = s) ∧
      ((scheduleOk st a d s).1 = false → (scheduleOk st a d s).2 = s) ∧
      ((advanceOk d s).1 = false → (advanceOk d s).2 = s) ∧
      (st.events s.queue = [] → (stepIn st).run s = .ok none s) := by
  refine ⟨deadline_refused_iff st s a d, clock_refused_iff s d, ?_, ?_,
    fun _ _ h => (trySchedule_eq_error st s a d h).1, fun _ _ h => (tryAdvance_eq_error s d h).1,
    scheduleOk_of_refused st s a d, advanceOk_of_refused s d, stepIn_of_events_nil st s⟩
  · rw [scheduleOk_eq_false_iff, trySchedule_refused_iff]
  · rw [advanceOk_eq_false_iff, tryAdvance_refused_iff]

end Calls

/-- At the top of the clock: a delay that lands on 2^64 - 1 is granted, one more is refused and
    leaves the scheduler as it was. -/
theorem refused_calls_at_clock_limit :
    (scheduleOk .list 7 1 (⟨1, 0xFFFFFFFFFFFFFFFE, 0, []⟩ : Sim (List Event))).1 = true ∧
      scheduleOk .list 7 2 (⟨1, 0xFFFFFFFFFFFFFFFE, 0, []⟩ : Sim (List Event)) =
        (false, ⟨1, 0xFFFFFFFFFFFFFFFE, 0, []⟩) := by
  obtain ⟨-, -, hflag, -, -, -, hsame, -, -⟩ :=
    refused_calls_change_nothing QueueStore.list ⟨1, 0xFFFFFFFFFFFFFFFE, 0, []⟩ 7 2
  have hfalse := hflag.mpr (.inl (by decide))
  exact ⟨by decide, Prod.ext hfalse (hsame hfalse)⟩

/-! ## 4. The queue in a list, the queue in an arena -/

section Stores

variable (a : ActorId) (d : UInt64) (sc : Scheduler)

theorem trySchedule_list :
    (trySchedule .list a d).run sc.toSim =
      match sc.schedule a d with
      | .ok (e, s') => .ok e s'.toSim
      | .error err => .error (.sched err) sc.toSim := by
  rw [trySchedule_run]
  unfold Scheduler.schedule
  dsimp only [Scheduler.toSim]
  cases Scheduler.addTime sc.now d <;> rfl

theorem tryAdvance_list :
    (tryAdvance d : EStateM SimError (Sim (List Event)) UInt64).run sc.toSim =
      match sc.advance d with
      | .ok s' => .ok s'.now s'.toSim
      | .error err => .error (.sched err) sc.toSim := by
  rw [tryAdvance_run]
  unfold Scheduler.advance
  dsimp only [Scheduler.toSim]
  cases Scheduler.addTime sc.now d <;> rfl

theorem stepIn_list :
    (stepIn .list).run sc.toSim =
      match sc.step with
      | some (e, s') => .ok (some e) s'.toSim
      | none => .ok none sc.toSim := by
  rw [stepIn_run]
  unfold Scheduler.step
  dsimp only [Scheduler.toSim, QueueStore.list]
  cases sc.queue with
  | nil => rfl
  | cons e es =>
    dsimp only
    have hlt := Scheduler.choose_cons_lt_length e es sc.rng
    cases hsr : swapRemove (e :: es) (Scheduler.choose es 1 e.deliverAt 0 1 sc.rng).1 with
    | none => exact absurd ((swapRemove_eq_none_iff _ _).mp hsr) (by omega)
    | some p => rfl

end Stores

/-- In an arena, the store refuses an append only when the vector is full and has to grow. -/
theorem trySchedule_inArena_alloc {s s' : Sim (ArenaVec Event × Arena)} {a : ActorId}
    {d : UInt64} {e : ArenaError} (h : (trySchedule .inArena a d).run s = .error (.alloc e) s') :
    s.queue.1.len = s.queue.1.cap := by
  rcases (trySchedule_eq_error .inArena s a d h).2 with ⟨he, -⟩ | ⟨e', -, hpush⟩
  · cases he
  · exact ArenaVec.push_eq_error hpush

end Sim

end Frond
