import Frond.SwapRemove
import Frond.Scheduler.Random
import Frond.Text.Decimal

/-!
# A discrete-event scheduler

The scheduler keeps a clock in milliseconds, a queue of events and a random state. Scheduling
an actor after a delay queues an event for it at `now + delay`, numbered in the order of
scheduling. A step takes out an event with the earliest delivery time and moves the clock up to
that time if it is behind.

When several queued events share the earliest time, one of them is chosen by reservoir
sampling in queue order: the `j`-th of them (counting from 1) replaces the choice so far when a
draw below `j` gives 0, so each of them is equally likely. The chosen event leaves the queue by
`swapRemove`, which moves the last event into its place and so changes the queue order.

The clock and delivery times are 64-bit words; an addition that would pass 2^64 - 1 is refused
with an error and changes nothing.
-/

namespace Frond

/-- An actor's number. -/
abbrev ActorId := UInt32

/-- A queued delivery: the actor, the time it is due, and its number in the order of
    scheduling. -/
structure Event where
  actor : ActorId
  deliverAt : UInt64
  seq : UInt64
  deriving DecidableEq, Repr, Inhabited

/-- Why the scheduler refused a request. -/
inductive SchedulerError where
  /-- The deadline `now + delay` is past the clock's range. -/
  | deadlineOverflow (now delay : UInt64)
  /-- The new time `now + delta` is past the clock's range. -/
  | clockOverflow (now delta : UInt64)
  deriving DecidableEq, Repr

/-- The written form of a refusal. -/
def SchedulerError.message : SchedulerError → String
  | .deadlineOverflow now delay =>
    "deadline overflow: now " ++ decimal now.toNat ++ " ms + delay " ++ decimal delay.toNat ++
      " ms exceeds the clock range"
  | .clockOverflow now delta =>
    "clock overflow: now " ++ decimal now.toNat ++ " ms + " ++ decimal delta.toNat ++
      " ms exceeds the clock range"

/-- The scheduler's state: random state, clock, the number the next event gets, and the
    queue. -/
structure Scheduler where
  rng : UInt64
  now : UInt64
  nextSeq : UInt64
  queue : List Event
  deriving Repr

namespace Scheduler

/-- A scheduler with an empty queue at time 0, its random state from the seed. -/
def create (seed : UInt64) : Scheduler := ⟨Random.normalizeSeed seed, 0, 0, []⟩

/-- A raw 64-bit draw. -/
def nextU64 (s : Scheduler) : UInt64 × Scheduler :=
  let (v, rng) := Random.draw s.rng
  (v, { s with rng })

/-- A draw below `limit` (0 for a limit of 0). -/
def nextBelow (s : Scheduler) (limit : UInt32) : UInt32 × Scheduler :=
  let (v, rng) := Random.drawBelow s.rng limit
  (v, { s with rng })

/-- The sum of a time and a delay, unless it passes 2^64 - 1. -/
def addTime (t d : UInt64) : Option UInt64 :=
  if t.toNat + d.toNat < UInt64.size then some (t + d) else none

/-- Moves the clock forward by `delta`. -/
def advance (s : Scheduler) (delta : UInt64) : Except SchedulerError Scheduler :=
  match addTime s.now delta with
  | some now => .ok { s with now }
  | none => .error (.clockOverflow s.now delta)

/-- Queues an event for `actor` at `now + delay`: the event and the scheduler after it. -/
def schedule (s : Scheduler) (actor : ActorId) (delay : UInt64) :
    Except SchedulerError (Event × Scheduler) :=
  match addTime s.now delay with
  | some due =>
    let e : Event := ⟨actor, due, s.nextSeq⟩
    .ok (e, { s with nextSeq := s.nextSeq + 1, queue := s.queue ++ [e] })
  | none => .error (.deadlineOverflow s.now delay)

/-- How many events are queued. -/
def pending (s : Scheduler) : Nat := s.queue.length

/-- The choice among the events after the first: `best` is the earliest time so far, `chosen`
    the index picked so far, `ties` how many events share `best` (a 32-bit count that stops at
    its largest value). Each event that ties `best` costs one draw. -/
def choose : List Event → Nat → UInt64 → Nat → UInt32 → UInt64 → Nat × UInt64
  | [], _, _, chosen, _, rng => (chosen, rng)
  | e :: es, i, best, chosen, ties, rng =>
    if e.deliverAt < best then choose es (i + 1) e.deliverAt i 1 rng
    else if e.deliverAt == best then
      let ties := if ties == 0xFFFFFFFF then ties else ties + 1
      let (v, rng) := Random.drawBelow rng ties
      choose es (i + 1) best (if v == 0 then i else chosen) ties rng
    else choose es (i + 1) best chosen ties rng

/-- Takes out the next event: one with the earliest delivery time, by reservoir choice among
    ties; the clock moves up to its time if behind. An empty queue gives nothing and changes
    nothing. -/
def step (s : Scheduler) : Option (Event × Scheduler) :=
  match s.queue with
  | [] => none
  | e :: es =>
    let pick := choose es 1 e.deliverAt 0 1 s.rng
    match swapRemove s.queue pick.1 with
    | some (ev, queue) => some (ev, { s with rng := pick.2, queue, now := max s.now ev.deliverAt })
    | none => none

theorem step_queue_length {s s' : Scheduler} {e : Event} (h : s.step = some (e, s')) :
    s'.queue.length + 1 = s.queue.length := by
  unfold step at h
  split at h
  · simp at h
  · dsimp only at h
    split at h
    · rename_i ev q hq
      simp only [Option.some.injEq, Prod.mk.injEq] at h
      obtain ⟨-, rfl⟩ := h
      exact length_swapRemove hq
    · simp at h

/-- Steps until the queue is empty: each delivered event with the clock after it, in order,
    and the scheduler at the end. -/
def runUntilIdle (s : Scheduler) : List (Event × UInt64) × Scheduler :=
  match h : s.step with
  | none => ([], s)
  | some (e, s') =>
    have : s'.queue.length < s.queue.length := by
      have := step_queue_length h
      omega
    let (rest, final) := runUntilIdle s'
    ((e, s'.now) :: rest, final)
termination_by s.queue.length

end Scheduler

end Frond
