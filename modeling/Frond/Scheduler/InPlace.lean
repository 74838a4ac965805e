import Frond.Scheduler.Basic
import Frond.Arena.Vector

/-!
# The scheduler changed in place

The scheduler's calls as the program makes them on one scheduler, which they change in place:
each call reads the fields, makes its checks and writes the fields in the order the program
does. The queue lives in a store (`QueueStore`): its events in order, an append that the store
may refuse, and removal by swapping with the last event. The program keeps its queue in a vector
in an arena (`QueueStore.inArena`), whose growth the arena may refuse; a list (`QueueStore.list`)
never refuses, and with it the calls are the scheduler functions of `Frond.Scheduler.Basic`.

* `trySchedule`: the deadline is the clock plus the delay, refused past 2^64 - 1; the event is
  appended to the queue, and only then is the sequence number moved on.
* `tryAdvance`: the clock moves by the delta, refused past 2^64 - 1.
* `scheduleOk`, `advanceOk`: the same calls, answering only whether they were granted.
* `stepIn`: nothing when the queue is empty; otherwise the reservoir scan, which draws, then the
  removal of the chosen event and the clock moved up to its time.
* `create`, `nextU64`, `nextBelow`, `runUntilIdleIn`: the scheduler from a seed, whose queue is a
  new vector the arena may refuse; the draws; and the drain, which steps until a step answers
  nothing.
-/

namespace Frond

open ElemLayout in
/-- How an event lies in the queue's vector: 24 bytes at an alignment of 8, as the compiler lays
    out the program's event; the deadline and the sequence number as 8 bytes each, least
    significant first, then the actor as 4 bytes and 4 bytes of padding. Only the vector reads
    these bytes, so the order of the fields inside them is free. -/
def Event.layout : ElemLayout Event where
  size := 24
  align := 8
  encode e := leBytes 8 e.deliverAt.toNat ++ leBytes 8 e.seq.toNat ++ leBytes 4 e.actor.toNat ++
    [0, 0, 0, 0]
  decode b := ⟨(ofLeBytes ((b.drop 16).take 4)).toUInt32, (ofLeBytes (b.take 8)).toUInt64,
    (ofLeBytes ((b.drop 8).take 8)).toUInt64⟩
  length_encode e := by simp
  decode_encode e := by
    obtain ⟨actor, due, seq⟩ := e
    simp only [List.append_assoc]
    -- each field is read back from the bytes at its own offset
    rw [List.take_left' (length_leBytes 8 _), List.drop_left' (length_leBytes 8 _),
      List.take_left' (length_leBytes 8 _), show 16 = 8 + 8 from rfl, ← List.drop_drop,
      List.drop_left' (length_leBytes 8 _), List.drop_left' (length_leBytes 8 _),
      List.take_left' (length_leBytes 4 _), toUInt32_ofLeBytes, toUInt64_ofLeBytes,
      toUInt64_ofLeBytes]

example : Event.layout.encode ⟨7, 0x0102, 3⟩ =
    [2, 1, 0, 0, 0, 0, 0, 0, 3, 0, 0, 0, 0, 0, 0, 0, 7, 0, 0, 0, 0, 0, 0, 0] := by decide

/-- Where a scheduler keeps its queue: the events in order, an append that may be refused, and
    removal of the event at an index by moving the last event into its place. -/
structure QueueStore (Q : Type) where
  events : Q → List Event
  push : Q → Event → Except ArenaError Q
  swapRemove : Q → Nat → Option (Event × Q)

namespace QueueStore

/-- A queue kept as a list: an append is never refused. -/
def list : QueueStore (List Event) where
  events q := q
  push q e := .ok (q ++ [e])
  swapRemove := Frond.swapRemove

/-- A queue kept in a vector in an arena: an append into a full vector first needs a region
    twice as large, which the arena may refuse. -/
def inArena : QueueStore (ArenaVec Event × Arena) where
  events q := q.1.asSlice q.2
  push q e := q.1.push q.2 e
  swapRemove q i := (q.1.swapRemove? q.2 i).map fun (e, v, a) => (e, (v, a))

end QueueStore

/-- A scheduler whose queue is kept in a store of type `Q`. -/
structure Sim (Q : Type) where
  rng : UInt64
  now : UInt64
  nextSeq : UInt64
  queue : Q

/-- Why a call on the scheduler was refused: the clock or a deadline would pass 2^64 - 1, or the
    store refused to append to the queue. -/
inductive SimError where
  | sched (e : SchedulerError)
  | alloc (e : ArenaError)
  deriving DecidableEq, Repr

namespace Sim

variable {Q : Type} (st : QueueStore Q)

/-- Queues an event for `actor` at the clock plus `delay`: the deadline is checked first, the
    event appended next, and the sequence number moved on last. -/
def trySchedule (actor : ActorId) (delay : UInt64) : EStateM SimError (Sim Q) Event := do
  let s ← get
  let due ← match Scheduler.addTime s.now delay with
    | some due => pure due
    | none => throw (.sched (.deadlineOverflow s.now delay))
  let e : Event := ⟨actor, due, s.nextSeq⟩
  match st.push s.queue e with
  | .error err => throw (.alloc err)
  | .ok queue => set { s with queue }
  modify fun s => { s with nextSeq := s.nextSeq + 1 }
  pure e

/-- Moves the clock forward by `delta`, or refuses when the sum passes 2^64 - 1. -/
def tryAdvance (delta : UInt64) : EStateM SimError (Sim Q) UInt64 := do
  let s ← get
  match Scheduler.addTime s.now delta with
  | some now =>
    set { s with now }
    pure now
  | none => throw (.sched (.clockOverflow s.now delta))

/-- Whether a request to schedule was granted, and the scheduler after it. -/
def scheduleOk (actor : ActorId) (delay : UInt64) (s : Sim Q) : Bool × Sim Q :=
  match (trySchedule st actor delay).run s with
  | .ok _ s' => (true, s')
  | .error _ s' => (false, s')

/-- Whether a request to move the clock was granted, and the scheduler after it. -/
def advanceOk (delta : UInt64) (s : Sim Q) : Bool × Sim Q :=
  match (tryAdvance delta : EStateM SimError (Sim Q) UInt64).run s with
  | .ok _ s' => (true, s')
  | .error _ s' => (false, s')

/-- Takes out the next event. An empty queue gives nothing before anything is drawn; otherwise
    the reservoir scan draws and leaves the generator moved on, the chosen event is removed, and
    the clock moves up to its time. -/
def stepIn : EStateM SimError (Sim Q) (Option Event) := do
  let s ← get
  match st.events s.queue with
  | [] => pure none
  | e :: es =>
    let (chosen, rng) := Scheduler.choose es 1 e.deliverAt 0 1 s.rng
    set { s with rng }
    match st.swapRemove s.queue chosen with
    | none => pure none
    | some (ev, queue) =>
      set { s with rng, queue, now := max s.now ev.deliverAt }
      pure (some ev)

/-- A raw 64-bit draw. -/
def nextU64 (s : Sim Q) : UInt64 × Sim Q :=
  let (v, rng) := Random.draw s.rng
  (v, { s with rng })

/-- A draw below `limit` (0 for a limit of 0). -/
def nextBelow (s : Sim Q) (limit : UInt32) : UInt32 × Sim Q :=
  let (v, rng) := Random.drawBelow s.rng limit
  (v, { s with rng })

/-- Steps until a step answers nothing, at most `fuel` times, with each event delivered and the
    clock just after it. -/
def drainIn : Nat → EStateM SimError (Sim Q) (List (Event × UInt64))
  | 0 => pure []
  | fuel + 1 => do
    match ← stepIn st with
    | none => pure []
    | some e =>
      let now := (← get).now
      let rest ← drainIn fuel
      pure ((e, now) :: rest)

/-- Steps until the queue is empty. A step that answers takes an event out of the queue, so the
    step after the last event is one more than there are events. -/
def runUntilIdleIn : EStateM SimError (Sim Q) (List (Event × UInt64)) := do
  let s ← get
  drainIn st ((st.events s.queue).length + 1)

end Sim

/-- A scheduler from a seed on an arena: the generator from the seed, the clock and the sequence
    number at 0, and the queue a new vector, whose region the arena may refuse. -/
def Sim.create (a : Arena) (seed : UInt64) : Except SimError (Sim (ArenaVec Event × Arena)) :=
  match ArenaVec.create a Event.layout with
  | .ok q => .ok ⟨Random.normalizeSeed seed, 0, 0, q⟩
  | .error e => .error (.alloc e)

/-- The scheduler of `Frond.Scheduler.Basic` as one whose queue is a list. -/
def Scheduler.toSim (s : Scheduler) : Sim (List Event) := ⟨s.rng, s.now, s.nextSeq, s.queue⟩

end Frond
