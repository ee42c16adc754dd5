import Mathlib.Logic.Function.Iterate
import SierraSdk.Library.Machine
import SierraSdk.Library.NullTerminated

/-!
# The event queues of the RIL

An event is a callback that is to run at some time, in the normal queue, in the priority queue or
in both. Each queue is a doubly linked list of events, sorted by the time that they are due, and
has a thread that runs its first event when the time has come. An event for both queues is copied
after it was put in the first one, with the links that it has then.

The links are addresses. `malloc` gives any address that is not in use. An event is recorded with
the number of the call that enqueued it, which stands for the callback and its parameter.
-/

namespace SierraSdk

namespace Ril

open NullTerminated

/-- A time, of the clock or relative to it. -/
structure Timespec where
  tv_sec : ℕ
  tv_nsec : ℕ
  deriving DecidableEq

/-- A delay. -/
structure Timeval where
  tv_sec : ℕ
  tv_usec : ℕ

/-- `timespec_cmp` -/
def timespec_cmp (a b : Timespec) (op : ℕ → ℕ → Bool) : Bool :=
  if a.tv_sec = b.tv_sec then op a.tv_nsec b.tv_nsec else op a.tv_sec b.tv_sec

/-- The comparison in the insertion. -/
def Timespec.isAfter (a b : Timespec) : Bool := timespec_cmp a b fun x y => x > y

/-- The comparison in the threads. -/
def Timespec.isBefore (a b : Timespec) : Bool := timespec_cmp a b fun x y => x < y

/-- `s_requestQueue` and `s_requestQueuePrio` -/
inductive QueueId where
  | normal
  | prio
  deriving DecidableEq

/-- `RIL_EVENT_QUEUE_NORMAL`, `RIL_EVENT_QUEUE_PRIO` and `RIL_EVENT_QUEUE_ALL` -/
inductive RilEventQueue where
  | normal
  | prio
  | all
  deriving DecidableEq

@[ext] structure RILEvent where
  number : ℕ
  abstime : Timespec
  next : Option ℕ
  prev : Option ℕ

/-- The events, with the addresses that are in use, the two queues, and whether there is a
priority queue. What calls asked for and what was run is recorded; these are not in the code. -/
structure RilQueues where
  heap : ℕ → RILEvent
  live : List ℕ
  eventList : QueueId → Option ℕ
  enabled : Bool
  calls : ℕ
  addressed : QueueId → List ℕ
  ran : QueueId → List ℕ

/-- Write the link to the next event. -/
def setNext (heap : ℕ → RILEvent) (p : ℕ) (next : Option ℕ) : ℕ → RILEvent :=
  Function.update heap p { heap p with next := next }

/-- Write the link to the event before. -/
def setPrev (heap : ℕ → RILEvent) (p : ℕ) (prev : Option ℕ) : ℕ → RILEvent :=
  Function.update heap p { heap p with prev := prev }

section Links

variable (heap : ℕ → RILEvent) (p a : ℕ) (l : Option ℕ)

@[simp] theorem setNext_next :
    (setNext heap p l a).next = if a = p then l else (heap a).next := by
  by_cases h : a = p
  · simp [setNext, h]
  · simp [setNext, h]

@[simp] theorem setNext_prev : (setNext heap p l a).prev = (heap a).prev := by
  by_cases h : a = p
  · simp [setNext, h]
  · simp [setNext, h]

@[simp] theorem setPrev_prev :
    (setPrev heap p l a).prev = if a = p then l else (heap a).prev := by
  by_cases h : a = p
  · simp [setPrev, h]
  · simp [setPrev, h]

@[simp] theorem setPrev_next : (setPrev heap p l a).next = (heap a).next := by
  by_cases h : a = p
  · simp [setPrev, h]
  · simp [setPrev, h]

@[simp] theorem setNext_abstime : (setNext heap p l a).abstime = (heap a).abstime := by
  by_cases h : a = p
  · simp [setNext, h]
  · simp [setNext, h]

@[simp] theorem setPrev_abstime : (setPrev heap p l a).abstime = (heap a).abstime := by
  by_cases h : a = p
  · simp [setPrev, h]
  · simp [setPrev, h]

@[simp] theorem setNext_number : (setNext heap p l a).number = (heap a).number := by
  by_cases h : a = p
  · simp [setNext, h]
  · simp [setNext, h]

@[simp] theorem setPrev_number : (setPrev heap p l a).number = (heap a).number := by
  by_cases h : a = p
  · simp [setPrev, h]
  · simp [setPrev, h]

end Links

/-- The address that `malloc` gives, the chosen one unless it is in use. -/
def mallocAddr (live : List ℕ) (choice : ℕ) : ℕ :=
  if choice ∈ live then live.foldr max 0 + 1 else choice

/-- The time at which an event is due. -/
def dueTime (tv : Timespec) (relativeTime : Option Timeval) : Timespec :=
  let relativeTime := relativeTime.getD ⟨0, 0⟩
  let tv_sec := tv.tv_sec + relativeTime.tv_sec
  let tv_nsec := tv.tv_nsec + relativeTime.tv_usec * 1000
  if tv_nsec > 1000000000 then ⟨tv_sec + 1, tv_nsec - 1000000000⟩ else ⟨tv_sec, tv_nsec⟩

/-- The loop that looks for the place of an event, from an event on. `none` if a null pointer is
followed, or if the loop does not end in so many rounds. -/
def insertLoop : ℕ → (ℕ → RILEvent) → ℕ → ℕ → Option (ℕ → RILEvent)
  | 0, _, _, _ => none
  | rounds + 1, heap, e, tmp =>
      if (heap tmp).abstime.isAfter (heap e).abstime then
        match (heap tmp).prev with
        | none => none
        | some before =>
            let heap := setNext heap before (some e)
            let heap := setPrev heap e (heap tmp).prev
            let heap := setPrev heap tmp (some e)
            some (setNext heap e (some tmp))
      else
        match (heap tmp).next with
        | none => some (setPrev (setNext heap tmp (some e)) e (some tmp))
        | some next => insertLoop rounds heap e next

namespace RilQueues

/-- The first event of a queue is another one. -/
def setHead (s : RilQueues) (q : QueueId) (e : Option ℕ) : RilQueues :=
  { s with eventList := Function.update s.eventList q e }

/-- An event is put in a queue. -/
def insert (s : RilQueues) (q : QueueId) (e : ℕ) : Option RilQueues :=
  match s.eventList q with
  | none => some (s.setHead q (some e))
  | some first =>
      if (s.heap first).abstime.isAfter (s.heap e).abstime then
        let heap := setPrev (setNext s.heap e (some first)) first (some e)
        some ({ s with heap := heap }.setHead q (some e))
      else
        (insertLoop s.live.length s.heap e first).map fun heap => { s with heap := heap }

/-- A block with some contents is allocated. -/
def alloc (s : RilQueues) (choice : ℕ) (contents : RILEvent) : RilQueues :=
  let p := mallocAddr s.live choice
  { s with heap := Function.update s.heap p contents, live := p :: s.live }

/-- The queue that an event is put in first. -/
def firstQueue (s : RilQueues) (isPrio : RilEventQueue) : QueueId :=
  if !s.enabled || (isPrio == .normal || isPrio == .all) then .normal else .prio

/-- Whether a copy of the event is put in the priority queue too. -/
def bothQueues (s : RilQueues) (isPrio : RilEventQueue) : Bool :=
  s.enabled && isPrio == .all

/-- A call is recorded, with the queues that it is for. -/
def record (s : RilQueues) (isPrio : RilEventQueue) : RilQueues :=
  let queues : List QueueId :=
    s.firstQueue isPrio :: if s.bothQueues isPrio then [.prio] else []
  { s with
    calls := s.calls + 1
    addressed := fun q => if q ∈ queues then s.addressed q ++ [s.calls] else s.addressed q }

/-- The queues with a new event, which is in neither of them yet. -/
def newEvent (s : RilQueues) (isPrio : RilEventQueue) (choice : ℕ) (abstime : Timespec) :
    RilQueues :=
  (s.record isPrio).alloc choice ⟨s.calls, abstime, none, none⟩

/-- `enqueueRILEvent`, with the addresses that are given for the event and its copy. -/
def enqueueRILEvent (s : RilQueues) (isPrio : RilEventQueue) (choice choice2 : ℕ) (tv : Timespec)
    (relativeTime : Option Timeval) : Option RilQueues :=
  let e := mallocAddr s.live choice
  ((s.newEvent isPrio choice (dueTime tv relativeTime)).insert (s.firstQueue isPrio) e).bind
    fun t =>
      if s.bothQueues isPrio then
        (t.alloc choice2 (t.heap e)).insert .prio (mallocAddr t.live choice2)
      else some t

/-- The thread of a queue takes the first event if it is due, runs it and frees it. -/
def queueRunner (s : RilQueues) (q : QueueId) (ts : Timespec) : RilQueues :=
  match s.eventList q with
  | none => s
  | some e =>
      if (s.heap e).abstime.isBefore ts then
        { s.setHead q (s.heap e).next with
          live := s.live.erase e
          ran := Function.update s.ran q (s.ran q ++ [(s.heap e).number]) }
      else s

/-- The events of a queue, in the order of their links. -/
def events (s : RilQueues) (q : QueueId) : List ℕ :=
  follow (fun p => (s.heap p).next) s.live.length (s.eventList q)

end RilQueues

/-- A call of `enqueueRILEvent`, and a turn of the thread of a queue. -/
inductive RilQueueEvent where
  | enqueueRILEvent (isPrio : RilEventQueue) (choice choice2 : ℕ) (tv : Timespec)
      (relativeTime : Option Timeval)
  | queueRunner (q : QueueId) (ts : Timespec)

/-- A step, after which there are no more if a null pointer was followed or a loop does not end;
it emits nothing. -/
def rilQueueStep (s : Option RilQueues) (event : RilQueueEvent) :
    Option RilQueues × List Unit :=
  match s with
  | none => (none, [])
  | some s =>
      match event with
      | .enqueueRILEvent isPrio choice choice2 tv relativeTime =>
          (s.enqueueRILEvent isPrio choice choice2 tv relativeTime, [])
      | .queueRunner q ts => (some (s.queueRunner q ts), [])

/-- The queues at the start, with any contents of the memory. -/
def rilQueuesStart (heap : ℕ → RILEvent) (enabled : Bool) : RilQueues where
  heap := heap
  live := []
  eventList := fun _ => none
  enabled := enabled
  calls := 0
  addressed := fun _ => []
  ran := fun _ => []

section Claims

/-- A time with less than a second of nanoseconds. -/
def Timespec.normalised (t : Timespec) : Prop := t.tv_nsec < 1000000000

instance (t : Timespec) : Decidable t.normalised := inferInstanceAs (Decidable (_ < _))

/-- A time in nanoseconds. -/
def Timespec.nanoseconds (t : Timespec) : ℕ := t.tv_sec * 1000000000 + t.tv_nsec

/-- An event is due earlier than another one, or at the same time and was enqueued earlier. -/
def RILEvent.DueEarlier (a b : RILEvent) : Prop :=
  a.abstime.nanoseconds < b.abstime.nanoseconds ∨
    a.abstime.nanoseconds = b.abstime.nanoseconds ∧ a.number < b.number

/-- The queues are lists of the events `xs`, that share no event; all events are in use. -/
structure QueuesLinked (s : RilQueues) (xs : QueueId → List ℕ) : Prop where
  linked : ∀ q, Linked (fun p => (s.heap p).next) (fun p => (s.heap p).prev) (s.eventList q) (xs q)
  apart : (xs .normal ++ xs .prio).Nodup
  live : ∀ q, ∀ p ∈ xs q, p ∈ s.live

/-- They are sorted by due time and for equal times by insertion, and the times are normalised. -/
structure QueuesSorted (s : RilQueues) (xs : QueueId → List ℕ) : Prop
    extends QueuesLinked s xs where
  sorted : ∀ q, (xs q).Pairwise fun a b => (s.heap a).DueEarlier (s.heap b)
  normalised : ∀ q, ∀ p ∈ xs q, (s.heap p).abstime.normalised

/-- Each event that a call addressed to a queue waits in it, or was run in it once. -/
structure QueuesHold (s : RilQueues) (xs : QueueId → List ℕ) : Prop
    extends QueuesSorted s xs where
  once : ∀ q, ((xs q).map (fun p => (s.heap p).number) ++ s.ran q).Perm (s.addressed q)
  calls : ∀ q, (s.addressed q).Pairwise (· < ·) ∧ ∀ n ∈ s.addressed q, n < s.calls

/-- When all events of a queue are due, as many turns of its thread as there are events run all
that were addressed to it. -/
def RilQueues.RunsAll (s : RilQueues) (q : QueueId) : Prop :=
  ∀ ts, (∀ p ∈ s.events q, (s.heap p).abstime.isBefore ts = true) →
    (((fun t => t.queueRunner q ts)^[(s.events q).length] s).ran q).Perm (s.addressed q)

/-- A step leads to queues that are in order, whose events will be run. -/
def QueuesInOrder (s : Option RilQueues) (event : RilQueueEvent) : Prop :=
  s.isSome → ∃ t, (rilQueueStep s event).1 = some t ∧ (∃ xs, QueuesHold t xs) ∧ ∀ q, t.RunsAll q

namespace RilQueues

/-- A queue has an event that is due later than the time. -/
def HasLater (s : RilQueues) (q : QueueId) (t : Timespec) : Prop :=
  ∃ p ∈ s.events q, (s.heap p).abstime.isAfter t = true

/-- A queue has an event that is due at the time or earlier. -/
def HasEarlier (s : RilQueues) (q : QueueId) (t : Timespec) : Prop :=
  ∃ p ∈ s.events q, (s.heap p).abstime.isAfter t = false

end RilQueues

/-- The nanoseconds of the clock and of the delay make neither just one second nor two; for an
event that goes to both queues, the priority queue has an event behind it if the normal queue has
one, and an event in front of it if the normal queue has one; and an event that a thread takes has
none behind it. -/
def QueueSafe (s : Option RilQueues) (event : RilQueueEvent) : Prop :=
  match s, event with
  | none, _ => True
  | some s, .enqueueRILEvent isPrio _ _ tv relativeTime =>
      let tv_nsec := tv.tv_nsec + (relativeTime.getD ⟨0, 0⟩).tv_usec * 1000
      let due := dueTime tv relativeTime
      (tv_nsec ≠ 1000000000 ∧ tv_nsec < 2000000000) ∧
        (s.bothQueues isPrio = true →
          (s.HasLater .normal due → s.HasLater .prio due) ∧
            (s.HasEarlier .normal due → s.HasEarlier .prio due))
  | some s, .queueRunner q ts =>
      ∀ e, s.eventList q = some e → (s.heap e).abstime.isBefore ts = true →
        (s.heap e).next = none

end Claims

end Ril

end SierraSdk
