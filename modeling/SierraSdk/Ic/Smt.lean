import Mathlib.Algebra.Group.Nat.Defs
import Mathlib.Data.List.Induction
import SierraSdk.Library.Machine
import SierraSdk.Library.Ring

/-!
# Message queues of the tasks

A task waits for messages of 32 bits on a queue that other tasks send to. The messages lie in a
circular buffer of one cell more than the depth of the queue; `icsmtputp` and `icsmtgetp` are
addresses of cells, `NULL` is the address `0`. A queue of depth `0` is not made.

`icsmt_rcv` holds the semaphore twice: it takes a message if there is one, and otherwise it waits
and then looks again. Each of the two parts is a step here, so that messages may be sent in
between; the second one is given what the waiter returned. An abort ends the process.

The messages in the queue are the ones that were sent and not received (`Stands`), in every run
(`stands_run`).
-/

namespace SierraSdk

namespace Ic

open Machine

/-- A message queue control block, with the memory that its pointers point into. -/
structure Icsmtcb where
  icsmtputp : ℕ
  icsmtgetp : ℕ
  icsmtstartp : ℕ
  icsmtendp : ℕ
  icsmtrcvcnt : UInt32
  icsmtsendcnt : UInt32
  icsmtmaxqueued : UInt32
  cells : ℕ → UInt32

/-- The reasons to abort. -/
inductive SmtAbort where
  | queueAllocFailed
  | noMsgQue
  | msgQueFull
  deriving DecidableEq

/-- `icsmt_create`; `memp` is the memory that is allocated. -/
def icsmt_create (icsmtp : Icsmtcb) (smtqueuedepth : UInt16) (memp : ℕ) :
    Except SmtAbort Icsmtcb :=
  if smtqueuedepth ≠ 0 then
    if memp = 0 then .error .queueAllocFailed
    else
      .ok { icsmtp with
        icsmtstartp := memp
        icsmtendp := memp + smtqueuedepth.toNat
        icsmtgetp := memp
        icsmtputp := memp
        icsmtrcvcnt := 0
        icsmtsendcnt := 0
        icsmtmaxqueued := 0 }
  else
    .ok { icsmtp with
      icsmtstartp := 0
      icsmtendp := 0
      icsmtgetp := 0
      icsmtputp := 0 }

/-- The high-water mark once a message was put. -/
def Icsmtcb.recordMax (icsmtp : Icsmtcb) : Icsmtcb :=
  if icsmtp.icsmtgetp < icsmtp.icsmtputp ∧
      icsmtp.icsmtmaxqueued < UInt32.ofNat (icsmtp.icsmtputp - icsmtp.icsmtgetp) then
    { icsmtp with icsmtmaxqueued := UInt32.ofNat (icsmtp.icsmtputp - icsmtp.icsmtgetp) }
  else if icsmtp.icsmtputp < icsmtp.icsmtgetp then
    let wrapped_delta := UInt32.ofNat
      (icsmtp.icsmtputp + (icsmtp.icsmtendp - icsmtp.icsmtstartp) - icsmtp.icsmtgetp + 1)
    if icsmtp.icsmtmaxqueued < wrapped_delta then { icsmtp with icsmtmaxqueued := wrapped_delta }
    else icsmtp
  else icsmtp

/-- Put a message on the back of the queue. -/
def Icsmtcb.put (icsmtp : Icsmtcb) (msg : UInt32) : Icsmtcb :=
  { icsmtp with
    cells := Function.update icsmtp.cells icsmtp.icsmtputp msg
    icsmtputp := Ring.next icsmtp.icsmtstartp icsmtp.icsmtendp icsmtp.icsmtputp
    icsmtsendcnt := icsmtp.icsmtsendcnt + 1 }

/-- `icsmt_send` -/
def icsmt_send (icsmtp : Icsmtcb) (msg : UInt32) : Except SmtAbort Icsmtcb :=
  if icsmtp.icsmtstartp = 0 then .error .noMsgQue
  else
    let icsmtp := (icsmtp.put msg).recordMax
    if icsmtp.icsmtputp = icsmtp.icsmtgetp then .error .msgQueFull else .ok icsmtp

/-- Take the message at the front. -/
def Icsmtcb.take (icsmtp : Icsmtcb) : UInt32 × Icsmtcb :=
  (icsmtp.cells icsmtp.icsmtgetp,
    { icsmtp with
      icsmtgetp := Ring.next icsmtp.icsmtstartp icsmtp.icsmtendp icsmtp.icsmtgetp
      icsmtrcvcnt := icsmtp.icsmtrcvcnt + 1 })

/-- `icsmt_rcv` up to the wait: a message if there is one. -/
def icsmt_rcv (icsmtp : Icsmtcb) : Except SmtAbort (Option UInt32 × Icsmtcb) :=
  if icsmtp.icsmtstartp = 0 then .error .noMsgQue
  else if icsmtp.icsmtputp = icsmtp.icsmtgetp then .ok (none, icsmtp)
  else .ok (some icsmtp.take.1, icsmtp.take.2)

/-- `icsmt_rcv` behind the wait, which ended with a `result`. -/
def icsmt_rcvWoken (icsmtp : Icsmtcb) (result : Bool) : Option UInt32 × Icsmtcb :=
  if icsmtp.icsmtputp = icsmtp.icsmtgetp ∨ result = false then (none, icsmtp)
  else (some icsmtp.take.1, icsmtp.take.2)

/-- `icsmt_getmaxqueued` -/
def icsmt_getmaxqueued (icsmtp : Icsmtcb) : UInt32 := icsmtp.icsmtmaxqueued

/-- `icsmt_tail`, the address of a cell. -/
def icsmt_tail (icsmtp : Icsmtcb) : ℕ :=
  if icsmtp.icsmtputp = icsmtp.icsmtstartp then icsmtp.icsmtendp else icsmtp.icsmtputp - 1

/-- `icsmt_empty` -/
def icsmt_empty (icsmtp : Icsmtcb) : Bool := icsmtp.icsmtputp = icsmtp.icsmtgetp

/-- A queue, and whether its task waits in `icsmt_rcv`. -/
structure SmtTask where
  icsmtp : Icsmtcb
  waiting : Bool

/-- What happens to a queue. -/
inductive SmtOp where
  | send (msg : UInt32)
  | rcv
  | woken (result : Bool)

/-- What `icsmt_rcv` returns, and aborts. -/
inductive SmtEvent where
  | received (msg : UInt32)
  | timedOut
  | aborted (reason : SmtAbort)
  deriving DecidableEq

/-- One step; a task that does not wait is not woken, and one that waits does not call. -/
def smtStep : Option SmtTask → SmtOp → Option SmtTask × List SmtEvent
  | none, _ => (none, [])
  | some t, .send msg =>
      match icsmt_send t.icsmtp msg with
      | .error reason => (none, [.aborted reason])
      | .ok icsmtp => (some { t with icsmtp := icsmtp }, [])
  | some t, .rcv =>
      if t.waiting then (some t, [])
      else
        match icsmt_rcv t.icsmtp with
        | .error reason => (none, [.aborted reason])
        | .ok (some msg, icsmtp) => (some ⟨icsmtp, false⟩, [.received msg])
        | .ok (none, icsmtp) => (some ⟨icsmtp, true⟩, [])
  | some t, .woken result =>
      if t.waiting then
        match icsmt_rcvWoken t.icsmtp result with
        | (some msg, icsmtp) => (some ⟨icsmtp, false⟩, [.received msg])
        | (none, icsmtp) => (some ⟨icsmtp, false⟩, [.timedOut])
      else (some t, [])

/-- The messages that operations send. -/
def sent : List SmtOp → List UInt32 :=
  List.filterMap fun
    | .send msg => some msg
    | _ => none

/-- The messages that were received. -/
def received : List SmtEvent → List UInt32 :=
  List.filterMap fun
    | .received msg => some msg
    | _ => none

/-- A queue and its beginning: no task waits yet. -/
def SmtTask.start (icsmtp : Icsmtcb) : Option SmtTask := some ⟨icsmtp, false⟩

/-- The number of messages that are sent and not received. -/
def pendingCount (t : Option SmtTask) (ops : List SmtOp) : ℕ :=
  (sent ops).length - (received (outputs smtStep t ops)).length

/-- The largest number of messages that were ever pending. -/
def LargestPending (t : Option SmtTask) (ops : List SmtOp) (high : ℕ) : Prop :=
  (∃ pre, pre <+: ops ∧ pendingCount t pre = high) ∧
    ∀ pre, pre <+: ops → pendingCount t pre ≤ high

/-- A queue with the messages `pending`; `high` were pending at most, and `last` was sent
last. -/
structure Stands (depth : ℕ) (icsmtp : Icsmtcb) (pending : List UInt32) (high : ℕ)
    (last : Option UInt32) : Prop where
  start_ne : icsmtp.icsmtstartp ≠ 0
  end_eq : icsmtp.icsmtendp = icsmtp.icsmtstartp + depth
  holds : Ring.Holds icsmtp.icsmtstartp icsmtp.icsmtendp icsmtp.cells icsmtp.icsmtgetp
    icsmtp.icsmtputp pending
  high_eq : icsmtp.icsmtmaxqueued.toNat = high
  le_high : pending.length ≤ high
  tail : ∀ msg, last = some msg → icsmtp.cells (icsmt_tail icsmtp) = msg

section Steps

variable {depth high : ℕ} {icsmtp : Icsmtcb} {pending : List UInt32} {last : Option UInt32}
  {msg : UInt32}

theorem Stands.fits (h : Stands depth icsmtp pending high last) : pending.length ≤ depth := by
  have hfits := h.holds.fits
  rw [h.end_eq, Nat.add_sub_cancel_left] at hfits
  exact hfits

/-- Only the high-water mark is written. -/
theorem exists_recordMax (icsmtp : Icsmtcb) :
    ∃ high, icsmtp.recordMax = { icsmtp with icsmtmaxqueued := high } := by
  unfold Icsmtcb.recordMax
  split_ifs
  · exact ⟨_, rfl⟩
  · by_cases hmax : icsmtp.icsmtmaxqueued < UInt32.ofNat
        (icsmtp.icsmtputp + (icsmtp.icsmtendp - icsmtp.icsmtstartp) - icsmtp.icsmtgetp + 1)
    · simp only [if_pos hmax]
      exact ⟨_, rfl⟩
    · simp only [if_neg hmax]
      exact ⟨icsmtp.icsmtmaxqueued, rfl⟩
  · exact ⟨icsmtp.icsmtmaxqueued, rfl⟩

/-- The number of messages is the high-water mark if it is larger. -/
theorem recordMax_eq {n : ℕ} (hpos : 0 < n)
    (hn : n = if icsmtp.icsmtgetp ≤ icsmtp.icsmtputp then icsmtp.icsmtputp - icsmtp.icsmtgetp
      else icsmtp.icsmtputp + (icsmtp.icsmtendp - icsmtp.icsmtstartp) - icsmtp.icsmtgetp + 1) :
    icsmtp.recordMax =
      { icsmtp with
        icsmtmaxqueued :=
          if icsmtp.icsmtmaxqueued < UInt32.ofNat n then UInt32.ofNat n
          else icsmtp.icsmtmaxqueued } := by
  unfold Icsmtcb.recordMax
  by_cases hget : icsmtp.icsmtgetp ≤ icsmtp.icsmtputp
  · rw [if_pos hget] at hn
    have hlt : icsmtp.icsmtgetp < icsmtp.icsmtputp := by omega
    rw [← hn]
    by_cases hmax : icsmtp.icsmtmaxqueued < UInt32.ofNat n
    · rw [if_pos ⟨hlt, hmax⟩, if_pos hmax]
    · rw [if_neg (fun h => hmax h.2), if_neg (Nat.not_lt.mpr hget), if_neg hmax]
  · rw [if_neg hget] at hn
    have hlt : icsmtp.icsmtputp < icsmtp.icsmtgetp := Nat.lt_of_not_le hget
    rw [if_neg (fun h => Nat.lt_asymm h.1 hlt), if_pos hlt, ← hn]
    by_cases hmax : icsmtp.icsmtmaxqueued < UInt32.ofNat n
    · simp only [if_pos hmax]
    · simp only [if_neg hmax]

/-- The larger one of two counts. -/
theorem toNat_larger {high : UInt32} {n : ℕ} (hn : n < 2 ^ 32) :
    (if high < UInt32.ofNat n then UInt32.ofNat n else high).toNat = max high.toNat n := by
  have hofNat : (UInt32.ofNat n).toNat = n := UInt32.toNat_ofNat_of_lt' hn
  split_ifs with hlt
  · rw [UInt32.lt_iff_toNat_lt, hofNat] at hlt
    rw [hofNat, Nat.max_eq_right (Nat.le_of_lt hlt)]
  · rw [UInt32.lt_iff_toNat_lt, hofNat] at hlt
    rw [Nat.max_eq_left (Nat.le_of_not_lt hlt)]

/-- The message that was put is at the tail. -/
theorem cells_tail_put (hle : icsmtp.icsmtstartp ≤ icsmtp.icsmtputp) (msg : UInt32) :
    (icsmtp.put msg).cells (icsmt_tail (icsmtp.put msg)) = msg := by
  have htail : icsmt_tail (icsmtp.put msg) = icsmtp.icsmtputp := by
    simp only [icsmt_tail, Icsmtcb.put, Ring.next]
    split_ifs <;> omega
  rw [htail]
  exact Function.update_self ..

/-- A message that fits is put behind the others. -/
theorem Stands.send (h : Stands depth icsmtp pending high last) (hdepth : depth < 2 ^ 16)
    (hlt : pending.length < depth) (msg : UInt32) :
    ∃ icsmtp', icsmt_send icsmtp msg = .ok icsmtp' ∧
      Stands depth icsmtp' (pending ++ [msg]) (max high (pending.length + 1)) (some msg) := by
  have hroom : pending.length < icsmtp.icsmtendp - icsmtp.icsmtstartp := by
    rw [h.end_eq, Nat.add_sub_cancel_left]
    exact hlt
  have hpush := h.holds.push hroom msg
  have hlength := hpush.length_eq
  rw [List.length_append, List.length_singleton] at hlength
  have hmax := @recordMax_eq (icsmtp.put msg) _ (Nat.succ_pos pending.length) hlength
  have hne : (icsmtp.put msg).icsmtputp ≠ (icsmtp.put msg).icsmtgetp := by
    intro hput
    have hnil := hpush.eq_nil_iff.mp hput
    exact List.append_ne_nil_of_right_ne_nil pending (List.cons_ne_nil msg []) hnil
  rw [icsmt_send, if_neg h.start_ne, hmax]
  simp only [if_neg hne]
  refine ⟨_, rfl, h.start_ne, h.end_eq, hpush, ?_, ?_, ?_⟩
  · rw [← h.high_eq]
    exact toNat_larger (by omega)
  · rw [List.length_append, List.length_singleton]
    exact Nat.le_max_right _ _
  · intro msg' hmsg
    obtain rfl := Option.some.inj hmsg
    exact cells_tail_put h.holds.put_mem.1 msg

/-- A message that does not fit aborts. -/
theorem Stands.send_full (h : Stands depth icsmtp pending high last)
    (hfull : pending.length = depth) (msg : UInt32) :
    icsmt_send icsmtp msg = .error .msgQueFull := by
  have hput : Ring.next icsmtp.icsmtstartp icsmtp.icsmtendp icsmtp.icsmtputp =
      icsmtp.icsmtgetp := by
    rw [h.holds.next_put_eq_iff, h.end_eq, Nat.add_sub_cancel_left]
    exact hfull
  rw [icsmt_send, if_neg h.start_ne]
  obtain ⟨high', hmax⟩ := exists_recordMax (icsmtp.put msg)
  rw [hmax]
  exact if_pos hput

/-- The first message is taken. -/
theorem Stands.take (h : Stands depth icsmtp (msg :: pending) high last) :
    icsmtp.take.1 = msg ∧ Stands depth icsmtp.take.2 pending high last where
  left := h.holds.front
  right :=
    { start_ne := h.start_ne
      end_eq := h.end_eq
      holds := h.holds.pop
      high_eq := h.high_eq
      le_high := Nat.le_of_succ_le h.le_high
      tail := h.tail }

end Steps

section Runs

variable {depth high : ℕ} {t t' : SmtTask} {pending : List UInt32} {last : Option UInt32}
  {ops : List SmtOp} {op : SmtOp} {out : List SmtEvent}

theorem sent_append (ops ops' : List SmtOp) : sent (ops ++ ops') = sent ops ++ sent ops' :=
  List.filterMap_append

theorem received_append (out out' : List SmtEvent) :
    received (out ++ out') = received out ++ received out' :=
  List.filterMap_append

/-- The queue is empty exactly if its positions are the same. -/
theorem Stands.empty_iff {icsmtp : Icsmtcb} (h : Stands depth icsmtp pending high last) :
    icsmtp.icsmtputp = icsmtp.icsmtgetp ↔ pending = [] :=
  h.holds.eq_nil_iff

/-- `icsmt_rcv` before the wait. -/
theorem Stands.rcv {icsmtp : Icsmtcb} (h : Stands depth icsmtp pending high last) :
    icsmt_rcv icsmtp =
      if pending = [] then .ok (none, icsmtp) else .ok (some icsmtp.take.1, icsmtp.take.2) := by
  rw [icsmt_rcv, if_neg h.start_ne]
  simp only [h.empty_iff]

/-- `icsmt_rcv` behind the wait. -/
theorem Stands.woken {icsmtp : Icsmtcb} (h : Stands depth icsmtp pending high last)
    (result : Bool) :
    icsmt_rcvWoken icsmtp result =
      if pending = [] ∨ result = false then (none, icsmtp)
      else (some icsmtp.take.1, icsmtp.take.2) := by
  simp only [icsmt_rcvWoken, h.empty_iff]

/-- A step that leaves the messages. -/
theorem Stands.same {icsmtp : Icsmtcb} (h : Stands depth icsmtp pending high last) :
    Stands depth icsmtp pending (max high pending.length) last := by
  rw [Nat.max_eq_left h.le_high]
  exact h

/-- A step that takes the first message. -/
theorem Stands.taken {icsmtp : Icsmtcb} (h : Stands depth icsmtp pending high last)
    (hne : pending ≠ []) :
    ∃ pending', pending = icsmtp.take.1 :: pending' ∧
      Stands depth icsmtp.take.2 pending' (max high pending'.length) last := by
  obtain ⟨msg, pending', rfl⟩ := List.exists_cons_of_ne_nil hne
  obtain ⟨hmsg, hstands⟩ := h.take
  exact ⟨pending', by rw [hmsg], hstands.same⟩

/-- What one step does to the messages of a queue. -/
theorem stands_step (hdepth : depth < 2 ^ 16) (h : Stands depth t.icsmtp pending high last)
    (hstep : smtStep (some t) op = (some t', out)) :
    ∃ pending', pending ++ sent [op] = received out ++ pending' ∧
      Stands depth t'.icsmtp pending' (max high pending'.length)
        ((sent [op]).getLast?.or last) := by
  cases op with
  | send msg =>
      simp only [smtStep] at hstep
      by_cases hfull : pending.length = depth
      · rw [h.send_full hfull msg] at hstep
        exact absurd (Prod.mk.inj hstep).1.symm (Option.some_ne_none t')
      · have hlt : pending.length < depth := Nat.lt_of_le_of_ne h.fits hfull
        obtain ⟨icsmtp', hsend, hstands⟩ := h.send hdepth hlt msg
        rw [hsend] at hstep
        obtain ⟨ht, rfl⟩ := Prod.mk.inj hstep
        obtain rfl := Option.some.inj ht
        refine ⟨pending ++ [msg], rfl, ?_⟩
        rw [List.length_append, List.length_singleton]
        exact hstands
  | rcv =>
      simp only [smtStep, h.rcv] at hstep
      by_cases hwaiting : t.waiting = true
      · rw [if_pos hwaiting] at hstep
        obtain ⟨ht, rfl⟩ := Prod.mk.inj hstep
        obtain rfl := Option.some.inj ht
        exact ⟨pending, List.append_nil pending, h.same⟩
      · rw [if_neg hwaiting] at hstep
        by_cases hnil : pending = []
        · rw [if_pos hnil] at hstep
          obtain ⟨ht, rfl⟩ := Prod.mk.inj hstep
          obtain rfl := Option.some.inj ht
          exact ⟨pending, List.append_nil pending, h.same⟩
        · rw [if_neg hnil] at hstep
          obtain ⟨ht, rfl⟩ := Prod.mk.inj hstep
          obtain rfl := Option.some.inj ht
          obtain ⟨pending', hpending, hstands⟩ := h.taken hnil
          exact ⟨pending', (List.append_nil pending).trans hpending, hstands⟩
  | woken result =>
      simp only [smtStep, h.woken] at hstep
      by_cases hwaiting : t.waiting = true
      · rw [if_pos hwaiting] at hstep
        by_cases hnone : pending = [] ∨ result = false
        · rw [if_pos hnone] at hstep
          obtain ⟨ht, rfl⟩ := Prod.mk.inj hstep
          obtain rfl := Option.some.inj ht
          exact ⟨pending, List.append_nil pending, h.same⟩
        · rw [if_neg hnone] at hstep
          obtain ⟨ht, rfl⟩ := Prod.mk.inj hstep
          obtain rfl := Option.some.inj ht
          obtain ⟨pending', hpending, hstands⟩ := h.taken fun hnil => hnone (.inl hnil)
          exact ⟨pending', (List.append_nil pending).trans hpending, hstands⟩
      · rw [if_neg hwaiting] at hstep
        obtain ⟨ht, rfl⟩ := Prod.mk.inj hstep
        obtain rfl := Option.some.inj ht
        exact ⟨pending, List.append_nil pending, h.same⟩

/-- The high-water mark of a longer run. -/
theorem LargestPending.concat {s : Option SmtTask} (h : LargestPending s ops high)
    (op : SmtOp) :
    LargestPending s (ops ++ [op]) (max high (pendingCount s (ops ++ [op]))) := by
  obtain ⟨⟨pre, hpre, hcount⟩, hle⟩ := h
  constructor
  · rcases Nat.le_total high (pendingCount s (ops ++ [op])) with hmax | hmax
    · exact ⟨ops ++ [op], List.prefix_rfl, (Nat.max_eq_right hmax).symm⟩
    · refine ⟨pre, hpre.trans (List.prefix_append ops [op]), ?_⟩
      rw [hcount, Nat.max_eq_left hmax]
  · intro pre' hpre'
    rcases List.prefix_concat_iff.mp hpre' with rfl | hpre'
    · exact Nat.le_max_right _ _
    · exact Nat.le_trans (hle pre' hpre') (Nat.le_max_left _ _)

/-- The messages of a queue after a run that did not abort. -/
theorem stands_run (hdepth : depth < 2 ^ 16) {icsmtp : Icsmtcb}
    (h : Stands depth icsmtp [] 0 none) (ops : List SmtOp) {t : SmtTask}
    (ht : after smtStep (SmtTask.start icsmtp) ops = some t) :
    ∃ pending high,
      sent ops = received (outputs smtStep (SmtTask.start icsmtp) ops) ++ pending ∧
        Stands depth t.icsmtp pending high (sent ops).getLast? ∧
          LargestPending (SmtTask.start icsmtp) ops high := by
  induction ops using List.reverseRecOn generalizing t with
  | nil =>
      obtain rfl := Option.some.inj ht
      refine ⟨[], 0, rfl, h, ⟨[], List.prefix_rfl, rfl⟩, fun pre hpre => ?_⟩
      rw [List.prefix_nil.mp hpre]
      exact Nat.le_refl 0
  | append_singleton ops op ih =>
      rw [after_concat] at ht
      cases hafter : after smtStep (SmtTask.start icsmtp) ops with
      | none =>
          rw [hafter] at ht
          exact absurd ht.symm (Option.some_ne_none t)
      | some s =>
          obtain ⟨pending, high, horder, hstands, hlargest⟩ := ih hafter
          rw [hafter] at ht
          have hstep : smtStep (some s) op = (some t, (smtStep (some s) op).2) :=
            Prod.ext ht rfl
          obtain ⟨pending', hpending, hstands'⟩ := stands_step hdepth hstands hstep
          have horder' : sent (ops ++ [op]) =
              received (outputs smtStep (SmtTask.start icsmtp) (ops ++ [op])) ++ pending' := by
            rw [sent_append, horder, outputs_concat, hafter, received_append, List.append_assoc,
              List.append_assoc, hpending]
          have hcount : pendingCount (SmtTask.start icsmtp) (ops ++ [op]) = pending'.length := by
            rw [pendingCount, horder', List.length_append, Nat.add_sub_cancel_left]
          refine ⟨pending', max high pending'.length, horder', ?_, ?_⟩
          · rw [sent_append, List.getLast?_append]
            exact hstands'
          · rw [← hcount]
            exact hlargest.concat op

/-- A new queue holds nothing. -/
theorem stands_create {icsmtp icsmtp' : Icsmtcb} {smtqueuedepth : UInt16} {memp : ℕ}
    (hne : smtqueuedepth ≠ 0) (h : icsmt_create icsmtp smtqueuedepth memp = .ok icsmtp') :
    Stands smtqueuedepth.toNat icsmtp' [] 0 none := by
  rw [icsmt_create, if_pos hne] at h
  split_ifs at h with hmemp
  obtain rfl := Except.ok.inj h
  exact
    { start_ne := hmemp
      end_eq := rfl
      holds := Ring.holds_nil (Nat.le_refl memp) (Nat.le_add_right memp _)
      high_eq := rfl
      le_high := Nat.le_refl 0
      tail := fun msg hmsg => absurd hmsg.symm (Option.some_ne_none msg) }

/-- A queue of a task after operations, seen from outside. -/
structure IsFifo (depth : ℕ) (icsmtp : Icsmtcb) (ops : List SmtOp) (t : SmtTask) : Prop where
  order : received (outputs smtStep (SmtTask.start icsmtp) ops) <+: sent ops
  pending_le : pendingCount (SmtTask.start icsmtp) ops ≤ depth
  aborts : ∀ op, (smtStep (some t) op).1 = none ↔
    (∃ msg, op = .send msg) ∧ pendingCount (SmtTask.start icsmtp) ops = depth
  delivers : ∀ op, op = .rcv ∧ t.waiting = false ∨ op = .woken true ∧ t.waiting = true →
    received (smtStep (some t) op).2 =
      ((sent ops).drop (received (outputs smtStep (SmtTask.start icsmtp) ops)).length).take 1
  maxqueued : LargestPending (SmtTask.start icsmtp) ops (icsmt_getmaxqueued t.icsmtp).toNat
  tail : ∀ msg, (sent ops).getLast? = some msg → t.icsmtp.cells (icsmt_tail t.icsmtp) = msg

/-- What is received next is the first message. -/
theorem Stands.received_take {icsmtp : Icsmtcb} (h : Stands depth icsmtp pending high last)
    (hne : pending ≠ []) : received [.received icsmtp.take.1] = pending.take 1 := by
  obtain ⟨pending', hpending, -⟩ := h.taken hne
  rw [hpending]
  rfl

/-- Only a message that does not fit aborts. -/
theorem Stands.aborts (h : Stands depth t.icsmtp pending high last) (hdepth : depth < 2 ^ 16)
    (op : SmtOp) :
    (smtStep (some t) op).1 = none ↔ (∃ msg, op = .send msg) ∧ pending.length = depth := by
  cases op with
  | send msg =>
      rw [and_iff_right ⟨msg, rfl⟩]
      by_cases hfull : pending.length = depth
      · simp [smtStep, h.send_full hfull msg, hfull]
      · have hlt : pending.length < depth := Nat.lt_of_le_of_ne h.fits hfull
        obtain ⟨icsmtp', hsend, -⟩ := h.send hdepth hlt msg
        simp [smtStep, hsend, hfull]
  | rcv =>
      simp only [smtStep, h.rcv]
      split_ifs <;> simp
  | woken result =>
      simp only [smtStep, h.woken]
      split_ifs <;> simp

theorem Stands.delivers (h : Stands depth t.icsmtp pending high last) {op : SmtOp}
    (hop : op = .rcv ∧ t.waiting = false ∨ op = .woken true ∧ t.waiting = true) :
    received (smtStep (some t) op).2 = pending.take 1 := by
  rcases hop with ⟨rfl, hwaiting⟩ | ⟨rfl, hwaiting⟩
  · simp only [smtStep, hwaiting, h.rcv]
    by_cases hnil : pending = []
    · simp [hnil, received]
    · simp only [if_neg hnil]
      exact h.received_take hnil
  · simp only [smtStep, hwaiting, h.woken]
    by_cases hnil : pending = []
    · simp [hnil, received]
    · simp only [hnil, Bool.true_eq_false, or_false]
      exact h.received_take hnil

/-- In every run of a queue, the messages are received in the order they were sent, and none is
lost or received twice; the high-water mark and the tail are what they say. -/
theorem icsmt_isFifo {icsmtp icsmtp' : Icsmtcb} {smtqueuedepth : UInt16} {memp : ℕ}
    (hne : smtqueuedepth ≠ 0) (hcreate : icsmt_create icsmtp smtqueuedepth memp = .ok icsmtp')
    {ops : List SmtOp} {t : SmtTask} (ht : after smtStep (SmtTask.start icsmtp') ops = some t) :
    IsFifo smtqueuedepth.toNat icsmtp' ops t := by
  have hdepth : smtqueuedepth.toNat < 2 ^ 16 := smtqueuedepth.toNat_lt
  obtain ⟨pending, high, horder, hstands, hlargest⟩ :=
    stands_run hdepth (stands_create hne hcreate) ops ht
  have hcount : pendingCount (SmtTask.start icsmtp') ops = pending.length := by
    rw [pendingCount, horder, List.length_append, Nat.add_sub_cancel_left]
  refine ⟨⟨pending, horder.symm⟩, hcount ▸ hstands.fits, fun op => ?_, fun op hop => ?_, ?_,
    hstands.tail⟩
  · rw [hcount]
    exact hstands.aborts hdepth op
  · rw [hstands.delivers hop, horder, List.drop_left]
  · rw [icsmt_getmaxqueued, hstands.high_eq]
    exact hlargest

/-- A control block before its queue is made. -/
def noQueue : Icsmtcb := ⟨0, 0, 0, 0, 0, 0, 0, fun _ => 0⟩

/-- A queue of depth two, of which the positions have wrapped. -/
theorem icsmt_isFifo_wrapped :
    ∃ icsmtp t, icsmt_create noQueue 2 16 = .ok icsmtp ∧
      after smtStep (SmtTask.start icsmtp)
        [.send 7, .rcv, .send 8, .send 9, .rcv, .send 10] = some t ∧
      IsFifo 2 icsmtp [.send 7, .rcv, .send 8, .send 9, .rcv, .send 10] t :=
  ⟨_, _, rfl, rfl, icsmt_isFifo (show (2 : UInt16) ≠ 0 by decide)
    (show icsmt_create noQueue 2 16 = .ok _ from rfl) rfl⟩

end Runs

end Ic

end SierraSdk
