import Mathlib.Data.List.Perm.Subperm
import SierraSdk.Ril.HeldSms

/-!
# What an acknowledgement is for

`verdict` says what becomes of a message that is dispatched, as far as the message and the
answer of the device determine it. A step first changes the queue (`prepare`) and then
dispatches its head or not (`smsStep_eq`).

While an acknowledgement is outstanding, the head is the message that was dispatched last, as
long as no message is discarded then and no broadcast is dispatched as a stored message
(`meets_ackTargetsHead_iff`).
-/

namespace SierraSdk

namespace Ril

open Machine Sms

/-- What becomes of a message that is dispatched: it is handed to the upper layer, it is left as
it is, or the head is deleted, with the outstanding acknowledgement kept or dropped. -/
inductive Verdict where
  | sent
  | kept
  | discarded
  | rejected
  deriving DecidableEq

def storedVerdict (r : SmsRead) : Verdict :=
  if r.format = smsFormatGsmWcdma then .sent
  else if r.format = smsFormatCdma then
    if (CDMADecodeMTTextMsg r.message noCdmaMessage).1 = .none then .sent else .kept
  else .discarded

def routedVerdict (info : SMSTransferRouteMTMessageInfo) : Verdict :=
  if info.format = smsFormatCb then .kept
  else if info.format = smsFormatGsmWcdma then
    match retrieveMessageType info.data with
    | .submitReport => .rejected
    | _ => .sent
  else .discarded

/-- What becomes of a message when the device answers `read`. -/
def verdict (msg : SMSEventInfo) (read : Option SmsRead) : Verdict :=
  match msg.pMTMessageInfo, msg.pTransferRouteMTMessageInfo with
  | some _, _ => (read.map storedVerdict).getD .kept
  | none, some info => routedVerdict info
  | none, none => .discarded

/-- The queue after a message with a verdict. -/
def Verdict.queueAfter (queue : List HeldMessage) : Verdict → List HeldMessage
  | .sent => queue
  | .kept => queue
  | .discarded => queue.tail
  | .rejected => queue.tail

/-- Whether an acknowledgement is outstanding after a message with a verdict. -/
def Verdict.outstandingAfter (outstanding : Bool) : Verdict → Bool
  | .sent => true
  | .kept => outstanding
  | .discarded => outstanding
  | .rejected => false

/-- The state after a message with a verdict. -/
structure Dispatches (s : SmsState) (id : ℕ) (v : Verdict) (s' : SmsState) : Prop where
  queue : s'.held_message_info = v.queueAfter s.held_message_info
  outstanding : s'.outstanding_acknowledge = v.outstandingAfter s.outstanding_acknowledge
  lastDispatched : s'.lastDispatched = if v = .sent then some id else s.lastDispatched
  nextId : s'.nextId = s.nextId

section Dispatch

variable (s : SmsState) (id : ℕ)

theorem delete_held_message_queue :
    (delete_held_message s).1 = { s with held_message_info := s.held_message_info.tail } := by
  unfold delete_held_message
  cases hqueue : s.held_message_info with
  | nil =>
      cases s
      cases hqueue
      rfl
  | cons message next => rfl

theorem dispatches_discard (out : List SmsOutput) :
    Dispatches s id .discarded (discard s out).1 := by
  rw [discard, delete_held_message_queue]
  exact ⟨rfl, rfl, rfl, rfl⟩

theorem dispatches_stored (r : SmsRead) :
    Dispatches s id (storedVerdict r) (dispatchStored s id r).1 := by
  unfold storedVerdict dispatchStored
  by_cases hgsm : r.format = smsFormatGsmWcdma
  · rw [if_pos hgsm, if_pos hgsm]
    exact ⟨rfl, rfl, rfl, rfl⟩
  rw [if_neg hgsm, if_neg hgsm]
  by_cases hcdma : r.format = smsFormatCdma
  · rw [if_pos hcdma, if_pos hcdma]
    rcases hdecode : CDMADecodeMTTextMsg r.message noCdmaMessage with ⟨rc, args⟩
    cases rc <;> exact ⟨rfl, rfl, rfl, rfl⟩
  rw [if_neg hcdma, if_neg hcdma]
  split_ifs
  · have hsame := dispatches_discard (indicateVoicemail s (r.message.getD 0 0)).1 id
      (indicateVoicemail s (r.message.getD 0 0)).2
    unfold indicateVoicemail at hsame ⊢
    split_ifs at hsame ⊢ <;>
      exact ⟨hsame.queue, hsame.outstanding, hsame.lastDispatched, hsame.nextId⟩
  · exact dispatches_discard s id []

theorem dispatches_routed (msg : SMSEventInfo) (info : SMSTransferRouteMTMessageInfo) :
    Dispatches s id (routedVerdict info) (dispatchRouted s id msg info).1 := by
  unfold routedVerdict dispatchRouted
  split_ifs
  · exact ⟨rfl, rfl, rfl, rfl⟩
  · cases retrieveMessageType info.data with
    | smsDeliver => exact ⟨rfl, rfl, rfl, rfl⟩
    | statusReport => exact ⟨rfl, rfl, rfl, rfl⟩
    | submitReport =>
        dsimp only
        rw [discard, delete_held_message_queue]
        exact ⟨rfl, rfl, rfl, rfl⟩
  · exact dispatches_discard s id []

/-- What `NewSMSDispatch` does is its verdict. -/
theorem dispatches (msg : SMSEventInfo) (read : Option SmsRead) :
    Dispatches s id (verdict msg read) (NewSMSDispatch s id msg read).1 := by
  unfold verdict NewSMSDispatch
  rcases msg with ⟨mt, mode, route, smsc⟩
  cases mt with
  | some info =>
      cases read with
      | none => exact ⟨rfl, rfl, rfl, rfl⟩
      | some r => exact dispatches_stored s id r
  | none =>
      cases route with
      | some info => exact dispatches_routed s id _ info
      | none => exact dispatches_discard s id []

end Dispatch

/-- The answer with which a step dispatches. -/
def SmsEvent.read : SmsEvent → Option SmsRead
  | .notify _ _ _ read => read
  | .scanned _ _ _ => none
  | .scanEnd _ read => read
  | .acknowledge _ _ read => read
  | .failure read => read
  | .ackStatus read => read

/-- The message of an event that notifies a broadcast. -/
def SmsEvent.broadcast : SmsEvent → Option SMSEventInfo
  | .notify msg (some _) _ _ => if msg.isCellBroadcast then some msg else none
  | _ => none

/-- What a step does before it dispatches, and whether it dispatches. -/
def prepare (s : SmsState) : SmsEvent → SmsState × Bool
  | .notify msg messageMode enqueueRead _ =>
      match messageMode with
      | none => (s, false)
      | some messageMode =>
          (enqueue_held_message s msg messageMode enqueueRead,
            !(enqueue_held_message s msg messageMode enqueueRead).outstanding_acknowledge)
  | .scanned messageMode info enqueueRead => (enqueueScanned s messageMode info enqueueRead, false)
  | .scanEnd isMsgEnqueued _ => (s, isMsgEnqueued && !s.outstanding_acknowledge)
  | .acknowledge cdma ackSuccess _ =>
      if !s.outstanding_acknowledge then (s, false)
      else if ackSuccess then
        ((delete_held_message { s with outstanding_acknowledge := false }).1, true)
      else if cdma then ({ s with outstanding_acknowledge := false }, false)
      else parse_and_prioritize_queue { s with outstanding_acknowledge := false }
  | .failure _ =>
      if s.failureEvents = 0 then (s, false)
      else ({ s with failureEvents := s.failureEvents - 1 }, true)
  | .ackStatus _ =>
      if !s.ackstatus_enqueue_event then (s, false)
      else if s.outstanding_acknowledge && s.currentMTmsgIndex == s.ackStatusIndex then
        ({ s with ackstatus_enqueue_event := false, outstanding_acknowledge := false }, true)
      else ({ s with ackstatus_enqueue_event := false }, false)

/-- A step that notifies no broadcast prepares and dispatches. -/
theorem smsStep_eq {s : SmsState} {event : SmsEvent} (h : event.broadcast = none) :
    (smsStep s event).1 =
      if (prepare s event).2 then (dispatchHead (prepare s event).1 event.read).1
      else (prepare s event).1 := by
  cases event with
  | notify msg messageMode enqueueRead read =>
      cases messageMode with
      | none => rfl
      | some messageMode =>
          have hcb : msg.isCellBroadcast = false := by
            simpa [SmsEvent.broadcast] using h
          by_cases hwait : (enqueue_held_message s msg messageMode
              enqueueRead).outstanding_acknowledge = true <;>
            simp [smsStep, NewSmsCallback, prepare, SmsEvent.read, hcb, hwait]
  | scanned messageMode info enqueueRead => rfl
  | scanEnd isMsgEnqueued read =>
      simp only [smsStep, dispatchScanned, prepare, SmsEvent.read]
      split_ifs <;> simp [*]
  | acknowledge cdma ackSuccess read =>
      simp only [smsStep, requestSMSAcknowledge, prepare, SmsEvent.read]
      split_ifs <;> simp_all
  | failure read =>
      simp only [smsStep, onSMSFailure, prepare, SmsEvent.read]
      split_ifs <;> simp_all
  | ackStatus read =>
      simp only [smsStep, checkAckStatus, prepare, SmsEvent.read]
      split_ifs <;> simp_all

theorem smsStep_broadcast {s : SmsState} {event : SmsEvent} {msg : SMSEventInfo}
    (h : event.broadcast = some msg) :
    (smsStep s event).1 =
      (NewSMSDispatch s.numbered s.nextId msg event.read).1.enqueueFailure := by
  cases event with
  | notify msg' messageMode enqueueRead read =>
      cases messageMode with
      | none => cases h
      | some messageMode =>
          simp only [SmsEvent.broadcast] at h
          split_ifs at h with hcb
          cases h
          simp [smsStep, NewSmsCallback, SmsEvent.read, hcb]
  | _ => cases h

section Enqueue

variable {s : SmsState} {message : HeldMessage}

/-- What a message that is put in a queue leaves. -/
structure PutInQueue (s : SmsState) (message : HeldMessage) (s' : SmsState) : Prop where
  outstanding : s'.outstanding_acknowledge = s.outstanding_acknowledge
  lastDispatched : s'.lastDispatched = s.lastDispatched
  nextId : s'.nextId = s.nextId
  queue : s'.held_message_info = s.held_message_info ++ [message] ∨
    (s.outstanding_acknowledge = false ∧
      s'.held_message_info = message :: s.held_message_info) ∨
    (∃ p next, s.held_message_info = p :: next ∧ s'.held_message_info = p :: message :: next) ∨
    (s.outstanding_acknowledge = true ∧ s.held_message_info = [] ∧ s'.held_message_info = [])

theorem putInQueue_append : PutInQueue s message (s.append message) := ⟨rfl, rfl, rfl, .inl rfl⟩

theorem putInQueue_insertClassZero : PutInQueue s message (s.insertClassZero message) := by
  unfold SmsState.insertClassZero
  by_cases hwait : s.outstanding_acknowledge = true
  · rw [if_pos hwait]
    cases hqueue : s.held_message_info with
    | nil => exact ⟨rfl, rfl, rfl, .inr (.inr (.inr ⟨hwait, hqueue, hqueue⟩))⟩
    | cons p next => exact ⟨rfl, rfl, rfl, .inr (.inr (.inl ⟨p, next, hqueue, rfl⟩))⟩
  · rw [if_neg hwait]
    exact ⟨rfl, rfl, rfl, .inr (.inl ⟨Bool.eq_false_iff.mpr hwait, rfl⟩)⟩

/-- The two messages are one, but for what is known of the class and copied. -/
structure HeldMessage.SameHeld (message held : HeldMessage) : Prop where
  id : held.id = message.id
  messageMode : held.messageMode = message.messageMode
  pMTMessageInfo : held.pMsg.pMTMessageInfo = message.pMsg.pMTMessageInfo
  routed : message.pMsg.pMTMessageInfo = none → held.pMsg = message.pMsg

theorem exists_putInQueue_enqueueRoute :
    ∃ held, message.SameHeld held ∧ PutInQueue s held (enqueueRoute s message) := by
  unfold enqueueRoute
  cases message.pMsg.pTransferRouteMTMessageInfo with
  | none => exact ⟨message, ⟨rfl, rfl, rfl, fun _ => rfl⟩, putInQueue_append⟩
  | some info =>
      dsimp only
      split_ifs
      · refine ⟨_, ?_, putInQueue_insertClassZero⟩
        exact ⟨rfl, rfl, rfl, fun _ => rfl⟩
      · refine ⟨_, ?_, putInQueue_append⟩
        exact ⟨rfl, rfl, rfl, fun _ => rfl⟩

/-- A message is put in the queue, or it is not read and goes nowhere. -/
theorem enqueue_held_message_cases (s : SmsState) (msg : SMSEventInfo) (messageMode : UInt8)
    (read : Option SmsRead) :
    ((newMessage s msg messageMode).readsClass = true ∧ read = none ∧
      enqueue_held_message s msg messageMode read = s.numbered) ∨
    ∃ held, (newMessage s msg messageMode).SameHeld held ∧
      PutInQueue s.numbered held (enqueue_held_message s msg messageMode read) := by
  unfold enqueue_held_message
  dsimp only
  by_cases hclass : (newMessage s msg messageMode).readsClass = true
  · rw [if_pos hclass]
    cases read with
    | none => exact .inl ⟨hclass, rfl, rfl⟩
    | some r =>
        right
        dsimp only
        split_ifs
        · refine ⟨_, ?_, putInQueue_insertClassZero⟩
          refine ⟨rfl, rfl, rfl, fun hnone => ?_⟩
          have hstored : msg.pMTMessageInfo.isSome := (Bool.and_eq_true_iff.mp hclass).1
          rw [show msg.pMTMessageInfo = none from hnone] at hstored
          cases hstored
        · obtain ⟨held, hsame, hput⟩ := @exists_putInQueue_enqueueRoute s.numbered
            { newMessage s msg messageMode with messageClass := retrieveMessageClass r.message }
          exact ⟨held, ⟨hsame.id, hsame.messageMode, hsame.pMTMessageInfo, hsame.routed⟩, hput⟩
  · rw [if_neg hclass]
    exact .inr exists_putInQueue_enqueueRoute

/-- What is held is a part of the queue with the new message. -/
theorem PutInQueue.subperm {s' : SmsState} (h : PutInQueue s message s') :
    s'.held_message_info.Subperm (message :: s.held_message_info) := by
  rcases h.queue with hq | ⟨_, hq⟩ | ⟨p, next, hs, hq⟩ | ⟨_, hs, hq⟩
  · rw [hq]
    exact (List.perm_append_singleton message s.held_message_info).subperm
  · rw [hq]
  · rw [hq, hs]
    exact (List.Perm.swap message p next).subperm
  · rw [hq]
    exact List.nil_subperm

theorem insertBehindClassZero_perm (q : HeldMessage) (queue : List HeldMessage) :
    (insertBehindClassZero q queue).Perm (q :: queue) := by
  induction queue with
  | nil => exact .refl _
  | cons p next ih =>
      rw [insertBehindClassZero]
      split_ifs
      · exact (ih.cons p).trans (.swap q p next)
      · exact .refl _

/-- The queue is only put in another order. -/
theorem parse_and_prioritize_queue_eq (s : SmsState) :
    ∃ queue, queue.Perm s.held_message_info ∧
      (parse_and_prioritize_queue s).1 = { s with held_message_info := queue } := by
  unfold parse_and_prioritize_queue
  split
  · rename_i q p next hqueue
    split_ifs
    · exact ⟨_, .refl _, rfl⟩
    · exact ⟨_, hqueue ▸ insertBehindClassZero_perm q (p :: next), rfl⟩
    · exact ⟨_, .refl _, rfl⟩
  · exact ⟨_, .refl _, rfl⟩

end Enqueue

/-- While an acknowledgement is outstanding, the head of the queue is the message that was
handed to the upper layer last. -/
def AckTargetsHead (s : SmsState) : Prop :=
  s.outstanding_acknowledge = true →
    ∃ message next, s.held_message_info = message :: next ∧ s.lastDispatched = some message.id

/-- The messages that are held have different numbers, all of them used. -/
structure Fresh (s : SmsState) : Prop where
  nodup : (s.held_message_info.map HeldMessage.id).Nodup
  lt : ∀ message ∈ s.held_message_info, message.id < s.nextId

/-- What becomes of the head when the device answers `read`. -/
def SmsState.headVerdict (s : SmsState) (read : Option SmsRead) : Verdict :=
  match s.held_message_info with
  | [] => .kept
  | message :: _ => verdict message.pMsg read

/-- A step that discards nothing while an acknowledgement is outstanding, and hands nothing to
the upper layer that is not held. -/
def AckSafe (s : SmsState) (event : SmsEvent) : Prop :=
  match event with
  | .failure read =>
      s.failureEvents ≠ 0 → s.outstanding_acknowledge = true → s.headVerdict read ≠ .discarded
  | .notify msg (some _) _ read =>
      msg.isCellBroadcast = true →
        verdict msg read ≠ .sent ∧
          (s.outstanding_acknowledge = true → verdict msg read ≠ .discarded)
  | _ => True

section Fresh

variable {s s' : SmsState} {id : ℕ} {v : Verdict}

theorem fresh_smsStart : Fresh smsStart := ⟨List.nodup_nil, fun _ h => absurd h List.not_mem_nil⟩

/-- A part of the queue in any order, with no fewer numbers used. -/
theorem Fresh.of_subperm (h : Fresh s) (hqueue : s'.held_message_info.Subperm s.held_message_info)
    (hid : s.nextId ≤ s'.nextId) : Fresh s' := by
  refine ⟨?_, fun message hm => Nat.lt_of_lt_of_le (h.lt message (hqueue.subset hm)) hid⟩
  obtain ⟨queue, hperm, hsub⟩ := hqueue
  exact (hperm.map HeldMessage.id).nodup_iff.mp (h.nodup.sublist (hsub.map HeldMessage.id))

theorem Dispatches.queue_sublist (h : Dispatches s id v s') :
    s'.held_message_info.Sublist s.held_message_info := by
  rw [h.queue]
  cases v with
  | sent => exact List.Sublist.refl _
  | kept => exact List.Sublist.refl _
  | discarded => exact List.tail_sublist _
  | rejected => exact List.tail_sublist _

theorem Fresh.dispatches (h : Fresh s) (hd : Dispatches s id v s') : Fresh s' :=
  h.of_subperm hd.queue_sublist.subperm (Nat.le_of_eq hd.nextId.symm)

theorem Fresh.dispatchHead (h : Fresh s) (read : Option SmsRead) :
    Fresh (dispatchHead s read).1 := by
  unfold Ril.dispatchHead
  split
  · exact h
  · exact h.dispatches (Ril.dispatches s _ _ read)

theorem Fresh.enqueue (h : Fresh s) (msg : SMSEventInfo) (messageMode : UInt8)
    (read : Option SmsRead) : Fresh (enqueue_held_message s msg messageMode read) := by
  rcases enqueue_held_message_cases s msg messageMode read with ⟨_, _, heq⟩ | ⟨held, hsame, hput⟩
  · rw [heq]
    exact h.of_subperm (List.Subperm.refl _) (Nat.le_succ _)
  · have hid : held.id = s.nextId := hsame.id
    have hnew : Fresh { s.numbered with held_message_info := held :: s.held_message_info } := by
      constructor
      · refine List.nodup_cons.mpr ⟨fun hmem => ?_, h.nodup⟩
        obtain ⟨message, hm, heq⟩ := List.mem_map.mp hmem
        have hlt := h.lt message hm
        rw [heq, hid] at hlt
        exact Nat.lt_irrefl _ hlt
      · intro message hm
        rcases List.mem_cons.mp hm with rfl | hm
        · rw [hid]
          exact Nat.lt_succ_self _
        · exact Nat.lt_succ_of_lt (h.lt message hm)
    exact hnew.of_subperm hput.subperm (Nat.le_of_eq hput.nextId.symm)

theorem Fresh.prepare (h : Fresh s) (event : SmsEvent) : Fresh (prepare s event).1 := by
  cases event with
  | notify msg messageMode enqueueRead read =>
      cases messageMode with
      | none => exact h
      | some messageMode => exact h.enqueue msg messageMode enqueueRead
  | scanned messageMode info enqueueRead =>
      change Fresh (enqueueScanned s messageMode info enqueueRead)
      unfold enqueueScanned
      split_ifs
      · exact h
      · exact h.enqueue _ _ _
  | scanEnd isMsgEnqueued read => exact h
  | acknowledge cdma ackSuccess read =>
      simp only [Ril.prepare]
      split_ifs
      · exact h
      · rw [delete_held_message_queue]
        exact h.of_subperm (List.tail_sublist _).subperm (Nat.le_refl _)
      · exact h.of_subperm (List.Subperm.refl _) (Nat.le_refl _)
      · obtain ⟨queue, hperm, heq⟩ :=
          parse_and_prioritize_queue_eq { s with outstanding_acknowledge := false }
        rw [heq]
        exact h.of_subperm hperm.subperm (Nat.le_refl _)
  | failure read =>
      simp only [Ril.prepare]
      split_ifs
      · exact h
      · exact h.of_subperm (List.Subperm.refl _) (Nat.le_refl _)
  | ackStatus read =>
      simp only [Ril.prepare]
      split_ifs
      · exact h
      · exact h.of_subperm (List.Subperm.refl _) (Nat.le_refl _)
      · exact h.of_subperm (List.Subperm.refl _) (Nat.le_refl _)

/-- A step keeps the numbers of the held messages different. -/
theorem Fresh.step (h : Fresh s) (event : SmsEvent) : Fresh (smsStep s event).1 := by
  cases hcast : event.broadcast with
  | none =>
      rw [smsStep_eq hcast]
      split_ifs
      · exact (h.prepare event).dispatchHead event.read
      · exact h.prepare event
  | some msg =>
      rw [smsStep_broadcast hcast]
      have hnumbered : Fresh s.numbered :=
        h.of_subperm (List.Subperm.refl _) (Nat.le_succ _)
      exact (hnumbered.dispatches (Ril.dispatches s.numbered s.nextId msg event.read)).of_subperm
        (List.Subperm.refl _) (Nat.le_refl _)

end Fresh

section Targets

variable {s s' : SmsState}

/-- If a head that waits is discarded, the message that was handed to the upper layer is not at
the head any more. -/
theorem AckTargetsHead.not_of_discarded (h : AckTargetsHead s)
    (hnodup : (s.held_message_info.map HeldMessage.id).Nodup) {id : ℕ}
    (hd : Dispatches s id .discarded s') (hwait : s.outstanding_acknowledge = true) :
    ¬ AckTargetsHead s' := by
  intro htargets
  obtain ⟨m, rest, hm, hlast⟩ := htargets (hd.outstanding.trans hwait)
  obtain ⟨m', rest', hm', hlast'⟩ := h hwait
  have hrest : rest' = m :: rest := by
    have hqueue : s.held_message_info.tail = m :: rest := hd.queue.symm.trans hm
    rwa [hm'] at hqueue
  -- the number of the head that was deleted is the number of the next message
  have hid : m'.id = m.id :=
    Option.some.inj (hlast'.symm.trans (hd.lastDispatched.symm.trans hlast))
  rw [hm', hrest, List.map_cons, List.map_cons, hid] at hnodup
  exact absurd List.mem_cons_self (List.nodup_cons.mp hnodup).1

/-- A dispatch of the head makes it the one that is waited for, unless it is discarded while
an acknowledgement is outstanding. -/
theorem ackTargetsHead_dispatchHead_iff (hfresh : Fresh s) (h : AckTargetsHead s)
    (read : Option SmsRead) :
    AckTargetsHead (dispatchHead s read).1 ↔
      (s.outstanding_acknowledge = true → s.headVerdict read ≠ .discarded) := by
  unfold dispatchHead SmsState.headVerdict
  cases hqueue : s.held_message_info with
  | nil => exact ⟨fun _ _ => nofun, fun _ => h⟩
  | cons message next =>
      dsimp only
      have hd := dispatches s message.id message.pMsg read
      cases hv : verdict message.pMsg read with
      | sent =>
          rw [hv] at hd
          exact ⟨fun _ _ => nofun,
            fun _ _ => ⟨message, next, hd.queue.trans hqueue, hd.lastDispatched⟩⟩
      | kept =>
          rw [hv] at hd
          refine ⟨fun _ _ => nofun, fun _ hwait => ?_⟩
          rw [hd.queue, hd.lastDispatched]
          exact h (hd.outstanding.symm.trans hwait)
      | discarded =>
          rw [hv] at hd
          constructor
          · intro htargets hwait
            exact absurd htargets (h.not_of_discarded hfresh.nodup hd hwait)
          · intro hnot hwait
            exact absurd rfl (hnot (hd.outstanding.symm.trans hwait))
      | rejected =>
          rw [hv] at hd
          refine ⟨fun _ _ => nofun, fun _ hwait => ?_⟩
          rw [hd.outstanding] at hwait
          cases hwait

/-- A message that is put in the queue does not come in front of a head that waits. -/
theorem AckTargetsHead.putInQueue {message : HeldMessage} (h : AckTargetsHead s)
    (hput : PutInQueue s message s') : AckTargetsHead s' := by
  intro hwait
  have hwait' : s.outstanding_acknowledge = true := hput.outstanding.symm.trans hwait
  obtain ⟨m, next, hqueue, hlast⟩ := h hwait'
  rw [hput.lastDispatched]
  rcases hput.queue with hq | ⟨hnot, _⟩ | ⟨p, rest, hs, hq⟩ | ⟨_, hs, _⟩
  · exact ⟨m, next ++ [message], by rw [hq, hqueue]; rfl, hlast⟩
  · rw [hwait'] at hnot
    cases hnot
  · obtain ⟨rfl, rfl⟩ := List.cons.inj (hqueue.symm.trans hs)
    exact ⟨m, message :: next, hq, hlast⟩
  · cases hqueue.symm.trans hs

theorem AckTargetsHead.enqueue (h : AckTargetsHead s) (msg : SMSEventInfo) (messageMode : UInt8)
    (read : Option SmsRead) : AckTargetsHead (enqueue_held_message s msg messageMode read) := by
  rcases enqueue_held_message_cases s msg messageMode read with ⟨_, _, heq⟩ | ⟨held, _, hput⟩
  · rw [heq]
    exact h
  · exact AckTargetsHead.putInQueue (s := s.numbered) h hput

theorem ackTargetsHead_of_not_waiting (h : s.outstanding_acknowledge = false) :
    AckTargetsHead s := by
  intro hwait
  rw [h] at hwait
  cases hwait

/-- What a step does before it dispatches keeps the head that waits; and only a failure
dispatches while an acknowledgement is outstanding. -/
theorem AckTargetsHead.prepare (h : AckTargetsHead s) (event : SmsEvent) :
    AckTargetsHead (prepare s event).1 ∧
      ((prepare s event).2 = true → (prepare s event).1.outstanding_acknowledge = true →
        ∃ read, event = .failure read) := by
  cases event with
  | notify msg messageMode enqueueRead read =>
      cases messageMode with
      | none => exact ⟨h, nofun⟩
      | some messageMode =>
          refine ⟨h.enqueue msg messageMode enqueueRead, fun hgo hwait => ?_⟩
          simp only [Ril.prepare] at hgo hwait
          rw [hwait] at hgo
          cases hgo
  | scanned messageMode info enqueueRead =>
      refine ⟨?_, nofun⟩
      change AckTargetsHead (enqueueScanned s messageMode info enqueueRead)
      unfold enqueueScanned
      split_ifs
      · exact h
      · exact h.enqueue _ _ _
  | scanEnd isMsgEnqueued read =>
      refine ⟨h, fun hgo hwait => ?_⟩
      simp only [Ril.prepare] at hgo hwait
      rw [hwait, Bool.not_true, Bool.and_false] at hgo
      cases hgo
  | acknowledge cdma ackSuccess read =>
      simp only [Ril.prepare]
      split_ifs
      · exact ⟨h, nofun⟩
      · rw [delete_held_message_queue]
        exact ⟨ackTargetsHead_of_not_waiting rfl, nofun⟩
      · exact ⟨ackTargetsHead_of_not_waiting rfl, nofun⟩
      · obtain ⟨queue, _, heq⟩ :=
          parse_and_prioritize_queue_eq { s with outstanding_acknowledge := false }
        rw [heq]
        exact ⟨ackTargetsHead_of_not_waiting rfl, nofun⟩
  | failure read =>
      refine ⟨?_, fun _ _ => ⟨read, rfl⟩⟩
      simp only [Ril.prepare]
      split_ifs
      · exact h
      · exact h
  | ackStatus read =>
      simp only [Ril.prepare]
      split_ifs
      · exact ⟨h, nofun⟩
      · exact ⟨ackTargetsHead_of_not_waiting rfl, nofun⟩
      · exact ⟨h, nofun⟩

/-- A broadcast leaves the head that waits exactly if nothing is sent, and nothing is discarded
while an acknowledgement is outstanding. -/
theorem ackTargetsHead_broadcast_iff (hfresh : Fresh s) (h : AckTargetsHead s)
    (msg : SMSEventInfo) (read : Option SmsRead) :
    AckTargetsHead (NewSMSDispatch s.numbered s.nextId msg read).1.enqueueFailure ↔
      verdict msg read ≠ .sent ∧
        (s.outstanding_acknowledge = true → verdict msg read ≠ .discarded) := by
  have hd := dispatches s.numbered s.nextId msg read
  cases hv : verdict msg read with
  | sent =>
      rw [hv] at hd
      refine ⟨fun htargets => ?_, fun hnot => absurd rfl hnot.1⟩
      obtain ⟨m, next, hm, hlast⟩ := htargets hd.outstanding
      have hmem : m ∈ s.held_message_info := by
        have hqueue : s.held_message_info = m :: next := hd.queue.symm.trans hm
        rw [hqueue]
        exact List.mem_cons_self
      have hid : s.nextId = m.id := Option.some.inj (hd.lastDispatched.symm.trans hlast)
      exact absurd (hfresh.lt m hmem) (hid ▸ Nat.lt_irrefl _)
  | kept =>
      rw [hv] at hd
      refine ⟨fun _ => ⟨nofun, fun _ => nofun⟩, fun _ hwait => ?_⟩
      obtain ⟨m, next, hqueue, hlast⟩ := h (hd.outstanding.symm.trans hwait)
      exact ⟨m, next, hd.queue.trans hqueue, hd.lastDispatched.trans hlast⟩
  | discarded =>
      rw [hv] at hd
      constructor
      · refine fun htargets => ⟨nofun, fun hwait => ?_⟩
        exact (AckTargetsHead.not_of_discarded (s := s.numbered) h hfresh.nodup hd hwait
          htargets).elim
      · intro hnot hwait
        exact absurd rfl (hnot.2 (hd.outstanding.symm.trans hwait))
  | rejected =>
      rw [hv] at hd
      refine ⟨fun _ => ⟨nofun, fun _ => nofun⟩, fun _ => ?_⟩
      exact ackTargetsHead_of_not_waiting hd.outstanding

/-- A step keeps the head that waits exactly if it is safe. -/
theorem ackTargetsHead_step_iff (hfresh : Fresh s) (h : AckTargetsHead s) (event : SmsEvent) :
    AckTargetsHead (smsStep s event).1 ↔ AckSafe s event := by
  cases hcast : event.broadcast with
  | some msg =>
      rw [smsStep_broadcast hcast, ackTargetsHead_broadcast_iff hfresh h]
      cases event with
      | notify msg' messageMode enqueueRead read =>
          cases messageMode with
          | none => cases hcast
          | some messageMode =>
              simp only [SmsEvent.broadcast] at hcast
              split_ifs at hcast with hcb
              cases hcast
              exact ⟨fun hv _ => hv, fun hsafe => hsafe hcb⟩
      | _ => cases hcast
  | none =>
      obtain ⟨hprepared, hgo⟩ := h.prepare event
      have hdispatch := ackTargetsHead_dispatchHead_iff (hfresh.prepare event) hprepared event.read
      rw [smsStep_eq hcast]
      cases event with
      | failure read =>
          simp only [Ril.prepare, SmsEvent.read] at hdispatch ⊢
          by_cases hevents : s.failureEvents = 0
          · simp only [if_pos hevents]
            exact ⟨fun _ hne => absurd hevents hne, fun _ => h⟩
          · simp only [if_neg hevents] at hdispatch ⊢
            rw [if_pos trivial]
            exact hdispatch.trans ⟨fun hv _ => hv, fun hsafe => hsafe hevents⟩
      | notify msg messageMode enqueueRead read =>
          have hsafe : AckSafe s (.notify msg messageMode enqueueRead read) := by
            cases messageMode with
            | none => trivial
            | some messageMode =>
                intro hcb
                simp [SmsEvent.broadcast, hcb] at hcast
          refine ⟨fun _ => hsafe, fun _ => ?_⟩
          split_ifs with hd
          · exact hdispatch.mpr fun hwait => nomatch hgo hd hwait
          · exact hprepared
      | _ =>
          refine ⟨fun _ => trivial, fun _ => ?_⟩
          split_ifs with hd
          · exact hdispatch.mpr fun hwait => nomatch hgo hd hwait
          · exact hprepared

end Targets

/-- In a run, the head of the queue is the message that was dispatched last whenever an
acknowledgement is outstanding, exactly if every step is safe. -/
theorem meets_ackTargetsHead_iff (events : List SmsEvent) :
    Meets smsStep (fun s event => AckTargetsHead (smsStep s event).1) smsStart events ↔
      Meets smsStep AckSafe smsStart events := by
  have hstart : Fresh smsStart ∧ AckTargetsHead smsStart :=
    ⟨fresh_smsStart, ackTargetsHead_of_not_waiting rfl⟩
  constructor
  · exact meets_of_invariant (I := fun s => Fresh s ∧ AckTargetsHead s)
      (fun s event hs htargets => ⟨hs.1.step event, htargets⟩)
      (fun s event hs => (ackTargetsHead_step_iff hs.1 hs.2 event).mp) hstart
  · exact meets_of_invariant (I := fun s => Fresh s ∧ AckTargetsHead s)
      (fun s event hs hsafe =>
        ⟨hs.1.step event, (ackTargetsHead_step_iff hs.1 hs.2 event).mpr hsafe⟩)
      (fun s event hs => (ackTargetsHead_step_iff hs.1 hs.2 event).mpr) hstart

/-- A stored message at an index of the card. -/
def storedMessage (messageIndex : ℕ) : SMSEventInfo where
  pMTMessageInfo := some { storageType := 0, messageIndex := messageIndex }
  pMessageModeInfo := none
  pTransferRouteMTMessageInfo := none
  pSMSCAddressInfo := none

/-- A broadcast to a cell. -/
def cellBroadcast : SMSEventInfo where
  pMTMessageInfo := none
  pMessageModeInfo := none
  pTransferRouteMTMessageInfo := some { format := smsFormatCb, data := [0] }
  pSMSCAddressInfo := none

/-- The answer for a message for GSM that has no class. -/
def gsmRead : Option SmsRead := some { format := smsFormatGsmWcdma, message := [0] }

/-- The failure event of a broadcast dispatches a head that waits once more, and the device now
has a voice mail indication there. -/
theorem not_ackTargetsHead_failure :
    ¬ ∀ events, Meets smsStep (fun s event => AckTargetsHead (smsStep s event).1) smsStart
      events := by
  intro h
  have hrun := h [.notify cellBroadcast (some 1) none none,
    .notify (storedMessage 5) (some 1) gsmRead gsmRead,
    .failure (some { format := smsFormatMwi, message := [1] })]
  obtain ⟨message, next, hqueue, _⟩ := hrun.2.2.1 rfl
  exact absurd hqueue.symm (List.cons_ne_nil message next)

end Ril

end SierraSdk
