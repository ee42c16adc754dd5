import SierraSdk.Ril.HeldSmsAck

/-!
# What the queue of held messages keeps

A notified message stays in the queue until it is acknowledged, or the step that dispatches it
finds that the upper layer cannot be given it; and two entries of the queue are never stored at
the same place. `QueueKept` says this of one step. A scan looks whether a message is in the
queue already and a notification does not, and a message whose class cannot be read is not put
in the queue.
-/

namespace SierraSdk

namespace Ril

open Machine Sms

/-- Where a message is stored, with its mode. -/
def HeldMessage.stored (message : HeldMessage) : Option (UInt8 × SMSMTMessageInfo) :=
  message.pMsg.pMTMessageInfo.map fun info => (message.messageMode, info)

/-- No two messages are stored at the same place with the same mode. -/
def DistinctStored (queue : List HeldMessage) : Prop := (queue.filterMap HeldMessage.stored).Nodup

/-- The upper layer cannot be given the message. -/
def Verdict.isUndecodable (v : Verdict) : Prop := v = .discarded ∨ v = .rejected

/-- The event is a positive acknowledgement. -/
def SmsEvent.isAcknowledgement : SmsEvent → Bool
  | .acknowledge _ ackSuccess _ => ackSuccess
  | _ => false

/-- The step is the acknowledgement of a message. -/
structure Acknowledged (s : SmsState) (event : SmsEvent) (message : HeldMessage) : Prop where
  event : event.isAcknowledgement = true
  outstanding : s.outstanding_acknowledge = true
  last : s.lastDispatched = some message.id

/-- The step dispatches a message and finds that the upper layer cannot be given it. -/
structure Undecodable (s : SmsState) (event : SmsEvent) (message : HeldMessage) : Prop where
  dispatched : (prepare s event).2 = true
  head : (prepare s event).1.held_message_info.head? = some message
  verdict : (verdict message.pMsg event.read).isUndecodable

/-- What a step is to keep. A broadcast that is not stored is not held. -/
structure QueueKept (s : SmsState) (event : SmsEvent) : Prop where
  notified : ∀ msg messageMode enqueueRead read,
    event = .notify msg messageMode enqueueRead read →
    msg.isCellBroadcast = false ∨ msg.pMTMessageInfo.isSome →
    ∃ message : HeldMessage, message.id = s.nextId ∧
      message.pMsg.pMTMessageInfo = msg.pMTMessageInfo ∧
      (msg.pMTMessageInfo = none → message.pMsg = msg) ∧
      (message ∈ (smsStep s event).1.held_message_info ∨ Undecodable s event message)
  kept : ∀ message ∈ s.held_message_info,
    message ∈ (smsStep s event).1.held_message_info ∨ Acknowledged s event message ∨
      Undecodable s event message
  distinct : DistinctStored (smsStep s event).1.held_message_info

/-- A step whose message can be put in the queue and is not there yet, and which is safe for the
message that waits for its acknowledgement. -/
def HoldSafe (s : SmsState) (event : SmsEvent) : Prop :=
  AckSafe s event ∧
    match event with
    | .notify msg messageMode enqueueRead _ =>
        if msg.isCellBroadcast then msg.pMTMessageInfo = none
        else
          ∃ mode, messageMode = some mode ∧
            ((newMessage s msg mode).readsClass = true → enqueueRead.isSome) ∧
            ∀ info, msg.pMTMessageInfo = some info →
              message_present_in_queue s (newMessage s msg mode).messageMode info = false
    | _ => True

section Stored

variable {queue queue' : List HeldMessage} {message : HeldMessage}

theorem sameStored_iff {p : HeldMessage} {messageMode : UInt8} {info : SMSMTMessageInfo} :
    p.sameStored messageMode info = true ↔ p.stored = some (messageMode, info) := by
  unfold HeldMessage.sameStored HeldMessage.stored
  cases p.pMsg.pMTMessageInfo with
  | none => simp
  | some info' => simp

theorem DistinctStored.of_subperm (h : DistinctStored queue) (hsub : queue'.Subperm queue) :
    DistinctStored queue' := by
  obtain ⟨l, hperm, hsublist⟩ := hsub
  have hl : (l.filterMap HeldMessage.stored).Nodup := h.sublist (hsublist.filterMap _)
  exact (hperm.filterMap HeldMessage.stored).nodup_iff.mp hl

/-- A message that is not stored, or not where another one is. -/
theorem DistinctStored.cons (h : DistinctStored queue)
    (hnew : ∀ key, message.stored = some key → key ∉ queue.filterMap HeldMessage.stored) :
    DistinctStored (message :: queue) := by
  unfold DistinctStored
  cases hstored : message.stored with
  | none => rwa [List.filterMap_cons_none hstored]
  | some key =>
      rw [List.filterMap_cons_some hstored]
      exact List.nodup_cons.mpr ⟨hnew key hstored, h⟩

theorem not_mem_stored {s : SmsState} {messageMode : UInt8} {info : SMSMTMessageInfo}
    (h : message_present_in_queue s messageMode info = false) :
    (messageMode, info) ∉ s.held_message_info.filterMap HeldMessage.stored := by
  intro hmem
  obtain ⟨p, hp, hstored⟩ := List.mem_filterMap.mp hmem
  have hpresent : message_present_in_queue s messageMode info = true :=
    List.any_eq_true.mpr ⟨p, hp, sameStored_iff.mpr hstored⟩
  rw [h] at hpresent
  cases hpresent

end Stored

section Steps

variable {s s' : SmsState} {message : HeldMessage}

/-- What is put in the queue is there, and so is everything that was. -/
theorem PutInQueue.mem (hput : PutInQueue s message s') (htargets : AckTargetsHead s) :
    message ∈ s'.held_message_info ∧ ∀ m ∈ s.held_message_info, m ∈ s'.held_message_info := by
  rcases hput.queue with hq | ⟨_, hq⟩ | ⟨p, next, hs, hq⟩ | ⟨hwait, hs, _⟩
  · rw [hq]
    exact ⟨List.mem_append_right _ List.mem_cons_self, fun m => List.mem_append_left _⟩
  · rw [hq]
    exact ⟨List.mem_cons_self, fun m => List.mem_cons_of_mem _⟩
  · rw [hq, hs]
    refine ⟨List.mem_cons_of_mem _ List.mem_cons_self, fun m hm => ?_⟩
    rcases List.mem_cons.mp hm with rfl | hm
    · exact List.mem_cons_self
    · exact List.mem_cons_of_mem _ (List.mem_cons_of_mem _ hm)
  · obtain ⟨m, next, hqueue, _⟩ := htargets hwait
    cases hqueue.symm.trans hs

/-- A message is put in the queue when its class can be read. -/
theorem exists_putInQueue_enqueue {msg : SMSEventInfo} {messageMode : UInt8}
    {read : Option SmsRead}
    (hread : (newMessage s msg messageMode).readsClass = true → read.isSome) :
    ∃ held, (newMessage s msg messageMode).SameHeld held ∧
      PutInQueue s.numbered held (enqueue_held_message s msg messageMode read) := by
  rcases enqueue_held_message_cases s msg messageMode read with ⟨hclass, hnone, _⟩ | hput
  · rw [hnone] at hread
    cases hread hclass
  · exact hput

/-- The queue with a message that is not stored where another one is. -/
theorem DistinctStored.enqueue {msg : SMSEventInfo} {messageMode : UInt8}
    (h : DistinctStored s.held_message_info)
    (hnew : ∀ info, msg.pMTMessageInfo = some info →
      message_present_in_queue s (newMessage s msg messageMode).messageMode info = false)
    (read : Option SmsRead) :
    DistinctStored (enqueue_held_message s msg messageMode read).held_message_info := by
  rcases enqueue_held_message_cases s msg messageMode read with ⟨_, _, heq⟩ | ⟨held, hsame, hput⟩
  · rw [heq]
    exact h
  · refine DistinctStored.of_subperm (DistinctStored.cons h fun key hkey => ?_) hput.subperm
    obtain ⟨info, hinfo, rfl⟩ := Option.map_eq_some_iff.mp hkey
    rw [hsame.pMTMessageInfo] at hinfo
    rw [hsame.messageMode]
    exact not_mem_stored (hnew info hinfo)

/-- A dispatch takes from the queue only a head that the upper layer cannot be given. -/
theorem mem_dispatchHead (read : Option SmsRead) (hm : message ∈ s.held_message_info) :
    message ∈ (dispatchHead s read).1.held_message_info ∨
      s.held_message_info.head? = some message ∧
        (verdict message.pMsg read).isUndecodable := by
  unfold dispatchHead
  cases hqueue : s.held_message_info with
  | nil =>
      rw [hqueue] at hm
      cases hm
  | cons head next =>
      dsimp only
      have hd := dispatches s head.id head.pMsg read
      rw [hqueue] at hm
      rcases List.mem_cons.mp hm with rfl | hnext
      · cases hv : verdict message.pMsg read with
        | sent =>
            left
            rw [hd.queue, hv, hqueue]
            exact hm
        | kept =>
            left
            rw [hd.queue, hv, hqueue]
            exact hm
        | discarded => exact .inr ⟨rfl, .inl rfl⟩
        | rejected => exact .inr ⟨rfl, .inr rfl⟩
      · left
        rw [hd.queue, hqueue]
        cases verdict head.pMsg read with
        | sent => exact hm
        | kept => exact hm
        | discarded => exact hnext
        | rejected => exact hnext

theorem dispatchHead_queue_sublist (read : Option SmsRead) :
    (dispatchHead s read).1.held_message_info.Sublist s.held_message_info := by
  unfold dispatchHead
  split
  · exact List.Sublist.refl _
  · exact (dispatches s _ _ read).queue_sublist

/-- What was held is held until the step dispatches, but for what is acknowledged. -/
theorem mem_prepare (htargets : AckTargetsHead s) {event : SmsEvent} (hsafe : HoldSafe s event)
    (hcast : event.broadcast = none) (hm : message ∈ s.held_message_info) :
    message ∈ (prepare s event).1.held_message_info ∨ Acknowledged s event message := by
  cases event with
  | notify msg messageMode enqueueRead read =>
      cases messageMode with
      | none => exact .inl hm
      | some messageMode =>
          have hcb : msg.isCellBroadcast = false := by
            simpa [SmsEvent.broadcast] using hcast
          have hown := hsafe.2
          simp only [hcb] at hown
          obtain ⟨mode, hmode, hread, _⟩ := hown
          cases hmode
          obtain ⟨held, _, hput⟩ := exists_putInQueue_enqueue hread
          exact .inl ((hput.mem (s := s.numbered) htargets).2 message hm)
  | scanned messageMode info enqueueRead =>
      left
      change message ∈ (enqueueScanned s messageMode info enqueueRead).held_message_info
      unfold enqueueScanned
      split_ifs
      · exact hm
      · rcases enqueue_held_message_cases s _ messageMode enqueueRead with
          ⟨_, _, heq⟩ | ⟨held, _, hput⟩
        · rw [heq]
          exact hm
        · exact (hput.mem (s := s.numbered) htargets).2 message hm
  | scanEnd isMsgEnqueued read => exact .inl hm
  | acknowledge cdma ackSuccess read =>
      simp only [prepare]
      split_ifs with hwait hsuccess hcdma
      · exact .inl hm
      · have hwait' : s.outstanding_acknowledge = true := by simpa using hwait
        obtain ⟨head, next, hqueue, hlast⟩ := htargets hwait'
        rw [delete_held_message_queue]
        rw [hqueue] at hm
        rcases List.mem_cons.mp hm with rfl | hnext
        · exact .inr ⟨hsuccess, hwait', hlast⟩
        · left
          simp only [hqueue, List.tail_cons]
          exact hnext
      · exact .inl hm
      · obtain ⟨queue, hperm, heq⟩ :=
          parse_and_prioritize_queue_eq { s with outstanding_acknowledge := false }
        rw [heq]
        exact .inl (hperm.mem_iff.mpr hm)
  | failure read =>
      simp only [prepare]
      split_ifs <;> exact .inl hm
  | ackStatus read =>
      simp only [prepare]
      split_ifs <;> exact .inl hm

theorem distinctStored_prepare (h : DistinctStored s.held_message_info) {event : SmsEvent}
    (hsafe : HoldSafe s event) (hcast : event.broadcast = none) :
    DistinctStored (prepare s event).1.held_message_info := by
  cases event with
  | notify msg messageMode enqueueRead read =>
      cases messageMode with
      | none => exact h
      | some messageMode =>
          have hcb : msg.isCellBroadcast = false := by
            simpa [SmsEvent.broadcast] using hcast
          have hown := hsafe.2
          simp only [hcb] at hown
          obtain ⟨mode, hmode, _, hnew⟩ := hown
          cases hmode
          exact h.enqueue hnew enqueueRead
  | scanned messageMode info enqueueRead =>
      change DistinctStored (enqueueScanned s messageMode info enqueueRead).held_message_info
      unfold enqueueScanned
      split_ifs with hpresent
      · exact h
      · refine h.enqueue (fun info' hinfo => ?_) enqueueRead
        cases hinfo
        exact Bool.eq_false_iff.mpr hpresent
  | scanEnd isMsgEnqueued read => exact h
  | acknowledge cdma ackSuccess read =>
      simp only [prepare]
      split_ifs
      · exact h
      · rw [delete_held_message_queue]
        exact h.of_subperm (List.tail_sublist _).subperm
      · exact h
      · obtain ⟨queue, hperm, heq⟩ :=
          parse_and_prioritize_queue_eq { s with outstanding_acknowledge := false }
        rw [heq]
        exact h.of_subperm hperm.subperm
  | failure read =>
      simp only [prepare]
      split_ifs <;> exact h
  | ackStatus read =>
      simp only [prepare]
      split_ifs <;> exact h

/-- What a step holds before it dispatches, it holds afterwards, unless it is undecodable. -/
theorem mem_smsStep {event : SmsEvent} (hcast : event.broadcast = none)
    (hm : message ∈ (prepare s event).1.held_message_info) :
    message ∈ (smsStep s event).1.held_message_info ∨ Undecodable s event message := by
  rw [smsStep_eq hcast]
  split_ifs with hgo
  · rcases mem_dispatchHead event.read hm with hheld | ⟨hhead, hv⟩
    · exact .inl hheld
    · exact .inr ⟨hgo, hhead, hv⟩
  · exact .inl hm

/-- A broadcast that is not stored leaves the queue as it is. -/
theorem broadcast_queue {event : SmsEvent} {msg : SMSEventInfo} (hcast : event.broadcast = some msg)
    (hstored : msg.pMTMessageInfo = none) :
    (smsStep s event).1.held_message_info = s.held_message_info := by
  rw [smsStep_broadcast hcast]
  have hcb : msg.isCellBroadcast = true := by
    cases event with
    | notify msg' messageMode enqueueRead read =>
        cases messageMode with
        | none => cases hcast
        | some messageMode =>
            simp only [SmsEvent.broadcast] at hcast
            split_ifs at hcast with hcb
            cases hcast
            exact hcb
    | _ => cases hcast
  have hv : verdict msg event.read = .kept := by
    unfold verdict
    unfold SMSEventInfo.isCellBroadcast at hcb
    rw [hstored]
    cases hroute : msg.pTransferRouteMTMessageInfo with
    | none =>
        rw [hroute] at hcb
        cases hcb
    | some info =>
        rw [hroute] at hcb
        exact if_pos (beq_iff_eq.mp hcb)
  have hd := dispatches s.numbered s.nextId msg event.read
  rw [hv] at hd
  exact hd.queue

/-- A safe step keeps what is held. -/
theorem queueKept_step (htargets : AckTargetsHead s) (hdistinct : DistinctStored s.held_message_info)
    {event : SmsEvent} (hsafe : HoldSafe s event) : QueueKept s event := by
  cases hcast : event.broadcast with
  | none =>
      refine ⟨?_, fun message hm => ?_, ?_⟩
      · rintro msg messageMode enqueueRead read rfl hheld
        have hown := hsafe.2
        cases hcb : msg.isCellBroadcast with
        | true =>
            simp only [hcb] at hown
            rcases hheld with hnot | hstored
            · rw [hcb] at hnot
              cases hnot
            · rw [if_pos trivial] at hown
              rw [hown] at hstored
              cases hstored
        | false =>
            simp only [hcb] at hown
            obtain ⟨mode, rfl, hread, _⟩ := hown
            obtain ⟨held, hsame, hput⟩ := exists_putInQueue_enqueue hread
            exact ⟨held, hsame.id, hsame.pMTMessageInfo, hsame.routed,
              mem_smsStep hcast (hput.mem (s := s.numbered) htargets).1⟩
      · rcases mem_prepare htargets hsafe hcast hm with hprepared | hack
        · rcases mem_smsStep hcast hprepared with hheld | hundecodable
          · exact .inl hheld
          · exact .inr (.inr hundecodable)
        · exact .inr (.inl hack)
      · rw [smsStep_eq hcast]
        have hprepared := distinctStored_prepare hdistinct hsafe hcast
        split_ifs
        · exact hprepared.of_subperm (dispatchHead_queue_sublist _).subperm
        · exact hprepared
  | some msg =>
      cases event with
      | notify msg' messageMode enqueueRead read =>
          have hcast' := hcast
          cases messageMode with
          | none => cases hcast
          | some messageMode =>
              simp only [SmsEvent.broadcast] at hcast
              split_ifs at hcast with hcb
              cases hcast
              have hown := hsafe.2
              simp only [hcb, if_true] at hown
              have hqueue := broadcast_queue (s := s) hcast' hown
              refine ⟨?_, fun message hm => .inl (hqueue ▸ hm), hqueue ▸ hdistinct⟩
              rintro msg'' mode' enqueueRead' read' ⟨⟩ (hnot | hstored)
              · rw [hcb] at hnot
                cases hnot
              · rw [hown] at hstored
                cases hstored
      | _ => cases hcast

end Steps

/-- In a run of safe steps, every notified message stays in the queue until it is acknowledged
or found undecodable, and no two messages in the queue are stored at the same place. -/
theorem meets_queueKept {events : List SmsEvent} (h : Meets smsStep HoldSafe smsStart events) :
    Meets smsStep QueueKept smsStart events := by
  refine meets_of_invariant
    (I := fun s => (Fresh s ∧ AckTargetsHead s) ∧ DistinctStored s.held_message_info)
    (fun s event hs hsafe => ?_) (fun s event hs hsafe => queueKept_step hs.1.2 hs.2 hsafe)
    ⟨⟨fresh_smsStart, ackTargetsHead_of_not_waiting rfl⟩, List.nodup_nil⟩ h
  exact ⟨⟨hs.1.1.step event, (ackTargetsHead_step_iff hs.1.1 hs.1.2 event).mpr hsafe.1⟩,
    (queueKept_step hs.1.2 hs.2 hsafe).distinct⟩

/-- Two messages for the first of which the acknowledgement comes. -/
theorem meets_queueKept_two :
    Meets smsStep QueueKept smsStart
      [.notify (storedMessage 5) (some 1) gsmRead gsmRead,
        .notify (storedMessage 6) (some 1) gsmRead none, .acknowledge false true gsmRead] := by
  refine meets_queueKept ⟨⟨nofun, ?_⟩, ⟨nofun, ?_⟩, ⟨trivial, trivial⟩, trivial⟩
  · exact ⟨1, rfl, fun _ => rfl, fun info _ => rfl⟩
  · refine ⟨1, rfl, fun _ => rfl, fun info hinfo => ?_⟩
    cases hinfo
    rfl

/-- A message that is notified twice is held twice. -/
theorem not_queueKept_notified_twice :
    ¬ ∀ events, Meets smsStep QueueKept smsStart events := by
  intro h
  have hrun := h [.notify (storedMessage 5) (some 1) gsmRead gsmRead,
    .notify (storedMessage 5) (some 1) gsmRead none]
  have hnodup := hrun.2.1.distinct
  exact absurd List.mem_cons_self (List.nodup_cons.mp hnodup).1

end Ril

end SierraSdk
