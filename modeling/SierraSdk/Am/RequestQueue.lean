import SierraSdk.Am.EventLinks

/-!
# The event queue is first in, first out

`FifoStep` is what the queue is for: requests enter it in the order of their arrival, each with a
timer that every tick counts down once; the first one is taken by the dispatcher, and those whose
timer runs out are answered. The queue of event blocks does these steps (`queueStep_fifo`).

So a request that arrived waits, or it left the queue once: what was done for it is to process
it, or to answer it with a timeout, and to release its buffer and its block
(`eventQueue_fifo`). A request with a header of another version is answered instead of being
passed to a handler, and one of a type that is not known is dropped.
-/

namespace SierraSdk

namespace Am

open Ci Machine Ql

/-- A step of the queue, with the number of requests that arrived before it. -/
inductive FifoStep (arrived : ℕ) : List Request → List Request → AmQueueEvent →
    List Request → List Request → List AmAction → Prop
  | arrive {msgs q : List Request} (r : Request) (hnumber : r.number = arrived) :
      FifoStep arrived msgs q
        (.receive r.fields.evt.amdata r.fields.ammemfreep r.fields.evt.amipcchannel)
        (msgs ++ [r]) q []
  | noMessage {msgs q : List Request} : FifoStep arrived msgs q .message msgs q []
  | enqueue {msgs q : List Request} (r : Request) (evt : AmEvtBlock)
      (hevt : amreqinittmr r.fields.evt = some evt) :
      FifoStep arrived (r :: msgs) q .message msgs
        (q ++ [⟨r.eventbkp, { r.fields with evt := evt }⟩]) []
  | noRequest {msgs q : List Request} : FifoStep arrived msgs q .serve msgs q []
  | serve {msgs q : List Request} (r : Request) :
      FifoStep arrived msgs (r :: q) .serve msgs q (r.act r.served)
  | tick {msgs q : List Request} :
      FifoStep arrived msgs q .tick msgs ((q.filter (!·.expiring)).map Request.ticked)
        ((q.filter Request.expiring).flatMap fun r => r.act r.timedOut)
  | respond {msgs q : List Request} (packet : List UInt8) (ipcchannel : CiRrChannel) :
      FifoStep arrived msgs q (.respond packet ipcchannel) msgs q
        [⟨none, .dssend packet ipcchannel.channel⟩]

/-- The packet of a request, the buffer it is in, and its channel. -/
structure Arrival where
  msg : List UInt8
  memfreep : Option ℕ
  ipcchannel : CiRrChannel

/-- The packets that arrive. -/
def arrivals : List AmQueueEvent → List Arrival :=
  List.filterMap fun
    | .receive msg memfreep ipcchannel => some ⟨msg, memfreep, ipcchannel⟩
    | _ => none

/-- The packet of a request. -/
def Request.arrival (r : Request) : Arrival :=
  ⟨r.fields.evt.amdata, r.fields.ammemfreep, r.fields.evt.amipcchannel⟩

/-- The effects for the request of a number. -/
def effectsFor (n : ℕ) (acts : List AmAction) : List AmEffect :=
  (acts.filter (·.request = some n)).map AmAction.effect

/-- The queue of event blocks does the steps of the first in, first out queue. -/
theorem queueStep_fifo {s t : AmQueueCb} {msgs q : List Request} {event : AmQueueEvent}
    (h : Holds s msgs q) (hrun : (queueStep (some s) event).1 = some t) :
    ∃ msgs' q', Holds t msgs' q' ∧
      FifoStep s.arrived msgs q event msgs' q' (queueStep (some s) event).2 ∧
      t.arrived = s.arrived + (arrivals [event]).length := by
  cases event with
  | receive msg memfreep ipcchannel =>
      obtain ⟨harrived, hacts, eventbkp, timer, hholds⟩ := amipcrcvhandler_rule h hrun
      refine ⟨_, q, hholds, ?_, harrived⟩
      have hnone : (queueStep (some s) (.receive msg memfreep ipcchannel)).2 = [] := by
        rw [queueStep, AmQueueCb.actions, hacts]
        rfl
      rw [hnone]
      exact .arrive ⟨eventbkp, ⟨memfreep, ⟨msg, ipcchannel, timer⟩, s.arrived⟩⟩ rfl
  | message =>
      obtain ⟨harrived, hacts, hholds | ⟨r, evt, msgs', rfl, hevt, hholds⟩⟩ :=
        amreceive_rule h hrun
      · exact ⟨msgs, q, hholds, hacts ▸ .noMessage, harrived⟩
      · exact ⟨msgs', _, hholds, hacts ▸ .enqueue r evt hevt, harrived⟩
  | serve =>
      obtain ⟨harrived, hserved⟩ := amservequeue_rule h hrun
      cases hbusy : s.amreqbusy with
      | true =>
          rw [hbusy, if_pos rfl] at hserved
          exact ⟨msgs, q, hserved.1, hserved.2 ▸ .noRequest, harrived⟩
      | false =>
          rw [hbusy, if_neg (by simp)] at hserved
          cases q with
          | nil => exact ⟨msgs, [], hserved.1, hserved.2 ▸ .noRequest, harrived⟩
          | cons r q =>
              refine ⟨msgs, q, hserved.1, ?_, harrived⟩
              have hacts : (queueStep (some s) .serve).2 = r.act r.served :=
                hserved.2.trans (by simp)
              exact hacts ▸ .serve r
  | tick =>
      obtain ⟨out, hout, hall⟩ := amtick_rule h h.length_le
      have hstep : queueStep (some s) .tick = out := by
        rw [queueStep, hout]
        rfl
      rw [hstep] at hrun ⊢
      obtain ⟨hholds, hacts, harrived⟩ := hall t hrun
      exact ⟨msgs, _, hholds, hacts ▸ .tick, harrived⟩
  | respond packet ipcchannel =>
      obtain ⟨hsame, hacts⟩ := amsdk_send_rule hrun
      refine ⟨msgs, q, h.congr hsame, ?_, hsame.arrived⟩
      have hsent : (queueStep (some s) (.respond packet ipcchannel)).2 =
          [⟨none, .dssend packet ipcchannel.channel⟩] := by
        rw [queueStep, AmQueueCb.actions, hacts]
        rfl
      rw [hsent]
      exact .respond packet ipcchannel

section Effects

variable {n : ℕ} {acts acts' : List AmAction} {r : Request}

theorem effectsFor_append :
    effectsFor n (acts ++ acts') = effectsFor n acts ++ effectsFor n acts' := by
  simp [effectsFor]

theorem effectsFor_act (effects : List AmEffect) :
    effectsFor n (r.act effects) = if r.number = n then effects else [] := by
  split_ifs with h
  · simp [effectsFor, Request.act, List.filter_map, Function.comp_def, h]
  · simp [effectsFor, Request.act, List.filter_map, Function.comp_def, h]

/-- Nothing is done for a request that is not among those that leave. -/
theorem effectsFor_flatMap_of_not_mem {f : Request → List AmEffect} {rs : List Request}
    (h : n ∉ rs.map Request.number) : effectsFor n (rs.flatMap fun r => r.act (f r)) = [] := by
  induction rs with
  | nil => rfl
  | cons r rs ih =>
      rw [List.map_cons, List.mem_cons, not_or] at h
      rw [List.flatMap_cons, effectsFor_append, effectsFor_act, if_neg (Ne.symm h.1), ih h.2]
      rfl

/-- For one of the requests that leave, what is done is what is done for it. -/
theorem effectsFor_flatMap {f : Request → List AmEffect} {rs : List Request}
    (hnodup : (rs.map Request.number).Nodup) (h : r ∈ rs) :
    effectsFor r.number (rs.flatMap fun r => r.act (f r)) = f r := by
  induction rs with
  | nil => exact absurd h List.not_mem_nil
  | cons x rs ih =>
      rw [List.map_cons, List.nodup_cons] at hnodup
      rw [List.flatMap_cons, effectsFor_append, effectsFor_act]
      rcases List.mem_cons.mp h with rfl | h
      · rw [if_pos rfl, effectsFor_flatMap_of_not_mem hnodup.1, List.append_nil]
      · have hne : x.number ≠ r.number := fun heq => hnodup.1 (heq ▸ List.mem_map_of_mem h)
        rw [if_neg hne, ih hnodup.2 h]
        rfl

end Effects

/-- A request left the queue: all that was done for it is to process it, or to answer it with a
timeout. -/
def LeftOnce (n : ℕ) (arrival : Arrival) (acts : List AmAction) : Prop :=
  ∃ r : Request, r.number = n ∧ r.arrival = arrival ∧
    (effectsFor n acts = r.served ∨ effectsFor n acts = r.timedOut)

/-- The accounts of the queue: of the requests that arrived, some wait, for which nothing was
done, and the others left once. -/
structure Accounts (s : AmQueueCb) (arrived : List Arrival) (acts : List AmAction)
    (msgs q : List Request) : Prop where
  holds : Holds s msgs q
  running : ∀ r ∈ q, r.fields.evt.ammdmwaittmr ≠ 0
  count : s.arrived = arrived.length
  own : ∀ r ∈ q ++ msgs, arrived[r.number]? = some r.arrival
  waiting : ∀ r ∈ q ++ msgs, effectsFor r.number acts = []
  left : ∀ n arrival, arrived[n]? = some arrival → n ∉ (q ++ msgs).map Request.number →
    LeftOnce n arrival acts
  future : ∀ n, arrived.length ≤ n → effectsFor n acts = []

section Accounting

variable {s t : AmQueueCb} {arrived : List Arrival} {acts new : List AmAction}
  {msgs msgs' q q' gone : List Request} {event : AmQueueEvent}

/-- The accounts when some requests leave the queue, for each of which all is done at once. -/
theorem Accounts.leave (h : Accounts s arrived acts msgs q) {f : Request → List AmEffect}
    (hf : ∀ r, f r = r.served ∨ f r = r.timedOut) (hholds : Holds t msgs' q')
    (hrunning : ∀ r ∈ q', r.fields.evt.ammdmwaittmr ≠ 0) (hcount : t.arrived = s.arrived)
    (hgone : ∀ r ∈ gone, r ∈ q ++ msgs)
    (hperm : ((q' ++ msgs').map Request.number ++ gone.map Request.number).Perm
      ((q ++ msgs).map Request.number))
    (hown : ∀ r' ∈ q' ++ msgs', ∃ r ∈ q ++ msgs, r.number = r'.number ∧ r.arrival = r'.arrival)
    (hnew : ∀ n, effectsFor n new = effectsFor n (gone.flatMap fun r => r.act (f r))) :
    Accounts t arrived (acts ++ new) msgs' q' := by
  have hnodup : ((q' ++ msgs').map Request.number ++ gone.map Request.number).Nodup :=
    hperm.nodup_iff.mpr (h.holds.order.imp Nat.ne_of_lt)
  have hapart := (List.nodup_append.mp hnodup).2.2
  refine ⟨hholds, hrunning, hcount.trans h.count, ?_, ?_, ?_, ?_⟩
  · intro r' hr'
    obtain ⟨r, hr, hnumber, harrival⟩ := hown r' hr'
    rw [← hnumber, ← harrival]
    exact h.own r hr
  · intro r' hr'
    obtain ⟨r, hr, hnumber, -⟩ := hown r' hr'
    have hstays : r'.number ∉ gone.map Request.number := fun hmem =>
      hapart _ (List.mem_map_of_mem hr') _ hmem rfl
    rw [effectsFor_append, hnew, effectsFor_flatMap_of_not_mem hstays, ← hnumber,
      h.waiting r hr, List.nil_append]
  · intro n arrival harrived hleft
    rw [LeftOnce]
    simp only [effectsFor_append, hnew]
    by_cases hn : n ∈ (q ++ msgs).map Request.number
    · have hmem : n ∈ gone.map Request.number :=
        (List.mem_append.mp (hperm.mem_iff.mpr hn)).resolve_left hleft
      obtain ⟨r, hr, rfl⟩ := List.mem_map.mp hmem
      have hsame : r.arrival = arrival :=
        Option.some.inj ((h.own r (hgone r hr)).symm.trans harrived)
      refine ⟨r, rfl, hsame, ?_⟩
      rw [h.waiting r (hgone r hr), effectsFor_flatMap (List.nodup_append.mp hnodup).2.1 hr]
      exact hf r
    · have hstays : n ∉ gone.map Request.number := fun hmem =>
        hn (hperm.mem_iff.mp (List.mem_append_right _ hmem))
      rw [effectsFor_flatMap_of_not_mem hstays, List.append_nil]
      exact h.left n arrival harrived hn
  · intro n hn
    have hstays : n ∉ gone.map Request.number := by
      intro hmem
      obtain ⟨r, hr, rfl⟩ := List.mem_map.mp hmem
      have hlt := h.holds.arrived r (hgone r hr)
      rw [h.count] at hlt
      exact Nat.not_lt.mpr hn hlt
    rw [effectsFor_append, hnew, effectsFor_flatMap_of_not_mem hstays, h.future n hn]
    rfl

/-- The accounts when no request leaves the queue. -/
theorem Accounts.quiet (h : Accounts s arrived acts msgs q) (hholds : Holds t msgs' q')
    (hrunning : ∀ r ∈ q', r.fields.evt.ammdmwaittmr ≠ 0) (hcount : t.arrived = s.arrived)
    (hnumbers : (q' ++ msgs').map Request.number = (q ++ msgs).map Request.number)
    (hown : ∀ r' ∈ q' ++ msgs', ∃ r ∈ q ++ msgs, r.number = r'.number ∧ r.arrival = r'.arrival)
    (hnew : ∀ n, effectsFor n new = []) : Accounts t arrived (acts ++ new) msgs' q' :=
  @Accounts.leave s t arrived acts new msgs msgs' q q' [] h Request.served (fun _ => .inl rfl)
    hholds hrunning hcount (fun _ hr => absurd hr List.not_mem_nil)
    (by rw [List.map_nil, List.append_nil, hnumbers]) hown hnew

/-- The accounts when a packet arrives. -/
theorem Accounts.arrive {r : Request} (h : Accounts s arrived acts msgs q)
    (hholds : Holds t (msgs ++ [r]) q) (hcount : t.arrived = s.arrived + 1)
    (hnumber : r.number = s.arrived) :
    Accounts t (arrived ++ [r.arrival]) acts (msgs ++ [r]) q := by
  rw [h.count] at hnumber
  have hcases : ∀ x ∈ q ++ (msgs ++ [r]), x ∈ q ++ msgs ∨ x = r := fun x hx => by
    rwa [← List.append_assoc, List.mem_append, List.mem_singleton] at hx
  refine ⟨hholds, h.running, ?_, ?_, ?_, ?_, ?_⟩
  · rw [hcount, h.count, List.length_append, List.length_singleton]
  · intro x hx
    rcases hcases x hx with hx | rfl
    · have hlt := h.holds.arrived x hx
      rw [h.count] at hlt
      rw [List.getElem?_append_left hlt]
      exact h.own x hx
    · rw [hnumber, List.getElem?_concat_length]
  · intro x hx
    rcases hcases x hx with hx | rfl
    · exact h.waiting x hx
    · exact h.future _ (Nat.le_of_eq hnumber.symm)
  · intro n arrival harrived hleft
    have hold : n ∉ (q ++ msgs).map Request.number := fun hmem => hleft (by
      rw [← List.append_assoc, List.map_append]
      exact List.mem_append_left _ hmem)
    by_cases hlt : n < arrived.length
    · rw [List.getElem?_append_left hlt] at harrived
      exact h.left n arrival harrived hold
    · have hlen := (List.getElem?_eq_some_iff.mp harrived).1
      rw [List.length_append, List.length_singleton] at hlen
      have hn : n = r.number := by omega
      exact absurd (List.mem_map_of_mem (by simp)) (hn ▸ hleft)
  · intro n hn
    rw [List.length_append] at hn
    exact h.future n (Nat.le_of_add_right_le hn)

/-- The timer of a request that survives a tick runs on. -/
theorem ticked_ne_zero {r : Request} (hrunning : r.fields.evt.ammdmwaittmr ≠ 0)
    (hsurvives : r.expiring = false) :
    r.ticked.fields.evt.ammdmwaittmr ≠ 0 := by
  simp only [Request.expiring, AmEvtBlock.expiring, decide_eq_false_iff_not, not_and] at hsurvives
  change (if r.fields.evt.ammdmwaittmr ≠ 0 then _ else _) ≠ 0
  rw [if_pos hrunning]
  exact hsurvives hrunning

/-- A tick loses no request; this is seen by anything that it leaves as it is. -/
theorem perm_ticked {α : Type} {f : Request → α} (hf : ∀ r, f r.ticked = f r)
    (q msgs : List Request) :
    (((q.filter (!·.expiring)).map Request.ticked ++ msgs).map f ++
      (q.filter Request.expiring).map f).Perm ((q ++ msgs).map f) := by
  have hticked : ((q.filter (!·.expiring)).map Request.ticked).map f =
      (q.filter (!·.expiring)).map f := by
    rw [List.map_map]
    exact List.map_congr_left fun r _ => hf r
  have hsplit := (List.filter_append_perm Request.expiring q).map f
  rw [List.map_append, hticked, List.map_append]
  rw [List.map_append] at hsplit
  refine (List.perm_append_comm).trans ?_
  rw [← List.append_assoc]
  exact hsplit.append_right _

/-- A step keeps the accounts. -/
theorem Accounts.step (h : Accounts s arrived acts msgs q)
    (hrun : (queueStep (some s) event).1 = some t) :
    ∃ msgs' q', Accounts t (arrived ++ arrivals [event]) (acts ++ (queueStep (some s) event).2)
        msgs' q' ∧
      FifoStep s.arrived msgs q event msgs' q' (queueStep (some s) event).2 := by
  obtain ⟨msgs', q', hholds, hstep, hcount⟩ := queueStep_fifo h.holds hrun
  refine ⟨msgs', q', ?_, hstep⟩
  generalize (queueStep (some s) event).2 = new at hstep
  have hsame : ∀ r ∈ q ++ msgs, ∃ x ∈ q ++ msgs, x.number = r.number ∧ x.arrival = r.arrival :=
    fun r hr => ⟨r, hr, rfl, rfl⟩
  have hold : arrivals [event] = [] → arrived ++ arrivals [event] = arrived := fun hnone => by
    rw [hnone, List.append_nil]
  cases hstep with
  | arrive r hnumber =>
      rw [List.append_nil]
      exact h.arrive hholds hcount hnumber
  | noMessage =>
      rw [hold rfl]
      exact h.quiet hholds h.running hcount rfl hsame fun _ => rfl
  | enqueue r evt hevt =>
      rw [hold rfl]
      obtain ⟨hdata, hchannel, htimer⟩ := amreqinittmr_rule hevt
      refine h.quiet hholds ?_ hcount (by simp [Request.number]) ?_ fun _ => rfl
      · intro x hx
        rcases List.mem_append.mp hx with hx | hx
        · exact h.running x hx
        · obtain rfl := List.mem_singleton.mp hx
          exact htimer
      · intro x hx
        rw [List.append_assoc, List.singleton_append] at hx
        rcases List.mem_append.mp hx with hx | hx
        · exact hsame x (List.mem_append_left _ hx)
        · rcases List.mem_cons.mp hx with rfl | hx
          · exact ⟨r, by simp, rfl, by simp [Request.arrival, hdata, hchannel]⟩
          · exact hsame x (by simp [hx])
  | noRequest =>
      rw [hold rfl]
      exact h.quiet hholds h.running hcount rfl hsame fun _ => rfl
  | serve r =>
      rw [hold rfl]
      refine @Accounts.leave s t arrived acts _ msgs msgs (r :: q') q' [r] h Request.served
        (fun _ => .inl rfl) hholds (fun x hx => h.running x (List.mem_cons_of_mem _ hx)) hcount
        (by simp) ?_ (fun x hx => ⟨x, by simpa using .inr (List.mem_append.mp hx), rfl, rfl⟩)
        fun n => by simp
      simp only [List.map_append, List.map_cons, List.map_nil, List.cons_append]
      exact List.perm_append_singleton ..
  | tick =>
      rw [hold rfl]
      refine @Accounts.leave s t arrived acts _ msgs msgs q _ (q.filter Request.expiring) h
        Request.timedOut (fun _ => .inr rfl) hholds ?_ hcount ?_ ?_ ?_ fun n => rfl
      · intro x hx
        obtain ⟨r, hr, rfl⟩ := List.mem_map.mp hx
        obtain ⟨hmem, hsurvives⟩ := List.mem_filter.mp hr
        exact ticked_ne_zero (h.running r hmem) (by simpa using hsurvives)
      · exact fun x hx => List.mem_append_left _ (List.mem_filter.mp hx).1
      · exact perm_ticked (fun _ => rfl) q msgs
      · intro x hx
        rcases List.mem_append.mp hx with hx | hx
        · obtain ⟨r, hr, rfl⟩ := List.mem_map.mp hx
          exact ⟨r, List.mem_append_left _ (List.mem_filter.mp hr).1, rfl, rfl⟩
        · exact hsame x (List.mem_append_right _ hx)
  | respond packet ipcchannel =>
      rw [hold rfl]
      exact h.quiet hholds h.running hcount rfl hsame fun _ => rfl

theorem accounts_start (links : QlMemory AmLinkp (Option ℕ)) (blocks : ℕ → AmEvtFields) :
    Accounts (aminitQueue links blocks) [] [] [] [] := by
  refine ⟨⟨linked_qlinitlnk none, ?_, ?_, ?_, rfl, ?_, ?_, ?_⟩, ?_, rfl, ?_, ?_, ?_, ?_⟩
  · simp [aminitQueue, QlMemory.qlinitlnk]
  all_goals simp [aminitQueue, effectsFor]

theorem after_none (events : List AmQueueEvent) : after queueStep none events = none :=
  (idle (s := (none : Option AmQueueCb)) (fun _ => rfl) events).1

/-- A run that the daemon survives keeps the accounts. -/
theorem Accounts.run {events : List AmQueueEvent} (h : Accounts s arrived acts msgs q)
    (hrun : after queueStep (some s) events = some t) :
    ∃ msgs' q', Accounts t (arrived ++ arrivals events)
      (acts ++ outputs queueStep (some s) events) msgs' q' := by
  induction events generalizing s arrived acts msgs q with
  | nil =>
      obtain rfl := Option.some.inj hrun
      exact ⟨msgs, q, by simpa [arrivals] using h⟩
  | cons event events ih =>
      rw [after_cons] at hrun
      cases hstep : (queueStep (some s) event).1 with
      | none =>
          rw [hstep, after_none] at hrun
          exact absurd hrun (Option.some_ne_none t).symm
      | some u =>
          obtain ⟨msgs₁, q₁, hu, -⟩ := h.step hstep
          rw [hstep] at hrun
          obtain ⟨msgs₂, q₂, ht⟩ := ih hu hrun
          have harrivals : arrivals (event :: events) = arrivals [event] ++ arrivals events :=
            List.filterMap_append (l := [event]) ..
          refine ⟨msgs₂, q₂, ?_⟩
          rw [outputs_cons, hstep, harrivals, ← List.append_assoc, ← List.append_assoc]
          exact ht

/-- A tick. -/
def AmQueueEvent.isTick : AmQueueEvent → Bool
  | .tick => true
  | _ => false

/-- A request that a step leaves in the queue is counted down by a tick. -/
theorem FifoStep.timer {n : ℕ} {r : Request} (h : FifoStep n msgs q event msgs' q' new)
    (hnodup : (q.map Request.number).Nodup) (hr : r ∈ q)
    (hrunning : r.fields.evt.ammdmwaittmr ≠ 0) (hnone : effectsFor r.number new = []) :
    ∃ r' ∈ q', r'.number = r.number ∧ r'.fields.evt.ammdmwaittmr.toNat +
      [event].countP AmQueueEvent.isTick = r.fields.evt.ammdmwaittmr.toNat := by
  cases h with
  | arrive | noMessage | noRequest | respond => exact ⟨r, hr, rfl, rfl⟩
  | enqueue x evt hevt => exact ⟨r, List.mem_append_left _ hr, rfl, rfl⟩
  | serve x =>
      rcases List.mem_cons.mp hr with rfl | hr
      · rw [effectsFor_act, if_pos rfl] at hnone
        exact absurd hnone (List.cons_ne_nil _ _)
      · exact ⟨r, hr, rfl, rfl⟩
  | tick =>
      cases hexpiring : r.expiring with
      | true =>
          rw [effectsFor_flatMap (hnodup.sublist (List.filter_sublist.map _))
            (List.mem_filter.mpr ⟨hr, hexpiring⟩)] at hnone
          exact absurd hnone (List.cons_ne_nil _ _)
      | false =>
          refine ⟨r.ticked, List.mem_map_of_mem (List.mem_filter.mpr ⟨hr, by simp [hexpiring]⟩),
            rfl, ?_⟩
          have hticked : r.ticked.fields.evt.ammdmwaittmr = r.fields.evt.ammdmwaittmr - 1 :=
            if_pos hrunning
          have hpos : (1 : UInt32).toNat ≤ r.fields.evt.ammdmwaittmr.toNat :=
            Nat.one_le_iff_ne_zero.mpr fun hzero => hrunning (UInt32.toNat_inj.mp hzero)
          rw [hticked, UInt32.toNat_sub_of_le _ _ (UInt32.le_iff_toNat_le.mpr hpos)]
          exact Nat.sub_add_cancel hpos

/-- A request for which nothing is done in a run has more time left than there were ticks. -/
theorem Accounts.ticks_lt {events : List AmQueueEvent} {r : Request}
    (h : Accounts s arrived acts msgs q) (hr : r ∈ q)
    (hrun : after queueStep (some s) events = some t)
    (hnone : effectsFor r.number (outputs queueStep (some s) events) = []) :
    events.countP AmQueueEvent.isTick < r.fields.evt.ammdmwaittmr.toNat := by
  induction events generalizing s arrived acts msgs q r with
  | nil => exact Nat.pos_of_ne_zero fun hzero => h.running r hr (UInt32.toNat_inj.mp hzero)
  | cons event events ih =>
      rw [after_cons] at hrun
      rw [outputs_cons, effectsFor_append, List.append_eq_nil_iff] at hnone
      cases hstep : (queueStep (some s) event).1 with
      | none =>
          rw [hstep, after_none] at hrun
          exact absurd hrun (Option.some_ne_none t).symm
      | some u =>
          obtain ⟨msgs₁, q₁, hu, hfifo⟩ := h.step hstep
          rw [hstep] at hrun hnone
          have hnodup : (q.map Request.number).Nodup := by
            have hall := h.holds.order.imp Nat.ne_of_lt
            rw [List.map_append] at hall
            exact (List.nodup_append.mp hall).1
          obtain ⟨r', hr', hnumber, htimer⟩ := hfifo.timer hnodup hr (h.running r hr) hnone.1
          have hlt := ih hu hr' hrun (hnumber ▸ hnone.2)
          rw [← List.singleton_append, List.countP_append]
          omega

end Accounting

section Queue

variable {links : QlMemory AmLinkp (Option ℕ)} {blocks : ℕ → AmEvtFields}
  {events : List AmQueueEvent} {s : AmQueueCb}

/-- In every run that the daemon survives, the queue is first in, first out: a request that
arrived waits, in the order of arrival, or left once. The next step is one of `FifoStep`, and a
request has left after as many ticks as its timer counts. -/
theorem eventQueue_fifo
    (h : after queueStep (some (aminitQueue links blocks)) events = some s) :
    ∃ msgs q,
      Accounts s (arrivals events) (outputs queueStep (some (aminitQueue links blocks)) events)
        msgs q ∧
      (∀ event t, (queueStep (some s) event).1 = some t → ∃ msgs' q', Holds t msgs' q' ∧
        FifoStep s.arrived msgs q event msgs' q' (queueStep (some s) event).2) ∧
      ∀ r ∈ q, ∀ later t, after queueStep (some s) later = some t →
        r.fields.evt.ammdmwaittmr.toNat ≤ later.countP AmQueueEvent.isTick →
        LeftOnce r.number r.arrival
          (outputs queueStep (some (aminitQueue links blocks)) (events ++ later)) := by
  obtain ⟨msgs, q, haccounts⟩ := (accounts_start links blocks).run h
  rw [List.nil_append, List.nil_append] at haccounts
  refine ⟨msgs, q, haccounts, fun event t hstep => ?_, fun r hr later t hlater hticks => ?_⟩
  · obtain ⟨msgs', q', hholds, hfifo, -⟩ := queueStep_fifo haccounts.holds hstep
    exact ⟨msgs', q', hholds, hfifo⟩
  · obtain ⟨msgs', q', hend⟩ := haccounts.run hlater
    rw [outputs_append, h]
    have hown : (arrivals events ++ arrivals later)[r.number]? = some r.arrival := by
      have hlt := haccounts.holds.arrived r (List.mem_append_left _ hr)
      rw [haccounts.count] at hlt
      rw [List.getElem?_append_left hlt]
      exact haccounts.own r (List.mem_append_left _ hr)
    refine hend.left r.number r.arrival hown fun hmem => ?_
    obtain ⟨r', hr', hnumber⟩ := List.mem_map.mp hmem
    have hnone := hend.waiting r' hr'
    rw [hnumber, effectsFor_append, List.append_eq_nil_iff] at hnone
    exact Nat.not_lt.mpr hticks (haccounts.ticks_lt hr hlater hnone.2)

/-- Any contents of the memory at the start. -/
def anyLinks : QlMemory AmLinkp (Option ℕ) := fun a => ⟨a, a, none⟩

def anyBlocks : ℕ → AmEvtFields := fun _ => ⟨none, ⟨[], firstRr, 0⟩, 0⟩

/-- Two requests with a timeout of two ticks and a longer one wait, and two ticks pass. -/
def expiringEvents : List AmQueueEvent :=
  [.receive (dmsPacket AmMsgType.qmiRequest 100) (some 1) firstRr, .message,
    .receive (dmsPacket AmMsgType.qmiRequest 100) (some 2) firstRr, .message,
    .receive (dmsPacket AmMsgType.qmiRequest 5000) (some 3) firstRr, .message, .tick, .tick]

/-- Two requests behind each other run out of time with one tick. -/
theorem eventQueue_fifo_expiring :
    ∃ s, after queueStep (some (aminitQueue anyLinks anyBlocks)) expiringEvents = some s ∧
      ∃ msgs q, Accounts s (arrivals expiringEvents)
        (outputs queueStep (some (aminitQueue anyLinks anyBlocks)) expiringEvents) msgs q := by
  obtain ⟨msgs, q, haccounts, -⟩ := @eventQueue_fifo anyLinks anyBlocks expiringEvents _ rfl
  exact ⟨_, rfl, msgs, q, haccounts⟩

/-- A request is passed to its handler. -/
def AmEffect.isHandler : AmEffect → Bool
  | .qmsendrr .. => true
  | .amsdkhandler .. => true
  | _ => false

/-- A timeout response. -/
def AmEffect.isTimeout : AmEffect → Bool
  | .dssend packet _ => (amparseamheader packet).amresultcode = EQCWWANError.swicmTimeout
  | _ => false

/-- Each request for which something was done was either passed to its handler or answered with
one timeout response. -/
def HandledOrTimedOut (arrived : ℕ) (acts : List AmAction) : Prop :=
  ∀ n < arrived, effectsFor n acts ≠ [] →
    (effectsFor n acts).countP AmEffect.isHandler +
      (effectsFor n acts).countP AmEffect.isTimeout = 1

/-- A DMS request with a header of the version after this one. -/
def newerPacket : List UInt8 :=
  ambuildamheader ⟨AmMsgType.qmiRequest, amHdrVersion + 1, EQCWWANError.none, 25⟩ ++
    [2] ++ piput32 5000 ++ piput16 7 ++ [0, 0, 0, 0x20, 0, 0, 0, 0]

/-- It is answered when it is taken from the queue, and no handler sees it. -/
theorem not_handledOrTimedOut_newer :
    ¬ HandledOrTimedOut 1 (outputs queueStep (some (aminitQueue anyLinks anyBlocks))
      [.receive newerPacket (some 1) firstRr, .message, .serve]) := by
  intro h
  have hone := h 0 (Nat.zero_lt_one)
  revert hone
  decide

end Queue

end Am

end SierraSdk
