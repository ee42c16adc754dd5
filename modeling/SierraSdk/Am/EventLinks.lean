import SierraSdk.Am.EventQueue

/-!
# The links of the event queue

What each operation does to the requests that the links and the blocks hold. A tick comes to each
request in the queue once, also behind one that it took out: the link in a released block still
leads on (`amtickLoop_rule`).
-/

namespace SierraSdk

namespace Am

open Ci Machine Ql

section Rules

variable {s t : AmQueueCb} {msgs done todo q : List Request} {r : Request}

theorem Holds.nodup (h : Holds s msgs q) :
    ((q ++ msgs).map Request.eventbkp ++ s.amevtpool).Nodup :=
  h.apart.nodup_iff.mpr List.nodup_range

theorem Holds.length_le (h : Holds s msgs q) : q.length ≤ amEvtPoolSz := by
  have hlen := h.apart.length_eq
  simp only [List.length_append, List.length_map, List.length_range] at hlen
  omega

theorem Holds.congr (h : Holds s msgs q) (hsame : SameRequests s t) : Holds t msgs q where
  linked := hsame.links ▸ h.linked
  head := hsame.links ▸ h.head
  user := hsame.links ▸ h.user
  block := hsame.blocks ▸ h.block
  queued := hsame.queued ▸ h.queued
  apart := hsame.amevtpool ▸ h.apart
  order := h.order
  arrived := hsame.arrived ▸ h.arrived

/-- A response is a packet that is sent, and leaves the requests as they are. -/
theorem amsdk_send_rule {packet : List UInt8} {ipcchannel : CiRrChannel}
    (h : (s.amsdk_send packet ipcchannel).1 = some t) :
    SameRequests s t ∧
      (s.amsdk_send packet ipcchannel).2 = [.dssend packet ipcchannel.channel] := by
  simp only [AmQueueCb.amsdk_send, andThen, AmQueueCb.amqueipcrspevt,
    AmQueueCb.icsmt_send] at h ⊢
  split_ifs at h ⊢
  obtain rfl := Option.some.inj h
  exact ⟨⟨rfl, rfl, by simp [AmEventp.block], rfl, rfl⟩, rfl⟩

/-- A request goes to its handler, or is noted if it has none. -/
theorem amdispatchrequest_rule {amtype : UInt16} {inipcmsg : List UInt8}
    {ipcchannel : CiRrChannel} (h : (s.amdispatchrequest amtype inipcmsg ipcchannel).1 = some t) :
    SameRequests s t ∧ (s.amdispatchrequest amtype inipcmsg ipcchannel).2 =
      [if amtype = AmMsgType.qmiRequest then .qmsendrr inipcmsg ipcchannel
        else if amtype = AmMsgType.sdkRequest then .amsdkhandler inipcmsg ipcchannel
        else .undefinedType amtype] := by
  simp only [AmQueueCb.amdispatchrequest, AmQueueCb.amsdkhandler, andThen] at h ⊢
  split_ifs at h ⊢
  all_goals
    obtain rfl := Option.some.inj h
    exact ⟨⟨rfl, rfl, rfl, rfl, rfl⟩, rfl⟩

/-- A request is processed as `dispatch` says. -/
theorem amserverequest_rule (hblock : s.blocks r.eventbkp = r.fields)
    (h : (s.amserverequest r.eventbkp).1 = some t) :
    SameRequests s t ∧ (s.amserverequest r.eventbkp).2 = [r.dispatch] := by
  simp only [AmQueueCb.amserverequest, hblock, Request.dispatch] at h ⊢
  by_cases hversion : (amparseamheader r.fields.evt.amdata).amheaderversion ≠ amHdrVersion
  · rw [if_pos hversion] at h ⊢
    rw [if_pos hversion]
    exact amsdk_send_rule h
  · rw [if_neg hversion] at h ⊢
    rw [if_neg hversion]
    exact amdispatchrequest_rule h

/-- A request leaves the queue: its block is released, and the links are those of the others. -/
theorem Holds.remove (h : Holds s msgs (done ++ r :: todo))
    {links : QlMemory AmLinkp (Option ℕ)}
    (hlinked : Linked links .ameventheadq ((done ++ todo).map Request.link))
    (huser : ∀ a, (links a).qluserp = (s.links a).qluserp) :
    Holds { s with links := links, amevtpool := s.amevtpool ++ [r.eventbkp] } msgs
      (done ++ todo) := by
  have hsub : ((done ++ todo) ++ msgs).Sublist ((done ++ r :: todo) ++ msgs) :=
    ((List.sublist_cons_self r todo).append_left done).append_right msgs
  have hmem : ∀ {x}, x ∈ done ++ todo → x ∈ done ++ r :: todo := fun hx =>
    ((List.sublist_cons_self r todo).append_left done).subset hx
  have hperm : (((done ++ todo) ++ msgs).map Request.eventbkp ++
      (s.amevtpool ++ [r.eventbkp])).Perm
      (((done ++ r :: todo) ++ msgs).map Request.eventbkp ++ s.amevtpool) := by
    simp only [List.map_append, List.map_cons, List.append_assoc]
    refine List.Perm.append_left _ ?_
    rw [← List.append_assoc, ← List.append_assoc, ← List.append_assoc]
    exact (List.perm_append_singleton ..)
  exact
    { linked := hlinked
      head := (huser _).trans h.head
      user := fun x hx => (huser _).trans (h.user x (hmem hx))
      block := fun x hx => h.block x (hsub.subset hx)
      queued := h.queued
      apart := hperm.trans h.apart
      order := h.order.sublist (hsub.map _)
      arrived := fun x hx => h.arrived x (hsub.subset hx) }

/-- The fields of a block in the queue are written. -/
theorem Holds.setBlock (h : Holds s msgs (done ++ r :: todo)) {fields : AmEvtFields}
    (hnumber : fields.request = r.number) :
    Holds (s.setBlock r.eventbkp fields) msgs (done ++ ⟨r.eventbkp, fields⟩ :: todo) := by
  have hnodup := (List.nodup_append.mp h.nodup).1
  have hother : ∀ x ∈ done ++ todo ++ msgs, x.eventbkp ≠ r.eventbkp := by
    have hperm : (done ++ r :: todo ++ msgs).Perm (r :: (done ++ todo ++ msgs)) :=
      List.perm_middle.append_right msgs
    have hcons := ((hperm.map Request.eventbkp).nodup_iff.mp hnodup)
    rw [List.map_cons, List.nodup_cons] at hcons
    exact fun x hx heq => hcons.1 (heq ▸ List.mem_map_of_mem hx)
  exact
    { linked := by simpa [AmQueueCb.setBlock, Request.link] using h.linked
      head := h.head
      user := by
        intro x hx
        rcases List.mem_append.mp hx with hx | hx
        · exact h.user x (List.mem_append_left _ hx)
        · rcases List.mem_cons.mp hx with rfl | hx
          · exact h.user r (by simp)
          · exact h.user x (by simp [hx])
      block := by
        intro x hx
        by_cases hcase : x ∈ done ++ todo ++ msgs
        · rw [AmQueueCb.setBlock]
          refine (Function.update_of_ne (hother x hcase) ..).trans (h.block x ?_)
          simp only [List.mem_append, List.mem_cons] at hcase ⊢
          tauto
        · have hself : x = ⟨r.eventbkp, fields⟩ := by
            simp only [List.mem_append, List.mem_cons] at hcase hx
            tauto
          subst hself
          exact Function.update_self ..
      queued := h.queued
      apart := by simpa [AmQueueCb.setBlock] using h.apart
      order := by simpa [Request.number, hnumber] using h.order
      arrived := by
        intro x hx
        by_cases hcase : x = ⟨r.eventbkp, fields⟩
        · subst hcase
          change fields.request < s.arrived
          rw [hnumber]
          exact h.arrived r (by simp)
        · refine h.arrived x ?_
          simp only [List.mem_append, List.mem_cons] at hx ⊢
          tauto }

/-- The block behind one in the queue. -/
theorem Holds.qlgetnext (h : Holds s msgs (done ++ r :: todo)) :
    s.links.qlgetnext r.link = todo.head?.map Request.eventbkp := by
  have hnext := Linked.next_eq (show Linked s.links .ameventheadq
    (done.map Request.link ++ r.link :: todo.map Request.link) by simpa using h.linked)
  change (s.links (s.links.next r.link)).qluserp = _
  rw [hnext]
  cases todo with
  | nil => exact h.head
  | cons x todo => exact h.user x (by simp)

theorem Holds.qlgetnext_head (h : Holds s msgs q) :
    s.links.qlgetnext .ameventheadq = q.head?.map Request.eventbkp := by
  change (s.links (s.links.next .ameventheadq)).qluserp = _
  rw [h.linked.next_head]
  cases q with
  | nil => exact h.head
  | cons x q => exact h.user x (by simp)

/-- A request that runs out of time is answered, and leaves the queue. The block that is behind
it is found through it. -/
theorem expire_rule (h : Holds s msgs (done ++ r :: todo))
    (hrun : (andThen (s.amreqtimeout r.eventbkp) fun s =>
      AmQueueCb.amreleventbk { s with links := (s.links.qlremcur r.link).2 } r.eventbkp).1 =
        some t) :
    Holds t msgs (done ++ todo) ∧
      (andThen (s.amreqtimeout r.eventbkp) fun s =>
        AmQueueCb.amreleventbk { s with links := (s.links.qlremcur r.link).2 } r.eventbkp).2 =
          r.timedOut ∧
      t.links.qlgetnext r.link = todo.head?.map Request.eventbkp ∧ t.arrived = s.arrived := by
  have hblock := h.block r (by simp)
  obtain ⟨u, hsent, hreleased, hout⟩ := andThen_some hrun
  rw [hout]
  have hfields : s.amreqtimeout r.eventbkp = s.amsdk_send
      (AmQueueCb.shortPacket (amparseamheader r.fields.evt.amdata).amtype
        EQCWWANError.swicmTimeout) r.fields.evt.amipcchannel := by
    rw [AmQueueCb.amreqtimeout, hblock]
    rfl
  rw [hfields] at hsent ⊢
  obtain ⟨hsame, hpacket⟩ := amsdk_send_rule hsent
  have hu := h.congr hsame
  have hlinked : Linked u.links .ameventheadq
      (done.map Request.link ++ r.link :: todo.map Request.link) := by
    simpa using hu.linked
  obtain rfl := Option.some.inj hreleased
  refine ⟨?_, ?_, ?_, hsame.arrived⟩
  · exact hu.remove (by simpa using hlinked.qlremcur) fun a => qlremcur_qluserp ..
  · rw [hpacket, AmQueueCb.amreleventbk, hsame.blocks, hblock]
    rfl
  · change ((u.links.qlremcur r.link).2 ((u.links.qlremcur r.link).2.next r.link)).qluserp = _
    rw [hlinked.next_qlremcur, qlremcur_qluserp]
    exact hu.qlgetnext

/-- What becomes of the request that a tick comes to. -/
theorem amtickBlock_rule (h : Holds s msgs (done ++ r :: todo))
    (hrun : (s.amtickBlock r.eventbkp).1 = some t) :
    Holds t msgs (done ++ (if r.expiring then [] else [r.ticked]) ++ todo) ∧
      (s.amtickBlock r.eventbkp).2 = (if r.expiring then r.timedOut else []) ∧
      t.links.qlgetnext r.link = todo.head?.map Request.eventbkp ∧
      t.arrived = s.arrived := by
  have hfields := h.block r (by simp)
  have hnext := h.qlgetnext
  simp only [AmQueueCb.amtickBlock, hfields] at hrun ⊢
  by_cases hrunning : r.fields.evt.ammdmwaittmr ≠ 0
  · rw [if_pos hrunning] at hrun ⊢
    by_cases hzero : r.fields.evt.ammdmwaittmr - 1 = 0
    · have hexpiring : r.expiring = true := by
        simp [Request.expiring, AmEvtBlock.expiring, hrunning, hzero]
      rw [if_pos hzero] at hrun ⊢
      have hset := expire_rule (h.setBlock (show AmEvtFields.request { r.fields with evt :=
        { r.fields.evt with ammdmwaittmr := r.fields.evt.ammdmwaittmr - 1 } } = r.number
          from rfl)) hrun
      rw [hexpiring, if_pos rfl, if_pos rfl, List.append_nil]
      exact hset
    · have hexpiring : r.expiring = false := by
        simp [Request.expiring, AmEvtBlock.expiring, hzero]
      rw [if_neg hzero] at hrun ⊢
      obtain rfl := Option.some.inj hrun
      have hticked : r.ticked = ⟨r.eventbkp, { r.fields with evt :=
          { r.fields.evt with ammdmwaittmr := r.fields.evt.ammdmwaittmr - 1 } }⟩ := by
        simp [Request.ticked, AmEvtBlock.ticked, hrunning]
      have hset : Holds (s.setBlock r.eventbkp r.ticked.fields) msgs
          (done ++ ⟨r.eventbkp, r.ticked.fields⟩ :: todo) := h.setBlock rfl
      simp only [hexpiring, hticked] at hset ⊢
      exact ⟨by simpa using hset, rfl, hnext, rfl⟩
  · have hexpiring : r.expiring = false := by
      simp [Request.expiring, AmEvtBlock.expiring, not_not.mp hrunning]
    have hticked : r.ticked = r := by
      rw [Request.ticked, AmEvtBlock.ticked, if_neg hrunning]
    rw [if_neg hrunning] at hrun ⊢
    obtain rfl := Option.some.inj hrun
    rw [hexpiring, hticked]
    exact ⟨by simpa using h, rfl, hnext, rfl⟩

/-- The loop of a tick counts down the requests that it comes to, and removes those whose timer
runs out. -/
theorem amtickLoop_rule {rounds : ℕ} (h : Holds s msgs (done ++ todo))
    (hrounds : todo.length ≤ rounds) :
    ∃ out, AmQueueCb.amtickLoop rounds (todo.head?.map Request.eventbkp) s = some out ∧
      ∀ t, out.1 = some t →
        Holds t msgs (done ++ (todo.filter (!·.expiring)).map Request.ticked) ∧
          out.2 = (todo.filter Request.expiring).flatMap (fun r => r.act r.timedOut) ∧
          t.arrived = s.arrived := by
  induction todo generalizing s done rounds with
  | nil =>
      refine ⟨(some s, []), by cases rounds <;> rfl, ?_⟩
      rintro _ ⟨⟩
      exact ⟨by simpa using h, rfl, rfl⟩
  | cons r todo ih =>
      obtain ⟨rounds, rfl⟩ : ∃ n, rounds = n + 1 :=
        Nat.exists_eq_succ_of_ne_zero (Nat.ne_of_gt (Nat.lt_of_lt_of_le (by simp) hrounds))
      have hblock := h.block r (by simp)
      have hnumber : (s.blocks r.eventbkp).request = r.number := congrArg AmEvtFields.request hblock
      rw [List.head?_cons, Option.map_some, AmQueueCb.amtickLoop, hnumber]
      cases hrun : (s.amtickBlock r.eventbkp).1 with
      | none =>
          have hstopped : AmQueueCb.actions (some r.number) (s.amtickBlock r.eventbkp) =
              (none, r.act (s.amtickBlock r.eventbkp).2) := congrArg (·, _) hrun
          rw [hstopped]
          exact ⟨_, rfl, fun t ht => absurd ht (Option.some_ne_none t).symm⟩
      | some t =>
          obtain ⟨ht, hout, hnext, harrived⟩ := amtickBlock_rule h hrun
          have hwent : AmQueueCb.actions (some r.number) (s.amtickBlock r.eventbkp) =
              (some t, r.act (if r.expiring then r.timedOut else [])) := by
            rw [AmQueueCb.actions, hrun, hout]
            rfl
          rw [hwent]
          obtain ⟨out, hloop, hall⟩ := ih ht (Nat.le_of_succ_le_succ hrounds)
          change t.links.qlgetnext (.ameqlnk r.eventbkp) = _ at hnext
          simp only [hnext, hloop, Option.map_some, Option.some.injEq, exists_eq_left']
          intro u hu
          obtain ⟨hholds, hacts, hsame⟩ := hall u hu
          rw [hacts, hsame, harrived, List.filter_cons, List.filter_cons]
          cases hexpiring : r.expiring with
          | true => exact ⟨by simpa [hexpiring] using hholds, rfl, rfl⟩
          | false => exact ⟨by simpa [hexpiring] using hholds, rfl, rfl⟩

/-- A tick counts down the timers of the requests in the queue, and answers and removes those
whose timer runs out. -/
theorem amtick_rule {rounds : ℕ} (h : Holds s msgs q) (hrounds : q.length ≤ rounds) :
    ∃ out, s.amtick rounds = some out ∧
      ∀ t, out.1 = some t →
        Holds t msgs ((q.filter (!·.expiring)).map Request.ticked) ∧
          out.2 = (q.filter Request.expiring).flatMap (fun r => r.act r.timedOut) ∧
          t.arrived = s.arrived := by
  rw [AmQueueCb.amtick, h.qlgetnext_head]
  exact @amtickLoop_rule s msgs [] q rounds h hrounds

/-- The first request in the queue is processed, and leaves it. -/
theorem serve_rule {links : QlMemory AmLinkp (Option ℕ)} (h : Holds s msgs (r :: q))
    (hlinks : links = (s.links.qlremnext .ameventheadq).2)
    (hrun : (andThen
      (AmQueueCb.amserverequest { s with amreqbusy := true, links := links } r.eventbkp)
      fun s => s.amreleventbk r.eventbkp).1 = some t) :
    Holds t msgs q ∧ t.arrived = s.arrived ∧
      (andThen (AmQueueCb.amserverequest { s with amreqbusy := true, links := links } r.eventbkp)
        fun s => s.amreleventbk r.eventbkp).2 = r.served := by
  have hblock := h.block r (by simp)
  obtain ⟨u, hserved, hreleased, hout⟩ := andThen_some hrun
  obtain ⟨hsame, hdispatch⟩ :=
    amserverequest_rule (s := { s with amreqbusy := true, links := links }) hblock hserved
  obtain rfl := Option.some.inj hreleased
  have hremoved := @Holds.remove s msgs [] q r h links (by
    rw [hlinks]
    exact h.linked.qlremnext.2) fun a => by rw [hlinks, qlremnext_qluserp]
  refine ⟨hremoved.congr ⟨hsame.links, hsame.blocks, hsame.queued, ?_, hsame.arrived⟩,
    hsame.arrived, ?_⟩
  · exact congrArg (· ++ [r.eventbkp]) hsame.amevtpool
  · rw [hout, hdispatch, AmQueueCb.amreleventbk, hsame.blocks, hblock]
    rfl

/-- The task serves the queue: unless it waits for a response, the first request leaves the
queue. -/
theorem amservequeue_rule (h : Holds s msgs q) (hrun : s.amservequeue.1 = some t) :
    t.arrived = s.arrived ∧
      if s.amreqbusy then Holds t msgs q ∧ s.amservequeue.2 = []
      else Holds t msgs q.tail ∧
        s.amservequeue.2 = q.head?.toList.flatMap fun r => r.act r.served := by
  rw [AmQueueCb.amservequeue] at hrun ⊢
  cases hbusy : s.amreqbusy with
  | true =>
      rw [hbusy, if_pos rfl] at hrun
      obtain rfl := Option.some.inj hrun
      exact ⟨rfl, h, rfl⟩
  | false =>
      obtain ⟨hfirst, hlinked⟩ := h.linked.qlremnext
      rw [hbusy] at hrun
      cases q with
      | nil =>
          change _ = (s.links .ameventheadq).qluserp at hfirst
          rw [h.head] at hfirst
          simp only [hfirst] at hrun ⊢
          obtain rfl := Option.some.inj hrun
          exact ⟨rfl, { h with linked := hlinked, user := by simp, head := by simp [h.head] }, rfl⟩
      | cons r q =>
          change _ = (s.links r.link).qluserp at hfirst
          rw [h.user r (List.mem_cons_self ..)] at hfirst
          have hblock := h.block r (by simp)
          simp only [hfirst, hblock] at hrun ⊢
          obtain ⟨hholds, harrived, hout⟩ := serve_rule h rfl hrun
          refine ⟨harrived, hholds, ?_⟩
          change List.map _ _ = _
          rw [hout]
          simp [Request.act, Request.number]

/-- A packet that arrives is a new request, in a block of its own. -/
theorem amipcrcvhandler_rule {msg : List UInt8} {memfreep : Option ℕ} {ipcchannel : CiRrChannel}
    (h : Holds s msgs q) (hrun : (s.amipcrcvhandler msg memfreep ipcchannel).1 = some t) :
    t.arrived = s.arrived + 1 ∧ (s.amipcrcvhandler msg memfreep ipcchannel).2 = [] ∧
      ∃ eventbkp timer, Holds t
        (msgs ++ [⟨eventbkp, ⟨memfreep, ⟨msg, ipcchannel, timer⟩, s.arrived⟩⟩]) q := by
  simp only [AmQueueCb.amipcrcvhandler, AmQueueCb.icsmt_send] at hrun ⊢
  cases hpool : s.amevtpool with
  | nil => simp [hpool] at hrun
  | cons eventbkp free =>
      simp only [hpool] at hrun ⊢
      split_ifs at hrun ⊢
      obtain rfl := Option.some.inj hrun
      have hapart := h.apart
      have hnodup := h.nodup
      rw [hpool] at hapart hnodup
      have hnew : ∀ r ∈ q ++ msgs, r.eventbkp ≠ eventbkp := fun r hr heq =>
        (List.nodup_append.mp hnodup).2.2 r.eventbkp (List.mem_map_of_mem hr) eventbkp
          (List.mem_cons_self ..) heq
      have hlink : ∀ a ∈ AmLinkp.ameventheadq :: q.map Request.link,
          s.links.qlinitlnk (.ameqlnk eventbkp) none a = s.links a := by
        intro a ha
        refine Function.update_of_ne ?_ ..
        rintro rfl
        obtain ⟨r, hr, heq⟩ := List.mem_map.mp ((List.mem_cons.mp ha).resolve_left (by simp))
        exact hnew r (List.mem_append_left _ hr) (AmLinkp.ameqlnk.inj heq)
      refine ⟨rfl, rfl, eventbkp, (s.blocks eventbkp).evt.ammdmwaittmr, ?_⟩
      refine ⟨h.linked.congr hlink, ?_, ?_, ?_, ?_, ?_, ?_, ?_⟩
      · exact (congrArg QlLink.qluserp (hlink _ (List.mem_cons_self ..))).trans h.head
      · intro r hr
        refine (congrArg QlLink.qluserp (hlink _ ?_)).trans (h.user r hr)
        exact List.mem_cons_of_mem _ (List.mem_map_of_mem hr)
      · intro r hr
        rw [← List.append_assoc] at hr
        rcases List.mem_append.mp hr with hr | hr
        · exact (Function.update_of_ne (hnew r hr) ..).trans (h.block r hr)
        · obtain rfl := List.mem_singleton.mp hr
          exact Function.update_self ..
      · simp [AmQueueCb.setBlock, AmEventp.block, h.queued]
      · simpa using hapart
      · rw [← List.append_assoc, List.map_append, List.pairwise_append]
        refine ⟨h.order, List.pairwise_singleton _ _, ?_⟩
        intro n hn m hm
        obtain ⟨r, hr, rfl⟩ := List.mem_map.mp hn
        obtain rfl := List.mem_singleton.mp hm
        exact h.arrived r hr
      · intro r hr
        rw [← List.append_assoc] at hr
        rcases List.mem_append.mp hr with hr | hr
        · exact Nat.lt_succ_of_lt (h.arrived r hr)
        · obtain rfl := List.mem_singleton.mp hr
          exact Nat.lt_succ_self _

/-- A request whose timer was started. -/
theorem amreqinittmr_rule {evt evt' : AmEvtBlock} (h : amreqinittmr evt = some evt') :
    evt'.amdata = evt.amdata ∧ evt'.amipcchannel = evt.amipcchannel ∧ evt'.ammdmwaittmr ≠ 0 := by
  simp only [amreqinittmr] at h
  split_ifs at h
  obtain rfl := Option.some.inj h
  refine ⟨rfl, rfl, fun hzero => ?_⟩
  have hnat := congrArg UInt32.toNat hzero
  rw [UInt32.toNat_add, UInt32.toNat_div] at hnat
  have hlt := (amparseqmixactionheader (evt.amdata.drop amHeaderSz)).amqmireqtimeout.toNat_lt
  have hticks : amTickMs.toNat = 100 := rfl
  have hone : UInt32.toNat 1 = 1 := rfl
  have hnone : UInt32.toNat 0 = 0 := rfl
  rw [hticks, hone, hnone] at hnat
  omega

/-- A request is put at the end of the queue. -/
theorem Holds.enqueue {rest : List AmEventp} {evt : AmEvtBlock} (h : Holds s (r :: msgs) q)
    (hrest : rest.filterMap AmEventp.block = msgs.map Request.eventbkp) :
    Holds { s with
      amicmsgque := rest
      links := (s.links.qlinitlnk (.ameqlnk r.eventbkp) (some r.eventbkp)).qladdprev
        .ameventheadq (.ameqlnk r.eventbkp)
      blocks := Function.update s.blocks r.eventbkp { r.fields with evt := evt } } msgs
      (q ++ [⟨r.eventbkp, { r.fields with evt := evt }⟩]) := by
  have hnodup := (List.nodup_append.mp h.nodup).1
  have hother : ∀ x ∈ q ++ msgs, x.eventbkp ≠ r.eventbkp := by
    have hcons := ((List.perm_middle.map Request.eventbkp).nodup_iff.mp hnodup)
    rw [List.map_cons, List.nodup_cons] at hcons
    exact fun x hx heq => hcons.1 (heq ▸ List.mem_map_of_mem hx)
  have hlink : ∀ a ∈ AmLinkp.ameventheadq :: q.map Request.link,
      a ≠ .ameqlnk r.eventbkp := by
    rintro a ha rfl
    obtain ⟨x, hx, heq⟩ := List.mem_map.mp ((List.mem_cons.mp ha).resolve_left (by simp))
    exact hother x (List.mem_append_left _ hx) (AmLinkp.ameqlnk.inj heq)
  have hsame : ∀ a ∈ AmLinkp.ameventheadq :: q.map Request.link,
      s.links.qlinitlnk (.ameqlnk r.eventbkp) (some r.eventbkp) a = s.links a := fun a ha =>
    Function.update_of_ne (hlink a ha) ..
  refine ⟨?_, ?_, ?_, ?_, hrest, ?_, ?_, ?_⟩
  · rw [List.map_append]
    exact (h.linked.congr hsame).qladdprev fun hmem => hlink _ hmem rfl
  · rw [qladdprev_qluserp, hsame _ (List.mem_cons_self ..)]
    exact h.head
  · intro x hx
    rw [qladdprev_qluserp]
    rcases List.mem_append.mp hx with hx | hx
    · rw [hsame _ (List.mem_cons_of_mem _ (List.mem_map_of_mem hx))]
      exact h.user x hx
    · obtain rfl := List.mem_singleton.mp hx
      simp [QlMemory.qlinitlnk, Request.link]
  · intro x hx
    by_cases hcase : x ∈ q ++ msgs
    · refine (Function.update_of_ne (hother x hcase) _ s.blocks).trans (h.block x ?_)
      simp only [List.mem_append, List.mem_cons] at hcase ⊢
      tauto
    · have hself : x = ⟨r.eventbkp, { r.fields with evt := evt }⟩ := by
        simp only [List.mem_append, List.mem_cons, List.not_mem_nil, or_false] at hcase hx
        tauto
      subst hself
      exact Function.update_self ..
  · simpa using h.apart
  · simpa [Request.number] using h.order
  · intro x hx
    by_cases hcase : x ∈ q ++ msgs
    · refine h.arrived x ?_
      simp only [List.mem_append, List.mem_cons] at hcase ⊢
      tauto
    · have hself : x = ⟨r.eventbkp, { r.fields with evt := evt }⟩ := by
        simp only [List.mem_append, List.mem_cons, List.not_mem_nil, or_false] at hcase hx
        tauto
      subst hself
      exact h.arrived r (by simp)

/-- The task takes a message: a request is put at the end of the queue, with its timer
started. -/
theorem amreceive_rule (h : Holds s msgs q) (hrun : s.amreceive.1 = some t) :
    t.arrived = s.arrived ∧ s.amreceive.2 = [] ∧
      (Holds t msgs q ∨ ∃ r evt msgs', msgs = r :: msgs' ∧ amreqinittmr r.fields.evt = some evt ∧
        Holds t msgs' (q ++ [⟨r.eventbkp, { r.fields with evt := evt }⟩])) := by
  rw [AmQueueCb.amreceive] at hrun ⊢
  have hqueued := h.queued
  cases hmsgs : s.amicmsgque with
  | nil =>
      simp only [hmsgs] at hrun ⊢
      obtain rfl := Option.some.inj hrun
      exact ⟨rfl, trivial, .inl h⟩
  | cons msg rest =>
      simp only [hmsgs] at hrun ⊢
      rw [hmsgs] at hqueued
      cases msg with
      | amresponseevt =>
          have hrest : Holds { s with amicmsgque := rest } msgs q := { h with queued := hqueued }
          simp only [AmQueueCb.actions, AmQueueCb.amappevent] at hrun ⊢
          split_ifs at hrun ⊢
          all_goals
            obtain rfl := Option.some.inj hrun
            exact ⟨rfl, rfl, .inl (hrest.congr ⟨rfl, rfl, rfl, rfl, rfl⟩)⟩
      | appRequest eventbkp =>
          obtain ⟨r, msgs', rfl, rfl, hrest⟩ : ∃ r msgs', msgs = r :: msgs' ∧
              r.eventbkp = eventbkp ∧
              rest.filterMap AmEventp.block = msgs'.map Request.eventbkp := by
            cases msgs with
            | nil => exact absurd hqueued (by simp [AmEventp.block])
            | cons r msgs' =>
                obtain ⟨hr, hrest⟩ := List.cons.inj hqueued
                exact ⟨r, msgs', rfl, hr.symm, hrest⟩
          have hblock := h.block r (by simp)
          simp only [AmQueueCb.actions, AmQueueCb.amappevent, hblock] at hrun ⊢
          split_ifs at hrun ⊢
          cases hstarted : amreqinittmr r.fields.evt with
          | none => simp [hstarted] at hrun
          | some evt =>
              simp only [hstarted] at hrun ⊢
              obtain rfl := Option.some.inj hrun
              exact ⟨rfl, rfl, .inr ⟨r, evt, msgs', rfl, hstarted, h.enqueue hrest⟩⟩


end Rules

end Am

end SierraSdk
