import Mathlib.Data.List.Perm.Basic
import SierraSdk.Am.Buffers
import SierraSdk.Am.RequestQueue

/-!
# Who owns the buffer of a request

While a request waits for the AM task its buffer is its own: it is not free, no shell receives in
it, and it holds the bytes that arrived (`Waits.run`). The task releases it as soon as the request
is dispatched, and a QMI request is dispatched by a pointer into it. So the buffers are owned, and
the bytes read are those that were sent, in exactly the runs in which no QMI request is passed on
(`meets_buffersOwned_iff`).
-/

namespace SierraSdk

namespace Am

open Ci Machine Ql Qm

/-- The buffer of a request. -/
def Request.bufp (r : Request) : ℕ := SdkTasks.bufferOf r.fields

/-- The requests that wait are in the blocks of the AM task. Each has its buffer, in which it was
received; the other buffers of a shell are free, or it waits for a packet in one. -/
structure Waits (s : SdkTasks) (msgs q : List Request) : Prop where
  holds : Holds s.am msgs q
  memfreep : ∀ r ∈ q ++ msgs, r.fields.ammemfreep = some r.bufp
  apart : ∀ chan, (s.dsbufpool chan ++ (s.inipcmsgp chan).toList ++
    ((q ++ msgs).map Request.bufp).filter (· / dsIpcPoolSz = chan)).Perm (shellBuffers chan)
  bytes : ∀ r ∈ q ++ msgs,
    (s.buffer r.bufp).take r.fields.evt.amdata.length = r.fields.evt.amdata

/-- No event points to a buffer, and the waiting requests have theirs. -/
def Unheld (s : Option SdkTasks) : Prop :=
  ∀ t, s = some t → t.held = [] ∧ ∃ msgs q, Waits t msgs q

section Buffers

variable {s t : SdkTasks} {msgs msgs' q q' : List Request} {r : Request}

theorem nodup_shellBuffers (chan : ℕ) : (shellBuffers chan).Nodup :=
  List.nodup_range.map fun _ _ h => Nat.add_left_cancel h

theorem div_of_mem_shellBuffers {chan p : ℕ} (h : p ∈ shellBuffers chan) :
    p / dsIpcPoolSz = chan := by
  obtain ⟨k, hk, rfl⟩ := List.mem_map.mp h
  rw [Nat.mul_add_div (by decide), Nat.div_eq_of_lt (List.mem_range.mp hk), Nat.add_zero]

/-- Waiting requests have different buffers. -/
theorem Waits.nodup (h : Waits s msgs q) : ((q ++ msgs).map Request.bufp).Nodup := by
  refine List.nodup_iff_count_le_one.mpr fun p => ?_
  have hall := (h.apart (p / dsIpcPoolSz)).nodup_iff.mpr (nodup_shellBuffers _)
  have hone := List.nodup_iff_count_le_one.mp (List.nodup_append.mp hall).2.1 p
  rwa [List.count_filter (by simp)] at hone

/-- The buffer of a waiting request is not free, and no shell receives in it. -/
theorem Waits.owned (h : Waits s msgs q) (hr : r ∈ q ++ msgs) (chan : ℕ) :
    r.bufp ∉ s.dsbufpool chan ∧ s.inipcmsgp chan ≠ some r.bufp := by
  have hall := (h.apart chan).nodup_iff.mpr (nodup_shellBuffers _)
  have hmem : r.bufp ∈ s.dsbufpool chan ++ (s.inipcmsgp chan).toList → False := fun hfree => by
    have hchan := div_of_mem_shellBuffers ((h.apart chan).mem_iff.mp (List.mem_append_left _ hfree))
    have hwaits : r.bufp ∈
        ((q ++ msgs).map Request.bufp).filter (· / dsIpcPoolSz = chan) :=
      List.mem_filter.mpr ⟨List.mem_map_of_mem hr, decide_eq_true hchan⟩
    exact (List.nodup_append.mp hall).2.2 _ hfree _ hwaits rfl
  exact ⟨fun hfree => hmem (List.mem_append_left _ hfree),
    fun hshell => hmem (List.mem_append_right _ (Option.mem_toList.mpr hshell))⟩

/-- Some requests leave, and their buffers are released. -/
theorem Waits.leave {gone : List ℕ} (h : Waits s msgs q) (hholds : Holds t.am msgs' q')
    (hperm : ((q' ++ msgs').map Request.bufp ++ gone).Perm ((q ++ msgs).map Request.bufp))
    (hpool : ∀ chan,
      t.dsbufpool chan = s.dsbufpool chan ++ gone.filter (· / dsIpcPoolSz = chan))
    (hshell : t.inipcmsgp = s.inipcmsgp)
    (hown : ∀ r' ∈ q' ++ msgs', ∃ r ∈ q ++ msgs, r.fields.ammemfreep = r'.fields.ammemfreep ∧
      r.fields.evt.amdata = r'.fields.evt.amdata)
    (hbuffer : ∀ p ∉ gone, t.buffer p = s.buffer p) : Waits t msgs' q' := by
  have hsame : ∀ {r r' : Request}, r.fields.ammemfreep = r'.fields.ammemfreep →
      r.bufp = r'.bufp := fun hmem => by simp only [Request.bufp, SdkTasks.bufferOf, hmem]
  refine ⟨hholds, ?_, ?_, ?_⟩
  · intro r' hr'
    obtain ⟨r, hr, hmem, -⟩ := hown r' hr'
    rw [← hmem, ← hsame hmem]
    exact h.memfreep r hr
  · intro chan
    refine List.Perm.trans ?_ (h.apart chan)
    have hsplit := hperm.filter (· / dsIpcPoolSz = chan)
    rw [List.filter_append] at hsplit
    rw [hpool, hshell, List.append_assoc, List.append_assoc, List.append_assoc]
    refine List.Perm.append_left _ ?_
    refine List.perm_append_comm.trans ?_
    rw [List.append_assoc]
    exact hsplit.append_left _
  · intro r' hr'
    obtain ⟨r, hr, hmem, hdata⟩ := hown r' hr'
    have hstays : r'.bufp ∉ gone := fun hgone =>
      (List.nodup_append.mp (hperm.nodup_iff.mpr h.nodup)).2.2 _ (List.mem_map_of_mem hr') _
        hgone rfl
    rw [hbuffer _ hstays, ← hdata, ← hsame hmem]
    exact h.bytes r hr

/-- Nothing of the requests and their buffers changes. -/
theorem Waits.quiet (h : Waits s msgs q) (ham : t.am = s.am) (hpool : t.dsbufpool = s.dsbufpool)
    (hshell : t.inipcmsgp = s.inipcmsgp) (hbuffer : t.buffer = s.buffer) : Waits t msgs q :=
  @Waits.leave s t msgs msgs q q [] h (ham ▸ h.holds) (by simp) (by simp [hpool]) hshell
    (fun r hr => ⟨r, hr, rfl, rfl⟩) (fun _ _ => by rw [hbuffer])

/-- Buffers are released, one behind the other. -/
theorem foldl_mmbufrel (gone : List ℕ) (s : SdkTasks) :
    gone.foldl SdkTasks.mmbufrel s = { s with
      dsbufpool := fun chan => s.dsbufpool chan ++ gone.filter (· / dsIpcPoolSz = chan) } := by
  induction gone generalizing s with
  | nil => simp
  | cons p gone ih =>
      rw [List.foldl_cons, ih, SdkTasks.mmbufrel]
      congr 1
      funext chan
      by_cases hchan : p / dsIpcPoolSz = chan
      · subst hchan
        simp
      · rw [List.filter_cons_of_neg (by simpa using hchan)]
        simp only [Function.update_of_ne (Ne.symm hchan)]

/-- The effects of a request are performed. -/
theorem foldlM_act (bufp : ℕ) (effects : List AmEffect) (s : SdkTasks) :
    (r.act effects).foldlM (fun s act => SdkTasks.perform s bufp act.effect) s =
      effects.foldlM (fun s effect => SdkTasks.perform s bufp effect) s := by
  rw [Request.act, List.foldlM_map]

/-- To release a request is to release its buffer. -/
theorem foldlM_releases (bufp : ℕ) (hmem : r.fields.ammemfreep = some r.bufp) (s : SdkTasks) :
    r.releases.foldlM (fun s effect => SdkTasks.perform s bufp effect) s =
      some (s.mmbufrel r.bufp) := by
  simp [Request.releases, hmem, SdkTasks.perform]

/-- Of the requests that wait too long, the buffers are released. -/
theorem foldlM_timedOut (bufp : ℕ) {gone : List Request}
    (hmem : ∀ r ∈ gone, r.fields.ammemfreep = some r.bufp) (s : SdkTasks) :
    (gone.flatMap fun r => r.act r.timedOut).foldlM
        (fun s act => SdkTasks.perform s bufp act.effect) s =
      some ((gone.map Request.bufp).foldl SdkTasks.mmbufrel s) := by
  induction gone generalizing s with
  | nil => rfl
  | cons r gone ih =>
      have hfirst := foldlM_releases bufp (hmem r (List.mem_cons_self ..)) s
      have hsent : SdkTasks.perform s bufp r.timeoutResponse = some s := rfl
      rw [List.flatMap_cons, List.foldlM_append, foldlM_act, Request.timedOut, List.foldlM_cons,
        hsent, Option.bind_eq_bind, Option.bind_some, hfirst, Option.bind_some]
      exact ih (fun x hx => hmem x (List.mem_cons_of_mem _ hx)) _

/-- The request to serve is the first one. -/
theorem Waits.toServe (h : Waits s msgs q) :
    s.toServe = if s.am.amreqbusy then none else q.head?.map Request.fields := by
  rw [SdkTasks.toServe]
  split_ifs with hbusy
  · rfl
  · have hfirst := h.holds.linked.qlremnext.1
    cases q with
    | nil =>
        rw [hfirst, List.map_nil, List.headD_nil, h.holds.head]
        rfl
    | cons r q =>
        rw [hfirst, List.map_cons, List.headD_cons, h.holds.user r (List.mem_cons_self ..)]
        exact congrArg some (h.holds.block r (by simp))

/-- The shells, their buffers and the AM task are as they were. -/
structure SameBuffers (s t : SdkTasks) : Prop where
  am : t.am = s.am
  buffer : t.buffer = s.buffer
  dsbufpool : t.dsbufpool = s.dsbufpool
  inipcmsgp : t.inipcmsgp = s.inipcmsgp

theorem Waits.congr (h : Waits s msgs q) (hsame : SameBuffers s t) : Waits t msgs q :=
  h.quiet hsame.am hsame.dsbufpool hsame.inipcmsgp hsame.buffer

theorem qmsend_same {evt : QmEvtBlock} (h : s.qmsend evt = some t) :
    SameBuffers s t ∧ t.qmdcsevtdata = s.qmdcsevtdata ∧ t.qmicmsgque = s.qmicmsgque ++ [evt] := by
  rw [SdkTasks.qmsend] at h
  split_ifs at h
  obtain rfl := Option.some.inj h
  exact ⟨⟨rfl, rfl, rfl, rfl⟩, rfl, rfl⟩

/-- An event about the device or the network points to nothing. -/
theorem held_qmsend {evt : QmEvtBlock} (hdata : evt.data = none) (h : s.qmsend evt = some t) :
    t.held = s.held := by
  obtain ⟨-, hdcs, hque⟩ := qmsend_same h
  rw [SdkTasks.held, SdkTasks.held, hdcs, hque, List.filterMap_append]
  simp [hdata]

/-- What the QM package does leaves the buffers as they are, and only a request leads to one for
the DCS task. -/
theorem qmDone_rule {data : Option EvtData} {r : Option QmTcb × List QmOut}
    (h : s.qmDone data r = some t) : SameBuffers s t ∧ (data = none → t.held = s.held) := by
  obtain ⟨qm, -, hout⟩ := Option.bind_eq_some_iff.mp h
  have hstart : SameBuffers s { s with qm := qm } ∧
      (data = none → ({ s with qm := qm } : SdkTasks).held = s.held) :=
    ⟨⟨rfl, rfl, rfl, rfl⟩, fun _ => rfl⟩
  refine foldlM_invariant (P := fun u => SameBuffers s u ∧ (data = none → u.held = s.held))
    (fun u out v hu hsent => ?_) hstart hout
  have hsame : ∀ {v}, SameBuffers u v → SameBuffers s v := fun hv =>
    ⟨hv.am.trans hu.1.am, hv.buffer.trans hu.1.buffer, hv.dsbufpool.trans hu.1.dsbufpool,
      hv.inipcmsgp.trans hu.1.inipcmsgp⟩
  unfold SdkTasks.qmSent at hsent
  split at hsent
  · exact ⟨hsame (qmsend_same hsent).1, fun hdata => (held_qmsend rfl hsent).trans (hu.2 hdata)⟩
  · obtain rfl := Option.some.inj hsent
    exact ⟨hsame ⟨rfl, rfl, rfl, rfl⟩, fun hdata => nomatch hdata⟩
  · obtain rfl := Option.some.inj hsent
    exact hu

/-- To process a request leaves the buffers as they are; if it is not passed on, the events are
those that there were. -/
theorem perform_dispatch {bufp : ℕ} (h : s.perform bufp r.dispatch = some t) :
    SameBuffers s t ∧
      ((∀ amqmimsg ipcchannel, r.dispatch ≠ .qmsendrr amqmimsg ipcchannel) →
        t.held = s.held) := by
  rw [Request.dispatch] at h ⊢
  split_ifs at h ⊢
  · obtain rfl := Option.some.inj h
    exact ⟨⟨rfl, rfl, rfl, rfl⟩, fun _ => rfl⟩
  · exact ⟨(qmsend_same h).1, fun hnot => absurd rfl (hnot _ _)⟩
  · obtain rfl := Option.some.inj h
    exact ⟨⟨rfl, rfl, rfl, rfl⟩, fun _ => rfl⟩
  · obtain rfl := Option.some.inj h
    exact ⟨⟨rfl, rfl, rfl, rfl⟩, fun _ => rfl⟩

theorem writeTimeout_same (fields : AmEvtFields) :
    (s.writeTimeout fields).dsbufpool = s.dsbufpool ∧
      (s.writeTimeout fields).inipcmsgp = s.inipcmsgp ∧
      (s.writeTimeout fields).qmicmsgque = s.qmicmsgque ∧
      (s.writeTimeout fields).held = s.held ∧
      ∀ p ≠ SdkTasks.bufferOf fields, (s.writeTimeout fields).buffer p = s.buffer p := by
  rw [SdkTasks.writeTimeout]
  split_ifs
  · exact ⟨rfl, rfl, rfl, rfl, fun _ _ => rfl⟩
  · exact ⟨rfl, rfl, rfl, rfl, fun p hp => Function.update_of_ne hp ..⟩

/-- The AM task serves its queue: there is nothing to serve, or the first request is processed and
its buffer is released. -/
theorem serve_cases (h : Waits s msgs q) (hrun : s.serve = some t) :
    (s.toServe = none ∧ Waits t msgs q ∧ t.held = s.held) ∨
      ∃ r rest am u, q = r :: rest ∧ s.toServe = some r.fields ∧ Holds am msgs rest ∧
        ({ s.writeTimeout r.fields with am := am } : SdkTasks).perform r.bufp r.dispatch =
          some u ∧
        t = u.mmbufrel r.bufp := by
  rw [SdkTasks.serve] at hrun
  cases hserve : s.toServe with
  | none =>
      rw [hserve] at hrun
      obtain ⟨am, ham, hacts⟩ := Option.bind_eq_some_iff.mp hrun
      obtain ⟨-, hserved⟩ := amservequeue_rule h.holds ham
      have hquiet : Holds am msgs q ∧ s.am.amservequeue.2 = [] := by
        have hnone := h.toServe
        rw [hserve] at hnone
        split_ifs at hserved hnone with hbusy
        · exact hserved
        · cases q with
          | nil => exact hserved
          | cons => exact absurd hnone.symm (Option.some_ne_none _)
      rw [hquiet.2] at hacts
      obtain rfl := Option.some.inj hacts
      exact .inl ⟨rfl, @Waits.leave s _ msgs msgs q q [] h hquiet.1 (by simp) (by simp) rfl
        (fun r hr => ⟨r, hr, rfl, rfl⟩) (fun _ _ => rfl), rfl⟩
  | some fields =>
      rw [hserve] at hrun
      have hfirst := h.toServe
      rw [hserve] at hfirst
      split_ifs at hfirst with hbusy
      cases q with
      | nil => exact absurd hfirst (Option.some_ne_none _)
      | cons r rest =>
          obtain rfl := Option.some.inj hfirst
          obtain ⟨am, ham, hacts⟩ := Option.bind_eq_some_iff.mp hrun
          obtain ⟨-, hserved⟩ := amservequeue_rule h.holds ham
          rw [if_neg hbusy] at hserved
          have hmem := h.memfreep r (by simp)
          rw [hserved.2] at hacts
          simp only [List.head?_cons, Option.toList_some, List.flatMap_cons, List.flatMap_nil,
            List.append_nil, foldlM_act, Request.served, List.foldlM_cons,
            foldlM_releases _ hmem] at hacts
          obtain ⟨u, hu, hreleased⟩ := Option.bind_eq_some_iff.mp hacts
          exact .inr ⟨r, rest, am, u, rfl, rfl, hserved.1, hu, (Option.some.inj hreleased).symm⟩

/-- Whether there is nothing to serve or the first request leaves, the buffers are in order. -/
theorem Waits.serve (h : Waits s msgs q) (hrun : s.serve = some t) : ∃ q', Waits t msgs q' := by
  obtain ⟨-, hquiet, -⟩ | ⟨r, rest, am, u, rfl, -, hholds, hperform, rfl⟩ := serve_cases h hrun
  · exact ⟨q, hquiet⟩
  · obtain ⟨hsame, -⟩ := perform_dispatch hperform
    obtain ⟨hpool, hshell, -, -, hbuffer⟩ := writeTimeout_same (s := s) r.fields
    refine ⟨rest, @Waits.leave s _ msgs msgs (r :: rest) rest [r.bufp] h ?_ ?_ ?_ ?_ ?_ ?_⟩
    · exact hsame.am ▸ hholds
    · simp only [List.cons_append, List.map_cons]
      exact List.perm_append_singleton ..
    · intro chan
      have hreleased := congrArg SdkTasks.dsbufpool (foldl_mmbufrel [r.bufp] u)
      exact (congrFun hreleased chan).trans (by rw [hsame.dsbufpool, hpool])
    · exact hsame.inipcmsgp.trans hshell
    · exact fun x hx => ⟨x, List.mem_cons_of_mem _ hx, rfl, rfl⟩
    · intro p hp
      exact (congrFun hsame.buffer p).trans (hbuffer p (List.mem_singleton.not.mp hp))

/-- A step of the AM task other than to serve its queue. -/
theorem Waits.amEvent {event : AmQueueEvent} (h : Waits s msgs q)
    (hevent : event = .message ∨ event = .tick ∨ ∃ packet ipcchannel,
      event = .respond packet ipcchannel)
    (hrun : s.amEvent event = some t) : ∃ msgs' q', Waits t msgs' q' ∧ t.held = s.held := by
  obtain ⟨am, ham, hacts⟩ := Option.bind_eq_some_iff.mp hrun
  obtain ⟨msgs', q', hholds, hstep, -⟩ := queueStep_fifo h.holds ham
  refine ⟨msgs', q', ?_⟩
  generalize (queueStep (some s.am) event).2 = acts at hstep hacts
  have hsame : ∀ r ∈ q ++ msgs, ∃ x ∈ q ++ msgs,
      x.fields.ammemfreep = r.fields.ammemfreep ∧ x.fields.evt.amdata = r.fields.evt.amdata :=
    fun r hr => ⟨r, hr, rfl, rfl⟩
  cases hstep with
  | arrive | noRequest | serve => simp at hevent
  | noMessage =>
      obtain rfl := Option.some.inj hacts
      exact ⟨@Waits.leave s _ msgs msgs q q [] h hholds (by simp) (by simp) rfl hsame
        (fun _ _ => rfl), rfl⟩
  | enqueue r evt hevt =>
      obtain rfl := Option.some.inj hacts
      obtain ⟨hdata, -, -⟩ := amreqinittmr_rule hevt
      refine ⟨@Waits.leave s _ (r :: msgs') _ q _ [] h hholds ?_ (by simp) rfl ?_
        (fun _ _ => rfl), rfl⟩
      · simp [Request.bufp, SdkTasks.bufferOf]
      · intro x hx
        rw [List.append_assoc, List.singleton_append] at hx
        rcases List.mem_append.mp hx with hx | hx
        · exact hsame x (List.mem_append_left _ hx)
        · rcases List.mem_cons.mp hx with rfl | hx
          · exact ⟨r, by simp, rfl, hdata.symm⟩
          · exact hsame x (by simp [hx])
  | tick =>
      rw [foldlM_timedOut 0 fun r hr =>
        h.memfreep r (List.mem_append_left _ (List.mem_filter.mp hr).1), foldl_mmbufrel] at hacts
      obtain rfl := Option.some.inj hacts
      refine ⟨@Waits.leave s _ msgs msgs q _ _ h hholds (perm_ticked (fun _ => rfl) q msgs)
        (fun _ => rfl) rfl ?_ (fun _ _ => rfl), rfl⟩
      intro x hx
      rcases List.mem_append.mp hx with hx | hx
      · obtain ⟨r, hr, rfl⟩ := List.mem_map.mp hx
        refine ⟨r, List.mem_append_left _ (List.mem_filter.mp hr).1, rfl, ?_⟩
        simp only [Request.ticked, AmEvtBlock.ticked]
      · exact hsame x (List.mem_append_right _ hx)
  | respond packet ipcchannel =>
      obtain rfl := Option.some.inj hacts
      exact ⟨@Waits.leave s _ msgs msgs q q [] h hholds (by simp) (by simp) rfl hsame
        (fun _ _ => rfl), rfl⟩

/-- A shell takes a buffer from its pool. -/
theorem Waits.allocate {ipcchannel : CiRrChannel} (h : Waits s msgs q)
    (hrun : s.shellAllocate ipcchannel = some t) : Waits t msgs q ∧ t.held = s.held := by
  simp only [SdkTasks.shellAllocate] at hrun
  split at hrun
  · obtain rfl := Option.some.inj hrun
    exact ⟨h, rfl⟩
  · exact absurd hrun.symm (Option.some_ne_none t)
  · rename_i bufp free hshell hpool
    obtain rfl := Option.some.inj hrun
    refine ⟨⟨h.holds, h.memfreep, fun chan => ?_, h.bytes⟩, rfl⟩
    by_cases hchan : chan = ipcchannel.channel.toNat
    · subst hchan
      have hall := h.apart ipcchannel.channel.toNat
      rw [hshell, hpool] at hall
      simp only [Function.update_self, Option.toList_some]
      exact List.Perm.trans (List.Perm.append_right _ (by simp)) hall
    · simpa only [Function.update_of_ne hchan] using h.apart chan

/-- A packet is received in the buffer of the shell, and its request waits in it. -/
theorem Waits.receive {ipcchannel : CiRrChannel} {packet : List UInt8} (h : Waits s msgs q)
    (hrun : s.shellReceive ipcchannel packet = some t) :
    ∃ msgs', Waits t msgs' q ∧ t.held = s.held := by
  simp only [SdkTasks.shellReceive] at hrun
  split at hrun
  · obtain rfl := Option.some.inj hrun
    exact ⟨msgs, h, rfl⟩
  · rename_i bufp hshell
    obtain ⟨am, ham, rfl⟩ := Option.map_eq_some_iff.mp hrun
    obtain ⟨-, -, eventbkp, timer, hholds⟩ := amipcrcvhandler_rule h.holds ham
    have hall := h.apart ipcchannel.channel.toNat
    rw [hshell] at hall
    have hown : bufp / dsIpcPoolSz = ipcchannel.channel.toNat :=
      div_of_mem_shellBuffers (hall.mem_iff.mp (by simp))
    refine ⟨_, ⟨hholds, ?_, fun chan => ?_, ?_⟩, rfl⟩
    · intro r hr
      rw [← List.append_assoc, List.mem_append, List.mem_singleton] at hr
      rcases hr with hr | rfl
      · exact h.memfreep r hr
      · rfl
    · rw [← List.append_assoc q, List.map_append, List.filter_append]
      by_cases hchan : chan = ipcchannel.channel.toNat
      · subst hchan
        refine List.Perm.trans ?_ hall
        simp only [Function.update_self, Option.toList_none, Option.toList_some,
          List.append_nil, List.append_assoc, SdkTasks.write]
        refine List.Perm.append_left _ ?_
        have hsingle : [Request.bufp ⟨eventbkp, ⟨some bufp,
            ⟨packet.take dsIpcBufSz, ipcchannel, timer⟩, s.am.arrived⟩⟩].filter
              (· / dsIpcPoolSz = ipcchannel.channel.toNat) = [bufp] :=
          List.filter_cons_of_pos (decide_eq_true hown)
        rw [List.map_singleton, hsingle]
        exact List.perm_append_singleton ..
      · have hother : bufp / dsIpcPoolSz ≠ chan := fun heq => hchan (heq.symm.trans hown)
        simpa [Function.update_of_ne hchan, Request.bufp, SdkTasks.bufferOf, hother,
          SdkTasks.write] using h.apart chan
    · intro r hr
      rw [← List.append_assoc, List.mem_append, List.mem_singleton] at hr
      rcases hr with hr | rfl
      · have hne : r.bufp ≠ bufp := fun heq =>
          (h.owned hr ipcchannel.channel.toNat).2 (heq ▸ hshell)
        simp only [SdkTasks.write, Function.update_of_ne hne]
        exact h.bytes r hr
      · simp [SdkTasks.write, Request.bufp, SdkTasks.bufferOf]

/-- A step of the QM package for anything but a request. -/
theorem Waits.qmDone {u : SdkTasks} {r : Option QmTcb × List QmOut} (h : Waits s msgs q)
    (hsame : SameBuffers s u) (hrun : u.qmDone none r = some t) :
    Waits t msgs q ∧ t.held = u.held := by
  obtain ⟨hdone, hheld⟩ := qmDone_rule hrun
  exact ⟨(h.congr hsame).congr hdone, hheld rfl⟩

/-- Every step keeps the buffers of the waiting requests. -/
theorem Waits.step {event : SdkEvent} (h : Waits s msgs q)
    (hrun : (sdkStep (some s) event).1 = some t) : ∃ msgs' q', Waits t msgs' q' := by
  cases event with
  | allocate ipcchannel => exact ⟨msgs, q, (h.allocate hrun).1⟩
  | receive ipcchannel packet =>
      obtain ⟨msgs', hwaits, -⟩ := h.receive hrun
      exact ⟨msgs', q, hwaits⟩
  | message =>
      obtain ⟨msgs', q', hwaits, -⟩ := h.amEvent (.inl rfl) hrun
      exact ⟨msgs', q', hwaits⟩
  | serve =>
      obtain ⟨q', hwaits⟩ := h.serve hrun
      exact ⟨msgs, q', hwaits⟩
  | tick =>
      obtain ⟨msgs', q', hwaits, -⟩ := h.amEvent (.inr (.inl rfl)) hrun
      exact ⟨msgs', q', hwaits⟩
  | respond packet ipcchannel =>
      obtain ⟨msgs', q', hwaits, -⟩ := h.amEvent (.inr (.inr ⟨_, _, rfl⟩)) hrun
      exact ⟨msgs', q', hwaits⟩
  | device event => exact ⟨msgs, q, h.congr (qmsend_same hrun).1⟩
  | net q_depth isThrottle => exact ⟨msgs, q, h.congr (qmsend_same hrun).1⟩
  | qmtask env =>
      simp only [sdkStep, SdkTasks.qmtask] at hrun
      split at hrun
      · obtain rfl := Option.some.inj hrun
        exact ⟨msgs, q, h⟩
      · rename_i rest hque
        have hpopped := h.congr
          (t := { s with qmicmsgque := rest }) ⟨rfl, rfl, rfl, rfl⟩
        split at hrun
        · exact ⟨msgs, q, hpopped.congr (qmDone_rule hrun).1⟩
        · rename_i event
          have hdone : SdkTasks.qmDone _ none (Qm.qmtask s.qm (.device event)) = some t := hrun
          exact ⟨msgs, q, hpopped.congr (qmDone_rule hdone).1⟩
        · rename_i q_depth isThrottle
          have hdone : SdkTasks.qmDone _ none (Qm.qmtask s.qm (.net q_depth isThrottle)) =
            some t := hrun
          exact ⟨msgs, q, hpopped.congr (qmDone_rule hdone).1⟩
  | rx instanceid client qmpacket => exact ⟨msgs, q, h.congr (qmDone_rule hrun).1⟩
  | qmtick sixtySeconds =>
      have hdone : s.qmDone none (Qm.qmtask s.qm (.tick sixtySeconds)) = some t := hrun
      exact ⟨msgs, q, h.congr (qmDone_rule hdone).1⟩
  | fwStatus status =>
      have hdone : s.qmDone none (Qm.qmtask s.qm (.fwStatus status)) = some t := hrun
      exact ⟨msgs, q, h.congr (qmDone_rule hdone).1⟩
  | dcstask env =>
      simp only [sdkStep, SdkTasks.dcstask] at hrun
      split at hrun
      · rename_i rest hque hdata
        exact ⟨msgs, q, (h.congr
          (t := { s with qmdcsevtdata := rest }) ⟨rfl, rfl, rfl, rfl⟩).congr
          (qmDone_rule hrun).1⟩
      · obtain rfl := Option.some.inj hrun
        exact ⟨msgs, q, h⟩

theorem waits_start (links : QlMemory AmLinkp (Option ℕ)) (blocks : ℕ → AmEvtFields)
    (buffer : ℕ → List UInt8) : Waits (sdkStart links blocks buffer) [] [] :=
  ⟨(accounts_start links blocks).holds, by simp, fun chan => by simp [sdkStart], by simp⟩

/-- In every run, the bytes of a request that waits for the AM task are those that arrived, in a
buffer that is neither free nor received in. -/
theorem Waits.run {events : List SdkEvent} (h : Waits s msgs q)
    (hrun : after sdkStep (some s) events = some t) :
    ∃ msgs' q', Waits t msgs' q' := by
  induction events generalizing s msgs q with
  | nil =>
      obtain rfl := Option.some.inj hrun
      exact ⟨msgs, q, h⟩
  | cons event events ih =>
      rw [after_cons] at hrun
      cases hstep : (sdkStep (some s) event).1 with
      | none =>
          rw [hstep, (idle (fun _ => rfl) events).1] at hrun
          exact absurd hrun (Option.some_ne_none t).symm
      | some u =>
          obtain ⟨msgs₁, q₁, hu⟩ := h.step hstep
          rw [hstep] at hrun
          exact ih hu hrun

/-- What is passed on is a QMI request with a header of this version. -/
theorem dispatch_eq_qmsendrr {amqmimsg : List UInt8} {ipcchannel : CiRrChannel}
    (h : r.dispatch = .qmsendrr amqmimsg ipcchannel) :
    (amparseamheader r.fields.evt.amdata).amheaderversion = amHdrVersion ∧
      (amparseamheader r.fields.evt.amdata).amtype = AmMsgType.qmiRequest := by
  rw [Request.dispatch] at h
  split_ifs at h with hversion htype
  exact ⟨not_not.mp hversion, htype⟩

/-- Without events that point to a buffer, only a QMI request that is passed on makes one, and
nothing is read. -/
theorem held_step {event : SdkEvent} (h : Waits s msgs q) (hnone : s.held = [])
    (hpasses : ¬ PassesOn (some s) event) :
    (∀ t, (sdkStep (some s) event).1 = some t → t.held = []) ∧
      (sdkStep (some s) event).2 = [] := by
  have hreqs : s.qmicmsgque.filterMap QmEvtBlock.data = [] :=
    (List.append_eq_nil_iff.mp hnone).1
  have hdcs : s.qmdcsevtdata = [] := (List.append_eq_nil_iff.mp hnone).2
  cases event with
  | allocate ipcchannel => exact ⟨fun t ht => (h.allocate ht).2.trans hnone, rfl⟩
  | receive ipcchannel packet =>
      refine ⟨fun t ht => ?_, rfl⟩
      obtain ⟨-, -, hheld⟩ := h.receive ht
      exact hheld.trans hnone
  | message =>
      refine ⟨fun t ht => ?_, rfl⟩
      obtain ⟨-, -, -, hheld⟩ := h.amEvent (.inl rfl) ht
      exact hheld.trans hnone
  | serve =>
      refine ⟨fun t ht => ?_, rfl⟩
      obtain ⟨-, -, hheld⟩ | ⟨r, rest, am, u, rfl, hserve, -, hperform, rfl⟩ := serve_cases h ht
      · exact hheld.trans hnone
      · obtain ⟨-, hheld⟩ := perform_dispatch hperform
        obtain ⟨-, -, -, hsame, -⟩ := writeTimeout_same (s := s) r.fields
        refine (hheld fun amqmimsg ipcchannel hdispatch => hpasses ?_).trans (hsame.trans hnone)
        obtain ⟨hversion, htype⟩ := dispatch_eq_qmsendrr hdispatch
        refine ⟨r.fields, hserve, hversion, htype, ?_⟩
        rw [hdispatch] at hperform
        simp only [SdkTasks.perform, SdkTasks.qmsendrr, SdkTasks.qmsend, SdkTasks.writeTimeout,
          hversion, ne_eq, not_true_eq_false, if_false] at hperform
        split_ifs at hperform with hroom
        exact hroom
  | tick =>
      refine ⟨fun t ht => ?_, rfl⟩
      obtain ⟨-, -, -, hheld⟩ := h.amEvent (.inr (.inl rfl)) ht
      exact hheld.trans hnone
  | respond packet ipcchannel =>
      refine ⟨fun t ht => ?_, rfl⟩
      obtain ⟨-, -, -, hheld⟩ := h.amEvent (.inr (.inr ⟨_, _, rfl⟩)) ht
      exact hheld.trans hnone
  | device event => exact ⟨fun t ht => (held_qmsend rfl ht).trans hnone, rfl⟩
  | net q_depth isThrottle => exact ⟨fun t ht => (held_qmsend rfl ht).trans hnone, rfl⟩
  | qmtask env =>
      rw [sdkStep, SdkTasks.qmtask]
      cases hque : s.qmicmsgque with
      | nil => exact ⟨fun t ht => Option.some.inj ht ▸ hnone, rfl⟩
      | cons evt rest =>
          rw [hque] at hreqs
          have hrest : evt.data = none →
              ({ s with qmicmsgque := rest } : SdkTasks).held = [] := fun hdata => by
            rw [List.filterMap_cons_none hdata] at hreqs
            rw [SdkTasks.held, hdcs, List.append_nil]
            exact hreqs
          cases evt with
          | qmiReq data ipcchan => exact absurd hreqs (List.cons_ne_nil _ _)
          | device event =>
              refine ⟨fun t ht => ?_, rfl⟩
              have hdone : SdkTasks.qmDone { s with qmicmsgque := rest } none
                (Qm.qmtask s.qm (.device event)) = some t := ht
              exact ((qmDone_rule hdone).2 rfl).trans (hrest rfl)
          | net q_depth isThrottle =>
              refine ⟨fun t ht => ?_, rfl⟩
              have hdone : SdkTasks.qmDone { s with qmicmsgque := rest } none
                (Qm.qmtask s.qm (.net q_depth isThrottle)) = some t := ht
              exact ((qmDone_rule hdone).2 rfl).trans (hrest rfl)
  | rx instanceid client qmpacket =>
      exact ⟨fun t ht => ((qmDone_rule ht).2 rfl).trans hnone, rfl⟩
  | qmtick sixtySeconds =>
      refine ⟨fun t ht => ?_, rfl⟩
      have hdone : s.qmDone none (Qm.qmtask s.qm (.tick sixtySeconds)) = some t := ht
      exact ((qmDone_rule hdone).2 rfl).trans hnone
  | fwStatus status =>
      refine ⟨fun t ht => ?_, rfl⟩
      have hdone : s.qmDone none (Qm.qmtask s.qm (.fwStatus status)) = some t := ht
      exact ((qmDone_rule hdone).2 rfl).trans hnone
  | dcstask env =>
      have hidle : s.dcstask env = (some s, []) := by
        rw [SdkTasks.dcstask, hdcs]
        split
        · rename_i hcons
          exact absurd hcons.symm (List.cons_ne_nil _ _)
        · rfl
      rw [sdkStep, hidle]
      exact ⟨fun t ht => Option.some.inj ht ▸ hnone, rfl⟩

/-- A QMI request with a header of this version is queued to the QM task, if there is room. -/
theorem perform_qmiRequest
    (hversion : (amparseamheader r.fields.evt.amdata).amheaderversion = amHdrVersion)
    (htype : (amparseamheader r.fields.evt.amdata).amtype = AmMsgType.qmiRequest)
    (hroom : s.qmicmsgque.length < qmEvtPoolSz) (bufp : ℕ) :
    ∃ sent, s.perform bufp r.dispatch = some { s with
      qmicmsgque :=
        s.qmicmsgque ++ [.qmiReq ⟨bufp, sent⟩ r.fields.evt.amipcchannel.channel] } := by
  rw [Request.dispatch]
  simp only [hversion, htype, ne_eq, not_true_eq_false, if_false, if_true, SdkTasks.perform,
    SdkTasks.qmsendrr, SdkTasks.qmsend, hroom]
  exact ⟨_, rfl⟩

/-- The first request is served, if it is passed on. -/
theorem exists_serve (h : Waits s msgs (r :: q)) (hserve : s.toServe = some r.fields)
    (hversion : (amparseamheader r.fields.evt.amdata).amheaderversion = amHdrVersion)
    (htype : (amparseamheader r.fields.evt.amdata).amtype = AmMsgType.qmiRequest)
    (hroom : s.qmicmsgque.length < qmEvtPoolSz) : ∃ t, s.serve = some t := by
  have hbusy : s.am.amreqbusy = false := by
    have hfirst := h.toServe
    rw [hserve] at hfirst
    split_ifs at hfirst with hbusy
    simpa using hbusy
  have hfirst := h.holds.linked.qlremnext.1
  rw [List.map_cons, List.headD_cons, h.holds.user r (List.mem_cons_self ..)] at hfirst
  have hblock := h.holds.block r (by simp)
  have hsome : ∃ am, s.am.amservequeue.1 = some am := by
    simp only [AmQueueCb.amservequeue, hbusy, Bool.false_eq_true, if_false, hfirst,
      AmQueueCb.actions, AmQueueCb.amserverequest, hblock, hversion, htype, ne_eq,
      not_true_eq_false, AmQueueCb.amdispatchrequest, if_true, andThen,
      AmQueueCb.amreleventbk]
    exact ⟨_, rfl⟩
  obtain ⟨am, ham⟩ := hsome
  obtain ⟨-, hserved⟩ := amservequeue_rule h.holds ham
  rw [hbusy, if_neg (by simp)] at hserved
  rw [SdkTasks.serve, hserve]
  simp only [SdkTasks.performAll, ham, Option.bind_some, hserved.2, List.head?_cons,
    Option.toList_some, List.flatMap_cons, List.flatMap_nil, List.append_nil, foldlM_act,
    Request.served, List.foldlM_cons, foldlM_releases _ (h.memfreep r (by simp))]
  obtain ⟨-, -, hque, -⟩ := writeTimeout_same (s := s) r.fields
  obtain ⟨sent, hsent⟩ := @perform_qmiRequest { s.writeTimeout r.fields with am := am } r hversion
    htype (hque ▸ hroom) (SdkTasks.bufferOf r.fields)
  rw [hsent]
  exact ⟨_, rfl⟩

/-- A QMI request that is passed on leaves the queue of the QM task with a pointer to a buffer
that is free. -/
theorem not_owned_of_passesOn {event : SdkEvent} (h : Waits s msgs q)
    (hpasses : PassesOn (some s) event) :
    ∃ t, (sdkStep (some s) event).1 = some t ∧ ¬ t.Owned := by
  cases event with
  | serve =>
      obtain ⟨fields, hserve, hversion, htype, hroom⟩ := hpasses
      have hfirst := h.toServe
      rw [hserve] at hfirst
      split_ifs at hfirst with hbusy
      cases q with
      | nil => exact absurd hfirst (Option.some_ne_none _)
      | cons r rest =>
          obtain rfl := Option.some.inj hfirst
          obtain ⟨t, ht⟩ := exists_serve h hserve hversion htype hroom
          refine ⟨t, ht, fun howned => ?_⟩
          obtain ⟨hnone, -⟩ | ⟨x, rest, am, u, hsplit, -, -, hperform, rfl⟩ := serve_cases h ht
          · rw [hserve] at hnone
            exact absurd hnone (Option.some_ne_none _)
          obtain ⟨rfl, rfl⟩ := List.cons.inj hsplit
          obtain ⟨-, -, hque, -⟩ := writeTimeout_same (s := s) r.fields
          obtain ⟨sent, hsent⟩ := @perform_qmiRequest { s.writeTimeout r.fields with am := am } r
            hversion htype (hque ▸ hroom) r.bufp
          obtain rfl := Option.some.inj (hsent.symm.trans hperform)
          -- the event has just been queued, and its buffer is the last of the free ones
          refine (howned ⟨r.bufp, sent⟩ ?_ (r.bufp / dsIpcPoolSz)).1 ?_
          · simp [SdkTasks.held, SdkTasks.mmbufrel, QmEvtBlock.data]
          · simp [SdkTasks.mmbufrel]
  | _ => exact hpasses.elim

end Buffers

/-- The buffers of the requests are owned, and the bytes that the QM and DCS tasks read are those
that were sent, in exactly the runs in which the AM task passes no QMI request on. -/
theorem meets_buffersOwned_iff (links : QlMemory AmLinkp (Option ℕ)) (blocks : ℕ → AmEvtFields)
    (buffer : ℕ → List UInt8) (events : List SdkEvent) :
    Meets sdkStep BuffersOwned (some (sdkStart links blocks buffer)) events ↔
      Meets sdkStep (fun s event => ¬ PassesOn s event) (some (sdkStart links blocks buffer))
        events := by
  have hkept : ∀ s event, Unheld s → ¬ PassesOn s event →
      Unheld (sdkStep s event).1 ∧ BuffersOwned s event := by
    intro s event hs hnot
    cases s with
    | none =>
        exact ⟨fun t ht => absurd ht.symm (Option.some_ne_none t),
          fun t ht => absurd ht.symm (Option.some_ne_none t),
          fun r hr => absurd hr List.not_mem_nil⟩
    | some s =>
        obtain ⟨hnone, msgs, q, hwaits⟩ := hs s rfl
        obtain ⟨hheld, hread⟩ := held_step hwaits hnone hnot
        refine ⟨fun t ht => ⟨hheld t ht, hwaits.step ht⟩, fun t ht data hdata => ?_, ?_⟩
        · rw [hheld t ht] at hdata
          exact absurd hdata List.not_mem_nil
        · rw [hread]
          exact fun r hr => absurd hr List.not_mem_nil
  have hpasses : ∀ s event, Unheld s → BuffersOwned s event → ¬ PassesOn s event := by
    intro s event hs howned hpasses
    cases s with
    | none => exact hpasses.elim
    | some s =>
        obtain ⟨-, msgs, q, hwaits⟩ := hs s rfl
        obtain ⟨t, ht, hnot⟩ := not_owned_of_passesOn hwaits hpasses
        exact hnot (howned.1 t ht)
  have hstart : Unheld (some (sdkStart links blocks buffer)) := by
    intro t ht
    obtain rfl := Option.some.inj ht
    exact ⟨rfl, [], [], waits_start links blocks buffer⟩
  constructor
  · exact meets_of_invariant (I := Unheld)
      (fun s event hs howned => (hkept s event hs (hpasses s event hs howned)).1) hpasses hstart
  · exact meets_of_invariant (I := Unheld) (fun s event hs hnot => (hkept s event hs hnot).1)
      (fun s event hs hnot => (hkept s event hs hnot).2) hstart

/-- A shell receives a QMI request, and the AM task dispatches it. -/
def dispatchEvents : List SdkEvent :=
  [.allocate firstRr, .receive firstRr (dmsPacket AmMsgType.qmiRequest 5000), .message, .serve]

/-- The QM task is yet to handle the request, and its buffer is free. -/
theorem not_buffersOwned_dispatched :
    ¬ Meets sdkStep BuffersOwned (some (sdkStart anyLinks anyBlocks fun _ => []))
      dispatchEvents := by
  intro h
  obtain ⟨-, -, -, hserve, -⟩ := h
  exact (hserve.1 _ rfl _ (List.mem_cons_self ..) firstRr.channel.toNat).1 (by decide)

end Am

end SierraSdk
