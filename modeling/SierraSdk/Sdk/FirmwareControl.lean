import SierraSdk.Sdk.FirmwareTask

/-!
# Requests, timers and files of a firmware download

A download that is asked for takes the channel of its request until it is answered. The timer is
not started for a continue request, a file whose size cannot be read is not closed, a chunk size
of zero is a division by zero, and a request that finds the channel taken is dropped: `FwSafe`
excludes these steps. In runs of the other steps every request is answered once on its channel,
every state that waits for the device has its timer running, and a download that has finished
leaves nothing behind (`controlled_of_fwSafe`).
-/

namespace SierraSdk

namespace Sdk

open Machine

section Statement

/-- The start response that leads to a continue request. -/
def AcceptsMore (os : OsAnswer) (hipmsg : HpHipEvt) (s : HpBlk) : Prop :=
  s.amfwdwnstate = .startReq ∧ hipmsg.hpphmsgdesignator = hpDlStrtResp ∧
    hipmsg.hpphmsgparm = hpSuccess ∧ s.hpchunks2send ≠ 0 ∧ os.readok = true

/-- A file that can be opened has a size that can be read, and chunks of some size unless it is
empty. -/
def Openable (os : OsAnswer) (parms : AmFwDwnRrParms) : Prop :=
  ∀ image, os.files parms.amfilename = some image →
    os.sizeok = true ∧ (UInt32.ofNat image.length ≠ 0 → parms.ammaxchunksize ≠ 0)

/-- A chunk size of zero is not divided by. -/
def Divides (os : OsAnswer) (parms : AmFwDwnRrParms) : Prop :=
  ∀ image, os.files parms.amfilename = some image → os.sizeok = true →
    UInt32.ofNat image.length ≠ 0 → parms.ammaxchunksize ≠ 0

theorem Openable.divides {os : OsAnswer} {parms : AmFwDwnRrParms} (h : Openable os parms) :
    Divides os parms := fun image himage _ => (h image himage).2

/-- A request comes when no other one is being handled, its file can be opened, and the start
request is not followed by a continue request. -/
def FwSafe : Option FwTask → FwInput → Prop
  | some t, .request _ _ => t.hpgcb.hpphipcchanrr = ciMaxIpcChan
  | some t, .take os =>
      (∀ packet rest, t.hpphicmsgque = .fwdwnreq packet :: rest →
        Openable os (amparsefwdwnrequest packet)) ∧
      ∀ hipmsg rest, t.hpphicmsgque = .fwdwncb hipmsg :: rest →
        ¬ AcceptsMore os hipmsg t.hpgcb
  | _, _ => True

/-- The channel of a request. -/
def FwInput.reqchannel : FwInput → Option ℕ
  | .request ipcchannel _ => some ipcchannel.1
  | _ => none

/-- The channels of the requests. -/
def requested (is : List FwInput) : List ℕ := is.filterMap FwInput.reqchannel

/-- The channel of the request that is being handled. -/
def FwTask.outstanding (t : FwTask) : List ℕ :=
  if t.hpgcb.hpphipcchanrr = ciMaxIpcChan then [] else [t.hpgcb.hpphipcchanrr]

/-- The device is silent: nothing happens but `n` ticks. -/
def silence (os : OsAnswer) : ℕ → List FwInput
  | 0 => []
  | n + 1 => .tickEvent :: .take os :: silence os n

/-- What holds of a task after the inputs `is`. -/
structure Controlled (is : List FwInput) (t : FwTask) : Prop where
  answered :
    requested is = responses (outputs fwStep fwTaskInit is) ++ t.outstanding
  unchanged : t.hpgcb.hpphipcchanrr ≠ ciMaxIpcChan → ∀ ipcchannel packet,
    (fwTaskStep t (.request ipcchannel packet)).1 = some t
  timed : t.hpgcb.amfwdwnstate ≠ .done → t.hpgcb.hptimeron = true
  ends : t.hpgcb.amfwdwnstate ≠ .done → (∀ e ∈ t.hpphicmsgque, e = .tick) → ∀ os,
    outputs fwStep (some t) (silence os t.hpgcb.hpticksleft.toNat) =
        [.fwdwnresp t.hpgcb.hpphipcchanrr .timeout []] ∧
      ∃ t', after fwStep (some t) (silence os t.hpgcb.hpticksleft.toNat) = some t' ∧
        t'.hpgcb.amfwdwnstate = .done
  finished : t.hpgcb.amfwdwnstate = .done →
    t.hpgcb.hptimeron = false ∧ t.hpgcb.hpfp = none ∧
      (t.asked = 0 → t.hpgcb.hpphipcchanrr = ciMaxIpcChan)

end Statement

section Total

variable {os : OsAnswer} {s : HpBlk}

/-- Only opening a file can stop the task. -/
theorem hpstateupdate_ne_none {newstate : FwState} (hnew : newstate ≠ .init)
    (errorstring : List UInt8) : (hpstateupdate os newstate errorstring s).1 ≠ none := by
  cases newstate with
  | init => exact absurd rfl hnew
  | startReq =>
      rw [hpstateupdate]
      simp only [andThen, hpstateenter, hpsendstartreq]
      split <;> exact Option.some_ne_none _
  | dwn =>
      rw [hpstateupdate]
      simp only [andThen, hpstateenter, hpsendcontreq]
      split <;> exact Option.some_ne_none _
  | _ => exact Option.some_ne_none _

theorem hpphdispatch_ne_none {e : HpphEvent} (he : e.isRequest = false) :
    (hpphdispatch os e s).1 ≠ none := by
  cases e with
  | fwdwnreq packet => exact Bool.noConfusion he
  | fwdwncb hipmsg =>
      rw [hpphdispatch, hpfwdwncbmsg]
      split
      · rw [hpstatefwstartreq]
        split_ifs <;> first
          | exact hpstateupdate_ne_none (by decide) _
          | exact Option.some_ne_none _
      · rw [hpstatefwdownload]
        split_ifs <;> first
          | exact hpstateupdate_ne_none (by decide) _
          | exact Option.some_ne_none _
      · rw [hpstatefwchksum]
        split_ifs <;> first
          | exact hpstateupdate_ne_none (by decide) _
          | exact Option.some_ne_none _
      · rw [hpstatefwflash]
        split_ifs <;> first
          | exact hpstateupdate_ne_none (by decide) _
          | exact Option.some_ne_none _
      · exact Option.some_ne_none _
  | modemstatecb online apprunning =>
      rw [hpphdispatch, hpmodestatechangemsg, hpstatesoftreset]
      split_ifs <;> first
        | exact hpstateupdate_ne_none (by decide) _
        | exact Option.some_ne_none _
  | tick =>
      simp only [hpphdispatch, hpfwdwntimer]
      split_ifs <;> exact Option.some_ne_none _

end Total

section Silence

variable {s : HpBlk} {queue : List HpphEvent}

theorem ticks_concat (hqueue : ∀ e ∈ queue, e = HpphEvent.tick) :
    ∀ e ∈ queue ++ [HpphEvent.tick], e = HpphEvent.tick := by
  intro e he
  rcases List.mem_append.mp he with he | he
  · exact hqueue e he
  · exact List.mem_singleton.mp he

/-- A queue of ticks stays one when a tick is posted and a message is taken. -/
theorem exists_tick_cons (hqueue : ∀ e ∈ queue, e = HpphEvent.tick) :
    ∃ rest, queue ++ [HpphEvent.tick] = .tick :: rest ∧ ∀ e ∈ rest, e = HpphEvent.tick := by
  have hticks := ticks_concat hqueue
  cases hsplit : queue ++ [HpphEvent.tick] with
  | nil => exact absurd (congrArg List.length hsplit) (by simp)
  | cons e rest =>
      rw [hsplit] at hticks
      have he : e = .tick := hticks e List.mem_cons_self
      subst he
      exact ⟨rest, rfl, fun e he => hticks e (List.mem_cons_of_mem _ he)⟩

/-- A tick is posted and a message is taken. -/
theorem fwStep_round (os : OsAnswer) {rest : List HpphEvent}
    (hrest : queue ++ [HpphEvent.tick] = .tick :: rest) :
    fwStep (fwStep (some ⟨s, queue⟩) .tickEvent).1 (.take os) =
      ((hpfwdwntimer s).1.map fun s => ⟨s, rest⟩, (hpfwdwntimer s).2) := by
  have hpost : (fwStep (some ⟨s, queue⟩) .tickEvent).1 = some ⟨s, .tick :: rest⟩ := by
    rw [fwStep, fwTaskStep, FwTask.post, hrest]
  rw [hpost, fwStep, fwTaskStep_take, hpphdispatch]

theorem silence_succ (os : OsAnswer) {t : Option FwTask} {n : ℕ} :
    after fwStep t (silence os (n + 1)) =
        after fwStep (fwStep (fwStep t .tickEvent).1 (.take os)).1 (silence os n) ∧
      outputs fwStep t (silence os (n + 1)) =
        (fwStep t .tickEvent).2 ++ ((fwStep (fwStep t .tickEvent).1 (.take os)).2 ++
          outputs fwStep (fwStep (fwStep t .tickEvent).1 (.take os)).1 (silence os n)) :=
  ⟨rfl, rfl⟩

/-- With the timer running and a silent device, the ticks that are left end the download with a
timeout. -/
theorem silence_ends (os : OsAnswer) (n : ℕ) (hn : s.hpticksleft.toNat = n + 1)
    (hon : s.hptimeron = true) (hqueue : ∀ e ∈ queue, e = HpphEvent.tick) :
    outputs fwStep (some ⟨s, queue⟩) (silence os (n + 1)) =
        [.fwdwnresp s.hpphipcchanrr .timeout []] ∧
      ∃ t', after fwStep (some ⟨s, queue⟩) (silence os (n + 1)) = some t' ∧
        t'.hpgcb.amfwdwnstate = .done := by
  obtain ⟨rest, hrest, hticks⟩ := exists_tick_cons hqueue
  rw [(silence_succ os).1, (silence_succ os).2, fwStep_round os hrest]
  have hone : (1 : UInt16) ≤ s.hpticksleft := by
    rw [UInt16.le_iff_toNat_le, UInt16.toNat_one]
    omega
  have hleft : (s.hpticksleft - 1).toNat = n := by
    rw [UInt16.toNat_sub_of_le _ _ hone, UInt16.toNat_one, hn, Nat.add_sub_cancel]
  induction n generalizing s queue rest with
  | zero =>
      have hzero : s.hpticksleft - 1 = 0 := by
        rw [← UInt16.toNat_inj]
        exact hleft
      have htimer : hpfwdwntimer s =
          hpamfwdwnresp .timeout [] { s with hpticksleft := s.hpticksleft - 1 } := by
        simp only [hpfwdwntimer, hon, if_true, hzero]
      rw [htimer]
      exact ⟨rfl, _, rfl, rfl⟩
  | succ n ih =>
      have hne : s.hpticksleft - 1 ≠ 0 := by
        intro hzero
        rw [hzero] at hleft
        exact Nat.succ_ne_zero n hleft.symm
      have htimer : hpfwdwntimer s =
          (some { s with hpticksleft := s.hpticksleft - 1 }, []) := by
        simp only [hpfwdwntimer, hon, if_true, if_neg hne]
      obtain ⟨rest', hrest', hticks'⟩ := exists_tick_cons hticks
      have hone' : (1 : UInt16) ≤ s.hpticksleft - 1 := by
        rw [UInt16.le_iff_toNat_le, UInt16.toNat_one]
        omega
      have hleft' : (s.hpticksleft - 1 - 1).toNat = n := by
        rw [UInt16.toNat_sub_of_le _ _ hone', UInt16.toNat_one, hleft, Nat.add_sub_cancel]
      have ih := ih (s := { s with hpticksleft := s.hpticksleft - 1 }) hleft hon hticks rest'
        hrest' hticks' hone' hleft'
      rw [htimer]
      rw [(silence_succ os).1, (silence_succ os).2]
      rw [show (Option.map (fun s => FwTask.mk s rest)
        (some { s with hpticksleft := s.hpticksleft - 1 })) =
          some ⟨{ s with hpticksleft := s.hpticksleft - 1 }, rest⟩ from rfl, fwStep_round os hrest']
      exact ih

end Silence

section Steps

variable {ok : Prop} {os : OsAnswer} {s s' : HpBlk}

theorem Outcome.ne_dwn {nexts : List FwState} {out : List FwOut}
    (h : Outcome ok nexts s s' out) (hnexts : FwState.dwn ∉ nexts) : s'.amfwdwnstate ≠ .dwn :=
  fun hdwn => hnexts (hdwn ▸ h.mem)

theorem ne_dwn_hpstateupdate {newstate : FwState} (hpass : newstate.passes = false)
    (hnew : newstate ≠ .dwn) {errorstring : List UInt8}
    (h : (hpstateupdate os newstate errorstring s).1 = some s') : s'.amfwdwnstate ≠ .dwn := by
  refine (yields_hpstateupdate newstate hpass (fun _ => id) errorstring s' h).ne_dwn ?_
  cases newstate <;> first | exact absurd rfl hnew | decide

/-- The start response is the only way into the state of the continue requests. -/
theorem ne_dwn_hpfwdwncbmsg {hipmsg : HpHipEvt} (hstate : s.amfwdwnstate ≠ .dwn)
    (hmore : ¬ AcceptsMore os hipmsg s) (h : (hpfwdwncbmsg os hipmsg s).1 = some s') :
    s'.amfwdwnstate ≠ .dwn := by
  rw [hpfwdwncbmsg] at h
  split at h
  case h_1 hstart =>
    rw [hpstatefwstartreq] at h
    split_ifs at h with hresp hparm hleft
    · exact ne_dwn_hpstateupdate rfl (by decide) h
    · -- more chunks are left, and the next one cannot be read
      have hread : ¬ os.readok = true := fun hread =>
        hmore ⟨hstart, hresp, not_not.mp hparm, hleft, hread⟩
      have hnone : ∀ s : HpBlk, hpreadchunk os s = none := by
        intro s
        rw [hpreadchunk]
        cases s.hpfp with
        | none => rfl
        | some rest => exact if_neg hread
      have hdone : (hpstateupdate os .dwn [] (hptimerstop s)).1 =
          (hpstatefail .dwnErr [] { hptimerstop s with amfwdwnstate := .dwn }).1 := by
        rw [hpstateupdate]
        simp only [andThen, hpstateenter, hpsendcontreq, hnone]
      rw [hdone] at h
      have houtcome : Outcome True [.done] _ s' _ := yields_hpstatefail .dwnErr [] s' h
      exact houtcome.ne_dwn (by decide)
    · exact ne_dwn_hpstateupdate rfl (by decide) h
    · exact Option.some.inj h ▸ hstate
  case h_2 hdwn => exact absurd hdwn hstate
  case h_3 =>
    rw [hpstatefwchksum] at h
    split_ifs at h
    · exact ne_dwn_hpstateupdate rfl (by decide) h
    · exact ne_dwn_hpstateupdate rfl (by decide) h
    · obtain ⟨s₁, -, h₁, -⟩ := andThen_some h
      exact ne_dwn_hpstateupdate rfl (by decide) h₁
    · exact Option.some.inj h ▸ hstate
  case h_4 =>
    rw [hpstatefwflash] at h
    split_ifs at h
    · exact ne_dwn_hpstateupdate rfl (by decide) h
    · exact ne_dwn_hpstateupdate rfl (by decide) h
    · exact Option.some.inj h ▸ hstate
  case h_5 => exact Option.some.inj h ▸ hstate

theorem ne_dwn_hpphdispatch {e : HpphEvent} (he : e.isRequest = false)
    (hstate : s.amfwdwnstate ≠ .dwn)
    (hmore : ∀ hipmsg, e = .fwdwncb hipmsg → ¬ AcceptsMore os hipmsg s)
    (h : (hpphdispatch os e s).1 = some s') : s'.amfwdwnstate ≠ .dwn := by
  cases e with
  | fwdwnreq packet => exact Bool.noConfusion he
  | fwdwncb hipmsg => exact ne_dwn_hpfwdwncbmsg hstate (hmore hipmsg rfl) h
  | modemstatecb online apprunning =>
      rw [hpphdispatch, hpmodestatechangemsg, hpstatesoftreset] at h
      split_ifs at h <;> first
        | exact ne_dwn_hpstateupdate rfl (by decide) h
        | exact Option.some.inj h ▸ hstate
  | tick =>
      simp only [hpphdispatch, hpfwdwntimer] at h
      split_ifs at h
      · have houtcome : Outcome True [.done] _ s' _ := yields_hpamfwdwnresp .timeout [] s' h
        exact houtcome.ne_dwn (by decide)
      · exact Option.some.inj h ▸ hstate
      · exact Option.some.inj h ▸ hstate

/-- A task in a run of safe steps. -/
structure SafeTask (t : FwTask) : Prop where
  control : Control t
  ne_dwn : t.hpgcb.amfwdwnstate ≠ .dwn
  timed : t.hpgcb.amfwdwnstate ≠ .done →
    t.hpgcb.hptimeron = true ∧ t.hpgcb.hpticksleft ≠ 0
  closes : t.hpgcb.Closes
  closed : t.hpgcb.amfwdwnstate = .done → t.hpgcb.hpfileopened = false

theorem SafeTask.off {t : FwTask} (ht : SafeTask t) (hdone : t.hpgcb.amfwdwnstate = .done) :
    t.hpgcb.hptimeron = false := by
  cases ht.control with
  | idle _ hoff => exact hoff
  | asked _ hoff => exact hoff
  | runs hrun => exact absurd hdone hrun

/-- The requests on the way: those that were taken before and the one that comes now are those
that are answered now and the one that is left. -/
def Accounted (t : FwTask) (i : FwInput) (t' : FwTask) (out : List FwOut) : Prop :=
  t.outstanding ++ i.reqchannel.toList = responses out ++ t'.outstanding

/-- A change of state answers the request that it handles, or keeps its channel. -/
theorem Outcome.accounted {nexts : List FwState} {out : List FwOut} {queue rest : List HpphEvent}
    (h : Outcome ok nexts s s' out) (hchan : s.hpphipcchanrr ≠ ciMaxIpcChan) :
    Accounted ⟨s, queue⟩ (.take os) ⟨s', rest⟩ out := by
  rw [Accounted, FwTask.outstanding, FwTask.outstanding, if_neg hchan]
  by_cases hdone : s'.amfwdwnstate = .done
  · obtain ⟨hfree, hresp, -⟩ := h.ended hdone
    rw [hresp, if_pos hfree]
    rfl
  · obtain ⟨hsame, hresp, -⟩ := h.waits hdone
    rw [hresp, hsame, if_neg hchan]
    rfl

/-- A change of state in a safe step. -/
theorem SafeTask.of_outcome {nexts : List FwState} {out : List FwOut} {queue rest : List HpphEvent}
    (h : Outcome ok nexts s s' out) (hok : ok) (hdwn : s'.amfwdwnstate ≠ .dwn) (hclose : s.Closes)
    (hchan : s.hpphipcchanrr ≠ ciMaxIpcChan) (hrest : rest.countP HpphEvent.isRequest = 0) :
    SafeTask ⟨s', rest⟩ ∧ Accounted ⟨s, queue⟩ (.take os) ⟨s', rest⟩ out := by
  constructor
  · exact
      { control := h.control hchan hrest
        ne_dwn := hdwn
        timed := fun hrun => by
          obtain ⟨hon, hticks⟩ := (h.waits hrun).2.2 hdwn
          refine ⟨hon, ?_⟩
          rw [hticks]
          decide
        closes := h.closes hok hclose
        closed := fun hdone => (h.ended hdone).2.2.2.1 }
  · exact h.accounted hchan

/-- The task takes a message that is no request. -/
theorem SafeTask.take_message {e : HpphEvent} {rest : List HpphEvent}
    (ht : SafeTask ⟨s, e :: rest⟩) (he : e.isRequest = false)
    (hmore : ∀ hipmsg, e = .fwdwncb hipmsg → ¬ AcceptsMore os hipmsg s)
    (hs' : (hpphdispatch os e s).1 = some s') :
    SafeTask ⟨s', rest⟩ ∧
      Accounted ⟨s, e :: rest⟩ (.take os) ⟨s', rest⟩ (hpphdispatch os e s).2 := by
  have hcontrol := ht.control.handled he hs'
  by_cases hdone : s.amfwdwnstate = .done
  · rw [hpphdispatch_done he hdone (ht.off hdone)] at hs' ⊢
    obtain rfl := Option.some.inj hs'
    exact ⟨⟨hcontrol, ht.ne_dwn, ht.timed, ht.closes, ht.closed⟩, List.append_nil _⟩
  · have hdwn := ne_dwn_hpphdispatch he ht.ne_dwn hmore hs'
    have hhandled : Handled s (hpphdispatch os e s) := handled_hpphdispatch he
    obtain ⟨hrest, hchan⟩ : rest.countP HpphEvent.isRequest = 0 ∧
        s.hpphipcchanrr ≠ ciMaxIpcChan := by
      have hcount : FwTask.asked ⟨s, e :: rest⟩ = rest.countP HpphEvent.isRequest :=
        List.countP_cons_of_neg (by rw [he]; exact Bool.false_ne_true)
      cases ht.control with
      | idle h => exact absurd h hdone
      | asked h => exact absurd h hdone
      | runs _ hasked hchan => exact ⟨hcount ▸ hasked, hchan⟩
    generalize hpphdispatch os e s = r at hhandled hs'
    cases hhandled with
    | ignored =>
        obtain rfl := Option.some.inj hs'
        exact ⟨⟨hcontrol, ht.ne_dwn, ht.timed, ht.closes, ht.closed⟩, List.append_nil _⟩
    | ticked hon hleft =>
        obtain rfl := Option.some.inj hs'
        exact ⟨⟨hcontrol, hdwn, fun _ => ⟨hon, hleft⟩, ht.closes, fun h => absurd h hdone⟩,
          List.append_nil _⟩
    | changed nexts h => exact SafeTask.of_outcome (h s' hs') trivial hdwn ht.closes hchan hrest

/-- Only a chunk size of zero stops the task. -/
theorem hpimageinit_ne_none (hdivides : Divides os s.hpparms) : (hpimageinit os s).1 ≠ none := by
  rw [hpimageinit]
  cases himage : os.files s.hpparms.amfilename with
  | none => exact Option.some_ne_none _
  | some image =>
      simp only
      split_ifs with hsize hempty hzero happ
      · exact Option.some_ne_none _
      · exact Option.some_ne_none _
      · have hsizeok : os.sizeok = true := by simpa using hsize
        exact absurd hzero (hdivides image himage hsizeok hempty)
      · exact Option.some_ne_none _
      · simp only [andThen, hpstateenter, hpsendstartreq]
        split <;> exact Option.some_ne_none _

theorem yields_openable (hopen : Openable os s.hpparms) :
    Yields True [.softReset, .startReq, .done] s (hpimageinit os s) := by
  by_cases hfile : os.sizeok = true
  · exact yields_hpimageinit fun _ => hfile
  · -- no file was opened, so its size was not asked for
    have hnone : os.files s.hpparms.amfilename = none := by
      cases himage : os.files s.hpparms.amfilename with
      | none => rfl
      | some image => exact absurd (hopen image himage).1 hfile
    rw [hpimageinit, hnone]
    exact ((yields_hpstatefail .initErr []).mono (by simp)).of_eq rfl fun _ _ _ => rfl

/-- The task takes a request whose file can be opened. -/
theorem SafeTask.take_request {packet : List UInt8} {rest : List HpphEvent}
    (ht : SafeTask ⟨s, .fwdwnreq packet :: rest⟩)
    (hopen : Openable os (amparsefwdwnrequest packet)) :
    ∃ s', (hpphdispatch os (.fwdwnreq packet) s).1 = some s' ∧ SafeTask ⟨s', rest⟩ ∧
      Accounted ⟨s, .fwdwnreq packet :: rest⟩ (.take os) ⟨s', rest⟩
        (hpphdispatch os (.fwdwnreq packet) s).2 := by
  obtain ⟨hdone, -, -, hchan, hrest⟩ := ht.control.request
  have hstart : hpphdispatch os (.fwdwnreq packet) s =
      hpstateupdate os .init [] { s with hpparms := amparsefwdwnrequest packet } := by
    rw [hpphdispatch, hpamfwdwnreq, if_neg (fun h => h hdone)]
  rw [hstart]
  have hyields : Yields True [.softReset, .startReq, .done] s
      (hpstateupdate os .init [] { s with hpparms := amparsefwdwnrequest packet }) :=
    (yields_hpstateenter (yields_openable hopen)).of_eq rfl fun _ hs => hs
  cases hs' : (hpstateupdate os .init [] { s with hpparms := amparsefwdwnrequest packet }).1 with
  | none => exact absurd hs' (hpimageinit_ne_none hopen.divides)
  | some s' =>
      have houtcome := hyields s' hs'
      exact ⟨s', rfl, SafeTask.of_outcome houtcome trivial (houtcome.ne_dwn (by decide)) ht.closes
        hchan hrest⟩

theorem SafeTask.post {t : FwTask} (ht : SafeTask t) {e : HpphEvent} (he : e.isRequest = false) :
    SafeTask (t.post e) :=
  ⟨ht.control.post he, ht.ne_dwn, ht.timed, ht.closes, ht.closed⟩

/-- A safe step of a safe task. -/
theorem safeTask_step {t : FwTask} (ht : SafeTask t) {i : FwInput} (hi : FwSafe (some t) i) :
    ∃ t', (fwTaskStep t i).1 = some t' ∧ SafeTask t' ∧ Accounted t i t' (fwTaskStep t i).2 := by
  cases i with
  | request c packet =>
      have hfree : t.hpgcb.hpphipcchanrr = ciMaxIpcChan := hi
      have hstep : hpsendfwdwnrr c.1 packet t =
          FwTask.post { t with hpgcb := { t.hpgcb with hpphipcchanrr := c.1 } }
            (.fwdwnreq packet) := if_pos hfree
      have hcontrol := ht.control.hpsendfwdwnrr c packet
      rw [hstep] at hcontrol
      refine ⟨_, congrArg some hstep, ⟨hcontrol, ht.ne_dwn, ht.timed, ht.closes, ht.closed⟩, ?_⟩
      rw [Accounted, FwTask.outstanding, FwTask.outstanding, if_pos hfree]
      exact (if_neg c.ne_ciMaxIpcChan).symm
  | hipMessage hipmsg => exact ⟨_, rfl, ht.post rfl, List.append_nil _⟩
  | modemState online apprunning => exact ⟨_, rfl, ht.post rfl, List.append_nil _⟩
  | tickEvent => exact ⟨_, rfl, ht.post rfl, List.append_nil _⟩
  | take os =>
      obtain ⟨s, queue⟩ := t
      cases queue with
      | nil => exact ⟨_, rfl, ht, List.append_nil _⟩
      | cons e rest =>
          rw [fwTaskStep_take]
          cases he : e.isRequest with
          | false =>
              have hsome : (hpphdispatch os e s).1 ≠ none := hpphdispatch_ne_none he
              obtain ⟨s', hs'⟩ := Option.ne_none_iff_exists'.mp hsome
              obtain ⟨hsafe, haccount⟩ := ht.take_message he
                (fun hipmsg heq => hi.2 hipmsg rest (heq ▸ rfl)) hs'
              exact ⟨⟨s', rest⟩, Option.map_eq_some_iff.mpr ⟨s', hs', rfl⟩, hsafe, haccount⟩
          | true =>
              cases e with
              | fwdwnreq packet =>
                  obtain ⟨s', hs', hsafe, haccount⟩ := ht.take_request (hi.1 packet rest rfl)
                  exact ⟨⟨s', rest⟩, Option.map_eq_some_iff.mpr ⟨s', hs', rfl⟩, hsafe, haccount⟩
              | fwdwncb hipmsg => exact Bool.noConfusion he
              | modemstatecb online apprunning => exact Bool.noConfusion he
              | tick => exact Bool.noConfusion he

end Steps

section Runs

/-- A run of safe steps. -/
theorem safeTask_run {t : FwTask} (ht : SafeTask t) {is : List FwInput}
    (h : Meets fwStep FwSafe (some t) is) :
    ∃ t', after fwStep (some t) is = some t' ∧ SafeTask t' ∧
      t.outstanding ++ requested is =
        responses (outputs fwStep (some t) is) ++ t'.outstanding := by
  induction is generalizing t with
  | nil => exact ⟨t, rfl, ht, List.append_nil _⟩
  | cons i is ih =>
      obtain ⟨t₁, hstep, ht₁, haccount⟩ := safeTask_step ht h.1
      have hrest : Meets fwStep FwSafe (some t₁) is := hstep ▸ h.2
      obtain ⟨t', hafter, ht', hout⟩ := ih ht₁ hrest
      refine ⟨t', ?_, ht', ?_⟩
      · rw [after_cons, fwStep, hstep, hafter]
      · have hreq : requested (i :: is) = i.reqchannel.toList ++ requested is := by
          rw [requested, requested]
          cases hi : i.reqchannel with
          | none => rw [List.filterMap_cons_none hi, Option.toList_none, List.nil_append]
          | some c => rw [List.filterMap_cons_some hi, Option.toList_some, List.singleton_append]
        rw [outputs_cons, fwStep, hstep, responses_append, hreq, ← List.append_assoc, haccount,
          List.append_assoc, List.append_assoc, hout]

theorem safeTask_init : SafeTask ⟨hpfwdownloadinit, []⟩ :=
  ⟨control_init, by decide, fun h => absurd rfl h, fun _ => rfl, fun _ => rfl⟩

/-- A safe task has nothing left of a download that has finished, and its timer running for one
that has not. -/
theorem SafeTask.controlled {t : FwTask} (ht : SafeTask t) {is : List FwInput}
    (haccount : requested is = responses (outputs fwStep fwTaskInit is) ++ t.outstanding) :
    Controlled is t where
  answered := haccount
  unchanged hchan ipcchannel packet := congrArg some (if_neg hchan)
  timed hrun := (ht.timed hrun).1
  ends hrun hqueue os := by
    obtain ⟨hon, hleft⟩ := ht.timed hrun
    obtain ⟨n, hn⟩ := Nat.exists_eq_succ_of_ne_zero
      (show t.hpgcb.hpticksleft.toNat ≠ 0 from fun h => hleft (UInt16.toNat.inj h))
    rw [hn]
    exact silence_ends os n hn hon hqueue
  finished hdone := by
    refine ⟨ht.off hdone, ht.closes (ht.closed hdone), fun hasked => ?_⟩
    cases ht.control with
    | idle _ _ _ _ hchan => exact hchan
    | asked _ _ _ hone => exact absurd (hasked.symm.trans hone) (by decide)
    | runs hrun => exact absurd hdone hrun

/-- In every run of safe steps the task goes on, and is controlled. -/
theorem controlled_of_fwSafe (is : List FwInput) (h : Meets fwStep FwSafe fwTaskInit is) :
    ∃ t, after fwStep fwTaskInit is = some t ∧ Controlled is t := by
  obtain ⟨t, hafter, ht, haccount⟩ := safeTask_run safeTask_init h
  exact ⟨t, hafter, ht.controlled haccount⟩

/-- A request for chunks of one byte. -/
def smallChunkRequest : List UInt8 := List.replicate 85 0 ++ [1]

/-- The files hold the bytes `image`, and the device is in its boot loader. -/
def bootLoaderOs (image : List UInt8) : OsAnswer := ⟨fun _ => some image, true, true, false⟩

/-- A download until the start request has been accepted. -/
def acceptedRun (image : List UInt8) : List FwInput :=
  [.request firstChannel smallChunkRequest, .take (bootLoaderOs image),
    .hipMessage ⟨hpDlStrtResp, hpSuccess, []⟩, .take (bootLoaderOs image)]

/-- An image of one chunk. -/
theorem controlled_oneChunk :
    ∃ t, after fwStep fwTaskInit (acceptedRun [7]) = some t ∧ Controlled (acceptedRun [7]) t := by
  refine controlled_of_fwSafe (acceptedRun [7]) ⟨rfl, ⟨?_, ?_⟩, trivial, ⟨?_, ?_⟩, trivial⟩
  · intro packet rest ht
    cases ht
    exact fun image himage => ⟨rfl, fun _ => by decide⟩
  · intro hipmsg rest ht
    cases ht
  · intro packet rest ht
    cases ht
  · intro hipmsg rest ht hmore
    exact hmore.2.2.2.1 (by decide)

/-- An image of two chunks: the device has been sent a continue request, and no timer runs. -/
theorem not_timed_twoChunks :
    (after fwStep fwTaskInit (acceptedRun [7, 8])).map
        (fun t => (t.hpgcb.amfwdwnstate, t.hpgcb.hptimeron)) = some (.dwn, false) := by
  decide

end Runs

end Sdk

end SierraSdk
