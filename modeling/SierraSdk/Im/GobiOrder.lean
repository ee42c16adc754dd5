import SierraSdk.Im.CweEvents
import SierraSdk.Im.CweOrder
import SierraSdk.Im.GobiRouting

/-!
# The order of a download in the Gobi task

The download machine takes any message but an error for the response to the last request, and does
not look at the sequence number of a write response. Where a frame is received only in answer to a
request, and its message is an error or has the command byte of the response, of a write response
also the number (`Regular`), the download is in order (`inOrder_of_regular`): an image that the
device does not require is left out, and a download that fails ends with the request that closes
it, but without a success.

`downloads_inOrder` states the order for both tasks.
-/

namespace SierraSdk

namespace Im

namespace Gobi

open Am (piget16)
open DownloadOrder
open Hd (HdRxCtlBk hdrxreset)
open Machine (Along along_append along_run)

/-! ### What is seen of a run -/

/-- What is seen of an output. -/
def Output.event : Output → Event
  | .sent _ data => .request data
  | .qmSetFwDownloadStatus status => .recorded (status = 0)

/-- The message that is handled by a move. -/
def handled (s : ImGobi) : Move → List Event
  | .act _ =>
      match s.task with
      | .acting .imGobiTransRxRsp _ => [.response (messageIn s.hdr s.datapkt.pdata)]
      | _ => []
  | _ => []

/-- The message that is handled, and what the task does. -/
def traced : Option ImGobi → Move → Option ImGobi × List Event
  | none, _ => (none, [])
  | some s, m => ((move s m).1, handled s m ++ (move s m).2.map Output.event)

/-- What is seen of a download. -/
def trace (datapkt : ImDatapkt) (hdr : HdRxCtlBk) (qdl : GobiQdl) (moves : List Move) :
    List Event :=
  Machine.outputs traced (some (start datapkt hdr qdl)) moves

/-- A frame is stored in answer to a request only: the transaction machine waits for a response,
and none has been stored. After the end of the task, frames are of no account. -/
def Solicited : Option ImGobi → Move → Prop
  | some s, .store _ =>
      s.task = .terminated ∨
        (s.task = .waiting ∧ s.imsmp = .smtr ∧ s.state .smtr = StSmtr.waitRsp ∧
          s.imicmsgque = [] ∧ s.received = false)
  | _, _ => True

/-- The message is whole, and it is an error or the response to the request, of a write request the
one with its number. -/
def Regular (request psdp : List UInt8) : Prop :=
  Whole psdp ∧
    (command psdp = vErrorPacketRsp ∨ responseTo (command request) = some (command psdp)) ∧
    (command psdp = vWriteRsp → sequenceNumber psdp = sequenceNumber request)

/-- The device does not require the image that is opened. -/
def NotRequired (request psdp : List UInt8) : Prop :=
  command request = vOpenReq ∧ command psdp = vOpenRsp ∧
    openStatus psdp = ssdpOpenUnframedImageNtRequired

/-- The download has failed: the response is not a positive one, or there is no image. -/
def Failed (request psdp : List UInt8) : Prop :=
  command request = vGetImagePreferenceReq ∨
    (¬ Positive request psdp ∧ ¬ NotRequired request psdp)

/-- The message lets a request through, where an image may not be required, and a download that has
failed is closed. -/
def Lets (p : Progress) (psdp data : List UInt8) : Prop :=
  (Positive p.request psdp ∧ InTurn p data) ∨
    (NotRequired p.request psdp ∧ (command data = vOpenReq ∨ command data = vDoneReq)) ∨
    (Failed p.request psdp ∧ command data = vDoneFinalReq)

/-! ### The invariant -/

/-- The image at the current index has been opened. -/
def Opening (qdl : GobiQdl) (p : Progress) : Prop :=
  p.images = qdl.nextimageidx + 1 ∧ qdl.nextimageidx < qdl.gobimgs2dwld.length

/-- The request whose response is waited for in a state of the download machine. -/
def Asked (smfd : ℕ) (qdl : GobiQdl) (p : Progress) : Prop :=
  if smfd = StSmfd.waitHellorsp then command p.request = vHelloReq ∧ p.images = 0
  else if smfd = StSmfd.waitFwprefrsp then
    command p.request = vGetImagePreferenceReq ∧ p.images = 0
  else if smfd = StSmfd.waitOpenunf then
    command p.request = vOpenReq ∧ p.blocks = numBlocks qdl.imqdl.fwImageSize ∧ Opening qdl p
  else if smfd = StSmfd.waitUwrtrsp then
    command p.request = vWriteReq ∧ p.blocks = qdl.imqdl.numwrites ∧
      qdl.imqdl.sequenceNumber = sequenceNumber p.request + 1 ∧ Opening qdl p
  else if smfd = StSmfd.waitDonersp then
    command p.request = vDoneReq ∧ p.images = qdl.gobimgs2dwld.length
  else False

/-- The user data is the message that came last, which is regular and no error. -/
def Heard (udata : Udata) (p : Progress) : Prop :=
  ∃ psdp, udata = .message psdp ∧ p.response = some psdp ∧ Regular p.request psdp ∧
    command psdp ≠ vErrorPacketRsp ∧
    p.succeeded = decide (command p.request = vDoneReq ∧ Positive p.request psdp ∧
      piget16 psdp 1 = ssdpDoneSuccess)

/-- The next image can be opened. -/
def OpenDue (qdl : GobiQdl) (p : Progress) : Prop :=
  (∀ data, command data = vOpenReq → Permitted Lets p data) ∧ p.images = qdl.nextimageidx ∧
    qdl.nextimageidx < qdl.gobimgs2dwld.length

/-- All images are sent. -/
def DoneDue (qdl : GobiQdl) (p : Progress) : Prop :=
  Permitted Lets p imssdpDonePack ∧ p.images = qdl.gobimgs2dwld.length

/-- What an event means for the download. -/
def Knows (s : ImGobi) (p : Progress) : ImEvent → Prop
  | .task .dldStart => p = .none
  | .task _ => True
  | .fwdld .start => p = .none
  | .fwdld .rsprx =>
      if s.state .smfd = StSmfd.sendFwimg then OpenDue s.qdl p
      else if s.state .smfd = StSmfd.waitUwrtrsp then DoneDue s.qdl p
      else Asked (s.state .smfd) s.qdl p ∧ Heard (s.udata .smfd) p
  | .fwdld .uwrtnxt => Asked StSmfd.waitUwrtrsp s.qdl p ∧ Heard (s.udata .smfd) p
  | .fwdld .error => Permitted Lets p imssdpDonefinalPack
  | .trans .txReq =>
      Permitted Lets p s.datapkt.pdata ∧ Asked (s.state .smfd) s.qdl (p.send s.datapkt.pdata)
  | .trans .rxRsp => Asked (s.state .smfd) s.qdl p

/-- What the call of an action means for the download. -/
def Means (s : ImGobi) (p : Progress) (imrxdata : Udata) : Action → Prop
  | .imGobiFwDldStart => p = .none
  | .imGobiSendHello => p = .none
  | .imGobiSendGetImgPref => Asked StSmfd.waitHellorsp s.qdl p ∧ Heard imrxdata p
  | .imGobiSendFwImg => Asked StSmfd.waitFwprefrsp s.qdl p ∧ Heard imrxdata p
  | .imGobiSendOUfPkt => OpenDue s.qdl p
  | .imGobiSendUfWrite => Asked StSmfd.waitOpenunf s.qdl p ∧ Heard imrxdata p
  | .imGobiSendNextUfWrite => Asked StSmfd.waitUwrtrsp s.qdl p ∧ Heard imrxdata p
  | .imGobiSendDone => DoneDue s.qdl p
  | .imGobiSendDoneFinal => Asked StSmfd.waitDonersp s.qdl p ∧ Heard imrxdata p
  | .imGobiFwDldError => Permitted Lets p imssdpDonefinalPack
  | .imGobiTaskShutdown => True
  | .imGobiTransTxReq =>
      Permitted Lets p s.datapkt.pdata ∧ Asked (s.state .smfd) s.qdl (p.send s.datapkt.pdata)
  | .imGobiTransRxRsp => Asked (s.state .smfd) s.qdl p
  | .imerror => False

/-- One event at a time is in the queue, and it means for the download what it should. -/
def Meaning (s : ImGobi) (p : Progress) : Prop :=
  match s.task with
  | .waiting =>
      (s.imicmsgque = [] ∧ Asked (s.state .smfd) s.qdl p) ∨
        ∃ ev, s.imicmsgque = [ev] ∧ s.received = false ∧ Knows s p ev
  | .acting action imrxdata =>
      s.imicmsgque = [] ∧ s.received = false ∧ Means s p imrxdata action
  | .queueing ev => s.imicmsgque = [] ∧ s.received = false ∧ Knows s p ev
  | .terminated => True

/-- Where the task stands, its download does. -/
structure Stands (s : ImGobi) (p : Progress) : Prop where
  inv : Inv s
  chunkSize : s.qdl.imqdl.chunkSize = imChunkSize
  meaning : Meaning s p

/-- A task that has not come to its end stands where its download does. -/
def StandsAt (s : Option ImGobi) (p : Progress) : Prop := ∀ t, s = some t → Stands t p

/-! ### Taking an event -/

section Take

variable {s t : ImGobi} {p : Progress} {ev : ImEvent} {rest : List ImEvent}

theorem not_due_nil : ¬ Due [] ev := by
  rintro ⟨pre, post, hsplit, -⟩
  exact absurd (congrArg List.length hsplit) (by simp)

/-- The action that is called for an event means what the event does. -/
theorem means_transition (hawaits : Awaits s.state ev) (h : Knows s p ev)
    (hqdl : t.qdl = s.qdl) (hdatapkt : t.datapkt = s.datapkt)
    (hstate : ev.machine = .smtr → t.state .smfd = s.state .smfd) :
    Means t p (s.udata ev.machine) (transition s.state ev).2 := by
  rcases ev with (_ | _ | _) | (_ | _ | _ | _) | (_ | _)
  · exact h
  · trivial
  · trivial
  · exact h
  · obtain ⟨-, ⟨hlow, hhigh⟩, -⟩ := hawaits
    simp only [Knows, ← hqdl] at h
    simp only [ImEvent.machine, transition]
    generalize s.state .smfd = state at hlow hhigh h
    interval_cases state
    · exact h
    · exact h
    · exact h
    · exact h
    · exact h
    · exact h
  · simp only [Knows, ← hqdl] at h
    exact h
  · exact h
  · change Permitted Lets p t.datapkt.pdata ∧
      Asked (t.state .smfd) t.qdl (p.send t.datapkt.pdata)
    rw [hdatapkt, hqdl, hstate rfl]
    exact h
  · exact hawaits.elim

/-- An event is taken. -/
theorem stands_imgobitask (h : Stands s p) (htask : s.task = .waiting)
    (hq : s.imicmsgque = ev :: rest) (ht : imgobitask s ev rest = some t) : Stands t p := by
  have hmeaning := h.meaning
  simp only [Meaning, htask] at hmeaning
  obtain ⟨hempty, -⟩ | ⟨head, hhead, hreceived, hknows⟩ := hmeaning
  · exact absurd (hq.symm.trans hempty) (List.cons_ne_nil ev rest)
  · obtain ⟨rfl, rfl⟩ := List.cons.inj (hq.symm.trans hhead)
    have hinv := inv_imgobitask h.inv htask hq ht
    have hstands := h.inv
    simp only [Inv, htask] at hstands
    rcases hstands with ⟨himsmp, hsmt, hsmfd, hsmtr, hframes⟩ | ⟨due, himsmp, hawaits, hdue⟩
    · -- the frame that the transaction machine waits for
      have hev : ev = .trans .rxRsp := hframes ev (hq ▸ List.mem_cons_self)
      subst hev
      rw [@imgobitask_transition s (.trans .rxRsp) [] 0 .imGobiTransRxRsp
        (fun udata => by rw [himsmp, hsmtr]; rfl)] at ht
      obtain rfl := Option.some.inj ht
      refine ⟨hinv, h.chunkSize, rfl, hreceived, ?_⟩
      change Asked (Function.update s.state s.imsmp 0 .smfd) s.qdl p
      rw [himsmp]
      exact hknows
    · rw [hq] at hdue
      rcases hdue.head with ⟨rfl, -⟩ | ⟨-, -, hnone⟩
      · rw [imgobitask_transition (fun udata => himsmp ▸ smrun_due hawaits udata)] at ht
        obtain rfl := Option.some.inj ht
        refine ⟨hinv, h.chunkSize, rfl, hreceived, ?_⟩
        rw [← himsmp]
        refine means_transition hawaits hknows rfl rfl fun hsmtr => ?_
        change Function.update s.state ev.machine _ .smfd = _
        rw [hsmtr]
        rfl
      · exact absurd hnone not_due_nil

end Take

/-! ### Actions -/

section Permissions

variable {p : Progress} {psdp data : List UInt8} {qdl : GobiQdl} {udata : Udata}

/-- A request is let through by a positive response. -/
theorem permitted_positive (hresponse : p.response = some psdp)
    (hpositive : Positive p.request psdp) (hturn : InTurn p data) : Permitted Lets p data :=
  .inr ⟨psdp, hresponse, .inl ⟨hpositive, hturn⟩⟩

/-- A download that has failed can be closed. -/
theorem permitted_failed (hresponse : p.response = some psdp) (hfailed : Failed p.request psdp) :
    Permitted Lets p imssdpDonefinalPack :=
  .inr ⟨psdp, hresponse, .inr (.inr ⟨hfailed, rfl⟩)⟩

/-- Requests other than an open and a write request are followed by any that may follow. -/
theorem inTurn_of_plain (hnext : (command p.request, command data) ∈ succession)
    (hopen : command p.request ≠ vOpenReq) (hwrite : command p.request ≠ vWriteReq) :
    InTurn p data :=
  ⟨hnext, fun h => absurd h hopen, fun h => absurd h hwrite⟩

/-- The message that is heard is the response to the request. -/
theorem command_of_heard {request response : UInt8} (hregular : Regular p.request psdp)
    (hnotError : command psdp ≠ vErrorPacketRsp) (hrequest : command p.request = request)
    (hresponse : responseTo request = some response) : command psdp = response := by
  obtain ⟨-, hanswer, -⟩ := hregular
  rcases hanswer with hanswer | hanswer
  · exact absurd hanswer hnotError
  · rw [hrequest, hresponse] at hanswer
    exact (Option.some.inj hanswer).symm

/-- A response that has no status is positive. -/
theorem positive_of_plain (hregular : Regular p.request psdp)
    (hnotError : command psdp ≠ vErrorPacketRsp) (hopen : command psdp ≠ vOpenRsp)
    (hwrite : command psdp ≠ vWriteRsp) : Positive p.request psdp := by
  obtain ⟨hwhole, hanswer, -⟩ := hregular
  refine ⟨hwhole, ?_, fun h => absurd h hopen, fun h => absurd h hwrite⟩
  rcases hanswer with hanswer | hanswer
  · exact absurd hanswer hnotError
  · exact hanswer

/-- An error is no positive response. -/
theorem failed_of_error (herror : command psdp = vErrorPacketRsp) : Failed p.request psdp := by
  refine .inr ⟨?_, ?_⟩
  · rintro ⟨-, hresponse, -⟩
    have hmem := mem_exchanges hresponse
    rw [herror] at hmem
    have hnone : ∀ e ∈ exchanges, e.2 ≠ vErrorPacketRsp := by
      simp only [exchanges, List.forall_mem_cons]
      exact ⟨by decide, by decide, by decide, by decide, by decide, by decide,
        List.forall_mem_nil _⟩
    exact hnone _ hmem rfl
  · rintro ⟨-, hopen, -⟩
    exact absurd (herror.symm.trans hopen) (by decide)

end Permissions

section Actions

variable {s t : ImGobi} {p : Progress} {imrxdata : Udata} {w : World}

/-- What an action leaves behind for the download. -/
def Leaves (r : Option ImGobi) (p : Progress) : Prop :=
  ∀ t, r = some t → t.qdl.imqdl.chunkSize = imChunkSize ∧ Meaning t p

theorem leaves_none : Leaves none p := fun t ht => absurd ht (Option.some_ne_none t).symm

/-- An action ends with an event. -/
theorem meaning_queueing (ev : ImEvent) (hchunk : t.qdl.imqdl.chunkSize = imChunkSize)
    (hq : t.imicmsgque = []) (hreceived : t.received = false) (htask : t.task = .queueing ev)
    (h : Knows t p ev) : t.qdl.imqdl.chunkSize = imChunkSize ∧ Meaning t p := by
  refine ⟨hchunk, ?_⟩
  simp only [Meaning, htask]
  exact ⟨hq, hreceived, h⟩

theorem leaves_queueing (ev : ImEvent) (hchunk : t.qdl.imqdl.chunkSize = imChunkSize)
    (hq : t.imicmsgque = []) (hreceived : t.received = false) (htask : t.task = .queueing ev)
    (h : Knows t p ev) : Leaves (some t) p := by
  intro t' ht'
  obtain rfl := Option.some.inj ht'
  exact meaning_queueing ev hchunk hq hreceived htask h

/-- A request is handed over. -/
theorem leaves_imGobiTransSendReq {data : List UInt8} {sendpktfn : SendPktFn}
    (hchunk : s.qdl.imqdl.chunkSize = imChunkSize) (hq : s.imicmsgque = [])
    (hreceived : s.received = false) (hpermitted : Permitted Lets p data)
    (hasked : Asked (s.state .smfd) s.qdl (p.send data)) :
    Leaves (some (imGobiTransSendReq data sendpktfn s)) p :=
  leaves_queueing (.trans .txReq) hchunk hq hreceived rfl ⟨hpermitted, hasked⟩

/-- A block is handed over. -/
theorem leaves_wrtGobiQdlImgBlck {sequenceNumber' : UInt16} {offset blockSize : UInt32}
    (hchunk : s.qdl.imqdl.chunkSize = imChunkSize) (hq : s.imicmsgque = [])
    (hreceived : s.received = false) (hstate : s.state .smfd = StSmfd.waitUwrtrsp)
    (hsequence : s.qdl.imqdl.sequenceNumber = sequenceNumber' + 1)
    (hblocks : p.blocks - 1 = s.qdl.imqdl.numwrites) (hopening : Opening s.qdl p)
    (hpermitted : ∀ data, command data = vWriteReq → sequenceNumber data = sequenceNumber' →
      Permitted Lets p data) :
    Leaves (wrtGobiQdlImgBlck sequenceNumber' offset blockSize s) p := by
  intro t ht
  obtain ⟨data, hdata, rfl⟩ := Option.map_eq_some_iff.mp ht
  obtain ⟨hwrite, hnumber⟩ := writePack_fields hdata
  refine leaves_imGobiTransSendReq hchunk hq hreceived (hpermitted data hwrite hnumber) ?_ _ rfl
  rw [hstate, send_write hwrite]
  exact ⟨hwrite, hblocks, by rw [hsequence, ← hnumber], hopening⟩

/-- What the event for a message means. -/
theorem knows_response {psdp : List UInt8} (hasked : Asked (t.state .smfd) t.qdl p)
    (hudata : t.udata .smfd = .message psdp) (hregular : Regular p.request psdp) :
    Knows t (note p (.response psdp))
      (.fwdld (rspEvent .rsprx (command psdp) (t.state .smfd))) := by
  have hheard : command psdp ≠ 0x0d → Heard (t.udata .smfd) (note p (.response psdp)) :=
    fun hnotError => ⟨psdp, hudata, rfl, hregular, hnotError, rfl⟩
  have hnever : t.state .smfd ≠ StSmfd.sendFwimg := by
    intro hstate
    rw [hstate] at hasked
    exact hasked
  rw [rspEvent]
  split_ifs with herror hstate
  · exact permitted_failed rfl (failed_of_error (p := note p (.response psdp)) herror)
  · exact ⟨hstate ▸ hasked, hheard herror⟩
  · rw [Knows, if_neg hnever, if_neg hstate]
    exact ⟨hasked, hheard herror⟩

/-- The message that is found is handed over to the download machine. -/
theorem leaves_imGobiTransRxRsp (h : Stands s p) (hq : s.imicmsgque = [])
    (hreceived : s.received = false) (hasked : Asked (s.state .smfd) s.qdl p)
    (hregular : Regular p.request (messageIn s.hdr s.datapkt.pdata)) :
    Leaves (imGobiTransRxRsp imrxdata w s)
      (note p (.response (messageIn s.hdr s.datapkt.pdata))) := by
  cases imrxdata with
  | null => exact leaves_none
  | message bytes => exact leaves_none
  | datapkt =>
      intro t ht
      obtain ⟨⟨hdr, imsm⟩, hunframed, ht⟩ := Option.bind_eq_some_iff.mp ht
      have hudata : imsm.udata = some (messageIn s.hdr s.datapkt.pdata) :=
        udata_imunframe hregular.1.1 hunframed
      set psdp := messageIn s.hdr s.datapkt.pdata with hpsdp
      simp only [hudata, Option.map_some, Option.getD_some] at ht
      obtain ⟨bytes, hbytes, rfl⟩ := Option.map_eq_some_iff.mp ht
      obtain rfl := Option.some.inj hbytes
      have hcommand : (psdp ++ w.behind).getD 0 0 = command psdp := command_append hregular.1
      refine meaning_queueing (.fwdld (rspEvent .rsprx (command psdp) (s.state .smfd)))
        h.chunkSize hq hreceived ?_ (knows_response hasked rfl hregular)
      exact congrArg (fun command => Task.queueing (.fwdld (rspEvent .rsprx command _))) hcommand

theorem leaves_imGobiSendGetImgPref (hchunk : s.qdl.imqdl.chunkSize = imChunkSize)
    (hq : s.imicmsgque = []) (hreceived : s.received = false)
    (hstate : s.state .smfd = StSmfd.waitFwprefrsp)
    (hasked : Asked StSmfd.waitHellorsp s.qdl p) (hheard : Heard imrxdata p) :
    Leaves (some (imGobiSendGetImgPref imrxdata w s)) p := by
  obtain ⟨hrequest, himages⟩ := hasked
  obtain ⟨psdp, -, hresponse, hregular, hnotError, -⟩ := hheard
  have hcommand : command psdp = vHelloRsp := command_of_heard hregular hnotError hrequest rfl
  have hpositive := positive_of_plain hregular hnotError (hcommand ▸ by decide)
    (hcommand ▸ by decide)
  have hturn : InTurn p imssdpGetImagePreferencePack :=
    inTurn_of_plain (hrequest ▸ by decide) (hrequest ▸ by decide) (hrequest ▸ by decide)
  have hpermitted := permitted_positive hresponse hpositive hturn
  have hsent : Asked StSmfd.waitFwprefrsp s.qdl (p.send imssdpGetImagePreferencePack) :=
    ⟨rfl, himages⟩
  rw [imGobiSendGetImgPref]
  split
  · exact leaves_imGobiTransSendReq hchunk hq hreceived hpermitted (hstate ▸ hsent)
  · exact leaves_imGobiTransSendReq hchunk hq hreceived hpermitted (hstate ▸ hsent)

theorem leaves_imGobiSendFwImg (hchunk : s.qdl.imqdl.chunkSize = imChunkSize)
    (hq : s.imicmsgque = []) (hreceived : s.received = false)
    (hstate : s.state .smfd = StSmfd.sendFwimg)
    (hasked : Asked StSmfd.waitFwprefrsp s.qdl p) (hheard : Heard imrxdata p) :
    Leaves (some (imGobiSendFwImg imrxdata w s)) p := by
  obtain ⟨hrequest, himages⟩ := hasked
  obtain ⟨psdp, -, hresponse, hregular, hnotError, -⟩ := hheard
  have hcommand : command psdp = vCurrentImagePreferenceRsp :=
    command_of_heard hregular hnotError hrequest rfl
  have hpositive := positive_of_plain hregular hnotError (hcommand ▸ by decide)
    (hcommand ▸ by decide)
  have hturn : ∀ data, command data = vOpenReq → InTurn p data := fun data hdata =>
    inTurn_of_plain (hrequest ▸ hdata ▸ by decide) (hrequest ▸ by decide) (hrequest ▸ by decide)
  rw [imGobiSendFwImg]
  by_cases hempty :
      w.imGobiImageListGet (((imrxdata.bytes s w).map imssdpGetImagePreferenceUnpack).getD []) = []
  · refine leaves_queueing (.fwdld .error) hchunk hq hreceived ?_ ?_
    · exact congrArg (fun ev => Task.queueing (.fwdld ev)) (if_pos hempty)
    · exact permitted_failed hresponse (.inl hrequest)
  · refine leaves_queueing (.fwdld .rsprx) hchunk hq hreceived ?_ ?_
    · exact congrArg (fun ev => Task.queueing (.fwdld ev)) (if_neg hempty)
    · rw [Knows, if_pos hstate]
      exact ⟨fun data hdata => permitted_positive hresponse hpositive (hturn data hdata), himages,
        List.length_pos_iff.mpr hempty⟩

theorem leaves_imGobiSendOUfPkt (hchunk : s.qdl.imqdl.chunkSize = imChunkSize)
    (hq : s.imicmsgque = []) (hreceived : s.received = false)
    (hstate : s.state .smfd = StSmfd.waitOpenunf) (hdue : OpenDue s.qdl p) :
    Leaves (imGobiSendOUfPkt s) p := by
  obtain ⟨hpermitted, himages, hlt⟩ := hdue
  rw [imGobiSendOUfPkt]
  split_ifs
  · exact leaves_none
  · intro t ht
    obtain ⟨file, -, rfl⟩ := Option.map_eq_some_iff.mp ht
    refine leaves_imGobiTransSendReq ?_ ?_ ?_ (hpermitted _ rfl) ?_ _ rfl
    · exact hchunk
    · exact hq
    · exact hreceived
    · rw [send_open]
      change Asked (s.state .smfd) _ _
      rw [hstate]
      exact ⟨rfl, rfl, congrArg (· + 1) himages, hlt⟩

theorem leaves_imGobiSendDone (hchunk : s.qdl.imqdl.chunkSize = imChunkSize)
    (hq : s.imicmsgque = []) (hreceived : s.received = false)
    (hstate : s.state .smfd = StSmfd.waitDonersp) (hdue : DoneDue s.qdl p) :
    Leaves (some (imGobiSendDone s)) p := by
  obtain ⟨hpermitted, himages⟩ := hdue
  have hsent : Asked StSmfd.waitDonersp s.qdl (p.send imssdpDonePack) := ⟨rfl, himages⟩
  exact leaves_imGobiTransSendReq hchunk hq hreceived hpermitted (hstate ▸ hsent)

/-- The next image is opened, or the download is finished. -/
theorem knows_nextImage (hopen : ∀ data, command data = vOpenReq → Permitted Lets p data)
    (hdone : Permitted Lets p imssdpDonePack) (hopening : Opening s.qdl p)
    (himages : t.qdl.gobimgs2dwld = s.qdl.gobimgs2dwld)
    (hidx : t.qdl.nextimageidx = s.qdl.nextimageidx + 1)
    (hstate : t.state .smfd = if s.qdl.nextimageidx + 1 < s.qdl.gobimgs2dwld.length then
      StSmfd.sendFwimg else StSmfd.waitUwrtrsp) : Knows t p (.fwdld .rsprx) := by
  obtain ⟨hcount, hlt⟩ := hopening
  rw [Knows, hstate]
  by_cases hmore : s.qdl.nextimageidx + 1 < s.qdl.gobimgs2dwld.length
  · rw [if_pos hmore, if_pos rfl]
    exact ⟨hopen, hcount.trans hidx.symm, by rw [hidx, himages]; exact hmore⟩
  · have hother : StSmfd.waitUwrtrsp ≠ StSmfd.sendFwimg := by decide
    rw [if_neg hmore, if_neg hother, if_pos rfl]
    exact ⟨hdone, by rw [himages, hcount]; omega⟩

theorem leaves_imGobiSendUfWrite (hchunk : s.qdl.imqdl.chunkSize = imChunkSize)
    (hq : s.imicmsgque = []) (hreceived : s.received = false)
    (hstate : s.state .smfd = StSmfd.waitUwrtrsp)
    (hasked : Asked StSmfd.waitOpenunf s.qdl p) (hheard : Heard imrxdata p) :
    Leaves (imGobiSendUfWrite imrxdata w s) p := by
  obtain ⟨hrequest, hblocks, hopening⟩ := hasked
  obtain ⟨psdp, rfl, hresponse, hregular, hnotError, -⟩ := hheard
  have hcommand : command psdp = vOpenRsp := command_of_heard hregular hnotError hrequest rfl
  have hstatus : openStatus psdp = (piget16 psdp 1).toUInt32 := rfl
  intro t ht
  obtain ⟨bytes, hbytes, ht⟩ := Option.bind_eq_some_iff.mp ht
  obtain rfl := Option.some.inj hbytes
  rw [prepareQDLImageWrite_open hregular.1 hcommand, Option.bind_some, ← hstatus] at ht
  split_ifs at ht with hok hskip hmapped
  · -- the device does not require the image
    obtain rfl := Option.some.inj ht
    have hskipped : NotRequired p.request psdp := ⟨hrequest, hcommand, hskip⟩
    have hopen : ∀ data, command data = vOpenReq → Permitted Lets p data := fun data hdata =>
      .inr ⟨psdp, hresponse, .inr (.inl ⟨hskipped, .inl hdata⟩)⟩
    have hdone : Permitted Lets p imssdpDonePack :=
      .inr ⟨psdp, hresponse, .inr (.inl ⟨hskipped, .inr rfl⟩)⟩
    refine meaning_queueing (.fwdld .rsprx) hchunk hq hreceived rfl ?_
    exact knows_nextImage hopen hdone hopening rfl rfl rfl
  · obtain rfl := Option.some.inj ht
    refine meaning_queueing (.fwdld .error) hchunk hq hreceived rfl ?_
    refine permitted_failed hresponse (.inr ⟨?_, ?_⟩)
    · rintro ⟨-, -, hpositive, -⟩
      exact hok (hpositive hcommand)
    · rintro ⟨-, -, hrequired⟩
      exact hskip hrequired
  · have hpositive : Positive p.request psdp :=
      ⟨hregular.1, by rw [hrequest, hcommand]; rfl, fun _ => not_not.mp hok,
        fun h => absurd (hcommand.symm.trans h) (by decide)⟩
    have hpermitted : ∀ data, command data = vWriteReq → sequenceNumber data = 0 →
        Permitted Lets p data := fun data hwrite hnumber =>
      permitted_positive hresponse hpositive
        ⟨hrequest ▸ hwrite ▸ by decide, fun _ => hnumber,
          fun h => absurd (hrequest.symm.trans h) (by decide)⟩
    have hleft : p.blocks - 1 =
        (firstBlock (splitImage s.qdl.imqdl s.qdl.imqdl.fwImageSize) 0).1.numwrites := by
      rw [hblocks, ← Cwe.numwrites_splitImage hchunk]
      rfl
    rw [writeFirst] at ht
    refine leaves_wrtGobiQdlImgBlck ?_ ?_ ?_ ?_ ?_ ?_ ?_ hpermitted t ht
    · exact hchunk
    · exact hq
    · exact hreceived
    · exact hstate
    · rfl
    · exact hleft
    · exact hopening

theorem leaves_imGobiSendNextUfWrite (hchunk : s.qdl.imqdl.chunkSize = imChunkSize)
    (hq : s.imicmsgque = []) (hreceived : s.received = false)
    (hstate : s.state .smfd = StSmfd.waitUwrtrsp)
    (hasked : Asked StSmfd.waitUwrtrsp s.qdl p) (hheard : Heard imrxdata p) :
    Leaves (imGobiSendNextUfWrite imrxdata w s) p := by
  obtain ⟨hrequest, hblocks, hsequence, hopening⟩ := hasked
  obtain ⟨psdp, rfl, hresponse, hregular, hnotError, -⟩ := hheard
  have hcommand : command psdp = vWriteRsp := command_of_heard hregular hnotError hrequest rfl
  have hread : (imssdpUnframedWriteUnpack (psdp ++ w.behind)).status = writeStatus psdp :=
    status_write hregular.1 hcommand
  have hpositive : ¬ writeStatus psdp ≠ ssdpUnframedWriteDataReceivedOk →
      Positive p.request psdp := fun hstatus =>
    ⟨hregular.1, by rw [hrequest, hcommand]; rfl,
      fun h => absurd (hcommand.symm.trans h) (by decide),
      fun _ => ⟨hregular.2.2 hcommand, not_not.mp hstatus⟩⟩
  intro t ht
  change (if (imssdpUnframedWriteUnpack (psdp ++ w.behind)).status ≠
      ssdpUnframedWriteDataReceivedOk then _ else _) = some t at ht
  rw [hread] at ht
  split_ifs at ht with hstatus hnone hmapped
  · obtain rfl := Option.some.inj ht
    refine meaning_queueing (.fwdld .error) hchunk hq hreceived rfl ?_
    refine permitted_failed hresponse (.inr ⟨?_, ?_⟩)
    · rintro ⟨-, -, -, hpositive⟩
      exact hstatus (hpositive hcommand).2
    · rintro ⟨hopen, -, -⟩
      exact absurd (hrequest.symm.trans hopen) (by decide)
  · -- the image is finished
    obtain rfl := Option.some.inj ht
    have hpositive := hpositive hstatus
    have hturn : ∀ data, command data ≠ vWriteReq → (vWriteReq, command data) ∈ succession →
        InTurn p data := fun data hwrite hnext =>
      ⟨hrequest ▸ hnext, fun h => absurd (hrequest.symm.trans h) (by decide), fun _ =>
        ⟨⟨fun h => absurd h hwrite, fun h => absurd (hblocks.trans hnone) h⟩,
          fun h => absurd h hwrite⟩⟩
    have hopen : ∀ data, command data = vOpenReq → Permitted Lets p data := fun data hdata =>
      permitted_positive hresponse hpositive
        (hturn data (hdata ▸ by decide) (hdata ▸ by decide))
    have hdone : Permitted Lets p imssdpDonePack :=
      permitted_positive hresponse hpositive (hturn _ (by decide) (by decide))
    refine meaning_queueing (.fwdld .rsprx) hchunk hq hreceived rfl ?_
    refine knows_nextImage hopen hdone hopening rfl rfl ?_
    change (if s.qdl.nextimageidx + 1 < s.qdl.gobimgs2dwld.length then
      Function.update s.state .smfd StSmfd.sendFwimg else s.state) .smfd = _
    split_ifs
    · rfl
    · exact hstate
  · have hpositive := hpositive hstatus
    have hpermitted : ∀ data, command data = vWriteReq →
        sequenceNumber data = s.qdl.imqdl.sequenceNumber → Permitted Lets p data :=
      fun data hwrite hnumber => permitted_positive hresponse hpositive
        ⟨by rw [hrequest, hwrite]; decide, fun h => absurd (hrequest.symm.trans h) (by decide),
          fun _ => ⟨⟨fun _ h => hnone (hblocks.symm.trans h), fun _ => hwrite⟩,
            fun _ => hnumber.trans hsequence⟩⟩
    have hleft : p.blocks - 1 = (nextBlock s.qdl.imqdl).1.numwrites := by
      rw [hblocks]
      rfl
    rw [writeNext] at ht
    refine leaves_wrtGobiQdlImgBlck ?_ ?_ ?_ ?_ ?_ ?_ ?_ hpermitted t ht
    · exact hchunk
    · exact hq
    · exact hreceived
    · exact hstate
    · rfl
    · exact hleft
    · exact hopening

/-- The events are in order, and the task is left where they lead to. -/
def Serves (p : Progress) (r : Option ImGobi) (events : List Event) : Prop :=
  Along note (Allowed Lets) p events ∧ Leaves r (events.foldl note p)

theorem serves_of_leaves {r : Option ImGobi} (h : Leaves r p) : Serves p r [] := ⟨trivial, h⟩

/-- The task is told that the download has ended. -/
theorem leaves_imGobiTaskRspCbk {ev : ImtEvent} (hev : ev ≠ .dldStart)
    (hchunk : s.qdl.imqdl.chunkSize = imChunkSize) (hq : s.imicmsgque = [])
    (hreceived : s.received = false) : Leaves (some (imGobiTaskRspCbk ev s)) p := by
  refine leaves_queueing (.task ev) hchunk hq hreceived rfl ?_
  cases ev with
  | dldStart => exact absurd rfl hev
  | dldComp => trivial
  | dldFail => trivial

theorem serves_imGobiSendDoneFinal (hchunk : s.qdl.imqdl.chunkSize = imChunkSize)
    (hq : s.imicmsgque = []) (hreceived : s.received = false)
    (hasked : Asked StSmfd.waitDonersp s.qdl p) (hheard : Heard imrxdata p) :
    Serves p (imGobiSendDoneFinal imrxdata w s).1
      ((imGobiSendDoneFinal imrxdata w s).2.map Output.event) := by
  obtain ⟨hrequest, -⟩ := hasked
  obtain ⟨psdp, rfl, hresponse, hregular, hnotError, hsucceeded⟩ := hheard
  have hcommand : command psdp = vDoneRsp := command_of_heard hregular hnotError hrequest rfl
  have hpositive := positive_of_plain hregular hnotError (hcommand ▸ by decide)
    (hcommand ▸ by decide)
  have hturn : InTurn p imssdpDonefinalPack :=
    inTurn_of_plain (hrequest ▸ by decide) (hrequest ▸ by decide) (hrequest ▸ by decide)
  have hpermitted := permitted_positive hresponse hpositive hturn
  have hstatus : ((Udata.message psdp).bytes s w).bind (fun psdp => validateQDLImages psdp w.stack) =
      some (piget16 psdp 1 == ssdpDoneSuccess) := validateQDLImages_done hregular.1 hcommand w.stack
  rw [imGobiSendDoneFinal, hstatus]
  cases hsuccess : piget16 psdp 1 == ssdpDoneSuccess with
  | false =>
      refine ⟨⟨hpermitted, fun h => absurd h (by decide), trivial⟩, ?_⟩
      exact leaves_imGobiTaskRspCbk ImtEvent.noConfusion hchunk hq hreceived
  | true =>
      refine ⟨⟨hpermitted, fun _ => ?_, trivial⟩, ?_⟩
      · exact hsucceeded.trans (decide_eq_true ⟨hrequest, hpositive, eq_of_beq hsuccess⟩)
      · exact leaves_imGobiTaskRspCbk ImtEvent.noConfusion hchunk hq hreceived

/-- An action that is called where it means what it should. -/
theorem serves_call {action : Action} (h : Stands s p) (htask : s.task = .acting action imrxdata)
    (hanswered : Along note (Answered Regular) p (handled s (.act w))) :
    Serves p (call imrxdata w s action).1
      (handled s (.act w) ++ (call imrxdata w s action).2.map Output.event) := by
  have hcalls := h.inv
  have hmeaning := h.meaning
  simp only [Inv, htask] at hcalls
  simp only [Meaning, htask] at hmeaning
  simp only [handled, htask] at hanswered ⊢
  obtain ⟨hstate, -⟩ := hcalls
  obtain ⟨hq, hreceived, hmeans⟩ := hmeaning
  have hchunk := h.chunkSize
  cases action with
  | imGobiTransTxReq =>
      obtain ⟨hpermitted, hasked⟩ := hmeans
      cases imrxdata with
      | null => exact serves_of_leaves leaves_none
      | message bytes => exact serves_of_leaves leaves_none
      | datapkt =>
          refine ⟨⟨hpermitted, trivial⟩, ?_⟩
          intro t ht
          obtain rfl := Option.some.inj ht
          exact ⟨hchunk, .inl ⟨hq, hasked⟩⟩
  | imGobiTransRxRsp =>
      obtain ⟨hregular, -⟩ := hanswered
      exact ⟨⟨trivial, trivial⟩, leaves_imGobiTransRxRsp h hq hreceived hmeans hregular⟩
  | imerror => exact hmeans.elim
  | imGobiSendHello =>
      obtain ⟨-, -, hsmfd, -⟩ := hstate
      change p = .none at hmeans
      subst hmeans
      have hsent : Asked StSmfd.waitHellorsp s.qdl (Progress.none.send imssdpHelloPack) :=
        ⟨rfl, rfl⟩
      exact serves_of_leaves (leaves_imGobiTransSendReq hchunk hq hreceived
        (.inl ⟨rfl, .inr rfl⟩) (hsmfd ▸ hsent))
  | imGobiSendGetImgPref =>
      exact serves_of_leaves
        (leaves_imGobiSendGetImgPref hchunk hq hreceived hstate.2.2.1 hmeans.1 hmeans.2)
  | imGobiSendFwImg =>
      exact serves_of_leaves
        (leaves_imGobiSendFwImg hchunk hq hreceived hstate.2.2.1 hmeans.1 hmeans.2)
  | imGobiSendOUfPkt =>
      exact serves_of_leaves (leaves_imGobiSendOUfPkt hchunk hq hreceived hstate.2.2.1 hmeans)
  | imGobiSendUfWrite =>
      exact serves_of_leaves
        (leaves_imGobiSendUfWrite hchunk hq hreceived hstate.2.2.1 hmeans.1 hmeans.2)
  | imGobiSendDone =>
      exact serves_of_leaves (leaves_imGobiSendDone hchunk hq hreceived hstate.2.2.1 hmeans)
  | imGobiSendNextUfWrite =>
      exact serves_of_leaves
        (leaves_imGobiSendNextUfWrite hchunk hq hreceived hstate.2.2.1 hmeans.1 hmeans.2)
  | imGobiSendDoneFinal =>
      exact serves_imGobiSendDoneFinal hchunk hq hreceived hmeans.1 hmeans.2
  | imGobiFwDldError =>
      refine ⟨⟨hmeans, trivial⟩, ?_⟩
      exact leaves_imGobiTaskRspCbk ImtEvent.noConfusion hchunk hq hreceived
  | imGobiFwDldStart =>
      exact serves_of_leaves (leaves_queueing (.fwdld .start) hchunk hq hreceived rfl hmeans)
  | imGobiTaskShutdown =>
      refine serves_of_leaves fun t ht => ?_
      obtain rfl := Option.some.inj ht
      exact ⟨hchunk, trivial⟩

end Actions

/-! ### Runs -/

section Runs

variable {s t : ImGobi} {p : Progress}

theorem meaning_waiting (htask : t.task = .waiting)
    (h : (t.imicmsgque = [] ∧ Asked (t.state .smfd) t.qdl p) ∨
      ∃ ev, t.imicmsgque = [ev] ∧ t.received = false ∧ Knows t p ev) : Meaning t p := by
  simp only [Meaning, htask]
  exact h

theorem meaning_terminated (htask : t.task = .terminated) : Meaning t p := by
  simp only [Meaning, htask]

/-- A frame is stored while the task waits for it. -/
theorem stands_store {imbuf : List UInt8} (h : Stands s p)
    (hsolicited : Solicited (some s) (.store imbuf))
    (ht : (move s (.store imbuf)).1 = some t) : Meaning t p := by
  have hmeaning := h.meaning
  obtain rfl := Option.some.inj ht
  rcases hsolicited with htask | ⟨htask, -, -, hq, -⟩
  · refine meaning_terminated ?_
    split_ifs
    · exact htask
    · exact htask
  · simp only [Meaning, htask] at hmeaning
    rcases hmeaning with ⟨-, hasked⟩ | ⟨ev, hev, -⟩
    · split_ifs
      · exact meaning_waiting htask (.inl ⟨hq, hasked⟩)
      · exact meaning_waiting htask (.inl ⟨hq, hasked⟩)
    · exact absurd (hq.symm.trans hev) (List.cons_ne_nil ev []).symm

/-- The event of a stored frame is queued. -/
theorem stands_notify (h : Stands s p) (ht : (move s .notify).1 = some t) : Meaning t p := by
  have hmeaning := h.meaning
  change (if s.received then _ else _) = some t at ht
  split_ifs at ht with hreceived
  · obtain rfl := imGobiQevt_some ht
    have hnot : s.received ≠ false := fun hfalse => Bool.noConfusion (hreceived.symm.trans hfalse)
    cases htask : s.task with
    | waiting =>
        simp only [Meaning, htask] at hmeaning
        rcases hmeaning with ⟨hq, hasked⟩ | ⟨ev, -, hfalse, -⟩
        · refine meaning_waiting rfl (.inr ⟨.trans .rxRsp, ?_, rfl, hasked⟩)
          exact congrArg (· ++ [ImEvent.trans .rxRsp]) hq
        · exact absurd hfalse hnot
    | acting action imrxdata =>
        simp only [Meaning, htask] at hmeaning
        exact absurd hmeaning.2.1 hnot
    | queueing ev =>
        simp only [Meaning, htask] at hmeaning
        exact absurd hmeaning.2.1 hnot
    | terminated => exact meaning_terminated rfl
  · exact Option.some.inj ht ▸ hmeaning

/-- Frames are stored when they are waited for, so that none is in the way of an action that hands
over. -/
theorem timely_of_stands {m : Move} (h : Stands s p) : Timely (some s) m := by
  have hmeaning := h.meaning
  cases m with
  | store imbuf => trivial
  | take => trivial
  | queue => trivial
  | notify =>
      intro hreceived ev htask
      simp only [Meaning, htask] at hmeaning
      exact absurd hmeaning.2.1 (ne_of_eq_of_ne hreceived (by decide))
  | act w =>
      intro action imrxdata htask _
      simp only [Meaning, htask] at hmeaning
      exact hmeaning.1

/-- A move that does nothing for the device. -/
theorem stands_quiet {m : Move} (h : Stands s p) (hhandled : handled s m = []) (hout : (move s m).2 = [])
    (hmeaning : ∀ t, (move s m).1 = some t → t.qdl = s.qdl ∧ Meaning t p) :
    Along note (Allowed Lets) p (traced (some s) m).2 ∧
      StandsAt (traced (some s) m).1 ((traced (some s) m).2.foldl note p) := by
  simp only [traced, hhandled, hout, List.map_nil, List.append_nil]
  refine ⟨trivial, fun t ht => ?_⟩
  obtain ⟨hqdl, hmeans⟩ := hmeaning t ht
  exact ⟨inv_move h.inv (timely_of_stands h) ht, hqdl ▸ h.chunkSize, hmeans⟩

/-- A move with a regular message leads to what is in order. -/
theorem stands_traced {s : Option ImGobi} {m : Move} (hs : StandsAt s p)
    (hsolicited : Solicited s m) (h : Along note (Answered Regular) p (traced s m).2) :
    Along note (Allowed Lets) p (traced s m).2 ∧
      StandsAt (traced s m).1 ((traced s m).2.foldl note p) := by
  cases s with
  | none => exact ⟨trivial, hs⟩
  | some s =>
      have hstands := hs s rfl
      cases m with
      | store imbuf =>
          refine stands_quiet hstands rfl rfl fun t ht => ⟨?_, ?_⟩
          · obtain rfl := Option.some.inj ht
            split_ifs <;> rfl
          · exact stands_store hstands hsolicited ht
      | notify =>
          refine stands_quiet hstands rfl rfl fun t ht =>
            ⟨?_, stands_notify hstands ht⟩
          change (if s.received then _ else _) = some t at ht
          split_ifs at ht
          · obtain rfl := imGobiQevt_some ht
            rfl
          · exact Option.some.inj ht ▸ rfl
      | take =>
          have hout : (move s .take).2 = [] := by
            simp only [move]
            split <;> rfl
          refine stands_quiet hstands rfl hout fun t ht => ?_
          simp only [move] at ht
          split at ht
          · rename_i ev rest htask hq
            have htaken := stands_imgobitask hstands htask hq ht
            obtain ⟨r, -, rfl⟩ := Option.map_eq_some_iff.mp ht
            exact ⟨rfl, htaken.meaning⟩
          · exact Option.some.inj ht ▸ ⟨rfl, hstands.meaning⟩
      | act w =>
          have hmoved : ∀ t, (move s (.act w)).1 = some t → Inv t := fun t ht =>
            inv_move hstands.inv (timely_of_stands hstands) ht
          simp only [traced] at h ⊢
          obtain ⟨hanswered, -⟩ := along_append.mp h
          cases htask : s.task with
          | acting action imrxdata =>
              have hserves := serves_call (w := w) hstands htask hanswered
              simp only [move, htask] at hmoved ⊢
              refine ⟨hserves.1, fun t ht => ?_⟩
              obtain ⟨hchunk, hmeaning⟩ := hserves.2 t ht
              exact ⟨hmoved t ht, hchunk, hmeaning⟩
          | waiting =>
              simp only [move, handled, htask]
              exact ⟨trivial, hs⟩
          | queueing ev =>
              simp only [move, handled, htask]
              exact ⟨trivial, hs⟩
          | terminated =>
              simp only [move, handled, htask]
              exact ⟨trivial, hs⟩
      | queue =>
          have hout : (move s .queue).2 = [] := by
            simp only [move]
            split <;> rfl
          refine stands_quiet hstands rfl hout fun t ht => ?_
          have hmeaning := hstands.meaning
          simp only [move] at ht
          split at ht
          · rename_i ev htask
            simp only [Meaning, htask] at hmeaning
            obtain ⟨hq, hreceived, hknows⟩ := hmeaning
            obtain rfl := imGobiQevt_some ht
            refine ⟨rfl, meaning_waiting rfl (.inr ⟨ev, ?_, hreceived, hknows⟩)⟩
            exact congrArg (· ++ [ev]) hq
          · exact Option.some.inj ht ▸ ⟨rfl, hmeaning⟩

/-- The action that records the status. -/
theorem recorded_call {imrxdata : Udata} {w : World} {action : Action} {success : Bool}
    (h : .recorded success ∈ (call imrxdata w s action).2.map Output.event) :
    action = .imGobiSendDoneFinal := by
  cases action with
  | imGobiSendDoneFinal => rfl
  | imGobiTransTxReq =>
      cases imrxdata <;> simp [call, imGobiTransTxReq, Output.event] at h
  | imGobiFwDldError => simp [call, imGobiFwDldError, closeQDLPort, Output.event] at h
  | _ => simp [call] at h

/-- A success is recorded when all images have been opened. -/
theorem images_of_recorded {m : Move} {success : Bool} (h : Stands s p)
    (hrecorded : .recorded success ∈ (traced (some s) m).2) :
    p.images = s.qdl.gobimgs2dwld.length := by
  have hmeaning := h.meaning
  cases m with
  | store imbuf => exact absurd hrecorded List.not_mem_nil
  | notify => exact absurd hrecorded List.not_mem_nil
  | take =>
      simp only [traced, move, handled] at hrecorded
      split at hrecorded
      · exact absurd hrecorded List.not_mem_nil
      · exact absurd hrecorded List.not_mem_nil
  | queue =>
      simp only [traced, move, handled] at hrecorded
      split at hrecorded
      · exact absurd hrecorded List.not_mem_nil
      · exact absurd hrecorded List.not_mem_nil
  | act w =>
      cases htask : s.task with
      | waiting =>
          simp only [traced, move, handled, htask] at hrecorded
          exact absurd hrecorded List.not_mem_nil
      | queueing ev =>
          simp only [traced, move, handled, htask] at hrecorded
          exact absurd hrecorded List.not_mem_nil
      | terminated =>
          simp only [traced, move, handled, htask] at hrecorded
          exact absurd hrecorded List.not_mem_nil
      | acting action imrxdata =>
          simp only [traced, move, handled, htask] at hrecorded
          simp only [Meaning, htask] at hmeaning
          have hcalled : .recorded success ∈ (call imrxdata w s action).2.map Output.event := by
            rcases List.mem_append.mp hrecorded with hmem | hmem
            · split at hmem <;> simp at hmem
            · exact hmem
          obtain rfl := recorded_call hcalled
          exact hmeaning.2.2.1.2

theorem stands_start (datapkt : ImDatapkt) (hdr : HdRxCtlBk) (qdl : GobiQdl) :
    StandsAt (some (start datapkt hdr qdl)) .none := by
  intro t ht
  obtain rfl := Option.some.inj ht
  refine ⟨inv_start datapkt hdr qdl, rfl, ?_⟩
  exact meaning_waiting rfl (.inr ⟨.task .dldStart, rfl, rfl, rfl⟩)

/-- A download with regular messages, each in answer to a request, is in order, and a success is
recorded only when all images have been opened. -/
theorem inOrder_of_regular (datapkt : ImDatapkt) (hdr : HdRxCtlBk) (qdl : GobiQdl)
    (moves : List Move)
    (hsolicited : Machine.Meets traced Solicited (some (start datapkt hdr qdl)) moves)
    (h : Along note (Answered Regular) .none (trace datapkt hdr qdl moves)) :
    InOrder Lets (trace datapkt hdr qdl moves) ∧
      ∀ pre m post, moves = pre ++ m :: post →
        .recorded true ∈
          (traced (Machine.after traced (some (start datapkt hdr qdl)) pre) m).2 →
        ∃ s, Machine.after traced (some (start datapkt hdr qdl)) pre = some s ∧
          ((trace datapkt hdr qdl pre).foldl note .none).images =
            s.qdl.gobimgs2dwld.length := by
  have hstep : ∀ (s : Option ImGobi) (m : Move) (p : Progress), StandsAt s p → Solicited s m →
      Along note (Answered Regular) p (traced s m).2 →
      Along note (Allowed Lets) p (traced s m).2 ∧
        StandsAt (traced s m).1 ((traced s m).2.foldl note p) :=
    fun s m p hs hsol => stands_traced hs hsol
  have hstart := stands_start datapkt hdr qdl
  refine ⟨(along_run hstep hstart hsolicited h).1, ?_⟩
  rintro pre m post rfl hrecorded
  rw [trace, Machine.outputs_append, along_append] at h
  obtain ⟨-, hstands⟩ := along_run hstep hstart (Machine.meets_append.mp hsolicited).1 h.1
  cases hafter : Machine.after traced (some (start datapkt hdr qdl)) pre with
  | none =>
      rw [hafter] at hrecorded
      exact absurd hrecorded List.not_mem_nil
  | some s =>
      rw [hafter] at hrecorded
      exact ⟨s, rfl, images_of_recorded (hstands s hafter) hrecorded⟩

end Runs

/-! ### Both tasks -/

/-- Where the messages of the device are regular, the downloads of both tasks are in order: a
request is sent on the positive response to the one before it, apart from the answers to the first
two requests of the CWE task and from images that are not required and failed downloads of the Gobi
task; and a success is recorded only if the device has reported it for images that have all been
sent, block by block. -/
theorem downloads_inOrder (hdr : HdRxCtlBk) (udata : List UInt8) (cwe : Cwe.CweQdl)
    (frames : List (List UInt8 × Cwe.World))
    (hcwe : Along note (Answered Cwe.Regular) .none (Cwe.trace hdr udata cwe frames))
    (datapkt : ImDatapkt) (hdr' : HdRxCtlBk) (gobi : GobiQdl) (moves : List Move)
    (hsolicited : Machine.Meets traced Solicited (some (start datapkt hdr' gobi)) moves)
    (hgobi : Along note (Answered Regular) .none (trace datapkt hdr' gobi moves)) :
    (InOrder Cwe.Lets (Cwe.trace hdr udata cwe frames) ∧
        ∀ pre i post, frames = pre ++ i :: post →
          .recorded true ∈
            (Cwe.traced (Machine.after Cwe.traced (some (Cwe.start hdr udata cwe)) pre) i).2 →
          Cwe.NoneLeft (Machine.after Cwe.traced (some (Cwe.start hdr udata cwe)) pre)) ∧
      (InOrder Lets (trace datapkt hdr' gobi moves) ∧
        ∀ pre m post, moves = pre ++ m :: post →
          .recorded true ∈
            (traced (Machine.after traced (some (start datapkt hdr' gobi)) pre) m).2 →
          ∃ s, Machine.after traced (some (start datapkt hdr' gobi)) pre = some s ∧
            ((trace datapkt hdr' gobi pre).foldl note .none).images =
              s.qdl.gobimgs2dwld.length) :=
  ⟨Cwe.inOrder_of_regular hdr udata cwe frames hcwe,
    inOrder_of_regular datapkt hdr' gobi moves hsolicited hgobi⟩

/-- The device answers the first request of either task. -/
theorem downloads_inOrder_hello :
    InOrder Cwe.Lets (Cwe.trace hdrxreset [] Cwe.fresh [(helloFrame, Cwe.emptyWorld)]) ∧
      InOrder Lets (trace noPkt hdrxreset noImages
        (helloSent ++ [.store helloFrame, .notify, .take, .act emptyWorld])) := by
  have hcwe : Cwe.trace hdrxreset [] Cwe.fresh [(helloFrame, Cwe.emptyWorld)] =
      [.request [vDloadToSdpReq, 0, 0], .response [0x02, 0x31, 0x32],
        .request imssdpHelloPack] := by
    decide
  have hgobi : trace noPkt hdrxreset noImages
      (helloSent ++ [.store helloFrame, .notify, .take, .act emptyWorld]) =
      [.request imssdpHelloPack, .response [0x02, 0x31, 0x32]] := by
    decide
  have horder := downloads_inOrder hdrxreset [] Cwe.fresh [(helloFrame, Cwe.emptyWorld)] ?_
    noPkt hdrxreset noImages (helloSent ++ [.store helloFrame, .notify, .take, .act emptyWorld])
    ?_ ?_
  · exact ⟨horder.1.1, horder.2.1⟩
  · rw [hcwe]
    exact ⟨trivial, ⟨by decide, by decide, by decide, by decide⟩, trivial, trivial⟩
  · refine ⟨trivial, trivial, trivial, trivial, trivial, trivial, trivial, trivial, ?_, trivial,
      trivial, trivial, trivial⟩
    exact .inr ⟨rfl, rfl, rfl, rfl, rfl⟩
  · rw [hgobi]
    exact ⟨trivial, ⟨by decide, by decide, by decide⟩, trivial⟩

/-- An error is answered to the hello request. -/
def errorFrame : List UInt8 := [0x7e, 0x0d, 0x31, 0x32, 0x7e]

/-- The request that closes the download is sent on an error. -/
theorem not_inOrder_error :
    ¬ ∀ (hdr : HdRxCtlBk) (udata : List UInt8) (cwe : Cwe.CweQdl)
      (frames : List (List UInt8 × Cwe.World)) (datapkt : ImDatapkt) (hdr' : HdRxCtlBk)
      (gobi : GobiQdl) (moves : List Move),
      InOrder DownloadOrder.Lets (Cwe.trace hdr udata cwe frames) ∧
        InOrder DownloadOrder.Lets (trace datapkt hdr' gobi moves) := by
  intro hall
  obtain ⟨-, horder⟩ := hall hdrxreset [] Cwe.fresh [] noPkt hdrxreset noImages
    (helloSent ++ [.store errorFrame, .notify, .take, .act emptyWorld, .queue, .take,
      .act emptyWorld])
  have htrace : trace noPkt hdrxreset noImages
      (helloSent ++ [.store errorFrame, .notify, .take, .act emptyWorld, .queue, .take,
        .act emptyWorld]) =
      [.request imssdpHelloPack, .response [0x0d, 0x31, 0x32], .request imssdpDonefinalPack] := by
    decide
  rw [htrace] at horder
  obtain ⟨-, -, hclosed, -⟩ := horder
  rcases hclosed with ⟨hfirst, -⟩ | ⟨psdp, hpsdp, hpositive, -⟩
  · exact absurd hfirst (List.cons_ne_nil _ _)
  · obtain rfl := Option.some.inj hpsdp
    exact absurd hpositive (by decide)

end Gobi

end Im

end SierraSdk
