import Mathlib.Tactic.IntervalCases
import SierraSdk.Im.Cwe
import SierraSdk.Im.DownloadOrder

/-!
# The order of a download in the CWE task

The transition table lets a response through only in the state in which the task waits for it, so
that a response of another kind does nothing. Of the response itself, only the status of an open
response is looked at: the sequence number and the status of a write response are not, and the
command bytes of some requests are taken for those of their responses.

Where messages are responses of the protocol, and those to an open and to a write request are for
the request that was sent last, the latter positive (`Regular`), the download is in order
(`inOrder_of_regular`). An error counts as the answer to the first two requests.
-/

namespace SierraSdk

namespace Im

namespace Cwe

open Am (piget16)
open DownloadOrder
open Hd (HdRxCtlBk)
open Machine (Along along_append along_run)
open Sm (SmT smrun)

/-! ### What is seen of a run -/

/-- What is seen of an output. -/
def Output.event : Output → Option Event
  | .sent _ data => some (.request data)
  | .qmSetFwDownloadStatus status => some (.recorded (status = 0))
  | .erAbort => none

/-- The message of a frame, and what the task does. -/
def traced : Option ImCwe → List UInt8 × World → Option ImCwe × List Event
  | none, _ => (none, [])
  | some s, (frame, w) =>
      if s.terminated then (some s, [])
      else
        ((step (some s) (frame, w)).1,
          .response (messageIn s.hdr frame) :: (step (some s) (frame, w)).2.filterMap Output.event)

/-- What is seen of a download, from the request to switch to the download protocol on. -/
def trace (hdr : HdRxCtlBk) (udata : List UInt8) (qdl : CweQdl)
    (frames : List (List UInt8 × World)) : List Event :=
  imdloadtosdp.filterMap Output.event ++
    Machine.outputs traced (some (start hdr udata qdl)) frames

/-- The responses of the protocol. -/
def responses : List UInt8 := [vHelloRsp, vOpenRsp, vWriteRsp, vDoneRsp, vErrorPacketRsp]

/-- The message is whole, it is a response of the protocol, and the response to an open or to a
write request is one to the last request, to a write request the positive one. -/
def Regular (request psdp : List UInt8) : Prop :=
  Whole psdp ∧ command psdp ∈ responses ∧
    (command psdp = vOpenRsp → command request = vOpenReq) ∧
    (command psdp = vWriteRsp → Positive request psdp)

/-- The message lets a request through, where an error counts as the answer to the first two. -/
def Lets (p : Progress) (psdp data : List UInt8) : Prop :=
  (Positive p.request psdp ∨
      (command p.request = vDloadToSdpReq ∨ command p.request = vHelloReq) ∧
        command psdp = vErrorPacketRsp) ∧
    InTurn p data

/-- No image is left to be sent. -/
def NoneLeft (s : Option ImCwe) : Prop :=
  ∃ t, s = some t ∧ (t.qdl.isMDM9x15 = true → t.qdl.imgMask = 0)

/-! ### Steps -/

/-- The transition and the action for an event of a regular message. -/
def reaction (state ev : ℕ) : Option (ℕ × Action) :=
  if state = StIm.idle ∧ ev = ImstEvent.sdpAck.number then some (StIm.waitsdp, .imsendhello)
  else if state = StIm.waitsdp ∧ ev = ImstEvent.helloRsp.number then
    some (StIm.hello, .imsendOFpkt)
  else if state = StIm.hello ∧ ev = ImstEvent.ofPktRsp.number then
    some (StIm.ofPkt, .imsendUFwrite)
  else if (state = StIm.ofPkt ∨ state = StIm.ufWrite) ∧ ev = ImstEvent.ufWriteRsp.number then
    some (StIm.ufWrite, .imsendNextUFwrite)
  else if state = StIm.done ∧ ev = ImstEvent.doneRsp.number then
    some (StIm.doneFinal, .imsendDoneFinal)
  else if state = StIm.ufWrite ∧ ev = errorPacketRsp then some (StIm.done, .imError)
  else none

/-- Where the download stands: the state, the last request, and the blocks that are left. -/
structure Standing (s : ImCwe) (p : Progress) : Prop where
  active : s.state ≤ StIm.done
  chunkSize : s.qdl.imqdl.chunkSize = imChunkSize
  idle : s.state = StIm.idle → command p.request = vDloadToSdpReq
  waitsdp : s.state = StIm.waitsdp → command p.request = vHelloReq
  opened : command p.request = vOpenReq → p.blocks = numBlocks s.qdl.imqdl.cweImageSize
  written : command p.request = vWriteReq → s.state = StIm.ofPkt ∨ s.state = StIm.ufWrite →
    p.blocks = s.qdl.imqdl.numwrites ∧
      s.qdl.imqdl.sequenceNumber = sequenceNumber p.request + 1
  done : s.state = StIm.done → command p.request = vDoneReq
  finished : command p.request = vDoneReq → s.qdl.isMDM9x15 = true → s.qdl.imgMask = 0

/-- A task that has not ended stands where its download does. -/
def Stands (s : Option ImCwe) (p : Progress) : Prop :=
  ∀ t, s = some t → t.terminated = false → Standing t p

/-- What an action does is in order, and the task stands where its download does. -/
def Serves (p : Progress) (r : Option ImCwe × List Output) : Prop :=
  Along note (Allowed Lets) p (r.2.filterMap Output.event) ∧
    Stands r.1 ((r.2.filterMap Output.event).foldl note p)

section Actions

variable {s : ImCwe} {p : Progress} {psdp behind : List UInt8} {w : World}

theorem smrun_reaction {state ev : ℕ} (hstate : state ≤ StIm.done)
    (hev : ev ≤ ImstEvent.doneRsp.number ∨ ev = errorPacketRsp) (udata : List UInt8) :
    smrun (⟨state, imMaxEvent, imSat, imStt, StIm.ignore, StIm.inval, udata⟩ :
        SmT Action (List UInt8)) ev =
      match reaction state ev with
      | none => some (⟨state, imMaxEvent, imSat, imStt, StIm.ignore, StIm.inval, udata⟩, none)
      | some (next, action) =>
          some (⟨next, imMaxEvent, imSat, imStt, StIm.ignore, StIm.inval, udata⟩,
            some (action, udata)) := by
  change state ≤ 5 at hstate
  rcases hev with hev | rfl
  · change ev ≤ 4 at hev
    interval_cases state <;> interval_cases ev <;> rfl
  · interval_cases state <;> rfl

/-- The task reacts to an event, or stays as it is. -/
theorem runEvent_reaction {ev : ℕ} (hstate : s.state ≤ StIm.done)
    (hev : ev ≤ ImstEvent.doneRsp.number ∨ ev = errorPacketRsp) :
    runEvent w ev s =
      match reaction s.state ev with
      | none => (some s, [])
      | some (next, action) => call (s.psdp w) w { s with state := next } action := by
  rw [runEvent, ImCwe.sm, smrun_reaction hstate hev]
  cases reaction s.state ev <;> rfl

/-- An event that is seen at the end. -/
theorem serves_request {t : ImCwe} {sendpktfn : SendPktFn} {data : List UInt8}
    (h : Permitted Lets p data) (ht : t.terminated = false → Standing t (p.send data)) :
    Serves p (some t, [.sent sendpktfn data]) := by
  refine ⟨⟨h, trivial⟩, ?_⟩
  intro t' ht'
  obtain rfl := Option.some.inj ht'
  exact ht

theorem serves_nil {t : ImCwe} (h : t.terminated = false → Standing t p) :
    Serves p (some t, []) := by
  refine ⟨trivial, ?_⟩
  intro t' ht'
  obtain rfl := Option.some.inj ht'
  exact h

theorem serves_none : Serves p (none, []) :=
  ⟨trivial, fun _ ht => absurd ht (Option.some_ne_none _).symm⟩

theorem serves_imsendhello (hchunk : s.qdl.imqdl.chunkSize = imChunkSize)
    (hstate : s.state = StIm.waitsdp) (hlets : Permitted Lets p imssdpHelloPack) :
    Serves p (imsendhello psdp w s) := by
  rw [imsendhello]
  split
  · exact serves_none
  · have hopen : command imssdpHelloPack ≠ vOpenReq := by decide
    have hwrite : command imssdpHelloPack ≠ vWriteReq := by decide
    refine serves_request hlets fun _ => ?_
    rw [send_other hopen hwrite]
    exact
      { active := by rw [hstate]; decide
        chunkSize := hchunk
        idle := fun h => absurd (hstate.symm.trans h) (by decide)
        waitsdp := fun _ => rfl
        opened := fun h => absurd h hopen
        written := fun h => absurd h hwrite
        done := fun h => absurd (hstate.symm.trans h) (by decide)
        finished := fun h => absurd h (by decide : command imssdpHelloPack ≠ vDoneReq) }

/-- What the preparation of a file leaves alone. -/
theorem impreparefile_frame : (impreparefile w s).state = s.state ∧
    (impreparefile w s).qdl.imqdl.chunkSize = s.qdl.imqdl.chunkSize := by
  have hname : ∀ (qdl : CweQdl) (eftype : FwImgType) (dir : List DirEntry),
      (imgetcwefname qdl eftype dir).2.imqdl = qdl.imqdl := by
    intro qdl eftype dir
    induction dir generalizing eftype with
    | nil => rfl
    | cons entry dir ih =>
        rw [imgetcwefname]
        split
        · split_ifs
          · rfl
          · exact ih .cwe
          · rfl
        · rfl
        · split_ifs
          · rfl
          · exact ih .nvu
        · exact ih _
  have hsizes : ∀ qdl : CweQdl, (imageSizes qdl).imqdl.chunkSize = qdl.imqdl.chunkSize := by
    intro qdl
    rw [imageSizes]
    split <;> rfl
  rw [impreparefile]
  split
  rename_i eftype qdl heq
  have hqdl : qdl.imqdl = s.qdl.imqdl := by
    rw [← hname s.qdl .invld w.dir, heq]
  split_ifs
  · exact ⟨rfl, congrArg Imqdl.chunkSize hqdl⟩
  · exact ⟨rfl, (hsizes qdl).trans (congrArg Imqdl.chunkSize hqdl)⟩

/-- An open request is sent, or nothing. -/
theorem serves_imsendOFpkt (hchunk : s.qdl.imqdl.chunkSize = imChunkSize)
    (hstate : s.state = StIm.hello) (hrequest : command p.request ≠ vOpenReq)
    (hdone : command p.request ≠ vDoneReq)
    (hlets : ∀ data, command data = vOpenReq → Permitted Lets p data) :
    Serves p ((imsendOFpkt psdp w s).map some id) := by
  have hstanding : ∀ (t : ImCwe) (q : Progress), t.state = StIm.hello →
      t.qdl.imqdl.chunkSize = imChunkSize →
      (command q.request = vOpenReq → q.blocks = numBlocks t.qdl.imqdl.cweImageSize) →
      command q.request ≠ vDoneReq → Standing t q := by
    intro t q ht hchunk' hopen hdone
    exact
      { active := by rw [ht]; decide
        chunkSize := hchunk'
        idle := fun h => absurd (ht.symm.trans h) (by decide)
        waitsdp := fun h => absurd (ht.symm.trans h) (by decide)
        opened := hopen
        written := fun _ h => by
          rcases h with h | h
          · exact absurd (ht.symm.trans h) (by decide)
          · exact absurd (ht.symm.trans h) (by decide)
        done := fun h => absurd (ht.symm.trans h) (by decide)
        finished := fun h => absurd h hdone }
  simp only [imsendOFpkt]
  generalize hversion : (if s.qdl.isMDM9x15 = false ∨ s.qdl.multiImgProg = false then
      { s with
          qdl :=
            { s.qdl with
                majorVersion := (imssdpHelloUnpack psdp).1
                minorVersion := (imssdpHelloUnpack psdp).2 } }
    else s) = u
  have hu : u.state = StIm.hello ∧ u.qdl.imqdl.chunkSize = imChunkSize := by
    rw [← hversion]
    split_ifs
    · exact ⟨hstate, hchunk⟩
    · exact ⟨hstate, hchunk⟩
  obtain ⟨hkept, hsame⟩ := @impreparefile_frame u w
  have hfile := hkept.trans hu.1
  have hfilechunk := hsame.trans hu.2
  split_ifs
  · exact serves_nil fun _ => hstanding _ _ hfile hfilechunk (fun h => absurd h hrequest) hdone
  · exact serves_nil fun _ => hstanding _ _ hfile hfilechunk (fun h => absurd h hrequest) hdone
  · refine serves_request (hlets _ rfl) fun _ => ?_
    rw [send_open]
    exact hstanding _ _ hfile hfilechunk (fun _ => rfl) (by decide : vOpenReq ≠ vDoneReq)

/-- The number of blocks that the image is split into. -/
theorem numwrites_splitImage {qdl : Imqdl} (hchunk : qdl.chunkSize = imChunkSize) (size : UInt32) :
    (splitImage qdl size).numwrites = numBlocks size := by
  rw [splitImage, hchunk]
  rfl

/-- A block is sent, in a state in which a write response is waited for. -/
theorem serves_writeQDLImageBlock {sequenceNumber' : UInt16} {offset blockSize : UInt32}
    (hstate : s.state = StIm.ofPkt ∨ s.state = StIm.ufWrite)
    (hchunk : s.qdl.imqdl.chunkSize = imChunkSize)
    (hsequence : s.qdl.imqdl.sequenceNumber = sequenceNumber' + 1)
    (hblocks : p.blocks - 1 = s.qdl.imqdl.numwrites)
    (hlets : ∀ data, command data = vWriteReq → sequenceNumber data = sequenceNumber' →
      Permitted Lets p data) :
    Serves p (writeQDLImageBlock sequenceNumber' offset blockSize s) := by
  rw [writeQDLImageBlock]
  split
  · exact serves_none
  · rename_i data hdata
    obtain ⟨hwrite, hnumber⟩ := writePack_fields hdata
    have hother : ∀ state, state ≠ StIm.ofPkt → state ≠ StIm.ufWrite → s.state ≠ state := by
      intro state hof huf h
      rcases hstate with hstate | hstate
      · exact hof (h.symm.trans hstate)
      · exact huf (h.symm.trans hstate)
    refine serves_request (hlets data hwrite hnumber) fun _ => ?_
    rw [send_write hwrite]
    exact
      { active := by
          rcases hstate with hstate | hstate
          · rw [hstate]
            decide
          · rw [hstate]
            decide
        chunkSize := hchunk
        idle := fun h => absurd h (hother _ (by decide) (by decide))
        waitsdp := fun h => absurd h (hother _ (by decide) (by decide))
        opened := fun h => absurd (hwrite.symm.trans h) (by decide)
        written := fun _ _ => ⟨hblocks, by rw [hsequence, ← hnumber]⟩
        done := fun h => absurd h (hother _ (by decide) (by decide))
        finished := fun h => absurd (hwrite.symm.trans h) (by decide) }

/-- The first block is sent on a positive open response. -/
theorem serves_imsendUFwrite (hchunk : s.qdl.imqdl.chunkSize = imChunkSize)
    (hstate : s.state = StIm.ofPkt) (hrequest : command p.request = vOpenReq)
    (hblocks : p.blocks = numBlocks s.qdl.imqdl.cweImageSize) (hwhole : Whole psdp)
    (hcommand : command psdp = vOpenRsp) (hresponse : p.response = some psdp) :
    Serves p (imsendUFwrite (psdp ++ behind) w s) := by
  have hstanding : ∀ qdl : Imqdl, qdl.chunkSize = imChunkSize →
      qdl.cweImageSize = s.qdl.imqdl.cweImageSize →
      Standing { s with qdl := { s.qdl with imqdl := qdl } } p := by
    intro qdl hchunk' hsize
    exact
      { active := by
          change s.state ≤ _
          rw [hstate]
          decide
        chunkSize := hchunk'
        idle := fun h => absurd (hstate.symm.trans h) (by decide)
        waitsdp := fun h => absurd (hstate.symm.trans h) (by decide)
        opened := fun _ => hblocks.trans (congrArg numBlocks hsize.symm)
        written := fun h => absurd (hrequest.symm.trans h) (by decide)
        done := fun h => absurd (hstate.symm.trans h) (by decide)
        finished := fun h => absurd (hrequest.symm.trans h) (by decide) }
  have hsplit : (splitImage s.qdl.imqdl s.qdl.imqdl.cweImageSize).chunkSize = imChunkSize := hchunk
  rw [imsendUFwrite, prepareQDLImageWrite_open hwhole hcommand]
  dsimp only
  split_ifs with hstatus hmapped
  · exact serves_nil fun _ => hstanding s.qdl.imqdl hchunk rfl
  · exact serves_nil fun _ => hstanding _ hsplit rfl
  · have hok : piget16 psdp 1 = 0 := not_not.mp hstatus
    refine serves_writeQDLImageBlock (.inl hstate) hchunk rfl ?_ ?_
    · rw [hblocks, ← numwrites_splitImage hchunk]
      rfl
    · intro data hwrite hnumber
      refine .inr ⟨psdp, hresponse, .inl ⟨hwhole, ?_, fun _ => ?_, fun h => ?_⟩, ?_, ?_, ?_⟩
      · rw [hrequest, hcommand]
        rfl
      · rw [openStatus, hok]
        rfl
      · exact absurd (hcommand.symm.trans h) (by decide)
      · rw [hrequest, hwrite]
        decide
      · exact fun _ => hnumber
      · exact fun h => absurd (hrequest.symm.trans h) (by decide)

/-- The next block, or what follows the last one, is sent on a positive write response. -/
theorem serves_imsendNextUFwrite (hchunk : s.qdl.imqdl.chunkSize = imChunkSize)
    (hstate : s.state = StIm.ufWrite) (hrequest : command p.request = vWriteReq)
    (hblocks : p.blocks = s.qdl.imqdl.numwrites)
    (hsequence : s.qdl.imqdl.sequenceNumber = sequenceNumber p.request + 1)
    (hpositive : Positive p.request psdp) (hresponse : p.response = some psdp) :
    Serves p (imsendNextUFwrite behind w s) := by
  have hlast : s.qdl.imqdl.numwrites = 0 → ∀ data, command data ≠ vWriteReq →
      (vWriteReq, command data) ∈ succession → Permitted Lets p data := by
    intro hnone data hwrite hnext
    refine .inr ⟨psdp, hresponse, .inl hpositive, hrequest.symm ▸ hnext, fun h => ?_, fun _ => ?_⟩
    · exact absurd (hrequest.symm.trans h) (by decide)
    · refine ⟨⟨fun h => absurd h hwrite, fun h => absurd (hblocks.trans hnone) h⟩, fun h => ?_⟩
      exact absurd h hwrite
  simp only [imsendNextUFwrite]
  split_ifs with hnone hmapped
  · rw [finishImage]
    split_ifs with hmore
    · -- the next image of the mask is opened
      have hnotOpen : command p.request ≠ vOpenReq := hrequest ▸ by decide
      have hnotDone : command p.request ≠ vDoneReq := hrequest ▸ by decide
      refine serves_imsendOFpkt hchunk rfl hnotOpen hnotDone fun data hopen => ?_
      exact hlast hnone data (by rw [hopen]; decide) (by rw [hopen]; decide)
    · have hopen : command imssdpDonePack ≠ vOpenReq := by decide
      have hwrite : command imssdpDonePack ≠ vWriteReq := by decide
      refine serves_request (hlast hnone _ (by decide) (by decide)) fun _ => ?_
      rw [send_other hopen hwrite]
      exact
        { active := Nat.le_refl _
          chunkSize := hchunk
          idle := fun h => absurd h (by decide : StIm.done ≠ StIm.idle)
          waitsdp := fun h => absurd h (by decide : StIm.done ≠ StIm.waitsdp)
          opened := fun h => absurd h hopen
          written := fun h => absurd h hwrite
          done := fun _ => rfl
          finished := fun _ hmdm => not_not.mp fun hmask => hmore ⟨hmdm, hmask⟩ }
  · exact serves_nil fun _ =>
      { active := by rw [hstate]; decide
        chunkSize := hchunk
        idle := fun h => absurd (hstate.symm.trans h) (by decide)
        waitsdp := fun h => absurd (hstate.symm.trans h) (by decide)
        opened := fun h => absurd (hrequest.symm.trans h) (by decide)
        written := fun _ _ => ⟨hblocks, hsequence⟩
        done := fun h => absurd (hstate.symm.trans h) (by decide)
        finished := fun h => absurd (hrequest.symm.trans h) (by decide) }
  · refine serves_writeQDLImageBlock (.inr hstate) hchunk rfl ?_ ?_
    · rw [hblocks]
      rfl
    · intro data hwrite hnumber
      refine .inr ⟨psdp, hresponse, .inl hpositive, ?_, fun h => ?_, fun _ => ⟨?_, fun _ => ?_⟩⟩
      · rw [hrequest, hwrite]
        decide
      · exact absurd (hrequest.symm.trans h) (by decide)
      · exact ⟨fun _ h => hnone (hblocks.symm.trans h), fun _ => hwrite⟩
      · rw [hnumber, hsequence]

/-- The task ends with the done response, and its status is recorded. -/
theorem serves_imsendDoneFinal (hrequest : command p.request = vDoneReq) (hwhole : Whole psdp)
    (hcommand : command psdp = vDoneRsp) (hresponse : p.response = some psdp)
    (hsucceeded : p.succeeded = decide (piget16 psdp 1 = ssdpDoneSuccess)) :
    Serves p (imsendDoneFinal (psdp ++ behind) w s) := by
  have hpositive : Positive p.request psdp := by
    refine ⟨hwhole, ?_, fun h => ?_, fun h => ?_⟩
    · rw [hrequest, hcommand]
      rfl
    · exact absurd (hcommand.symm.trans h) (by decide)
    · exact absurd (hcommand.symm.trans h) (by decide)
  have hlets : Permitted Lets p imssdpDonefinalPack := by
    refine .inr ⟨psdp, hresponse, .inl hpositive, ?_, fun h => ?_, fun h => ?_⟩
    · rw [hrequest]
      decide
    · exact absurd (hrequest.symm.trans h) (by decide)
    · exact absurd (hrequest.symm.trans h) (by decide)
  rw [imsendDoneFinal, validateQDLImages_done hwhole hcommand]
  refine ⟨⟨fun h => ?_, hlets, trivial⟩, ?_⟩
  · rw [hsucceeded]
    by_cases hstatus : piget16 psdp 1 = ssdpDoneSuccess
    · exact decide_eq_true hstatus
    · rw [beq_false_of_ne hstatus] at h
      exact absurd h (by decide)
  · intro t ht hterminated
    obtain rfl := Option.some.inj ht
    exact Bool.noConfusion hterminated

end Actions

/-! ### Runs -/

section Runs

variable {s t : ImCwe} {p : Progress} {psdp : List UInt8} {w : World}

/-- The event of a regular message: the hello response and the error are the answers to the first
two requests in the states in which the task waits for these. -/
theorem eventOf_regular {state : ℕ} {cmd : UInt8} (h : cmd ∈ responses) :
    ∃ ev, eventOf state cmd = some ev ∧ (ev ≤ ImstEvent.doneRsp.number ∨ ev = errorPacketRsp) := by
  have hearly : ∀ event, imssdpMapCmd cmd = some event →
      (event ≤ ImstEvent.doneRsp.number ∨ event = errorPacketRsp) →
      ∃ ev, eventOf state cmd = some ev ∧
        (ev ≤ ImstEvent.doneRsp.number ∨ ev = errorPacketRsp) := by
    intro event hmap hevent
    rw [eventOf, hmap, Option.map_some]
    split_ifs
    · exact ⟨_, rfl, .inl (by decide)⟩
    · exact ⟨_, rfl, .inl (by decide)⟩
    · exact ⟨_, rfl, hevent⟩
    · exact ⟨_, rfl, hevent⟩
  simp only [responses, List.mem_cons, List.not_mem_nil, or_false] at h
  rcases h with rfl | rfl | rfl | rfl | rfl
  · exact hearly dloadToSdpRsp rfl (.inl (by decide))
  · exact hearly openRsp rfl (.inl (by decide))
  · exact hearly writeRsp rfl (.inl (by decide))
  · exact hearly doneRsp rfl (.inl (by decide))
  · exact hearly errorPacketRsp rfl (.inr rfl)

/-- What a response in some state leads to. -/
def Reacts (cmd : UInt8) (state next : ℕ) (action : Action) : Prop :=
  (state = StIm.idle ∧ next = StIm.waitsdp ∧ action = .imsendhello ∧
      (cmd = vHelloRsp ∨ cmd = vErrorPacketRsp)) ∨
    (state = StIm.waitsdp ∧ next = StIm.hello ∧ action = .imsendOFpkt ∧
      (cmd = vHelloRsp ∨ cmd = vErrorPacketRsp)) ∨
    (state = StIm.hello ∧ next = StIm.ofPkt ∧ action = .imsendUFwrite ∧ cmd = vOpenRsp) ∨
    ((state = StIm.ofPkt ∨ state = StIm.ufWrite) ∧ next = StIm.ufWrite ∧
      action = .imsendNextUFwrite ∧ cmd = vWriteRsp) ∨
    (state = StIm.done ∧ next = StIm.doneFinal ∧ action = .imsendDoneFinal ∧ cmd = vDoneRsp) ∨
    (state = StIm.ufWrite ∧ next = StIm.done ∧ action = .imError ∧ cmd = vErrorPacketRsp)

instance (cmd : UInt8) (state next : ℕ) (action : Action) :
    Decidable (Reacts cmd state next action) :=
  inferInstanceAs (Decidable (_ ∨ _))

theorem reacts_of_reaction {cmd : UInt8} {state ev next : ℕ} {action : Action}
    (hstate : state ≤ StIm.done) (h : cmd ∈ responses) (hev : eventOf state cmd = some ev)
    (hreaction : reaction state ev = some (next, action)) : Reacts cmd state next action := by
  have htable : ∀ r ∈ (eventOf state cmd).bind (reaction state), Reacts cmd state r.1 r.2 := by
    change state ≤ 5 at hstate
    simp only [responses, List.mem_cons, List.not_mem_nil, or_false] at h
    clear hev hreaction
    rcases h with rfl | rfl | rfl | rfl | rfl
    · interval_cases state <;> decide
    · interval_cases state <;> decide
    · interval_cases state <;> decide
    · interval_cases state <;> decide
    · interval_cases state <;> decide
  rw [hev, Option.bind_some, hreaction] at htable
  exact htable (next, action) rfl

/-- The message becomes the user data, and nothing else changes for the download. -/
theorem unframed_message {frame : List UInt8} (h : 1 ≤ (messageIn s.hdr frame).length)
    (ht : unframed frame s = some t) :
    t.udata = messageIn s.hdr frame ∧ t.state = s.state ∧ t.qdl = s.qdl ∧
      t.terminated = s.terminated := by
  obtain ⟨r, hr, rfl⟩ := Option.map_eq_some_iff.mp ht
  have hudata : r.2.udata.getD frame = messageIn s.hdr frame := by
    rw [udata_imunframe h hr, Option.getD_some]
  exact ⟨hudata, rfl, rfl, rfl⟩

/-- Where the download stands depends on the state and the data for the download only. -/
theorem Standing.congr (h : Standing s p) (hstate : t.state = s.state) (hqdl : t.qdl = s.qdl) :
    Standing t p where
  active := hstate ▸ h.active
  chunkSize := hqdl ▸ h.chunkSize
  idle := fun hidle => h.idle (hstate ▸ hidle)
  waitsdp := fun hwait => h.waitsdp (hstate ▸ hwait)
  opened := fun hopen => hqdl ▸ h.opened hopen
  written := fun hwrite hst => hqdl ▸ h.written hwrite (hstate ▸ hst)
  done := fun hdone => h.done (hstate ▸ hdone)
  finished := fun hdone => hqdl ▸ h.finished hdone

/-- A message leaves the download where it stands. -/
theorem Standing.note (h : Standing s p) : Standing s (note p (.response psdp)) :=
  ⟨h.active, h.chunkSize, h.idle, h.waitsdp, h.opened, h.written, h.done, h.finished⟩

/-- What the task does on a regular message. -/
theorem serves_reaction {cmd : UInt8} {next : ℕ} {action : Action} (hstanding : Standing s p)
    (hregular : Regular p.request psdp) (hudata : s.udata = psdp)
    (hcmd : command psdp = cmd) (hreacts : Reacts cmd s.state next action) :
    Serves (note p (.response psdp))
      (call (s.psdp w) w { s with state := next } action) := by
  obtain ⟨hwhole, -, hopen, hwrite⟩ := hregular
  have hpsdp : s.psdp w = psdp ++ w.behind := by rw [ImCwe.psdp, hudata]
  have hearly : ∀ data, (command p.request = vDloadToSdpReq ∨ command p.request = vHelloReq) →
      (command psdp = vHelloRsp ∨ command psdp = vErrorPacketRsp) →
      (command p.request, command data) ∈ succession →
      Permitted Lets (note p (.response psdp)) data := by
    intro data hrequest hanswer hnext
    refine .inr ⟨psdp, rfl, ?_, hnext, fun h => ?_, fun h => ?_⟩
    · rcases hanswer with hanswer | hanswer
      · refine .inl ⟨hwhole, ?_, fun h => ?_, fun h => ?_⟩
        · rcases hrequest with hrequest | hrequest
          · exact (congrArg responseTo hrequest).trans (by rw [hanswer]; rfl)
          · exact (congrArg responseTo hrequest).trans (by rw [hanswer]; rfl)
        · exact absurd (hanswer.symm.trans h) (by decide)
        · exact absurd (hanswer.symm.trans h) (by decide)
      · exact .inr ⟨hrequest, hanswer⟩
    · rcases hrequest with hrequest | hrequest
      · exact absurd (hrequest.symm.trans h) (by decide)
      · exact absurd (hrequest.symm.trans h) (by decide)
    · rcases hrequest with hrequest | hrequest
      · exact absurd (hrequest.symm.trans h) (by decide)
      · exact absurd (hrequest.symm.trans h) (by decide)
  rcases hreacts with ⟨hstate, rfl, rfl, hanswer⟩ | ⟨hstate, rfl, rfl, hanswer⟩ |
    ⟨hstate, rfl, rfl, rfl⟩ | ⟨hstate, rfl, rfl, rfl⟩ | ⟨hstate, rfl, rfl, rfl⟩ |
    ⟨hstate, rfl, rfl, rfl⟩
  · have hrequest := hstanding.idle hstate
    refine serves_imsendhello hstanding.chunkSize rfl (hearly _ (.inl hrequest) (hcmd ▸ hanswer) ?_)
    rw [hrequest]
    decide
  · have hrequest := hstanding.waitsdp hstate
    have hnotOpen : command p.request ≠ vOpenReq := hrequest ▸ by decide
    have hnotDone : command p.request ≠ vDoneReq := hrequest ▸ by decide
    refine serves_imsendOFpkt hstanding.chunkSize rfl hnotOpen hnotDone fun data hdata => ?_
    refine hearly _ (.inr hrequest) (hcmd ▸ hanswer) ?_
    rw [hrequest, hdata]
    decide
  · have hrequest := hopen hcmd
    have hblocks := hstanding.opened hrequest
    rw [hpsdp]
    exact serves_imsendUFwrite hstanding.chunkSize rfl hrequest hblocks hwhole hcmd rfl
  · have hpositive := hwrite hcmd
    have hrequest : command p.request = vWriteReq := by
      obtain ⟨-, hresponse, -⟩ := hpositive
      exact request_of_write (hcmd ▸ hresponse)
    obtain ⟨hblocks, hsequence⟩ := hstanding.written hrequest hstate
    change Serves _ (imsendNextUFwrite (s.psdp w) w _)
    exact serves_imsendNextUFwrite hstanding.chunkSize rfl hrequest hblocks hsequence hpositive rfl
  · have hrequest := hstanding.done hstate
    have hpositive : Positive p.request psdp := by
      refine ⟨hwhole, ?_, fun h => ?_, fun h => ?_⟩
      · rw [hrequest, hcmd]
        rfl
      · exact absurd (hcmd.symm.trans h) (by decide)
      · exact absurd (hcmd.symm.trans h) (by decide)
    rw [hpsdp]
    refine serves_imsendDoneFinal hrequest hwhole hcmd rfl ?_
    exact decide_eq_decide.mpr ⟨fun h => h.2.2, fun h => ⟨hrequest, hpositive, h⟩⟩
  · -- the task ends
    have herror : (psdp ++ w.behind).getD 0 0 = 0x0d := (command_append hwhole).trans hcmd
    rw [hpsdp, call, imError, if_pos herror]
    refine serves_nil fun h => ?_
    exact Bool.noConfusion h

/-- A regular message leads to what is in order. -/
theorem stands_traced {s : Option ImCwe} {i : List UInt8 × World} (hs : Stands s p)
    (h : Along note (Answered Regular) p (traced s i).2) :
    Along note (Allowed Lets) p (traced s i).2 ∧
      Stands (traced s i).1 ((traced s i).2.foldl note p) := by
  obtain ⟨frame, w⟩ := i
  cases s with
  | none => exact ⟨trivial, hs⟩
  | some s =>
      cases hterminated : s.terminated with
      | true =>
          simp only [traced, hterminated, if_true]
          exact ⟨trivial, hs⟩
      | false =>
          simp only [traced, hterminated] at h ⊢
          obtain ⟨hregular, -⟩ := h
          have hserves : Serves (note p (.response (messageIn s.hdr frame)))
              (step (some s) (frame, w)) := by
            simp only [step, hterminated]
            change Serves _ (framedRsp frame w s)
            cases ht : unframed frame s with
            | none =>
                rw [framedRsp, ht]
                exact serves_none
            | some t =>
                obtain ⟨hudata, hstate, hqdl, -⟩ := unframed_message hregular.1.1 ht
                have hstanding := (hs s rfl hterminated).congr hstate hqdl
                have hcommand : (t.psdp w).getD 0 0 = command (messageIn s.hdr frame) := by
                  rw [ImCwe.psdp, hudata]
                  exact command_append hregular.1
                obtain ⟨ev, hev, hrange⟩ := @eventOf_regular t.state _ hregular.2.1
                simp only [framedRsp, ht, hcommand, hev]
                rw [runEvent_reaction hstanding.active hrange]
                cases hreaction : reaction t.state ev with
                | none => exact serves_nil fun _ => hstanding.note
                | some r =>
                    have hreacts := reacts_of_reaction hstanding.active hregular.2.1 hev hreaction
                    exact serves_reaction hstanding hregular hudata rfl hreacts
          exact ⟨⟨trivial, hserves.1⟩, hserves.2⟩

/-- A success is recorded only when no image is left. -/
theorem noneLeft_of_recorded {s : Option ImCwe} {i : List UInt8 × World} (hs : Stands s p)
    (h : Along note (Answered Regular) p (traced s i).2)
    (hrecorded : .recorded true ∈ (traced s i).2) : NoneLeft s := by
  obtain ⟨hallowed, -⟩ := stands_traced hs h
  obtain ⟨frame, w⟩ := i
  cases s with
  | none => exact absurd hrecorded List.not_mem_nil
  | some s =>
      cases hterminated : s.terminated with
      | true =>
          simp only [traced, hterminated, if_true] at hrecorded
          exact absurd hrecorded List.not_mem_nil
      | false =>
          simp only [traced, hterminated] at hallowed hrecorded
          have hout : .recorded true ∈
              (step (some s) (frame, w)).2.filterMap Output.event := by
            simpa using hrecorded
          have hresponse : ∀ psdp, .response psdp ∉
              (step (some s) (frame, w)).2.filterMap Output.event := by
            intro psdp hmem
            obtain ⟨output, -, houtput⟩ := List.mem_filterMap.mp hmem
            cases output <;> simp [Output.event] at houtput
          have hsucceeded := succeeded_of_recorded hresponse hallowed.2 hout
          have hdone := (of_decide_eq_true hsucceeded).1
          exact ⟨s, rfl, (hs s rfl hterminated).finished hdone⟩

/-- The task stands at its start. -/
theorem stands_start (hdr : HdRxCtlBk) (udata : List UInt8) (qdl : CweQdl) :
    Stands (some (start hdr udata qdl)) (Progress.none.send [vDloadToSdpReq, 0, 0]) := by
  intro t ht _
  obtain rfl := Option.some.inj ht
  exact
    { active := (by decide : StIm.idle ≤ StIm.done)
      chunkSize := rfl
      idle := fun _ => rfl
      waitsdp := fun h => absurd h (by decide : StIm.idle ≠ StIm.waitsdp)
      opened := fun h => absurd h (by decide : vDloadToSdpReq ≠ vOpenReq)
      written := fun h => absurd h (by decide : vDloadToSdpReq ≠ vWriteReq)
      done := fun h => absurd h (by decide : StIm.idle ≠ StIm.done)
      finished := fun h => absurd h (by decide : vDloadToSdpReq ≠ vDoneReq) }

/-- A download with regular messages is in order, and a success is recorded only when no image is
left. -/
theorem inOrder_of_regular (hdr : HdRxCtlBk) (udata : List UInt8) (qdl : CweQdl)
    (frames : List (List UInt8 × World))
    (h : Along note (Answered Regular) .none (trace hdr udata qdl frames)) :
    InOrder Lets (trace hdr udata qdl frames) ∧
      ∀ pre i post, frames = pre ++ i :: post →
        .recorded true ∈
          (traced (Machine.after traced (some (start hdr udata qdl)) pre) i).2 →
        NoneLeft (Machine.after traced (some (start hdr udata qdl)) pre) := by
  have hstep : ∀ (s : Option ImCwe) (i : List UInt8 × World) (p : Progress), Stands s p → True →
      Along note (Answered Regular) p (traced s i).2 →
      Along note (Allowed Lets) p (traced s i).2 ∧
        Stands (traced s i).1 ((traced s i).2.foldl note p) := fun s i p hs _ => stands_traced hs
  have hfree : ∀ (s : Option ImCwe) (is : List (List UInt8 × World)),
      Machine.Meets traced (fun _ _ => True) s is := fun s is =>
    Machine.meets_iff.mpr fun _ _ _ _ => trivial
  have hstart := stands_start hdr udata qdl
  have hrun : Along note (Answered Regular) (Progress.none.send [vDloadToSdpReq, 0, 0])
      (Machine.outputs traced (some (start hdr udata qdl)) frames) := h.2
  refine ⟨⟨.inl ⟨rfl, .inl rfl⟩, (along_run hstep hstart (hfree _ _) hrun).1⟩, ?_⟩
  rintro pre i post rfl hrecorded
  rw [Machine.outputs_append, along_append, Machine.outputs_cons, along_append] at hrun
  obtain ⟨hpre, hhere, -⟩ := hrun
  obtain ⟨-, hstands⟩ := along_run hstep hstart (hfree _ pre) hpre
  exact noneLeft_of_recorded hstands hhere hrecorded

end Runs

end Cwe

end Im

end SierraSdk
