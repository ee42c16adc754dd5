import SierraSdk.Sdk.Notifications
import SierraSdk.Sdk.Packet
import SierraSdk.Library.Monitor

/-!
# The firmware download of the packet handler task

`hpsendfwdwnrr` runs in the AM task: it takes the channel of a request and posts the request to
the queue of the packet handler task, unless the channel of another request is still taken. The
packet handler task takes its messages one by one. A download resets the device into its boot
loader, sends the image in a start request and continue requests, then a checksum, and has the
device program it; the handler of a state waits for the response to what was sent on entering
it.

What the operating system answers comes with each message taken (`OsAnswer`): the files, whether
their size and contents can be read, and whether the device runs its application. A division by
zero stops the task (`none`).
-/

namespace SierraSdk

namespace Sdk

open Machine

section Parameters

/-- `enum swi_amfwdwnnotiftype`. -/
inductive FwState where
  | init | initErr
  | softReset | softResetErr
  | startReq | startReqErr
  | fileErr
  | dwn | dwnErr
  | chksum | chksumErr
  | flash | flashErr
  | launchFrag | launchFragErr
  | reset | resetErr
  | done
  deriving DecidableEq

/-- The parameters of a download request. -/
structure AmFwDwnRrParms where
  amfilename : List UInt8
  amfwimagetype : UInt8
  ammpdownload : UInt8
  ammaxchunksize : UInt32
  deriving DecidableEq

/-- `AMMAXFILENAMESZ`, `AMMAXERRORSTRINGSZ` and `CIMAXIPCCHAN`. -/
def amMaxFilenameSz : ℕ := 80
def amMaxErrorStringSz : ℕ := 40
def ciMaxIpcChan : ℕ := 14

/-- Parse a download request. -/
def amparsefwdwnrequest (packet : List UInt8) : AmFwDwnRrParms where
  amfilename := packet.takeD amMaxFilenameSz 0
  amfwimagetype := packet.getD amMaxFilenameSz 0
  ammpdownload := packet.getD (amMaxFilenameSz + 1) 0
  ammaxchunksize := piget32 packet (amMaxFilenameSz + 2)

/-- `SWI_FW_DWN_APPL`. -/
def fwDwnAppl : UInt8 := 0

/-- The HIP messages of a download. -/
def hpDlStrtReq : UInt32 := 0x00
def hpDlEndReq : UInt32 := 0x01
def hpDlContReq : UInt32 := 0x02
def hpProgReq : UInt32 := 0x04
def hpResetReq : UInt32 := 0x0b
def hpmLaunInd : UInt32 := 0x21
def hpDlStrtResp : UInt32 := 0x40
def hpDlEndResp : UInt32 := 0x41
def hpDlContResp : UInt32 := 0x42
def hpProgResp : UInt32 := 0x44

/-- `HPSUCCESS` and `HPBOOTNHOLD`. -/
def hpSuccess : UInt8 := 0
def hpBootNHold : UInt8 := 1

/-- `HDTXBUFSIZE` -/
def hdTxBufSize : ℕ := 2100

/-- The ticks of the response timeout. -/
def hpFwDwnTicks : UInt16 := 600 * 1000 / 100 + 1

/-- Result codes of a download response. -/
inductive FwResult where
  | success
  | timeout
  | aborted
  | busy
  deriving DecidableEq

end Parameters

section Task

/-- The control block. The file control block is the part of the open file that is still to be
read. -/
structure HpBlk where
  hpparms : AmFwDwnRrParms
  amfwdwnstate : FwState
  hpfileopened : Bool
  hpfp : Option (List UInt8)
  hpchecksum : UInt16
  hpchunks2send : UInt16
  hptimeron : Bool
  hpticksleft : UInt16
  hpphipcchanrr : ℕ
  deriving DecidableEq

/-- What the operating system and the modem state answer. -/
structure OsAnswer where
  files : List UInt8 → Option (List UInt8)
  sizeok : Bool
  readok : Bool
  apprunning : Bool

/-- What the task does to the outside. `imageInit` is no message: it records what `hpimageinit`
has found and computed. -/
inductive FwOut where
  | hpTxPacket (msgdesignator : UInt32) (msgparm : UInt8) (payload : List UInt8)
  | fwdwnresp (ipcchannel : ℕ) (resultcode : FwResult) (errorstring : List UInt8)
  | fwdwnnotify (ipcchannel : Option ℕ) (progress : FwState)
  | imageInit (image : List UInt8) (ammaxchunksize : UInt32) (hpchunks2send : UInt16)
  deriving DecidableEq

/-- Clear the state variables. -/
def hpstateclear (s : HpBlk) : HpBlk :=
  { s with
    hpfileopened := false
    amfwdwnstate := .done
    hpparms := { s.hpparms with amfilename := List.replicate amMaxFilenameSz 0 }
    hpchecksum := 0
    hpchunks2send := 0
    hptimeron := false
    hpphipcchanrr := ciMaxIpcChan }

def hptimerstart (s : HpBlk) : HpBlk := { s with hpticksleft := hpFwDwnTicks, hptimeron := true }
def hptimerstop (s : HpBlk) : HpBlk := { s with hptimeron := false }

/-- The text of a response: the length is a byte, and cut to what the packet can hold. -/
def amErrorString (errorstring : List UInt8) : List UInt8 :=
  (errorstring.take (min (errorstring.length % 256) (amMaxErrorStringSz - 1))).takeWhile (· ≠ 0)

/-- End a download with a response. -/
def hpamfwdwnresp (resultcode : FwResult) (errorstring : List UInt8) (s : HpBlk) :
    Option HpBlk × List FwOut :=
  (some (hpstateclear (if s.hpfileopened then { s with hpfp := none } else s)),
    [.fwdwnresp s.hpphipcchanrr resultcode (amErrorString errorstring)])

/-- Reject a request without ending the download that runs. -/
def hpamsendshortresp (s : HpBlk) : Option HpBlk × List FwOut :=
  (some s, [.fwdwnresp s.hpphipcchanrr .busy []])

/-- The head of `hpstateupdate`: the new state is stored and notified. -/
def hpstateenter (newstate : FwState) (s : HpBlk) : Option HpBlk × List FwOut :=
  (some { s with amfwdwnstate := newstate },
    [.fwdwnnotify (peerChannel s.hpphipcchanrr) newstate])

/-- `hpstateupdate` for an error state. -/
def hpstatefail (newstate : FwState) (errorstring : List UInt8) (s : HpBlk) :
    Option HpBlk × List FwOut :=
  andThen (hpstateenter newstate s) (hpamfwdwnresp .aborted errorstring)

/-- Read up to a chunk of the image, add it to the checksum and count it; `none` if the file
cannot be read. The length field of a HIP packet has 16 bits. -/
def hpreadchunk (os : OsAnswer) (s : HpBlk) : Option (HpBlk × List UInt8) :=
  match s.hpfp with
  | none => none
  | some rest =>
      if os.readok then
        let chunk := rest.take s.hpparms.ammaxchunksize.toNat
        let payload := chunk.take (chunk.length % 2 ^ 16)
        some ({ s with
          hpfp := some (rest.drop s.hpparms.ammaxchunksize.toNat)
          hpchecksum := payload.foldl (fun sum b => sum + b.toUInt16) s.hpchecksum
          hpchunks2send := s.hpchunks2send - 1 }, payload)
      else none

def hpsendreset (s : HpBlk) : Option HpBlk × List FwOut :=
  (some (hptimerstart s), [.hpTxPacket hpResetReq hpBootNHold []])

def hpsendstartreq (os : OsAnswer) (s : HpBlk) : Option HpBlk × List FwOut :=
  match hpreadchunk os s with
  | none => hpstatefail .startReqErr [] s
  | some (s, payload) => (some (hptimerstart s), [.hpTxPacket hpDlStrtReq 0 payload])

/-- The timer is not started. -/
def hpsendcontreq (os : OsAnswer) (s : HpBlk) : Option HpBlk × List FwOut :=
  match hpreadchunk os s with
  | none => hpstatefail .dwnErr [] s
  | some (s, payload) => (some s, [.hpTxPacket hpDlContReq 0 payload])

def hpsendendreq (s : HpBlk) : Option HpBlk × List FwOut :=
  (some (hptimerstart s), [.hpTxPacket hpDlEndReq 0 (piput16 s.hpchecksum)])

def hpsendlaunchind (s : HpBlk) : Option HpBlk × List FwOut :=
  (some s, [.hpTxPacket hpmLaunInd 0 []])

def hpsendprogreq (s : HpBlk) : Option HpBlk × List FwOut :=
  (some (hptimerstart s), [.hpTxPacket hpProgReq 0 []])

/-- The chunks that an image takes, in 32-bit arithmetic and stored in 16 bits. -/
def imageChunks (filesize ammaxchunksize : UInt32) : UInt16 :=
  ((filesize + ammaxchunksize - 1) / ammaxchunksize).toUInt16

/-- Open the image, and reset the device unless it is in its boot loader already. -/
def hpimageinit (os : OsAnswer) (s : HpBlk) : Option HpBlk × List FwOut :=
  match os.files s.hpparms.amfilename with
  | none => hpstatefail .initErr [] { s with hpfp := none }
  | some image =>
      if !os.sizeok then hpstatefail .initErr [] { s with hpfp := some image }
      else if UInt32.ofNat image.length = 0 then
        hpstatefail .initErr [] { s with hpfp := some image, hpfileopened := true }
      else if s.hpparms.ammaxchunksize = 0 then (none, [])
      else
        let chunks := imageChunks (UInt32.ofNat image.length) s.hpparms.ammaxchunksize
        let s' := { s with hpfp := some image, hpfileopened := true, hpchunks2send := chunks }
        andThen (some s', [.imageInit image s.hpparms.ammaxchunksize chunks])
          (if os.apprunning then fun s => andThen (hpstateenter .softReset s) hpsendreset
          else fun s => andThen (hpstateenter .startReq s) (hpsendstartreq os))

/-- `hpstateupdate`: enter a state and take its action. -/
def hpstateupdate (os : OsAnswer) (newstate : FwState) (errorstring : List UInt8) (s : HpBlk) :
    Option HpBlk × List FwOut :=
  andThen (hpstateenter newstate s)
    (match newstate with
    | .init => hpimageinit os
    | .softReset => hpsendreset
    | .startReq => hpsendstartreq os
    | .dwn => hpsendcontreq os
    | .chksum => hpsendendreq
    | .flash => hpsendprogreq
    | .launchFrag => hpsendlaunchind
    | .done => hpamfwdwnresp .success []
    | .initErr | .softResetErr | .startReqErr | .fileErr | .dwnErr | .chksumErr | .flashErr
    | .resetErr => hpamfwdwnresp .aborted errorstring
    | .launchFragErr | .reset => fun s => (some s, []))

/-- The device has changed its state while it is being reset. -/
def hpstatesoftreset (os : OsAnswer) (online apprunning : Bool) (s : HpBlk) :
    Option HpBlk × List FwOut :=
  if online then
    if apprunning then hpstateupdate os .softResetErr [] (hptimerstop s)
    else hpstateupdate os .startReq [] (hptimerstop s)
  else (some s, [])

/-- A message of the device. -/
structure HpHipEvt where
  hpphmsgdesignator : UInt32
  hpphmsgparm : UInt8
  hpphdata : List UInt8

def hpstatefwstartreq (os : OsAnswer) (hipmsg : HpHipEvt) (s : HpBlk) :
    Option HpBlk × List FwOut :=
  if hipmsg.hpphmsgdesignator = hpDlStrtResp then
    if hipmsg.hpphmsgparm ≠ hpSuccess then
      hpstateupdate os .startReqErr hipmsg.hpphdata (hptimerstop s)
    else if s.hpchunks2send ≠ 0 then hpstateupdate os .dwn [] (hptimerstop s)
    else hpstateupdate os .chksum [] (hptimerstop s)
  else (some s, [])

def hpstatefwdownload (os : OsAnswer) (hipmsg : HpHipEvt) (s : HpBlk) :
    Option HpBlk × List FwOut :=
  if hipmsg.hpphmsgdesignator = hpDlContResp then
    if hipmsg.hpphmsgparm ≠ hpSuccess then
      hpstateupdate os .dwnErr hipmsg.hpphdata (hptimerstop s)
    else if s.hpchunks2send ≠ 0 then hpstateupdate os .dwn [] (hptimerstop s)
    else hpstateupdate os .chksum [] (hptimerstop s)
  else (some s, [])

/-- An application is programmed into the flash; anything else is launched, and there is no
response to that. -/
def hpstatefwchksum (os : OsAnswer) (hipmsg : HpHipEvt) (s : HpBlk) :
    Option HpBlk × List FwOut :=
  if hipmsg.hpphmsgdesignator = hpDlEndResp then
    if hipmsg.hpphmsgparm ≠ hpSuccess then
      hpstateupdate os .chksumErr hipmsg.hpphdata (hptimerstop s)
    else if s.hpparms.amfwimagetype = fwDwnAppl then hpstateupdate os .flash [] (hptimerstop s)
    else andThen (hpstateupdate os .launchFrag [] (hptimerstop s)) (hpstateupdate os .done [])
  else (some s, [])

def hpstatefwflash (os : OsAnswer) (hipmsg : HpHipEvt) (s : HpBlk) :
    Option HpBlk × List FwOut :=
  if hipmsg.hpphmsgdesignator = hpProgResp then
    if hipmsg.hpphmsgparm ≠ hpSuccess then
      hpstateupdate os .flashErr hipmsg.hpphdata (hptimerstop s)
    else hpstateupdate os .done [] (hptimerstop s)
  else (some s, [])

/-- A HIP message, by the state. -/
def hpfwdwncbmsg (os : OsAnswer) (hipmsg : HpHipEvt) (s : HpBlk) : Option HpBlk × List FwOut :=
  match s.amfwdwnstate with
  | .startReq => hpstatefwstartreq os hipmsg s
  | .dwn => hpstatefwdownload os hipmsg s
  | .chksum => hpstatefwchksum os hipmsg s
  | .flash => hpstatefwflash os hipmsg s
  | _ => (some s, [])

/-- A change of the state of the device; one that goes away in the middle of a download ends
it. -/
def hpmodestatechangemsg (os : OsAnswer) (online apprunning : Bool) (s : HpBlk) :
    Option HpBlk × List FwOut :=
  if s.amfwdwnstate = .done then (some s, [])
  else if s.amfwdwnstate = .softReset then hpstatesoftreset os online apprunning s
  else if !online then hpstateupdate os .resetErr [] s
  else (some s, [])

/-- A tick. -/
def hpfwdwntimer (s : HpBlk) : Option HpBlk × List FwOut :=
  if s.hptimeron then
    let s := { s with hpticksleft := s.hpticksleft - 1 }
    if s.hpticksleft = 0 then hpamfwdwnresp .timeout [] s else (some s, [])
  else (some s, [])

/-- A download request: it is parsed into the control block, whatever goes on. -/
def hpamfwdwnreq (os : OsAnswer) (packet : List UInt8) (s : HpBlk) :
    Option HpBlk × List FwOut :=
  let s := { s with hpparms := amparsefwdwnrequest packet }
  if s.amfwdwnstate ≠ .done then hpamsendshortresp s else hpstateupdate os .init [] s

/-- A message to the packet handler task. -/
inductive HpphEvent where
  | fwdwnreq (packet : List UInt8)
  | fwdwncb (hipmsg : HpHipEvt)
  | modemstatecb (online apprunning : Bool)
  | tick

/-- The packet handler task handles a message. -/
def hpphdispatch (os : OsAnswer) : HpphEvent → HpBlk → Option HpBlk × List FwOut
  | .fwdwnreq packet => hpamfwdwnreq os packet
  | .fwdwncb hipmsg => hpfwdwncbmsg os hipmsg
  | .modemstatecb online apprunning => hpmodestatechangemsg os online apprunning
  | .tick => hpfwdwntimer

/-- The control block with the messages that wait for the task. -/
structure FwTask where
  hpgcb : HpBlk
  hpphicmsgque : List HpphEvent

/-- What happens: a request of an application, a message of the device, a change of its state, a
tick, or that the task takes its next message. -/
inductive FwInput where
  | request (ipcchannel : AppChannel) (packet : List UInt8)
  | hipMessage (hipmsg : HpHipEvt)
  | modemState (online apprunning : Bool)
  | tickEvent
  | take (os : OsAnswer)

/-- Post a message. -/
def FwTask.post (t : FwTask) (e : HpphEvent) : FwTask :=
  { t with hpphicmsgque := t.hpphicmsgque ++ [e] }

/-- Only one download is allowed: a request that finds the channel taken is dropped. -/
def hpsendfwdwnrr (ipcchannel : ℕ) (packet : List UInt8) (t : FwTask) : FwTask :=
  if t.hpgcb.hpphipcchanrr = ciMaxIpcChan then
    FwTask.post { t with hpgcb := { t.hpgcb with hpphipcchanrr := ipcchannel } } (.fwdwnreq packet)
  else t

/-- One step of a task that has not stopped. -/
def fwTaskStep (t : FwTask) : FwInput → Option FwTask × List FwOut
  | .request ipcchannel packet => (some (hpsendfwdwnrr ipcchannel.1 packet t), [])
  | .hipMessage hipmsg => (some (t.post (.fwdwncb hipmsg)), [])
  | .modemState online apprunning => (some (t.post (.modemstatecb online apprunning)), [])
  | .tickEvent => (some (t.post .tick), [])
  | .take os =>
      match t.hpphicmsgque with
      | [] => (some t, [])
      | e :: rest =>
          ((hpphdispatch os e t.hpgcb).1.map fun s => ⟨s, rest⟩, (hpphdispatch os e t.hpgcb).2)

theorem fwTaskStep_take (os : OsAnswer) (s : HpBlk) (e : HpphEvent) (rest : List HpphEvent) :
    fwTaskStep ⟨s, e :: rest⟩ (.take os) =
      ((hpphdispatch os e s).1.map fun s => ⟨s, rest⟩, (hpphdispatch os e s).2) := rfl

/-- One step. -/
def fwStep (t : Option FwTask) (i : FwInput) : Option FwTask × List FwOut :=
  match t with
  | none => (none, [])
  | some t => fwTaskStep t i

/-- The control block at the start, and the task with an empty queue. -/
def hpfwdownloadinit : HpBlk :=
  hpstateclear ⟨⟨[], 0, 0, 0⟩, .init, false, none, 0, 0, false, 0, 0⟩
def fwTaskInit : Option FwTask := some ⟨hpfwdownloadinit, []⟩

end Task

section Outcomes

/-- The channel that a response goes to. -/
def FwOut.respchannel : FwOut → Option ℕ
  | .fwdwnresp ipcchannel _ _ => some ipcchannel
  | _ => none

/-- The channels that responses go to. -/
def responses (out : List FwOut) : List ℕ := out.filterMap FwOut.respchannel

theorem responses_append (out out' : List FwOut) :
    responses (out ++ out') = responses out ++ responses out' := List.filterMap_append

/-- An open file is known to be open. -/
def HpBlk.Closes (s : HpBlk) : Prop := s.hpfileopened = false → s.hpfp = none

/-- What a change of state does to a download: it ends with a response on its channel, or waits
for the device in one of the states `nexts`, with the timer running except between continue
requests. If `ok` holds, an open file is still known to be open. -/
structure Outcome (ok : Prop) (nexts : List FwState) (s s' : HpBlk) (out : List FwOut) :
    Prop where
  mem : s'.amfwdwnstate ∈ nexts
  waits : s'.amfwdwnstate ≠ .done →
    s'.hpphipcchanrr = s.hpphipcchanrr ∧ responses out = [] ∧
      (s'.amfwdwnstate ≠ .dwn → s'.hptimeron = true ∧ s'.hpticksleft = hpFwDwnTicks)
  ended : s'.amfwdwnstate = .done →
    s'.hpphipcchanrr = ciMaxIpcChan ∧ responses out = [s.hpphipcchanrr] ∧
      s'.hptimeron = false ∧ s'.hpfileopened = false ∧ s'.hpchecksum = 0
  closes : ok → s.Closes → s'.Closes

/-- Every result of an action is such an outcome. -/
def Yields (ok : Prop) (nexts : List FwState) (s : HpBlk)
    (r : Option HpBlk × List FwOut) : Prop :=
  ∀ s', r.1 = some s' → Outcome ok nexts s s' r.2

variable {ok : Prop} {os : OsAnswer} {nexts nexts' : List FwState} {s s₀ : HpBlk}
  {r : Option HpBlk × List FwOut}

theorem yields_none {out : List FwOut} : Yields ok nexts s (none, out) :=
  fun s' h => absurd h.symm (Option.some_ne_none s')

theorem yields_some {s' : HpBlk} {out : List FwOut} (h : Outcome ok nexts s s' out) :
    Yields ok nexts s (some s', out) := fun _ heq => Option.some.inj heq ▸ h

theorem Yields.mono (h : Yields ok nexts s r) (hsub : nexts ⊆ nexts') :
    Yields ok nexts' s r := fun s' hs' =>
  { h s' hs' with mem := hsub (h s' hs').mem }

/-- Only the channel and the open file of the state before matter. -/
theorem Yields.of_eq (h : Yields ok nexts s₀ r) (hchan : s₀.hpphipcchanrr = s.hpphipcchanrr)
    (hclose : ok → s.Closes → s₀.Closes) : Yields ok nexts s r := fun s' hs' =>
  { h s' hs' with
    waits := hchan ▸ (h s' hs').waits
    ended := hchan ▸ (h s' hs').ended
    closes := fun hok hs => (h s' hs').closes hok (hclose hok hs) }

/-- Outputs in front that are no responses. -/
theorem Yields.andThen {s₁ : HpBlk} {out : List FwOut} {f : HpBlk → Option HpBlk × List FwOut}
    (h : Yields ok nexts s (f s₁)) (hout : responses out = []) :
    Yields ok nexts s (andThen (some s₁, out) f) := by
  intro s' hs'
  have ho := h s' hs'
  exact
    { mem := ho.mem
      waits := fun hw => by
        rw [Machine.andThen, responses_append, hout, List.nil_append]
        exact ho.waits hw
      ended := fun he => by
        rw [Machine.andThen, responses_append, hout, List.nil_append]
        exact ho.ended he
      closes := ho.closes }

theorem yields_hpamfwdwnresp (resultcode : FwResult) (errorstring : List UInt8) :
    Yields ok [.done] s (hpamfwdwnresp resultcode errorstring s) :=
  yields_some
    { mem := List.mem_singleton.mpr rfl
      waits := fun h => absurd rfl h
      ended := fun _ => ⟨rfl, rfl, rfl, rfl, rfl⟩
      closes := fun _ hs _ => by
        cases hopen : s.hpfileopened with
        | true => rfl
        | false => exact hs hopen }

theorem yields_hpstateenter {newstate : FwState} {f : HpBlk → Option HpBlk × List FwOut}
    (h : Yields ok nexts { s with amfwdwnstate := newstate }
      (f { s with amfwdwnstate := newstate })) :
    Yields ok nexts s (andThen (hpstateenter newstate s) f) :=
  Yields.andThen (h.of_eq rfl fun _ hs => hs) rfl

theorem yields_hpstatefail (newstate : FwState) (errorstring : List UInt8) :
    Yields ok [.done] s (hpstatefail newstate errorstring s) :=
  yields_hpstateenter (yields_hpamfwdwnresp .aborted errorstring)

/-- A message was sent to the device and the timer was started. -/
theorem yields_timer {s' : HpBlk} {out : List FwOut} {state : FwState}
    (hstate : s'.amfwdwnstate = state) (hne : state ≠ .done)
    (hchan : s'.hpphipcchanrr = s.hpphipcchanrr) (hout : responses out = [])
    (hclose : s.Closes → s'.Closes) : Yields ok [state] s (some (hptimerstart s'), out) :=
  yields_some
    { mem := List.mem_singleton.mpr hstate
      waits := fun _ => ⟨hchan, hout, fun _ => ⟨rfl, rfl⟩⟩
      ended := fun h => absurd (hstate.symm.trans h) hne
      closes := fun _ => hclose }

theorem yields_hpsendreset (hstate : s.amfwdwnstate = .softReset) :
    Yields ok [.softReset] s (hpsendreset s) :=
  yields_timer hstate (by decide) rfl rfl id

theorem yields_hpsendendreq (hstate : s.amfwdwnstate = .chksum) :
    Yields ok [.chksum] s (hpsendendreq s) :=
  yields_timer hstate (by decide) rfl rfl id

theorem yields_hpsendprogreq (hstate : s.amfwdwnstate = .flash) :
    Yields ok [.flash] s (hpsendprogreq s) :=
  yields_timer hstate (by decide) rfl rfl id

/-- What reading a chunk leaves alone. -/
theorem hpreadchunk_frame {s' : HpBlk} {payload : List UInt8}
    (h : hpreadchunk os s = some (s', payload)) :
    s'.amfwdwnstate = s.amfwdwnstate ∧ s'.hpphipcchanrr = s.hpphipcchanrr ∧
      (s.Closes → s'.Closes) := by
  rw [hpreadchunk] at h
  cases hfp : s.hpfp with
  | none =>
      rw [hfp] at h
      exact absurd h.symm (Option.some_ne_none _)
  | some rest =>
      simp only [hfp, Option.ite_none_right_eq_some, Option.some.injEq, Prod.mk.injEq] at h
      obtain ⟨-, rfl, -⟩ := h
      refine ⟨rfl, rfl, fun hs hopen => ?_⟩
      exact absurd (hfp.symm.trans (hs hopen)) (Option.some_ne_none rest)

theorem yields_hpsendstartreq (hstate : s.amfwdwnstate = .startReq) :
    Yields ok [.startReq, .done] s (hpsendstartreq os s) := by
  rw [hpsendstartreq]
  cases h : hpreadchunk os s with
  | none => exact (yields_hpstatefail .startReqErr []).mono (List.subset_cons_self _ _)
  | some p =>
      obtain ⟨hst, hchan, hclose⟩ := hpreadchunk_frame h
      refine (yields_timer (hst.trans hstate) (by decide) hchan rfl hclose).mono ?_
      exact List.cons_subset_cons _ (List.nil_subset _)

theorem yields_hpsendcontreq (hstate : s.amfwdwnstate = .dwn) :
    Yields ok [.dwn, .done] s (hpsendcontreq os s) := by
  rw [hpsendcontreq]
  cases h : hpreadchunk os s with
  | none => exact (yields_hpstatefail .dwnErr []).mono (List.subset_cons_self _ _)
  | some p =>
      obtain ⟨hst, hchan, hclose⟩ := hpreadchunk_frame h
      have hdwn : p.1.amfwdwnstate = .dwn := hst.trans hstate
      exact yields_some
        { mem := hdwn ▸ List.mem_cons_self
          waits := fun _ => ⟨hchan, rfl, fun h => absurd hdwn h⟩
          ended := fun h => absurd (hdwn.symm.trans h) (by decide)
          closes := fun _ => hclose }

theorem yields_hpimageinit (hsizeok : ok → os.sizeok = true) :
    Yields ok [.softReset, .startReq, .done] s (hpimageinit os s) := by
  have hfail : ([.done] : List FwState) ⊆ [.softReset, .startReq, .done] := by simp
  rw [hpimageinit]
  cases os.files s.hpparms.amfilename with
  | none =>
      exact ((yields_hpstatefail .initErr []).mono hfail).of_eq rfl fun _ _ _ => rfl
  | some image =>
      simp only
      split_ifs with hsize hempty hzero happ
      · refine ((yields_hpstatefail .initErr []).mono hfail).of_eq rfl fun hok => ?_
        rw [hsizeok hok] at hsize
        exact Bool.noConfusion hsize
      · exact ((yields_hpstatefail .initErr []).mono hfail).of_eq rfl
          fun _ _ h => Bool.noConfusion h
      · exact yields_none
      · have hreset (s : HpBlk) :
            Yields ok [.softReset] s (andThen (hpstateenter .softReset s) hpsendreset) :=
          yields_hpstateenter (yields_hpsendreset rfl)
        exact Yields.andThen (((hreset _).mono (by simp)).of_eq rfl
          fun _ _ h => Bool.noConfusion h) rfl
      · have hstart (s : HpBlk) : Yields ok [.startReq, .done] s
            (andThen (hpstateenter .startReq s) (hpsendstartreq os)) :=
          yields_hpstateenter (yields_hpsendstartreq rfl)
        exact Yields.andThen (((hstart _).mono (by simp)).of_eq rfl
          fun _ _ h => Bool.noConfusion h) rfl

/-- Where a change of state can lead to. -/
def FwState.leadsTo : FwState → List FwState
  | .init => [.softReset, .startReq, .done]
  | .startReq => [.startReq, .done]
  | .dwn => [.dwn, .done]
  | .softReset => [.softReset]
  | .chksum => [.chksum]
  | .flash => [.flash]
  | _ => [.done]

/-- The states whose action is to wait for nothing and to answer nothing. -/
def FwState.passes (state : FwState) : Bool :=
  state = .launchFrag ∨ state = .launchFragErr ∨ state = .reset

theorem yields_hpstateupdate (newstate : FwState) (hpass : newstate.passes = false)
    (hsizeok : newstate = .init → ok → os.sizeok = true) (errorstring : List UInt8) :
    Yields ok newstate.leadsTo s (hpstateupdate os newstate errorstring s) := by
  refine yields_hpstateenter ?_
  cases newstate with
  | init => exact yields_hpimageinit (hsizeok rfl)
  | softReset => exact yields_hpsendreset rfl
  | startReq => exact yields_hpsendstartreq rfl
  | dwn => exact yields_hpsendcontreq rfl
  | chksum => exact yields_hpsendendreq rfl
  | flash => exact yields_hpsendprogreq rfl
  | launchFrag => exact absurd hpass (by decide)
  | launchFragErr => exact absurd hpass (by decide)
  | reset => exact absurd hpass (by decide)
  | done => exact yields_hpamfwdwnresp .success []
  | initErr => exact yields_hpamfwdwnresp .aborted errorstring
  | softResetErr => exact yields_hpamfwdwnresp .aborted errorstring
  | startReqErr => exact yields_hpamfwdwnresp .aborted errorstring
  | fileErr => exact yields_hpamfwdwnresp .aborted errorstring
  | dwnErr => exact yields_hpamfwdwnresp .aborted errorstring
  | chksumErr => exact yields_hpamfwdwnresp .aborted errorstring
  | flashErr => exact yields_hpamfwdwnresp .aborted errorstring
  | resetErr => exact yields_hpamfwdwnresp .aborted errorstring

/-- The same after the timer was stopped, for a state that opens no file. -/
theorem yields_hptimerstop {newstate : FwState} (hpass : newstate.passes = false)
    (hnew : newstate ≠ .init) (errorstring : List UInt8) :
    Yields ok newstate.leadsTo s (hpstateupdate os newstate errorstring (hptimerstop s)) :=
  (yields_hpstateupdate newstate hpass (fun h => absurd h hnew) errorstring).of_eq rfl
    fun _ hs => hs

end Outcomes

section Dispatch

variable {os : OsAnswer} {s : HpBlk}

/-- What the handler of a message other than a request does: nothing, count a tick, or change the
state of the download. -/
inductive Handled (s : HpBlk) : Option HpBlk × List FwOut → Prop where
  | ignored : Handled s (some s, [])
  | ticked (hon : s.hptimeron = true) (hleft : s.hpticksleft - 1 ≠ 0) :
      Handled s (some { s with hpticksleft := s.hpticksleft - 1 }, [])
  | changed {r : Option HpBlk × List FwOut} (nexts : List FwState) (h : Yields True nexts s r) :
      Handled s r

theorem handled_stop {newstate : FwState} (hpass : newstate.passes = false)
    (hnew : newstate ≠ .init) (errorstring : List UInt8) :
    Handled s (hpstateupdate os newstate errorstring (hptimerstop s)) :=
  .changed _ (yields_hptimerstop hpass hnew errorstring)

theorem handled_hpstatesoftreset (online apprunning : Bool) :
    Handled s (hpstatesoftreset os online apprunning s) := by
  rw [hpstatesoftreset]
  split_ifs
  · exact handled_stop rfl (by decide) []
  · exact handled_stop rfl (by decide) []
  · exact .ignored

theorem handled_hpstatefwstartreq (hipmsg : HpHipEvt) :
    Handled s (hpstatefwstartreq os hipmsg s) := by
  rw [hpstatefwstartreq]
  split_ifs
  · exact handled_stop rfl (by decide) _
  · exact handled_stop rfl (by decide) []
  · exact handled_stop rfl (by decide) []
  · exact .ignored

theorem handled_hpstatefwdownload (hipmsg : HpHipEvt) :
    Handled s (hpstatefwdownload os hipmsg s) := by
  rw [hpstatefwdownload]
  split_ifs
  · exact handled_stop rfl (by decide) _
  · exact handled_stop rfl (by decide) []
  · exact handled_stop rfl (by decide) []
  · exact .ignored

theorem handled_hpstatefwchksum (hipmsg : HpHipEvt) :
    Handled s (hpstatefwchksum os hipmsg s) := by
  rw [hpstatefwchksum]
  split_ifs
  · exact handled_stop rfl (by decide) _
  · exact handled_stop rfl (by decide) []
  · -- launching and finishing is one change of state with one response
    refine .changed [.done] (Yields.andThen ?_ rfl)
    exact (yields_hpstateupdate .done rfl (fun h => absurd h (by decide)) []).of_eq rfl
      fun _ hs => hs
  · exact .ignored

theorem handled_hpstatefwflash (hipmsg : HpHipEvt) :
    Handled s (hpstatefwflash os hipmsg s) := by
  rw [hpstatefwflash]
  split_ifs
  · exact handled_stop rfl (by decide) _
  · exact handled_stop rfl (by decide) []
  · exact .ignored

theorem handled_hpfwdwncbmsg (hipmsg : HpHipEvt) : Handled s (hpfwdwncbmsg os hipmsg s) := by
  rw [hpfwdwncbmsg]
  split
  · exact handled_hpstatefwstartreq hipmsg
  · exact handled_hpstatefwdownload hipmsg
  · exact handled_hpstatefwchksum hipmsg
  · exact handled_hpstatefwflash hipmsg
  · exact .ignored

theorem handled_hpmodestatechangemsg (online apprunning : Bool) :
    Handled s (hpmodestatechangemsg os online apprunning s) := by
  rw [hpmodestatechangemsg]
  split_ifs
  · exact .ignored
  · exact handled_hpstatesoftreset online apprunning
  · exact .changed _ (yields_hpstateupdate .resetErr rfl (fun h => absurd h (by decide)) [])
  · exact .ignored

theorem handled_hpfwdwntimer : Handled s (hpfwdwntimer s) := by
  simp only [hpfwdwntimer]
  split_ifs with hon hleft
  · exact .changed [.done] ((yields_hpamfwdwnresp .timeout []).of_eq rfl fun _ hs => hs)
  · exact .ticked hon hleft
  · exact .ignored

/-- Whether a message is a request. -/
def HpphEvent.isRequest : HpphEvent → Bool
  | .fwdwnreq _ => true
  | _ => false

theorem handled_hpphdispatch {e : HpphEvent} (he : e.isRequest = false) :
    Handled s (hpphdispatch os e s) := by
  cases e with
  | fwdwnreq packet => exact Bool.noConfusion he
  | fwdwncb hipmsg => exact handled_hpfwdwncbmsg hipmsg
  | modemstatecb online apprunning => exact handled_hpmodestatechangemsg online apprunning
  | tick => exact handled_hpfwdwntimer

/-- Nothing but a request does anything when no download runs. -/
theorem hpphdispatch_done {e : HpphEvent} (he : e.isRequest = false)
    (hdone : s.amfwdwnstate = .done) (hoff : s.hptimeron = false) :
    hpphdispatch os e s = (some s, []) := by
  cases e with
  | fwdwnreq packet => exact Bool.noConfusion he
  | fwdwncb hipmsg =>
      rw [hpphdispatch, hpfwdwncbmsg, hdone]
  | modemstatecb online apprunning =>
      rw [hpphdispatch, hpmodestatechangemsg, if_pos hdone]
  | tick =>
      rw [hpphdispatch, hpfwdwntimer, hoff]
      rfl

/-- A request that finds no download running starts one. -/
theorem yields_hpamfwdwnreq (packet : List UInt8) (hdone : s.amfwdwnstate = .done) :
    Yields (os.sizeok = true) [.softReset, .startReq, .done] s (hpamfwdwnreq os packet s) := by
  simp only [hpamfwdwnreq]
  rw [if_neg (fun h => h hdone)]
  exact (yields_hpstateupdate .init rfl (fun _ => id) []).of_eq rfl fun _ hs => hs

end Dispatch

section Control

/-- The requests that wait for the task. -/
def FwTask.asked (t : FwTask) : ℕ := t.hpphicmsgque.countP HpphEvent.isRequest

/-- No request, a request that waits for the task, or a download that runs: the channel is taken
in the last two cases, and free in the first. -/
inductive Control (t : FwTask) : Prop where
  | idle (hdone : t.hpgcb.amfwdwnstate = .done) (hoff : t.hpgcb.hptimeron = false)
      (hsum : t.hpgcb.hpchecksum = 0) (hasked : t.asked = 0)
      (hchan : t.hpgcb.hpphipcchanrr = ciMaxIpcChan)
  | asked (hdone : t.hpgcb.amfwdwnstate = .done) (hoff : t.hpgcb.hptimeron = false)
      (hsum : t.hpgcb.hpchecksum = 0) (hasked : t.asked = 1)
      (hchan : t.hpgcb.hpphipcchanrr ≠ ciMaxIpcChan)
  | runs (hrun : t.hpgcb.amfwdwnstate ≠ .done) (hasked : t.asked = 0)
      (hchan : t.hpgcb.hpphipcchanrr ≠ ciMaxIpcChan)

theorem AppChannel.ne_ciMaxIpcChan (c : AppChannel) : c.1 ≠ ciMaxIpcChan := by
  have h := c.lt
  rw [ciMaxIpcChan]
  omega

theorem asked_post {t : FwTask} {e : HpphEvent} (he : e.isRequest = false) :
    (t.post e).asked = t.asked := by
  rw [FwTask.asked, FwTask.asked, FwTask.post, List.countP_append, List.countP_singleton, he]
  rfl

theorem Control.post {t : FwTask} (ht : Control t) {e : HpphEvent} (he : e.isRequest = false) :
    Control (t.post e) := by
  cases ht with
  | idle hdone hoff hsum hasked hchan =>
      exact .idle hdone hoff hsum ((asked_post he).trans hasked) hchan
  | asked hdone hoff hsum hasked hchan =>
      exact .asked hdone hoff hsum ((asked_post he).trans hasked) hchan
  | runs hrun hasked hchan => exact .runs hrun ((asked_post he).trans hasked) hchan

theorem Control.hpsendfwdwnrr {t : FwTask} (ht : Control t) (c : AppChannel)
    (packet : List UInt8) : Control (hpsendfwdwnrr c.1 packet t) := by
  rw [Sdk.hpsendfwdwnrr]
  by_cases hfree : t.hpgcb.hpphipcchanrr = ciMaxIpcChan
  · rw [if_pos hfree]
    cases ht with
    | idle hdone hoff hsum hasked hchan =>
        refine .asked hdone hoff hsum ?_ c.ne_ciMaxIpcChan
        rw [FwTask.asked] at hasked
        rw [FwTask.asked, FwTask.post, List.countP_append, hasked]
        rfl
    | asked hdone hoff hsum hasked hchan => exact absurd hfree hchan
    | runs hrun hasked hchan => exact absurd hfree hchan
  · rw [if_neg hfree]
    exact ht

/-- Where a change of state leaves the task. -/
theorem Outcome.control {ok : Prop} {nexts : List FwState} {s s' : HpBlk} {out : List FwOut}
    (h : Outcome ok nexts s s' out) (hchan : s.hpphipcchanrr ≠ ciMaxIpcChan)
    {rest : List HpphEvent} (hrest : rest.countP HpphEvent.isRequest = 0) :
    Control ⟨s', rest⟩ := by
  by_cases hdone : s'.amfwdwnstate = .done
  · obtain ⟨hfree, -, hoff, -, hsum⟩ := h.ended hdone
    exact .idle hdone hoff hsum hrest hfree
  · exact .runs hdone hrest ((h.waits hdone).1 ▸ hchan)

/-- The task takes a message that is no request. -/
theorem Control.handled {s s' : HpBlk} {e : HpphEvent} {rest : List HpphEvent} {os : OsAnswer}
    (ht : Control ⟨s, e :: rest⟩) (he : e.isRequest = false)
    (hs' : (hpphdispatch os e s).1 = some s') : Control ⟨s', rest⟩ := by
  have hcount : FwTask.asked ⟨s, e :: rest⟩ = FwTask.asked ⟨s', rest⟩ := by
    rw [FwTask.asked, FwTask.asked, List.countP_cons, he]
    rfl
  cases ht with
  | idle hdone hoff hsum hasked hchan =>
      rw [hpphdispatch_done he hdone hoff] at hs'
      obtain rfl := Option.some.inj hs'
      exact .idle hdone hoff hsum (hcount ▸ hasked) hchan
  | asked hdone hoff hsum hasked hchan =>
      rw [hpphdispatch_done he hdone hoff] at hs'
      obtain rfl := Option.some.inj hs'
      exact .asked hdone hoff hsum (hcount ▸ hasked) hchan
  | runs hrun hasked hchan =>
      have hhandled : Handled s (hpphdispatch os e s) := handled_hpphdispatch he
      generalize hpphdispatch os e s = r at hhandled hs'
      cases hhandled with
      | ignored =>
          obtain rfl := Option.some.inj hs'
          exact .runs hrun (hcount ▸ hasked) hchan
      | ticked hon hleft =>
          obtain rfl := Option.some.inj hs'
          exact .runs hrun (hcount ▸ hasked) hchan
      | changed nexts h => exact (h s' hs').control hchan (hcount.symm.trans hasked)

/-- A request is only taken when no download runs. -/
theorem Control.request {s : HpBlk} {packet : List UInt8} {rest : List HpphEvent}
    (ht : Control ⟨s, .fwdwnreq packet :: rest⟩) :
    s.amfwdwnstate = .done ∧ s.hptimeron = false ∧ s.hpchecksum = 0 ∧
      s.hpphipcchanrr ≠ ciMaxIpcChan ∧ rest.countP HpphEvent.isRequest = 0 := by
  have hcount : FwTask.asked ⟨s, .fwdwnreq packet :: rest⟩ =
      rest.countP HpphEvent.isRequest + 1 := List.countP_cons_of_pos rfl
  cases ht with
  | idle hdone hoff hsum hasked hchan => exact absurd (hcount.symm.trans hasked) (by omega)
  | asked hdone hoff hsum hasked hchan =>
      exact ⟨hdone, hoff, hsum, hchan, by omega⟩
  | runs hrun hasked hchan => exact absurd (hcount.symm.trans hasked) (by omega)

/-- Every step keeps the control discipline. -/
theorem control_fwTaskStep {t t' : FwTask} (ht : Control t) {i : FwInput}
    (h : (fwTaskStep t i).1 = some t') : Control t' := by
  cases i with
  | request c packet => exact Option.some.inj h ▸ ht.hpsendfwdwnrr c packet
  | hipMessage hipmsg => exact Option.some.inj h ▸ ht.post rfl
  | modemState online apprunning => exact Option.some.inj h ▸ ht.post rfl
  | tickEvent => exact Option.some.inj h ▸ ht.post rfl
  | take os =>
      obtain ⟨s, queue⟩ := t
      cases queue with
      | nil => exact Option.some.inj h ▸ ht
      | cons e rest =>
          obtain ⟨s', hs', rfl⟩ := Option.map_eq_some_iff.mp h
          cases he : e.isRequest with
          | false => exact ht.handled he hs'
          | true =>
              cases e with
              | fwdwnreq packet =>
                  obtain ⟨hdone, -, -, hchan, hrest⟩ := ht.request
                  exact (yields_hpamfwdwnreq packet hdone s' hs').control hchan hrest
              | fwdwncb hipmsg => exact Bool.noConfusion he
              | modemstatecb online apprunning => exact Bool.noConfusion he
              | tick => exact Bool.noConfusion he

theorem control_init : Control ⟨hpfwdownloadinit, []⟩ := .idle rfl rfl rfl rfl rfl

end Control

end Sdk

end SierraSdk
