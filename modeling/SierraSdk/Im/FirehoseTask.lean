import SierraSdk.Im.Firehose
import SierraSdk.Library.Monitor
import SierraSdk.Sm.Run
import Mathlib.Tactic.IntervalCases

/-!
# The Firehose task

The task that downloads firmware over Sahara and Firehose. Its state machine has one command for
each state: the event that answers the command of a state sends the next one
(`smrun_answer`), and the other events are ignored. But a reply also sets the state directly: a
negative one that names a payload size goes back to the request for the storage information, and
two others go on to the reset or behind it (`Reply.forced`).

A reply whose event is that of the reply before is dropped, unless it complains about the XML: of
those the twentieth and the fortieth are taken again.

The file system is that of the moment at which a packet is handled. Packets are no longer than the
receive buffer, and path names fit theirs.
-/

namespace SierraSdk

namespace Im

namespace Fh

/-! ### Replies -/

/-- What `parseFirehoseCommandResp` finds in a reply. -/
inductive Reply where
  | switchConfirmed
  | processed
  | info (size : Option Int32)
  | powerReset
  | xmlError
  | configured
  | rawMode
  | nak (payload : UInt32)
  | failed
  | unknown
  deriving DecidableEq

def classify (pResp : List Char) : Reply :=
  if Has pResp "SWI supported functions: CWE" then .switchConfirmed
  else if (strstr pResp xmlHeader).isSome then
    if Has pResp "SWI CWE image processed OK" then .processed
    else if Has pResp "\"SECTOR_SIZE_IN_BYTES" then
      .info ((sectorSizeText pResp).map fun pch => Int32.ofInt (CNumerals.strtol 64 10 pch))
    else if Has pResp " Requested POWER_RESET" then .powerReset
    else if Has pResp "ERROR: XML not formed correctly" then .xmlError
    else if (strstr pResp xmlRespAck).isSome then
      if Has pResp "MaxPayloadSizeToTargetInBytes" then .configured
      else if Has pResp "rawmode=\"true\"" then .rawMode
      else .unknown
    else if (strstr pResp xmlRespNak).isSome then
      (payloadSizeText pResp).elim .unknown fun pch =>
        .nak (UInt32.ofInt (CNumerals.strtol 64 10 pch))
    else if Has pResp " HANDLE_PROGRAM_FAILURE" ∨ Has pResp "SWI Error Code" then .failed
    else .unknown
  else .unknown

namespace Reply

/-- The event of a reply that has one. -/
def event : Reply → Option FhEvent
  | switchConfirmed => some .saSwitchConfirmedRsp
  | processed => some .fhProcessRsp
  | info _ => some .fhInfoRsp
  | powerReset => some .fhResetRsp
  | xmlError => some .fhProcessRsp
  | configured => some .fhConfigureRsp
  | rawMode => some .fhProgramRsp
  | nak _ => some .saSwitchConfirmedRsp
  | failed => some .fhErrorRsp
  | unknown => none

/-- The state that a reply sets. -/
def state : Reply → Option FhState
  | powerReset => some .fhReset
  | xmlError => some .fhRawDataTrf
  | nak _ => some .saComExeData
  | _ => none

/-- The sector size that a reply names. -/
def sectorSize : Reply → Option Int32
  | info size => size
  | _ => none

/-- The payload size that a reply names. -/
def payload : Reply → Option UInt32
  | nak payload => some payload
  | _ => none

end Reply

/-- A reply is taken for what it is found to be. -/
theorem parse_eq (s : FhTask) (pResp : List Char) :
    parseFirehoseCommandResp s pResp =
      { event := (classify pResp).event.getD s.event
        gSectorSize := (classify pResp).sectorSize.getD s.gSectorSize
        maxPayloadSizeToTargetInBytes :=
          (classify pResp).payload.getD s.maxPayloadSizeToTargetInBytes
        state := (classify pResp).state.getD s.state } := by
  rw [parseFirehoseCommandResp, classify]
  by_cases hcwe : Has pResp "SWI supported functions: CWE"
  · rw [if_pos hcwe, if_pos hcwe]
    rfl
  rw [if_neg hcwe, if_neg hcwe]
  by_cases hxml : (strstr pResp xmlHeader).isSome
  swap
  · rw [if_neg hxml, if_neg hxml]
    rfl
  rw [if_pos hxml, if_pos hxml]
  by_cases hdone : Has pResp "SWI CWE image processed OK"
  · rw [if_pos hdone, if_pos hdone]
    rfl
  rw [if_neg hdone, if_neg hdone]
  by_cases hinfo : Has pResp "\"SECTOR_SIZE_IN_BYTES"
  · rw [if_pos hinfo, if_pos hinfo]
    cases sectorSizeText pResp with
    | none => rfl
    | some pch => rfl
  rw [if_neg hinfo, if_neg hinfo]
  by_cases hreset : Has pResp " Requested POWER_RESET"
  · rw [if_pos hreset, if_pos hreset]
    rfl
  rw [if_neg hreset, if_neg hreset]
  by_cases herror : Has pResp "ERROR: XML not formed correctly"
  · rw [if_pos herror, if_pos herror]
    rfl
  rw [if_neg herror, if_neg herror]
  by_cases hack : (strstr pResp xmlRespAck).isSome
  · rw [if_pos hack, if_pos hack]
    split_ifs <;> rfl
  rw [if_neg hack, if_neg hack]
  by_cases hnak : (strstr pResp xmlRespNak).isSome
  · rw [if_pos hnak, if_pos hnak]
    cases payloadSizeText pResp with
    | none => rfl
    | some pch => rfl
  rw [if_neg hnak, if_neg hnak]
  by_cases hfailed : Has pResp " HANDLE_PROGRAM_FAILURE"
  · rw [if_pos hfailed, if_pos (Or.inl hfailed)]
    rfl
  rw [if_neg hfailed]
  by_cases hcode : Has pResp "SWI Error Code"
  · rw [if_pos hcode, if_pos (Or.inr hcode)]
    rfl
  · rw [if_neg hcode, if_neg (not_or.mpr ⟨hfailed, hcode⟩)]
    rfl

/-! ### The state machine -/

namespace St

def saIdle : ℕ := 0
def saHelloRsp : ℕ := 1
def saComExe : ℕ := 2
def saComExeData : ℕ := 3
def fhInfo : ℕ := 4
def fhConfigure : ℕ := 5
def fhProgram : ℕ := 6
def fhRawDataTrf : ℕ := 7
def fhReset : ℕ := 8
def fhDoneFinal : ℕ := 9
def fhIgnore : ℕ := 11
def fhInval : ℕ := 12

end St

/-- `eFH_MAX_EVENT` -/
def fhMaxEvent : ℕ := 10

/-- The events that Sahara packets stand for are numbered before those of the replies. -/
def saHello : ℕ := 0
def saCommandReady : ℕ := 1
def saCommandExeRsp : ℕ := 2

def FhEvent.num : FhEvent → ℕ
  | .saMin => 0
  | .saSwitchConfirmedRsp => 3
  | .fhInfoRsp => 4
  | .fhConfigureRsp => 5
  | .fhProgramRsp => 6
  | .fhProcessRsp => 7
  | .fhResetRsp => 8
  | .fhErrorRsp => 9

/-- The number of a state that a reply sets. -/
def FhState.forced : FhState → Option ℕ
  | .saComExeData => some St.saComExeData
  | .fhRawDataTrf => some St.fhRawDataTrf
  | .fhReset => some St.fhReset
  | .other _ => none

/-- The state that a reply sets. -/
def Reply.forced (r : Reply) : Option ℕ := r.state.bind FhState.forced

/-- The functions of the action table. -/
inductive FhAction where
  | sasendHelloRsp
  | sasendComExe
  | sasendComExeData
  | fhinfo
  | fhsendConfig
  | fhsendProgram
  | fhsendFile
  | fhsendReset
  | fhdoneFinal
  | fhError
  deriving DecidableEq

open St in
/-- `fh_stt`. The row of the last state has no initialiser. -/
def fhStt : List (List ℕ) :=
  let i := fhIgnore
  let v := fhInval
  [[saHelloRsp, i, i, i, i, i, i, i, i, v],
    [i, saComExe, i, i, i, i, i, i, i, v],
    [i, i, saComExeData, i, i, i, i, i, i, v],
    [i, i, i, fhInfo, i, i, i, i, i, v],
    [i, i, i, i, fhConfigure, i, i, i, i, v],
    [i, i, i, i, i, fhProgram, i, i, i, v],
    [i, i, i, i, i, fhProgram, fhRawDataTrf, i, i, v],
    [i, i, i, i, i, i, i, fhReset, i, v],
    [i, i, i, i, i, i, i, i, fhDoneFinal, v],
    [0, 0, 0, 0, 0, 0, 0, 0, 0, 0]]

/-- `fh_sat` -/
def fhSat : List (List FhAction) :=
  let e := FhAction.fhError
  [[.sasendHelloRsp, e, e, e, e, e, e, e, e, e],
    [e, .sasendComExe, e, e, e, e, e, e, e, e],
    [e, e, .sasendComExeData, e, e, e, e, e, e, e],
    [e, e, e, .fhinfo, e, e, e, e, e, e],
    [e, e, e, e, .fhsendConfig, e, e, e, e, e],
    [e, e, e, e, e, .fhsendProgram, e, e, e, e],
    [e, e, e, e, e, e, .fhsendFile, e, e, e],
    [e, e, e, e, e, e, e, .fhsendReset, e, e],
    [e, e, e, e, e, e, e, e, .fhdoneFinal, e],
    [e, e, e, e, e, e, e, e, e, e]]

/-- The machine in a state. -/
def imst (state : ℕ) : Sm.SmT FhAction Unit where
  state := state
  evnum := fhMaxEvent
  sat := fhSat.flatten.map some
  stt := fhStt.flatten
  stIgnore := St.fhIgnore
  stInvld := St.fhInval
  udata := ()

/-- The action of a state for the event that answers its command. -/
def answerAction (state : ℕ) : Option FhAction := (fhSat[state]?).bind fun row => row[state]?

/-- What an event does in a state: the one that answers the command of the state advances, a second
configure response in the state behind it is an error, and so is everything after the end. -/
def advance (state ev : ℕ) : Option (ℕ × FhAction) :=
  if state = St.fhDoneFinal then some (St.saIdle, .fhError)
  else if ev = state then (answerAction state).map fun act => (state + 1, act)
  else if state = St.fhProgram ∧ ev = FhEvent.fhConfigureRsp.num then some (state, .fhError)
  else none

/-- The tables say what `advance` says. -/
theorem smrun_imst {state ev : ℕ} (hstate : state ≤ St.fhDoneFinal) (hev : ev < fhMaxEvent) :
    Sm.smrun (imst state) ev =
      some ((advance state ev).elim (imst state, none) fun next =>
        (imst next.1, some (next.2, ()))) := by
  have hs : state < 10 := Nat.lt_succ_of_le hstate
  have he : ev < 10 := hev
  interval_cases state <;> interval_cases ev <;> rfl

/-! ### The firmware file -/

/-- `enum fw_image_type_e`, without a type that no name has. -/
inductive FwImageType where
  | mbnGobi
  | cwe
  | nvu
  | spk
  | invld
  deriving DecidableEq

def imgetfiletype (path : List Char) : FwImageType :=
  if Has path ".mbn" then .mbnGobi
  else if Has path ".cwe" then .cwe
  else if Has path ".spk" then .spk
  else if Has path ".nvu" then .nvu
  else .invld

/-- The directories and the files that can be opened. -/
structure FileSystem where
  opendir : List Char → Option (List (List Char))
  fopen : List Char → Option (List UInt8)

/-- The fields of `struct imqdl` that the task uses. -/
structure Imqdl where
  filepath : List Char
  fullpathfilename : List Char
  isMDM9x15 : UInt32
  imgMask : UInt16

def imgMaskMdm : UInt16 := 1
def imgMaskPri : UInt16 := 2

/-- The images that the device has not asked for are left out. -/
def Imqdl.Requested (qdl : Imqdl) (mask : UInt16) : Prop :=
  qdl.isMDM9x15 = 1 → qdl.imgMask &&& mask ≠ 0

instance (qdl : Imqdl) (mask : UInt16) : Decidable (qdl.Requested mask) :=
  inferInstanceAs (Decidable (_ → _))

/-- The requests `mask` are done with. -/
def Imqdl.clear (qdl : Imqdl) (mask : UInt16) : Imqdl :=
  if qdl.isMDM9x15 = 1 then { qdl with imgMask := qdl.imgMask &&& ~~~mask } else qdl

def fhSetFile (qdl : Imqdl) (dName : List Char) : Imqdl :=
  { qdl with fullpathfilename := qdl.filepath ++ '/' :: dName }

/-- The loop of `getCweFname` over the entries of a directory, with the type of the entry before. -/
def findImage (qdl : Imqdl) (eftype : FwImageType) : List (List Char) → FwImageType × Imqdl
  | [] => (eftype, qdl)
  | dName :: entries =>
      match imgetfiletype dName with
      | .cwe =>
          if qdl.Requested imgMaskMdm then (.cwe, fhSetFile (qdl.clear imgMaskMdm) dName)
          else findImage qdl .cwe entries
      | .spk => (.spk, fhSetFile (qdl.clear 0xFFFF) dName)
      | .nvu =>
          if qdl.Requested imgMaskPri then (.nvu, fhSetFile (qdl.clear imgMaskPri) dName)
          else findImage qdl .nvu entries
      | .mbnGobi => findImage qdl .mbnGobi entries
      | .invld => findImage qdl .invld entries

/-- `getCweFname` for a path that is no directory. -/
def singleImage (qdl : Imqdl) (pathp : List Char) : FwImageType × Imqdl :=
  match imgetfiletype pathp with
  | .cwe => (.cwe, { qdl.clear 0xFFFF with fullpathfilename := pathp })
  | .spk => (.spk, { qdl.clear 0xFFFF with fullpathfilename := pathp })
  | .nvu =>
      if qdl.Requested imgMaskPri then
        (.nvu, { qdl.clear imgMaskPri with fullpathfilename := pathp })
      else (.nvu, qdl)
  | .mbnGobi => (.mbnGobi, qdl)
  | .invld => (.invld, qdl)

def getCweFname (fs : FileSystem) (qdl : Imqdl) : FwImageType × Imqdl :=
  match fs.opendir qdl.filepath with
  | some entries => findImage qdl .invld entries
  | none =>
      if (fs.fopen qdl.filepath).isSome then singleImage qdl qdl.filepath else (.invld, qdl)

/-! ### The task -/

/-- What the task sends to the device. The blocks of a file are sent one by one. -/
inductive FhCommand where
  | dummyPkt
  | helloRsp
  | comExe
  | comExeData
  | info
  | configure (maxPayloadSizeToTargetInBytes : ℤ)
  | program (path : List Char) (program : Program)
  | file (path : List Char) (blocks : List (List UInt8))
  | reset

inductive FhOutput where
  | sent (command : FhCommand)
  | openFailed (path : List Char)
  | flashComplete
  | terminated
  | divisionByZero

/-- The task control block, with the static variables of the parser and of the task. -/
structure FhTcb where
  alive : Bool
  state : ℕ
  vars : FhTask
  previousEvent : FhEvent
  i : ℕ
  imqdl : Imqdl

namespace FhTcb

/-- The thread ends. -/
def fhtaskshutdown (s : FhTcb) : FhTcb × List FhOutput :=
  ({ s with alive := false }, [.terminated])

def fhsendConfig (s : FhTcb) : FhTcb × List FhOutput :=
  (s, [.sent (.configure s.vars.maxPayloadSizeToTargetInBytes.toInt32.toInt)])

def fhsendProgram (fs : FileSystem) (s : FhTcb) : FhTcb × List FhOutput :=
  let image := getCweFname fs s.imqdl
  let s := { s with imqdl := image.2 }
  if image.1 = .invld then s.fhtaskshutdown
  else
    match fs.fopen s.imqdl.fullpathfilename with
    | none => (s, [.openFailed s.imqdl.fullpathfilename])
    | some file =>
        match Fh.fhsendProgram s.vars.gSectorSize file.length with
        | none => ({ s with alive := false }, [.divisionByZero])
        | some program => (s, [.sent (.program s.imqdl.fullpathfilename program)])

def fhsendFile (fs : FileSystem) (s : FhTcb) : FhTcb × List FhOutput :=
  match fs.fopen s.imqdl.fullpathfilename with
  | none => (s, [.openFailed s.imqdl.fullpathfilename])
  | some file => (s, [.sent (.file s.imqdl.fullpathfilename (Fh.fhsendFile file))])

/-- The action that the state machine calls. -/
def perform (fs : FileSystem) (s : FhTcb) : FhAction → FhTcb × List FhOutput
  | .sasendHelloRsp => (s, [.sent .helloRsp])
  | .sasendComExe => (s, [.sent .comExe])
  | .sasendComExeData => (s, [.sent .comExeData])
  | .fhinfo => (s, [.sent .info])
  | .fhsendConfig => s.fhsendConfig
  | .fhsendProgram => s.fhsendProgram fs
  | .fhsendFile => s.fhsendFile fs
  | .fhsendReset => (s, [.sent .reset, .flashComplete])
  | .fhdoneFinal => s.fhtaskshutdown
  | .fhError => s.fhtaskshutdown

/-- `smrun` on the machine of the task. -/
def smrun (fs : FileSystem) (s : FhTcb) (ev : ℕ) : FhTcb × List FhOutput :=
  match Sm.smrun (imst s.state) ev with
  | none => (s, [])
  | some (sm, none) => ({ s with state := sm.state }, [])
  | some (sm, some (act, _)) => perform fs { s with state := sm.state } act

end FhTcb

/-- The command byte of a Sahara packet. -/
def parseSaharaCommandResp (command : UInt8) : ℕ :=
  if command = 0x01 then saHello
  else if command = 0x0B then saCommandReady
  else if command = 0x0E then saCommandExeRsp
  else 0

/-- A text up to the first delimiter behind a name: `strtok` ends it there. -/
def cutBehind (text name : List Char) (delimiter : Char) : List Char :=
  (strstr text name).elim text fun rest =>
    text.take (text.length - rest.length) ++ rest.takeWhile (· != delimiter)

/-- What is left of a reply after it has been parsed. Where no payload size is found behind its name,
there are only delimiters to be cut off. -/
def parsedText (pResp : List Char) : List Char :=
  match classify pResp with
  | .info _ => cutBehind pResp "SECTOR_SIZE_IN_BYTES".toList '='
  | .nak _ => cutBehind pResp "MaxPayloadSizeToTargetInBytes".toList '"'
  | _ => pResp

/-- The reply complains about the XML. -/
def Complains (pResp : List Char) : Prop := Has (parsedText pResp) "XML not formed correctly"

instance (pResp : List Char) : Decidable (Complains pResp) := inferInstanceAs (Decidable (Has _ _))

namespace FhTcb

/-- A reply is parsed. -/
def parse (s : FhTcb) (pResp : List Char) : FhTcb :=
  let vars := parseFirehoseCommandResp { s.vars with state := .other 0 } pResp
  { s with
    vars := vars
    state := vars.state.forced.getD s.state }

section Parse

variable (s : FhTcb) (pResp : List Char)

theorem parse_state : (s.parse pResp).state = (classify pResp).forced.getD s.state := by
  rw [parse, parse_eq, Reply.forced]
  cases (classify pResp).state with
  | none => rfl
  | some state => rfl

theorem parse_event : (s.parse pResp).vars.event = (classify pResp).event.getD s.vars.event := by
  rw [parse, parse_eq]

theorem parse_sectorSize :
    (s.parse pResp).vars.gSectorSize = (classify pResp).sectorSize.getD s.vars.gSectorSize := by
  rw [parse, parse_eq]

theorem parse_payload :
    (s.parse pResp).vars.maxPayloadSizeToTargetInBytes =
      (classify pResp).payload.getD s.vars.maxPayloadSizeToTargetInBytes := by
  rw [parse, parse_eq]

end Parse

/-- What the task does about a parsed reply: `i` counts the complaints that are dropped. -/
def react (fs : FileSystem) (s : FhTcb) (pResp : List Char) : FhTcb × List FhOutput :=
  if s.vars.event ≠ s.previousEvent then s.smrun fs s.vars.event.num
  else if Complains pResp then
    if s.i + 1 = 20 ∨ s.i + 1 = 40 then
      FhTcb.smrun fs { s with i := s.i + 1 } s.vars.event.num
    else ({ s with i := s.i + 1 }, [])
  else (s, [])

/-- `previous_event = event` -/
def remember (event : FhEvent) (r : FhTcb × List FhOutput) : FhTcb × List FhOutput :=
  ({ r.1 with previousEvent := event }, r.2)

/-- `e_FIREHOSE_RESP` -/
def firehoseResp (fs : FileSystem) (s : FhTcb) (pResp : List Char) : FhTcb × List FhOutput :=
  remember (s.parse pResp).vars.event ((s.parse pResp).react fs pResp)

end FhTcb

/-- The characters of a C string in a buffer. -/
def cText (imbufp : List UInt8) : List Char :=
  (imbufp.takeWhile (· != 0)).map fun b => Char.ofNat b.toNat

/-- What the task is woken up by. A packet comes with the file system of that moment. -/
inductive FhInput where
  | packet (fs : FileSystem) (imbufp : List UInt8)
  | tmrTick
  | terminate

/-- `fhimrxpkt`: XML starts with `<`. -/
def IsXml (imbufp : List UInt8) : Prop := imbufp.headD 0 = 0x3C

instance (imbufp : List UInt8) : Decidable (IsXml imbufp) := inferInstanceAs (Decidable (_ = _))

namespace FhTcb

/-- One round of the loop of `fhtask`. -/
def handle (s : FhTcb) : FhInput → FhTcb × List FhOutput
  | .packet fs imbufp =>
      if IsXml imbufp then s.firehoseResp fs (cText imbufp)
      else s.smrun fs (parseSaharaCommandResp (imbufp.headD 0))
  | .tmrTick => (s, [])
  | .terminate => s.fhtaskshutdown

def step (s : FhTcb) (input : FhInput) : FhTcb × List FhOutput :=
  if s.alive then s.handle input else (s, [])

end FhTcb

/-- The task starts with the values that the parser was left with. -/
def fhtask (vars : FhTask) (qdl : Imqdl) : FhTcb where
  alive := true
  state := St.saIdle
  vars := vars
  previousEvent := .saMin
  i := 0
  imqdl := { qdl with fullpathfilename := [] }

/-! ### What is seen of a run -/

inductive FhSeen where
  | received (fs : FileSystem) (imbufp : List UInt8)
  | output (o : FhOutput)

def FhInput.seen : FhInput → List FhSeen
  | .packet fs imbufp => [.received fs imbufp]
  | .tmrTick => []
  | .terminate => []

/-- A round with what is received in it. -/
def traced (s : FhTcb) (input : FhInput) : FhTcb × List FhSeen :=
  ((s.step input).1, input.seen ++ (s.step input).2.map .output)

/-- What is seen of the task behind its first packet. -/
def fhtrace (vars : FhTask) (qdl : Imqdl) (inputs : List FhInput) : List FhSeen :=
  Machine.outputs traced (fhtask vars qdl) inputs

/-- The stage of the download that a command leads to. -/
def FhCommand.stage : FhCommand → ℕ
  | .dummyPkt => 0
  | .helloRsp => 1
  | .comExe => 2
  | .comExeData => 3
  | .info => 4
  | .configure _ => 5
  | .program _ _ => 6
  | .file _ _ => 7
  | .reset => 8

/-- What a packet of the device says: a Sahara packet says nothing but its command. -/
def replyOf (imbufp : List UInt8) : Reply :=
  if IsXml imbufp then classify (cText imbufp) else .unknown

/-- How far the download has come: the stage, the stage whose command the last packet answers, what
the replies have said last, and whether a reset was the last thing that was seen. -/
structure FhProgress where
  ended : Bool
  stage : ℕ
  answered : ℕ
  event : FhEvent
  sectorSize : Int32
  payload : UInt32
  path : List Char
  fs : FileSystem
  resetting : Bool

namespace FhProgress

/-- A packet is received. A reply that says nothing repeats the event of the one before. -/
def receive (p : FhProgress) (fs : FileSystem) (imbufp : List UInt8) : FhProgress where
  ended := p.ended
  stage := (replyOf imbufp).forced.getD p.stage
  answered :=
    if IsXml imbufp then ((replyOf imbufp).event.getD p.event).num
    else parseSaharaCommandResp (imbufp.headD 0)
  event := (replyOf imbufp).event.getD p.event
  sectorSize := (replyOf imbufp).sectorSize.getD p.sectorSize
  payload := (replyOf imbufp).payload.getD p.payload
  path := p.path
  fs := fs
  resetting := false

/-- A file that cannot be opened is passed over. -/
def note (p : FhProgress) : FhSeen → FhProgress
  | .received fs imbufp => p.receive fs imbufp
  | .output (.sent (.program path _)) => { p with stage := 6, path := path, resetting := false }
  | .output (.sent command) =>
      { p with stage := command.stage, resetting := command.stage = St.fhReset }
  | .output (.openFailed path) =>
      { p with stage := p.stage + 1, path := path, resetting := false }
  | .output .flashComplete => { p with resetting := false }
  | .output .terminated => { p with ended := true, resetting := false }
  | .output .divisionByZero => { p with ended := true, resetting := false }

/-- What a command has in it. -/
def Carries (p : FhProgress) : FhCommand → Prop
  | .configure size => size = p.payload.toInt32.toInt
  | .program path program =>
      ∃ file, p.fs.fopen path = some file ∧
        program ∈ Fh.fhsendProgram p.sectorSize file.length
  | .file path blocks =>
      path = p.path ∧ ∃ file, p.fs.fopen path = some file ∧ blocks = Fh.fhsendFile file
  | _ => True

/-- The command in turn is the one of the next stage, if the packet answers the one of this stage. -/
def Allowed (p : FhProgress) : FhSeen → Prop
  | .received _ _ => True
  | .output (.sent command) =>
      p.ended = false ∧ command.stage = p.stage + 1 ∧ p.answered = p.stage ∧ p.Carries command
  | .output (.openFailed path) =>
      p.ended = false ∧ p.answered = p.stage ∧ p.fs.fopen path = none ∧
        (p.stage = 5 ∨ p.stage = 6 ∧ path = p.path)
  | .output .flashComplete => p.ended = false ∧ p.resetting = true
  | .output .terminated => p.ended = false
  | .output .divisionByZero =>
      p.ended = false ∧ p.stage = 5 ∧ p.answered = 5 ∧ p.sectorSize = 0

end FhProgress

/-- Every command is in turn. -/
def InOrder (p : FhProgress) (seen : List FhSeen) : Prop :=
  Machine.Along FhProgress.note FhProgress.Allowed p seen

/-- The task has been started. -/
def FhProgress.start (vars : FhTask) (fs : FileSystem) : FhProgress where
  ended := false
  stage := 0
  answered := 0
  event := vars.event
  sectorSize := vars.gSectorSize
  payload := vars.maxPayloadSizeToTargetInBytes
  path := []
  fs := fs
  resetting := false

section Order

variable {s : FhTcb} {p : FhProgress} {fs : FileSystem} {ev state : ℕ}

/-- The task stands where the download does, and knows what the replies have said. -/
structure Stands (s : FhTcb) (p : FhProgress) : Prop where
  state : s.state = p.stage
  active : s.state < St.fhDoneFinal
  event : s.vars.event = p.event
  sectorSize : s.vars.gSectorSize = p.sectorSize
  payload : s.vars.maxPayloadSizeToTargetInBytes = p.payload
  path : s.state = St.fhProgram → s.imqdl.fullpathfilename = p.path

/-- The task is where the download is, unless both have ended. -/
structure At (s : FhTcb) (p : FhProgress) : Prop where
  ended : p.ended = !s.alive
  stands : s.alive = true → Stands s p

theorem FhTcb.smrun_eq (hstate : s.state ≤ St.fhDoneFinal) (hev : ev < fhMaxEvent) :
    s.smrun fs ev =
      (advance s.state ev).elim (s, []) fun next =>
        FhTcb.perform fs { s with state := next.1 } next.2 := by
  rw [FhTcb.smrun, smrun_imst hstate hev]
  cases advance s.state ev with
  | none => rfl
  | some next => rfl

theorem FhEvent.num_lt (event : FhEvent) : event.num < fhMaxEvent := by
  cases event <;> decide

theorem parseSaharaCommandResp_lt (command : UInt8) :
    parseSaharaCommandResp command < fhMaxEvent := by
  rw [parseSaharaCommandResp]
  split_ifs <;> decide

/-- What an event can do before the end. -/
theorem advance_cases (hstate : state < St.fhDoneFinal) {next : ℕ × FhAction}
    (h : advance state ev = some next) :
    (ev = state ∧ next.1 = state + 1 ∧ answerAction state = some next.2) ∨
      next.2 = .fhError := by
  rw [advance, if_neg (Nat.ne_of_lt hstate)] at h
  by_cases hev : ev = state
  · rw [if_pos hev] at h
    obtain ⟨act, hact, rfl⟩ := Option.map_eq_some_iff.mp h
    exact .inl ⟨hev, rfl, hact⟩
  · rw [if_neg hev] at h
    obtain ⟨-, hnext⟩ := Option.ite_none_right_eq_some.mp h
    exact .inr (congrArg Prod.snd (Option.some.inj hnext)).symm

/-- The outputs of a result are in order, and the task is where they lead. -/
def Orderly (p : FhProgress) (r : FhTcb × List FhOutput) : Prop :=
  InOrder p (r.2.map .output) ∧ At r.1 ((r.2.map .output).foldl FhProgress.note p)

theorem At.orderly_nil (h : At s p) : Orderly p (s, []) := ⟨trivial, h⟩

/-- The thread ends. -/
theorem at_ended (halive : s.alive = false) (hended : p.ended = true) : At s p where
  ended := by rw [hended, halive]; rfl
  stands h := absurd (halive.symm.trans h) Bool.false_ne_true

theorem orderly_shutdown (hended : p.ended = false) : Orderly p s.fhtaskshutdown :=
  ⟨⟨hended, trivial⟩, at_ended rfl rfl⟩

/-- The task goes on. -/
theorem Stands.at (h : Stands s p) (halive : s.alive = true) (hended : p.ended = false) : At s p where
  ended := by rw [hended, halive]; rfl
  stands _ := h

/-- A command in turn is sent, other than the one that names a file. -/
theorem Stands.sent (h : Stands s p) (halive : s.alive = true) (hended : p.ended = false)
    (hanswered : p.answered = p.stage) {command : FhCommand}
    (hstage : command.stage = s.state + 1) (hlast : s.state + 1 < St.fhDoneFinal)
    (hfile : s.state + 1 ≠ St.fhProgram) (hcarries : p.Carries command)
    (hnote : p.note (.output (.sent command)) =
      { p with stage := command.stage, resetting := command.stage = St.fhReset }) :
    Orderly p ({ s with state := s.state + 1 }, [.sent command]) := by
  have hturn : command.stage = p.stage + 1 := by rw [hstage, h.state]
  refine ⟨⟨⟨hended, hturn, hanswered, hcarries⟩, trivial⟩, ?_⟩
  rw [List.map_cons, List.map_nil, List.foldl_cons, List.foldl_nil, hnote]
  have hstands : Stands { s with state := s.state + 1 }
      { p with stage := command.stage, resetting := command.stage = St.fhReset } :=
    { h with
      state := hstage.symm
      active := hlast
      path := fun heq => absurd heq hfile }
  exact hstands.at halive hended

/-- The file is announced, unless there is none. -/
theorem Stands.fhsendProgram (h : Stands s p) (halive : s.alive = true) (hended : p.ended = false)
    (hanswered : p.answered = p.stage) (hstate : s.state = St.fhConfigure) (hfs : p.fs = fs) :
    Orderly p (FhTcb.fhsendProgram fs { s with state := s.state + 1 }) := by
  subst hfs
  have hstage : p.stage = 5 := by rw [← h.state, hstate]; rfl
  have hanswer : p.answered = 5 := hanswered.trans hstage
  have hnext : s.state + 1 = 6 := by rw [hstate]; rfl
  rw [FhTcb.fhsendProgram]
  generalize getCweFname p.fs { s with state := s.state + 1 }.imqdl = image
  by_cases hinvld : image.1 = .invld
  · simp only [if_pos hinvld]
    exact orderly_shutdown hended
  · simp only [if_neg hinvld]
    have hat : At { s with state := s.state + 1, imqdl := image.2 }
        { p with stage := 6, path := image.2.fullpathfilename, resetting := false } := by
      have hstands : Stands { s with state := s.state + 1, imqdl := image.2 }
          { p with stage := 6, path := image.2.fullpathfilename, resetting := false } :=
        { h with
          state := hnext
          active := hnext.trans_lt (by decide)
          path := fun _ => rfl }
      exact hstands.at halive hended
    cases hfile : p.fs.fopen image.2.fullpathfilename with
    | none =>
        refine ⟨⟨⟨hended, hanswered, hfile, .inl hstage⟩, trivial⟩, ?_⟩
        rw [List.map_cons, List.map_nil, List.foldl_cons, List.foldl_nil, FhProgress.note, hstage]
        exact hat
    | some file =>
        simp only
        cases hprogram : Fh.fhsendProgram s.vars.gSectorSize file.length with
        | none =>
            have hzero : s.vars.gSectorSize = 0 := by
              by_contra hne
              rw [Fh.fhsendProgram, if_neg hne] at hprogram
              exact Option.some_ne_none _ hprogram
            exact ⟨⟨⟨hended, hstage, hanswer, h.sectorSize ▸ hzero⟩, trivial⟩, at_ended rfl rfl⟩
        | some program =>
            refine ⟨⟨⟨hended, hstage ▸ rfl, hanswered, file, hfile, ?_⟩, trivial⟩, hat⟩
            rw [← h.sectorSize]
            exact hprogram

/-- The file is streamed, if it can still be opened. -/
theorem Stands.fhsendFile (h : Stands s p) (halive : s.alive = true) (hended : p.ended = false)
    (hanswered : p.answered = p.stage) (hstate : s.state = St.fhProgram) (hfs : p.fs = fs) :
    Orderly p (FhTcb.fhsendFile fs { s with state := s.state + 1 }) := by
  subst hfs
  have hstage : p.stage = 6 := by rw [← h.state, hstate]; rfl
  have hnext : s.state + 1 = 7 := by rw [hstate]; rfl
  have hpath := h.path hstate
  have hlast : s.state + 1 < St.fhDoneFinal := hnext.trans_lt (by decide)
  have hfile : s.state + 1 ≠ St.fhProgram := by rw [hnext]; decide
  rw [FhTcb.fhsendFile]
  simp only
  cases hopen : p.fs.fopen s.imqdl.fullpathfilename with
  | none =>
      refine ⟨⟨⟨hended, hanswered, hopen, .inr ⟨hstage, hpath⟩⟩, trivial⟩, ?_⟩
      have hstands : Stands { s with state := s.state + 1 }
          { p with
            stage := p.stage + 1
            path := s.imqdl.fullpathfilename
            resetting := false } :=
        { h with
          state := congrArg (· + 1) h.state
          active := hlast
          path := fun heq => absurd heq hfile }
      exact hstands.at halive hended
  | some file =>
      have hcarries : p.Carries (.file s.imqdl.fullpathfilename (Fh.fhsendFile file)) :=
        ⟨hpath, file, hopen, rfl⟩
      exact h.sent halive hended hanswered hnext.symm hlast hfile hcarries rfl

/-- The reset is sent, and the download is reported as complete. -/
theorem Stands.fhsendReset (h : Stands s p) (halive : s.alive = true) (hended : p.ended = false)
    (hanswered : p.answered = p.stage) (hstate : s.state = St.fhRawDataTrf) :
    Orderly p ({ s with state := s.state + 1 }, [.sent .reset, .flashComplete]) := by
  have hnext : s.state + 1 = 8 := by rw [hstate]; rfl
  have hlast : s.state + 1 < St.fhDoneFinal := hnext.trans_lt (by decide)
  have hfile : s.state + 1 ≠ St.fhProgram := by rw [hnext]; decide
  have hsent : Orderly p ({ s with state := s.state + 1 }, [.sent .reset]) :=
    h.sent halive hended hanswered hnext.symm hlast hfile trivial rfl
  obtain ⟨⟨hallowed, -⟩, hat⟩ := hsent
  have hstands := hat.stands halive
  exact ⟨⟨hallowed, ⟨hended, rfl⟩, trivial⟩, Stands.at { hstands with } halive hended⟩

/-- The event that answers the command of the state. -/
theorem Stands.perform (h : Stands s p) (halive : s.alive = true) (hended : p.ended = false)
    (hanswered : p.answered = p.stage) (hfs : p.fs = fs) {act : FhAction}
    (hact : answerAction s.state = some act) :
    Orderly p (FhTcb.perform fs { s with state := s.state + 1 } act) := by
  have hlt : s.state < 9 := h.active
  have hsent (command : FhCommand) (hstate : s.state + 1 ≤ 5)
      (hstage : command.stage = s.state + 1) (hcarries : p.Carries command)
      (hnote : p.note (.output (.sent command)) =
        { p with stage := command.stage, resetting := command.stage = St.fhReset }) :
      Orderly p ({ s with state := s.state + 1 }, [.sent command]) := by
    refine h.sent halive hended hanswered hstage ?_ ?_ hcarries hnote
    · exact Nat.lt_of_le_of_lt hstate (by decide)
    · exact Nat.ne_of_lt (Nat.lt_of_le_of_lt hstate (by decide))
  have hpayload : p.Carries (.configure s.vars.maxPayloadSizeToTargetInBytes.toInt32.toInt) :=
    congrArg (fun size : UInt32 => size.toInt32.toInt) h.payload
  obtain ⟨k, hk⟩ : ∃ k, s.state = k := ⟨_, rfl⟩
  rw [hk] at hact hlt
  interval_cases k <;> obtain rfl := Option.some.inj hact
  · exact hsent .helloRsp (by rw [hk]; decide) (by rw [hk]; rfl) trivial rfl
  · exact hsent .comExe (by rw [hk]; decide) (by rw [hk]; rfl) trivial rfl
  · exact hsent .comExeData (by rw [hk]; decide) (by rw [hk]; rfl) trivial rfl
  · exact hsent .info (by rw [hk]; decide) (by rw [hk]; rfl) trivial rfl
  · exact hsent (.configure _) (by rw [hk]) (by rw [hk]; rfl) hpayload rfl
  · exact h.fhsendProgram halive hended hanswered hk hfs
  · exact h.fhsendFile halive hended hanswered hk hfs
  · exact h.fhsendReset halive hended hanswered hk
  · exact orderly_shutdown hended

/-- An event is run. -/
theorem Stands.smrun (h : Stands s p) (halive : s.alive = true) (hended : p.ended = false)
    (hev : ev < fhMaxEvent) (hanswered : p.answered = ev) (hfs : p.fs = fs) :
    Orderly p (s.smrun fs ev) := by
  rw [FhTcb.smrun_eq (Nat.le_of_lt h.active) hev]
  cases hnext : advance s.state ev with
  | none => exact (h.at halive hended).orderly_nil
  | some next =>
      rcases advance_cases h.active hnext with ⟨rfl, hstate, hact⟩ | herror
      · rw [Option.elim_some, hstate]
        exact h.perform halive hended (hanswered.trans h.state) hfs hact
      · rw [Option.elim_some, herror]
        exact orderly_shutdown hended

/-- No reply sets the state in which a file is announced, or the last one. -/
theorem Reply.forced_cases (r : Reply) :
    r.forced = none ∨ ∃ state, r.forced = some state ∧ state < St.fhDoneFinal ∧
      state ≠ St.fhProgram := by
  cases r with
  | powerReset => exact .inr ⟨_, rfl, by decide, by decide⟩
  | xmlError => exact .inr ⟨_, rfl, by decide, by decide⟩
  | nak payload => exact .inr ⟨_, rfl, by decide, by decide⟩
  | _ => exact .inl rfl

/-- A reply is parsed: the task knows what it says, and stands where it sets it. -/
theorem Stands.parse (h : Stands s p) (fs : FileSystem) {imbufp : List UInt8}
    (hxml : IsXml imbufp) : Stands (s.parse (cText imbufp)) (p.receive fs imbufp) := by
  have hreply : replyOf imbufp = classify (cText imbufp) := if_pos hxml
  have hstate : (s.parse (cText imbufp)).state = (replyOf imbufp).forced.getD s.state := by
    rw [FhTcb.parse_state, hreply]
  refine {
    state := by rw [hstate, h.state, FhProgress.receive]
    active := ?_
    event := by rw [FhTcb.parse_event, FhProgress.receive, hreply, h.event]
    sectorSize := by rw [FhTcb.parse_sectorSize, FhProgress.receive, hreply, h.sectorSize]
    payload := by rw [FhTcb.parse_payload, FhProgress.receive, hreply, h.payload]
    path := ?_ }
  · rw [hstate]
    rcases (replyOf imbufp).forced_cases with hnone | ⟨state, hsome, hlt, -⟩
    · rw [hnone]
      exact h.active
    · rw [hsome]
      exact hlt
  · rw [hstate]
    rcases (replyOf imbufp).forced_cases with hnone | ⟨state, hsome, -, hne⟩
    · rw [hnone]
      exact h.path
    · rw [hsome]
      exact fun heq => absurd heq hne

/-- A Sahara packet says nothing. -/
theorem Stands.receive (h : Stands s p) (fs : FileSystem) {imbufp : List UInt8}
    (hxml : ¬ IsXml imbufp) : Stands s (p.receive fs imbufp) := by
  have hreply : replyOf imbufp = .unknown := if_neg hxml
  rw [FhProgress.receive, hreply]
  exact { h with }

/-- The bookkeeping of the task is of no account for where it stands. -/
theorem Stands.congr (h : Stands s p) (event : FhEvent) (i : ℕ) :
    Stands { s with previousEvent := event, i := i } p := { h with }

theorem Stands.firehoseResp (h : Stands s p) (halive : s.alive = true) (hended : p.ended = false)
    {imbufp : List UInt8} (hxml : IsXml imbufp) :
    Orderly (p.receive fs imbufp) (s.firehoseResp fs (cText imbufp)) := by
  have hparse := h.parse fs hxml
  have hanswered : (p.receive fs imbufp).answered = (s.parse (cText imbufp)).vars.event.num := by
    rw [hparse.event]
    exact if_pos hxml
  have hafter {r : FhTcb × List FhOutput} (hr : Orderly (p.receive fs imbufp) r)
      (event : FhEvent) : Orderly (p.receive fs imbufp) (FhTcb.remember event r) :=
    ⟨hr.1, hr.2.ended, fun halive => (hr.2.stands halive).congr event r.1.i⟩
  have hrun := hparse.smrun halive hended (FhEvent.num_lt _) hanswered rfl
  have hcounted := hparse.congr (s.parse (cText imbufp)).previousEvent
    ((s.parse (cText imbufp)).i + 1)
  have hagain := hcounted.smrun halive hended (FhEvent.num_lt _) hanswered rfl
  rw [FhTcb.firehoseResp, FhTcb.react]
  refine hafter ?_ _
  split_ifs with hnew hcomplains
  · exact hrun
  · exact hagain
  · exact (hcounted.at halive hended).orderly_nil
  · exact (hparse.at halive hended).orderly_nil

/-- A round of the task. -/
theorem At.traced (h : At s p) (input : FhInput) :
    InOrder p (traced s input).2 ∧
      At (traced s input).1 ((traced s input).2.foldl FhProgress.note p) := by
  rw [Fh.traced, FhTcb.step]
  cases halive : s.alive with
  | true =>
      have hended : p.ended = false := by rw [h.ended, halive]; rfl
      have hstands := h.stands halive
      rw [if_pos rfl]
      cases input with
      | packet fs imbufp =>
          have horderly : Orderly (p.receive fs imbufp)
              (if IsXml imbufp then s.firehoseResp fs (cText imbufp)
                else s.smrun fs (parseSaharaCommandResp (imbufp.headD 0))) := by
            by_cases hxml : IsXml imbufp
            · rw [if_pos hxml]
              exact hstands.firehoseResp halive hended hxml
            · rw [if_neg hxml]
              exact (hstands.receive fs hxml).smrun halive hended (parseSaharaCommandResp_lt _)
                (if_neg hxml) rfl
          exact ⟨⟨trivial, horderly.1⟩, horderly.2⟩
      | tmrTick => exact ⟨trivial, h⟩
      | terminate => exact orderly_shutdown hended
  | false =>
      have hended : p.ended = true := by rw [h.ended, halive]; rfl
      rw [if_neg Bool.false_ne_true]
      cases input with
      | packet fs imbufp => exact ⟨⟨trivial, trivial⟩, at_ended halive hended⟩
      | tmrTick => exact ⟨trivial, h⟩
      | terminate => exact ⟨trivial, h⟩

theorem at_fhtask (vars : FhTask) (qdl : Imqdl) (fs : FileSystem) :
    At (fhtask vars qdl) (.start vars fs) where
  ended := rfl
  stands _ := {
    state := rfl
    active := Nat.zero_lt_succ 8
    event := rfl
    sectorSize := rfl
    payload := rfl
    path := fun h => absurd h (Nat.succ_ne_zero 5).symm }

end Order

end Fh

end Im

end SierraSdk
