import SierraSdk.Qm.BufferCursor
import SierraSdk.Qm.TlvRoundTrip
import SierraSdk.Qm.LocalServices

/-!
# What device connectivity requests say

The requests of the device connectivity service that have parameters are unpacked by
`qmunpack`. What a request does not say stays as the stack of its handler has it. A request to
connect names a device node and a device key, and its handler compares them with those of the
connected device: the node as far as the one of the request goes, the key over fourteen
characters. Whatever comes out, the response says success unless no device was found.

A `DcsWorld` is what a request meets: the connected device, the memory that was not set, and
the driver. `DcsWorld.env` is what follows for the handlers of the request.
-/

namespace SierraSdk

namespace Am

/-- `eQCWWAN_ERR_BUFFER_SZ` -/
def EQCWWANError.bufferSz : EQCWWANError := 5

theorem EQCWWANError.memory_ne_none : EQCWWANError.memory ≠ EQCWWANError.none := by decide

theorem EQCWWANError.bufferSz_ne_none : EQCWWANError.bufferSz ≠ EQCWWANError.none := by decide

end Am

namespace Qm

open Am Memory

/-- `QMI_RC_SUCCESS` and `QMI_RC_FAILURE` -/
def qmiRcSuccess : UInt16 := 0
def qmiRcFailure : UInt16 := 1

/-- `SWI_USB_MAX_PATH` and `QMI_MEID_BUF_SIZE` -/
def swiUsbMaxPath : ℕ := 256
def qmiMeidBufSize : ℕ := 15

/-- The characters of a buffer, up to the one that ends a string. -/
def cString (bytes : List UInt8) : List UInt8 := bytes.takeWhile fun c => c ≠ 0

/-- Whether `slstrncmp` finds no difference. -/
def slstrncmp (s1p s2p : List UInt8) : ℕ → Bool
  | 0 => true
  | length + 1 =>
      if s1p.headD 0 ≠ 0 ∧ s2p.headD 0 ≠ 0 then
        s1p.headD 0 = s2p.headD 0 && slstrncmp s1p.tail s2p.tail length
      else s1p.headD 0 = s2p.headD 0

/-- The parameters of the requests; `none` is what a request does not say. -/
structure DcsReqTlvs where
  devnode : Option (List UInt8)
  devkey : Option (List UInt8)
  srvStatus : Option UInt8
  mask : Option UInt8
  dscp : Option UInt8
  qos_id : Option UInt32
  marks : Option (UInt32 × UInt32)
  period : Option UInt32

/-- A request that says nothing. -/
def DcsReqTlvs.unset : DcsReqTlvs := ⟨none, none, none, none, none, none, none, none⟩

section Unpackers

/-- `GetStringLen`: the length in the header of the TLV, behind which the cursor is. -/
def GetStringLen (tbuf : QmTBuffer) : Option UInt16 :=
  if tbuf.Index - 2 + 2 ≤ tbuf.Size then some (wordAt tbuf.Datap (tbuf.Index - 2)) else none

/-- `qmQmiExtractString`: the code, the cursor, and the string if there is one. Bytes that are
missing leave the cursor at the end of the message. -/
def qmQmiExtractString (tbuf : QmTBuffer) (lengthBuffer : ℕ) :
    EQCWWANError × ℕ × Option (List UInt8) :=
  match GetStringLen tbuf with
  | none => (EQCWWANError.memory, tbuf.Index, none)
  | some tlvLength =>
      if lengthBuffer ≤ tlvLength.toNat then (EQCWWANError.bufferSz, tbuf.Index, none)
      else if tlvLength = 0 then (EQCWWANError.none, tbuf.Index, none)
      else
        match getBytes tbuf tlvLength.toNat with
        | none => (EQCWWANError.memory, max tbuf.Index tbuf.Size, none)
        | some (bytes, tbuf) => (EQCWWANError.none, tbuf.Index, some bytes)

/-- `qm_dcs_connect_device_node_unpack_tlv` -/
def deviceNodeItem : QmTlvUnpackerItem DcsReqTlvs where
  tlvType := 0
  Unpacker tbuf req :=
    let r := qmQmiExtractString tbuf swiUsbMaxPath
    (r.1, UInt16.ofNat r.2.1, { req with devnode := r.2.2.or req.devnode })
  valid := by decide

/-- `qm_dcs_connect_device_key_unpack_tlv`, which takes fourteen bytes whatever the length of
the TLV is. -/
def deviceKeyItem : QmTlvUnpackerItem DcsReqTlvs where
  tlvType := 1
  Unpacker tbuf req :=
    let r := GetStream tbuf (UInt32.ofNat (qmiMeidBufSize - 1))
    (r.1, UInt16.ofNat r.2.2.Index, { req with devkey := some r.2.1 })
  valid := by decide

/-- An unpacker of a value of fixed size. -/
def valueItem {α : Type*} (tlvType : UInt8) (valid : tlvType ≠ eTlvTypeInvalid)
    (get : QmTBuffer → Option (α × QmTBuffer)) (put : α → DcsReqTlvs → DcsReqTlvs) :
    QmTlvUnpackerItem DcsReqTlvs where
  tlvType := tlvType
  Unpacker tbuf req :=
    match get tbuf with
    | none => (EQCWWANError.memory, UInt16.ofNat tbuf.Index, req)
    | some (value, tbuf) => (EQCWWANError.none, UInt16.ofNat tbuf.Index, put value req)
  valid := valid

/-- `qm_dcs_action_unpack_tlv` and `qm_dcs_mask_unpack_tlv` -/
def actionItem : QmTlvUnpackerItem DcsReqTlvs :=
  valueItem 0 (by decide) GetByte fun value req => { req with srvStatus := some value }
def maskItem : QmTlvUnpackerItem DcsReqTlvs :=
  valueItem 1 (by decide) GetByte fun value req => { req with mask := some value }

/-- `qm_dcs_dscp_unpack_tlv` and `qm_dcs_qos_id_unpack_tlv` -/
def dscpItem : QmTlvUnpackerItem DcsReqTlvs :=
  valueItem 0 (by decide) GetByte fun value req => { req with dscp := some value }
def qosIdItem : QmTlvUnpackerItem DcsReqTlvs :=
  valueItem 1 (by decide) GetLong fun value req => { req with qos_id := some value }

/-- Two 32-bit values. -/
def getMarks (tbuf : QmTBuffer) : Option ((UInt32 × UInt32) × QmTBuffer) :=
  (GetLong tbuf).bind fun r => (GetLong r.2).map fun r' => ((r.1, r'.1), r'.2)

/-- `qm_dcs_unpack_tlv_threshold` and `qm_dcs_unpack_tlv_period` -/
def thresholdItem : QmTlvUnpackerItem DcsReqTlvs :=
  valueItem 1 (by decide) getMarks fun value req => { req with marks := some value }
def periodItem : QmTlvUnpackerItem DcsReqTlvs :=
  valueItem 2 (by decide) GetLong fun value req => { req with period := some value }

end Unpackers

/-- The table that the handler of a request unpacks it with; the other handlers do not look at
the parameters. -/
def QmDcsEvtBlock.items (evt : QmDcsEvtBlock) : Option (List (QmTlvUnpackerItem DcsReqTlvs)) :=
  match evt.request with
  | 1 => some [deviceNodeItem, deviceKeyItem]
  | 7 => some [actionItem, maskItem]
  | 8 | 10 | 11 => some [dscpItem, qosIdItem]
  | 9 => some [dscpItem]
  | 14 => some [thresholdItem, periodItem]
  | _ => none

/-- `qmunpack` over a request. The cursor has 16 bits, so a loop of more rounds than that has come
to a TLV twice and does not end. -/
def QmDcsEvtBlock.unpack (evt : QmDcsEvtBlock) (items : List (QmTlvUnpackerItem DcsReqTlvs)) :
    Option (Unpacked DcsReqTlvs) :=
  qmunpack (2 ^ 16 + 1) (ofList 0 evt.qmdcsevtdata) .unset items (UInt16.ofNat evt.request)

/-- The request is unpacked without an error, or its handler does not unpack it. -/
def QmDcsEvtBlock.unpacks (evt : QmDcsEvtBlock) : Bool :=
  match evt.items with
  | none => true
  | some items =>
      match evt.unpack items with
      | none => false
      | some r => r.2.1 = EQCWWANError.none

/-- What the request says. -/
def QmDcsEvtBlock.tlvs (evt : QmDcsEvtBlock) : DcsReqTlvs :=
  match evt.items with
  | none => .unset
  | some items =>
      match evt.unpack items with
      | none => .unset
      | some r => r.2.2

/-- `qm_result_code_tlv_pack` -/
def resultCodeItem (result error : UInt16) : QmTlvBuilderItem where
  tlvType := 2
  Builder := .put (.word result) fun rc =>
    if rc = EQCWWANError.none then .put (.word error) .ret else .ret rc
  valid := by decide

/-- The message of a response that consists of a result code. -/
def resultMsg (msgid : ℕ) (result error : UInt16) : List UInt8 :=
  messageOf (qmbuild (fun _ => 0) [resultCodeItem result error] (UInt16.ofNat msgid))

/-- The node and the key of the connected device, as buffers of characters. -/
structure QmDcsDeviceInfo where
  devnode : List UInt8
  devkey : List UInt8

/-- What a request meets. -/
structure DcsWorld where
  device : Option QmDcsDeviceInfo
  devnode : List UInt8
  devkey : List UInt8
  srvStatus : UInt8
  mask : UInt8
  regOk : QmiClient → Bool
  qmimsg : List UInt8

/-- Whether `qm_dcs_connect` finds no difference between a device and a request. -/
def DcsWorld.matches (w : DcsWorld) (req : DcsReqTlvs) (dev : QmDcsDeviceInfo) : Bool :=
  let devnode := req.devnode.getD w.devnode
  slstrncmp devnode dev.devnode (cString devnode).length &&
    slstrncmp (req.devkey.getD w.devkey) dev.devkey (qmiMeidBufSize - 1)

/-- A request to connect names the connected device. -/
def DcsWorld.Names (w : DcsWorld) (req : DcsReqTlvs) : Prop :=
  ∃ dev, w.device = some dev ∧ req.devnode = some (cString dev.devnode) ∧
    req.devkey = some (dev.devkey.takeD (qmiMeidBufSize - 1) 0)

/-- What comes out of the work of the handler of a request. Its response fits the buffer. -/
def DcsWorld.env (w : DcsWorld) (evt : QmDcsEvtBlock) : DcsEnv where
  unpacked := evt.unpacks
  built := true
  qmimsg :=
    if evt.request = 1 then
      if w.device.isSome then resultMsg evt.request qmiRcSuccess 0
      else resultMsg evt.request qmiRcFailure EQCWWANError.noDevice.toUInt16
    else w.qmimsg
  deviceFound := w.device.isSome
  deviceMatches := w.device.any (w.matches evt.tlvs)
  srvStatus := evt.tlvs.srvStatus.getD w.srvStatus
  mask := evt.tlvs.mask.getD w.mask
  regOk := w.regOk

section Matching

theorem slstrncmp_append (s1p rest : List UInt8) {length : ℕ} (hlength : length ≤ s1p.length) :
    slstrncmp s1p (s1p ++ rest) length = true := by
  induction s1p generalizing length with
  | nil =>
      rw [List.length_nil, Nat.le_zero] at hlength
      rw [hlength]
      rfl
  | cons c s1p ih =>
      cases length with
      | zero => rfl
      | succ length => simp [slstrncmp, ih (Nat.le_of_succ_le_succ hlength)]

theorem slstrncmp_takeD (bytes : List UInt8) (length : ℕ) :
    slstrncmp (bytes.takeD length 0) bytes length = true := by
  induction length generalizing bytes with
  | zero => rfl
  | succ length ih =>
      have htake : bytes.takeD (length + 1) 0 = bytes.headD 0 :: bytes.tail.takeD length 0 := by
        cases bytes <;> rfl
      rw [htake, slstrncmp]
      simp only [List.headD_cons, List.tail_cons, ih, decide_true, Bool.and_self, ite_self]

/-- A device that a request names is not told apart from the one of the request. -/
theorem deviceMatches_of_names {w : DcsWorld} {evt : QmDcsEvtBlock} (h : w.Names evt.tlvs) :
    (w.env evt).deviceMatches = true := by
  obtain ⟨dev, hdevice, hnode, hkey⟩ := h
  have hprefix : dev.devnode = cString dev.devnode ++ dev.devnode.dropWhile fun c => c ≠ 0 :=
    (List.takeWhile_append_dropWhile).symm
  have hlength : (cString (cString dev.devnode)).length ≤ (cString dev.devnode).length :=
    (List.takeWhile_prefix _).length_le
  have hsame := slstrncmp_append (cString dev.devnode)
    (dev.devnode.dropWhile fun c => c ≠ 0) hlength
  rw [← hprefix] at hsame
  simp only [DcsWorld.env, hdevice, Option.any_some, DcsWorld.matches, hnode, hkey,
    Option.getD_some, hsame, slstrncmp_takeD, Bool.and_self]

end Matching

end Qm

end SierraSdk
