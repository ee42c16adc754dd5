import SierraSdk.Library.Access
import SierraSdk.Sdk.HipPacket

/-!
# The buffer of a CnS request

`cncnsreq` takes a buffer from one of two pools, by the length that the request announces and a
bound on the sizes of the headers. It builds the CnS header and the parameter section behind the
place of the HIP header, which the transmit task builds (`written_iff`).

A block of the small pool is chosen only if all of that fits in it. No length is compared with the
size of the larger blocks, and the CnS header has one byte for a length of two bytes
(`cnsCodec_iff`).
-/

namespace SierraSdk

namespace Sdk

open Accesses

section Definitions

/-- `HPMCNSIND` and `HPNULLPARMFIELD` -/
def hpmCnsInd : UInt32 := 0x2b
def hpNullParmField : UInt8 := 0

/-- `CNMAXCNSHDRSZ` -/
def cnMaxCnsHdrSz : ℕ := amCnsReqSz + hpHdrLengthExt

/-- The pools of transmit buffers. -/
inductive HpTxPool where
  | hpTxPool
  | hpTxSmlPool
  deriving DecidableEq

/-- `HDTXBUFSIZE` and `HDTXSMLBUFSIZE`, the sizes of the blocks. -/
def HpTxPool.blockSize : HpTxPool → ℕ
  | .hpTxPool => 2100
  | .hpTxSmlPool => 300

/-- The pool that the buffer for a message is taken from. -/
def hpgetsizedbuf (msglen : ℕ) : HpTxPool :=
  if msglen ≠ 0 ∧ msglen < HpTxPool.hpTxSmlPool.blockSize then .hpTxSmlPool else .hpTxPool

/-- The bytes of the buffer that are written for a request, in their order: the CnS header and, if
the request is recorded, its parameter section and the HIP header. `none` is an abort. -/
def cncnsreqWrites (s : CnRrTcb) (packet : List UInt8) : Option (List (Access HpTxPool)) :=
  let cnsparm := amparsecnsrequest packet
  let sendbuf := hpgetsizedbuf (cnsparm.amcnslength.toNat + cnMaxCnsHdrSz)
  let write := span sendbuf sendbuf.blockSize
  (hpgethdrsize .reverse hpmCnsInd).map fun cnsheader =>
    let header := cnsBuildHeader cnsparm.amcnsobjid cnsparm.amcnsoperation cnsparm.amcnsparameter
      cnsparm.amcnslength
    let paylength := UInt16.ofNat header.length + cnsparm.amcnslength
    write cnsheader header.length ++
      match cnsSaveRespInfo s cnsparm.amcnsobjid cnsparm.amcnsoperation cnsparm.amcnstimeout.toNat
          cnsparm.amcnsparameter with
      | none => []
      | some _ =>
          (if cnsparm.amcnslength ≠ 0 then
            write (cnsheader + cnsHeaderSz) cnsparm.amcnslength.toNat
          else []) ++
            write 0 (hpconstruct .reverse hpmCnsInd hpNullParmField paylength).1.length

/-- A request of an application is accepted if it is recorded as the outstanding one. -/
def CnsAccepted (s : CnRrTcb) (packet : List UInt8) : Prop := (cncnsreq s packet).1.isSome

/-- What is written for a request lies in its buffer. -/
def FitsBuffer (s : CnRrTcb) (packet : List UInt8) : Prop :=
  ∀ writes, cncnsreqWrites s packet = some writes → AllInBounds writes

/-- What is parsed of a header that was built are the values it was built with. -/
def RoundTrips (cnsobjid : UInt16) (cnsoperation : UInt8) (cnsparameter : UInt32)
    (cnslength : UInt16) : Prop :=
  ∀ field,
    let header :=
      cnsParseHeader (cnsBuildHeader cnsobjid cnsoperation cnsparameter cnslength ++ field)
    header.cnsobjid = cnsobjid ∧ header.cnsoperation = cnsoperation ∧
      header.cnsparameter = cnsparameter ∧ header.cnslength = cnslength

end Definitions

section Header

/-- The operations that leave the bit of the error flag. -/
theorem and_cnsOperationMask_iff (operation : UInt8) :
    operation &&& cnsOperationMask = operation ↔ operation < 0x80 := by
  have hmask : (operation &&& cnsOperationMask).toNat = operation.toNat % 2 ^ 7 := by
    rw [UInt8.toNat_and]
    exact Nat.and_two_pow_sub_one_eq_mod operation.toNat 7
  rw [← UInt8.toNat_inj, hmask, UInt8.lt_iff_toNat_lt]
  exact Nat.mod_eq_iff_lt (Nat.ne_of_gt (Nat.two_pow_pos 7))

/-- The lengths that their low byte is enough for. -/
theorem toUInt8_toUInt16_iff (length : UInt16) :
    length.toUInt8.toUInt16 = length ↔ length < 0x100 := by
  rw [← UInt16.toNat_inj, UInt8.toNat_toUInt16, UInt16.toNat_toUInt8, UInt16.lt_iff_toNat_lt]
  exact Nat.mod_eq_iff_lt (Nat.ne_of_gt (Nat.two_pow_pos 8))

theorem cnsRoundTrips_iff (cnsobjid : UInt16) (cnsoperation : UInt8) (cnsparameter : UInt32)
    (cnslength : UInt16) :
    RoundTrips cnsobjid cnsoperation cnsparameter cnslength ↔
      cnsoperation < 0x80 ∧ cnslength < 0x100 := by
  rw [← and_cnsOperationMask_iff, ← toUInt8_toUInt16_iff]
  simp only [RoundTrips, cnsParseHeader_build, true_and, forall_const]

end Header

section Buffer

variable {s t : CnRrTcb} {packet : List UInt8}

/-- The place of the CnS header is behind a HIP header without an extended message id. -/
theorem hpgethdrsize_hpmCnsInd : hpgethdrsize .reverse hpmCnsInd = some hpHdrLength := rfl

theorem length_hpconstruct_hpmCnsInd (msgparm : UInt8) (paylength : UInt16) :
    (hpconstruct .reverse hpmCnsInd msgparm paylength).1.length = hpHdrLength := rfl

theorem length_cnsBuildHeader (cnsobjid : UInt16) (cnsoperation : UInt8) (cnsparameter : UInt32)
    (cnslength : UInt16) :
    (cnsBuildHeader cnsobjid cnsoperation cnsparameter cnslength).length = cnsHeaderSz := rfl

/-- A parameter section of no bytes is not copied. -/
theorem span_of_ne_zero (pool : HpTxPool) (size first : ℕ) (length : UInt16) :
    (if length ≠ 0 then span pool size first length.toNat else []) =
      span pool size first length.toNat := by
  split_ifs with hzero
  · rfl
  · rw [not_not] at hzero
    rw [hzero]
    rfl

/-- The request that was accepted. -/
theorem cnsSaveRespInfo_of_accepted (h : CnsAccepted s packet) :
    ∃ t, cnsSaveRespInfo s (amparsecnsrequest packet).amcnsobjid
      (amparsecnsrequest packet).amcnsoperation (amparsecnsrequest packet).amcnstimeout.toNat
        (amparsecnsrequest packet).amcnsparameter = some t := by
  rw [CnsAccepted, cncnsreq] at h
  cases hsaved : cnsSaveRespInfo s (amparsecnsrequest packet).amcnsobjid
      (amparsecnsrequest packet).amcnsoperation (amparsecnsrequest packet).amcnstimeout.toNat
        (amparsecnsrequest packet).amcnsparameter with
  | none =>
      rw [hsaved] at h
      exact absurd h Bool.false_ne_true
  | some t => exact ⟨t, rfl⟩

/-- What is written for an accepted request. -/
theorem cncnsreqWrites_of_accepted (h : CnsAccepted s packet) :
    cncnsreqWrites s packet =
      let length := (amparsecnsrequest packet).amcnslength.toNat
      let sendbuf := hpgetsizedbuf (length + cnMaxCnsHdrSz)
      let write := span sendbuf sendbuf.blockSize
      some (write hpHdrLength cnsHeaderSz ++
        (write (hpHdrLength + cnsHeaderSz) length ++ write 0 hpHdrLength)) := by
  obtain ⟨t, hsaved⟩ := cnsSaveRespInfo_of_accepted h
  simp only [cncnsreqWrites, hpgethdrsize_hpmCnsInd, Option.map_some, length_cnsBuildHeader,
    hsaved, span_of_ne_zero, length_hpconstruct_hpmCnsInd]

/-- A small block has room for the request it is taken for. -/
theorem le_blockSize_iff (length : ℕ) :
    hpHdrLength + cnsHeaderSz + length ≤ (hpgetsizedbuf (length + cnMaxCnsHdrSz)).blockSize ↔
      length ≤ 2086 := by
  have hheaders : cnMaxCnsHdrSz = 18 := rfl
  have hfirst : hpHdrLength + cnsHeaderSz = 14 := rfl
  have hsmall : HpTxPool.hpTxSmlPool.blockSize = 300 := rfl
  have hlarge : HpTxPool.hpTxPool.blockSize = 2100 := rfl
  rw [hpgetsizedbuf, hheaders, hfirst, hsmall]
  split_ifs with hpool
  · rw [hsmall]
    omega
  · rw [hlarge]
    omega

/-- The blocks have room for the headers. -/
theorem headers_le_blockSize (pool : HpTxPool) : hpHdrLength + cnsHeaderSz ≤ pool.blockSize := by
  cases pool with
  | hpTxPool => exact Nat.le_of_ble_eq_true rfl
  | hpTxSmlPool => exact Nat.le_of_ble_eq_true rfl

theorem fitsBuffer_iff (h : CnsAccepted s packet) :
    FitsBuffer s packet ↔ (amparsecnsrequest packet).amcnslength ≤ 2086 := by
  have hlimit : (2086 : UInt16).toNat = 2086 := rfl
  have hheaders := headers_le_blockSize
    (hpgetsizedbuf ((amparsecnsrequest packet).amcnslength.toNat + cnMaxCnsHdrSz))
  rw [UInt16.le_iff_toNat_le, hlimit, ← le_blockSize_iff, FitsBuffer,
    cncnsreqWrites_of_accepted h]
  simp only [Option.some.injEq, forall_eq', allInBounds_append, allInBounds_span]
  constructor
  · rintro ⟨-, hzero | hle, -⟩
    · omega
    · exact hle
  · intro hle
    exact ⟨.inr hheaders, .inr hle,
      .inr (Nat.le_trans (Nat.le_of_eq (Nat.zero_add _)) (Nat.le_of_add_right_le hheaders))⟩

/-- The packet that is sent for an accepted request, behind its HIP header, is what is written. -/
theorem written_iff {writes : List (Access HpTxPool)} {payload : List UInt8}
    (hsent : cncnsreq s packet = (some t, [.hpTxPacket payload]))
    (hwrites : cncnsreqWrites s packet = some writes) (i : ℕ) :
    (∃ a ∈ writes, a.index = i) ↔ i < hpHdrLength + payload.length := by
  have haccepted : CnsAccepted s packet := by
    rw [CnsAccepted, hsent]
    rfl
  obtain ⟨u, hsaved⟩ := cnsSaveRespInfo_of_accepted haccepted
  have hlength : payload.length =
      cnsHeaderSz + (amparsecnsrequest packet).amcnslength.toNat := by
    simp only [cncnsreq, hsaved, Prod.mk.injEq, List.cons.injEq, CnOut.hpTxPacket.injEq] at hsent
    rw [← hsent.2.1, List.length_append, length_cnsBuildHeader, List.takeD_length]
  rw [cncnsreqWrites_of_accepted haccepted] at hwrites
  rw [← Option.some.inj hwrites, hlength]
  have hspan : ∀ (pool : HpTxPool) (size first n : ℕ),
      (∃ a ∈ span pool size first n, a.index = i) ↔ first ≤ i ∧ i < first + n := by
    intro pool size first n
    constructor
    · rintro ⟨a, ha, rfl⟩
      obtain ⟨k, hk, rfl⟩ := List.mem_map.mp ha
      exact ⟨Nat.le_add_right _ _, Nat.add_lt_add_left (List.mem_range.mp hk) _⟩
    · rintro ⟨hle, hlt⟩
      refine ⟨⟨pool, size, first + (i - first)⟩, List.mem_map.mpr ⟨i - first, ?_, rfl⟩, ?_⟩
      · rw [List.mem_range]
        omega
      · exact Nat.add_sub_cancel' hle
  simp only [List.mem_append, or_and_right, exists_or, hspan]
  omega

end Buffer

/-- The values that the header keeps, and the requests whose packets fit in their buffers. -/
theorem cnsCodec_iff (cnsobjid : UInt16) (cnsoperation : UInt8) (cnsparameter : UInt32)
    (cnslength : UInt16) (s : CnRrTcb) (packet : List UInt8) :
    (RoundTrips cnsobjid cnsoperation cnsparameter cnslength ↔
        cnsoperation < 0x80 ∧ cnslength < 0x100) ∧
      ((CnsAccepted s packet → FitsBuffer s packet) ↔
        (CnsAccepted s packet → (amparsecnsrequest packet).amcnslength ≤ 2086)) :=
  ⟨cnsRoundTrips_iff cnsobjid cnsoperation cnsparameter cnslength,
    forall_congr' fun haccepted => fitsBuffer_iff haccepted⟩

/-- A request for the object 0x1000 with parameters of some length. -/
def longRequest (amcnslength : UInt16) : List UInt8 :=
  requestPacket ⟨0, 0x1000, amcnslength, 2000, 0x03, 0⟩ [] 0

theorem amcnslength_longRequest (length : UInt16) :
    (amparsecnsrequest (longRequest length)).amcnslength = length :=
  congrArg AmCnsRrParms.amcnslength (amparsecnsrequest_build _ [])

/-- The length 256 comes back as 0, and a request of 2087 bytes is accepted and overruns its
buffer. -/
theorem not_cnsCodec :
    ¬ RoundTrips 0x1000 0x03 0 0x100 ∧
      CnsAccepted cninit (longRequest 2087) ∧ ¬ FitsBuffer cninit (longRequest 2087) := by
  have haccepted : CnsAccepted cninit (longRequest 2087) := rfl
  refine ⟨fun h => ?_, haccepted, fun h => ?_⟩
  · have hlength := ((cnsRoundTrips_iff _ _ _ _).mp h).2
    revert hlength
    decide
  · rw [fitsBuffer_iff haccepted, amcnslength_longRequest] at h
    revert h
    decide

end Sdk

end SierraSdk
