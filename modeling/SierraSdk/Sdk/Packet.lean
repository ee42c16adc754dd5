import Mathlib.Data.List.TakeDrop
import SierraSdk.Library.Machine

/-!
# The packets of the standalone SDK

Fields of more than one byte go over the wire with the highest byte first. The packets of package
am, between the applications and the SDK, begin with a common header; a CnS request or response
has a header of its own behind it, and another one on its way to the modem and back.

What is built is what is parsed: `amparsecnsrequest_build`, `cnsParseHeader_build` and
`cnsParseHeader_bytes`; only the length of a parameter section loses its high byte on the way to the
modem.
-/

namespace SierraSdk

namespace Sdk

section Fields

/-- A field of two bytes. -/
def piput16 (field : UInt16) : List UInt8 := [(field >>> 8).toUInt8, field.toUInt8]

/-- A field of four bytes. -/
def piput32 (field : UInt32) : List UInt8 :=
  [(field >>> 24).toUInt8, (field >>> 16).toUInt8, (field >>> 8).toUInt8, field.toUInt8]

/-- The field of two bytes at a position. -/
def piget16 (packet : List UInt8) (i : ℕ) : UInt16 :=
  ((packet.getD i 0).toUInt16 <<< 8) + (packet.getD (i + 1) 0).toUInt16

/-- The field of four bytes at a position. -/
def piget32 (packet : List UInt8) (i : ℕ) : UInt32 :=
  ((((((packet.getD i 0).toUInt32 <<< 8) + (packet.getD (i + 1) 0).toUInt32) <<< 8) +
    (packet.getD (i + 2) 0).toUInt32) <<< 8) + (packet.getD (i + 3) 0).toUInt32

@[simp] theorem length_piput16 (field : UInt16) : (piput16 field).length = 2 := rfl

@[simp] theorem length_piput32 (field : UInt32) : (piput32 field).length = 4 := rfl

theorem getD_append_add (pre rest : List UInt8) (i : ℕ) :
    (pre ++ rest).getD (pre.length + i) 0 = rest.getD i 0 := by
  simp only [List.getD_eq_getElem?_getD, List.getElem?_append_right (Nat.le_add_right _ _),
    Nat.add_sub_cancel_left]

theorem piget16_piput16 (field : UInt16) (pre rest : List UInt8) :
    piget16 (pre ++ piput16 field ++ rest) pre.length = field := by
  have h0 := getD_append_add pre (piput16 field ++ rest) 0
  have h1 := getD_append_add pre (piput16 field ++ rest) 1
  rw [Nat.add_zero] at h0
  rw [piget16, List.append_assoc, h0, h1]
  apply UInt16.toNat_inj.mp
  have hlt := field.toNat_lt
  simp only [piput16, List.cons_append, List.getD_cons_zero, List.getD_cons_succ,
    UInt16.toNat_add, UInt16.toNat_shiftLeft, UInt8.toNat_toUInt16, UInt16.toNat_toUInt8,
    UInt16.toNat_shiftRight, UInt16.toNat_ofNat, Nat.shiftLeft_eq, Nat.shiftRight_eq_div_pow,
    Nat.reducePow, Nat.reduceMod]
  omega

theorem piget32_piput32 (field : UInt32) (pre rest : List UInt8) :
    piget32 (pre ++ piput32 field ++ rest) pre.length = field := by
  have h0 := getD_append_add pre (piput32 field ++ rest) 0
  have h1 := getD_append_add pre (piput32 field ++ rest) 1
  have h2 := getD_append_add pre (piput32 field ++ rest) 2
  have h3 := getD_append_add pre (piput32 field ++ rest) 3
  rw [Nat.add_zero] at h0
  rw [piget32, List.append_assoc, h0, h1, h2, h3]
  apply UInt32.toNat_inj.mp
  have hlt := field.toNat_lt
  simp only [piput32, List.cons_append, List.getD_cons_zero, List.getD_cons_succ,
    UInt32.toNat_add, UInt32.toNat_shiftLeft, UInt8.toNat_toUInt32, UInt32.toNat_toUInt8,
    UInt32.toNat_shiftRight, UInt32.toNat_ofNat, Nat.shiftLeft_eq, Nat.shiftRight_eq_div_pow,
    Nat.reducePow, Nat.reduceMod]
  omega

end Fields

section Am

/-- `AMHDRVERSION` -/
def amHdrVersion : UInt16 := 4

/-- `AMHEADERSZ` -/
def amHeaderSz : ℕ := 7

/-- `HPHDRLENGTH`, the size of a HIP header without an extended message id. -/
def hpHdrLength : ℕ := 4

/-- `AMCNSREQSZ`, `AMCNSRESPONSESZ` and `AMCNSNOTIFYSZ` -/
def amCnsReqSz : ℕ := 12
def amCnsResponseSz : ℕ := 9
def amCnsNotifySz : ℕ := 5

/-- `AMCNSREQTOTAL`, `AMCNSRESPTOTAL` and `AMCNSNOTFTOTAL` -/
def amCnsReqTotal : UInt16 := UInt16.ofNat (amCnsReqSz + amHeaderSz)
def amCnsRespTotal : UInt16 := UInt16.ofNat (amCnsResponseSz + amHeaderSz)
def amCnsNotfTotal : UInt16 := UInt16.ofNat (amCnsNotifySz + amHeaderSz)

namespace AmMsgType

def cnsRequest : UInt16 := 0
def cnsResponse : UInt16 := 1
def cnsNotification : UInt16 := 2

end AmMsgType

namespace AmResult

def success : UInt8 := 0
def timeout : UInt8 := 1
def cnsError : UInt8 := 3

end AmResult

/-- The common header of a packet of package am. -/
def ambuildamheader (amtype amheaderversion : UInt16) (amresultcode : UInt8)
    (ampacketlength : UInt16) : List UInt8 :=
  piput16 amtype ++ piput16 amheaderversion ++ [amresultcode] ++ piput16 ampacketlength

/-- The parameters of a CnS request. -/
structure AmCnsRrParms where
  amcnsparameter : UInt32
  amcnsobjid : UInt16
  amcnslength : UInt16
  amcnstimeout : UInt16
  amcnsoperation : UInt8
  amcnsairint : UInt8

/-- The fields of a CnS request behind the header. -/
def AmCnsRrParms.fields (parms : AmCnsRrParms) : List UInt8 :=
  [parms.amcnsoperation, parms.amcnsairint] ++ piput16 parms.amcnsobjid ++
    piput16 parms.amcnslength ++ piput16 parms.amcnstimeout ++ piput32 parms.amcnsparameter

def ambuildcnsrequest (parms : AmCnsRrParms) : List UInt8 :=
  ambuildamheader AmMsgType.cnsRequest amHdrVersion 0 (amCnsReqTotal + parms.amcnslength) ++
    parms.fields

/-- The parameters of a CnS request whose header was taken off. -/
def amparsecnsrequest (packet : List UInt8) : AmCnsRrParms where
  amcnsoperation := packet.getD 0 0
  amcnsairint := packet.getD 1 0
  amcnsobjid := piget16 packet 2
  amcnslength := piget16 packet 4
  amcnstimeout := piget16 packet 6
  amcnsparameter := piget32 packet 8

theorem amparsecnsrequest_build (parms : AmCnsRrParms) (field : List UInt8) :
    amparsecnsrequest ((ambuildcnsrequest parms).drop amHeaderSz ++ field) = parms := by
  obtain ⟨parameter, objid, length, timeout, operation, airint⟩ := parms
  have hobjid := piget16_piput16 objid [operation, airint]
    (piput16 length ++ piput16 timeout ++ piput32 parameter ++ field)
  have hlength := piget16_piput16 length ([operation, airint] ++ piput16 objid)
    (piput16 timeout ++ piput32 parameter ++ field)
  have htimeout := piget16_piput16 timeout ([operation, airint] ++ piput16 objid ++ piput16 length)
    (piput32 parameter ++ field)
  have hparameter := piget32_piput32 parameter
    ([operation, airint] ++ piput16 objid ++ piput16 length ++ piput16 timeout) field
  simp only [amparsecnsrequest, AmCnsRrParms.mk.injEq]
  exact ⟨hparameter, hobjid, hlength, htimeout, rfl, rfl⟩

end Am

section Cns

/-- `CNSHEADERSZ` -/
def cnsHeaderSz : ℕ := 10

/-- `CNSERRORFLAGMASK` and `CNSOPERATIONMASK` -/
def cnsErrorFlagMask : UInt8 := 0x80
def cnsOperationMask : UInt8 := 0x7f

/-- The fields of a CnS header. -/
structure CnsHeader where
  cnsobjid : UInt16
  cnsoperation : UInt8
  cnsparameter : UInt32
  cnslength : UInt16
  cnserrflag : Bool

def cnsParseHeader (cnshdr : List UInt8) : CnsHeader where
  cnsobjid := piget16 cnshdr 0
  cnsoperation := cnshdr.getD 2 0 &&& cnsOperationMask
  cnserrflag := cnshdr.getD 2 0 &&& cnsErrorFlagMask ≠ 0
  cnsparameter := piget32 cnshdr 4
  cnslength := piget16 cnshdr 8

/-- The header of a packet for the modem, with one byte for the length. -/
def cnsBuildHeader (cnsobjid : UInt16) (cnsoperation : UInt8) (cnsparameter : UInt32)
    (cnslength : UInt16) : List UInt8 :=
  piput16 cnsobjid ++ [cnsoperation, 0] ++ piput32 cnsparameter ++ [0, cnslength.toUInt8]

/-- The header of a packet of the modem. -/
def CnsHeader.bytes (header : CnsHeader) : List UInt8 :=
  piput16 header.cnsobjid ++
    [header.cnsoperation ||| (if header.cnserrflag then cnsErrorFlagMask else 0), 0] ++
      piput32 header.cnsparameter ++ piput16 header.cnslength

theorem and_or_flag {operation : UInt8} (hop : operation &&& cnsOperationMask = operation)
    (errflag : Bool) :
    (operation ||| (if errflag then cnsErrorFlagMask else 0)) &&& cnsOperationMask = operation ∧
      decide ((operation ||| (if errflag then cnsErrorFlagMask else 0)) &&& cnsErrorFlagMask ≠ 0) =
        errflag := by
  have hall : ∀ n < 256, UInt8.ofNat n &&& cnsOperationMask = UInt8.ofNat n → ∀ errflag : Bool,
      (UInt8.ofNat n ||| (if errflag then cnsErrorFlagMask else 0)) &&& cnsOperationMask =
          UInt8.ofNat n ∧
        decide ((UInt8.ofNat n ||| (if errflag then cnsErrorFlagMask else 0)) &&&
          cnsErrorFlagMask ≠ 0) = errflag := by
    decide +kernel
  have h := hall operation.toNat operation.toNat_lt
  rw [UInt8.ofNat_toNat] at h
  exact h hop errflag

/-- What is parsed is what the modem means, if the operation leaves the bit of the error flag. -/
theorem cnsParseHeader_bytes (header : CnsHeader)
    (hop : header.cnsoperation &&& cnsOperationMask = header.cnsoperation) (field : List UInt8) :
    cnsParseHeader (header.bytes ++ field) = header := by
  obtain ⟨objid, operation, parameter, length, errflag⟩ := header
  obtain ⟨hmask, hflag⟩ := and_or_flag hop errflag
  simp only [CnsHeader.bytes]
  generalize operation ||| (if errflag then cnsErrorFlagMask else 0) = byte at hmask hflag
  have hobjid := piget16_piput16 objid []
    ([byte, 0] ++ piput32 parameter ++ piput16 length ++ field)
  have hparameter := piget32_piput32 parameter (piput16 objid ++ [byte, 0])
    (piput16 length ++ field)
  have hlength := piget16_piput16 length (piput16 objid ++ [byte, 0] ++ piput32 parameter) field
  simp only [cnsParseHeader, CnsHeader.mk.injEq]
  exact ⟨hobjid, hmask, hparameter, hlength, hflag⟩

/-- What the modem parses is what was built. -/
theorem cnsParseHeader_build (cnsobjid : UInt16) (cnsoperation : UInt8) (cnsparameter : UInt32)
    (cnslength : UInt16) (field : List UInt8) :
    cnsParseHeader (cnsBuildHeader cnsobjid cnsoperation cnsparameter cnslength ++ field) =
      { cnsobjid := cnsobjid
        cnsoperation := cnsoperation &&& cnsOperationMask
        cnsparameter := cnsparameter
        cnslength := cnslength.toUInt8.toUInt16
        cnserrflag := cnsoperation &&& cnsErrorFlagMask ≠ 0 } := by
  have hobjid := piget16_piput16 cnsobjid []
    ([cnsoperation, 0] ++ piput32 cnsparameter ++ [0, cnslength.toUInt8] ++ field)
  have hparameter := piget32_piput32 cnsparameter (piput16 cnsobjid ++ [cnsoperation, 0])
    ([0, cnslength.toUInt8] ++ field)
  have hlength : piget16 (cnsBuildHeader cnsobjid cnsoperation cnsparameter cnslength ++ field) 8 =
      cnslength.toUInt8.toUInt16 := by
    simp [piget16, cnsBuildHeader, piput16, piput32]
  simp only [cnsParseHeader, CnsHeader.mk.injEq]
  exact ⟨hobjid, rfl, hparameter, hlength, rfl⟩

/-- The response of the SDK to an application. -/
def ambuildcnsresponse (amresultcode : UInt8) (cnsargs : CnsHeader) : List UInt8 :=
  ambuildamheader AmMsgType.cnsResponse amHdrVersion amresultcode
      (amCnsRespTotal + cnsargs.cnslength) ++
    [cnsargs.cnsoperation] ++ piput16 cnsargs.cnsobjid ++ piput32 cnsargs.cnsparameter ++
      piput16 cnsargs.cnslength

/-- A notification of the SDK for the applications. -/
def ambuildcnsnotify (cnsargs : CnsHeader) : List UInt8 :=
  ambuildamheader AmMsgType.cnsNotification amHdrVersion AmResult.success
      (amCnsNotfTotal + cnsargs.cnslength) ++
    [cnsargs.cnsoperation] ++ piput16 cnsargs.cnsobjid ++ piput16 cnsargs.cnslength

end Cns

end Sdk

end SierraSdk
