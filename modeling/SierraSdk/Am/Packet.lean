import Mathlib.Algebra.Group.Nat.Defs
import Mathlib.Data.List.Basic

/-!
# AM packets

An AM packet begins with a header of ten bytes: type, header version, result code and
length of what follows. A QMI packet continues with the QMUX SDU preamble: the QMI service,
the timeout in milliseconds, the length of the QMI message and the QMI instance. All fields
are little-endian.

The parsers read fields at fixed offsets of a buffer and never look at its length; a byte
past the received ones is read as `0` here.
-/

namespace SierraSdk

namespace Am

/-- The error codes are 32-bit values. -/
abbrev EQCWWANError := UInt32

namespace EQCWWANError

def none : EQCWWANError := 0
def internal : EQCWWANError := 2
def memory : EQCWWANError := 3
def noDevice : EQCWWANError := 6
def qmiRspTo : EQCWWANError := 15
def invalidQmiRsp : EQCWWANError := 17
def swicmQmiSvcNotSupported : EQCWWANError := 0xe002
def swicmQmiClntNotSupported : EQCWWANError := 0xe003
def swicmTimeout : EQCWWANError := 0xe004
def swicmSocketInUse : EQCWWANError := 0xe005
def swicmAmVersError : EQCWWANError := 0xe006
def swiimCorruptedFwImage : EQCWWANError := 0xe805
def swiimFirmwareNotDownloaded : EQCWWANError := 0xe806
def swiimFwUpdateFail : EQCWWANError := 0xe807
def swiimFwFlashComplete : EQCWWANError := 0xe80b
def swiimFwWaitForReboot : EQCWWANError := 0xe80c
def swidcsFileioErr : EQCWWANError := 0xe902
def swidcsAppDisconnected : EQCWWANError := 0xe904
def nullTlv : EQCWWANError := 0xf3ee

end EQCWWANError

/-- `AMHDRVERSION` -/
def amHdrVersion : UInt16 := 0

/-- `AMMAXREQBKLEN`, the size of a request buffer, and of response buffers. -/
def amMaxReqBkLen : ℕ := 1024

/-- `AMHEADERSZ` -/
def amHeaderSz : ℕ := 10

/-- `AMQMIRRNSZ`, the size of the QMUX SDU preamble. -/
def amQmiRrnSz : ℕ := 8

/-- `AMQMIRESPTOTAL` and `AMQMIREQTOTAL` -/
def amQmiTotal : ℕ := amQmiRrnSz + amHeaderSz

namespace AmMsgType

def qmiRequest : UInt16 := 0xc0
def qmiResponse : UInt16 := 0xc1
def qmiNotification : UInt16 := 0xc2
def sdkRequest : UInt16 := 0x100
def sdkResponse : UInt16 := 0x101
def invalid : UInt16 := 0xffff

end AmMsgType

/-- The SDK request types `AMSDKREQVERSION`, `AMSDKREQPID` and `AMSDKREQKILL`. -/
def amSdkReqVersion : UInt8 := 0
def amSdkReqPid : UInt8 := 2
def amSdkReqKill : UInt8 := 4

/-- The common part of an AM packet. -/
structure AmHeader where
  amtype : UInt16
  amheaderversion : UInt16
  amresultcode : EQCWWANError
  ampacketlength : UInt16
  deriving DecidableEq

/-- The QMI part of a request or response. -/
structure AmQmiRrParms where
  amresultcode : EQCWWANError
  amqmixactionlen : UInt32
  amqmireqtimeout : UInt32
  amqmisvctype : UInt8
  qmiinstanceid : UInt8
  deriving DecidableEq

/-- A 16-bit field of a buffer. -/
def piget16 (buf : List UInt8) (i : ℕ) : UInt16 :=
  (buf.getD i 0).toUInt16 ||| ((buf.getD (i + 1) 0).toUInt16 <<< 8)

/-- A 32-bit field of a buffer. -/
def piget32 (buf : List UInt8) (i : ℕ) : UInt32 :=
  (piget16 buf i).toUInt32 ||| ((piget16 buf (i + 2)).toUInt32 <<< 16)

/-- The bytes of a 16-bit value, the lower one first. -/
def piput16 (value : UInt16) : List UInt8 := [value.toUInt8, (value >>> 8).toUInt8]

/-- The bytes of a 32-bit value, the lowest one first. -/
def piput32 (value : UInt32) : List UInt8 :=
  piput16 value.toUInt16 ++ piput16 (value >>> 16).toUInt16

section Fields

/-- The lower and the upper half of a word make the word. -/
theorem or_halves {w n : ℕ} (h : n < 2 ^ w * 2 ^ w) :
    n % 2 ^ w ||| (n >>> w % 2 ^ w) <<< w = n := by
  have hhigh : n >>> w % 2 ^ w = n / 2 ^ w := by
    rw [Nat.shiftRight_eq_div_pow]
    exact Nat.mod_eq_of_lt (Nat.div_lt_of_lt_mul h)
  have hlow : n % 2 ^ w < 2 ^ w := Nat.mod_lt _ (Nat.two_pow_pos w)
  rw [hhigh, Nat.or_comm, ← Nat.shiftLeft_add_eq_or_of_lt hlow, Nat.shiftLeft_eq,
    Nat.div_add_mod']

/-- The upper half of a word, moved up, fits the word. -/
theorem shiftLeft_half_mod (w n : ℕ) :
    (n >>> w % 2 ^ w) <<< w % (2 ^ w * 2 ^ w) = (n >>> w % 2 ^ w) <<< w := by
  apply Nat.mod_eq_of_lt
  rw [Nat.shiftLeft_eq]
  exact Nat.mul_lt_mul_of_pos_right (Nat.mod_lt _ (Nat.two_pow_pos w)) (Nat.two_pow_pos w)

/-- A 16-bit field that was written is read back. -/
theorem piget16_piput16 (value : UInt16) (pre rest : List UInt8) :
    piget16 (pre ++ piput16 value ++ rest) pre.length = value := by
  have hlt : value.toNat < 2 ^ 8 * 2 ^ 8 := value.toNat_lt
  have hor := or_halves hlt
  rw [← shiftLeft_half_mod] at hor
  apply UInt16.toNat_inj.mp
  simpa [piget16, piput16] using hor

/-- A 32-bit field that was written is read back. -/
theorem piget32_piput32 (value : UInt32) (pre rest : List UInt8) :
    piget32 (pre ++ piput32 value ++ rest) pre.length = value := by
  have hlow := piget16_piput16 value.toUInt16 pre (piput16 (value >>> 16).toUInt16 ++ rest)
  have hhigh := piget16_piput16 (value >>> 16).toUInt16 (pre ++ piput16 value.toUInt16) rest
  rw [← List.append_assoc] at hlow
  simp only [List.length_append, piput16, List.length_cons, List.length_nil] at hhigh
  have hlt : value.toNat < 2 ^ 16 * 2 ^ 16 := value.toNat_lt
  have hor := or_halves hlt
  rw [← shiftLeft_half_mod] at hor
  rw [piget32, piput32, ← List.append_assoc pre, hlow]
  simp only [piput16, hhigh]
  apply UInt32.toNat_inj.mp
  simpa using hor

end Fields

/-- The header at the start of a buffer. -/
def amparseamheader (buf : List UInt8) : AmHeader where
  amtype := piget16 buf 0
  amheaderversion := piget16 buf 2
  amresultcode := piget32 buf 4
  ampacketlength := piget16 buf 8

/-- The bytes of a header. -/
def ambuildamheader (header : AmHeader) : List UInt8 :=
  piput16 header.amtype ++ piput16 header.amheaderversion ++ piput32 header.amresultcode ++
    piput16 header.ampacketlength

/-- A header that was built is parsed back. -/
theorem amparseamheader_ambuildamheader (header : AmHeader) (rest : List UInt8) :
    amparseamheader (ambuildamheader header ++ rest) = header := by
  obtain ⟨amtype, version, resultcode, length⟩ := header
  have htype := piget16_piput16 amtype []
    (piput16 version ++ (piput32 resultcode ++ (piput16 length ++ rest)))
  have hversion := piget16_piput16 version (piput16 amtype)
    (piput32 resultcode ++ (piput16 length ++ rest))
  have hcode := piget32_piput32 resultcode (piput16 amtype ++ piput16 version)
    (piput16 length ++ rest)
  have hlength := piget16_piput16 length (piput16 amtype ++ piput16 version ++ piput32 resultcode)
    rest
  simp only [List.nil_append, List.append_assoc] at htype hversion hcode hlength
  simp only [amparseamheader, ambuildamheader, List.append_assoc, AmHeader.mk.injEq]
  exact ⟨htype, hversion, hcode, hlength⟩

/-- The QMUX SDU preamble at the start of a buffer. The result code is not among its
fields. -/
def amparseqmixactionheader (buf : List UInt8) : AmQmiRrParms where
  amresultcode := 0
  amqmisvctype := buf.getD 0 0
  amqmireqtimeout := piget32 buf 1
  amqmixactionlen := (piget16 buf 5).toUInt32
  qmiinstanceid := buf.getD 7 0

/-- A QMI packet of the AM protocol: header, preamble and QMI message. -/
structure AmQmiMsg where
  amtype : UInt16
  parms : AmQmiRrParms
  payload : List UInt8
  deriving DecidableEq

end Am

end SierraSdk
