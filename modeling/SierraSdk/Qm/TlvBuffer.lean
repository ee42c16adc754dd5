import SierraSdk.Am.Packet
import SierraSdk.Library.Memory

/-!
# The buffer of a QMI message

A `QmTBuffer` is a window of `Size` bytes at `Datap` with a cursor `Index`. The functions of
the Put family write at the cursor and move it, if the bytes fit; `PutStream` writes byte by
byte as long as the cursor is not beyond `Size`, which is one byte too many, and never fails.
`overrun` is not in the source: it records that a byte has been written outside the window.

The functions that build the TLVs of a message write through the Put family only. A `Builder`
is such a function: calls of the family, each continued with the code that it returned, and
the code that the function returns in the end.
-/

namespace SierraSdk

namespace Qm

open Am Memory

/-- `QMISVC_MSGID_SZ` and `QMISVC_MSGHDR_SZ` -/
def qmisvcMsgidSz : ℕ := 2
def qmisvcMsghdrSz : ℕ := 4

/-- `QMITLV_TYPE_SZ` and `QMITLV_HDR_SZ` -/
def qmitlvTypeSz : ℕ := 1
def qmitlvHdrSz : ℕ := 3

/-- `eTLV_TYPE_INVALID`, the type that ends a table of TLVs. -/
def eTlvTypeInvalid : UInt8 := 0xff

theorem one_ne_invalid : (0x01 : UInt8) ≠ eTlvTypeInvalid := by decide

theorem sixteen_ne_invalid : (0x10 : UInt8) ≠ eTlvTypeInvalid := by decide

/-- A window on a message. `Size` and `Index` are 16-bit values. -/
structure QmTBuffer where
  Size : ℕ
  Index : ℕ
  Datap : ℕ → UInt8
  overrun : Bool

namespace QmTBuffer

/-- Write bytes at an index of the window. -/
def write (tbuf : QmTBuffer) (index : ℕ) (bytes : List UInt8) : QmTBuffer :=
  { tbuf with
      Datap := store tbuf.Datap index bytes
      overrun := tbuf.overrun || decide (tbuf.Size < index + bytes.length) }

end QmTBuffer

/-- Move the cursor. -/
def IncrementIndex (tbuf : QmTBuffer) (increment : ℕ) : EQCWWANError × QmTBuffer :=
  if tbuf.Index + increment ≤ tbuf.Size then
    (EQCWWANError.none, { tbuf with Index := tbuf.Index + increment })
  else (EQCWWANError.memory, tbuf)

/-- Set the cursor. -/
def IndexB (tbuf : QmTBuffer) (index : ℕ) : EQCWWANError × QmTBuffer :=
  if index < tbuf.Size then (EQCWWANError.none, { tbuf with Index := index })
  else (EQCWWANError.memory, tbuf)

/-- Write bytes at an index, without moving the cursor. The index is a 16-bit value. -/
def pokeBytes (tbuf : QmTBuffer) (index : ℕ) (bytes : List UInt8) : EQCWWANError × QmTBuffer :=
  if index % 2 ^ 16 + bytes.length ≤ tbuf.Size then
    (EQCWWANError.none, tbuf.write (index % 2 ^ 16) bytes)
  else (EQCWWANError.memory, tbuf)

def PokeByte (tbuf : QmTBuffer) (index : ℕ) (value : UInt8) : EQCWWANError × QmTBuffer :=
  pokeBytes tbuf index [value]

def PokeWord (tbuf : QmTBuffer) (index : ℕ) (value : UInt16) : EQCWWANError × QmTBuffer :=
  pokeBytes tbuf index (piput16 value)

/-- Write bytes at the cursor and move it, if they fit. -/
def putBytes (tbuf : QmTBuffer) (bytes : List UInt8) : EQCWWANError × QmTBuffer :=
  if tbuf.Index + bytes.length ≤ tbuf.Size then
    (EQCWWANError.none,
      { tbuf.write tbuf.Index bytes with Index := tbuf.Index + bytes.length })
  else (EQCWWANError.memory, tbuf)

/-- The bytes of a 64-bit value, the lowest one first. -/
def piput64 (value : UInt64) : List UInt8 :=
  piput32 value.toUInt32 ++ piput32 (value >>> 32).toUInt32

/-- The bytes of values with the highest one first. -/
def piput16Be (value : UInt16) : List UInt8 := (piput16 value).reverse
def piput32Be (value : UInt32) : List UInt8 := (piput32 value).reverse
def piput64Be (value : UInt64) : List UInt8 := (piput64 value).reverse

def PutByte (tbuf : QmTBuffer) (value : UInt8) : EQCWWANError × QmTBuffer :=
  putBytes tbuf [value]

def PutWord (tbuf : QmTBuffer) (value : UInt16) : EQCWWANError × QmTBuffer :=
  putBytes tbuf (piput16 value)

def PutLong (tbuf : QmTBuffer) (value : UInt32) : EQCWWANError × QmTBuffer :=
  putBytes tbuf (piput32 value)

def Put64 (tbuf : QmTBuffer) (value : UInt64) : EQCWWANError × QmTBuffer :=
  putBytes tbuf (piput64 value)

def PutWordBe (tbuf : QmTBuffer) (value : UInt16) : EQCWWANError × QmTBuffer :=
  putBytes tbuf (piput16Be value)

def PutLongBe (tbuf : QmTBuffer) (value : UInt32) : EQCWWANError × QmTBuffer :=
  putBytes tbuf (piput32Be value)

def Put64Be (tbuf : QmTBuffer) (value : UInt64) : EQCWWANError × QmTBuffer :=
  putBytes tbuf (piput64Be value)

/-- The loop of `PutStream`. A cursor at `Size` still takes a byte. -/
def putStreamLoop (tbuf : QmTBuffer) : List UInt8 → QmTBuffer
  | [] => tbuf
  | value :: bytes =>
      if tbuf.Index ≤ tbuf.Size then
        putStreamLoop
          { tbuf.write tbuf.Index [value] with Index := (tbuf.Index + 1) % 2 ^ 16 } bytes
      else tbuf

def PutStream (tbuf : QmTBuffer) (bytes : List UInt8) : EQCWWANError × QmTBuffer :=
  (EQCWWANError.none, putStreamLoop tbuf bytes)

/-- A call of the Put family. -/
inductive PutCall where
  | byte (value : UInt8)
  | word (value : UInt16)
  | long (value : UInt32)
  | put64 (value : UInt64)
  | wordBe (value : UInt16)
  | longBe (value : UInt32)
  | put64Be (value : UInt64)
  | stream (bytes : List UInt8)

namespace PutCall

/-- What the call does. -/
def run (tbuf : QmTBuffer) : PutCall → EQCWWANError × QmTBuffer
  | .byte value => PutByte tbuf value
  | .word value => PutWord tbuf value
  | .long value => PutLong tbuf value
  | .put64 value => Put64 tbuf value
  | .wordBe value => PutWordBe tbuf value
  | .longBe value => PutLongBe tbuf value
  | .put64Be value => Put64Be tbuf value
  | .stream bytes => PutStream tbuf bytes

/-- The bytes that the call is to write. -/
def bytes : PutCall → List UInt8
  | .byte value => [value]
  | .word value => piput16 value
  | .long value => piput32 value
  | .put64 value => piput64 value
  | .wordBe value => piput16Be value
  | .longBe value => piput32Be value
  | .put64Be value => piput64Be value
  | .stream bytes => bytes

/-- The call is one of `PutStream`. -/
def isStream : PutCall → Bool
  | .stream _ => true
  | _ => false

/-- The bytes that the call writes with the cursor at `index`: all or none, or for a stream
as many as are written before the cursor is beyond `size`. -/
def written (size index : ℕ) (call : PutCall) : List UInt8 :=
  if call.isStream then call.bytes.take (size + 1 - index)
  else if index + call.bytes.length ≤ size then call.bytes else []

/-- The code that the call returns. -/
def code (size index : ℕ) (call : PutCall) : EQCWWANError :=
  if call.isStream ∨ index + call.bytes.length ≤ size then EQCWWANError.none
  else EQCWWANError.memory

end PutCall

/-- A function that writes the value of a TLV. -/
inductive Builder where
  | ret (eRCode : EQCWWANError)
  | put (call : PutCall) (next : EQCWWANError → Builder)

namespace QmTBuffer

/-- The buffer with bytes written at the cursor, inside the window. -/
def append (tbuf : QmTBuffer) (bytes : List UInt8) : QmTBuffer :=
  { tbuf with
      Index := tbuf.Index + bytes.length
      Datap := store tbuf.Datap tbuf.Index bytes }

@[simp] theorem append_Size (tbuf : QmTBuffer) (bytes : List UInt8) :
    (tbuf.append bytes).Size = tbuf.Size := rfl

@[simp] theorem append_Index (tbuf : QmTBuffer) (bytes : List UInt8) :
    (tbuf.append bytes).Index = tbuf.Index + bytes.length := rfl

@[simp] theorem append_overrun (tbuf : QmTBuffer) (bytes : List UInt8) :
    (tbuf.append bytes).overrun = tbuf.overrun := rfl

@[simp] theorem append_nil (tbuf : QmTBuffer) : tbuf.append [] = tbuf := by
  simp [append]

theorem append_append (tbuf : QmTBuffer) (bytes bytes' : List UInt8) :
    (tbuf.append bytes).append bytes' = tbuf.append (bytes ++ bytes') := by
  simp [append, store_append, Nat.add_assoc]

/-- Bytes that fit are written inside the window. -/
theorem write_of_le {tbuf : QmTBuffer} {index : ℕ} {bytes : List UInt8}
    (h : index + bytes.length ≤ tbuf.Size) :
    tbuf.write index bytes = { tbuf with Datap := store tbuf.Datap index bytes } := by
  simp [write, Nat.not_lt.mpr h]

end QmTBuffer

theorem putBytes_of_le {tbuf : QmTBuffer} {bytes : List UInt8}
    (h : tbuf.Index + bytes.length ≤ tbuf.Size) :
    putBytes tbuf bytes = (EQCWWANError.none, tbuf.append bytes) := by
  rw [putBytes, if_pos h, QmTBuffer.write_of_le h]
  rfl

theorem putBytes_of_lt {tbuf : QmTBuffer} {bytes : List UInt8}
    (h : tbuf.Size < tbuf.Index + bytes.length) :
    putBytes tbuf bytes = (EQCWWANError.memory, tbuf) :=
  if_neg (Nat.not_le.mpr h)

theorem putBytes_Size (tbuf : QmTBuffer) (bytes : List UInt8) :
    (putBytes tbuf bytes).2.Size = tbuf.Size := by
  unfold putBytes
  split_ifs <;> rfl

theorem putStreamLoop_Size (tbuf : QmTBuffer) (bytes : List UInt8) :
    (putStreamLoop tbuf bytes).Size = tbuf.Size := by
  induction bytes generalizing tbuf with
  | nil => rfl
  | cons value bytes ih =>
      rw [putStreamLoop]
      split_ifs
      · exact ih _
      · rfl

/-- A stream that fits is written like any other bytes. -/
theorem putStreamLoop_of_le {tbuf : QmTBuffer} {bytes : List UInt8} (hsize : tbuf.Size < 2 ^ 16)
    (h : tbuf.Index + bytes.length ≤ tbuf.Size) :
    putStreamLoop tbuf bytes = tbuf.append bytes := by
  induction bytes generalizing tbuf with
  | nil => simp [putStreamLoop]
  | cons value bytes ih =>
      rw [List.length_cons] at h
      have hle : tbuf.Index ≤ tbuf.Size := Nat.le_of_add_right_le h
      have hone : tbuf.Index + [value].length ≤ tbuf.Size := by
        rw [List.length_singleton]
        omega
      have hmod : (tbuf.Index + 1) % 2 ^ 16 = tbuf.Index + 1 := Nat.mod_eq_of_lt (by omega)
      have hstep : { tbuf.write tbuf.Index [value] with Index := (tbuf.Index + 1) % 2 ^ 16 } =
          tbuf.append [value] := by
        rw [QmTBuffer.write_of_le hone, hmod]
        rfl
      have hrest : (tbuf.append [value]).Index + bytes.length ≤ (tbuf.append [value]).Size := by
        simp only [QmTBuffer.append_Index, QmTBuffer.append_Size, List.length_singleton]
        omega
      have hloop : putStreamLoop (tbuf.append [value]) bytes =
          (tbuf.append [value]).append bytes := ih hsize hrest
      rw [putStreamLoop, if_pos hle, hstep, hloop, QmTBuffer.append_append]
      rfl

theorem putStreamLoop_overrun {tbuf : QmTBuffer} (h : tbuf.overrun = true) (bytes : List UInt8) :
    (putStreamLoop tbuf bytes).overrun = true := by
  induction bytes generalizing tbuf with
  | nil => exact h
  | cons value bytes ih =>
      rw [putStreamLoop]
      split_ifs
      · exact ih (by simp [QmTBuffer.write, h])
      · exact h

/-- A stream that does not fit is written beyond the window. -/
theorem putStreamLoop_of_lt {tbuf : QmTBuffer} {bytes : List UInt8} (hsize : tbuf.Size < 2 ^ 16)
    (hle : tbuf.Index ≤ tbuf.Size) (h : tbuf.Size < tbuf.Index + bytes.length) :
    (putStreamLoop tbuf bytes).overrun = true := by
  induction bytes generalizing tbuf with
  | nil => exact absurd h (Nat.not_lt.mpr hle)
  | cons value bytes ih =>
      rw [putStreamLoop, if_pos hle]
      by_cases hlast : tbuf.Index = tbuf.Size
      · exact putStreamLoop_overrun (by simp [QmTBuffer.write, hlast]) bytes
      · rw [List.length_cons] at h
        have hmod : (tbuf.Index + 1) % 2 ^ 16 = tbuf.Index + 1 := Nat.mod_eq_of_lt (by omega)
        rw [hmod]
        refine ih hsize ?_ ?_
        · change tbuf.Index + 1 ≤ tbuf.Size
          omega
        · change tbuf.Size < tbuf.Index + 1 + bytes.length
          omega

namespace PutCall

theorem run_eq (tbuf : QmTBuffer) (call : PutCall) :
    call.run tbuf =
      if call.isStream then PutStream tbuf call.bytes else putBytes tbuf call.bytes := by
  cases call <;> rfl

theorem run_Size (tbuf : QmTBuffer) (call : PutCall) : (call.run tbuf).2.Size = tbuf.Size := by
  rw [run_eq]
  split_ifs
  · exact putStreamLoop_Size tbuf call.bytes
  · exact putBytes_Size tbuf call.bytes

/-- A call that stays inside the window appends what it writes. -/
theorem run_of_le {tbuf : QmTBuffer} {call : PutCall} (hsize : tbuf.Size < 2 ^ 16)
    (h : tbuf.Index + (call.written tbuf.Size tbuf.Index).length ≤ tbuf.Size) :
    call.run tbuf =
      (call.code tbuf.Size tbuf.Index, tbuf.append (call.written tbuf.Size tbuf.Index)) := by
  rw [run_eq]
  unfold written at h ⊢
  unfold code
  by_cases hstream : call.isStream = true
  · rw [if_pos hstream, List.length_take] at h
    have hall : call.bytes.length ≤ tbuf.Size + 1 - tbuf.Index := by omega
    have hfits : tbuf.Index + call.bytes.length ≤ tbuf.Size := by omega
    rw [if_pos hstream, if_pos hstream, if_pos (.inl hstream), List.take_of_length_le hall,
      PutStream, putStreamLoop_of_le hsize hfits]
  · by_cases hfits : tbuf.Index + call.bytes.length ≤ tbuf.Size
    · rw [if_neg hstream, if_neg hstream, if_pos hfits, if_pos (.inr hfits),
        putBytes_of_le hfits]
    · rw [if_neg hstream, if_neg hstream, if_neg hfits, if_neg (not_or.mpr ⟨hstream, hfits⟩),
        putBytes_of_lt (Nat.lt_of_not_le hfits), QmTBuffer.append_nil]

/-- A call that would go beyond the window does so. -/
theorem run_of_lt {tbuf : QmTBuffer} {call : PutCall} (hsize : tbuf.Size < 2 ^ 16)
    (hle : tbuf.Index ≤ tbuf.Size)
    (h : tbuf.Size < tbuf.Index + (call.written tbuf.Size tbuf.Index).length) :
    (call.run tbuf).2.overrun = true := by
  rw [run_eq]
  unfold written at h
  by_cases hstream : call.isStream = true
  · rw [if_pos hstream, List.length_take] at h
    rw [if_pos hstream]
    exact putStreamLoop_of_lt hsize hle (by omega)
  · rw [if_neg hstream] at h
    split_ifs at h with hfits
    · exact absurd hfits (Nat.not_le.mpr h)
    · exact absurd h (Nat.not_lt.mpr hle)

theorem putBytes_overrun {tbuf : QmTBuffer} (h : tbuf.overrun = true) (bytes : List UInt8) :
    (putBytes tbuf bytes).2.overrun = true := by
  unfold putBytes
  split_ifs
  · simp [QmTBuffer.write, h]
  · exact h

theorem run_overrun {tbuf : QmTBuffer} (h : tbuf.overrun = true) (call : PutCall) :
    (call.run tbuf).2.overrun = true := by
  rw [run_eq]
  split_ifs
  · exact putStreamLoop_overrun h call.bytes
  · exact putBytes_overrun h call.bytes

end PutCall

namespace Builder

/-- Run the function on the buffer. -/
def run (tbuf : QmTBuffer) : Builder → EQCWWANError × QmTBuffer
  | .ret eRCode => (eRCode, tbuf)
  | .put call next => run (call.run tbuf).2 (next (call.run tbuf).1)

/-- The bytes that the function writes with the cursor at `index` of a buffer of `size`
bytes. -/
def appended (size index : ℕ) : Builder → List UInt8
  | .ret _ => []
  | .put call next =>
      call.written size index ++
        appended size (index + (call.written size index).length)
          (next (call.code size index))

/-- The code that the function returns. -/
def code (size index : ℕ) : Builder → EQCWWANError
  | .ret eRCode => eRCode
  | .put call next =>
      code size (index + (call.written size index).length) (next (call.code size index))

theorem run_Size (tbuf : QmTBuffer) (build : Builder) : (build.run tbuf).2.Size = tbuf.Size := by
  induction build generalizing tbuf with
  | ret eRCode => rfl
  | put call next ih => exact (ih _ _).trans (PutCall.run_Size tbuf call)

/-- A function that stays inside the window appends what it writes. -/
theorem run_of_le {tbuf : QmTBuffer} {build : Builder} (hsize : tbuf.Size < 2 ^ 16)
    (h : tbuf.Index + (build.appended tbuf.Size tbuf.Index).length ≤ tbuf.Size) :
    build.run tbuf =
      (build.code tbuf.Size tbuf.Index, tbuf.append (build.appended tbuf.Size tbuf.Index)) := by
  induction build generalizing tbuf with
  | ret eRCode => simp [run, code, appended]
  | put call next ih =>
      rw [appended, List.length_append] at h
      have hcall : tbuf.Index + (call.written tbuf.Size tbuf.Index).length ≤ tbuf.Size := by omega
      have hrun := PutCall.run_of_le hsize hcall
      have hrest : (tbuf.append (call.written tbuf.Size tbuf.Index)).Index +
          ((next (call.code tbuf.Size tbuf.Index)).appended tbuf.Size
            (tbuf.Index + (call.written tbuf.Size tbuf.Index).length)).length ≤ tbuf.Size := by
        rw [QmTBuffer.append_Index, Nat.add_assoc]
        exact h
      rw [run, hrun, appended, ← QmTBuffer.append_append]
      exact ih _ hsize hrest

theorem run_overrun {tbuf : QmTBuffer} (h : tbuf.overrun = true) (build : Builder) :
    (build.run tbuf).2.overrun = true := by
  induction build generalizing tbuf with
  | ret eRCode => exact h
  | put call next ih => exact ih _ (PutCall.run_overrun h call)

/-- A function that would go beyond the window does so. -/
theorem run_of_lt {tbuf : QmTBuffer} {build : Builder} (hsize : tbuf.Size < 2 ^ 16)
    (hle : tbuf.Index ≤ tbuf.Size)
    (h : tbuf.Size < tbuf.Index + (build.appended tbuf.Size tbuf.Index).length) :
    (build.run tbuf).2.overrun = true := by
  induction build generalizing tbuf with
  | ret eRCode => exact absurd h (Nat.not_lt.mpr hle)
  | put call next ih =>
      rw [run]
      by_cases hcall : tbuf.Index + (call.written tbuf.Size tbuf.Index).length ≤ tbuf.Size
      · rw [PutCall.run_of_le hsize hcall]
        rw [appended, List.length_append, ← Nat.add_assoc] at h
        exact ih _ hsize hcall h
      · exact run_overrun (PutCall.run_of_lt hsize hle (Nat.lt_of_not_le hcall)) _

end Builder

end Qm

end SierraSdk
