import SierraSdk.Library.Machine
import SierraSdk.Qm.TlvUnpack

/-!
# The cursor of a message buffer

The functions of the Get family read at the cursor of a buffer and move it, if what they read
is there; `GetStream` reads byte by byte as long as the cursor is not beyond `Size`, and looks
at the cursor only when it has read. As for the Put family, `overrun` records an access
outside the window.

A run is any sequence of calls of both families and of `IncrementIndex`. `KeepsWindow` is what
one call is to guarantee. All calls other than those of a stream guarantee it, and a stream
does exactly when it fits (`keepsWindow_iff`).
-/

namespace SierraSdk

namespace Qm

open Am Machine Memory

/-- Record that bytes are read from an index of the window on. -/
def QmTBuffer.read (tbuf : QmTBuffer) (index n : ℕ) : QmTBuffer :=
  { tbuf with overrun := tbuf.overrun || decide (tbuf.Size < index + n) }

/-- Read bytes at the cursor and move it, if they are there. -/
def getBytes (tbuf : QmTBuffer) (n : ℕ) : Option (List UInt8 × QmTBuffer) :=
  if tbuf.Index + n ≤ tbuf.Size then
    some (load tbuf.Datap tbuf.Index n,
      { tbuf.read tbuf.Index n with Index := tbuf.Index + n })
  else none

/-- A 64-bit field of a buffer. -/
def piget64 (buf : List UInt8) (i : ℕ) : UInt64 :=
  (piget32 buf i).toUInt64 ||| ((piget32 buf (i + 4)).toUInt64 <<< 32)

/-- Fields with the highest byte first. -/
def piget16Be (bytes : List UInt8) : UInt16 := piget16 bytes.reverse 0
def piget32Be (bytes : List UInt8) : UInt32 := piget32 bytes.reverse 0
def piget64Be (bytes : List UInt8) : UInt64 := piget64 bytes.reverse 0

def GetLong (tbuf : QmTBuffer) : Option (UInt32 × QmTBuffer) :=
  (getBytes tbuf 4).map fun r => (piget32 r.1 0, r.2)

def GetLongLong (tbuf : QmTBuffer) : Option (UInt64 × QmTBuffer) :=
  (getBytes tbuf 8).map fun r => (piget64 r.1 0, r.2)

def GetWordBe (tbuf : QmTBuffer) : Option (UInt16 × QmTBuffer) :=
  (getBytes tbuf 2).map fun r => (piget16Be r.1, r.2)

def GetLongBe (tbuf : QmTBuffer) : Option (UInt32 × QmTBuffer) :=
  (getBytes tbuf 4).map fun r => (piget32Be r.1, r.2)

def GetLongLongBe (tbuf : QmTBuffer) : Option (UInt64 × QmTBuffer) :=
  (getBytes tbuf 8).map fun r => (piget64Be r.1, r.2)

/-- The loop of `GetStream`. A cursor at `Size` still reads a byte. -/
def getStreamLoop (tbuf : QmTBuffer) : ℕ → List UInt8 × QmTBuffer
  | 0 => ([], tbuf)
  | n + 1 =>
      if tbuf.Index ≤ tbuf.Size then
        let r := getStreamLoop
          { tbuf.read tbuf.Index 1 with Index := (tbuf.Index + 1) % 2 ^ 16 } n
        (tbuf.Datap tbuf.Index :: r.1, r.2)
      else ([], tbuf)

/-- The bytes that were read are handed out also when the code is an error. -/
def GetStream (tbuf : QmTBuffer) (streamlen : UInt32) :
    EQCWWANError × List UInt8 × QmTBuffer :=
  let r := getStreamLoop tbuf streamlen.toNat
  (if r.2.Size < r.2.Index then EQCWWANError.memory else EQCWWANError.none, r)

/-- The code of a call that returns a value or fails, and the buffer that it leaves. -/
def outcome {α : Type*} (tbuf : QmTBuffer) : Option (α × QmTBuffer) → EQCWWANError × QmTBuffer
  | none => (EQCWWANError.memory, tbuf)
  | some r => (EQCWWANError.none, r.2)

/-- A call of the Get family. -/
inductive GetCall where
  | byte
  | word
  | long
  | longLong
  | wordBe
  | longBe
  | longLongBe
  | stream (streamlen : UInt32)

namespace GetCall

/-- What the call does to the buffer. -/
def run (tbuf : QmTBuffer) : GetCall → EQCWWANError × QmTBuffer
  | .byte => outcome tbuf (GetByte tbuf)
  | .word => outcome tbuf (GetWord tbuf)
  | .long => outcome tbuf (GetLong tbuf)
  | .longLong => outcome tbuf (GetLongLong tbuf)
  | .wordBe => outcome tbuf (GetWordBe tbuf)
  | .longBe => outcome tbuf (GetLongBe tbuf)
  | .longLongBe => outcome tbuf (GetLongLongBe tbuf)
  | .stream streamlen => ((GetStream tbuf streamlen).1, (GetStream tbuf streamlen).2.2)

/-- The number of bytes that the call is to read. -/
def len : GetCall → ℕ
  | .byte => 1
  | .word => 2
  | .long => 4
  | .longLong => 8
  | .wordBe => 2
  | .longBe => 4
  | .longLongBe => 8
  | .stream streamlen => streamlen.toNat

/-- The call is one of `GetStream`. -/
def isStream : GetCall → Bool
  | .stream _ => true
  | _ => false

end GetCall

/-- A call of one of the families, or one that moves the cursor over a number of bytes. -/
inductive BufferCall where
  | put (call : PutCall)
  | get (call : GetCall)
  | incrementIndex (increment : UInt16)

namespace BufferCall

def run (tbuf : QmTBuffer) : BufferCall → EQCWWANError × QmTBuffer
  | .put call => call.run tbuf
  | .get call => call.run tbuf
  | .incrementIndex increment => IncrementIndex tbuf increment.toNat

/-- The number of bytes that the call is about. -/
def len : BufferCall → ℕ
  | .put call => call.bytes.length
  | .get call => call.len
  | .incrementIndex increment => increment.toNat

def isStream : BufferCall → Bool
  | .put call => call.isStream
  | .get call => call.isStream
  | .incrementIndex _ => false

end BufferCall

/-- The buffer as a machine that answers a call with a code. -/
def bufferStep (tbuf : QmTBuffer) (call : BufferCall) : QmTBuffer × List EQCWWANError :=
  ((call.run tbuf).2, [(call.run tbuf).1])

/-- What a call is to guarantee: the cursor is not beyond the window, no byte outside the
window is accessed, an error leaves the buffer as it was, and what does not fit is an
error. -/
structure KeepsWindow (tbuf : QmTBuffer) (call : BufferCall) : Prop where
  cursor : (call.run tbuf).2.Index ≤ (call.run tbuf).2.Size
  inside : (call.run tbuf).2.overrun = false
  unchanged : (call.run tbuf).1 ≠ EQCWWANError.none → (call.run tbuf).2 = tbuf
  refused : tbuf.Size < tbuf.Index + call.len → (call.run tbuf).1 ≠ EQCWWANError.none

/-- A stream fits in what is left of the window. -/
def StreamFits (tbuf : QmTBuffer) (call : BufferCall) : Prop :=
  call.isStream = true → tbuf.Index + call.len ≤ tbuf.Size

instance (tbuf : QmTBuffer) (call : BufferCall) : Decidable (StreamFits tbuf call) :=
  inferInstanceAs (Decidable (_ → _))

/-- The cursor is inside the window to begin with and every call of the run guarantees what
it is to. -/
def CursorKept (tbuf : QmTBuffer) (calls : List BufferCall) : Prop :=
  tbuf.Index ≤ tbuf.Size ∧ Meets bufferStep KeepsWindow tbuf calls

/-- A buffer as the calls of a run are to find it. -/
structure QmTBuffer.Ready (tbuf : QmTBuffer) : Prop where
  size : tbuf.Size < 2 ^ 16
  cursor : tbuf.Index ≤ tbuf.Size
  inside : tbuf.overrun = false

section Streams

/-- The buffer with the cursor moved over bytes of the window. -/
def QmTBuffer.skip (tbuf : QmTBuffer) (n : ℕ) : QmTBuffer := { tbuf with Index := tbuf.Index + n }

@[simp] theorem QmTBuffer.skip_Size (tbuf : QmTBuffer) (n : ℕ) :
    (tbuf.skip n).Size = tbuf.Size := rfl

@[simp] theorem QmTBuffer.skip_Index (tbuf : QmTBuffer) (n : ℕ) :
    (tbuf.skip n).Index = tbuf.Index + n := rfl

@[simp] theorem QmTBuffer.skip_overrun (tbuf : QmTBuffer) (n : ℕ) :
    (tbuf.skip n).overrun = tbuf.overrun := rfl

theorem QmTBuffer.read_of_le {tbuf : QmTBuffer} {index n : ℕ} (h : index + n ≤ tbuf.Size) :
    tbuf.read index n = tbuf := by
  simp [read, Nat.not_lt.mpr h]

theorem getBytes_of_le {tbuf : QmTBuffer} {n : ℕ} (h : tbuf.Index + n ≤ tbuf.Size) :
    getBytes tbuf n = some (load tbuf.Datap tbuf.Index n, tbuf.skip n) := by
  rw [getBytes, if_pos h, QmTBuffer.read_of_le h]
  rfl

theorem getBytes_of_lt {tbuf : QmTBuffer} {n : ℕ} (h : tbuf.Size < tbuf.Index + n) :
    getBytes tbuf n = none :=
  if_neg (Nat.not_le.mpr h)

/-- A stream that is there is read like any other bytes. -/
theorem getStreamLoop_of_le {tbuf : QmTBuffer} {n : ℕ} (hsize : tbuf.Size < 2 ^ 16)
    (h : tbuf.Index + n ≤ tbuf.Size) :
    getStreamLoop tbuf n = (load tbuf.Datap tbuf.Index n, tbuf.skip n) := by
  induction n generalizing tbuf with
  | zero => rfl
  | succ n ih =>
      have hle : tbuf.Index ≤ tbuf.Size := Nat.le_of_add_right_le h
      have hone : tbuf.Index + 1 ≤ tbuf.Size := by omega
      have hmod : (tbuf.Index + 1) % 2 ^ 16 = tbuf.Index + 1 := Nat.mod_eq_of_lt (by omega)
      have hrest : getStreamLoop (tbuf.skip 1) n =
          (load tbuf.Datap (tbuf.Index + 1) n, (tbuf.skip 1).skip n) :=
        ih hsize (by rw [QmTBuffer.skip_Index, QmTBuffer.skip_Size]; omega)
      have hskip : (tbuf.skip 1).skip n = tbuf.skip (n + 1) := by
        simp [QmTBuffer.skip, Nat.add_assoc, Nat.add_comm 1 n]
      rw [getStreamLoop, if_pos hle, QmTBuffer.read_of_le hone, hmod, load_succ, ← hskip]
      exact congrArg (fun r => (tbuf.Datap tbuf.Index :: r.1, r.2)) hrest

theorem getStreamLoop_overrun {tbuf : QmTBuffer} (h : tbuf.overrun = true) (n : ℕ) :
    (getStreamLoop tbuf n).2.overrun = true := by
  induction n generalizing tbuf with
  | zero => exact h
  | succ n ih =>
      rw [getStreamLoop]
      split_ifs
      · exact ih (by simp [QmTBuffer.read, h])
      · exact h

/-- A stream that is not there is read beyond the window. -/
theorem getStreamLoop_of_lt {tbuf : QmTBuffer} {n : ℕ} (hsize : tbuf.Size < 2 ^ 16)
    (hle : tbuf.Index ≤ tbuf.Size) (h : tbuf.Size < tbuf.Index + n) :
    (getStreamLoop tbuf n).2.overrun = true := by
  induction n generalizing tbuf with
  | zero => exact absurd h (Nat.not_lt.mpr hle)
  | succ n ih =>
      rw [getStreamLoop, if_pos hle]
      by_cases hlast : tbuf.Index = tbuf.Size
      · exact getStreamLoop_overrun (by simp [QmTBuffer.read, hlast]) n
      · have hmod : (tbuf.Index + 1) % 2 ^ 16 = tbuf.Index + 1 := Nat.mod_eq_of_lt (by omega)
        rw [hmod]
        refine ih hsize ?_ ?_
        · change tbuf.Index + 1 ≤ tbuf.Size
          omega
        · change tbuf.Size < tbuf.Index + 1 + n
          omega

end Streams

namespace GetCall

/-- The functions for one byte and for one word are written out in the source, and do what the
others do. -/
theorem run_eq (tbuf : QmTBuffer) (call : GetCall) (h : call.isStream = false) :
    call.run tbuf = outcome tbuf (getBytes tbuf call.len) := by
  by_cases hfits : tbuf.Index + call.len ≤ tbuf.Size
  · cases call <;> cases h <;>
      simp only [len] at hfits <;>
      simp [run, len, GetByte, GetWord, GetLong, GetLongLong, GetWordBe, GetLongBe,
        GetLongLongBe, getBytes_of_le hfits, outcome, hfits, QmTBuffer.skip]
  · have hlt : tbuf.Size < tbuf.Index + call.len := Nat.lt_of_not_le hfits
    cases call <;> cases h <;>
      simp only [len] at hfits hlt <;>
      simp [run, len, GetByte, GetWord, GetLong, GetLongLong, GetWordBe, GetLongBe,
        GetLongLongBe, getBytes_of_lt hlt, outcome, hfits]

/-- A call whose bytes are there moves the cursor over them. -/
theorem run_of_le {tbuf : QmTBuffer} {call : GetCall} (hsize : tbuf.Size < 2 ^ 16)
    (h : tbuf.Index + call.len ≤ tbuf.Size) :
    call.run tbuf = (EQCWWANError.none, tbuf.skip call.len) := by
  by_cases hstream : call.isStream = false
  · rw [run_eq tbuf call hstream, getBytes_of_le h]
    rfl
  · cases call with
    | stream streamlen =>
        have hloop := getStreamLoop_of_le hsize h
        have hnot : ¬ tbuf.Size < tbuf.Index + streamlen.toNat := Nat.not_lt.mpr h
        change getStreamLoop tbuf streamlen.toNat = _ at hloop
        simp [run, GetStream, hloop, len, hnot]
    | _ => exact absurd rfl hstream

theorem run_of_lt {tbuf : QmTBuffer} {call : GetCall} (hstream : call.isStream = false)
    (h : tbuf.Size < tbuf.Index + call.len) :
    call.run tbuf = (EQCWWANError.memory, tbuf) := by
  rw [run_eq tbuf call hstream, getBytes_of_lt h]
  rfl

end GetCall

namespace BufferCall

/-- A call that fits succeeds and moves the cursor by its length. -/
theorem run_of_le {tbuf : QmTBuffer} {call : BufferCall} (hsize : tbuf.Size < 2 ^ 16)
    (h : tbuf.Index + call.len ≤ tbuf.Size) :
    (call.run tbuf).1 = EQCWWANError.none ∧ (call.run tbuf).2.Size = tbuf.Size ∧
      (call.run tbuf).2.Index = tbuf.Index + call.len ∧
      (call.run tbuf).2.overrun = tbuf.overrun := by
  cases call with
  | put call =>
      change tbuf.Index + call.bytes.length ≤ tbuf.Size at h
      have hrun : call.run tbuf = (EQCWWANError.none, tbuf.append call.bytes) := by
        rw [PutCall.run_eq]
        split_ifs
        · rw [PutStream, putStreamLoop_of_le hsize h]
        · exact putBytes_of_le h
      simp [run, len, hrun]
  | get call => simp [run, len, GetCall.run_of_le hsize h]
  | incrementIndex increment =>
      change tbuf.Index + increment.toNat ≤ tbuf.Size at h
      simp [run, len, IncrementIndex, h]

/-- A call that does not fit, and is not one of a stream, does nothing. -/
theorem run_of_lt {tbuf : QmTBuffer} {call : BufferCall} (hstream : call.isStream = false)
    (h : tbuf.Size < tbuf.Index + call.len) : call.run tbuf = (EQCWWANError.memory, tbuf) := by
  cases call with
  | put call =>
      change call.isStream = false at hstream
      rw [run, PutCall.run_eq, hstream]
      exact putBytes_of_lt h
  | get call => exact GetCall.run_of_lt hstream h
  | incrementIndex increment => exact if_neg (Nat.not_le.mpr h)

/-- A stream that does not fit leaves the window. -/
theorem stream_of_lt {tbuf : QmTBuffer} {call : BufferCall} (hready : tbuf.Ready)
    (hstream : call.isStream = true) (h : tbuf.Size < tbuf.Index + call.len) :
    (call.run tbuf).2.overrun = true := by
  cases call with
  | put call =>
      change call.isStream = true at hstream
      rw [run, PutCall.run_eq, hstream]
      exact putStreamLoop_of_lt hready.size hready.cursor h
  | get call =>
      cases call with
      | stream streamlen => exact getStreamLoop_of_lt hready.size hready.cursor h
      | _ => cases hstream
  | incrementIndex increment => cases hstream

end BufferCall

/-- What a call guarantees of a buffer that is ready, it guarantees exactly if it is not a
stream that does not fit. -/
theorem keepsWindow_iff {tbuf : QmTBuffer} {call : BufferCall} (hready : tbuf.Ready) :
    KeepsWindow tbuf call ↔ StreamFits tbuf call := by
  constructor
  · intro hkeeps hstream
    by_contra hnot
    have hrun := BufferCall.stream_of_lt hready hstream (Nat.lt_of_not_le hnot)
    rw [hkeeps.inside] at hrun
    cases hrun
  · intro hfits
    by_cases hle : tbuf.Index + call.len ≤ tbuf.Size
    · obtain ⟨hcode, hsize, hindex, hover⟩ := BufferCall.run_of_le hready.size hle
      refine ⟨?_, ?_, fun herr => absurd hcode herr, fun hlt => absurd hle (Nat.not_le.mpr hlt)⟩
      · rw [hindex, hsize]
        exact hle
      · rw [hover]
        exact hready.inside
    · have hstream : call.isStream = false := Bool.eq_false_iff.mpr fun hs => hle (hfits hs)
      have hrun := BufferCall.run_of_lt hstream (Nat.lt_of_not_le hle)
      have herror : EQCWWANError.memory ≠ EQCWWANError.none := by decide
      refine ⟨?_, ?_, fun _ => congrArg Prod.snd hrun, fun _ => ?_⟩
      · rw [hrun]
        exact hready.cursor
      · rw [hrun]
        exact hready.inside
      · rw [hrun]
        exact herror

/-- A call that keeps the window leaves a buffer that is ready. -/
theorem ready_step {tbuf : QmTBuffer} {call : BufferCall} (hready : tbuf.Ready)
    (h : KeepsWindow tbuf call) : (bufferStep tbuf call).1.Ready := by
  refine ⟨?_, h.cursor, h.inside⟩
  have hfits := (keepsWindow_iff hready).mp h
  change (call.run tbuf).2.Size < 2 ^ 16
  by_cases hle : tbuf.Index + call.len ≤ tbuf.Size
  · rw [(BufferCall.run_of_le hready.size hle).2.1]
    exact hready.size
  · have hstream : call.isStream = false := Bool.eq_false_iff.mpr fun hs => hle (hfits hs)
    rw [BufferCall.run_of_lt hstream (Nat.lt_of_not_le hle)]
    exact hready.size

/-- A run of calls keeps the window exactly if every stream fits when its turn comes. -/
theorem meets_keepsWindow_iff {tbuf : QmTBuffer} (hready : tbuf.Ready)
    (calls : List BufferCall) :
    Meets bufferStep KeepsWindow tbuf calls ↔ Meets bufferStep StreamFits tbuf calls := by
  constructor
  · exact meets_of_invariant (fun s i hs hi => ready_step hs hi)
      (fun s i hs hi => (keepsWindow_iff hs).mp hi) hready
  · exact meets_of_invariant
      (fun s i hs hi => ready_step hs ((keepsWindow_iff hs).mpr hi))
      (fun s i hs hi => (keepsWindow_iff hs).mpr hi) hready

theorem ready_window {size index : UInt16} (d : ℕ → UInt8) (h : index ≤ size) :
    (window d size.toNat index.toNat).Ready :=
  ⟨size.toNat_lt, UInt16.le_iff_toNat_le.mp h, rfl⟩

/-- The cursor of a buffer is kept over a run of calls exactly if it is inside the window to
begin with and every stream that is put or got fits in what is left. -/
theorem cursorKept_iff (d : ℕ → UInt8) (size index : UInt16) (calls : List BufferCall) :
    CursorKept (window d size.toNat index.toNat) calls ↔
      index ≤ size ∧ Meets bufferStep StreamFits (window d size.toNat index.toNat) calls := by
  rw [UInt16.le_iff_toNat_le]
  refine and_congr_right fun hle => ?_
  exact meets_keepsWindow_iff (ready_window d (UInt16.le_iff_toNat_le.mpr hle)) calls

/-- A stream of two bytes is put in a buffer of one. -/
theorem not_cursorKept_stream :
    ¬ ∀ (d : ℕ → UInt8) (size index : UInt16) (calls : List BufferCall), index ≤ size →
      CursorKept (window d size.toNat index.toNat) calls := by
  intro h
  have hrun := h (fun _ => 0) 1 0 [.put (.stream [1, 2])] (by decide)
  have hinside := hrun.2.1.inside
  revert hinside
  decide

end Qm

end SierraSdk
