import SierraSdk.Library.Machine
import SierraSdk.Library.Tiles

/-!
# Streaming a firmware image

The image-management task sends an image file to the modem in blocks of `imChunkSize` bytes.
The first block is sent when the modem has answered the open request (`imsendUFwrite`), each
further one when it has answered the block before (`imsendNextUFwrite`). The SDK task leaves
out the header of the image, which it has sent with the open request; the Gobi task, with
functions of its own, sends the whole file. Both count the blocks that are left in
`numwrites` and give the last one the size `remainder`.

The last block is empty if the size of the image is a multiple of the chunk size; otherwise
the blocks tile the image behind its header (`imageUploaded_iff`).
-/

namespace SierraSdk

namespace Im

open Blocks

/-- `IM_CHUNK_SIZE` -/
def imChunkSize : UInt32 := 8192

/-- `SSDP_OPEN_UNFRAMED_PKT_CWE_HEADER_SZ` -/
def ssdpOpenUnframedPktCweHeaderSz : UInt32 := 400

/-- `SSDP_OPEN_UNFRAMED_STATUS_OK` and `SSDP_OPEN_UNFRAMED_IMAGE_NT_REQUIRED` -/
def ssdpOpenUnframedStatusOk : UInt32 := 0
def ssdpOpenUnframedImageNtRequired : UInt32 := 7

/-- `SSDP_UNFRAMED_WRITE_DATA_RECEIVED_OK` -/
def ssdpUnframedWriteDataReceivedOk : UInt16 := 0

/-- The part of the control block that the writes use. -/
structure Imqdl where
  cweImageSize : UInt32
  fwImageSize : UInt32
  chunkSize : UInt32
  remainder : UInt32
  numwrites : UInt32
  nextchunkoffset : UInt32
  byteswritten : UInt32
  sequenceNumber : UInt16
  deriving DecidableEq

/-- A block that is written: its number, where in the file it begins, and its length. -/
structure ImBlock where
  sequenceNumber : UInt16
  offset : UInt32
  length : UInt32
  deriving DecidableEq

/-- What the task does: it writes a block, finishes or skips the image, raises an error event
or aborts. -/
inductive ImOutput where
  | block (b : ImBlock)
  | finished
  | skipped
  | error
  | abort
  deriving DecidableEq

/-- The response to the open request, and whether the file can be mapped. -/
structure OpenRsp where
  status : UInt32
  mapped : Bool

/-- The response to a block, whether it can be unpacked, and whether the file can be mapped. -/
structure WriteRsp where
  unpacked : Bool
  status : UInt16
  mapped : Bool

/-- The number of blocks for an image of `size` bytes, and the size of the last one. -/
def splitImage (qdl : Imqdl) (size : UInt32) : Imqdl :=
  { qdl with
      numwrites :=
        if size % qdl.chunkSize ≠ 0 then size / qdl.chunkSize + 1 else size / qdl.chunkSize
      remainder := size % qdl.chunkSize }

/-- The size of the next block. -/
def blockSize (qdl : Imqdl) : UInt32 :=
  if qdl.numwrites = 1 then qdl.remainder else imChunkSize

/-- Write the first block of the image, of which `header` bytes are left out. -/
def firstBlock (qdl : Imqdl) (header : UInt32) : Imqdl × List ImOutput :=
  ({ qdl with
      sequenceNumber := 1
      numwrites := qdl.numwrites - 1
      nextchunkoffset := blockSize qdl
      byteswritten := blockSize qdl - header },
    [.block ⟨0, header, blockSize qdl - header⟩])

/-- Write the next block of the image. -/
def nextBlock (qdl : Imqdl) : Imqdl × List ImOutput :=
  ({ qdl with
      sequenceNumber := qdl.sequenceNumber + 1
      numwrites := qdl.numwrites - 1
      nextchunkoffset := qdl.nextchunkoffset + blockSize qdl
      byteswritten := qdl.byteswritten + blockSize qdl },
    [.block ⟨qdl.sequenceNumber, qdl.nextchunkoffset, blockSize qdl⟩])

/-- The first write of the SDK task. There is no state if no block has been written. -/
def imsendUFwrite (qdl : Imqdl) (rsp : OpenRsp) : Option Imqdl × List ImOutput :=
  if rsp.status ≠ ssdpOpenUnframedStatusOk then (none, [])
  else if rsp.mapped = false then (none, [])
  else
    (firstBlock (splitImage qdl qdl.cweImageSize) ssdpOpenUnframedPktCweHeaderSz).map some id

/-- The further writes of the SDK task, which goes on whatever the status of the response.
There is no state once the image is finished. -/
def imsendNextUFwrite (qdl : Imqdl) (rsp : WriteRsp) : Option Imqdl × List ImOutput :=
  if rsp.unpacked = false then (some qdl, [])
  else if qdl.numwrites = 0 then (none, [.finished])
  else if rsp.mapped = false then (some qdl, [])
  else (nextBlock qdl).map some id

/-- The first write of the Gobi task. -/
def imGobiSendUfWrite (qdl : Imqdl) (rsp : OpenRsp) : Option Imqdl × List ImOutput :=
  if rsp.status ≠ ssdpOpenUnframedStatusOk then
    if rsp.status = ssdpOpenUnframedImageNtRequired then (none, [.skipped]) else (none, [.error])
  else if rsp.mapped = false then (none, [.abort])
  else (firstBlock (splitImage qdl qdl.fwImageSize) 0).map some id

/-- The further writes of the Gobi task. -/
def imGobiSendNextUfWrite (qdl : Imqdl) (rsp : WriteRsp) : Option Imqdl × List ImOutput :=
  if rsp.unpacked = false then (none, [.error])
  else if rsp.status ≠ ssdpUnframedWriteDataReceivedOk then (none, [.error])
  else if qdl.numwrites = 0 then (none, [.finished])
  else if rsp.mapped = false then (none, [.abort])
  else (nextBlock qdl).map some id

/-- The two tasks that send images. -/
inductive ImTask where
  | sdk
  | gobi
  deriving DecidableEq

namespace ImTask

/-- The size of the image file. -/
def imageSize : ImTask → Imqdl → UInt32
  | .sdk, qdl => qdl.cweImageSize
  | .gobi, qdl => qdl.fwImageSize

/-- The size of the header that the writes leave out. -/
def headerSize : ImTask → UInt32
  | .sdk => ssdpOpenUnframedPktCweHeaderSz
  | .gobi => 0

def sendUfWrite : ImTask → Imqdl → OpenRsp → Option Imqdl × List ImOutput
  | .sdk => imsendUFwrite
  | .gobi => imGobiSendUfWrite

def sendNextUfWrite : ImTask → Imqdl → WriteRsp → Option Imqdl × List ImOutput
  | .sdk => imsendNextUFwrite
  | .gobi => imGobiSendNextUfWrite

/-- A response in the course of an image; there is nothing to do before or after it. -/
def step (task : ImTask) : Option Imqdl → WriteRsp → Option Imqdl × List ImOutput
  | none, _ => (none, [])
  | some qdl, rsp => task.sendNextUfWrite qdl rsp

/-- What the task does for an image: on the response to the open request, and on those to the
blocks. -/
def upload (task : ImTask) (qdl : Imqdl) (open' : OpenRsp) (rsps : List WriteRsp) :
    List ImOutput :=
  (task.sendUfWrite qdl open').2 ++
    Machine.outputs task.step (task.sendUfWrite qdl open').1 rsps

end ImTask

/-- The blocks that are written. -/
def blocks (outs : List ImOutput) : List ImBlock :=
  outs.filterMap fun
    | .block b => some b
    | _ => none

/-- Where a block lies in the file. -/
def ImBlock.span (b : ImBlock) : ℕ × ℕ := (b.offset.toNat, b.length.toNat)

/-- The blocks have consecutive numbers. -/
def Numbered : UInt16 → List ImBlock → Prop
  | _, [] => True
  | seq, b :: bs => b.sequenceNumber = seq ∧ Numbered (seq + 1) bs

/-- The blocks have consecutive numbers from `0` on and lie back to back from the end of the
header on, inside the image, up to its end if the image is finished; none is empty or longer
than a chunk. -/
def Partitions (header size : ℕ) (outs : List ImOutput) : Prop :=
  Numbered 0 (blocks outs) ∧
    ∃ stop, stop ≤ size ∧ Tiles imChunkSize.toNat header ((blocks outs).map ImBlock.span) stop ∧
      (.finished ∈ outs → stop = size)

/-- The responses of a modem that receives every block, with a file that can be mapped. -/
def Accepted (rsps : List WriteRsp) : Prop :=
  ∀ rsp ∈ rsps, rsp.unpacked = true ∧ rsp.status = ssdpUnframedWriteDataReceivedOk ∧
    rsp.mapped = true

/-- Whatever the modem answers, what has been written are blocks of the image as they should
be, and enough answers that accept the blocks finish the image. -/
def ImageUploaded (task : ImTask) (qdl : Imqdl) : Prop :=
  (∀ open' rsps, Partitions task.headerSize.toNat (task.imageSize qdl).toNat
      (task.upload qdl open' rsps)) ∧
    ∀ rsps, Accepted rsps → (task.imageSize qdl).toNat / imChunkSize.toNat < rsps.length →
      .finished ∈ task.upload qdl ⟨ssdpOpenUnframedStatusOk, true⟩ rsps

section Step

variable {task : ImTask} {qdl : Imqdl} {size start : ℕ}

/-- What a response in the course of an image leads to: nothing to send, the end of the
image, or its next block. -/
inductive StepRule (qdl : Imqdl) : Option Imqdl × List ImOutput → Prop where
  | waits : StepRule qdl (some qdl, [])
  | fails (o : ImOutput) (ho : o = .error ∨ o = .abort) : StepRule qdl (none, [o])
  | finishes (h : qdl.numwrites = 0) : StepRule qdl (none, [.finished])
  | writes (h : qdl.numwrites ≠ 0) : StepRule qdl (some (nextBlock qdl).1, (nextBlock qdl).2)

theorem sendNextUfWrite_rule (task : ImTask) (qdl : Imqdl) (rsp : WriteRsp) :
    StepRule qdl (task.sendNextUfWrite qdl rsp) := by
  cases task with
  | sdk =>
      simp only [ImTask.sendNextUfWrite, imsendNextUFwrite]
      split_ifs with hunpacked hdone hmapped
      · exact .waits
      · exact .finishes hdone
      · exact .waits
      · exact .writes hdone
  | gobi =>
      simp only [ImTask.sendNextUfWrite, imGobiSendNextUfWrite]
      split_ifs with hunpacked hstatus hdone hmapped
      · exact .fails .error (.inl rfl)
      · exact .fails .error (.inl rfl)
      · exact .finishes hdone
      · exact .fails .abort (.inr rfl)
      · exact .writes hdone

/-- An accepted block leads to the next one, or to the end of the image. -/
theorem sendNextUfWrite_accepted (task : ImTask) (qdl : Imqdl) {rsp : WriteRsp}
    (h : rsp.unpacked = true ∧ rsp.status = ssdpUnframedWriteDataReceivedOk ∧
      rsp.mapped = true) :
    task.sendNextUfWrite qdl rsp =
      if qdl.numwrites = 0 then (none, [.finished]) else (nextBlock qdl).map some id := by
  obtain ⟨hunpacked, hstatus, hmapped⟩ := h
  cases task with
  | sdk => simp [ImTask.sendNextUfWrite, imsendNextUFwrite, hunpacked, hmapped]
  | gobi => simp [ImTask.sendNextUfWrite, imGobiSendNextUfWrite, hunpacked, hstatus, hmapped]

/-- What has been written ends at `start`, and the blocks that are left lead to the end of
the image. -/
structure Streaming (size : ℕ) (qdl : Imqdl) (start : ℕ) : Prop where
  done : qdl.numwrites = 0 → start = size
  offset : qdl.numwrites ≠ 0 → qdl.nextchunkoffset.toNat = start
  rest : qdl.numwrites ≠ 0 →
    start + imChunkSize.toNat * (qdl.numwrites.toNat - 1) + qdl.remainder.toNat = size
  remainder : 0 < qdl.remainder.toNat ∧ qdl.remainder.toNat < imChunkSize.toNat
  size_lt : size < 2 ^ 32

theorem toNat_sub_one {n : UInt32} (h : n ≠ 0) : (n - 1).toNat = n.toNat - 1 := by
  have hpos : 0 < n.toNat := Nat.pos_of_ne_zero fun h0 => h (UInt32.toNat_inj.mp h0)
  exact UInt32.toNat_sub_of_le _ _ (UInt32.le_iff_toNat_le.mpr hpos)

theorem toNat_ne_zero {n : UInt32} (h : n ≠ 0) : n.toNat ≠ 0 := fun h0 =>
  h (UInt32.toNat_inj.mp h0)

theorem imChunkSize_toNat : imChunkSize.toNat = 8192 := rfl

/-- The next block begins where the blocks before it end. -/
theorem Streaming.next (h : Streaming size qdl start) (hne : qdl.numwrites ≠ 0) :
    0 < (blockSize qdl).toNat ∧ (blockSize qdl).toNat ≤ imChunkSize.toNat ∧
      start + (blockSize qdl).toNat ≤ size ∧
      Streaming size (nextBlock qdl).1 (start + (blockSize qdl).toNat) := by
  have hpos := toNat_ne_zero hne
  have hrest := h.rest hne
  have hoffset := h.offset hne
  obtain ⟨hremainder, hsmall⟩ := h.remainder
  have hlt := h.size_lt
  have hleft : (nextBlock qdl).1.numwrites.toNat = qdl.numwrites.toNat - 1 := toNat_sub_one hne
  rw [imChunkSize_toNat] at hrest hsmall ⊢
  by_cases hlast : qdl.numwrites = 1
  · have hsize : blockSize qdl = qdl.remainder := if_pos hlast
    have hnone : (nextBlock qdl).1.numwrites = 0 := by
      apply UInt32.toNat_inj.mp
      rw [hleft, hlast]
      rfl
    have hend : start + qdl.remainder.toNat = size := by
      rw [hlast] at hrest
      exact hrest
    rw [hsize]
    exact ⟨hremainder, Nat.le_of_lt hsmall, Nat.le_of_eq hend, fun _ => hend,
      fun hsome => absurd hnone hsome, fun hsome => absurd hnone hsome, h.remainder, hlt⟩
  · have hsize : (blockSize qdl).toNat = 8192 := by
      rw [blockSize, if_neg hlast]
      rfl
    have hmore : qdl.numwrites.toNat ≠ 1 := fun h1 => hlast (UInt32.toNat_inj.mp h1)
    have hsome : (nextBlock qdl).1.numwrites ≠ 0 := by
      intro h0
      rw [h0] at hleft
      have hzero : 0 = qdl.numwrites.toNat - 1 := hleft
      omega
    have hadvance : (nextBlock qdl).1.nextchunkoffset.toNat = start + 8192 := by
      have hsum : (nextBlock qdl).1.nextchunkoffset.toNat =
          (qdl.nextchunkoffset.toNat + (blockSize qdl).toNat) % 2 ^ 32 := UInt32.toNat_add _ _
      rw [hsum, hoffset, hsize]
      exact Nat.mod_eq_of_lt (by omega)
    rw [hsize]
    refine ⟨by decide, Nat.le_refl _, by omega, fun h0 => absurd h0 hsome,
      fun _ => hadvance, fun _ => ?_, h.remainder, hlt⟩
    have hremains : (nextBlock qdl).1.remainder = qdl.remainder := rfl
    rw [hleft, hremains, imChunkSize_toNat]
    omega

/-- Nothing is written after the end of an image. -/
theorem outputs_over (task : ImTask) (rsps : List WriteRsp) :
    Machine.outputs task.step none rsps = [] :=
  (Machine.idle (fun _ => rfl) rsps).2

/-- From a state in order, every run writes blocks in order. -/
theorem Streaming.run (h : Streaming size qdl start) (hle : start ≤ size)
    (rsps : List WriteRsp) :
    Numbered qdl.sequenceNumber (blocks (Machine.outputs task.step (some qdl) rsps)) ∧
      ∃ stop, stop ≤ size ∧
        Tiles imChunkSize.toNat start
          ((blocks (Machine.outputs task.step (some qdl) rsps)).map ImBlock.span) stop ∧
        (.finished ∈ Machine.outputs task.step (some qdl) rsps → stop = size) := by
  induction rsps generalizing qdl start with
  | nil => exact ⟨trivial, start, hle, rfl, fun hmem => absurd hmem List.not_mem_nil⟩
  | cons rsp rsps ih =>
      rw [Machine.outputs_cons]
      have hrule : StepRule qdl (task.step (some qdl) rsp) := sendNextUfWrite_rule task qdl rsp
      generalize task.step (some qdl) rsp = result at hrule ⊢
      cases hrule with
      | waits => exact ih h hle
      | fails o ho =>
          rw [outputs_over, List.append_nil]
          rcases ho with rfl | rfl
          · exact ⟨trivial, start, hle, rfl, fun hmem => absurd hmem (by decide)⟩
          · exact ⟨trivial, start, hle, rfl, fun hmem => absurd hmem (by decide)⟩
      | finishes hdone =>
          rw [outputs_over, List.append_nil]
          exact ⟨trivial, start, hle, rfl, fun _ => h.done hdone⟩
      | writes hne =>
          obtain ⟨hpos, hmax, hin, hnext⟩ := h.next hne
          obtain ⟨hnumbered, stop, hstop, htiles, hfinished⟩ := ih hnext hin
          refine ⟨⟨rfl, hnumbered⟩, stop, hstop, ⟨h.offset hne, hpos, hmax, htiles⟩, ?_⟩
          intro hmem
          rcases List.mem_append.mp hmem with hmem | hmem
          · exact absurd (List.mem_singleton.mp hmem) (by simp)
          · exact hfinished hmem

/-- Accepted blocks finish the image. -/
theorem finished_of_accepted {rsps : List WriteRsp} (hrsps : Accepted rsps)
    (hlen : qdl.numwrites.toNat < rsps.length) :
    .finished ∈ Machine.outputs task.step (some qdl) rsps := by
  induction rsps generalizing qdl with
  | nil => exact absurd hlen (Nat.not_lt_zero _)
  | cons rsp rsps ih =>
      obtain ⟨hrsp, hrest⟩ := List.forall_mem_cons.mp hrsps
      have hstep : task.step (some qdl) rsp =
          if qdl.numwrites = 0 then (none, [.finished]) else (nextBlock qdl).map some id :=
        sendNextUfWrite_accepted task qdl hrsp
      rw [Machine.outputs_cons, hstep]
      by_cases hdone : qdl.numwrites = 0
      · rw [if_pos hdone]
        exact List.mem_append_left _ (List.mem_singleton_self _)
      · rw [if_neg hdone]
        apply List.mem_append_right
        apply ih hrest
        have hleft : (nextBlock qdl).1.numwrites.toNat = qdl.numwrites.toNat - 1 :=
          toNat_sub_one hdone
        have hpos := toNat_ne_zero hdone
        rw [List.length_cons] at hlen
        change (nextBlock qdl).1.numwrites.toNat < rsps.length
        rw [hleft]
        omega

end Step

section Upload

variable {task : ImTask} {qdl : Imqdl}

/-- What the response to the open request leads to: no block, or the first one. -/
inductive OpenRule (task : ImTask) (qdl : Imqdl) : Option Imqdl × List ImOutput → Prop where
  | none (outs : List ImOutput) (hblocks : blocks outs = []) (hfinished : .finished ∉ outs) :
      OpenRule task qdl (none, outs)
  | first :
      OpenRule task qdl
        ((firstBlock (splitImage qdl (task.imageSize qdl)) task.headerSize).map some id)

theorem sendUfWrite_rule (task : ImTask) (qdl : Imqdl) (open' : OpenRsp) :
    OpenRule task qdl (task.sendUfWrite qdl open') := by
  cases task with
  | sdk =>
      simp only [ImTask.sendUfWrite, imsendUFwrite]
      split_ifs
      · exact .none [] rfl List.not_mem_nil
      · exact .none [] rfl List.not_mem_nil
      · exact .first
  | gobi =>
      simp only [ImTask.sendUfWrite, imGobiSendUfWrite]
      split_ifs
      · exact .none [.skipped] rfl (by decide)
      · exact .none [.error] rfl (by decide)
      · exact .none [.abort] rfl (by decide)
      · exact .first

theorem sendUfWrite_ok (task : ImTask) (qdl : Imqdl) :
    task.sendUfWrite qdl ⟨ssdpOpenUnframedStatusOk, true⟩ =
      (firstBlock (splitImage qdl (task.imageSize qdl)) task.headerSize).map some id := by
  cases task <;> rfl

theorem splitImage_remainder (hchunk : qdl.chunkSize = imChunkSize) (size : UInt32) :
    (splitImage qdl size).remainder.toNat = size.toNat % 8192 := by
  have hmod : (splitImage qdl size).remainder = size % imChunkSize := by rw [← hchunk]; rfl
  rw [hmod, UInt32.toNat_mod, imChunkSize_toNat]

/-- The number of blocks of an image whose size is not a multiple of the chunk size. -/
theorem splitImage_numwrites (hchunk : qdl.chunkSize = imChunkSize) {size : UInt32}
    (hsize : size.toNat % 8192 ≠ 0) :
    (splitImage qdl size).numwrites.toNat = size.toNat / 8192 + 1 := by
  have hlt := size.toNat_lt
  have hne : size % qdl.chunkSize ≠ 0 := by
    intro h0
    apply hsize
    rw [← splitImage_remainder hchunk]
    exact congrArg UInt32.toNat h0
  have hnum : (splitImage qdl size).numwrites = size / imChunkSize + 1 := by
    rw [← hchunk]
    exact if_pos hne
  rw [hnum, UInt32.toNat_add, UInt32.toNat_div, imChunkSize_toNat]
  exact Nat.mod_eq_of_lt (by change size.toNat / 8192 + 1 < 2 ^ 32; omega)

theorem headerSize_lt (task : ImTask) : task.headerSize.toNat < 8192 := by
  cases task <;> decide

/-- After the first block of an image, everything is in order. -/
theorem streaming_firstBlock (hchunk : qdl.chunkSize = imChunkSize) {size : UInt32}
    (hsize : size.toNat % 8192 ≠ 0) (header : UInt32) :
    (blockSize (splitImage qdl size)).toNat ≤ size.toNat ∧
      (size.toNat ≤ (blockSize (splitImage qdl size)).toNat ∨
        (blockSize (splitImage qdl size)).toNat = 8192) ∧
      (blockSize (splitImage qdl size)).toNat ≤ 8192 ∧
      Streaming size.toNat (firstBlock (splitImage qdl size) header).1
        (blockSize (splitImage qdl size)).toNat := by
  have hlt := size.toNat_lt
  have hnum := splitImage_numwrites hchunk hsize
  have hrem := splitImage_remainder hchunk size
  set split := splitImage qdl size with hsplit
  have hne : split.numwrites ≠ 0 := by
    intro h0
    rw [h0] at hnum
    have hzero : 0 = size.toNat / 8192 + 1 := hnum
    omega
  have hleft : (firstBlock split header).1.numwrites.toNat = split.numwrites.toNat - 1 :=
    toNat_sub_one hne
  have hremains : (firstBlock split header).1.remainder = split.remainder := rfl
  have hmod : 0 < split.remainder.toNat ∧ split.remainder.toNat < imChunkSize.toNat := by
    rw [imChunkSize_toNat, hrem]
    omega
  by_cases hone : split.numwrites = 1
  · have hblock : blockSize split = split.remainder := if_pos hone
    have hsmall : size.toNat / 8192 = 0 := by
      rw [hone] at hnum
      have h1 : 1 = size.toNat / 8192 + 1 := hnum
      omega
    have hall : split.remainder.toNat = size.toNat := by omega
    have hnone : (firstBlock split header).1.numwrites = 0 := by
      apply UInt32.toNat_inj.mp
      rw [hleft, hone]
      rfl
    rw [hblock, hall]
    exact ⟨Nat.le_refl _, .inl (Nat.le_refl _), by omega, fun _ => rfl,
      fun hsome => absurd hnone hsome, fun hsome => absurd hnone hsome, hmod, hlt⟩
  · have hblock : (blockSize split).toNat = 8192 := by
      rw [blockSize, if_neg hone]
      rfl
    have hmany : split.numwrites.toNat ≠ 1 := fun h1 => hone (UInt32.toNat_inj.mp h1)
    have hsome : (firstBlock split header).1.numwrites ≠ 0 := by
      intro h0
      rw [h0] at hleft
      have hzero : 0 = split.numwrites.toNat - 1 := hleft
      omega
    refine ⟨by omega, .inr hblock, by omega, fun h0 => absurd h0 hsome, fun _ => rfl,
      fun _ => ?_, hmod, hlt⟩
    rw [hleft, hremains, hblock, imChunkSize_toNat]
    omega

/-- The writes of an image whose size is not a multiple of the chunk size. -/
theorem imageUploaded (hchunk : qdl.chunkSize = imChunkSize)
    (hheader : task.headerSize.toNat < (task.imageSize qdl).toNat)
    (hsize : (task.imageSize qdl).toNat % 8192 ≠ 0) : ImageUploaded task qdl := by
  obtain ⟨hle, hlong, hmax, hstreaming⟩ :=
    streaming_firstBlock hchunk hsize task.headerSize
  set size := task.imageSize qdl with hsizeDef
  set split := splitImage qdl size with hsplit
  have hhdr := headerSize_lt task
  have hlen : (blockSize split - task.headerSize).toNat =
      (blockSize split).toNat - task.headerSize.toNat :=
    UInt32.toNat_sub_of_le _ _ (UInt32.le_iff_toNat_le.mpr (by omega))
  constructor
  · intro open' rsps
    have hrule := sendUfWrite_rule task qdl open'
    unfold ImTask.upload
    generalize task.sendUfWrite qdl open' = result at hrule ⊢
    cases hrule with
    | none outs hblocks hfinished =>
        rw [outputs_over, List.append_nil]
        refine ⟨by rw [hblocks]; trivial, task.headerSize.toNat, Nat.le_of_lt hheader, ?_,
          fun hmem => absurd hmem hfinished⟩
        rw [hblocks]
        rfl
    | first =>
        obtain ⟨hnumbered, stop, hstop, htiles, hfinished⟩ := hstreaming.run hle rsps
        have hlow : task.headerSize.toNat + (blockSize split - task.headerSize).toNat =
            (blockSize split).toNat := by
          rw [hlen]
          omega
        refine ⟨⟨rfl, hnumbered⟩, stop, hstop, ⟨rfl, ?_, ?_, ?_⟩, ?_⟩
        · change 0 < (blockSize split - task.headerSize).toNat
          omega
        · change (blockSize split - task.headerSize).toNat ≤ 8192
          omega
        · change Tiles _ (task.headerSize.toNat + (blockSize split - task.headerSize).toNat) _ stop
          rw [hlow]
          exact htiles
        · intro hmem
          rcases List.mem_append.mp hmem with hmem | hmem
          · exact absurd (List.mem_singleton.mp hmem) (by simp)
          · exact hfinished hmem
  · intro rsps hrsps hcount
    rw [ImTask.upload, sendUfWrite_ok]
    apply List.mem_append_right
    refine finished_of_accepted hrsps ?_
    have hnum := splitImage_numwrites hchunk hsize
    have hne : split.numwrites ≠ 0 := by
      intro h0
      rw [← hsplit, h0] at hnum
      have hzero : 0 = size.toNat / 8192 + 1 := hnum
      omega
    have hleft : (firstBlock split task.headerSize).1.numwrites.toNat =
        split.numwrites.toNat - 1 := toNat_sub_one hne
    rw [← hsplit] at hnum
    change (firstBlock split task.headerSize).1.numwrites.toNat < rsps.length
    rw [hleft, hnum, Nat.add_sub_cancel]
    rwa [imChunkSize_toNat, ← hsizeDef] at hcount

/-- Without a remainder, the last block is empty. -/
theorem not_tiles_of_remainder {rsps : List WriteRsp} (hrsps : Accepted rsps)
    (hremainder : qdl.remainder = 0) (hne : qdl.numwrites ≠ 0)
    (hlen : rsps.length = qdl.numwrites.toNat) {start stop : ℕ} :
    ¬ Tiles imChunkSize.toNat start
      ((blocks (Machine.outputs task.step (some qdl) rsps)).map ImBlock.span) stop := by
  induction rsps generalizing qdl start with
  | nil => exact absurd hlen.symm (toNat_ne_zero hne)
  | cons rsp rsps ih =>
      obtain ⟨hrsp, hrest⟩ := List.forall_mem_cons.mp hrsps
      have hstep : task.step (some qdl) rsp = (nextBlock qdl).map some id :=
        (sendNextUfWrite_accepted task qdl hrsp).trans (if_neg hne)
      rw [Machine.outputs_cons, hstep]
      rintro ⟨-, hpos, -, htiles⟩
      by_cases hlast : qdl.numwrites = 1
      · have hempty : blockSize qdl = 0 := (if_pos hlast).trans hremainder
        change 0 < (blockSize qdl).toNat at hpos
        rw [hempty] at hpos
        exact Nat.lt_irrefl 0 hpos
      · have hleft : (nextBlock qdl).1.numwrites.toNat = qdl.numwrites.toNat - 1 :=
          toNat_sub_one hne
        have hmany : qdl.numwrites.toNat ≠ 1 := fun h1 => hlast (UInt32.toNat_inj.mp h1)
        have hpos' := toNat_ne_zero hne
        have hsome : (nextBlock qdl).1.numwrites ≠ 0 := by
          intro h0
          rw [h0] at hleft
          have hzero : 0 = qdl.numwrites.toNat - 1 := hleft
          omega
        rw [List.length_cons] at hlen
        have hremainder' : (nextBlock qdl).1.remainder = 0 := hremainder
        exact ih hrest hremainder' hsome (by rw [hleft]; omega) htiles

theorem not_imageUploaded (hchunk : qdl.chunkSize = imChunkSize)
    (hheader : task.headerSize.toNat < (task.imageSize qdl).toNat)
    (hsize : (task.imageSize qdl).toNat % 8192 = 0) : ¬ ImageUploaded task qdl := by
  intro hup
  set size := task.imageSize qdl with hsizeDef
  set split := splitImage qdl size with hsplit
  have hremainder : split.remainder = 0 :=
    UInt32.toNat_inj.mp ((splitImage_remainder hchunk size).trans hsize)
  have hnum : split.numwrites.toNat = size.toNat / 8192 := by
    have hzero : ¬ size % qdl.chunkSize ≠ 0 := not_not.mpr hremainder
    have hdiv : split.numwrites = size / imChunkSize := by
      rw [← hchunk]
      exact if_neg hzero
    rw [hdiv, UInt32.toNat_div, imChunkSize_toNat]
  set rsps := List.replicate (split.numwrites.toNat - 1)
    (⟨true, ssdpUnframedWriteDataReceivedOk, true⟩ : WriteRsp) with hrsps
  have haccepted : Accepted rsps := by
    intro rsp hmem
    obtain rfl := List.eq_of_mem_replicate hmem
    exact ⟨rfl, rfl, rfl⟩
  obtain ⟨-, stop, -, htiles, -⟩ := hup.1 ⟨ssdpOpenUnframedStatusOk, true⟩ rsps
  rw [ImTask.upload, sendUfWrite_ok] at htiles
  obtain ⟨-, hpos, hmax, hrest⟩ := htiles
  have hone : split.numwrites ≠ 0 := by
    intro h0
    rw [h0] at hnum
    have hzero : 0 = size.toNat / 8192 := hnum
    omega
  by_cases hlast : split.numwrites = 1
  · have hblock : blockSize split = 0 := (if_pos hlast).trans hremainder
    change 0 < (blockSize split - task.headerSize).toNat at hpos
    change (blockSize split - task.headerSize).toNat ≤ 8192 at hmax
    rw [hblock] at hpos hmax
    cases task with
    | sdk => exact absurd hmax (by decide)
    | gobi => exact absurd hpos (by decide)
  · have hleft : (firstBlock split task.headerSize).1.numwrites.toNat =
        split.numwrites.toNat - 1 := toNat_sub_one hone
    have hmany : split.numwrites.toNat ≠ 1 := fun h1 => hlast (UInt32.toNat_inj.mp h1)
    have hpos' := toNat_ne_zero hone
    have hsome : (firstBlock split task.headerSize).1.numwrites ≠ 0 := by
      intro h0
      rw [h0] at hleft
      have hzero : 0 = split.numwrites.toNat - 1 := hleft
      omega
    have hremainder' : (firstBlock split task.headerSize).1.remainder = 0 := hremainder
    exact not_tiles_of_remainder haccepted hremainder' hsome
      (by rw [hrsps, List.length_replicate, hleft]) hrest

end Upload

/-- An image is uploaded as it should be exactly if its size is not a multiple of the chunk
size. -/
theorem imageUploaded_iff {task : ImTask} {qdl : Imqdl} (hchunk : qdl.chunkSize = imChunkSize)
    (hheader : task.headerSize.toNat < (task.imageSize qdl).toNat) :
    ImageUploaded task qdl ↔ (task.imageSize qdl).toNat % imChunkSize.toNat ≠ 0 :=
  ⟨fun hup hsize => not_imageUploaded hchunk hheader hsize hup,
    fun hsize => imageUploaded hchunk hheader hsize⟩

/-- An image of a given size, at the start. -/
def imageOf (size : UInt32) : Imqdl where
  cweImageSize := size
  fwImageSize := size - ssdpOpenUnframedPktCweHeaderSz
  chunkSize := imChunkSize
  remainder := 0
  numwrites := 0
  nextchunkoffset := 0
  byteswritten := 0
  sequenceNumber := 0

theorem imageUploaded_iff_sdk :
    ImageUploaded .sdk (imageOf 10000) ↔ (10000 : UInt32).toNat % imChunkSize.toNat ≠ 0 :=
  imageUploaded_iff rfl (by decide)

/-- The last block of an image of two chunks is empty. -/
theorem not_imageUploaded_two_chunks :
    ImTask.sdk.upload (imageOf 16384) ⟨ssdpOpenUnframedStatusOk, true⟩
        (List.replicate 2 ⟨true, ssdpUnframedWriteDataReceivedOk, true⟩) =
      [.block ⟨0, 400, 7792⟩, .block ⟨1, 8192, 0⟩, .finished] ∧
      ¬ ImageUploaded .sdk (imageOf 16384) := by
  have hrun : ImTask.sdk.upload (imageOf 16384) ⟨ssdpOpenUnframedStatusOk, true⟩
      (List.replicate 2 ⟨true, ssdpUnframedWriteDataReceivedOk, true⟩) =
      [.block ⟨0, 400, 7792⟩, .block ⟨1, 8192, 0⟩, .finished] := by decide
  refine ⟨hrun, fun hup => ?_⟩
  obtain ⟨-, stop, -, htiles, -⟩ := hup.1 ⟨ssdpOpenUnframedStatusOk, true⟩
    (List.replicate 2 ⟨true, ssdpUnframedWriteDataReceivedOk, true⟩)
  rw [hrun] at htiles
  exact Nat.lt_irrefl 0 htiles.2.2.2.2.1

end Im

end SierraSdk
