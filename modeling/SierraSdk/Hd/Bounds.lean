import SierraSdk.Hd.Chunks
import SierraSdk.Hd.RoundTrip

/-!
# The bounds of the HDLC buffers

Neither side checks the room it has before it writes. `hdsend` writes the frame of any
payload of up to `hdMaxMessage` bytes to a send block of `2 * hdMaxMessage` bytes, which has
no room for the flags and the frame check sequence of the longest ones. `hdRxPacket` looks
at the length of the hold buffer after it has stored a byte, and leaves the start offset
out of account.

The writes stay within the buffers exactly if the frames of the requests fit their blocks,
and if no hold buffer is filled with more bytes than lie behind its offset
(`withinBuffers_iff`). `fills` says with how many bytes a stream fills the buffers, one
after the other, when they are as large as need be.
-/

namespace SierraSdk

namespace Hd

open Framing Mm

section Sending

/-- What `hdsend` writes to its send block; nothing if it aborts before. -/
def hdWritten (ctl : HdTxCtlBk) (req : HdReq) : List UInt8 :=
  if hdMaxMessage < req.hdpacketp.length ∨ ctl.hdtbufpool.mmbufget = none then []
  else
    let (state, hold) := hdsendLoop ctl.hdtxdllstate 0 req.fcsPacket []
    hold ++ [(hdtxdllstate state 0 true).2.1]

/-- What `hdsend` hands to the user is what it has written. -/
theorem eq_hdWritten_of_mem_hdsend {ctl : HdTxCtlBk} {req : HdReq} {sent : List UInt8}
    (h : sent ∈ (hdsend ctl req).2) : sent = hdWritten ctl req := by
  unfold hdsend at h
  unfold hdWritten
  by_cases hsize : hdMaxMessage < req.hdpacketp.length
  · rw [if_pos hsize] at h
    exact absurd h List.not_mem_nil
  · rw [if_neg hsize] at h
    cases hget : ctl.hdtbufpool.mmbufget with
    | none =>
        rw [hget] at h
        exact absurd h List.not_mem_nil
    | some taken =>
        obtain ⟨sendblk, pool⟩ := taken
        rw [if_neg (by simp [hsize])]
        rw [hget] at h
        dsimp only at h ⊢
        split at h
        · exact absurd h List.not_mem_nil
        · split at h
          · exact List.mem_singleton.mp h
          · exact List.mem_singleton.mp h

/-- The send block holds what a call writes to it. -/
def SendInBlock (ctl : Option HdTxCtlBk) (req : HdReq) : Prop :=
  ∀ c ∈ ctl, (hdWritten c req).length ≤ 2 * hdMaxMessage

/-- The requests that get past the check of their size: those before the first one that is
too long. -/
def accepted (reqs : List HdReq) : List HdReq :=
  reqs.takeWhile fun req => req.hdpacketp.length ≤ hdMaxMessage

theorem hdWritten_ready {k : ℕ} {req : HdReq} (hsize : req.hdpacketp.length ≤ hdMaxMessage) :
    hdWritten (ready k) req = frame dll req.fcsPacket := by
  have hget : ¬ (hdMaxMessage < req.hdpacketp.length ∨
      (ready k).hdtbufpool.mmbufget = none) := by
    rw [mmbufget_ready]
    simpa using hsize
  have hstate : (ready k).hdtxdllstate = .hdWaitTxPkt := rfl
  rw [hdWritten, if_neg hget, hstate, hdsendLoop_wait (fcsPacket_ne_nil req), List.nil_append]
  rfl

theorem sendInBlock_ready_iff {k : ℕ} {req : HdReq}
    (hsize : req.hdpacketp.length ≤ hdMaxMessage) :
    SendInBlock (some (ready k)) req ↔ req.Fits := by
  simp only [SendInBlock, Option.mem_some_iff, forall_eq', hdWritten_ready hsize, fits_iff]

/-- Every write of a row of calls stays in its block exactly if the frames of the accepted
requests fit. -/
theorem sendInBlock_run_iff (k : ℕ) (reqs : List HdReq) :
    Machine.Meets hdTxPacket SendInBlock (some (ready k)) reqs ↔
      ∀ req ∈ accepted reqs, req.Fits := by
  induction reqs generalizing k with
  | nil => simp [accepted]
  | cons req reqs ih =>
      rw [Machine.meets_cons]
      by_cases hsize : req.hdpacketp.length ≤ hdMaxMessage
      · have hacc : accepted (req :: reqs) = req :: accepted reqs :=
          List.takeWhile_cons_of_pos (by simpa using hsize)
        rw [sendInBlock_ready_iff hsize, hacc, List.forall_mem_cons]
        refine and_congr_right fun hfits => ?_
        rw [hdTxPacket_of_fits hsize hfits]
        exact ih (k + 1)
      · -- the daemon aborts: nothing is written, now or later
        have hacc : accepted (req :: reqs) = [] :=
          List.takeWhile_cons_of_neg (by simpa using hsize)
        have hgone : (hdTxPacket (some (ready k)) req).1 = none := by
          rw [hdTxPacket, hdsend, if_pos (Nat.lt_of_not_le hsize)]
        have hwritten : hdWritten (ready k) req = [] :=
          if_pos (.inl (Nat.lt_of_not_le hsize))
        have hfirst : SendInBlock (some (ready k)) req := by
          simp [SendInBlock, hwritten]
        have hrest : Machine.Meets hdTxPacket SendInBlock none reqs := by
          rw [Machine.meets_iff]
          intro pre req' post _
          rw [after_hdTxPacket_none]
          exact fun c hc => absurd hc (Option.not_mem_none c)
        rw [hgone, hacc]
        simp [hfirst, hrest]

end Sending

section Receiving

/-- What a received byte does to the buffer. -/
inductive Effect where
  | moves (state : HdRxDllState)
  | stores
  | closes

/-- The effect of a byte in each state. An illegal escape leaves what the buffer has. -/
def effect : HdRxDllState → UInt8 → Effect
  | .waitForSync, b => if b = dllFlag then .moves .syncedNoData else .moves .waitForSync
  | .syncedNoData, b =>
      if b = dllFlag then .moves .syncedNoData
      else if b = dllCtrlEsc then .moves .escaped
      else .stores
  | .collectData, b =>
      if b = dllFlag then .closes
      else if b = dllCtrlEsc then .moves .escaped
      else .stores
  | .escaped, b => if b = dllFlag ∨ b = dllCtrlEsc then .moves .waitForSync else .stores

/-- With how many bytes a stream fills the buffers, one after the other, if they are as large
as need be; `n` bytes are in the first one. -/
def fills : HdRxDllState → ℕ → List UInt8 → List ℕ
  | _, n, [] => [n]
  | state, n, b :: bs =>
      match effect state b with
      | .moves state' => fills state' n bs
      | .stores => fills .collectData (n + 1) bs
      | .closes => n :: fills .waitForSync 0 bs

/-- The buffer holds the byte just stored, behind its start offset. -/
def HoldsInBuffer (outoffset : ℕ) (ctl : HdRxCtlBk) (b : UInt8) : Prop :=
  (stored ctl b).hdrHoldBuffer.length ≤ hdMaxMessage - outoffset

/-- Every byte stored in one call stays in its buffer. -/
def ReceivesInBuffer (outoffset : ℕ) (ctl : HdRxCtlBk) (data : List UInt8) : Prop :=
  Machine.Meets hdRxByte (fun s b => HoldsInBuffer outoffset s.1 b) (ctl, false) data

/-- What is in a buffer stays there. -/
theorem exists_le_mem_fills (state : HdRxDllState) (n : ℕ) (bs : List UInt8) :
    ∃ k ∈ fills state n bs, n ≤ k := by
  induction bs generalizing state n with
  | nil => exact ⟨n, List.mem_singleton_self n, le_rfl⟩
  | cons b bs ih =>
      rw [fills]
      cases effect state b with
      | moves state' => exact ih state' n
      | stores =>
          obtain ⟨k, hk, hle⟩ := ih .collectData (n + 1)
          exact ⟨k, hk, Nat.le_of_succ_le hle⟩
      | closes => exact ⟨n, List.mem_cons_self, le_rfl⟩

/-- The state machine has the effect of the byte. -/
theorem hdrxdllstate_effect (ctl : HdRxCtlBk) (b : UInt8) :
    match effect ctl.hdrdllstate b with
    | .moves state' =>
        (hdrxdllstate ctl b).1.hdrdllstate = state' ∧
          (hdrxdllstate ctl b).1.hdrdatavalid = false ∧
          (hdrxdllstate ctl b).1.hdrendframe = false
    | .stores =>
        (hdrxdllstate ctl b).1.hdrdllstate = .collectData ∧
          (hdrxdllstate ctl b).1.hdrdatavalid = true ∧
          (hdrxdllstate ctl b).1.hdrendframe = false
    | .closes =>
        (hdrxdllstate ctl b).1.hdrdatavalid = false ∧
          (hdrxdllstate ctl b).1.hdrendframe = true := by
  cases hstate : ctl.hdrdllstate with
  | waitForSync => simp only [hdrxdllstate, hstate, effect]; split_ifs <;> simp
  | syncedNoData => simp only [hdrxdllstate, hstate, effect]; split_ifs <;> simp
  | collectData => simp only [hdrxdllstate, hstate, effect]; split_ifs <;> simp
  | escaped => simp only [hdrxdllstate, hstate, effect]; split_ifs <;> simp

/-- The end of a frame or of the room empties the buffer. -/
theorem rxStep_fst (ctl : HdRxCtlBk) (b : UInt8) :
    (rxStep ctl b).1 =
      if (stored ctl b).hdrendframe = true ∨ Overlong (stored ctl b) then hdrxreset
      else stored ctl b := by
  by_cases hend : (stored ctl b).hdrendframe = true ∨ Overlong (stored ctl b)
  · rw [if_pos hend]
    unfold stored at hend
    simp only [rxStep, hdRxByte]
    rw [if_pos hend]
    split_ifs <;> rfl
  · rw [if_neg hend]
    unfold stored at hend
    simp only [rxStep, hdRxByte]
    rw [if_neg hend]
    rfl

section Step

variable {ctl : HdRxCtlBk} {b : UInt8} {state' : HdRxDllState}

theorem stored_moves (h : effect ctl.hdrdllstate b = .moves state') :
    (stored ctl b).hdrHoldBuffer = ctl.hdrHoldBuffer ∧ (rxStep ctl b).1.hdrdllstate = state' ∧
      (rxStep ctl b).1.hdrHoldBuffer = ctl.hdrHoldBuffer := by
  have hcall := hdrxdllstate_effect ctl b
  rw [h] at hcall
  obtain ⟨hstate, hvalid, hend⟩ := hcall
  have hstored : stored ctl b = (hdrxdllstate ctl b).1 := if_neg (by simp [hvalid])
  have hnext : (rxStep ctl b).1 = stored ctl b := by
    rw [rxStep_fst, if_neg (by simp [hstored, hend, Overlong, hvalid])]
  rw [hnext, hstored]
  exact ⟨(hdrxdllstate_counts ctl b).1, hstate, (hdrxdllstate_counts ctl b).1⟩

theorem stored_stores (h : effect ctl.hdrdllstate b = .stores) :
    (stored ctl b).hdrHoldBuffer.length = ctl.hdrHoldBuffer.length + 1 ∧
      (ctl.hdrHoldBuffer.length < hdMaxMessage →
        (rxStep ctl b).1.hdrdllstate = .collectData ∧
          (rxStep ctl b).1.hdrHoldBuffer.length = ctl.hdrHoldBuffer.length + 1) := by
  have hcall := hdrxdllstate_effect ctl b
  rw [h] at hcall
  obtain ⟨hstate, hvalid, hend⟩ := hcall
  have hstored : stored ctl b =
      { (hdrxdllstate ctl b).1 with
          hdrHoldBuffer := (hdrxdllstate ctl b).1.hdrHoldBuffer ++ [(hdrxdllstate ctl b).2] } :=
    if_pos hvalid
  have hlen : (stored ctl b).hdrHoldBuffer.length = ctl.hdrHoldBuffer.length + 1 := by
    rw [hstored, List.length_append, (hdrxdllstate_counts ctl b).1, List.length_singleton]
  refine ⟨hlen, fun hroom => ?_⟩
  have hnext : (rxStep ctl b).1 = stored ctl b := by
    have hend' : (stored ctl b).hdrendframe = false := by rw [hstored, hend]
    have hover : ¬ Overlong (stored ctl b) := by
      rw [Overlong, hlen]
      exact fun hover => absurd hover.2 (Nat.not_lt.mpr hroom)
    rw [rxStep_fst, if_neg (by simp [hend', hover])]
  rw [hnext]
  refine ⟨?_, hlen⟩
  rw [hstored, hstate]

theorem stored_closes (h : effect ctl.hdrdllstate b = .closes) :
    (stored ctl b).hdrHoldBuffer = ctl.hdrHoldBuffer ∧ (rxStep ctl b).1 = hdrxreset := by
  have hcall := hdrxdllstate_effect ctl b
  rw [h] at hcall
  obtain ⟨hvalid, hend⟩ := hcall
  have hstored : stored ctl b = (hdrxdllstate ctl b).1 := if_neg (by simp [hvalid])
  rw [rxStep_fst, if_pos (by simp [hstored, hend]), hstored]
  exact ⟨(hdrxdllstate_counts ctl b).1, rfl⟩

end Step

/-- The bytes stored stay in the buffers exactly if these are not filled any further. -/
theorem holdsInBuffer_run_iff (outoffset : ℕ) (ctl : HdRxCtlBk) (bs : List UInt8)
    (hroom : ctl.hdrHoldBuffer.length ≤ hdMaxMessage - outoffset) :
    Machine.Meets rxStep (HoldsInBuffer outoffset) ctl bs ↔
      ∀ k ∈ fills ctl.hdrdllstate ctl.hdrHoldBuffer.length bs, k ≤ hdMaxMessage - outoffset := by
  induction bs generalizing ctl with
  | nil => simpa [fills] using hroom
  | cons b bs ih =>
      rw [Machine.meets_cons, fills, HoldsInBuffer]
      cases heffect : effect ctl.hdrdllstate b with
      | moves state' =>
          obtain ⟨hstored, hstate, hhold⟩ := stored_moves heffect
          have hnext := ih (rxStep ctl b).1 (by rw [hhold]; exact hroom)
          rw [hstate, hhold] at hnext
          rw [hstored, hnext]
          exact and_iff_right hroom
      | stores =>
          obtain ⟨hstored, hrest⟩ := stored_stores heffect
          rw [hstored]
          by_cases hmore : ctl.hdrHoldBuffer.length + 1 ≤ hdMaxMessage - outoffset
          · obtain ⟨hstate, hhold⟩ := hrest (Nat.le_trans hmore (Nat.sub_le _ _))
            have hnext := ih (rxStep ctl b).1 (by rw [hhold]; exact hmore)
            rw [hstate, hhold] at hnext
            rw [hnext]
            exact and_iff_right hmore
          · obtain ⟨k, hk, hle⟩ :=
              exists_le_mem_fills .collectData (ctl.hdrHoldBuffer.length + 1) bs
            exact iff_of_false (fun h => hmore h.1) (fun h => hmore (Nat.le_trans hle (h k hk)))
      | closes =>
          obtain ⟨hstored, hnext⟩ := stored_closes heffect
          have hfresh : hdrxreset.hdrHoldBuffer.length ≤ hdMaxMessage - outoffset :=
            Nat.zero_le _
          rw [hstored, hnext, List.forall_mem_cons]
          exact and_congr_right fun _ => ih hdrxreset hfresh

/-- One call stores its bytes as the receiver does byte by byte. -/
theorem receivesInBuffer_iff (outoffset : ℕ) (ctl : HdRxCtlBk) (errorflg : Bool)
    (data : List UInt8) :
    Machine.Meets hdRxByte (fun s b => HoldsInBuffer outoffset s.1 b) (ctl, errorflg) data ↔
      Machine.Meets rxStep (HoldsInBuffer outoffset) ctl data := by
  induction data generalizing ctl errorflg with
  | nil => exact Iff.rfl
  | cons b data ih =>
      rw [Machine.meets_cons, Machine.meets_cons, rxStep_eq ctl errorflg b]
      exact and_congr_right fun _ => ih _ _

theorem receivesInBuffer_run_iff (outoffset : ℕ) (ctl : HdRxCtlBk)
    (chunks : List (List UInt8)) :
    Machine.Meets hdRxPacket (ReceivesInBuffer outoffset) ctl chunks ↔
      Machine.Meets rxStep (HoldsInBuffer outoffset) ctl chunks.flatten := by
  induction chunks generalizing ctl with
  | nil => exact Iff.rfl
  | cons data chunks ih =>
      have hctl : (hdRxPacket ctl data).1 = Machine.after rxStep ctl data :=
        (hdRxByte_run ctl false data).1
      rw [Machine.meets_cons, List.flatten_cons, Machine.meets_append, ReceivesInBuffer,
        receivesInBuffer_iff, ih, hctl]

end Receiving

/-- Every byte of the requests sent and of the chunks received is written within its
buffer. -/
structure WithinBuffers (reqs : List HdReq) (outoffset : ℕ) (chunks : List (List UInt8)) :
    Prop where
  sends : Machine.Meets hdTxPacket SendInBlock (some hdTxInit) reqs
  receives : Machine.Meets hdRxPacket (ReceivesInBuffer outoffset) hdrxreset chunks

/-- The buffers hold what is written to them exactly if every accepted request has a frame
that fits, and the stream fills no receive buffer beyond its end. -/
theorem withinBuffers_iff (reqs : List HdReq) (outoffset : ℕ) (chunks : List (List UInt8)) :
    WithinBuffers reqs outoffset chunks ↔
      (∀ req ∈ accepted reqs, req.Fits) ∧
        ∀ k ∈ fills .waitForSync 0 chunks.flatten, k ≤ hdMaxMessage - outoffset := by
  have hsends := sendInBlock_run_iff 0 reqs
  rw [ready_zero] at hsends
  have hreceives := holdsInBuffer_run_iff outoffset hdrxreset chunks.flatten (Nat.zero_le _)
  constructor
  · intro h
    exact ⟨hsends.mp h.sends,
      hreceives.mp ((receivesInBuffer_run_iff outoffset _ chunks).mp h.receives)⟩
  · rintro ⟨hfits, hfills⟩
    exact ⟨hsends.mpr hfits,
      (receivesInBuffer_run_iff outoffset _ chunks).mpr (hreceives.mpr hfills)⟩

/-- The longest payload whose bytes are all flags. -/
def longFlags : HdReq where
  hdpacketp := List.replicate hdMaxMessage dllFlag
  hdfcs := 0x7e7e

/-- Neither bound holds: the frame of `longFlags` has 2054 bytes, and a stream with one data
byte more than a receive buffer has is stored to the last byte. -/
theorem not_withinBuffers :
    ¬ Machine.Meets hdTxPacket SendInBlock (some hdTxInit) [longFlags] ∧
      ¬ Machine.Meets hdRxPacket (ReceivesInBuffer 0) hdrxreset
        [dllFlag :: List.replicate (hdMaxMessage + 1) 0] := by
  constructor
  · rw [← ready_zero, sendInBlock_run_iff]
    intro hfits
    have hacc : accepted [longFlags] = longFlags :: accepted [] :=
      List.takeWhile_cons_of_pos (by simp [longFlags])
    rw [hacc] at hfits
    have hlen : ¬ longFlags.fcsPacket.length +
        longFlags.fcsPacket.countP (fun b => dll.Special b) + 2 ≤ 2 * hdMaxMessage := by
      decide +kernel
    exact hlen (hfits longFlags List.mem_cons_self)
  · rw [receivesInBuffer_run_iff, holdsInBuffer_run_iff 0 _ _ (Nat.zero_le _)]
    decide +kernel

end Hd

end SierraSdk
