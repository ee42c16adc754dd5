import SierraSdk.Hd.Rx

/-!
# Round trip between transmitter and receiver

Packets that are framed one after the other, and received in chunks cut anywhere, arrive
in order with their frame check sequences, provided that the transmitter gets through them
(`received_frames`).

It need not: a send block has room for `2 * hdMaxMessage` bytes, which is the longest
stuffed message without its two flags. A longer frame overwrites the signature of the next
block of the pool, and the release of that block, after the next packet, aborts. The
transmitter therefore takes a list of packets exactly when every frame but the last fits its
block, and the last one fits or has another block behind it (`transmits_iff`).
-/

namespace SierraSdk

namespace Hd

open Framing Mm

section Receiving

theorem hdrxdllstate_count {ctl : HdRxCtlBk} {b : UInt8}
    (hvalid : (hdrxdllstate ctl b).1.hdrdatavalid = true) :
    (hdrxdllstate ctl b).1.hdrdatacount = ctl.hdrdatacount + 1 := by
  revert hvalid
  cases hstate : ctl.hdrdllstate <;> simp only [hdrxdllstate, hstate] <;> split_ifs <;> simp

/-- A byte at which the buffer outgrows its limit hands over a packet beyond the limit. -/
theorem overlong_output {ctl : HdRxCtlBk} {d : Deframer UInt8} (h : Refines ctl d) {b : UInt8}
    (herr : (hdRxByte (ctl, false) b).1.2 = true) :
    ∃ pkt ∈ (rxStep ctl b).2, hdMaxMessage < pkt.length := by
  have hctl := h.count
  generalize hcall : hdrxdllstate ctl b = r at *
  have hover : Overlong (holdByte r.1 r.2) := by
    simp only [hdRxByte, hcall, Bool.false_or] at herr
    split_ifs at herr <;> exact of_decide_eq_true herr
  have hcount : (holdByte r.1 r.2).hdrdatacount ≠ 0 := by
    have hvalid : r.1.hdrdatavalid = true := by
      by_contra hvalid
      simp [Overlong, holdByte, hvalid] at hover
    have hsucc := toNat_succ_of_le hctl.1 hctl.2
    have hone : r.1.hdrdatacount = ctl.hdrdatacount + 1 := by
      rw [← hcall] at hvalid ⊢
      exact hdrxdllstate_count hvalid
    intro h0
    rw [holdByte, if_pos hvalid] at h0
    rw [← hone, show r.1.hdrdatacount = 0 from h0] at hsucc
    exact absurd hsucc (Nat.succ_ne_zero _).symm
  refine ⟨(holdByte r.1 r.2).hdrHoldBuffer, ?_, hover.2⟩
  simp [rxStep, hdRxByte, hcall, hover, hcount]

/-- While no packet exceeds the limit the error flag stays clear. -/
theorem hdRxByte_clear {ctl : HdRxCtlBk} {d : Deframer UInt8} (h : Refines ctl d) {b : UInt8}
    (hlen : ∀ pkt ∈ (rxStep ctl b).2, pkt.length ≤ hdMaxMessage) :
    hdRxByte (ctl, false) b =
      (((rxStep ctl b).1, false), (rxStep ctl b).2.map fun pkt => (pkt, false)) := by
  have hflag : (hdRxByte (ctl, false) b).1.2 = false := by
    by_contra hset
    rw [Bool.not_eq_false] at hset
    obtain ⟨pkt, hpkt, hlong⟩ := overlong_output h hset
    exact absurd (hlen pkt hpkt) (Nat.not_le.mpr hlong)
  revert hflag
  simp only [rxStep, hdRxByte]
  split_ifs <;> simp

/-- The steps that do not set the error flag and keep to legal escapes. -/
def Clean (ctl : HdRxCtlBk) (b : UInt8) : Prop :=
  EscapeLegal ctl b ∧ ∀ pkt ∈ (rxStep ctl b).2, pkt.length ≤ hdMaxMessage

theorem hdRxByte_run_clear {ctl : HdRxCtlBk} {d : Deframer UInt8} (h : Refines ctl d)
    {data : List UInt8} (hclean : Machine.Meets rxStep Clean ctl data) :
    Machine.outputs hdRxByte (ctl, false) data =
      (Machine.outputs rxStep ctl data).map fun pkt => (pkt, false) := by
  induction data generalizing ctl d with
  | nil => rfl
  | cons b data ih =>
      obtain ⟨hb, hdata⟩ := hclean
      have hnext := (rxStep_refines h hb.1).1
      rw [Machine.outputs_cons, Machine.outputs_cons, hdRxByte_clear h hb.2, List.map_append,
        ih hnext hdata]

/-- Clean bytes are received with the error flag clear, whatever the cuts. -/
theorem hdRxPacket_run_clear {ctl : HdRxCtlBk} {d : Deframer UInt8} (h : Refines ctl d)
    {chunks : List (List UInt8)}
    (hclean : Machine.Meets rxStep Clean ctl chunks.flatten) :
    Machine.outputs hdRxPacket ctl chunks =
      (Machine.outputs rxStep ctl chunks.flatten).map fun pkt => (pkt, false) := by
  induction chunks generalizing ctl d with
  | nil => rfl
  | cons data chunks ih =>
      rw [List.flatten_cons, Machine.meets_append] at hclean
      obtain ⟨hdata, hchunks⟩ := hclean
      have hctl : (hdRxPacket ctl data).1 = Machine.after rxStep ctl data :=
        (hdRxByte_run ctl false data).1
      have hnext : Refines (Machine.after rxStep ctl data)
          (Machine.after (feed dll hdMaxMessage) d data) :=
        (rxStep_run_refines h (hdata.mono fun _ _ hb => hb.1)).1
      rw [Machine.outputs_cons, hctl, ih hnext hchunks, List.flatten_cons,
        Machine.outputs_append, List.map_append]
      exact congrArg (· ++ _) (hdRxByte_run_clear h hdata)

/-- A legal symbol for the deframer is a legal byte for the receiver. -/
theorem escapeLegal_of_legal {ctl : HdRxCtlBk} {d : Deframer UInt8} (h : Refines ctl d)
    {b : UInt8} (hlegal : Legal dll d b) : EscapeLegal ctl b := by
  cases d with
  | hunting =>
      obtain ⟨hstate, -, -⟩ := h
      intro hesc
      simp [hstate] at hesc
  | collecting p =>
      obtain ⟨hstate, -, -, -⟩ := h
      intro hesc _
      apply hlegal
      by_contra hp
      rw [hesc, stateOf, if_neg hp] at hstate
      split_ifs at hstate

/-- The frames of packets that are not too long arrive as those packets, with the error flag
clear, whatever the cuts. -/
theorem received_frames {pkts : List (List UInt8)}
    (h : ∀ bs ∈ pkts, bs ≠ [] ∧ bs.length ≤ hdMaxMessage) {chunks : List (List UInt8)}
    (hchunks : chunks.flatten = pkts.flatMap (frame dll)) :
    Machine.outputs hdRxPacket hdrxreset chunks = pkts.map fun bs => (bs, false) := by
  obtain ⟨-, hout, hlegal⟩ := deframe_frames h
  have hescapes : Machine.Meets rxStep EscapeLegal hdrxreset (pkts.flatMap (frame dll)) := by
    have hstep : ∀ d ctl b, Refines ctl d → Legal dll d b →
        Refines (rxStep ctl b).1 (feed dll hdMaxMessage d b).1 := by
      intro d ctl b hR hb
      exact (rxStep_refines hR (escapeLegal_of_legal hR hb)).1
    have hG : ∀ d ctl b, Refines ctl d → Legal dll d b → EscapeLegal ctl b := by
      intro d ctl b hR hb
      exact escapeLegal_of_legal hR hb
    exact Machine.meets_of_simulation hstep hG refines_hdrxreset hlegal
  have hrx : Machine.outputs rxStep hdrxreset (pkts.flatMap (frame dll)) = pkts := by
    rw [(rxStep_run_refines refines_hdrxreset hescapes).2, hout]
  have hlens : ∀ pkt ∈ Machine.outputs rxStep hdrxreset (pkts.flatMap (frame dll)),
      pkt.length ≤ hdMaxMessage := by
    rw [hrx]
    exact fun pkt hpkt => (h pkt hpkt).2
  have hclean : Machine.Meets rxStep Clean hdrxreset chunks.flatten := by
    rw [hchunks]
    exact hescapes.and (Machine.meets_of_outputs hlens)
  rw [hdRxPacket_run_clear refines_hdrxreset hclean, hchunks, hrx]

end Receiving

section Sending

/-- The frame of a request fits in one send block: two flags, the bytes, and one more for
each byte that is escaped. -/
def HdReq.Fits (req : HdReq) : Prop :=
  req.fcsPacket.length + req.fcsPacket.countP (fun b => dll.Special b) + 2 ≤ 2 * hdMaxMessage

theorem fits_iff (req : HdReq) :
    req.Fits ↔ (frame dll req.fcsPacket).length ≤ 2 * hdMaxMessage := by
  rw [length_frame]
  rfl

/-- The transmitter between two packets, after `k` packets whose frames fitted: the blocks of
the pool take turns. -/
def ready (k : ℕ) : HdTxCtlBk where
  hdtxdllstate := .hdWaitTxPkt
  hdtbufpool :=
    { mmblocksize := 2 * hdMaxMessage
      mmsignatures := List.replicate hdDataBufCnt mmsignature
      mmfree := [k % 4, (k + 1) % 4, (k + 2) % 4, (k + 3) % 4] }

theorem ready_zero : ready 0 = hdTxInit := rfl

/-- The pool of `ready k` with its first block taken. -/
def takenPool (k : ℕ) : MmPool :=
  { (ready k).hdtbufpool with mmfree := [(k + 1) % 4, (k + 2) % 4, (k + 3) % 4] }

theorem mmbufget_ready (k : ℕ) :
    (ready k).hdtbufpool.mmbufget = some (k % 4, takenPool k) := rfl

theorem mmbufrel_takenPool (k : ℕ) :
    (takenPool k).mmbufrel (k % 4) = some (ready (k + 1)).hdtbufpool := by
  have hlt : k % 4 < 4 := Nat.mod_lt k (by decide)
  have hsig : (takenPool k).mmsignatures[k % 4]? = some mmsignature :=
    List.getElem?_replicate_of_lt hlt
  have hturn : k + 1 + 3 = k + 4 := rfl
  rw [MmPool.mmbufrel, if_pos hsig]
  simp [takenPool, ready, hturn]

/-- The transmitter does not get past a packet for which it takes a block without a
signature. -/
theorem hdTxPacket_corrupted {ctl : HdTxCtlBk} {sendblk : ℕ} {pool : MmPool}
    (hstate : ctl.hdtxdllstate = .hdWaitTxPkt)
    (hget : ctl.hdtbufpool.mmbufget = some (sendblk, pool))
    (hbad : pool.mmsignatures[sendblk]? ≠ some mmsignature) (req : HdReq) :
    (hdTxPacket (some ctl) req).1 = none := by
  by_cases hsize : hdMaxMessage < req.hdpacketp.length
  · simp [hdTxPacket, hdsend, hsize]
  · rw [hdTxPacket, hdsend_eq hstate (Nat.not_lt.mp hsize) hget]
    cases hover : pool.overrun sendblk (frame dll req.fcsPacket) with
    | none => rfl
    | some pool' =>
        rw [← MmPool.overrun_signature hover] at hbad
        simp [MmPool.mmbufrel, hbad]

/-- A frame that fits is sent, and the next block is up. -/
theorem hdTxPacket_of_fits {k : ℕ} {req : HdReq}
    (hsize : req.hdpacketp.length ≤ hdMaxMessage) (hfits : req.Fits) :
    hdTxPacket (some (ready k)) req = (some (ready (k + 1)), [frame dll req.fcsPacket]) := by
  have hover : (takenPool k).overrun (k % 4) (frame dll req.fcsPacket) = some (takenPool k) :=
    if_pos ((fits_iff req).mp hfits)
  rw [hdTxPacket, hdsend_eq rfl hsize (mmbufget_ready k), hover]
  simp only [mmbufrel_takenPool]
  rfl

section Step

variable {k : ℕ} {req : HdReq} (hsize : req.hdpacketp.length + 2 ≤ hdMaxMessage)

include hsize

/-- A frame that does not fit the last block of the pool leaves the pool's memory. -/
theorem hdTxPacket_last_block (hfits : ¬ req.Fits) (hlast : k % 4 = 3) :
    hdTxPacket (some (ready k)) req = (none, []) := by
  rw [fits_iff] at hfits
  have hover : (takenPool k).overrun (k % 4) (frame dll req.fcsPacket) = none := by
    have hlong : ¬ (frame dll req.fcsPacket).length ≤ (takenPool k).mmblocksize := hfits
    rw [MmPool.overrun, if_neg hlong, hlast]
    rfl
  rw [hdTxPacket, hdsend_eq rfl (by omega) (mmbufget_ready k), hover]

/-- The bytes of a frame that do not fit its block destroy a signature they are written
over: the closing flag is among them. -/
theorem overwritten_excess_ne (hfits : ¬ req.Fits) :
    overwritten ((frame dll req.fcsPacket).drop (2 * hdMaxMessage)) mmsignature ≠
      mmsignature := by
  rw [fits_iff] at hfits
  have hlen := length_frame_le dll req.fcsPacket
  rw [length_fcsPacket] at hlen
  have hflag : dllFlag ∈ (frame dll req.fcsPacket).drop (2 * hdMaxMessage) := by
    rw [frame, List.length_append, List.length_singleton] at hfits
    rw [frame, List.drop_append_of_le_length (by omega)]
    exact List.mem_append_right _ List.mem_cons_self
  apply overwritten_ne hflag
  · have hsig : mmsignature.length = 4 := rfl
    rw [List.length_drop]
    omega
  · decide

/-- A frame that does not fit its block is sent, but the release of the next block, after
the next packet, finds no signature. -/
theorem hdTxPacket_overrun (hfits : ¬ req.Fits) (hlast : k % 4 ≠ 3) :
    ∃ ctl, hdTxPacket (some (ready k)) req = (some ctl, [frame dll req.fcsPacket]) ∧
      ∀ req', (hdTxPacket (some ctl) req').1 = none := by
  have hne := overwritten_excess_ne hsize hfits
  rw [fits_iff] at hfits
  have hlt : k % 4 < 4 := Nat.mod_lt k (by decide)
  have hnext : (k + 1) % 4 = k % 4 + 1 := by omega
  generalize hsigs : (takenPool k).mmsignatures.modify (k % 4 + 1)
    (overwritten ((frame dll req.fcsPacket).drop (2 * hdMaxMessage))) = sigs
  have hover : (takenPool k).overrun (k % 4) (frame dll req.fcsPacket) =
      some { takenPool k with mmsignatures := sigs } := by
    have hlong : ¬ (frame dll req.fcsPacket).length ≤ (takenPool k).mmblocksize := hfits
    have hblk : k % 4 + 1 < (takenPool k).mmsignatures.length := by
      change k % 4 + 1 < 4
      omega
    rw [MmPool.overrun, if_neg hlong, if_pos hblk, ← hsigs]
    rfl
  have hown : sigs[k % 4]? = some mmsignature := by
    rw [← hsigs, List.getElem?_modify_ne _ _ (Nat.succ_ne_self _)]
    exact List.getElem?_replicate_of_lt hlt
  have hbad : sigs[k % 4 + 1]? ≠ some mmsignature := by
    have hsig : (takenPool k).mmsignatures[k % 4 + 1]? = some mmsignature :=
      List.getElem?_replicate_of_lt (by change k % 4 + 1 < 4; omega)
    rw [← hsigs, List.getElem?_modify_eq, hsig]
    exact fun h => hne (Option.some.inj h)
  refine ⟨⟨.hdWaitTxPkt, { takenPool k with
      mmsignatures := sigs
      mmfree := (takenPool k).mmfree ++ [k % 4] }⟩, ?_, ?_⟩
  · rw [hdTxPacket, hdsend_eq rfl (by omega) (mmbufget_ready k), hover]
    simp only [MmPool.mmbufrel, hown, if_true]
    rfl
  · intro req'
    apply hdTxPacket_corrupted rfl rfl
    rw [hnext]
    exact hbad

end Step

/-- From the `k`-th packet on, the send blocks hold what is written to them: every frame
fits, except that the last one may be longer if another block of the pool lies behind its
own. -/
def BlocksHold (k : ℕ) (reqs : List HdReq) : Prop :=
  ∀ pre req post, reqs = pre ++ req :: post →
    req.Fits ∨ post = [] ∧ (k + pre.length) % 4 ≠ 3

theorem blocksHold_cons_of_fits {k : ℕ} {req : HdReq} {reqs : List HdReq} (hfits : req.Fits) :
    BlocksHold k (req :: reqs) ↔ BlocksHold (k + 1) reqs := by
  constructor
  · intro h pre req' post hsplit
    have hturn : k + 1 + pre.length = k + (req :: pre).length := by
      rw [List.length_cons]
      omega
    rw [hturn]
    exact h (req :: pre) req' post (by rw [hsplit]; rfl)
  · intro h pre req' post hsplit
    cases pre with
    | nil =>
        obtain ⟨rfl, rfl⟩ := List.cons.inj hsplit
        exact .inl hfits
    | cons first pre =>
        obtain ⟨rfl, rfl⟩ := List.cons.inj hsplit
        have hturn : k + (req :: pre).length = k + 1 + pre.length := by
          rw [List.length_cons]
          omega
        rw [hturn]
        exact h pre req' post rfl

theorem blocksHold_cons_of_not_fits {k : ℕ} {req : HdReq} {reqs : List HdReq}
    (hfits : ¬ req.Fits) :
    BlocksHold k (req :: reqs) ↔ reqs = [] ∧ k % 4 ≠ 3 := by
  constructor
  · intro h
    exact (h [] req reqs rfl).resolve_left hfits
  · rintro ⟨rfl, hlast⟩ pre req' post hsplit
    cases pre with
    | nil =>
        obtain ⟨rfl, rfl⟩ := List.cons.inj hsplit
        exact .inr ⟨rfl, hlast⟩
    | cons first pre => simp at hsplit

theorem after_hdTxPacket_none (reqs : List HdReq) :
    Machine.after hdTxPacket none reqs = none :=
  (Machine.idle (fun _ => rfl) reqs).1

/-- The transmitter gets through a list of packets exactly when the send blocks hold their
frames, and then it sends those frames. -/
theorem transmits_iff {k : ℕ} {reqs : List HdReq}
    (hsize : ∀ req ∈ reqs, req.hdpacketp.length + 2 ≤ hdMaxMessage) :
    (Machine.after hdTxPacket (some (ready k)) reqs).isSome ↔ BlocksHold k reqs := by
  induction reqs generalizing k with
  | nil => simp [BlocksHold]
  | cons req reqs ih =>
      have hreq := hsize req List.mem_cons_self
      have hreqs := fun r hr => hsize r (List.mem_cons_of_mem req hr)
      rw [Machine.after_cons]
      by_cases hfits : req.Fits
      · rw [hdTxPacket_of_fits (Nat.le_of_add_right_le hreq) hfits, ih hreqs,
          blocksHold_cons_of_fits hfits]
      · rw [blocksHold_cons_of_not_fits hfits]
        by_cases hlast : k % 4 = 3
        · rw [hdTxPacket_last_block hreq hfits hlast, after_hdTxPacket_none]
          simp [hlast]
        · obtain ⟨ctl, hstep, hdead⟩ := hdTxPacket_overrun hreq hfits hlast
          rw [hstep]
          cases reqs with
          | nil => simp [hlast]
          | cons req' reqs =>
              rw [Machine.after_cons, hdead, after_hdTxPacket_none]
              simp

theorem sent_frames {k : ℕ} {reqs : List HdReq}
    (hsize : ∀ req ∈ reqs, req.hdpacketp.length + 2 ≤ hdMaxMessage) (h : BlocksHold k reqs) :
    Machine.outputs hdTxPacket (some (ready k)) reqs =
      reqs.map fun req => frame dll req.fcsPacket := by
  induction reqs generalizing k with
  | nil => rfl
  | cons req reqs ih =>
      have hreq := hsize req List.mem_cons_self
      have hreqs := fun r hr => hsize r (List.mem_cons_of_mem req hr)
      rw [Machine.outputs_cons]
      by_cases hfits : req.Fits
      · rw [blocksHold_cons_of_fits hfits] at h
        rw [hdTxPacket_of_fits (Nat.le_of_add_right_le hreq) hfits, ih hreqs h]
        rfl
      · rw [blocksHold_cons_of_not_fits hfits] at h
        obtain ⟨rfl, hlast⟩ := h
        obtain ⟨ctl, hstep, -⟩ := hdTxPacket_overrun hreq hfits hlast
        rw [hstep]
        rfl

end Sending

/-- A list of packets survives the way from the transmitter to the receiver: every packet is
taken, no frame contains a flag but its first and its last byte, and the frames, cut into
chunks anywhere, are received as the packets with their frame check sequences, in order and
without an error. -/
structure RoundTrip (reqs : List HdReq) : Prop where
  taken : (Machine.after hdTxPacket (some hdTxInit) reqs).isSome
  flags : ∀ f ∈ Machine.outputs hdTxPacket (some hdTxInit) reqs,
    ∃ body, f = dllFlag :: body ++ [dllFlag] ∧ dllFlag ∉ body
  received : ∀ chunks : List (List UInt8),
    chunks.flatten = (Machine.outputs hdTxPacket (some hdTxInit) reqs).flatten →
      Machine.outputs hdRxPacket hdrxreset chunks =
        reqs.map fun req => (req.fcsPacket, false)

/-- Packets whose send blocks hold their frames make the round trip, and no others do. -/
theorem roundTrip_iff {reqs : List HdReq}
    (hsize : ∀ req ∈ reqs, req.hdpacketp.length + 2 ≤ hdMaxMessage) :
    RoundTrip reqs ↔
      ∀ pre req post, reqs = pre ++ req :: post →
        req.fcsPacket.length + req.fcsPacket.countP (fun b => dll.Special b) + 2 ≤
            2 * hdMaxMessage ∨
          post = [] ∧ pre.length % hdDataBufCnt ≠ hdDataBufCnt - 1 := by
  have hholds : BlocksHold 0 reqs ↔
      ∀ pre req post, reqs = pre ++ req :: post →
        req.Fits ∨ post = [] ∧ pre.length % hdDataBufCnt ≠ hdDataBufCnt - 1 := by
    simp only [BlocksHold, Nat.zero_add]
    rfl
  refine Iff.trans ?_ hholds
  constructor
  · intro h
    exact (transmits_iff hsize).mp h.taken
  · intro h
    have hsent := sent_frames hsize h
    rw [ready_zero] at hsent
    refine ⟨(transmits_iff hsize).mpr h, ?_, ?_⟩
    · intro f hf
      rw [hsent] at hf
      obtain ⟨req, -, rfl⟩ := List.mem_map.mp hf
      exact ⟨stuff dll req.fcsPacket, rfl, flag_notMem_stuff dll req.fcsPacket⟩
    · intro chunks hchunks
      have hpkts : ∀ bs ∈ reqs.map HdReq.fcsPacket, bs ≠ [] ∧ bs.length ≤ hdMaxMessage := by
        intro bs hbs
        obtain ⟨req, hreq, rfl⟩ := List.mem_map.mp hbs
        exact ⟨fcsPacket_ne_nil req, (length_fcsPacket req).symm ▸ hsize req hreq⟩
      have hflat : chunks.flatten = (reqs.map HdReq.fcsPacket).flatMap (frame dll) := by
        rw [hchunks, hsent, List.flatMap_map]
        rfl
      rw [received_frames hpkts hflat, List.map_map]
      rfl

theorem roundTrip_specials :
    RoundTrip [⟨[0x7e, 0x7d, 0x20], 0x7d7e⟩, ⟨[], 0x5e5d⟩, ⟨[0x7e], 0⟩] := by
  have hall : ∀ req ∈ [(⟨[0x7e, 0x7d, 0x20], 0x7d7e⟩ : HdReq), ⟨[], 0x5e5d⟩, ⟨[0x7e], 0⟩],
      req.fcsPacket.length + req.fcsPacket.countP (fun b => dll.Special b) + 2 ≤
        2 * hdMaxMessage := by decide
  apply (roundTrip_iff (by decide)).mpr
  intro pre req post hsplit
  exact .inl (hall req (by rw [hsplit]; simp))

/-- A payload of flags, with a frame check sequence of flags. -/
def allFlags : HdReq where
  hdpacketp := List.replicate 1022 dllFlag
  hdfcs := 0x7e7e

/-- Three packets of which the first is as long as allowed and consists of flags: the third
is never sent. -/
theorem not_roundTrip_allFlags :
    (∀ req ∈ [allFlags, ⟨[1], 2⟩, ⟨[3], 4⟩], req.hdpacketp.length + 2 ≤ hdMaxMessage) ∧
      ¬ RoundTrip [allFlags, ⟨[1], 2⟩, ⟨[3], 4⟩] := by
  have hsize : ∀ req ∈ [allFlags, ⟨[1], 2⟩, ⟨[3], 4⟩],
      req.hdpacketp.length + 2 ≤ hdMaxMessage := by
    intro req hreq
    rcases List.mem_cons.mp hreq with rfl | hreq
    · change (List.replicate 1022 dllFlag).length + 2 ≤ 1024
      rw [List.length_replicate]
    · rcases List.mem_cons.mp hreq with rfl | hreq
      · decide
      · rw [List.mem_singleton.mp hreq]
        decide
  refine ⟨hsize, fun h => ?_⟩
  have hholds : BlocksHold 0 [allFlags, ⟨[1], 2⟩, ⟨[3], 4⟩] := (transmits_iff hsize).mp h.taken
  have hfits : ¬ allFlags.Fits := by
    have hflags : allFlags.fcsPacket = List.replicate 1024 dllFlag := by
      have hfcs : piput16 allFlags.hdfcs = List.replicate 2 dllFlag := by decide
      rw [HdReq.fcsPacket, hfcs]
      exact List.replicate_append_replicate
    rw [HdReq.Fits, hflags, List.countP_replicate, if_pos (by decide), List.length_replicate]
    decide
  rw [blocksHold_cons_of_not_fits hfits] at hholds
  exact absurd hholds.1 (List.cons_ne_nil _ _)

end Hd

end SierraSdk
