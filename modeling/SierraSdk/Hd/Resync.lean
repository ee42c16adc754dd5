import SierraSdk.Hd.Rx

/-!
# Resynchronisation of the receiver

After an illegal escape, a flag or an escape behind an escape, the receiver waits for a
flag again, but keeps the bytes it has collected; they end up in front of the next packet.
A stream in which no illegal escape finds bytes in the hold buffer is received frame by
frame (`own_frames`), and after the first one that does, the next packet is not its own
frame (`not_ownFrames_of_illegal`).
-/

namespace SierraSdk

namespace Hd

open Framing

/-- Every packet handed over at a byte of the stream consists of the unescaped bytes since
the last flag before that byte. -/
def OwnFrames (stream : List UInt8) : Prop :=
  ∀ pre b post, stream = pre ++ b :: post →
    ∀ pkt ∈ (rxStep (Machine.after rxStep hdrxreset pre) b).2, Own dll hdMaxMessage pre b pkt

/-- The state of the receiver after a stream with legal escapes. -/
theorem refines_after {stream : List UInt8}
    (hlegal : Machine.Meets rxStep EscapeLegal hdrxreset stream) :
    ∃ d, Refines (Machine.after rxStep hdrxreset stream) d ∧
      Framed dll hdMaxMessage d stream := by
  refine ⟨_, (rxStep_run_refines refines_hdrxreset hlegal).1, ?_⟩
  have hstart : Framed dll hdMaxMessage .hunting [] := trivial
  exact framed_after hstart stream

/-- However a stream with legal escapes is cut into chunks, `hdRxPacket` hands over what the
bytes give one by one, and every packet is its own frame. -/
theorem own_frames {chunks : List (List UInt8)}
    (hlegal : Machine.Meets rxStep EscapeLegal hdrxreset chunks.flatten) :
    (Machine.outputs hdRxPacket hdrxreset chunks).map Prod.fst =
        Machine.outputs rxStep hdrxreset chunks.flatten ∧
      OwnFrames chunks.flatten := by
  refine ⟨(hdRxPacket_run hdrxreset chunks).2, ?_⟩
  intro pre b post hsplit pkt hpkt
  rw [hsplit, Machine.meets_append, Machine.meets_cons] at hlegal
  obtain ⟨hpre, hb, -⟩ := hlegal
  obtain ⟨d, hd, hframed⟩ := refines_after hpre
  rw [(rxStep_refines hd hb).2] at hpkt
  exact feed_own hframed hpkt

/-- An illegal escape leaves the collected bytes where the next frame begins. -/
theorem rxStep_illegal {ctl : HdRxCtlBk} {b : UInt8} (hstate : ctl.hdrdllstate = .escaped)
    (hb : dll.Special b) :
    rxStep ctl b = ({ ctl with
      hdrdatavalid := false
      hdrendframe := false
      hdrerror := true
      hdrdllstate := .waitForSync }, []) := by
  have hspecial : b = dllFlag ∨ b = dllCtrlEsc := hb
  simp [rxStep, hdRxByte, holdByte, Overlong, hdrxdllstate, hstate, hspecial]

/-- After the first illegal escape that finds bytes in the hold buffer, the frame of a single
zero byte is not received as its own. -/
theorem not_ownFrames_of_illegal {pre : List UInt8} {b : UInt8}
    (hlegal : Machine.Meets rxStep EscapeLegal hdrxreset pre)
    (hillegal : ¬ EscapeLegal (Machine.after rxStep hdrxreset pre) b) :
    ¬ OwnFrames (pre ++ [b, dllFlag, 0, dllFlag]) := by
  obtain ⟨d, hd, -⟩ := refines_after hlegal
  generalize hctl : Machine.after rxStep hdrxreset pre = ctl at *
  simp only [EscapeLegal, Classical.not_imp, not_not] at hillegal
  obtain ⟨hstate, hhold, hb⟩ := hillegal
  generalize hout : ctl.hdrHoldBuffer = out at *
  have hillegal := rxStep_illegal hstate hb
  have hflag : rxStep (rxStep ctl b).1 dllFlag =
      ({ (rxStep ctl b).1 with hdrdllstate := .syncedNoData }, []) := by
    rw [hillegal]
    simp [rxStep, hdRxByte, holdByte, Overlong, hdrxdllstate]
  generalize hctl2 : (rxStep (rxStep ctl b).1 dllFlag).1 = ctl2
  have hstate2 : ctl2.hdrdllstate = .syncedNoData := by
    rw [← hctl2, hflag]
  have hhold2 : ctl2.hdrHoldBuffer = out := by
    rw [← hctl2, hflag, hillegal]
    exact hout
  have hcount2 : ctl2.hdrdatacount.toNat = out.length ∧ out.length ≤ hdMaxMessage := by
    rw [← hctl2, hflag, hillegal, ← hout]
    exact hd.count
  have hzero : Refines (rxStep ctl2 0).1 (grown (out ++ [0])).1 ∧
      (rxStep ctl2 0).2 = (grown (out ++ [0])).2 := by
    have hcall : hdrxdllstate ctl2 0 =
        ({ ctl2 with
            hdrdatavalid := true
            hdrendframe := false
            hdrdllstate := .collectData
            hdrdatacount := ctl2.hdrdatacount + 1 }, 0) := by
      simp only [hdrxdllstate, hstate2]
      rfl
    exact rxStep_store hcall rfl rfl rfl hhold2 (toNat_succ_of_le hcount2.1 hcount2.2)
  -- whichever byte hands the packet over, its own frame is the zero byte alone
  have hforeign : decode dll .empty [0] ≠ some ⟨out ++ [0], false⟩ := by
    intro h
    have hself : ([0] : List UInt8) = out ++ [0] := congrArg Partial.out (Option.some.inj h)
    exact hhold (List.append_left_eq_self.mp hself.symm)
  intro hown
  by_cases hlim : hdMaxMessage < (out ++ [0]).length
  · have hafter : Machine.after rxStep hdrxreset (pre ++ [b, dllFlag]) = ctl2 := by
      rw [Machine.after_append, hctl, ← hctl2]
      rfl
    have hpkt : out ++ [0] ∈ (rxStep ctl2 0).2 := by
      rw [hzero.2, grown, if_pos hlim]
      exact List.mem_cons_self
    have h := hown (pre ++ [b, dllFlag]) 0 [dllFlag] (by simp) (out ++ [0]) (by rwa [hafter])
    rw [show pre ++ [b, dllFlag] = (pre ++ [b]) ++ dll.flag :: [] by simp [dll]] at h
    exact hforeign (h.decode_eq List.not_mem_nil)
  · have hafter : Machine.after rxStep hdrxreset (pre ++ [b, dllFlag, 0]) =
        (rxStep ctl2 0).1 := by
      rw [Machine.after_append, hctl, ← hctl2]
      rfl
    have hpkt : out ++ [0] ∈ (rxStep (rxStep ctl2 0).1 dllFlag).2 := by
      have hcollect := hzero.1
      rw [grown, if_neg hlim] at hcollect
      rw [(rxStep_unescaped hcollect dllFlag).2]
      simp [feed, dll]
    have h := hown (pre ++ [b, dllFlag, 0]) dllFlag [] (by simp) (out ++ [0]) (by rwa [hafter])
    rw [show pre ++ [b, dllFlag, 0] = (pre ++ [b]) ++ dll.flag :: [0] by simp [dll]] at h
    exact hforeign (h.decode_eq (by decide))

/-- The stream of a frame that breaks off in an escape sequence and a whole frame. -/
theorem not_ownFrames_aborted :
    (hdRxPacket hdrxreset [0x7e, 0x01, 0x7d, 0x7e, 0x7e, 0x02, 0x7e]).2 =
        [([0x01, 0x02], false)] ∧
      ¬ OwnFrames [0x7e, 0x01, 0x7d, 0x7e, 0x7e, 0x02, 0x7e] := by
  refine ⟨by decide, fun hown => ?_⟩
  have h : Own dll hdMaxMessage ([0x7e, 0x01, 0x7d, 0x7e] ++ dll.flag :: [0x02]) 0x7e
      [0x01, 0x02] :=
    hown [0x7e, 0x01, 0x7d, 0x7e, 0x7e, 0x02] 0x7e [] rfl [0x01, 0x02] (by decide)
  exact absurd (h.decode_eq (by decide)) (by decide)

theorem own_frames_empty_abort :
    (Machine.outputs hdRxPacket hdrxreset [[0x7e, 0x7d], [0x7d, 0x05, 0x7e, 0x06, 0x7e]]).map
        Prod.fst = Machine.outputs rxStep hdrxreset [0x7e, 0x7d, 0x7d, 0x05, 0x7e, 0x06, 0x7e] ∧
      OwnFrames [0x7e, 0x7d, 0x7d, 0x05, 0x7e, 0x06, 0x7e] := by
  have hlegal : Machine.Meets rxStep EscapeLegal hdrxreset
      [[0x7e, 0x7d], [0x7d, 0x05, 0x7e, 0x06, 0x7e]].flatten := by decide
  exact own_frames hlegal

end Hd

end SierraSdk
