import Mathlib.Data.List.Basic
import SierraSdk.Library.Framing
import SierraSdk.Mm.Pool

/-!
# The HDLC transmitter

`hdsend` frames one packet: it appends the frame check sequence, runs every byte through
the character state machine `hdtxdllstate` into a send block of `2 * hdMaxMessage` bytes,
hands the frame to the caller's send function and releases the block. The state machine
emits the opening flag on its first call, and takes two calls for a byte that must be
escaped.

The loop of `hdsend` is shown to produce the frame of the payload and its frame check
sequence (`hdsendLoop_wait`), and what is sent is that frame (`hdsend_eq`).
-/

namespace SierraSdk

namespace Hd

open Framing Mm

/-- `DLL_FLAG` -/
def dllFlag : UInt8 := 0x7e

/-- `DLL_CTRL_ESC` -/
def dllCtrlEsc : UInt8 := 0x7d

/-- `DLL_ESC_MASK` -/
def dllEscMask : UInt8 := 0x20

theorem xor_dllEscMask_xor (b : UInt8) : b ^^^ dllEscMask ^^^ dllEscMask = b := by
  rw [UInt8.xor_assoc, UInt8.xor_self, UInt8.xor_zero]

/-- The framing alphabet of the package. -/
def dll : Alphabet UInt8 where
  flag := dllFlag
  esc := dllCtrlEsc
  mask b := b ^^^ dllEscMask
  mask_mask := xor_dllEscMask_xor
  flag_ne_esc := by decide
  mask_flag_ordinary := by decide
  mask_esc_ordinary := by decide

/-- `HDDATABUFCNT` -/
def hdDataBufCnt : ℕ := 4

/-- `HDMAXMESSAGE`, which is also `HDRXBUFSIZE`. -/
def hdMaxMessage : ℕ := 1024

/-- The states of the transmit character state machine. -/
inductive HdTxChrState where
  | hdWaitTxPkt
  | hdData
  | hdEscaped
  deriving DecidableEq

/-- One call of the transmit state machine: the new state, the byte to emit, and whether
the caller may fetch the next byte. With `last` the machine is reset and emits the closing
flag. -/
def hdtxdllstate (state : HdTxChrState) (txchr : UInt8) (last : Bool) :
    HdTxChrState × UInt8 × Bool :=
  if last then (.hdWaitTxPkt, dllFlag, false)
  else
    match state with
    | .hdWaitTxPkt => (.hdData, dllFlag, false)
    | .hdData =>
        if txchr ≠ dllFlag ∧ txchr ≠ dllCtrlEsc then (.hdData, txchr, true)
        else (.hdEscaped, dllCtrlEsc, false)
    | .hdEscaped => (.hdData, txchr ^^^ dllEscMask, true)

/-- How many calls of the state machine may pass before the next fetch. -/
def HdTxChrState.pending : HdTxChrState → ℕ
  | .hdWaitTxPkt => 2
  | .hdData => 1
  | .hdEscaped => 0

theorem hdtxdllstate_wait (txchr : UInt8) :
    hdtxdllstate .hdWaitTxPkt txchr false = (.hdData, dllFlag, false) := rfl

theorem hdtxdllstate_special {txchr : UInt8} (h : dll.Special txchr) :
    hdtxdllstate .hdData txchr false = (.hdEscaped, dllCtrlEsc, false) := by
  rcases h with rfl | rfl <;> rfl

theorem hdtxdllstate_ordinary {txchr : UInt8} (h : ¬ dll.Special txchr) :
    hdtxdllstate .hdData txchr false = (.hdData, txchr, true) :=
  if_pos (not_or.mp h)

theorem hdtxdllstate_escaped (txchr : UInt8) :
    hdtxdllstate .hdEscaped txchr false = (.hdData, txchr ^^^ dllEscMask, true) := rfl

/-- A call that does not fetch brings the next fetch closer. -/
theorem pending_lt_of_not_fetch {state state' : HdTxChrState} {txchr ch : UInt8}
    (h : hdtxdllstate state txchr false = (state', ch, false)) :
    state'.pending < state.pending := by
  cases state with
  | hdWaitTxPkt =>
      rw [hdtxdllstate_wait] at h
      obtain ⟨rfl, -⟩ := Prod.mk.inj h
      decide
  | hdData =>
      by_cases hb : dll.Special txchr
      · rw [hdtxdllstate_special hb] at h
        obtain ⟨rfl, -⟩ := Prod.mk.inj h
        decide
      · simp [hdtxdllstate_ordinary hb] at h
  | hdEscaped => simp [hdtxdllstate_escaped] at h

/-- The loop of `hdsend` from the byte that `nextbytep` points to: `next` are the bytes
still to be sent and `hold` is what the hold buffer has so far. Past the last byte
`*++nextbytep` is read but not used; it is taken to be `0` here. -/
def hdsendLoop (state : HdTxChrState) (txchr : UInt8) (next hold : List UInt8) :
    HdTxChrState × List UInt8 :=
  match next with
  | [] => (state, hold)
  | b :: next' =>
      match _hcall : hdtxdllstate state txchr false with
      | (state', ch, true) => hdsendLoop state' (next'.headD 0) next' (hold ++ [ch])
      | (state', ch, false) => hdsendLoop state' b (b :: next') (hold ++ [ch])
  termination_by (next.length, state.pending)
  decreasing_by
    · exact Prod.Lex.left _ _ (Nat.lt_succ_self _)
    · exact Prod.Lex.right _ (pending_lt_of_not_fetch _hcall)

/-- A 16-bit value in a packet, low byte first. -/
def piput16 (field : UInt16) : List UInt8 := [field.toUInt8, (field >>> 8).toUInt8]

/-- The part of a request block that `hdsend` reads. -/
structure HdReq where
  hdpacketp : List UInt8
  hdfcs : UInt16
  deriving DecidableEq

/-- The payload followed by its frame check sequence, low byte first. -/
def HdReq.fcsPacket (req : HdReq) : List UInt8 := req.hdpacketp ++ piput16 req.hdfcs

/-- The transmit control block. -/
structure HdTxCtlBk where
  hdtxdllstate : HdTxChrState
  hdtbufpool : MmPool
  deriving DecidableEq

/-- The control block after `hdTxInit`. -/
def hdTxInit : HdTxCtlBk where
  hdtxdllstate := .hdWaitTxPkt
  hdtbufpool := mmpcreate hdDataBufCnt (2 * hdMaxMessage)

/-- Frame and send one packet: the control block afterwards, or `none` when the daemon
does not get past this call, and the frames handed to the user's send function. -/
def hdsend (ctl : HdTxCtlBk) (req : HdReq) : Option HdTxCtlBk × List (List UInt8) :=
  if hdMaxMessage < req.hdpacketp.length then (none, [])
  else
    match ctl.hdtbufpool.mmbufget with
    | none => (none, [])
    | some (sendblk, pool) =>
        let (state, hold) := hdsendLoop ctl.hdtxdllstate 0 req.fcsPacket []
        let hold := hold ++ [(hdtxdllstate state 0 true).2.1]
        match pool.overrun sendblk hold with
        | none => (none, [])
        | some pool =>
            match pool.mmbufrel sendblk with
            | none => (none, [hold])
            | some pool => (some ⟨.hdWaitTxPkt, pool⟩, [hold])

/-- The calls of `hdTxPacket` one after the other; once the daemon is gone nothing more is
sent. -/
def hdTxPacket (ctl : Option HdTxCtlBk) (req : HdReq) :
    Option HdTxCtlBk × List (List UInt8) :=
  match ctl with
  | none => (none, [])
  | some ctl => hdsend ctl req

section Loop

variable {state state' : HdTxChrState} {txchr b ch : UInt8} {next hold : List UInt8}

theorem hdsendLoop_fetch (h : hdtxdllstate state txchr false = (state', ch, true)) :
    hdsendLoop state txchr (b :: next) hold =
      hdsendLoop state' (next.headD 0) next (hold ++ [ch]) := by
  rw [hdsendLoop]
  split
  · rename_i hcall
    rw [h] at hcall
    obtain ⟨rfl, rfl, -⟩ := hcall
    rfl
  · rename_i hcall
    rw [h] at hcall
    simp at hcall

theorem hdsendLoop_again (h : hdtxdllstate state txchr false = (state', ch, false)) :
    hdsendLoop state txchr (b :: next) hold =
      hdsendLoop state' b (b :: next) (hold ++ [ch]) := by
  rw [hdsendLoop]
  split
  · rename_i hcall
    rw [h] at hcall
    simp at hcall
  · rename_i hcall
    rw [h] at hcall
    obtain ⟨rfl, rfl, -⟩ := hcall
    rfl

end Loop

/-- From the data state the loop appends the stuffed bytes. -/
theorem hdsendLoop_data (next hold : List UInt8) :
    hdsendLoop .hdData (next.headD 0) next hold = (.hdData, hold ++ stuff dll next) := by
  induction next generalizing hold with
  | nil => simp [hdsendLoop]
  | cons b next ih =>
      rw [List.headD_cons, stuff_cons]
      by_cases hb : dll.Special b
      · have hstuff : stuffOne dll b = [dllCtrlEsc, b ^^^ dllEscMask] :=
          stuffOne_of_special dll hb
        rw [hdsendLoop_again (hdtxdllstate_special hb),
          hdsendLoop_fetch (hdtxdllstate_escaped b), ih, hstuff]
        simp
      · rw [hdsendLoop_fetch (hdtxdllstate_ordinary hb), ih, stuffOne_of_not_special dll hb,
          List.append_assoc]

/-- From the initial state the loop emits the opening flag first. -/
theorem hdsendLoop_wait {next : List UInt8} (hne : next ≠ []) (txchr : UInt8)
    (hold : List UInt8) :
    hdsendLoop .hdWaitTxPkt txchr next hold =
      (.hdData, hold ++ dllFlag :: stuff dll next) := by
  cases next with
  | nil => exact absurd rfl hne
  | cons b next =>
      rw [hdsendLoop_again (hdtxdllstate_wait txchr)]
      have hdata := hdsendLoop_data (b :: next) (hold ++ [dllFlag])
      rw [List.headD_cons] at hdata
      rw [hdata, List.append_assoc, List.singleton_append]

theorem fcsPacket_ne_nil (req : HdReq) : req.fcsPacket ≠ [] := by
  simp [HdReq.fcsPacket, piput16]

theorem length_fcsPacket (req : HdReq) :
    req.fcsPacket.length = req.hdpacketp.length + 2 := by
  simp [HdReq.fcsPacket, piput16]

/-- What `hdsend` does from its initial state: the frame that is sent is the frame of the
payload and its frame check sequence. -/
theorem hdsend_eq {ctl : HdTxCtlBk} {req : HdReq} {sendblk : ℕ} {pool : MmPool}
    (hstate : ctl.hdtxdllstate = .hdWaitTxPkt)
    (hsize : req.hdpacketp.length ≤ hdMaxMessage)
    (hget : ctl.hdtbufpool.mmbufget = some (sendblk, pool)) :
    hdsend ctl req =
      match pool.overrun sendblk (frame dll req.fcsPacket) with
      | none => (none, [])
      | some pool =>
          ((pool.mmbufrel sendblk).map (HdTxCtlBk.mk .hdWaitTxPkt),
            [frame dll req.fcsPacket]) := by
  have hframe : (hdsendLoop .hdWaitTxPkt 0 req.fcsPacket []).2 ++ [dllFlag] =
      frame dll req.fcsPacket := by
    rw [hdsendLoop_wait (fcsPacket_ne_nil req), List.nil_append]
    rfl
  simp only [hdsend, hstate, hget, if_neg (Nat.not_lt.mpr hsize)]
  have hlast : (hdtxdllstate (hdsendLoop .hdWaitTxPkt 0 req.fcsPacket []).1 0 true).2.1 =
      dllFlag := rfl
  rw [hlast, hframe]
  cases pool.overrun sendblk (frame dll req.fcsPacket) with
  | none => rfl
  | some pool =>
      dsimp only
      cases pool.mmbufrel sendblk <;> rfl

end Hd

end SierraSdk
