import SierraSdk.Library.Framing
import SierraSdk.Hd.Tx

/-!
# The HDLC receiver

`hdrxdllstate` runs one received byte through the receive state machine; the body of the
loop of `hdRxPacket` stores the byte if the machine says that it is data, and hands the
hold buffer to the user at the end of a frame or when the buffer has outgrown
`hdMaxMessage`. The control block lives across calls; the error flag given to the user is a
local variable of one call and is not cleared between the frames of that call.

As long as no flag or escape follows an escape while the hold buffer has data
(`EscapeLegal`), the receiver behaves as the deframer of the framing library
(`rxStep_refines`).
-/

namespace SierraSdk

namespace Hd

open Framing

/-- The states of the receive character state machine. -/
inductive HdRxDllState where
  | waitForSync
  | syncedNoData
  | collectData
  | escaped
  deriving DecidableEq

/-- The receive control block. `hdrHoldBuffer` are the bytes between `hdrHoldBufferp` and
`hdrHoldBufferEndp`. -/
structure HdRxCtlBk where
  hdrdllstate : HdRxDllState
  hdrHoldBuffer : List UInt8
  hdrerror : Bool
  hdrdatavalid : Bool
  hdrendframe : Bool
  hdrdatacount : UInt16
  deriving DecidableEq

/-- The control block after `hdrxreset`, whether or not a fresh buffer is allocated. -/
def hdrxreset : HdRxCtlBk where
  hdrdllstate := .waitForSync
  hdrHoldBuffer := []
  hdrerror := false
  hdrdatavalid := false
  hdrendframe := false
  hdrdatacount := 0

/-- The receive state machine on one byte: the new control block and the byte, unmasked if
it was escaped. -/
def hdrxdllstate (ctl : HdRxCtlBk) (rxbyte : UInt8) : HdRxCtlBk × UInt8 :=
  let ctl := { ctl with hdrdatavalid := false, hdrendframe := false }
  match ctl.hdrdllstate with
  | .waitForSync =>
      if rxbyte = dllFlag then ({ ctl with hdrdllstate := .syncedNoData }, rxbyte)
      else (ctl, rxbyte)
  | .syncedNoData =>
      if rxbyte = dllFlag then (ctl, rxbyte)
      else if rxbyte = dllCtrlEsc then ({ ctl with hdrdllstate := .escaped }, rxbyte)
      else
        ({ ctl with
            hdrdllstate := .collectData
            hdrdatavalid := true
            hdrdatacount := ctl.hdrdatacount + 1 }, rxbyte)
  | .collectData =>
      if rxbyte = dllFlag then
        ({ ctl with hdrdllstate := .syncedNoData, hdrendframe := true }, rxbyte)
      else if rxbyte = dllCtrlEsc then ({ ctl with hdrdllstate := .escaped }, rxbyte)
      else
        ({ ctl with hdrdatavalid := true, hdrdatacount := ctl.hdrdatacount + 1 }, rxbyte)
  | .escaped =>
      -- an illegal escape: neither the hold buffer nor the data count is reset
      if rxbyte = dllFlag ∨ rxbyte = dllCtrlEsc then
        ({ ctl with hdrerror := true, hdrdllstate := .waitForSync }, rxbyte)
      else
        ({ ctl with
            hdrdllstate := .collectData
            hdrdatavalid := true
            hdrdatacount := ctl.hdrdatacount + 1 }, rxbyte ^^^ dllEscMask)

/-- A packet handed to the user, with its error flag. -/
abbrev RxPacket := List UInt8 × Bool

/-- Append the byte to the hold buffer if the state machine gave it as data. -/
def holdByte (ctl : HdRxCtlBk) (rxbyte : UInt8) : HdRxCtlBk :=
  if ctl.hdrdatavalid then { ctl with hdrHoldBuffer := ctl.hdrHoldBuffer ++ [rxbyte] }
  else ctl

/-- The byte just stored is one too many for the buffer. -/
def Overlong (ctl : HdRxCtlBk) : Prop :=
  ctl.hdrdatavalid = true ∧ hdMaxMessage < ctl.hdrHoldBuffer.length

instance (ctl : HdRxCtlBk) : Decidable (Overlong ctl) :=
  inferInstanceAs (Decidable (_ ∧ _))

/-- The body of the loop of `hdRxPacket`: one byte, with the local error flag. -/
def hdRxByte (s : HdRxCtlBk × Bool) (b : UInt8) : (HdRxCtlBk × Bool) × List RxPacket :=
  let (ctl, rxbyte) := hdrxdllstate s.1 b
  let ctl := holdByte ctl rxbyte
  let errorflg := s.2 || decide (Overlong ctl)
  if ctl.hdrendframe ∨ Overlong ctl then
    if ctl.hdrdatacount = 0 then ((hdrxreset, errorflg), [])
    else ((hdrxreset, errorflg), [(ctl.hdrHoldBuffer, errorflg)])
  else ((ctl, errorflg), [])

/-- One call of `hdRxPacket` on a chunk of received bytes. -/
def hdRxPacket (ctl : HdRxCtlBk) (data : List UInt8) : HdRxCtlBk × List RxPacket :=
  ((Machine.after hdRxByte (ctl, false) data).1, Machine.outputs hdRxByte (ctl, false) data)

/-- The receiver byte by byte, whatever the cuts between the calls: the same machine
without the error flag. -/
def rxStep (ctl : HdRxCtlBk) (b : UInt8) : HdRxCtlBk × List (List UInt8) :=
  ((hdRxByte (ctl, false) b).1.1, (hdRxByte (ctl, false) b).2.map Prod.fst)

/-- The error flag does not influence what is received. -/
theorem rxStep_eq (ctl : HdRxCtlBk) (errorflg : Bool) (b : UInt8) :
    rxStep ctl b =
      ((hdRxByte (ctl, errorflg) b).1.1, (hdRxByte (ctl, errorflg) b).2.map Prod.fst) := by
  simp only [rxStep, hdRxByte]
  split_ifs <;> rfl

theorem hdRxByte_run (ctl : HdRxCtlBk) (errorflg : Bool) (data : List UInt8) :
    (Machine.after hdRxByte (ctl, errorflg) data).1 = Machine.after rxStep ctl data ∧
      (Machine.outputs hdRxByte (ctl, errorflg) data).map Prod.fst =
        Machine.outputs rxStep ctl data := by
  induction data generalizing ctl errorflg with
  | nil => exact ⟨rfl, rfl⟩
  | cons b data ih =>
      have hstep := rxStep_eq ctl errorflg b
      obtain ⟨hafter, hout⟩ :=
        ih (hdRxByte (ctl, errorflg) b).1.1 (hdRxByte (ctl, errorflg) b).1.2
      rw [Machine.after_cons, Machine.outputs_cons, Machine.after_cons, Machine.outputs_cons,
        List.map_append, hstep]
      exact ⟨hafter, congrArg _ hout⟩

/-- What is received in any number of calls is what the bytes give one by one. -/
theorem hdRxPacket_run (ctl : HdRxCtlBk) (chunks : List (List UInt8)) :
    Machine.after hdRxPacket ctl chunks = Machine.after rxStep ctl chunks.flatten ∧
      (Machine.outputs hdRxPacket ctl chunks).map Prod.fst =
        Machine.outputs rxStep ctl chunks.flatten := by
  induction chunks generalizing ctl with
  | nil => exact ⟨rfl, rfl⟩
  | cons data chunks ih =>
      obtain ⟨hafter, hout⟩ := hdRxByte_run ctl false data
      obtain ⟨hafter', hout'⟩ := ih (hdRxPacket ctl data).1
      have hctl : (hdRxPacket ctl data).1 = Machine.after rxStep ctl data := hafter
      rw [hctl] at hafter' hout'
      rw [List.flatten_cons, Machine.after_append, Machine.outputs_append, Machine.after_cons,
        Machine.outputs_cons, List.map_append, hctl]
      exact ⟨hafter', congrArg₂ _ hout hout'⟩

/-- The hold buffer is not left behind by an illegal escape: no flag or escape follows an
escape while the buffer has data. -/
def EscapeLegal (ctl : HdRxCtlBk) (b : UInt8) : Prop :=
  ctl.hdrdllstate = .escaped → ctl.hdrHoldBuffer ≠ [] → ¬ dll.Special b

instance (ctl : HdRxCtlBk) (b : UInt8) : Decidable (EscapeLegal ctl b) := by
  unfold EscapeLegal
  infer_instance

/-- The receive state that goes with a partly decoded frame. -/
def stateOf (p : Partial UInt8) : HdRxDllState :=
  if p.escaped then .escaped else if p.out = [] then .syncedNoData else .collectData

/-- The receiver stands for a state of the deframer: while it waits for a flag its buffer is
empty, and otherwise buffer, data count and state are those of the partly decoded frame. -/
def Refines (ctl : HdRxCtlBk) : Deframer UInt8 → Prop
  | .hunting =>
      ctl.hdrdllstate = .waitForSync ∧ ctl.hdrHoldBuffer = [] ∧ ctl.hdrdatacount = 0
  | .collecting p =>
      ctl.hdrdllstate = stateOf p ∧ ctl.hdrHoldBuffer = p.out ∧
        ctl.hdrdatacount.toNat = p.out.length ∧ p.out.length ≤ hdMaxMessage

theorem refines_hdrxreset : Refines hdrxreset .hunting := ⟨rfl, rfl, rfl⟩

/-- The data count is the number of bytes in the hold buffer, which is within its limit. -/
theorem Refines.count {ctl : HdRxCtlBk} {d : Deframer UInt8} (h : Refines ctl d) :
    ctl.hdrdatacount.toNat = ctl.hdrHoldBuffer.length ∧
      ctl.hdrHoldBuffer.length ≤ hdMaxMessage := by
  cases d with
  | hunting =>
      obtain ⟨-, hhold, hcount⟩ := h
      simp [hhold, hcount]
  | collecting p =>
      obtain ⟨-, hhold, hcount, hlen⟩ := h
      rw [hhold]
      exact ⟨hcount, hlen⟩

/-- The deframer with one more decoded symbol: handed over if that is one too many. -/
def grown (out : List UInt8) : Deframer UInt8 × List (List UInt8) :=
  if hdMaxMessage < out.length then (.hunting, [out]) else (.collecting ⟨out, false⟩, [])

/-- A byte that the state machine gives as data is appended to the hold buffer, and a buffer
that has outgrown its limit is handed over. -/
theorem rxStep_store {ctl ctl' : HdRxCtlBk} {out : List UInt8} {b x : UInt8}
    (hcall : hdrxdllstate ctl b = (ctl', x)) (hvalid : ctl'.hdrdatavalid = true)
    (hend : ctl'.hdrendframe = false) (hstate : ctl'.hdrdllstate = .collectData)
    (hout : ctl'.hdrHoldBuffer = out) (hcount : ctl'.hdrdatacount.toNat = out.length + 1) :
    Refines (rxStep ctl b).1 (grown (out ++ [x])).1 ∧
      (rxStep ctl b).2 = (grown (out ++ [x])).2 := by
  have hcount0 : ctl'.hdrdatacount ≠ 0 := by
    intro h0
    rw [h0] at hcount
    exact absurd hcount (Nat.succ_ne_zero _).symm
  by_cases hlim : hdMaxMessage < (out ++ [x]).length
  · have hstep : rxStep ctl b = (hdrxreset, [out ++ [x]]) := by
      simp [rxStep, hdRxByte, holdByte, Overlong, hcall, hvalid, hout, hlim, hcount0,
        -List.length_append]
    rw [hstep, grown, if_pos hlim]
    exact ⟨refines_hdrxreset, rfl⟩
  · have hstep :
        rxStep ctl b = ({ ctl' with hdrHoldBuffer := out ++ [x] }, []) := by
      simp [rxStep, hdRxByte, holdByte, Overlong, hcall, hvalid, hend, hout, hlim,
        -List.length_append]
    rw [hstep, grown, if_neg hlim]
    refine ⟨⟨?_, rfl, ?_, Nat.le_of_not_lt hlim⟩, rfl⟩
    · simp [hstate, stateOf]
    · rw [List.length_append, List.length_singleton]
      exact hcount

theorem toNat_succ_of_le {c : UInt16} {n : ℕ} (hc : c.toNat = n) (hn : n ≤ hdMaxMessage) :
    (c + 1).toNat = n + 1 := by
  have hle : n ≤ 1024 := hn
  rw [UInt16.toNat_add, hc]
  exact Nat.mod_eq_of_lt (by simp; omega)

theorem rxStep_hunting {ctl : HdRxCtlBk} (h : Refines ctl .hunting) (b : UInt8) :
    Refines (rxStep ctl b).1 (feed dll hdMaxMessage .hunting b).1 ∧
      (rxStep ctl b).2 = (feed dll hdMaxMessage .hunting b).2 := by
  obtain ⟨hstate, hhold, hcount⟩ := h
  by_cases hb : b = dllFlag
  · have hfeed : feed dll hdMaxMessage .hunting b = (.collecting .empty, []) := if_pos hb
    rw [hfeed]
    simp [rxStep, hdRxByte, holdByte, Overlong, hdrxdllstate, hstate, hb, Refines, stateOf, hhold,
      hcount, Partial.empty]
  · have hfeed : feed dll hdMaxMessage .hunting b = (.hunting, []) := if_neg hb
    rw [hfeed]
    simp [rxStep, hdRxByte, holdByte, Overlong, hdrxdllstate, hstate, hb, Refines, hhold, hcount]

/-- The byte after an escape. -/
theorem rxStep_escaped {ctl : HdRxCtlBk} {out : List UInt8}
    (h : Refines ctl (.collecting ⟨out, true⟩)) {b : UInt8} (hlegal : EscapeLegal ctl b) :
    Refines (rxStep ctl b).1 (feed dll hdMaxMessage (.collecting ⟨out, true⟩) b).1 ∧
      (rxStep ctl b).2 = (feed dll hdMaxMessage (.collecting ⟨out, true⟩) b).2 := by
  obtain ⟨hstate, hhold, hcount, hlen⟩ := h
  simp only [stateOf, if_true] at hstate
  by_cases hb : dll.Special b
  · have hempty : out = [] := by
      by_contra hne
      exact hlegal hstate (hhold ▸ hne) hb
    subst hempty
    have hfeed : feed dll hdMaxMessage (.collecting ⟨[], true⟩) b = (.hunting, []) := by
      by_cases hflag : b = dll.flag
      · simp [feed, hflag]
      · simp [feed, hflag, absorb, hb]
    have hcount0 : ctl.hdrdatacount = 0 := UInt16.toNat_inj.mp hcount
    have hspecial : b = dllFlag ∨ b = dllCtrlEsc := hb
    rw [hfeed]
    simp [rxStep, hdRxByte, holdByte, Overlong, hdrxdllstate, hstate, hspecial, Refines, hhold,
      hcount0]
  · have hnot : ¬ (b = dllFlag ∨ b = dllCtrlEsc) := hb
    have hfeed : feed dll hdMaxMessage (.collecting ⟨out, true⟩) b =
        grown (out ++ [b ^^^ dllEscMask]) := by
      have hflag : b ≠ dll.flag := fun hflag => hb (.inl hflag)
      simp only [feed, if_neg hflag, absorb, if_true, if_neg hb]
      rfl
    rw [hfeed]
    have hcall : hdrxdllstate ctl b =
        ({ ctl with
            hdrdatavalid := true
            hdrendframe := false
            hdrdllstate := .collectData
            hdrdatacount := ctl.hdrdatacount + 1 }, b ^^^ dllEscMask) := by
      simp only [hdrxdllstate, hstate, if_neg hnot]
    exact rxStep_store hcall rfl rfl rfl hhold (toNat_succ_of_le hcount hlen)

/-- A byte between the flags that no escape precedes. -/
theorem rxStep_unescaped {ctl : HdRxCtlBk} {out : List UInt8}
    (h : Refines ctl (.collecting ⟨out, false⟩)) (b : UInt8) :
    Refines (rxStep ctl b).1 (feed dll hdMaxMessage (.collecting ⟨out, false⟩) b).1 ∧
      (rxStep ctl b).2 = (feed dll hdMaxMessage (.collecting ⟨out, false⟩) b).2 := by
  obtain ⟨hstate, hhold, hcount, hlen⟩ := h
  have hstate' : ctl.hdrdllstate = if out = [] then .syncedNoData else .collectData := by
    rw [hstate]
    rfl
  have hne : dllCtrlEsc ≠ dllFlag := by decide
  by_cases hflag : b = dllFlag
  · subst hflag
    by_cases hout : out = []
    · subst hout
      have hfeed : feed dll hdMaxMessage (.collecting ⟨[], false⟩) dllFlag =
          (.collecting .empty, []) := rfl
      rw [if_pos rfl] at hstate'
      rw [hfeed]
      simp_all [rxStep, hdRxByte, holdByte, Overlong, hdrxdllstate, Refines, stateOf, Partial.empty]
    · have hfeed : feed dll hdMaxMessage (.collecting ⟨out, false⟩) dllFlag =
          (.hunting, [out]) := by
        simp [feed, dll, hout]
      have hcount0 : ctl.hdrdatacount ≠ 0 := by
        intro h0
        rw [h0] at hcount
        exact hout (List.length_eq_zero_iff.mp hcount.symm)
      rw [if_neg hout] at hstate'
      rw [hfeed]
      simp [rxStep, hdRxByte, holdByte, Overlong, hdrxdllstate, hstate', hhold, hcount0,
        refines_hdrxreset]
  · by_cases hesc : b = dllCtrlEsc
    · subst hesc
      have hfeed : feed dll hdMaxMessage (.collecting ⟨out, false⟩) dllCtrlEsc =
          (.collecting ⟨out, true⟩, []) := by
        have hlim : ¬ hdMaxMessage < out.length := Nat.not_lt.mpr hlen
        simp [feed, dll, hne, absorb, hlim]
      rw [hfeed]
      by_cases hout : out = []
      · rw [if_pos hout] at hstate'
        simp [rxStep, hdRxByte, holdByte, Overlong, hdrxdllstate, hstate', hne, Refines, stateOf,
          hhold, hcount, hlen]
      · rw [if_neg hout] at hstate'
        simp [rxStep, hdRxByte, holdByte, Overlong, hdrxdllstate, hstate', hne, Refines, stateOf,
          hhold, hcount, hlen]
    · have hfeed : feed dll hdMaxMessage (.collecting ⟨out, false⟩) b = grown (out ++ [b]) := by
        have hflag' : b ≠ dll.flag := hflag
        have hesc' : b ≠ dll.esc := hesc
        simp only [feed, if_neg hflag', absorb, if_neg hesc']
        rfl
      rw [hfeed]
      have hcall : hdrxdllstate ctl b =
          ({ ctl with
              hdrdatavalid := true
              hdrendframe := false
              hdrdllstate := .collectData
              hdrdatacount := ctl.hdrdatacount + 1 }, b) := by
        by_cases hout : out = []
        · rw [if_pos hout] at hstate'
          simp only [hdrxdllstate, hstate', if_neg hflag, if_neg hesc]
        · rw [if_neg hout] at hstate'
          simp only [hdrxdllstate, hstate', if_neg hflag, if_neg hesc]
      exact rxStep_store hcall rfl rfl rfl hhold (toNat_succ_of_le hcount hlen)

/-- As long as escapes are legal, the receiver follows the deframer and hands over the same
packets. -/
theorem rxStep_refines {ctl : HdRxCtlBk} {d : Deframer UInt8} {b : UInt8}
    (h : Refines ctl d) (hlegal : EscapeLegal ctl b) :
    Refines (rxStep ctl b).1 (feed dll hdMaxMessage d b).1 ∧
      (rxStep ctl b).2 = (feed dll hdMaxMessage d b).2 := by
  cases d with
  | hunting => exact rxStep_hunting h b
  | collecting p =>
      obtain ⟨out, escaped⟩ := p
      cases escaped with
      | false => exact rxStep_unescaped h b
      | true => exact rxStep_escaped h hlegal

/-- A run with legal escapes hands over what the deframer hands over. -/
theorem rxStep_run_refines {ctl : HdRxCtlBk} {d : Deframer UInt8} (h : Refines ctl d)
    {bs : List UInt8} (hlegal : Machine.Meets rxStep EscapeLegal ctl bs) :
    Refines (Machine.after rxStep ctl bs) (Machine.after (feed dll hdMaxMessage) d bs) ∧
      Machine.outputs rxStep ctl bs = Machine.outputs (feed dll hdMaxMessage) d bs := by
  have hstep : ∀ ctl d b, Refines ctl d → EscapeLegal ctl b →
      Refines (rxStep ctl b).1 (feed dll hdMaxMessage d b).1 ∧
        (rxStep ctl b).2 = (feed dll hdMaxMessage d b).2 := by
    intro ctl d b hR hb
    exact rxStep_refines hR hb
  exact Machine.simulation hstep h hlegal

end Hd

end SierraSdk
