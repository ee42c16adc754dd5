import Mathlib.Tactic.IntervalCases
import SierraSdk.Im.Gobi

/-!
# Who runs the events of the Gobi task

The event of a frame is queued whatever machine is the current one. A frame that the device sends
in answer to a request finds the transaction machine there: the action that hands the request over
has made it the current machine, and it stays that until it has taken the frame. An action that
hands over to one of the other two machines, or keeps its own, leaves a frame behind it to a machine
that reads its number as something else, if the event of the frame comes first.

If no frame is waiting whenever an action hands over like that (`Timely`), every event is run by the
machine that it is generated for, and all states are active (`routed_of_timely`).
-/

namespace SierraSdk

namespace Im

namespace Gobi

open Sm (SmT smrun smrun_marker smrun_transition)
open Hd (HdRxCtlBk hdrxreset)

/-- Every machine is in one of its active states. -/
def ImGobi.Active (s : ImGobi) : Prop := ∀ m, s.state m < m.numActiveStates

/-- The event that is taken next is run by the machine that it is generated for, which reads its
tables inside. -/
def RunByOwn (s : ImGobi) : Prop :=
  s.task = .waiting → ∀ ev rest, s.imicmsgque = ev :: rest →
    ev.machine = s.imsmp ∧ (s.sm s.imsmp).Inside ev.number

/-- All states are active, and the next event will be run by its machine. -/
def Routed : Option ImGobi → Move → Prop
  | none, _ => True
  | some s, m => s.Active ∧ (m = .take → RunByOwn s)

/-- The action hands over to the task machine or the download machine. -/
def HandsOver (imrxdata : Udata) (w : World) (s : ImGobi) : Action → Bool
  | .imGobiFwDldStart | .imGobiTransRxRsp | .imGobiSendFwImg | .imGobiSendDoneFinal
  | .imGobiFwDldError => true
  | .imGobiSendUfWrite =>
      match (imrxdata.bytes s w).bind fun psdp => prepareQDLImageWrite psdp w.stack with
      | none => false
      | some rCode => rCode.toUInt32 ≠ ssdpOpenUnframedStatusOk
  | .imGobiSendNextUfWrite =>
      match imrxdata.bytes s w with
      | none => true
      | some psdp =>
          (imssdpUnframedWriteUnpack psdp).status ≠ ssdpUnframedWriteDataReceivedOk ∨
            s.qdl.imqdl.numwrites = 0
  | _ => false

/-- No frame waits in the queue when an action hands over to the task machine or the download
machine, and none is queued between this and the event of the action. -/
def Timely : Option ImGobi → Move → Prop
  | some s, .act w =>
      ∀ action imrxdata, s.task = .acting action imrxdata → HandsOver imrxdata w s action = true →
        s.imicmsgque = []
  | some s, .notify =>
      s.received = true → ∀ ev, s.task = .queueing ev → ev.machine = .smtr
  | _, _ => True

/-! ### The invariant -/

/-- Events of frames only. -/
def Frames (q : List ImEvent) : Prop := ∀ ev ∈ q, ev = .trans .rxRsp

/-- The states in which the download machine takes an event. -/
def Ready (ev : ImfdEvent) (state : ℕ) : Prop :=
  match ev with
  | .start => state = 0
  | .rsprx => 1 ≤ state ∧ state ≤ 6
  | .uwrtnxt => state = 5
  | .error => 1 ≤ state ∧ state ≤ 6

/-- The states in which an event is due. -/
def Awaits (state : Machines → ℕ) : ImEvent → Prop
  | .task .dldStart => state .smt = 0 ∧ state .smfd = 0 ∧ state .smtr = 0
  | .task _ => state .smt = 1 ∧ state .smfd < 8 ∧ state .smtr = 0
  | .fwdld ev => state .smt = 1 ∧ Ready ev (state .smfd) ∧ state .smtr = 0
  | .trans .txReq => state .smt = 1 ∧ (1 ≤ state .smfd ∧ state .smfd ≤ 6) ∧ state .smtr = 0
  | .trans .rxRsp => False

/-- The states in which an action is called. -/
def Calls (imsmp : Machines) (state : Machines → ℕ) : Action → Prop
  | .imGobiFwDldStart =>
      imsmp = .smt ∧ state .smt = 1 ∧ state .smfd = 0 ∧ state .smtr = 0
  | .imGobiTaskShutdown => imsmp = .smt ∧ state .smt = 2 ∧ state .smfd < 8 ∧ state .smtr = 0
  | .imGobiTransTxReq =>
      imsmp = .smtr ∧ state .smt = 1 ∧ (1 ≤ state .smfd ∧ state .smfd ≤ 6) ∧ state .smtr = 1
  | .imGobiTransRxRsp =>
      imsmp = .smtr ∧ state .smt = 1 ∧ (1 ≤ state .smfd ∧ state .smfd ≤ 6) ∧ state .smtr = 0
  | .imerror => False
  | .imGobiSendHello => imsmp = .smfd ∧ state .smt = 1 ∧ state .smfd = 1 ∧ state .smtr = 0
  | .imGobiSendGetImgPref => imsmp = .smfd ∧ state .smt = 1 ∧ state .smfd = 2 ∧ state .smtr = 0
  | .imGobiSendFwImg => imsmp = .smfd ∧ state .smt = 1 ∧ state .smfd = 3 ∧ state .smtr = 0
  | .imGobiSendOUfPkt => imsmp = .smfd ∧ state .smt = 1 ∧ state .smfd = 4 ∧ state .smtr = 0
  | .imGobiSendUfWrite => imsmp = .smfd ∧ state .smt = 1 ∧ state .smfd = 5 ∧ state .smtr = 0
  | .imGobiSendDone => imsmp = .smfd ∧ state .smt = 1 ∧ state .smfd = 6 ∧ state .smtr = 0
  | .imGobiSendNextUfWrite => imsmp = .smfd ∧ state .smt = 1 ∧ state .smfd = 5 ∧ state .smtr = 0
  | .imGobiSendDoneFinal => imsmp = .smfd ∧ state .smt = 1 ∧ state .smfd = 0 ∧ state .smtr = 0
  | .imGobiFwDldError => imsmp = .smfd ∧ state .smt = 1 ∧ state .smfd = 7 ∧ state .smtr = 0

/-- The event is in the queue, among frames, and in front of them if it is not one of the
transaction machine. -/
def Due (q : List ImEvent) (ev : ImEvent) : Prop :=
  ∃ pre post, q = pre ++ ev :: post ∧ Frames pre ∧ Frames post ∧ (ev.machine ≠ .smtr → pre = [])

/-- The task waits for the device. -/
def AwaitsFrame (s : ImGobi) : Prop :=
  s.imsmp = .smtr ∧ s.state .smt = 1 ∧ (1 ≤ s.state .smfd ∧ s.state .smfd ≤ 6) ∧
    s.state .smtr = 1 ∧ Frames s.imicmsgque

/-- The task waits for an event that is queued. -/
def AwaitsEvent (s : ImGobi) (ev : ImEvent) : Prop :=
  ev.machine = s.imsmp ∧ Awaits s.state ev ∧ Due s.imicmsgque ev

/-- The invariant of a run in which no frame waits when an action hands over. -/
def Inv (s : ImGobi) : Prop :=
  match s.task with
  | .waiting => AwaitsFrame s ∨ ∃ ev, AwaitsEvent s ev
  | .acting action _ => Calls s.imsmp s.state action ∧ Frames s.imicmsgque
  | .queueing ev =>
      ev.machine = s.imsmp ∧ Awaits s.state ev ∧ Frames s.imicmsgque ∧
        (ev.machine ≠ .smtr → s.imicmsgque = [])
  | .terminated => s.Active

section Facts

variable {s : ImGobi} {q : List ImEvent} {ev : ImEvent} {state : Machines → ℕ}

theorem Awaits.active (h : Awaits state ev) (m : Machines) : state m < m.numActiveStates := by
  rcases ev with (_ | _ | _) | (_ | _ | _ | _) | (_ | _) <;> cases m <;>
    simp only [Awaits, Ready] at h <;>
    simp only [Machines.numActiveStates, StSmt.numActiveStates, StSmfd.numActiveStates,
      StSmtr.numActiveStates] <;> omega

theorem Calls.active {imsmp : Machines} {action : Action} (h : Calls imsmp state action)
    (m : Machines) : state m < m.numActiveStates := by
  cases action <;> cases m <;> simp only [Calls] at h <;>
    simp only [Machines.numActiveStates, StSmt.numActiveStates, StSmfd.numActiveStates,
      StSmtr.numActiveStates] <;> omega

theorem AwaitsFrame.active (h : AwaitsFrame s) : s.Active := by
  obtain ⟨-, hsmt, hsmfd, hsmtr, -⟩ := h
  intro m
  cases m with
  | smt => exact hsmt ▸ (by decide : 1 < StSmt.numActiveStates)
  | smfd => exact Nat.lt_of_le_of_lt hsmfd.2 (by decide)
  | smtr => exact hsmtr ▸ (by decide : 1 < StSmtr.numActiveStates)

theorem Inv.active (h : Inv s) : s.Active := by
  unfold Inv at h
  cases htask : s.task with
  | waiting =>
      simp only [htask] at h
      rcases h with h | ⟨ev, h⟩
      · exact h.active
      · exact h.2.1.active
  | acting action imrxdata =>
      simp only [htask] at h
      exact h.1.active
  | queueing ev =>
      simp only [htask] at h
      exact h.2.1.active
  | terminated =>
      simp only [htask] at h
      exact h

/-- The number of an event is one of the columns of its machine. -/
theorem number_lt (s : ImGobi) (ev : ImEvent) : ev.number < (s.sm ev.machine).evnum := by
  rcases ev with (_ | _ | _) | (_ | _ | _ | _) | (_ | _) <;>
    simp [ImEvent.number, ImEvent.machine, ImGobi.sm, Machines.sm]

theorem inside_of_active (h : s.Active) (ev : ImEvent) : (s.sm ev.machine).Inside ev.number := by
  have hstate := h ev.machine
  have hev := number_lt s ev
  generalize ev.machine = m at hstate hev
  have hrows : (s.sm m).stt.length = m.numActiveStates * (s.sm m).evnum ∧
      (s.sm m).sat.length = m.numActiveStates * (s.sm m).evnum ∧ (s.sm m).state = s.state m := by
    cases m <;> exact ⟨rfl, rfl, rfl⟩
  exact SmT.inside hrows.1 hrows.2.1 (hrows.2.2 ▸ hstate) hev

theorem Frames.append (h : Frames q) : Frames (q ++ [.trans .rxRsp]) := by
  intro ev hev
  rcases List.mem_append.mp hev with hev | hev
  · exact h ev hev
  · exact List.mem_singleton.mp hev

theorem frames_nil : Frames [] := fun _ hev => absurd hev List.not_mem_nil

theorem Due.append (h : Due q ev) : Due (q ++ [.trans .rxRsp]) ev := by
  obtain ⟨pre, post, rfl, hpre, hpost, hfront⟩ := h
  exact ⟨pre, post ++ [.trans .rxRsp], by rw [List.append_assoc, List.cons_append], hpre,
    hpost.append, hfront⟩

/-- An event that is queued behind frames is due. -/
theorem Frames.due (h : Frames q) (hfront : ev.machine ≠ .smtr → q = []) : Due (q ++ [ev]) ev :=
  ⟨q, [], rfl, h, frames_nil, hfront⟩

/-- What is taken while an event is due: the event, or a frame in front of it. -/
theorem Due.head {head : ImEvent} {rest : List ImEvent} (h : Due (head :: rest) ev) :
    (head = ev ∧ Frames rest) ∨ (head = .trans .rxRsp ∧ ev.machine = .smtr ∧ Due rest ev) := by
  obtain ⟨pre, post, hsplit, hpre, hpost, hfront⟩ := h
  cases pre with
  | nil =>
      obtain ⟨rfl, rfl⟩ := List.cons.inj hsplit
      exact .inl ⟨rfl, hpost⟩
  | cons first pre =>
      obtain ⟨rfl, rfl⟩ := List.cons.inj hsplit
      have hsmtr : ev.machine = .smtr := by
        by_contra hne
        exact absurd (hfront hne) (List.cons_ne_nil _ _)
      exact .inr ⟨hpre _ List.mem_cons_self, hsmtr, pre, post, rfl,
        fun e he => hpre e (List.mem_cons_of_mem _ he), hpost, fun hne => absurd hsmtr hne⟩

/-- What is taken has been generated for the current machine. -/
theorem Inv.runByOwn (h : Inv s) : RunByOwn s := by
  intro htask head rest hq
  have hinside := inside_of_active h.active head
  simp only [Inv, htask] at h
  have hmachine : head.machine = s.imsmp := by
    rcases h with ⟨himsmp, -, -, -, hframes⟩ | ⟨ev, himsmp, -, hdue⟩
    · rw [himsmp, hframes head (hq ▸ List.mem_cons_self)]
      rfl
    · rw [hq] at hdue
      rcases hdue.head with ⟨rfl, -⟩ | ⟨rfl, hsmtr, -⟩
      · exact himsmp
      · exact hsmtr.symm.trans himsmp
  exact ⟨hmachine, hmachine ▸ hinside⟩

end Facts

/-! ### Steps -/

section Steps

variable {s t : ImGobi} {ev : ImEvent} {rest : List ImEvent}

/-- A turn of the loop in which the machine makes a transition. -/
theorem imgobitask_transition {nextstate : ℕ} {action : Action}
    (h : ∀ udata : Udata, smrun (s.imsmp.sm (s.state s.imsmp) udata) ev.number =
      some (s.imsmp.sm nextstate udata, some (action, udata))) :
    imgobitask s ev rest =
      some { s with
        imicmsgque := rest
        state := Function.update s.state s.imsmp nextstate
        task := .acting action (s.udata s.imsmp) } := by
  have hstate : ∀ udata : Udata, (s.imsmp.sm nextstate udata).state = nextstate := by
    intro udata
    cases s.imsmp <;> rfl
  rw [imgobitask, ImGobi.sm, h]
  simp [hstate]

/-- A turn of the loop in which the event is ignored. -/
theorem imgobitask_marker
    (h : ∀ udata : Udata, smrun (s.imsmp.sm (s.state s.imsmp) udata) ev.number =
      some (s.imsmp.sm (s.state s.imsmp) udata, none)) (htask : s.task = .waiting) :
    imgobitask s ev rest = some { s with imicmsgque := rest } := by
  have hstate : ∀ udata : Udata,
      (s.imsmp.sm (s.state s.imsmp) udata).state = s.state s.imsmp := by
    intro udata
    cases s.imsmp <;> rfl
  rw [imgobitask, ImGobi.sm, h]
  simp [hstate, htask]

/-- The transitions for the event that is due. -/
def transition (state : Machines → ℕ) : ImEvent → ℕ × Action
  | .task .dldStart => (1, .imGobiFwDldStart)
  | .task _ => (2, .imGobiTaskShutdown)
  | .fwdld .start => (1, .imGobiSendHello)
  | .fwdld .error => (7, .imGobiFwDldError)
  | .fwdld .uwrtnxt => (5, .imGobiSendNextUfWrite)
  | .fwdld .rsprx =>
      match state .smfd with
      | 1 => (2, .imGobiSendGetImgPref)
      | 2 => (3, .imGobiSendFwImg)
      | 3 => (4, .imGobiSendOUfPkt)
      | 4 => (5, .imGobiSendUfWrite)
      | 5 => (6, .imGobiSendDone)
      | _ => (0, .imGobiSendDoneFinal)
  | .trans .txReq => (1, .imGobiTransTxReq)
  | .trans .rxRsp => (0, .imGobiTransRxRsp)

theorem smrun_due (h : Awaits s.state ev) (udata : Udata) :
    smrun (ev.machine.sm (s.state ev.machine) udata) ev.number =
      some (ev.machine.sm (transition s.state ev).1 udata,
        some ((transition s.state ev).2, udata)) := by
  rcases ev with (_ | _ | _) | (_ | _ | _ | _) | (_ | _)
  · obtain ⟨hsmt, -⟩ := h
    simp only [ImEvent.machine, hsmt]
    rfl
  · obtain ⟨hsmt, -⟩ := h
    simp only [ImEvent.machine, hsmt]
    rfl
  · obtain ⟨hsmt, -⟩ := h
    simp only [ImEvent.machine, hsmt]
    rfl
  · obtain ⟨-, hsmfd, -⟩ := h
    change s.state .smfd = 0 at hsmfd
    simp only [ImEvent.machine, hsmfd]
    rfl
  · obtain ⟨-, ⟨hlow, hhigh⟩, -⟩ := h
    simp only [ImEvent.machine, transition]
    generalize s.state .smfd = state at hlow hhigh
    interval_cases state <;> rfl
  · obtain ⟨-, hsmfd, -⟩ := h
    change s.state .smfd = 5 at hsmfd
    simp only [ImEvent.machine, hsmfd]
    rfl
  · obtain ⟨-, ⟨hlow, hhigh⟩, -⟩ := h
    simp only [ImEvent.machine, transition]
    generalize s.state .smfd = state at hlow hhigh
    interval_cases state <;> rfl
  · obtain ⟨-, -, hsmtr⟩ := h
    simp only [ImEvent.machine, hsmtr]
    rfl
  · exact h.elim

/-- The action that is called for the event that is due. -/
theorem calls_due (h : Awaits s.state ev) :
    Calls ev.machine (Function.update s.state ev.machine (transition s.state ev).1)
      (transition s.state ev).2 := by
  rcases ev with (_ | _ | _) | (_ | _ | _ | _) | (_ | _)
  · obtain ⟨-, hsmfd, hsmtr⟩ := h
    exact ⟨rfl, rfl, hsmfd, hsmtr⟩
  · obtain ⟨-, hsmfd, hsmtr⟩ := h
    exact ⟨rfl, rfl, hsmfd, hsmtr⟩
  · obtain ⟨-, hsmfd, hsmtr⟩ := h
    exact ⟨rfl, rfl, hsmfd, hsmtr⟩
  · obtain ⟨hsmt, -, hsmtr⟩ := h
    exact ⟨rfl, hsmt, rfl, hsmtr⟩
  · obtain ⟨hsmt, ⟨hlow, hhigh⟩, hsmtr⟩ := h
    simp only [ImEvent.machine, transition]
    generalize hstate : s.state .smfd = state at hlow hhigh
    interval_cases state <;> exact ⟨rfl, hsmt, rfl, hsmtr⟩
  · obtain ⟨hsmt, -, hsmtr⟩ := h
    exact ⟨rfl, hsmt, rfl, hsmtr⟩
  · obtain ⟨hsmt, -, hsmtr⟩ := h
    exact ⟨rfl, hsmt, rfl, hsmtr⟩
  · obtain ⟨hsmt, hsmfd, -⟩ := h
    exact ⟨rfl, hsmt, hsmfd, rfl⟩
  · exact h.elim

/-- An event that is taken. -/
theorem inv_imgobitask (h : Inv s) (htask : s.task = .waiting)
    (hq : s.imicmsgque = ev :: rest) (ht : imgobitask s ev rest = some t) : Inv t := by
  simp only [Inv, htask] at h
  rcases h with ⟨himsmp, hsmt, hsmfd, hsmtr, hframes⟩ | ⟨due, himsmp, hawaits, hdue⟩
  · -- the frame that the transaction machine waits for
    have hev : ev = .trans .rxRsp := hframes ev (hq ▸ List.mem_cons_self)
    have hrest : Frames rest := fun e he => hframes e (hq ▸ List.mem_cons_of_mem ev he)
    rw [@imgobitask_transition s ev rest 0 .imGobiTransRxRsp
      (fun udata => by rw [himsmp, hsmtr, hev]; rfl)] at ht
    obtain rfl := Option.some.inj ht
    refine ⟨⟨himsmp, ?_, ?_, ?_⟩, hrest⟩
    · rw [himsmp]
      exact hsmt
    · rw [himsmp]
      exact hsmfd
    · rw [himsmp]
      rfl
  · rw [hq] at hdue
    rcases hdue.head with ⟨rfl, hrest⟩ | ⟨rfl, hmachine, hdue⟩
    · rw [imgobitask_transition (fun udata => himsmp ▸ smrun_due hawaits udata)] at ht
      obtain rfl := Option.some.inj ht
      exact ⟨himsmp ▸ calls_due hawaits, hrest⟩
    · -- a frame in front of a request is ignored
      rw [hmachine] at himsmp
      have hsmtr : s.state .smtr = 0 := by
        rcases due with _ | _ | (_ | _)
        · exact Machines.noConfusion hmachine
        · exact Machines.noConfusion hmachine
        · exact hawaits.2.2
        · exact hawaits.elim
      rw [imgobitask_marker (fun udata => by rw [← himsmp, hsmtr]; rfl) htask] at ht
      obtain rfl := Option.some.inj ht
      simp only [Inv, htask]
      exact .inr ⟨due, hmachine.trans himsmp, hawaits, hdue⟩

theorem requesting {state : Machines → ℕ} {n : ℕ} (h : state .smfd = n) (hn : 1 ≤ n ∧ n ≤ 6) :
    1 ≤ state .smfd ∧ state .smfd ≤ 6 := h ▸ hn

/-- The action hands over to another machine, or keeps its own, with nothing in the queue. -/
theorem inv_handedOver (htask : t.task = .queueing ev) (hmachine : ev.machine = t.imsmp)
    (hawaits : Awaits t.state ev) (hq : t.imicmsgque = []) : Inv t := by
  simp only [Inv, htask]
  exact ⟨hmachine, hawaits, hq ▸ frames_nil, fun _ => hq⟩

/-- A request is handed over to the transaction machine. -/
theorem inv_imGobiTransSendReq {data : List UInt8} {sendpktfn : SendPktFn}
    (hsmt : s.state .smt = 1) (hsmfd : 1 ≤ s.state .smfd ∧ s.state .smfd ≤ 6)
    (hsmtr : s.state .smtr = 0) (hframes : Frames s.imicmsgque) :
    Inv (imGobiTransSendReq data sendpktfn s) :=
  ⟨rfl, ⟨hsmt, hsmfd, hsmtr⟩, hframes, fun hne => absurd rfl hne⟩

theorem inv_wrtGobiQdlImgBlck {sequenceNumber : UInt16} {offset blockSize : UInt32}
    (hsmt : s.state .smt = 1) (hsmfd : 1 ≤ s.state .smfd ∧ s.state .smfd ≤ 6)
    (hsmtr : s.state .smtr = 0) (hframes : Frames s.imicmsgque)
    (ht : wrtGobiQdlImgBlck sequenceNumber offset blockSize s = some t) : Inv t := by
  obtain ⟨data, -, rfl⟩ := Option.map_eq_some_iff.mp ht
  exact inv_imGobiTransSendReq hsmt hsmfd hsmtr hframes

section Calls

variable {imrxdata : Udata} {w : World} {action : Action}

theorem inv_imGobiTransRxRsp (h : Calls s.imsmp s.state .imGobiTransRxRsp)
    (hq : s.imicmsgque = []) (ht : imGobiTransRxRsp imrxdata w s = some t) : Inv t := by
  obtain ⟨-, hsmt, hsmfd, hsmtr⟩ := h
  cases imrxdata with
  | null => exact absurd ht (Option.some_ne_none t).symm
  | message bytes => exact absurd ht (Option.some_ne_none t).symm
  | datapkt =>
      obtain ⟨⟨hdr, imsm⟩, -, ht⟩ := Option.bind_eq_some_iff.mp ht
      obtain ⟨psdp, -, rfl⟩ := Option.map_eq_some_iff.mp ht
      refine inv_handedOver rfl rfl ⟨hsmt, ?_, hsmtr⟩ hq
      change Ready (rspEvent .rsprx (psdp.getD 0 0) (s.state .smfd)) (s.state .smfd)
      rw [rspEvent]
      split_ifs with herror hstate
      · exact hsmfd
      · exact hstate
      · exact hsmfd

theorem inv_imGobiSendUfWrite (h : Calls s.imsmp s.state .imGobiSendUfWrite)
    (hframes : Frames s.imicmsgque)
    (htimely : HandsOver imrxdata w s .imGobiSendUfWrite = true → s.imicmsgque = [])
    (ht : imGobiSendUfWrite imrxdata w s = some t) : Inv t := by
  obtain ⟨himsmp, hsmt, hsmfd, hsmtr⟩ := h
  obtain ⟨psdp, hbytes, ht⟩ := Option.bind_eq_some_iff.mp ht
  obtain ⟨rCode, hrCode, ht⟩ := Option.bind_eq_some_iff.mp ht
  have hhands : HandsOver imrxdata w s .imGobiSendUfWrite =
      decide (rCode.toUInt32 ≠ ssdpOpenUnframedStatusOk) := by
    simp [HandsOver, hbytes, hrCode]
  split_ifs at ht with hok hskip hmapped
  · -- the device does not need the image
    have hq := htimely (hhands.trans (decide_eq_true hok))
    obtain rfl := Option.some.inj ht
    refine inv_handedOver rfl himsmp.symm ⟨hsmt, ?_, hsmtr⟩ hq
    change Ready .rsprx (if s.qdl.nextimageidx + 1 < s.qdl.gobimgs2dwld.length then 3 else 5)
    split_ifs
    · exact ⟨by decide, by decide⟩
    · exact ⟨by decide, by decide⟩
  · have hq := htimely (hhands.trans (decide_eq_true hok))
    obtain rfl := Option.some.inj ht
    exact inv_handedOver rfl himsmp.symm ⟨hsmt, by simp only [Ready, hsmfd]; decide, hsmtr⟩ hq
  · unfold writeFirst at ht
    refine inv_wrtGobiQdlImgBlck ?_ ?_ ?_ ?_ ht
    exacts [hsmt, requesting hsmfd (by decide), hsmtr, hframes]

theorem inv_imGobiSendNextUfWrite (h : Calls s.imsmp s.state .imGobiSendNextUfWrite)
    (hframes : Frames s.imicmsgque)
    (htimely : HandsOver imrxdata w s .imGobiSendNextUfWrite = true → s.imicmsgque = [])
    (ht : imGobiSendNextUfWrite imrxdata w s = some t) : Inv t := by
  obtain ⟨himsmp, hsmt, hsmfd, hsmtr⟩ := h
  have herror : s.imicmsgque = [] → Inv { s with task := .queueing (.fwdld .error) } := fun hq =>
    inv_handedOver rfl himsmp.symm ⟨hsmt, by simp only [Ready, hsmfd]; decide, hsmtr⟩ hq
  unfold imGobiSendNextUfWrite at ht
  cases hbytes : imrxdata.bytes s w with
  | none =>
      simp only [hbytes] at ht
      obtain rfl := Option.some.inj ht
      exact herror (htimely (by simp [HandsOver, hbytes]))
  | some psdp =>
      simp only [hbytes] at ht
      split_ifs at ht with hstatus hdone hmapped
      · obtain rfl := Option.some.inj ht
        exact herror (htimely (by simp [HandsOver, hbytes, hstatus]))
      · -- all blocks of the image are written
        obtain rfl := Option.some.inj ht
        refine inv_handedOver rfl himsmp.symm ?_ (htimely (by simp [HandsOver, hbytes, hdone]))
        change Awaits (if s.qdl.nextimageidx + 1 < s.qdl.gobimgs2dwld.length then
          Function.update s.state .smfd StSmfd.sendFwimg else s.state) (.fwdld .rsprx)
        split_ifs
        · exact ⟨hsmt, by simp [Ready, StSmfd.sendFwimg], hsmtr⟩
        · exact ⟨hsmt, by simp only [Ready, hsmfd]; decide, hsmtr⟩
      · unfold writeNext at ht
        refine inv_wrtGobiQdlImgBlck ?_ ?_ ?_ ?_ ht
        exacts [hsmt, requesting hsmfd (by decide), hsmtr, hframes]

/-- An action that is called in the right state. -/
theorem inv_call (h : Calls s.imsmp s.state action) (hframes : Frames s.imicmsgque)
    (htimely : HandsOver imrxdata w s action = true → s.imicmsgque = [])
    (ht : (call imrxdata w s action).1 = some t) : Inv t := by
  cases action with
  | imGobiTransTxReq =>
      obtain ⟨himsmp, hsmt, hsmfd, hsmtr⟩ := h
      cases imrxdata with
      | null => exact absurd ht (Option.some_ne_none t).symm
      | message bytes => exact absurd ht (Option.some_ne_none t).symm
      | datapkt =>
          obtain rfl := Option.some.inj ht
          exact .inl ⟨himsmp, hsmt, hsmfd, hsmtr, hframes⟩
  | imGobiTransRxRsp => exact inv_imGobiTransRxRsp h (htimely rfl) ht
  | imerror => exact h.elim
  | imGobiSendHello =>
      obtain ⟨-, hsmt, hsmfd, hsmtr⟩ := h
      obtain rfl := Option.some.inj ht
      exact inv_imGobiTransSendReq hsmt (requesting hsmfd (by decide)) hsmtr hframes
  | imGobiSendGetImgPref =>
      obtain ⟨-, hsmt, hsmfd, hsmtr⟩ := h
      obtain rfl := Option.some.inj ht
      exact inv_imGobiTransSendReq hsmt (requesting hsmfd (by decide)) hsmtr hframes
  | imGobiSendFwImg =>
      obtain ⟨himsmp, hsmt, hsmfd, hsmtr⟩ := h
      obtain rfl := Option.some.inj ht
      refine inv_handedOver rfl himsmp.symm ⟨hsmt, ?_, hsmtr⟩ (htimely rfl)
      change Ready _ (s.state .smfd)
      rw [hsmfd]
      split_ifs
      · exact ⟨by decide, by decide⟩
      · exact ⟨by decide, by decide⟩
  | imGobiSendOUfPkt =>
      obtain ⟨-, hsmt, hsmfd, hsmtr⟩ := h
      change imGobiSendOUfPkt s = some t at ht
      rw [imGobiSendOUfPkt] at ht
      split_ifs at ht
      obtain ⟨file, -, rfl⟩ := Option.map_eq_some_iff.mp ht
      exact inv_imGobiTransSendReq hsmt (requesting hsmfd (by decide)) hsmtr hframes
  | imGobiSendUfWrite => exact inv_imGobiSendUfWrite h hframes htimely ht
  | imGobiSendDone =>
      obtain ⟨-, hsmt, hsmfd, hsmtr⟩ := h
      obtain rfl := Option.some.inj ht
      exact inv_imGobiTransSendReq hsmt (requesting hsmfd (by decide)) hsmtr hframes
  | imGobiSendNextUfWrite => exact inv_imGobiSendNextUfWrite h hframes htimely ht
  | imGobiSendDoneFinal =>
      obtain ⟨-, hsmt, hsmfd, hsmtr⟩ := h
      have hlt : s.state .smfd < 8 := by omega
      have hawaits : ∀ ev : ImtEvent, ev ≠ .dldStart → Inv (imGobiTaskRspCbk ev s) := by
        intro ev hev
        refine inv_handedOver rfl rfl ?_ (htimely rfl)
        cases ev with
        | dldStart => exact absurd rfl hev
        | dldComp => exact ⟨hsmt, hlt, hsmtr⟩
        | dldFail => exact ⟨hsmt, hlt, hsmtr⟩
      change (imGobiSendDoneFinal imrxdata w s).1 = some t at ht
      rw [imGobiSendDoneFinal] at ht
      split at ht
      · exact absurd ht (Option.some_ne_none t).symm
      · obtain rfl := Option.some.inj ht
        exact hawaits .dldFail ImtEvent.noConfusion
      · obtain rfl := Option.some.inj ht
        exact hawaits .dldComp ImtEvent.noConfusion
  | imGobiFwDldError =>
      obtain ⟨-, hsmt, hsmfd, hsmtr⟩ := h
      have hlt : s.state .smfd < 8 := by omega
      obtain rfl := Option.some.inj ht
      exact inv_handedOver rfl rfl ⟨hsmt, hlt, hsmtr⟩ (htimely rfl)
  | imGobiFwDldStart =>
      obtain ⟨-, hsmt, hsmfd, hsmtr⟩ := h
      obtain rfl := Option.some.inj ht
      exact inv_handedOver rfl rfl ⟨hsmt, hsmfd, hsmtr⟩ (htimely rfl)
  | imGobiTaskShutdown =>
      obtain rfl := Option.some.inj ht
      exact h.active

end Calls

/-- Storing a frame leaves the invariant alone. -/
theorem inv_imGobiRxpkt {imbuf : List UInt8} (h : Inv s) : Inv (imGobiRxpkt imbuf s) := by
  unfold Inv AwaitsFrame AwaitsEvent at h ⊢
  exact h

/-- The event of a frame is queued. -/
theorem inv_notify (h : Inv s) (htimely : ∀ ev, s.task = .queueing ev → ev.machine = .smtr)
    (hq : t.imicmsgque = s.imicmsgque ++ [.trans .rxRsp]) (htask : t.task = s.task)
    (hstate : t.state = s.state) (himsmp : t.imsmp = s.imsmp) : Inv t := by
  unfold Inv at h ⊢
  rw [htask]
  cases hcase : s.task with
  | waiting =>
      simp only [hcase] at h ⊢
      rcases h with ⟨hm, hsmt, hsmfd, hsmtr, hframes⟩ | ⟨ev, hm, hawaits, hdue⟩
      · exact .inl ⟨himsmp ▸ hm, hstate ▸ hsmt, hstate ▸ hsmfd, hstate ▸ hsmtr,
          hq ▸ hframes.append⟩
      · exact .inr ⟨ev, himsmp ▸ hm, hstate ▸ hawaits, hq ▸ hdue.append⟩
  | acting action imrxdata =>
      simp only [hcase] at h ⊢
      exact ⟨himsmp ▸ hstate ▸ h.1, hq ▸ h.2.append⟩
  | queueing ev =>
      simp only [hcase] at h ⊢
      exact ⟨himsmp ▸ h.1, hstate ▸ h.2.1, hq ▸ h.2.2.1.append,
        fun hne => absurd (htimely ev hcase) hne⟩
  | terminated =>
      simp only [hcase] at h ⊢
      exact fun m => hstate ▸ h m

theorem imGobiQevt_some (ht : imGobiQevt ev s = some t) :
    t = { s with imicmsgque := s.imicmsgque ++ [ev] } := by
  rw [imGobiQevt] at ht
  split_ifs at ht
  exact (Option.some.inj ht).symm

/-- A move keeps the invariant. -/
theorem inv_move {m : Move} (h : Inv s) (htimely : Timely (some s) m)
    (ht : (move s m).1 = some t) : Inv t := by
  cases m with
  | store imbuf =>
      obtain rfl := Option.some.inj ht
      split_ifs
      · exact h
      · exact inv_imGobiRxpkt h
  | notify =>
      change (if s.received then _ else _) = some t at ht
      split_ifs at ht with hreceived
      · obtain rfl := imGobiQevt_some ht
        exact inv_notify h (htimely hreceived) rfl rfl rfl rfl
      · exact Option.some.inj ht ▸ h
  | take =>
      cases htask : s.task with
      | waiting =>
          cases hq : s.imicmsgque with
          | nil =>
              simp only [move, htask, hq] at ht
              exact Option.some.inj ht ▸ h
          | cons ev rest =>
              simp only [move, htask, hq] at ht
              exact inv_imgobitask h htask hq ht
      | acting action imrxdata =>
          simp only [move, htask] at ht
          exact Option.some.inj ht ▸ h
      | queueing ev =>
          simp only [move, htask] at ht
          exact Option.some.inj ht ▸ h
      | terminated =>
          simp only [move, htask] at ht
          exact Option.some.inj ht ▸ h
  | act w =>
      cases htask : s.task with
      | acting action imrxdata =>
          simp only [move, htask] at ht
          simp only [Inv, htask] at h
          exact inv_call h.1 h.2 (htimely action imrxdata htask) ht
      | waiting =>
          simp only [move, htask] at ht
          exact Option.some.inj ht ▸ h
      | queueing ev =>
          simp only [move, htask] at ht
          exact Option.some.inj ht ▸ h
      | terminated =>
          simp only [move, htask] at ht
          exact Option.some.inj ht ▸ h
  | queue =>
      cases htask : s.task with
      | queueing ev =>
          simp only [move, htask] at ht
          obtain rfl := imGobiQevt_some ht
          simp only [Inv, htask] at h
          exact .inr ⟨ev, h.1, h.2.1, h.2.2.1.due h.2.2.2⟩
      | waiting =>
          simp only [move, htask] at ht
          exact Option.some.inj ht ▸ h
      | acting action imrxdata =>
          simp only [move, htask] at ht
          exact Option.some.inj ht ▸ h
      | terminated =>
          simp only [move, htask] at ht
          exact Option.some.inj ht ▸ h

end Steps

section Runs

variable (datapkt : ImDatapkt) (hdr : HdRxCtlBk) (qdl : GobiQdl)

theorem inv_start : Inv (start datapkt hdr qdl) :=
  .inr ⟨.task .dldStart, rfl, ⟨rfl, rfl, rfl⟩, [], [], rfl, frames_nil, frames_nil, fun _ => rfl⟩

/-- The invariant of a run, which may have come to its end. -/
def RunInv (s : Option ImGobi) : Prop := ∀ t, s = some t → Inv t

theorem runInv_step {s : Option ImGobi} {m : Move} (h : RunInv s) (htimely : Timely s m) :
    RunInv (step s m).1 := by
  intro t ht
  cases s with
  | none => exact absurd ht (Option.some_ne_none t).symm
  | some s => exact inv_move (h s rfl) htimely ht

theorem routed_of_runInv {s : Option ImGobi} {m : Move} (h : RunInv s) : Routed s m := by
  cases s with
  | none => trivial
  | some s => exact ⟨(h s rfl).active, fun _ => (h s rfl).runByOwn⟩

/-- If no frame waits when an action hands over to the task machine or the download machine, every
event is run by the machine that it is generated for, all states are active, and the tables are
read inside. -/
theorem routed_of_timely (moves : List Move)
    (h : Machine.Meets step Timely (some (start datapkt hdr qdl)) moves) :
    Machine.Meets step Routed (some (start datapkt hdr qdl)) moves ∧
      ∀ t, Machine.after step (some (start datapkt hdr qdl)) moves = some t → t.Active := by
  have hstart : RunInv (some (start datapkt hdr qdl)) := by
    intro t ht
    exact Option.some.inj ht ▸ inv_start datapkt hdr qdl
  refine ⟨Machine.meets_of_invariant (I := RunInv) (fun _ _ => runInv_step)
    (fun _ _ hs _ => routed_of_runInv hs) hstart h, ?_⟩
  have hafter : RunInv (Machine.after step (some (start datapkt hdr qdl)) moves) := by
    generalize some (start datapkt hdr qdl) = s at hstart h
    induction moves generalizing s with
    | nil => exact hstart
    | cons m moves ih => exact ih _ (runInv_step hstart h.1) h.2
  exact fun t ht => (hafter t ht).active

end Runs

/-! ### The response to the hello request -/

/-- Nothing lies behind a message, there are no images, and files can be mapped. -/
def emptyWorld : World := ⟨[], 0, fun _ => [], true⟩

/-- Nothing is left of an earlier download. -/
def noPkt : ImDatapkt := ⟨[], .imsendframed⟩
def noImages : GobiQdl := ⟨⟨0, 0, 0, 0, 0, 0, 0, 0⟩, 0, 0, [], 0⟩
def fresh : ImGobi := start noPkt hdrxreset noImages

/-- The task sends the hello request. -/
def helloSent : List Move :=
  [.take, .act emptyWorld, .queue, .take, .act emptyWorld, .queue, .take, .act emptyWorld]

/-- A frame with a response to the hello request. -/
def helloFrame : List UInt8 := [0x7e, 0x02, 0x31, 0x32, 0x7e]

/-- The device answers the hello request once. -/
theorem routed_helloFrame :
    Machine.Meets step Routed (some fresh) (helloSent ++ [.store helloFrame, .notify, .take]) ∧
      ∀ t, Machine.after step (some fresh) (helloSent ++ [.store helloFrame, .notify, .take]) =
        some t → t.Active := by
  refine routed_of_timely noPkt hdrxreset noImages _ ?_
  refine ⟨trivial, fun _ _ _ _ => rfl, trivial, trivial, fun _ _ _ _ => rfl, trivial, trivial,
    fun _ _ _ _ => rfl, trivial, ?_, trivial, trivial⟩
  exact fun _ ev htask => Task.noConfusion htask

/-- The device answers the hello request twice. -/
def answeredTwice : List Move :=
  helloSent ++ [.store helloFrame, .notify, .store helloFrame, .notify, .take, .act emptyWorld,
    .queue]

/-- The event of the second frame is run by the download machine. -/
theorem not_routed_secondFrame :
    ¬ ∀ (datapkt : ImDatapkt) (hdr : HdRxCtlBk) (qdl : GobiQdl) (moves : List Move),
      Machine.Meets step Routed (some (start datapkt hdr qdl)) moves := by
  intro hall
  have hrouted := Machine.meets_iff.mp (hall noPkt hdrxreset noImages (answeredTwice ++ [.take]))
    answeredTwice .take [] rfl
  have hstate : (Machine.after step (some fresh) answeredTwice).map
      (fun t => (t.task, t.imicmsgque, t.imsmp)) =
        some (.waiting, [.trans .rxRsp, .fwdld .rsprx], .smfd) := by
    decide
  obtain ⟨t, ht, hfields⟩ := Option.map_eq_some_iff.mp hstate
  obtain ⟨htask, hrest⟩ := Prod.mk.inj hfields
  obtain ⟨hq, himsmp⟩ := Prod.mk.inj hrest
  have hroutedt : Routed (some t) .take := ht ▸ hrouted
  obtain ⟨hmachine, -⟩ := hroutedt.2 rfl htask _ _ hq
  exact Machines.noConfusion (hmachine.trans himsmp)

end Gobi

end Im

end SierraSdk
