import SierraSdk.Library.Machine
import SierraSdk.Ql.Link
import Mathlib.Data.UInt

/-!
# Modem state changes

Packages of the SDK register with the HPPH task for changes of the modem's state. Each brings a handle,
which the task links into a queue. A registrant is called when it is registered, so that it knows
the state, and then whenever the US package reports a change. The task counts the changes in an era
number, which the applications are sent with each of them.

A handle is registered once. Linking it in again would cut the queue off behind it.
-/

namespace SierraSdk

namespace Sdk

namespace ModemState

open Machine Ql

/-- `HPMDMVALIDATER` -/
def hpMdmValidater : UInt32 := 0xbeefcafe

inductive HpMdmState where
  | hpMdmOffline
  | hpMdmOnline
  deriving DecidableEq

variable {H C P D : Type}

/-- What a registrant is told: the state of the modem, whether it is executing its application, and
its type, which is `none` while there is no modem. -/
structure MdmCall (D : Type) where
  modemstate : HpMdmState
  apprunning : Bool
  devtype : Option D

/-- The handle of a registrant: the token of the task, the callback and the parameter for it. -/
structure HpMdmRegHndl (C P : Type) where
  hpmdmvalid : UInt32
  hpmdmcbfp : C
  hpmdmuser : P

/-- The part of the HPPH task that deals with the state of the modem. The link `none` is the head of
the queue; the others are those in the handles. `registered` is not in the source: it counts the
registrations, and bounds the loop over the queue. -/
structure Hpph (H C P : Type) where
  hpmdmreg : QlMemory (Option H) (Option H)
  hndl : H → HpMdmRegHndl C P
  hpmdmapprunning : Bool
  hpairserverpresent : Bool
  hpairchgera : UInt32
  registered : ℕ

/-- The events, with what `ddgetdevtype` returns while they are processed. -/
inductive HpphEvent (H C P D : Type) where
  | hpmdmchgreq (hndlp : H) (cbfp : C) (userp : P) (devtype : Option D)
  | hpphairchg (status apprunning : Bool) (devtype notifytype : Option D)

/-- What the applications are sent. -/
structure AirChange (D : Type) where
  devtype : Option D
  status : Bool
  apprunning : Bool
  era : UInt32

inductive HpphOutput (H C P D : Type) where
  | callback (hndlp : H) (cbfp : C) (userp : P) (call : MdmCall D)
  | notification (change : AirChange D)
  | abort (queuepos : ℕ)

def mdmStateOf (online : Bool) : HpMdmState := if online then .hpMdmOnline else .hpMdmOffline

variable [DecidableEq H]

/-- What `hpphinit` does to these parts, in a memory with any contents. -/
def hpphinit (s : Hpph H C P) : Hpph H C P :=
  { s with
    hpmdmreg := s.hpmdmreg.qlinitlnk none none
    hpmdmapprunning := false
    hpairserverpresent := false
    hpairchgera := 0
    registered := 0 }

def hpprocmdmreg (s : Hpph H C P) (hndlp : H) (cbfp : C) (userp : P) (devtype : Option D) :
    Hpph H C P × List (HpphOutput H C P D) :=
  ({ s with
      hpmdmreg := (s.hpmdmreg.qlinitlnk (some hndlp) (some hndlp)).qladdprev none (some hndlp)
      hndl := Function.update s.hndl hndlp ⟨hpMdmValidater, cbfp, userp⟩
      registered := s.registered + 1 },
    [.callback hndlp cbfp userp ⟨mdmStateOf devtype.isSome, s.hpmdmapprunning, devtype⟩])

omit [DecidableEq H] in
/-- The loop of `hpmdmkick`. A handle without the token is fatal. -/
def kickLoop (s : Hpph H C P) (call : MdmCall D) :
    ℕ → Option H → ℕ → List (HpphOutput H C P D)
  | 0, _, _ => []
  | n + 1, curlinkp, queuepos =>
      match s.hpmdmreg.qlgetnext curlinkp with
      | none => []
      | some hndlp =>
          if (s.hndl hndlp).hpmdmvalid = hpMdmValidater then
            .callback hndlp (s.hndl hndlp).hpmdmcbfp (s.hndl hndlp).hpmdmuser call ::
              kickLoop s call n (some hndlp) (queuepos + 1)
          else [.abort (queuepos + 1)]

omit [DecidableEq H] in
def hpmdmkick (s : Hpph H C P) (call : MdmCall D) : Hpph H C P × List (HpphOutput H C P D) :=
  ({ s with hpmdmapprunning := call.apprunning }, kickLoop s call (s.registered + 1) none 0)

omit [DecidableEq H] in
def hpprocairchg (s : Hpph H C P) (status apprunning : Bool) (devtype notifytype : Option D) :
    Hpph H C P × List (HpphOutput H C P D) :=
  let s := { s with hpairserverpresent := status, hpairchgera := s.hpairchgera + 1 }
  let kicked := hpmdmkick s ⟨mdmStateOf status, apprunning, devtype⟩
  (kicked.1, kicked.2 ++ [.notification ⟨notifytype, status, apprunning, s.hpairchgera⟩])

def hpphstep (s : Hpph H C P) : HpphEvent H C P D → Hpph H C P × List (HpphOutput H C P D)
  | .hpmdmchgreq hndlp cbfp userp devtype => hpprocmdmreg s hndlp cbfp userp devtype
  | .hpphairchg status apprunning devtype notifytype =>
      hpprocairchg s status apprunning devtype notifytype

section Registrants

/-- A registrant: its handle, its callback and the parameter for it. -/
structure Registrant (H C P : Type) where
  hndlp : H
  cbfp : C
  userp : P

/-- The call of a registrant. -/
def Registrant.call (r : Registrant H C P) (call : MdmCall D) : HpphOutput H C P D :=
  .callback r.hndlp r.cbfp r.userp call

/-- The queue of the task has these registrants, in this order. -/
structure Registered (s : Hpph H C P) (regs : List (Registrant H C P)) : Prop where
  linked : Linked s.hpmdmreg none (regs.map fun r => some r.hndlp)
  head : (s.hpmdmreg none).qluserp = none
  user : ∀ r ∈ regs, (s.hpmdmreg (some r.hndlp)).qluserp = some r.hndlp
  hndl : ∀ r ∈ regs, s.hndl r.hndlp = ⟨hpMdmValidater, r.cbfp, r.userp⟩
  count : s.registered = regs.length

variable {s : Hpph H C P} {regs : List (Registrant H C P)}

theorem registered_hpphinit (s : Hpph H C P) : Registered (hpphinit s) [] where
  linked := linked_qlinitlnk none
  head := by simp [hpphinit, QlMemory.qlinitlnk]
  user r hr := absurd hr List.not_mem_nil
  hndl r hr := absurd hr List.not_mem_nil
  count := rfl

omit [DecidableEq H] in
theorem Registered.congr {s' : Hpph H C P} (h : Registered s regs)
    (hreg : s'.hpmdmreg = s.hpmdmreg) (hhndl : s'.hndl = s.hndl)
    (hcount : s'.registered = s.registered) : Registered s' regs := by
  obtain ⟨hlinked, hhead, huser, hvalid, hlength⟩ := h
  constructor
  · rwa [hreg]
  · rwa [hreg]
  · rwa [hreg]
  · rwa [hhndl]
  · rwa [hcount]

/-- A handle that is not in the queue is put at its end. -/
theorem Registered.hpprocmdmreg (h : Registered s regs) {r : Registrant H C P}
    (hnew : ∀ r' ∈ regs, r'.hndlp ≠ r.hndlp) (devtype : Option D) :
    Registered (hpprocmdmreg s r.hndlp r.cbfp r.userp devtype).1 (regs ++ [r]) := by
  have hnotMem : some r.hndlp ∉ none :: regs.map fun r => some r.hndlp := by
    rintro hmem
    rcases List.mem_cons.mp hmem with heq | hmem
    · exact absurd heq (Option.some_ne_none _)
    · obtain ⟨r', hr', heq⟩ := List.mem_map.mp hmem
      exact hnew r' hr' (Option.some.inj heq)
  have hother : ∀ a ≠ some r.hndlp,
      s.hpmdmreg.qlinitlnk (some r.hndlp) (some r.hndlp) a = s.hpmdmreg a := fun a ha =>
    Function.update_of_ne ha _ _
  have hlinked : Linked (s.hpmdmreg.qlinitlnk (some r.hndlp) (some r.hndlp)) none
      (regs.map fun r => some r.hndlp) :=
    h.linked.congr fun a ha => hother a (ne_of_mem_of_not_mem ha hnotMem)
  have hring := hlinked.qladdprev hnotMem
  constructor
  · rw [List.map_append]
    exact hring
  · change ((s.hpmdmreg.qlinitlnk _ _).qladdprev none _ none).qluserp = none
    rw [qladdprev_qluserp, hother none (Option.some_ne_none _).symm, h.head]
  · intro r' hr'
    change ((s.hpmdmreg.qlinitlnk _ _).qladdprev none _ _).qluserp = _
    rw [qladdprev_qluserp]
    rcases List.mem_append.mp hr' with hmem | hmem
    · rw [hother _ fun heq => hnew r' hmem (Option.some.inj heq), h.user r' hmem]
    · obtain rfl := List.mem_singleton.mp hmem
      rw [QlMemory.qlinitlnk, Function.update_self]
  · intro r' hr'
    change Function.update s.hndl r.hndlp _ r'.hndlp = _
    rcases List.mem_append.mp hr' with hmem | hmem
    · rw [Function.update_of_ne (hnew r' hmem), h.hndl r' hmem]
    · obtain rfl := List.mem_singleton.mp hmem
      rw [Function.update_self]
  · rw [List.length_append, ← h.count]
    rfl

omit [DecidableEq H] in
/-- The rest of the queue is called, from behind a link on. -/
theorem kickLoop_eq (h : Registered s regs) (call : MdmCall D) {front rest : List (Registrant H C P)}
    (hsplit : regs = front ++ rest) {curlinkp : Option H}
    (hnext : s.hpmdmreg.next curlinkp = (rest.map fun r => some r.hndlp).headD none) {n : ℕ}
    (hn : rest.length < n) (queuepos : ℕ) :
    kickLoop s call n curlinkp queuepos = rest.map fun r => r.call call := by
  induction rest generalizing front curlinkp n queuepos with
  | nil =>
      obtain ⟨m, rfl⟩ := Nat.exists_eq_add_one_of_ne_zero (Nat.ne_zero_of_lt hn)
      have hget : s.hpmdmreg.qlgetnext curlinkp = none :=
        (congrArg (fun a => (s.hpmdmreg a).qluserp) hnext).trans h.head
      rw [kickLoop, hget]
      rfl
  | cons r rest ih =>
      obtain ⟨m, rfl⟩ := Nat.exists_eq_add_one_of_ne_zero (Nat.ne_zero_of_lt hn)
      have hr : r ∈ regs := by
        rw [hsplit]
        exact List.mem_append_right _ List.mem_cons_self
      have hget : s.hpmdmreg.qlgetnext curlinkp = some r.hndlp :=
        (congrArg (fun a => (s.hpmdmreg a).qluserp) hnext).trans (h.user r hr)
      have hlinked := h.linked
      rw [hsplit, List.map_append, List.map_cons] at hlinked
      have hfront : regs = (front ++ [r]) ++ rest := by rw [hsplit, List.append_assoc]; rfl
      have hloop := ih hfront hlinked.next_eq (Nat.lt_of_succ_lt_succ hn) (queuepos + 1)
      rw [kickLoop, hget]
      simp only [h.hndl r hr, if_true, hloop]
      rfl

omit [DecidableEq H] in
theorem hpmdmkick_outputs (h : Registered s regs) (call : MdmCall D) :
    (hpmdmkick s call).2 = regs.map fun r => r.call call :=
  kickLoop_eq h call (List.nil_append regs).symm h.linked.next_head
    (by rw [h.count]; exact Nat.lt_succ_self _) 0

end Registrants

/-! ### The board of registrants -/

/-- What the task is for: the registrants in order, whether the modem is executing its application,
as far as was reported, and the number of the last change. -/
structure Board (H C P : Type) where
  regs : List (Registrant H C P)
  apprunning : Bool
  era : UInt32

namespace Board

def empty : Board H C P := ⟨[], false, 0⟩

omit [DecidableEq H] in
/-- A registrant is called at once. All of them are called for a change, and the applications are
told. -/
def step (b : Board H C P) : HpphEvent H C P D → Board H C P × List (HpphOutput H C P D)
  | .hpmdmchgreq hndlp cbfp userp devtype =>
      ({ b with regs := b.regs ++ [⟨hndlp, cbfp, userp⟩] },
        [.callback hndlp cbfp userp ⟨mdmStateOf devtype.isSome, b.apprunning, devtype⟩])
  | .hpphairchg status apprunning devtype notifytype =>
      ({ b with apprunning := apprunning, era := b.era + 1 },
        (b.regs.map fun r => r.call ⟨mdmStateOf status, apprunning, devtype⟩) ++
          [.notification ⟨notifytype, status, apprunning, b.era + 1⟩])

/-- The handle of a registration is none of those that are there. -/
def Fresh (b : Board H C P) : HpphEvent H C P D → Prop
  | .hpmdmchgreq hndlp _ _ _ => ∀ r ∈ b.regs, r.hndlp ≠ hndlp
  | .hpphairchg .. => True

end Board

/-- The task has what is on the board. -/
structure OnBoard (b : Board H C P) (s : Hpph H C P) : Prop where
  regs : Registered s b.regs
  apprunning : s.hpmdmapprunning = b.apprunning
  era : s.hpairchgera = b.era

theorem OnBoard.step {b : Board H C P} {s : Hpph H C P} (h : OnBoard b s)
    {event : HpphEvent H C P D} (hfresh : b.Fresh event) :
    OnBoard (b.step event).1 (hpphstep s event).1 ∧ (b.step event).2 = (hpphstep s event).2 := by
  cases event with
  | hpmdmchgreq hndlp cbfp userp devtype =>
      refine ⟨⟨h.regs.hpprocmdmreg (r := ⟨hndlp, cbfp, userp⟩) hfresh devtype, h.apprunning, h.era⟩,
        ?_⟩
      change [_] = [_]
      rw [h.apprunning]
  | hpphairchg status apprunning devtype notifytype =>
      have hregs : Registered { s with
          hpairserverpresent := status
          hpairchgera := s.hpairchgera + 1 } b.regs := h.regs.congr rfl rfl rfl
      refine ⟨⟨h.regs.congr rfl rfl rfl, rfl, congrArg (· + 1) h.era⟩, ?_⟩
      change _ = (hpmdmkick _ _).2 ++ [_]
      rw [hpmdmkick_outputs hregs, h.era]
      rfl

section Guarantee

/-- The registrations among the events. -/
def registrants (events : List (HpphEvent H C P D)) : List (Registrant H C P) :=
  events.filterMap fun
    | .hpmdmchgreq hndlp cbfp userp _ => some ⟨hndlp, cbfp, userp⟩
    | .hpphairchg .. => none

/-- What the changes among the events are told as. -/
def changeCalls (events : List (HpphEvent H C P D)) : List (MdmCall D) :=
  events.filterMap fun
    | .hpmdmchgreq .. => none
    | .hpphairchg status apprunning devtype _ => some ⟨mdmStateOf status, apprunning, devtype⟩

/-- Whether the modem is executing its application, as the last change among the events says. -/
def lastAppRunning (events : List (HpphEvent H C P D)) : Bool :=
  ((changeCalls events).getLast?.map MdmCall.apprunning).getD false

/-- What the applications are to be sent for the changes among the events, by the number of the last
change before them. -/
def airChanges : UInt32 → List (HpphEvent H C P D) → List (AirChange D)
  | _, [] => []
  | era, .hpmdmchgreq .. :: events => airChanges era events
  | era, .hpphairchg status apprunning _ notifytype :: events =>
      ⟨notifytype, status, apprunning, era + 1⟩ :: airChanges (era + 1) events

/-- The calls with a handle, with the callback and its parameter. -/
def callsOf (hndlp : H) (out : List (HpphOutput H C P D)) : List (C × P × MdmCall D) :=
  out.filterMap fun
    | .callback h cbfp userp call => if h = hndlp then some (cbfp, userp, call) else none
    | _ => none

/-- What the applications are sent. -/
def notifications (out : List (HpphOutput H C P D)) : List (AirChange D) :=
  out.filterMap fun
    | .notification change => some change
    | _ => none

variable {b : Board H C P} {events : List (HpphEvent H C P D)} {hndlp : H}

theorem callsOf_append (out out' : List (HpphOutput H C P D)) :
    callsOf hndlp (out ++ out') = callsOf hndlp out ++ callsOf hndlp out' :=
  List.filterMap_append

/-- The registrants with a handle are called. -/
theorem callsOf_regs (regs : List (Registrant H C P)) (call : MdmCall D) :
    callsOf hndlp (regs.map fun r => r.call call) =
      (regs.filter fun r => r.hndlp = hndlp).map fun r => (r.cbfp, r.userp, call) := by
  induction regs with
  | nil => rfl
  | cons r regs ih =>
      rw [List.map_cons, callsOf, List.filterMap_cons]
      by_cases hr : r.hndlp = hndlp
      · simp only [Registrant.call, hr, if_true, List.filter_cons, decide_true, List.map_cons]
        exact congrArg (List.cons _) ih
      · simp only [Registrant.call, hr, if_false, List.filter_cons, decide_false,
          Bool.false_eq_true]
        exact ih

/-- A registrant is called once for each change after its registration. -/
theorem callsOf_outputs (hnone : ∀ r ∈ registrants events, r.hndlp ≠ hndlp) :
    callsOf hndlp (outputs Board.step b events) =
      (changeCalls events).flatMap fun call =>
        (b.regs.filter fun r => r.hndlp = hndlp).map fun r => (r.cbfp, r.userp, call) := by
  induction events generalizing b with
  | nil => rfl
  | cons event events ih =>
      rw [outputs_cons, callsOf_append]
      cases event with
      | hpmdmchgreq h cbfp userp devtype =>
          have hne : h ≠ hndlp := hnone ⟨h, cbfp, userp⟩ List.mem_cons_self
          rw [ih fun r hr => hnone r (List.mem_cons_of_mem _ hr)]
          simp [Board.step, callsOf, changeCalls, hne]
      | hpphairchg status apprunning devtype notifytype =>
          rw [ih hnone, Board.step, callsOf_append, callsOf_regs]
          simp [callsOf, changeCalls]

/-- A handle that is not registered is not called. -/
theorem callsOf_outputs_eq_nil (hnone : ∀ r ∈ registrants events, r.hndlp ≠ hndlp)
    (hregs : (b.regs.filter fun r => r.hndlp = hndlp) = []) :
    callsOf hndlp (outputs Board.step b events) = [] := by
  rw [callsOf_outputs hnone, hregs]
  exact List.flatMap_eq_nil_iff.mpr fun _ _ => rfl

omit [DecidableEq H] in
theorem regs_after (b : Board H C P) (events : List (HpphEvent H C P D)) :
    (after Board.step b events).regs = b.regs ++ registrants events := by
  induction events generalizing b with
  | nil => exact (List.append_nil _).symm
  | cons event events ih =>
      rw [after_cons, ih]
      cases event with
      | hpmdmchgreq h cbfp userp devtype => simp [Board.step, registrants]
      | hpphairchg status apprunning devtype notifytype => rfl

omit [DecidableEq H] in
theorem apprunning_after (events : List (HpphEvent H C P D)) :
    (after Board.step Board.empty events).apprunning = lastAppRunning events := by
  induction events using List.reverseRecOn with
  | nil => rfl
  | append_singleton events event ih =>
      rw [after_concat, lastAppRunning, changeCalls, List.filterMap_append]
      cases event with
      | hpmdmchgreq h cbfp userp devtype =>
          simpa [Board.step, lastAppRunning, changeCalls] using ih
      | hpphairchg status apprunning devtype notifytype => simp [Board.step]

omit [DecidableEq H] in
theorem notifications_append (out out' : List (HpphOutput H C P D)) :
    notifications (out ++ out') = notifications out ++ notifications out' :=
  List.filterMap_append

omit [DecidableEq H] in
theorem notifications_regs (regs : List (Registrant H C P)) (call : MdmCall D) :
    notifications (regs.map fun r => r.call call) = [] := by
  induction regs with
  | nil => rfl
  | cons r regs ih => exact ih

omit [DecidableEq H] in
theorem notifications_outputs (b : Board H C P) (events : List (HpphEvent H C P D)) :
    notifications (outputs Board.step b events) = airChanges b.era events := by
  induction events generalizing b with
  | nil => rfl
  | cons event events ih =>
      rw [outputs_cons, notifications_append, ih]
      cases event with
      | hpmdmchgreq h cbfp userp devtype => rfl
      | hpphairchg status apprunning devtype notifytype =>
          rw [Board.step, notifications_append, notifications_regs]
          rfl

omit [DecidableEq H] in
/-- If each handle is registered once, every registration finds its handle unused. -/
theorem meets_fresh (h : ((b.regs ++ registrants events).map fun r => r.hndlp).Nodup) :
    Meets Board.step Board.Fresh b events := by
  induction events generalizing b with
  | nil => trivial
  | cons event events ih =>
      cases event with
      | hpmdmchgreq hndlp cbfp userp devtype =>
          refine ⟨fun r hr heq => ?_, ih ?_⟩
          · rw [List.map_append] at h
            exact (List.nodup_append.mp h).2.2 _ (List.mem_map_of_mem hr) _ List.mem_cons_self heq
          · simpa [Board.step, registrants] using h
      | hpphairchg status apprunning devtype notifytype => exact ⟨trivial, ih h⟩

/-- If each handle is registered once, a registrant is called when it is registered and then once for
each change, in order, and the applications are sent the changes by their numbers. -/
theorem registrants_called (s : Hpph H C P) (events : List (HpphEvent H C P D))
    (honce : ((registrants events).map fun r => r.hndlp).Nodup) :
    notifications (outputs hpphstep (hpphinit s) events) = airChanges 0 events ∧
      ∀ (pre : List (HpphEvent H C P D)) (r : Registrant H C P) devtype post,
        events = pre ++ .hpmdmchgreq r.hndlp r.cbfp r.userp devtype :: post →
        callsOf r.hndlp (outputs hpphstep (hpphinit s) events) =
          (⟨mdmStateOf devtype.isSome, lastAppRunning pre, devtype⟩ :: changeCalls post).map
            fun call => (r.cbfp, r.userp, call) := by
  have hstart : OnBoard Board.empty (hpphinit s) := ⟨registered_hpphinit s, rfl, rfl⟩
  have hrun := (Machine.simulation (R := OnBoard) (fun b s event h hfresh => h.step hfresh) hstart
    (meets_fresh (b := Board.empty) honce)).2
  rw [← hrun]
  refine ⟨notifications_outputs Board.empty events, ?_⟩
  intro pre r devtype post hsplit
  have hregs : registrants events = registrants pre ++ r :: registrants post := by
    rw [hsplit, registrants, List.filterMap_append]
    rfl
  rw [hregs, List.map_append, List.map_cons] at honce
  obtain ⟨-, hrest, hapart⟩ := List.nodup_append.mp honce
  have hpre : ∀ r' ∈ registrants pre, r'.hndlp ≠ r.hndlp := fun r' hr' =>
    hapart _ (List.mem_map_of_mem hr') _ List.mem_cons_self
  have hpost : ∀ r' ∈ registrants post, r'.hndlp ≠ r.hndlp := fun r' hr' heq =>
    (List.nodup_cons.mp hrest).1 (heq ▸ List.mem_map_of_mem hr')
  have hnone : ((registrants pre).filter fun r' => r'.hndlp = r.hndlp) = [] :=
    List.filter_eq_nil_iff.mpr fun r' hr' => by simpa using hpre r' hr'
  rw [hsplit, outputs_append, callsOf_append, callsOf_outputs_eq_nil hpre rfl, outputs_cons,
    callsOf_append, callsOf_outputs hpost]
  have hboard : ((after Board.step Board.empty pre).step
      (.hpmdmchgreq r.hndlp r.cbfp r.userp devtype)).1.regs = registrants pre ++ [r] :=
    congrArg (· ++ [r]) (regs_after Board.empty pre)
  have hown : ((registrants pre ++ [r]).filter fun r' => r'.hndlp = r.hndlp) = [r] := by
    rw [List.filter_append, hnone]
    simp
  rw [hboard, hown, Board.step, apprunning_after, List.map_cons, List.map_eq_flatMap]
  simp [callsOf]

/-- The task before it is initialised. -/
def bareTask : Hpph ℕ ℕ ℕ where
  hpmdmreg _ := ⟨none, none, none⟩
  hndl _ := ⟨0, 0, 0⟩
  hpmdmapprunning := true
  hpairserverpresent := true
  hpairchgera := 7
  registered := 9

/-- The modem comes up in its boot loader, and then runs its application. -/
def twoRegistrations : List (HpphEvent ℕ ℕ ℕ ℕ) :=
  [.hpmdmchgreq 1 11 21 none, .hpphairchg true false (some 5) (some 5),
    .hpmdmchgreq 2 12 22 (some 5), .hpphairchg true true (some 5) (some 5)]

theorem registrants_called_two :
    notifications (outputs hpphstep (hpphinit bareTask) twoRegistrations) =
        [⟨some 5, true, false, 1⟩, ⟨some 5, true, true, 2⟩] ∧
      callsOf 2 (outputs hpphstep (hpphinit bareTask) twoRegistrations) =
        [(12, 22, ⟨.hpMdmOnline, false, some 5⟩), (12, 22, ⟨.hpMdmOnline, true, some 5⟩)] :=
  ⟨(registrants_called bareTask twoRegistrations (by decide)).1,
    (registrants_called bareTask twoRegistrations (by decide)).2 (twoRegistrations.take 2)
      ⟨2, 12, 22⟩ (some 5) [.hpphairchg true true (some 5) (some 5)] rfl⟩

end Guarantee

end ModemState

end Sdk

end SierraSdk
