import Mathlib.Logic.Function.Basic
import SierraSdk.Library.Monitor

/-!
# The states of the current calls

`qmiCallStateToRILState` converts the state of a call from QMI. The RIL has no state for a call
that is being disconnected: it is reported in its last state, which is kept in one static variable
for all calls. `getCallInformation` converts the calls that are reported, and `getCallID` looks for
a call in a state.

The values of `RIL_CallState` are a parameter, as `ril.h` is not part of the repository. Of what is
reported for a call only the state is modelled.
-/

namespace SierraSdk

namespace Ril

namespace CallStates

open Machine

/-- `enum eQMI_CALL_STATES` -/
inductive QmiCallState
  | origination
  | incoming
  | conversation
  | ccInProgress
  | alerting
  | hold
  | waiting
  | disconnecting
  | callEnd
  | setup
  | unavailable
  deriving DecidableEq

/-- The state with a number. Numbers without a state are converted like an unavailable one. -/
def QmiCallState.ofByte (callState : UInt8) : QmiCallState :=
  if callState = 0x01 then .origination
  else if callState = 0x02 then .incoming
  else if callState = 0x03 then .conversation
  else if callState = 0x04 then .ccInProgress
  else if callState = 0x05 then .alerting
  else if callState = 0x06 then .hold
  else if callState = 0x07 then .waiting
  else if callState = 0x08 then .disconnecting
  else if callState = 0x09 then .callEnd
  else if callState = 0x0A then .setup
  else .unavailable

/-- `RIL_CallState` -/
structure RilCallState where
  callActive : ℕ
  callHolding : ℕ
  callDialing : ℕ
  callAlerting : ℕ
  callIncoming : ℕ
  callWaiting : ℕ

/-- A call in the answer of the modem. -/
structure CallInfo where
  callID : UInt8
  callState : UInt8
  deriving DecidableEq

/-- What a conversion leaves: its status, and the state that `p_state` points to, which is the last
state from then on. -/
structure Conversion where
  stateStatus : Bool
  state : ℕ

variable (ril : RilCallState)

/-- `qmiCallStateToRILState`, with what `p_state` points to and `sLastCallstatus`. -/
def qmiCallStateToRILState (state : QmiCallState) (pState sLastCallstatus : ℕ) : Conversion :=
  match state with
  | .disconnecting => ⟨true, if sLastCallstatus ≠ 0xff then sLastCallstatus else pState⟩
  | .conversation | .callEnd => ⟨true, ril.callActive⟩
  | .hold => ⟨true, ril.callHolding⟩
  | .origination | .ccInProgress => ⟨true, ril.callDialing⟩
  | .alerting => ⟨true, ril.callAlerting⟩
  | .incoming | .setup => ⟨true, ril.callIncoming⟩
  | .waiting => ⟨true, ril.callWaiting⟩
  | .unavailable => ⟨false, pState⟩

/-- A call as it is reported, with the state that the modem gave for it. -/
structure Report where
  callID : UInt8
  callState : UInt8
  state : ℕ
  deriving DecidableEq

/-- `getCallInformation`: its status, what is reported, and `sLastCallstatus` behind it. The memory
of the calls has been cleared. -/
def getCallInformation : List CallInfo → ℕ → Bool × List Report × ℕ
  | [], sLastCallstatus => (true, [], sLastCallstatus)
  | call :: calls, sLastCallstatus =>
      let r := qmiCallStateToRILState ril (.ofByte call.callState) 0 sLastCallstatus
      if r.stateStatus then
        let rest := getCallInformation calls r.state
        (rest.1, ⟨call.callID, call.callState, r.state⟩ :: rest.2.1, rest.2.2)
      else (false, [], r.state)

/-- `getCallID`, from what its variable `state` holds on: the identifier, and `sLastCallstatus`
behind it. -/
def getCallID (callState : ℕ) : List CallInfo → ℕ → ℕ → UInt8 × ℕ
  | [], _, sLastCallstatus => (0, sLastCallstatus)
  | call :: calls, state, sLastCallstatus =>
      let r := qmiCallStateToRILState ril (.ofByte call.callState) state sLastCallstatus
      if r.stateStatus && r.state = callState then (call.callID, r.state)
      else getCallID callState calls r.state r.state

/-- What asks for the calls: `requestGetCurrentCalls` with the answer of the modem, if there is
one, and `requestAnswer` with the calls that `getCallID` finds and what is in the memory of its
variable. -/
inductive Query
  | getCurrentCalls (answer : Option (List CallInfo))
  | answer (calls : List CallInfo) (uninitialised : ℕ)

/-- A query takes `sLastCallstatus` along, and the calls of a complete list are reported. -/
def query (sLastCallstatus : ℕ) : Query → ℕ × List Report
  | .getCurrentCalls none => (sLastCallstatus, [])
  | .getCurrentCalls (some calls) =>
      let r := getCallInformation ril calls sLastCallstatus
      (r.2.2, if r.1 then r.2.1 else [])
  | .answer calls uninitialised =>
      ((getCallID ril ril.callIncoming calls uninitialised sLastCallstatus).2, [])

section Own

/-- The state that was reported last for each call. -/
abbrev Reported := UInt8 → Option ℕ

def Reported.note (own : Reported) (r : Report) : Reported :=
  Function.update own r.callID (some r.state)

/-- A call is reported by its own state alone, and one that is being disconnected as it was reported
last, or in the state of cleared memory if it never was. -/
def OwnState (own : Reported) (r : Report) : Prop :=
  r.state =
    match QmiCallState.ofByte r.callState with
    | .disconnecting => (own r.callID).getD 0
    | state => (qmiCallStateToRILState ril state 0 0xff).state

/-- The state that a call that is being disconnected would be reported in. -/
def kept (sLastCallstatus : ℕ) : ℕ := if sLastCallstatus ≠ 0xff then sLastCallstatus else 0

/-- Whenever a call is being disconnected, the state that is kept is the one that was reported last
for this call. -/
def KeptForCall (sLastCallstatus : ℕ) (own : Reported) : List CallInfo → Prop
  | [] => True
  | call :: calls =>
      (QmiCallState.ofByte call.callState = .disconnecting →
        kept sLastCallstatus = (own call.callID).getD 0) ∧
      KeptForCall (qmiCallStateToRILState ril (.ofByte call.callState) 0 sLastCallstatus).state
        (own.note ⟨call.callID, call.callState,
          (qmiCallStateToRILState ril (.ofByte call.callState) 0 sLastCallstatus).state⟩) calls

/-- A complete list of calls only has disconnecting calls whose own state is kept. -/
def Undisturbed (s : ℕ × Reported) : Query → Prop
  | .getCurrentCalls (some calls) =>
      (∀ call ∈ calls, QmiCallState.ofByte call.callState ≠ .unavailable) →
        KeptForCall ril s.1 s.2 calls
  | .getCurrentCalls none => True
  | .answer _ _ => True

/-- The machine of the queries, with the states that were reported last beside it. -/
def recordedQuery (s : ℕ × Reported) (q : Query) : (ℕ × Reported) × List Report :=
  (((query ril s.1 q).1, (query ril s.1 q).2.foldl Reported.note s.2), (query ril s.1 q).2)

end Own

section Runs

variable {ril}

theorem stateStatus_iff (state : QmiCallState) (pState last : ℕ) :
    (qmiCallStateToRILState ril state pState last).stateStatus = true ↔ state ≠ .unavailable := by
  cases state <;> simp [qmiCallStateToRILState]

/-- A call is reported by its own state if and only if it is not being disconnected or the state
that is kept is its own. -/
theorem ownState_iff {call : CallInfo} {own : Reported} {last : ℕ} :
    OwnState ril own ⟨call.callID, call.callState,
        (qmiCallStateToRILState ril (.ofByte call.callState) 0 last).state⟩ ↔
      (QmiCallState.ofByte call.callState = .disconnecting →
        kept last = (own call.callID).getD 0) := by
  rw [OwnState]
  cases h : QmiCallState.ofByte call.callState <;> simp [qmiCallStateToRILState, kept]

theorem status_getCallInformation (calls : List CallInfo) (last : ℕ) :
    (getCallInformation ril calls last).1 = true ↔
      ∀ call ∈ calls, QmiCallState.ofByte call.callState ≠ .unavailable := by
  induction calls generalizing last with
  | nil => simp [getCallInformation]
  | cons call calls ih =>
      rw [getCallInformation, List.forall_mem_cons, ← ih, ← stateStatus_iff _ 0 last]
      dsimp only
      split_ifs with h
      · exact (and_iff_right h).symm
      · exact iff_of_false id fun hboth => h hboth.1

/-- The calls of a complete list are reported by their own states if and only if the states of the
disconnecting ones are kept for them. -/
theorem along_getCallInformation {calls : List CallInfo} {last : ℕ} (own : Reported)
    (h : ∀ call ∈ calls, QmiCallState.ofByte call.callState ≠ .unavailable) :
    Along Reported.note (OwnState ril) own (getCallInformation ril calls last).2.1 ↔
      KeptForCall ril last own calls := by
  induction calls generalizing last own with
  | nil => exact Iff.rfl
  | cons call calls ih =>
      obtain ⟨hcall, hcalls⟩ := List.forall_mem_cons.mp h
      rw [getCallInformation]
      dsimp only
      rw [if_pos ((stateStatus_iff _ 0 last).mpr hcall), along_cons, KeptForCall, ownState_iff,
        ih _ hcalls]

/-- One query. -/
theorem along_query (s : ℕ × Reported) (q : Query) :
    Along Reported.note (OwnState ril) s.2 (recordedQuery ril s q).2 ↔ Undisturbed ril s q := by
  match q with
  | .getCurrentCalls none => exact Iff.rfl
  | .answer _ _ => exact Iff.rfl
  | .getCurrentCalls (some calls) =>
      rw [recordedQuery, query, Undisturbed]
      dsimp only
      rw [← status_getCallInformation calls s.1]
      by_cases h : (getCallInformation ril calls s.1).1 = true
      · rw [if_pos h, along_getCallInformation _ ((status_getCallInformation _ _).mp h)]
        exact ⟨fun hkept _ => hkept, fun hkept => hkept h⟩
      · rw [if_neg h]
        exact iff_of_true (along_nil _) fun hstatus => absurd hstatus h

/-- Every call of a run is reported by its own state alone, and by its own last one, if and only if
in each complete list the state of a disconnecting call is kept for it. -/
theorem ownStates_iff (ril : RilCallState) (queries : List Query) (last : ℕ) (own : Reported) :
    Along Reported.note (OwnState ril) own (outputs (query ril) last queries) ↔
      Meets (recordedQuery ril) (Undisturbed ril) (last, own) queries := by
  induction queries generalizing last own with
  | nil => exact Iff.rfl
  | cons q queries ih =>
      rw [outputs_cons, along_append, ih]
      exact and_congr_left' (along_query (last, own) q)

/-- The state of a disconnecting call is no function of its own state and its own last one: it is the
state of the call in front of it. -/
theorem not_ownStates_twoCalls :
    ¬∃ f : UInt8 → Option ℕ → ℕ, ∀ queries,
      Along Reported.note (fun own r => r.state = f r.callState (own r.callID)) (fun _ => none)
        (outputs (query ⟨0, 1, 2, 3, 4, 5⟩) 0xff queries) := by
  rintro ⟨f, hf⟩
  have hactive := (hf [.getCurrentCalls (some [⟨1, 0x03⟩, ⟨2, 0x08⟩])]).2.1
  have hholding := (hf [.getCurrentCalls (some [⟨1, 0x06⟩, ⟨2, 0x08⟩])]).2.1
  have heq : (0 : ℕ) = 1 := hactive.trans hholding.symm
  exact absurd heq (by decide)

end Runs

end CallStates

end Ril

end SierraSdk
