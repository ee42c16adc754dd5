import SierraSdk.Library.WaitingLines
import SierraSdk.Ril.EventQueue
import Mathlib.Data.Int.Notation

/-!
# The request queues of the RIL

`onRequest` appends a request to its queue. The runner of a queue takes the first request, handles
it and releases it. While the normal runner queries the available networks, it looks for a cancel
request (`isCancelQueryNetworkRequested`): the list is taken off the queue, the requests before
the cancel request go on a stack, the ones behind it go back, and the lock is dropped to post an
event for the cancel request before the stack is put in front again.

Each part of a function between taking a lock and dropping it is one step here. A request is
recorded with the number of its arrival, which stands for its block and its token, and with the
shape of its data (`RequestData`), which decides what `dupRequestData` allocates and what
`freeRequestData` releases.
-/

namespace SierraSdk

namespace Ril

open WaitingLines

section Data

/-- The data of a request, by the function that copies it: no data; a block of bytes; a string;
strings, some of them null; a structure with strings in some of its fields; the configurations
of the cell broadcast; and the structures that have blocks of their own. -/
inductive RequestData where
  | void
  | raw (null : Bool)
  | string (null : Bool)
  | strings (entries : List Bool)
  | fields (entries : List Bool)
  | gsmBrSmsCnf (count : ℕ)
  | imsSms (parts : ℕ)
  | carrierRestrictions (parts : ℕ)
  deriving DecidableEq

/-- The blocks of the entries that are not null; block 0 is the one that the copy starts with. -/
def entryBlocks (entries : List Bool) : List ℕ :=
  (List.range entries.length).filterMap fun i =>
    if entries.getD i false then some (i + 1) else none

/-- The blocks of `count` entries. -/
def partBlocks (count : ℕ) : List ℕ := (List.range count).map (· + 1)

/-- The blocks that the copy of the data is allocated in. `dispatchRaw` allocates a block before it
looks whether there is data. -/
def dupRequestData : RequestData → List ℕ
  | .void => []
  | .raw _ => [0]
  | .string null => if null then [] else [0]
  | .strings entries | .fields entries => 0 :: entryBlocks entries
  | .gsmBrSmsCnf count => 0 :: partBlocks count
  | .imsSms parts | .carrierRestrictions parts => 0 :: partBlocks parts

/-- The sizes of a pointer and of a `RIL_GSM_BroadcastSmsConfigInfo`. -/
def pointerSize : ℕ := 4
def broadcastSmsConfigInfoSize : ℕ := 20

/-- The blocks that are released. The length of the data of a cell broadcast configuration is that
of its pointers, but it is divided by the size of what they point to; two kinds of data have no
branch. -/
def freeRequestData : RequestData → List ℕ
  | .void => []
  | .raw null | .string null => if null then [] else [0]
  | .strings entries | .fields entries => entryBlocks entries ++ [0]
  | .gsmBrSmsCnf count => partBlocks (count * pointerSize / broadcastSmsConfigInfoSize) ++ [0]
  | .imsSms _ | .carrierRestrictions _ => []

/-- The data whose copies are released: no bytes that are missing, no cell broadcast configuration
but an empty one, no IMS message and no carrier restrictions. -/
def RequestData.Freeable : RequestData → Bool
  | .raw null => !null
  | .gsmBrSmsCnf count => count = 0
  | .imsSms _ | .carrierRestrictions _ => false
  | _ => true

theorem freeRequestData_perm {data : RequestData} (h : data.Freeable = true) :
    (freeRequestData data).Perm (dupRequestData data) := by
  cases data with
  | void => exact List.Perm.refl _
  | raw null =>
      cases null with
      | false => exact List.Perm.refl _
      | true => exact Bool.noConfusion h
  | string null => exact List.Perm.refl _
  | strings entries => exact List.perm_append_singleton 0 _
  | fields entries => exact List.perm_append_singleton 0 _
  | gsmBrSmsCnf count =>
      have hcount : count = 0 := of_decide_eq_true h
      subst hcount
      exact List.Perm.refl _
  | imsSms parts => exact Bool.noConfusion h
  | carrierRestrictions parts => exact Bool.noConfusion h

theorem length_partBlocks (count : ℕ) : (partBlocks count).length = count := by
  rw [partBlocks, List.length_map, List.length_range]

/-- A copy of any other data is never released as a whole. -/
theorem not_freeRequestData_perm {data : RequestData} (h : data.Freeable = false) :
    ¬ (freeRequestData data).Perm (dupRequestData data) := by
  intro hperm
  have hlength := hperm.length_eq
  cases data with
  | void => exact Bool.noConfusion h
  | raw null =>
      cases null with
      | false => exact Bool.noConfusion h
      | true => exact absurd hlength (by decide)
  | string null => exact Bool.noConfusion h
  | strings entries => exact Bool.noConfusion h
  | fields entries => exact Bool.noConfusion h
  | gsmBrSmsCnf count =>
      have hcount : count ≠ 0 := of_decide_eq_false h
      simp only [freeRequestData, dupRequestData, List.length_append, List.length_cons,
        List.length_nil, length_partBlocks, pointerSize, broadcastSmsConfigInfoSize] at hlength
      omega
  | imsSms parts => exact absurd hlength (by simp [freeRequestData, dupRequestData])
  | carrierRestrictions parts => exact absurd hlength (by simp [freeRequestData, dupRequestData])

end Data

section Queues

/-- The requests that the queues distinguish: those of `prioRequests`, the two that the cancel scan
is about, and all others. A request of the OEM hook has the number that its first string starts
with. -/
inductive RilRequestCode where
  | dial | hangup | hangupForegroundResumeBackground | hangupWaitingOrBackground
  | getCurrentCalls | answer | lastCallFailCause | udub | setMute | getMute | conference
  | switchWaitingOrHoldingAndActive | signalStrength | dtmf | dtmfStart | dtmfStop
  | queryAvailableNetworks
  | oemHookStrings (subcommand : ℤ)
  | other (request : ℕ)
  deriving DecidableEq

/-- `prioRequests` -/
def prioRequests : List RilRequestCode :=
  [.dial, .hangup, .hangupForegroundResumeBackground, .hangupWaitingOrBackground,
    .getCurrentCalls, .answer, .lastCallFailCause, .udub, .setMute, .getMute, .conference,
    .switchWaitingOrHoldingAndActive, .signalStrength, .dtmf, .dtmfStart, .dtmfStop]

/-- `isPrioRequest` -/
def isPrioRequest (request : RilRequestCode) : Bool := request ∈ prioRequests

/-- `SWI_CANCEL_QUERY_AVAILABLE_NETWORKS` -/
def swiCancelQueryAvailableNetworks : ℤ := 45

structure RILRequest where
  number : ℕ
  request : RilRequestCode
  data : RequestData
  deriving DecidableEq

/-- Whether a request is to cancel the query of the networks. -/
def RILRequest.isCancel (r : RILRequest) : Bool :=
  r.request = .oemHookStrings swiCancelQueryAvailableNetworks

/-- What the thread of a queue is doing: waiting for work; handling a request; and, in a cancel scan
that has found a request, holding the stack with the lock dropped, before and after the event
is posted. -/
inductive RunnerState where
  | idle
  | running (r : RILRequest)
  | found (r cancel : RILRequest) (stack : List RILRequest)
  | posted (r : RILRequest) (stack : List RILRequest)
  deriving DecidableEq

/-- The queues with their threads, the events that wait to complete a cancel request, and the number
of the next arrival. -/
structure RequestQueues where
  enabled : Bool
  requestList : QueueId → List RILRequest
  closed : QueueId → Bool
  runner : QueueId → RunnerState
  eventList : List RILRequest
  next : ℕ

/-- What is done to a request: it is put in a queue; it is handled by `processRequest`; a cancel
scan takes it; it is completed by `completeCancelQueryNetworks`; and its data and its block are
released. -/
abbrev RequestOut := Entry QueueId RILRequest

/-- The steps: a request arrives, a queue is opened or closed, and what the threads do. With a
dequeue stands the event that is due, if any. -/
inductive RequestInput where
  | onRequest (request : RilRequestCode) (data : RequestData)
  | openQueue (q : QueueId)
  | closeQueue (q : QueueId)
  | dequeue (q : QueueId) (event : Option ℕ)
  | finish (q : QueueId)
  | scan (q : QueueId)
  | postEvent (q : QueueId)
  | pushStack (q : QueueId)

/-- The queue that a request is put in. -/
def queueOf (enabled : Bool) (request : RilRequestCode) : QueueId :=
  if enabled && isPrioRequest request then .prio else .normal

/-- The queue that a cancel scan looks at. -/
def scannedQueue (enabled : Bool) : QueueId := if enabled then .prio else .normal

/-- The loop of the scan: the cancel request with what is behind it, and the stack. -/
def scanLoop : List RILRequest → List RILRequest →
    Option (RILRequest × List RILRequest) × List RILRequest
  | [], stack => (none, stack)
  | r :: temp, stack =>
      if r.isCancel then (some (r, temp), stack) else scanLoop temp (r :: stack)

/-- The stack is put in front of a list, from the top. -/
def pushFront : List RILRequest → List RILRequest → List RILRequest
  | [], l => l
  | p :: stack, l => pushFront stack (p :: l)

namespace RequestQueues

def setList (s : RequestQueues) (q : QueueId) (l : List RILRequest) : RequestQueues :=
  { s with requestList := Function.update s.requestList q l }

def setRunner (s : RequestQueues) (q : QueueId) (state : RunnerState) : RequestQueues :=
  { s with runner := Function.update s.runner q state }

/-- `onRequest` -/
def onRequest (s : RequestQueues) (request : RilRequestCode) (data : RequestData) :
    RequestQueues × List RequestOut :=
  let q := queueOf s.enabled request
  let r : RILRequest := ⟨s.next, request, data⟩
  ({ s.setList q (s.requestList q ++ [r]) with next := s.next + 1 }, [.arrived q r])

/-- What the runner of the normal queue does with an event that is due. -/
def runEvent (s : RequestQueues) (q : QueueId) (event : Option ℕ) :
    RequestQueues × List RequestOut :=
  match q, event with
  | .normal, some i =>
      match s.eventList[i]? with
      | some r =>
          ({ s with eventList := s.eventList.eraseIdx i },
            [.completed r, .released r])
      | none => (s, [])
  | _, _ => (s, [])

/-- The runner takes an event that is due and the first request. -/
def dequeue (s : RequestQueues) (q : QueueId) (event : Option ℕ) :
    RequestQueues × List RequestOut :=
  if s.runner q = .idle ∧ s.closed q = false then
    let run := s.runEvent q event
    match s.requestList q with
    | [] => run
    | r :: rest =>
        ((run.1.setList q rest).setRunner q (.running r), run.2 ++ [.taken q r])
  else (s, [])

/-- The runner has handled a request, and releases it. -/
def finish (s : RequestQueues) (q : QueueId) : RequestQueues × List RequestOut :=
  match s.runner q with
  | .running r => (s.setRunner q .idle, [.released r])
  | _ => (s, [])

/-- `isCancelQueryNetworkRequested`, in a query of the networks, up to where it drops the lock. -/
def scan (s : RequestQueues) (q : QueueId) : RequestQueues × List RequestOut :=
  match s.runner q with
  | .running r =>
      let scanned := scannedQueue s.enabled
      if r.request = .queryAvailableNetworks ∧ s.closed scanned = false then
        match scanLoop (s.requestList scanned) [] with
        | (none, stack) => (s.setList scanned (pushFront stack []), [])
        | (some (cancel, temp), stack) =>
            ((s.setList scanned temp).setRunner q (.found r cancel stack),
              [.withdrawn scanned cancel])
      else (s, [])
  | _ => (s, [])

/-- The event for the cancel request is enqueued. -/
def postEvent (s : RequestQueues) (q : QueueId) : RequestQueues :=
  match s.runner q with
  | .found r cancel stack =>
      { s.setRunner q (.posted r stack) with eventList := s.eventList ++ [cancel] }
  | _ => s

/-- The rest of the scan, with the lock taken again. -/
def pushStack (s : RequestQueues) (q : QueueId) : RequestQueues :=
  match s.runner q with
  | .posted r stack =>
      let scanned := scannedQueue s.enabled
      (s.setList scanned (pushFront stack (s.requestList scanned))).setRunner q (.running r)
  | _ => s

end RequestQueues

/-- One step. -/
def requestStep (s : RequestQueues) : RequestInput → RequestQueues × List RequestOut
  | .onRequest request data => s.onRequest request data
  | .openQueue q => ({ s with closed := Function.update s.closed q false }, [])
  | .closeQueue q => ({ s with closed := Function.update s.closed q true }, [])
  | .dequeue q event => s.dequeue q event
  | .finish q => s.finish q
  | .scan q => s.scan q
  | .postEvent q => (s.postEvent q, [])
  | .pushStack q => (s.pushStack q, [])

/-- The queues at the start. -/
def requestQueuesStart (enabled : Bool) : RequestQueues :=
  ⟨enabled, fun _ => [], fun _ => true, fun _ => .idle, [], 0⟩

end Queues

end Ril

end SierraSdk
