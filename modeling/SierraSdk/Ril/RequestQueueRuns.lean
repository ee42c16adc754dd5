import SierraSdk.Ril.RequestQueue

/-!
# Runs of the request queues

The queues are waiting lines that a cancel scan withdraws from (`Queued`): what the scan holds on
its stack still waits, in front of the list that it was taken from. Only the normal runner scans,
and with a priority queue it scans a list that never holds a cancel request, so the list that is
behind the stack is touched by nobody but by arrivals.
-/

namespace SierraSdk

namespace Ril

open Machine WaitingLines

section View

/-- The requests that a scan has put on its stack. -/
def RunnerState.stack : RunnerState → List RILRequest
  | .found _ _ stack => stack
  | .posted _ stack => stack
  | _ => []

/-- The cancel request that a scan has found and not posted an event for. -/
def RunnerState.cancel : RunnerState → List RILRequest
  | .found _ cancel _ => [cancel]
  | _ => []

/-- The request that is being handled. -/
def RunnerState.inHand : RunnerState → List RILRequest
  | .idle => []
  | .running r => [r]
  | .found r _ _ => [r]
  | .posted r _ => [r]

/-- The request of an arrival. -/
def RequestInput.asked : RequestInput → Option (RilRequestCode × RequestData)
  | .onRequest request data => some (request, data)
  | _ => none

/-- How many steps of the threads are left of what a thread is doing. -/
def RunnerState.weight : RunnerState → ℕ
  | .idle => 0
  | .running _ => 1
  | .found _ _ stack => 4 + 2 * stack.length
  | .posted _ stack => 2 + 2 * stack.length

namespace RequestQueues

/-- What a scan holds of a queue, in order of arrival. -/
def ahead (s : RequestQueues) (q : QueueId) : List RILRequest :=
  if q = scannedQueue s.enabled then (s.runner .normal).stack.reverse else []

/-- The requests that wait in a queue. -/
def waiting (s : RequestQueues) (q : QueueId) : List RILRequest := s.ahead q ++ s.requestList q

/-- The cancel requests that wait to be completed. -/
def cancelled (s : RequestQueues) : List RILRequest := (s.runner .normal).cancel ++ s.eventList

/-- The requests that are being handled. -/
def inHand (s : RequestQueues) : List RILRequest :=
  (s.runner .normal).inHand ++ (s.runner .prio).inHand

/-- The queues as waiting lines. -/
def lines (s : RequestQueues) : Lines QueueId RILRequest := ⟨s.waiting, s.cancelled, s.inHand⟩

/-- What holds of the queues whatever happens: the priority runner does not query the networks,
its queue has requests of its own only, and a scan that holds a stack is one without a priority
queue. -/
structure Sound (s : RequestQueues) : Prop where
  prioRunner : s.runner .prio = .idle ∨
    ∃ r, s.runner .prio = .running r ∧ isPrioRequest r.request = true
  prioList : ∀ r ∈ s.requestList .prio, isPrioRequest r.request = true
  noStack : s.enabled = true →
    s.runner .normal = .idle ∨ ∃ r, s.runner .normal = .running r

/-- The queues are the waiting lines `d`, in which the order of what does not wait is free. -/
structure Queued (s : RequestQueues) (d : Lines QueueId RILRequest) : Prop where
  sound : s.Sound
  waiting : d.waiting = s.waiting
  withdrawn : d.withdrawn.Perm s.cancelled
  inHand : d.inHand.Perm s.inHand

end RequestQueues

end View

section Scan

theorem isCancel_of_isPrioRequest {r : RILRequest} (h : isPrioRequest r.request = true) :
    r.isCancel = false := by
  cases hrequest : r.request with
  | oemHookStrings subcommand =>
      rw [hrequest] at h
      exact absurd (of_decide_eq_true h) (by simp [prioRequests])
  | _ => simp [RILRequest.isCancel, hrequest]

theorem isPrioRequest_of_queueOf {enabled : Bool} {request : RilRequestCode}
    (h : queueOf enabled request = .prio) : isPrioRequest request = true := by
  by_contra hnot
  simp [queueOf, hnot] at h

theorem pushFront_eq (stack l : List RILRequest) : pushFront stack l = stack.reverse ++ l := by
  induction stack generalizing l with
  | nil => rfl
  | cons p stack ih => rw [pushFront, ih, List.reverse_cons, List.append_assoc]; rfl

/-- The scan finds the first cancel request, and the stack holds what was before it. -/
theorem scanLoop_some {l stack stack' temp : List RILRequest} {cancel : RILRequest}
    (h : scanLoop l stack = (some (cancel, temp), stack')) :
    l.find? RILRequest.isCancel = some cancel ∧
      stack'.reverse ++ temp = stack.reverse ++ l.eraseP RILRequest.isCancel := by
  induction l generalizing stack with
  | nil => simp [scanLoop] at h
  | cons r l ih =>
      rw [scanLoop] at h
      cases hr : r.isCancel with
      | true =>
          rw [hr, if_pos rfl] at h
          obtain ⟨⟨rfl, rfl⟩, rfl⟩ : (r = cancel ∧ l = temp) ∧ stack = stack' := by
            simpa using h
          rw [List.find?_cons_of_pos hr, List.eraseP_cons_of_pos hr]
          exact ⟨rfl, rfl⟩
      | false =>
          rw [hr, if_neg Bool.false_ne_true] at h
          obtain ⟨hfind, hsplit⟩ := ih h
          have hne : ¬ r.isCancel = true := by rw [hr]; exact Bool.false_ne_true
          rw [List.find?_cons_of_neg hne, List.eraseP_cons_of_neg hne]
          refine ⟨hfind, ?_⟩
          rw [hsplit, List.reverse_cons, List.append_assoc]
          rfl

/-- A scan that finds nothing has put everything on the stack. -/
theorem scanLoop_none {l stack stack' : List RILRequest}
    (h : scanLoop l stack = (none, stack')) :
    (∀ r ∈ l, r.isCancel = false) ∧ stack'.reverse = stack.reverse ++ l := by
  induction l generalizing stack with
  | nil =>
      obtain rfl : stack = stack' := by simpa [scanLoop] using h
      simp
  | cons r l ih =>
      rw [scanLoop] at h
      cases hr : r.isCancel with
      | true => simp [hr] at h
      | false =>
          rw [hr, if_neg Bool.false_ne_true] at h
          obtain ⟨hnone, hstack⟩ := ih h
          refine ⟨List.forall_mem_cons.mpr ⟨hr, hnone⟩, ?_⟩
          rw [hstack, List.reverse_cons, List.append_assoc]
          rfl

end Scan

namespace RequestQueues

variable {s : RequestQueues} {q : QueueId} {d : Lines QueueId RILRequest}

section Frames

@[simp] theorem setList_enabled (l : List RILRequest) : (s.setList q l).enabled = s.enabled := rfl
@[simp] theorem setList_runner (l : List RILRequest) : (s.setList q l).runner = s.runner := rfl
@[simp] theorem setList_eventList (l : List RILRequest) :
    (s.setList q l).eventList = s.eventList := rfl
@[simp] theorem setList_requestList (l : List RILRequest) :
    (s.setList q l).requestList = Function.update s.requestList q l := rfl
@[simp] theorem setRunner_enabled (t : RunnerState) :
    (s.setRunner q t).enabled = s.enabled := rfl
@[simp] theorem setRunner_requestList (t : RunnerState) :
    (s.setRunner q t).requestList = s.requestList := rfl
@[simp] theorem setRunner_eventList (t : RunnerState) :
    (s.setRunner q t).eventList = s.eventList := rfl

theorem setList_waiting (l : List RILRequest) :
    (s.setList q l).waiting = Function.update s.waiting q (s.ahead q ++ l) := by
  funext q'
  have hahead : (s.setList q l).ahead q' = s.ahead q' := rfl
  by_cases h : q' = q
  · subst h
    simp [waiting, hahead]
  · simp [waiting, hahead, h]

/-- A runner that neither holds a stack nor gets one. -/
theorem setRunner_waiting {t : RunnerState} (h : (s.runner q).stack = t.stack) :
    (s.setRunner q t).waiting = s.waiting := by
  funext q'
  refine congrArg (· ++ s.requestList q') ?_
  cases q with
  | normal => simp [ahead, setRunner, h]
  | prio => simp [ahead, setRunner]

end Frames

theorem Sound.setList (h : s.Sound) {l : List RILRequest}
    (hl : q = .prio → ∀ r ∈ l, isPrioRequest r.request = true) : (s.setList q l).Sound := by
  refine ⟨h.prioRunner, ?_, h.noStack⟩
  cases q with
  | normal => simpa using h.prioList
  | prio => simpa using hl rfl

theorem Sound.setRunner (h : s.Sound) {t : RunnerState}
    (hprio : q = .prio → t = .idle ∨ ∃ r, t = .running r ∧ isPrioRequest r.request = true)
    (hnormal : q = .normal → s.enabled = true → t = .idle ∨ ∃ r, t = .running r) :
    (s.setRunner q t).Sound := by
  cases q with
  | normal =>
      refine ⟨?_, h.prioList, ?_⟩
      · simpa [RequestQueues.setRunner] using h.prioRunner
      · simpa [RequestQueues.setRunner] using hnormal rfl
  | prio =>
      refine ⟨?_, h.prioList, ?_⟩
      · simpa [RequestQueues.setRunner] using hprio rfl
      · simpa [RequestQueues.setRunner] using h.noStack

/-- A thread that waits for work holds no stack, and nobody holds one of its queue. -/
theorem Sound.ahead_of_idle (h : s.Sound) (hidle : s.runner q = .idle) : s.ahead q = [] := by
  cases q with
  | normal => simp [ahead, hidle, RunnerState.stack]
  | prio =>
      cases henabled : s.enabled with
      | false => simp [ahead, scannedQueue, henabled]
      | true =>
          obtain hnormal | ⟨r, hnormal⟩ := h.noStack henabled
          · simp [ahead, hnormal, RunnerState.stack]
          · simp [ahead, hnormal, RunnerState.stack]

section Steps

theorem queued_onRequest (h : s.Queued d) (request : RilRequestCode) (data : RequestData) :
    Tracks (book RILRequest.isCancel) Queued d (s.onRequest request data) := by
  refine ⟨_, rfl, ?_, ?_, h.withdrawn, h.inHand⟩
  · have hset : (s.setList (queueOf s.enabled request)
        (s.requestList (queueOf s.enabled request) ++ [⟨s.next, request, data⟩])).Sound := by
      refine h.sound.setList fun hq r hr => ?_
      rw [hq] at hr
      obtain hr | hr := List.mem_append.mp hr
      · exact h.sound.prioList r hr
      · obtain rfl := List.mem_singleton.mp hr
        exact isPrioRequest_of_queueOf hq
    exact ⟨hset.prioRunner, hset.prioList, hset.noStack⟩
  · have hwaiting := setList_waiting (s := s) (q := queueOf s.enabled request)
      (s.requestList (queueOf s.enabled request) ++ [⟨s.next, request, data⟩])
    rw [← List.append_assoc] at hwaiting
    rw [h.waiting]
    exact hwaiting.symm

theorem queued_completed (h : s.Queued d) (hidle : s.runner .normal = .idle) {i : ℕ}
    {r : RILRequest} (hr : s.eventList[i]? = some r) :
    Tracks (book RILRequest.isCancel) Queued d
      ({ s with eventList := s.eventList.eraseIdx i }, [.completed r, .released r]) := by
  have hcancelled : s.cancelled = s.eventList := by
    simp [cancelled, hidle, RunnerState.cancel]
  have hperm := h.withdrawn
  rw [hcancelled] at hperm
  obtain ⟨hi, rfl⟩ := List.getElem?_eq_some_iff.mp hr
  have hmem : s.eventList[i] ∈ d.withdrawn := hperm.mem_iff.mpr (List.getElem_mem hi)
  have hsound : Sound { s with eventList := s.eventList.eraseIdx i } :=
    ⟨h.sound.prioRunner, h.sound.prioList, h.sound.noStack⟩
  refine ⟨{ d with withdrawn := d.withdrawn.erase s.eventList[i] }, ?_, hsound, h.waiting, ?_,
    h.inHand⟩
  · simp [book, hmem]
  · have herase := (hperm.trans (List.getElem_cons_eraseIdx_perm hi).symm).erase s.eventList[i]
    rw [List.erase_cons_head] at herase
    simpa [cancelled, hidle, RunnerState.cancel] using herase

theorem queued_runEvent (h : s.Queued d) (hidle : s.runner q = .idle) (event : Option ℕ) :
    Tracks (book RILRequest.isCancel)
      (fun s' d' => s'.Queued d' ∧ s'.runner = s.runner ∧ s'.requestList = s.requestList ∧
        s'.enabled = s.enabled) d (s.runEvent q event) := by
  have hnothing : Tracks (book RILRequest.isCancel)
      (fun s' d' => s'.Queued d' ∧ s'.runner = s.runner ∧ s'.requestList = s.requestList ∧
        s'.enabled = s.enabled) d (s, []) := tracks_nil ⟨h, rfl, rfl, rfl⟩
  cases q with
  | prio => exact hnothing
  | normal =>
      cases event with
      | none => exact hnothing
      | some i =>
          cases hr : s.eventList[i]? with
          | none => simpa [runEvent, hr] using hnothing
          | some r =>
              simp only [runEvent, hr]
              obtain ⟨d', hd', hqueued⟩ := queued_completed h hidle hr
              exact ⟨d', hd', hqueued, rfl, rfl, rfl⟩

/-- The first request of a queue is taken. -/
theorem queued_taken (h : s.Queued d) (hidle : s.runner q = .idle) {r : RILRequest}
    {rest : List RILRequest} (hlist : s.requestList q = r :: rest) :
    Tracks (book RILRequest.isCancel) Queued d
      ((s.setList q rest).setRunner q (.running r), [.taken q r]) := by
  have hahead := h.sound.ahead_of_idle hidle
  have hwaiting : s.waiting q = r :: rest := by rw [waiting, hahead, hlist]; rfl
  have hstack : ((s.setList q rest).runner q).stack = (RunnerState.running r).stack := by
    rw [setList_runner, hidle]
    rfl
  refine ⟨{ d with waiting := Function.update d.waiting q rest, inHand := r :: d.inHand },
    ?_, ?_, ?_, ?_, ?_⟩
  · simp [book, h.waiting, hwaiting]
  · refine (h.sound.setList ?_).setRunner ?_ fun _ _ => .inr ⟨r, rfl⟩
    · rintro rfl r' hr'
      exact h.sound.prioList r' (hlist ▸ List.mem_cons_of_mem r hr')
    · rintro rfl
      exact .inr ⟨r, rfl, h.sound.prioList r (hlist ▸ List.mem_cons_self ..)⟩
  · rw [setRunner_waiting hstack, setList_waiting, hahead, h.waiting]
    rfl
  · cases q with
    | normal =>
        simpa [cancelled, RequestQueues.setRunner, hidle, RunnerState.cancel] using h.withdrawn
    | prio => simpa [cancelled, RequestQueues.setRunner] using h.withdrawn
  · have hcons := h.inHand.cons r
    cases q with
    | normal =>
        simpa [inHand, RequestQueues.setRunner, hidle, RunnerState.inHand] using hcons
    | prio =>
        refine hcons.trans ?_
        simpa [inHand, RequestQueues.setRunner, hidle, RunnerState.inHand] using
          (List.perm_append_singleton r (s.runner .normal).inHand).symm

theorem queued_dequeue (h : s.Queued d) (q : QueueId) (event : Option ℕ) :
    Tracks (book RILRequest.isCancel) Queued d (s.dequeue q event) := by
  rw [dequeue]
  split_ifs with hready
  · obtain ⟨d', hd', hqueued, hrunner, hlist, -⟩ := queued_runEvent h hready.1 event
    cases hrequest : s.requestList q with
    | nil => exact ⟨d', hd', hqueued⟩
    | cons r rest =>
        refine tracks_append hd' (queued_taken hqueued ?_ ?_)
        · rw [hrunner]
          exact hready.1
        · rw [hlist]
          exact hrequest
  · exact tracks_nil h

theorem queued_finish (h : s.Queued d) (q : QueueId) :
    Tracks (book RILRequest.isCancel) Queued d (s.finish q) := by
  rw [finish]
  cases hstate : s.runner q with
  | running r =>
      have hmem : r ∈ d.inHand := by
        rw [h.inHand.mem_iff]
        cases q with
        | normal => simp [inHand, hstate, RunnerState.inHand]
        | prio => simp [inHand, hstate, RunnerState.inHand]
      have hstack : (s.runner q).stack = RunnerState.idle.stack := by rw [hstate]; rfl
      refine ⟨{ d with inHand := d.inHand.erase r }, ?_, ?_, ?_, ?_, ?_⟩
      · simp [book, hmem]
      · exact h.sound.setRunner (fun _ => .inl rfl) fun _ _ => .inl rfl
      · rw [setRunner_waiting hstack]
        exact h.waiting
      · cases q with
        | normal =>
            simpa [cancelled, RequestQueues.setRunner, hstate, RunnerState.cancel] using
              h.withdrawn
        | prio => simpa [cancelled, RequestQueues.setRunner] using h.withdrawn
      · have herase := h.inHand.erase r
        cases q with
        | normal =>
            simpa [inHand, RequestQueues.setRunner, hstate, RunnerState.inHand] using herase
        | prio =>
            refine herase.trans ?_
            have hlast := (List.perm_append_singleton r (s.runner .normal).inHand).erase r
            simpa [inHand, RequestQueues.setRunner, hstate, RunnerState.inHand] using hlast
  | idle => exact tracks_nil h
  | found r cancel stack => exact tracks_nil h
  | posted r stack => exact tracks_nil h

/-- Only the normal runner queries the networks. -/
theorem Sound.normal_of_query (h : s.Sound) {r : RILRequest} (hrun : s.runner q = .running r)
    (hquery : r.request = .queryAvailableNetworks) : q = .normal := by
  cases q with
  | normal => rfl
  | prio =>
      obtain hidle | ⟨r', hrun', hprio⟩ := h.prioRunner
      · rw [hidle] at hrun
        exact RunnerState.noConfusion hrun
      · rw [hrun'] at hrun
        obtain rfl := RunnerState.running.inj hrun
        rw [hquery] at hprio
        exact absurd hprio (by decide)

/-- A cancel request is found without a priority queue only. -/
theorem Sound.enabled_of_cancel (h : s.Sound) {cancel : RILRequest}
    (hfind : (s.requestList (scannedQueue s.enabled)).find? RILRequest.isCancel = some cancel) :
    s.enabled = false := by
  cases henabled : s.enabled with
  | false => rfl
  | true =>
      rw [henabled] at hfind
      have hprio := h.prioList cancel (List.mem_of_find?_eq_some hfind)
      exact absurd (List.find?_some hfind) (by simp [isCancel_of_isPrioRequest hprio])

/-- What a scan does: the first cancel request that waits in the scanned queue is withdrawn, and
the others keep their places. -/
structure Scanned (s t : RequestQueues) (out : List RequestOut) : Prop where
  waiting : t.waiting = Function.update s.waiting (scannedQueue s.enabled)
    ((s.waiting (scannedQueue s.enabled)).eraseP RILRequest.isCancel)
  cancelled : t.cancelled =
    ((s.waiting (scannedQueue s.enabled)).find? RILRequest.isCancel).toList ++ s.cancelled
  out : out = ((s.waiting (scannedQueue s.enabled)).find? RILRequest.isCancel).toList.map
    (.withdrawn (scannedQueue s.enabled))

theorem scanned_scan (h : s.Sound) {r : RILRequest} (hrun : s.runner q = .running r)
    (hquery : r.request = .queryAvailableNetworks)
    (hopen : s.closed (scannedQueue s.enabled) = false) :
    Scanned s (s.scan q).1 (s.scan q).2 ∧ (s.scan q).1.Sound ∧
      (s.scan q).1.inHand = s.inHand := by
  obtain rfl := h.normal_of_query hrun hquery
  have hahead : ∀ q, s.ahead q = [] := by
    intro q
    simp [ahead, hrun, RunnerState.stack]
  have hwaiting : ∀ q, s.waiting q = s.requestList q := by
    intro q
    rw [RequestQueues.waiting, hahead]
    rfl
  have hguard : r.request = .queryAvailableNetworks ∧
      s.closed (scannedQueue s.enabled) = false := ⟨hquery, hopen⟩
  rw [scan]
  simp only [hrun, hguard, and_self, if_true]
  cases hloop : scanLoop (s.requestList (scannedQueue s.enabled)) [] with
  | mk found stack =>
      cases found with
      | none =>
          obtain ⟨hnone, hstack⟩ := scanLoop_none hloop
          have hfind : (s.requestList (scannedQueue s.enabled)).find? RILRequest.isCancel =
              none := by
            simpa using hnone
          have hsame : pushFront stack [] = s.requestList (scannedQueue s.enabled) := by
            rw [pushFront_eq, hstack, List.append_nil]
            rfl
          simp only [hsame]
          refine ⟨⟨?_, ?_, ?_⟩, h.setList ?_, rfl⟩
          · rw [setList_waiting, hahead, hwaiting, List.eraseP_of_forall_not (by simpa using hnone)]
            rfl
          · rw [hwaiting, hfind]
            rfl
          · rw [hwaiting, hfind]
            rfl
          · intro hq
            rw [hq]
            exact h.prioList
      | some scanned =>
          obtain ⟨cancel, temp⟩ := scanned
          obtain ⟨hfind, hsplit⟩ := scanLoop_some hloop
          have henabled := h.enabled_of_cancel hfind
          have hscanned : scannedQueue s.enabled = .normal := by rw [henabled]; rfl
          rw [hscanned] at hfind hsplit
          simp only [hscanned]
          refine ⟨⟨?_, ?_, ?_⟩, (h.setList ?_).setRunner ?_ ?_, ?_⟩
          · funext q
            rw [hscanned, hwaiting .normal]
            cases q with
            | normal =>
                simpa [RequestQueues.waiting, ahead, RequestQueues.setRunner, henabled,
                  scannedQueue, RunnerState.stack] using hsplit
            | prio =>
                simp [RequestQueues.waiting, ahead, RequestQueues.setRunner, henabled,
                  scannedQueue]
          · rw [hscanned, hwaiting, hfind]
            simp [RequestQueues.cancelled, RequestQueues.setRunner, hrun, RunnerState.cancel]
          · rw [hscanned, hwaiting, hfind]
            rfl
          · exact fun hq => QueueId.noConfusion hq
          · exact fun hq => QueueId.noConfusion hq
          · intro _ htrue
            rw [setList_enabled, henabled] at htrue
            exact Bool.noConfusion htrue
          · simp [RequestQueues.inHand, RequestQueues.setRunner, hrun, RunnerState.inHand]

theorem queued_scan (h : s.Queued d) (q : QueueId) :
    Tracks (book RILRequest.isCancel) Queued d (s.scan q) := by
  cases hstate : s.runner q with
  | running r =>
      by_cases hguard : r.request = .queryAvailableNetworks ∧
          s.closed (scannedQueue s.enabled) = false
      · obtain ⟨hscan, hsound, hhand⟩ := scanned_scan h.sound hstate hguard.1 hguard.2
        generalize s.scan q = t at hscan hsound hhand ⊢
        obtain ⟨t, out⟩ := t
        obtain ⟨hwaiting, hcancelled, rfl⟩ := hscan
        cases hfind : (s.waiting (scannedQueue s.enabled)).find? RILRequest.isCancel with
        | none =>
            rw [hfind] at hcancelled
            refine tracks_nil ⟨hsound, ?_, ?_, ?_⟩
            · rw [hwaiting, List.eraseP_of_forall_not (by simpa using hfind),
                Function.update_eq_self]
              exact h.waiting
            · rw [hcancelled]
              exact h.withdrawn
            · rw [hhand]
              exact h.inHand
        | some cancel =>
            rw [hfind] at hcancelled
            refine ⟨{ d with
              waiting := Function.update d.waiting (scannedQueue s.enabled)
                ((s.waiting (scannedQueue s.enabled)).eraseP RILRequest.isCancel)
              withdrawn := cancel :: d.withdrawn }, ?_, hsound, ?_, ?_, ?_⟩
            · simp [book, h.waiting, hfind]
            · rw [hwaiting, h.waiting]
            · rw [hcancelled]
              exact h.withdrawn.cons cancel
            · rw [hhand]
              exact h.inHand
      · rw [scan]
        simp only [hstate, hguard, if_false]
        exact tracks_nil h
  | idle => simpa [scan, hstate] using tracks_nil h
  | found r cancel stack => simpa [scan, hstate] using tracks_nil h
  | posted r stack => simpa [scan, hstate] using tracks_nil h

/-- A thread that holds a stack is the normal one, and there is no priority queue. -/
theorem Sound.of_stack (h : s.Sound) (hidle : s.runner q ≠ .idle)
    (hrun : ∀ r, s.runner q ≠ .running r) : q = .normal ∧ s.enabled = false := by
  cases q with
  | normal =>
      cases henabled : s.enabled with
      | false => exact ⟨rfl, rfl⟩
      | true =>
          obtain hnormal | ⟨r, hnormal⟩ := h.noStack henabled
          · exact absurd hnormal hidle
          · exact absurd hnormal (hrun r)
  | prio =>
      obtain hprio | ⟨r, hprio, -⟩ := h.prioRunner
      · exact absurd hprio hidle
      · exact absurd hprio (hrun r)

/-- The steps at the end of a scan change nothing that waits. -/
theorem postEvent_view (h : s.Sound) (q : QueueId) :
    (s.postEvent q).Sound ∧ (s.postEvent q).waiting = s.waiting ∧
      (s.postEvent q).cancelled.Perm s.cancelled ∧ (s.postEvent q).inHand = s.inHand := by
  cases hstate : s.runner q with
  | found r cancel stack =>
      obtain ⟨rfl, henabled⟩ := h.of_stack (q := q) (by simp [hstate]) (by simp [hstate])
      have hsound : (s.setRunner .normal (.posted r stack)).Sound := by
        refine h.setRunner (fun hq => QueueId.noConfusion hq) fun _ htrue => ?_
        exact absurd htrue (by simp [henabled])
      have hstack : (s.runner .normal).stack = (RunnerState.posted r stack).stack := by
        rw [hstate]
        rfl
      simp only [postEvent, hstate]
      refine ⟨⟨hsound.prioRunner, hsound.prioList, hsound.noStack⟩, ?_, ?_, ?_⟩
      · exact setRunner_waiting hstack
      · simp [cancelled, RequestQueues.setRunner, hstate, RunnerState.cancel]
      · simp [inHand, RequestQueues.setRunner, hstate, RunnerState.inHand]
  | idle => simpa [postEvent, hstate] using h
  | running r => simpa [postEvent, hstate] using h
  | posted r stack => simpa [postEvent, hstate] using h

theorem pushStack_view (h : s.Sound) (q : QueueId) :
    (s.pushStack q).Sound ∧ (s.pushStack q).waiting = s.waiting ∧
      (s.pushStack q).cancelled.Perm s.cancelled ∧ (s.pushStack q).inHand = s.inHand := by
  cases hstate : s.runner q with
  | posted r stack =>
      obtain ⟨rfl, henabled⟩ := h.of_stack (q := q) (by simp [hstate]) (by simp [hstate])
      have hscanned : scannedQueue s.enabled = .normal := by rw [henabled]; rfl
      simp only [pushStack, hstate, hscanned, pushFront_eq]
      refine ⟨(h.setList ?_).setRunner ?_ fun _ _ => .inr ⟨r, rfl⟩, ?_, ?_, ?_⟩
      · exact fun hq => QueueId.noConfusion hq
      · exact fun hq => QueueId.noConfusion hq
      · funext q
        cases q with
        | normal =>
            simp [RequestQueues.waiting, ahead, RequestQueues.setRunner, hscanned, hstate,
              RunnerState.stack]
        | prio => simp [RequestQueues.waiting, ahead, RequestQueues.setRunner, hscanned]
      · simp [cancelled, RequestQueues.setRunner, hstate, RunnerState.cancel]
      · simp [inHand, RequestQueues.setRunner, hstate, RunnerState.inHand]
  | idle => simpa [pushStack, hstate] using h
  | running r => simpa [pushStack, hstate] using h
  | found r cancel stack => simpa [pushStack, hstate] using h

theorem Queued.of_view {t : RequestQueues} (h : s.Queued d)
    (hview : t.Sound ∧ t.waiting = s.waiting ∧ t.cancelled.Perm s.cancelled ∧
      t.inHand = s.inHand) : t.Queued d := by
  obtain ⟨hsound, hwaiting, hcancelled, hhand⟩ := hview
  refine ⟨hsound, ?_, h.withdrawn.trans hcancelled.symm, ?_⟩
  · rw [hwaiting]
    exact h.waiting
  · rw [hhand]
    exact h.inHand

theorem Sound.of_closed (h : s.Sound) (closed : QueueId → Bool) :
    ({ s with closed := closed } : RequestQueues).Sound :=
  ⟨h.prioRunner, h.prioList, h.noStack⟩

/-- Every step is one of the waiting lines. -/
theorem queued_requestStep (h : s.Queued d) (i : RequestInput) :
    Tracks (book RILRequest.isCancel) Queued d (requestStep s i) := by
  cases i with
  | onRequest request data => exact queued_onRequest h request data
  | openQueue q => exact tracks_nil ⟨h.sound.of_closed _, h.waiting, h.withdrawn, h.inHand⟩
  | closeQueue q => exact tracks_nil ⟨h.sound.of_closed _, h.waiting, h.withdrawn, h.inHand⟩
  | dequeue q event => exact queued_dequeue h q event
  | finish q => exact queued_finish h q
  | scan q => exact queued_scan h q
  | postEvent q => exact tracks_nil (h.of_view (postEvent_view h.sound q))
  | pushStack q => exact tracks_nil (h.of_view (pushStack_view h.sound q))

end Steps

section Drain

/-- How many steps of the threads are left. -/
def weight (s : RequestQueues) : ℕ :=
  (s.runner .normal).weight + (s.runner .prio).weight + 2 * (s.requestList .normal).length +
    2 * (s.requestList .prio).length + s.eventList.length

/-- Nothing waits, and nothing is being handled. -/
def Empty (s : RequestQueues) : Prop :=
  (∀ q, s.runner q = .idle ∧ s.requestList q = []) ∧ s.eventList = []

theorem weight_setRunner (t : RunnerState) :
    (s.setRunner q t).weight + (s.runner q).weight = s.weight + t.weight := by
  cases q with
  | normal =>
      simp [weight, RequestQueues.setRunner]
      omega
  | prio =>
      simp [weight, RequestQueues.setRunner]
      omega

theorem weight_setList (l : List RILRequest) :
    (s.setList q l).weight + 2 * (s.requestList q).length = s.weight + 2 * l.length := by
  cases q with
  | normal =>
      simp [weight]
      omega
  | prio =>
      simp [weight]
      omega

/-- A step of a thread that leads on. -/
def Progress (s : RequestQueues) (i : RequestInput) : Prop :=
  i.asked = none ∧ (requestStep s i).1.weight < s.weight ∧ (requestStep s i).1.closed = s.closed

theorem exists_progress_of_busy (h : s.runner q ≠ .idle) : ∃ i, s.Progress i := by
  cases hstate : s.runner q with
  | idle => exact absurd hstate h
  | running r =>
      have hweight := weight_setRunner (s := s) (q := q) .idle
      rw [hstate] at hweight
      refine ⟨.finish q, rfl, ?_, ?_⟩
      · simp only [requestStep, finish, hstate]
        simp only [RunnerState.weight] at hweight
        omega
      · simp only [requestStep, finish, hstate]
        rfl
  | found r cancel stack =>
      have hweight := weight_setRunner (s := s) (q := q) (.posted r stack)
      rw [hstate] at hweight
      refine ⟨.postEvent q, rfl, ?_, ?_⟩
      · simp only [requestStep, postEvent, hstate]
        simp only [RunnerState.weight, weight, setRunner_eventList, setRunner_requestList,
          List.length_append, List.length_singleton] at hweight ⊢
        omega
      · simp only [requestStep, postEvent, hstate]
        rfl
  | posted r stack =>
      refine ⟨.pushStack q, rfl, ?_, ?_⟩
      · have hlist := weight_setList (s := s) (q := scannedQueue s.enabled)
          (pushFront stack (s.requestList (scannedQueue s.enabled)))
        have hweight := weight_setRunner
          (s := s.setList (scannedQueue s.enabled)
            (pushFront stack (s.requestList (scannedQueue s.enabled)))) (q := q) (.running r)
        rw [setList_runner, hstate] at hweight
        rw [pushFront_eq] at hlist hweight
        simp only [requestStep, pushStack, hstate, pushFront_eq]
        simp only [RunnerState.weight, List.length_append, List.length_reverse] at hlist hweight
        omega
      · simp only [requestStep, pushStack, hstate]
        rfl

theorem exists_progress_of_waiting (hidle : s.runner q = .idle) (hopen : s.closed q = false)
    (hlist : s.requestList q ≠ []) : ∃ i, s.Progress i := by
  obtain ⟨r, rest, hrest⟩ := List.exists_cons_of_ne_nil hlist
  have hrun : s.runEvent q none = (s, []) := by
    cases q with
    | normal => rfl
    | prio => rfl
  have hlist := weight_setList (s := s) (q := q) rest
  have hweight := weight_setRunner (s := s.setList q rest) (q := q) (.running r)
  rw [setList_runner, hidle] at hweight
  refine ⟨.dequeue q none, rfl, ?_, ?_⟩
  · simp only [requestStep, dequeue, hidle, hopen, hrun, hrest, and_self, if_true]
    rw [hrest] at hlist
    simp only [RunnerState.weight, List.length_cons] at hlist hweight
    omega
  · simp only [requestStep, dequeue, hidle, hopen, hrun, hrest, and_self, if_true]
    rfl

theorem exists_progress_of_event (hidle : s.runner .normal = .idle)
    (hopen : s.closed .normal = false) (hlist : s.requestList .normal = [])
    (hevent : s.eventList ≠ []) : ∃ i, s.Progress i := by
  obtain ⟨r, rest, hrest⟩ := List.exists_cons_of_ne_nil hevent
  refine ⟨.dequeue .normal (some 0), rfl, ?_, ?_⟩
  · simp [requestStep, dequeue, hidle, hopen, hlist, runEvent, hrest, weight]
  · simp [requestStep, dequeue, hidle, hopen, hlist, runEvent, hrest]

/-- Unless there is nothing left, some thread can go on. -/
theorem exists_progress (hopen : ∀ q, s.closed q = false) (h : ¬ s.Empty) :
    ∃ i, s.Progress i := by
  by_contra hnone
  have hempty : ∀ q, s.runner q = .idle ∧ s.requestList q = [] := by
    intro q
    have hidle : s.runner q = .idle := by
      by_contra hbusy
      exact hnone (exists_progress_of_busy hbusy)
    refine ⟨hidle, ?_⟩
    by_contra hlist
    exact hnone (exists_progress_of_waiting hidle (hopen q) hlist)
  refine h ⟨hempty, ?_⟩
  by_contra hevent
  exact hnone (exists_progress_of_event (hempty .normal).1 (hopen .normal) (hempty .normal).2
    hevent)

/-- The threads can work off everything while the queues are open. -/
theorem exists_drained_of_open (s : RequestQueues) (hopen : ∀ q, s.closed q = false) :
    ∃ rest : List RequestInput, (∀ i ∈ rest, i.asked = none) ∧
      (after requestStep s rest).Empty := by
  by_cases hempty : s.Empty
  · exact ⟨[], fun i hi => absurd hi List.not_mem_nil, hempty⟩
  · obtain ⟨i, hasked, hless, hclosed⟩ := exists_progress hopen hempty
    have hopen' : ∀ q, (requestStep s i).1.closed q = false := by
      rw [hclosed]
      exact hopen
    obtain ⟨rest, hrest, hend⟩ := exists_drained_of_open (requestStep s i).1 hopen'
    exact ⟨i :: rest, List.forall_mem_cons.mpr ⟨hasked, hrest⟩, hend⟩
termination_by s.weight

theorem exists_drained (s : RequestQueues) :
    ∃ rest : List RequestInput, (∀ i ∈ rest, i.asked = none) ∧
      (after requestStep s rest).Empty := by
  have hopen : ∀ q, (after requestStep s [.openQueue .normal, .openQueue .prio]).closed q =
      false := by
    intro q
    cases q with
    | normal => simp [requestStep]
    | prio => simp [requestStep]
  obtain ⟨rest, hrest, hend⟩ := exists_drained_of_open _ hopen
  refine ⟨[.openQueue .normal, .openQueue .prio] ++ rest, ?_, ?_⟩
  · intro i hi
    obtain hi | hi := List.mem_append.mp hi
    · simp only [List.mem_cons, List.not_mem_nil, or_false] at hi
      obtain rfl | rfl := hi
      · rfl
      · rfl
    · exact hrest i hi
  · rw [after_append]
    exact hend

end Drain

end RequestQueues

section Served

theorem arrivals_runEvent (s : RequestQueues) (q : QueueId) (event : Option ℕ) :
    (s.runEvent q event).2.filterMap Entry.arrival = [] ∧
      (s.runEvent q event).1.next = s.next := by
  cases q with
  | prio => exact ⟨rfl, rfl⟩
  | normal =>
      cases event with
      | none => exact ⟨rfl, rfl⟩
      | some i =>
          simp only [RequestQueues.runEvent]
          cases s.eventList[i]? with
          | none => exact ⟨rfl, rfl⟩
          | some r => exact ⟨rfl, rfl⟩

theorem arrivals_dequeue (s : RequestQueues) (q : QueueId) (event : Option ℕ) :
    (s.dequeue q event).2.filterMap Entry.arrival = [] ∧ (s.dequeue q event).1.next = s.next := by
  obtain ⟨hout, hnext⟩ := arrivals_runEvent s q event
  rw [RequestQueues.dequeue]
  split_ifs
  · cases s.requestList q with
    | nil => exact ⟨hout, hnext⟩
    | cons r rest =>
        refine ⟨?_, hnext⟩
        rw [List.filterMap_append, hout]
        rfl
  · exact ⟨rfl, rfl⟩

theorem arrivals_scan (s : RequestQueues) (q : QueueId) :
    (s.scan q).2.filterMap Entry.arrival = [] ∧ (s.scan q).1.next = s.next := by
  rw [RequestQueues.scan]
  cases s.runner q with
  | running r =>
      dsimp only
      split_ifs
      · cases scanLoop (s.requestList (scannedQueue s.enabled)) [] with
        | mk found stack =>
            cases found with
            | none => exact ⟨rfl, rfl⟩
            | some scanned => exact ⟨rfl, rfl⟩
      · exact ⟨rfl, rfl⟩
  | _ => exact ⟨rfl, rfl⟩

/-- What arrives is what was asked for, with the next number. -/
theorem arrivals_requestStep (s : RequestQueues) (i : RequestInput) :
    (requestStep s i).2.filterMap Entry.arrival =
        i.asked.toList.map (fun r => ⟨s.next, r.1, r.2⟩) ∧
      (requestStep s i).1.next = s.next + i.asked.toList.length := by
  cases i with
  | onRequest request data => exact ⟨rfl, rfl⟩
  | openQueue q => exact ⟨rfl, rfl⟩
  | closeQueue q => exact ⟨rfl, rfl⟩
  | dequeue q event => exact arrivals_dequeue s q event
  | finish q =>
      simp only [requestStep, RequestQueues.finish]
      cases s.runner q with
      | _ => exact ⟨rfl, rfl⟩
  | scan q => exact arrivals_scan s q
  | postEvent q =>
      simp only [requestStep, RequestQueues.postEvent]
      cases s.runner q with
      | _ => exact ⟨rfl, rfl⟩
  | pushStack q =>
      simp only [requestStep, RequestQueues.pushStack]
      cases s.runner q with
      | _ => exact ⟨rfl, rfl⟩

/-- The arrivals of a run are numbered in order, and are what was asked for. -/
theorem arrivals_run (s : RequestQueues) (is : List RequestInput) :
    ((outputs requestStep s is).filterMap Entry.arrival).map RILRequest.number =
        List.range' s.next (is.filterMap RequestInput.asked).length ∧
      ((outputs requestStep s is).filterMap Entry.arrival).map (fun r => (r.request, r.data)) =
        is.filterMap RequestInput.asked := by
  induction is generalizing s with
  | nil => exact ⟨rfl, rfl⟩
  | cons i is ih =>
      obtain ⟨hout, hnext⟩ := arrivals_requestStep s i
      obtain ⟨hnumbers, hasked⟩ := ih (requestStep s i).1
      rw [outputs_cons, List.filterMap_append, List.map_append, List.map_append, hnumbers, hasked,
        hout, hnext]
      cases hi : i.asked with
      | none => simp [hi]
      | some r => simp [hi, List.range'_succ]

/-- The requests of a run that led to `s` and gave `out`: what was asked for has arrived; every
arrival is in one place, was handled and was released at most once, and a queue is served in order;
what was released was released as a whole; a scan withdraws the first cancel request and nothing
else moves; and what is left can be worked off. -/
structure Served (is : List RequestInput) (s : RequestQueues) (out : List RequestOut) : Prop where
  arrived : (out.filterMap Entry.arrival).map (fun r => (r.request, r.data)) =
    is.filterMap RequestInput.asked
  numbered : ((out.filterMap Entry.arrival).map RILRequest.number).Nodup
  booked : Booked out s.lines
  blocks : ∀ r ∈ out.filterMap Entry.release,
    (freeRequestData r.data).Perm (dupRequestData r.data)
  scans : ∀ q r, s.runner q = .running r → r.request = .queryAvailableNetworks →
    s.closed (scannedQueue s.enabled) = false → s.Scanned (s.scan q).1 (s.scan q).2
  restores : ∀ q, (s.postEvent q).waiting = s.waiting ∧ (s.pushStack q).waiting = s.waiting
  drains : ∃ rest : List RequestInput, (∀ i ∈ rest, i.asked = none) ∧
    (after requestStep s rest).Empty

/-- In every run, the queues are the waiting lines of the log. -/
theorem booked_run (enabled : Bool) (is : List RequestInput) :
    (after requestStep (requestQueuesStart enabled) is).Sound ∧
      Booked (outputs requestStep (requestQueuesStart enabled) is)
        (after requestStep (requestQueuesStart enabled) is).lines := by
  have hsound : (requestQueuesStart enabled).Sound :=
    ⟨.inl rfl, fun r hr => absurd hr List.not_mem_nil, fun _ => .inl rfl⟩
  have hstart : (requestQueuesStart enabled).Queued Lines.empty := by
    refine ⟨hsound, ?_, List.Perm.refl _, List.Perm.refl _⟩
    funext q
    rw [RequestQueues.waiting, hsound.ahead_of_idle rfl]
    rfl
  have hmeets : Meets requestStep (fun _ _ => True) (requestQueuesStart enabled) is :=
    meets_iff.mpr fun _ _ _ _ => trivial
  obtain ⟨d, hd, hqueued⟩ := tracks_run
    (fun s i d hs _ => RequestQueues.queued_requestStep (s := s) (d := d) hs i) hstart hmeets
  have hbooked := booked_empty.watch hd
  rw [List.nil_append] at hbooked
  exact ⟨hqueued.sound, hbooked.of_perm hqueued.waiting hqueued.withdrawn hqueued.inHand⟩

/-- Everything but the release of the data holds in every run. -/
theorem served_run (enabled : Bool) (is : List RequestInput)
    (hblocks : ∀ r ∈ (outputs requestStep (requestQueuesStart enabled) is).filterMap Entry.release,
      (freeRequestData r.data).Perm (dupRequestData r.data)) :
    Served is (after requestStep (requestQueuesStart enabled) is)
      (outputs requestStep (requestQueuesStart enabled) is) := by
  obtain ⟨hsound, hbooked⟩ := booked_run enabled is
  obtain ⟨hnumbers, hasked⟩ := arrivals_run (requestQueuesStart enabled) is
  refine ⟨hasked, ?_, hbooked, hblocks, ?_, ?_, RequestQueues.exists_drained _⟩
  · rw [hnumbers]
    exact List.nodup_range'
  · intro q r hrun hquery hopen
    exact (RequestQueues.scanned_scan hsound hrun hquery hopen).1
  · intro q
    exact ⟨(RequestQueues.postEvent_view hsound q).2.1, (RequestQueues.pushStack_view hsound q).2.1⟩

/-- The data of what was released was asked for. -/
theorem data_of_release {enabled : Bool} {is : List RequestInput} {r : RILRequest}
    (h : r ∈ (outputs requestStep (requestQueuesStart enabled) is).filterMap Entry.release) :
    (r.request, r.data) ∈ is.filterMap RequestInput.asked := by
  rw [← (arrivals_run (requestQueuesStart enabled) is).2]
  exact List.mem_map_of_mem ((booked_run enabled is).2.arrived h)

theorem lines_of_empty {s : RequestQueues} (h : s.Empty) : s.lines = Lines.empty := by
  obtain ⟨hqueues, hevents⟩ := h
  have hwaiting : s.waiting = fun _ => [] := by
    funext q
    simp [RequestQueues.waiting, RequestQueues.ahead, hqueues, RunnerState.stack]
  rw [RequestQueues.lines, hwaiting, RequestQueues.cancelled, RequestQueues.inHand, hevents,
    (hqueues .normal).1, (hqueues .prio).1]
  rfl

/-- The queues serve the requests of a run, whatever the threads do from there on, if and only if
the data of every request is released as a whole. -/
theorem served_iff_freeable (enabled : Bool) (is : List RequestInput) :
    (∀ rest : List RequestInput, (∀ i ∈ rest, i.asked = none) →
      Served (is ++ rest) (after requestStep (requestQueuesStart enabled) (is ++ rest))
        (outputs requestStep (requestQueuesStart enabled) (is ++ rest))) ↔
      ∀ r ∈ is.filterMap RequestInput.asked, r.2.Freeable = true := by
  constructor
  · intro h r hr
    -- Let the threads work off everything: then the request was released.
    obtain ⟨rest, hrest, hempty⟩ :=
      RequestQueues.exists_drained (after requestStep (requestQueuesStart enabled) is)
    have hserved := h rest hrest
    rw [← after_append] at hempty
    have hbooked := hserved.booked
    rw [lines_of_empty hempty] at hbooked
    have harrived : r ∈ (is ++ rest).filterMap RequestInput.asked := by
      rw [List.filterMap_append]
      exact List.mem_append_left _ hr
    rw [← hserved.arrived] at harrived
    obtain ⟨r', hr', rfl⟩ := List.mem_map.mp harrived
    have hblocks := hserved.blocks r' (hbooked.released hr')
    by_contra hnot
    exact not_freeRequestData_perm (Bool.eq_false_iff.mpr hnot) hblocks
  · intro h rest hrest
    refine served_run enabled (is ++ rest) fun r hr => freeRequestData_perm ?_
    have hasked := data_of_release hr
    have hnone : rest.filterMap RequestInput.asked = [] := by
      rw [List.filterMap_eq_nil_iff]
      exact hrest
    rw [List.filterMap_append, hnone, List.append_nil] at hasked
    exact h _ hasked

/-- A request to send an IMS message is handled, and its data is not released. -/
theorem not_served_imsSms :
    ¬ ∀ is : List RequestInput, Served is (after requestStep (requestQueuesStart false) is)
      (outputs requestStep (requestQueuesStart false) is) := by
  intro h
  have hserved := h [.openQueue .normal, .onRequest (.other 113) (.imsSms 1), .dequeue .normal none,
    .finish .normal]
  have hblocks := hserved.blocks ⟨0, .other 113, .imsSms 1⟩ (by decide)
  exact absurd hblocks.length_eq (by decide)

end Served

end Ril

end SierraSdk
