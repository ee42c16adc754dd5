import SierraSdk.Am.Task

/-!
# One request at a time

The AM task is to have at most one request with QM. It counts on the response-sent events for
that, and these share one result code, so that an event may be handled with the code of a later
response. As long as no response is sent while the event of one with another result code is
queued, the task is in step with the events (`InStep`).
-/

namespace SierraSdk

namespace Am

open Ci Machine

section Definitions

/-- A response-sent event was queued by a response with this result code. -/
def AmMsg.hasCode (code : EQCWWANError) : AmMsg → Bool
  | .appRequest _ => true
  | .appRespSent cause => cause = code

/-- A response-sent event was queued by a response other than a timeout. -/
def AmMsg.isAnswer : AmMsg → Bool
  | .appRequest _ => false
  | .appRespSent cause => cause ≠ EQCWWANError.swicmTimeout

/-- QM has at most one request to answer, and a response-sent event is handled with the result
code of the response that queued it. -/
def StopAndWait (sys : AmSystem) (event : AmEvent) : Prop :=
  (amStep sys event).1.unanswered.length ≤ 1 ∧
    ∀ s cause rest, sys.am = some s → event = .task →
      s.amicmsgque = .appRespSent cause :: rest → s.amresultcode = cause

/-- A response is sent only when every queued response-sent event has its result code: those of
a tick and of QM, and the one to a request of another version that the task comes to. -/
def ResponsesApart (sys : AmSystem) (event : AmEvent) : Prop :=
  match sys.am, event with
  | some s, .tick =>
      s.ameventheadq.any AmEvtBlock.expiring = true →
        s.amicmsgque.all (AmMsg.hasCode EQCWWANError.swicmTimeout) = true
  | some s, .answer response =>
      sys.unanswered = [] ∨
        s.amicmsgque.all (AmMsg.hasCode (amparseamheader response.packet).amresultcode) = true
  | some s, .task =>
      match s.amicmsgque with
      | [] => True
      | msg :: rest =>
          ∀ t ∈ (amappevent { s with amicmsgque := rest } msg).1, t.amreqbusy = false →
            ∀ evt ∈ t.ameventheadq.head?, evt.otherVersion = true →
              rest.all (AmMsg.hasCode EQCWWANError.swicmAmVersError) = true
  | _, _ => True

instance (sys : AmSystem) (event : AmEvent) : Decidable (ResponsesApart sys event) :=
  match hsys : sys.am, event with
  | some s, .tick =>
      decidable_of_iff (s.ameventheadq.any AmEvtBlock.expiring = true →
        s.amicmsgque.all (AmMsg.hasCode EQCWWANError.swicmTimeout) = true)
        (by simp only [ResponsesApart, hsys])
  | some s, .answer response =>
      decidable_of_iff (sys.unanswered.isEmpty = true ∨
        s.amicmsgque.all (AmMsg.hasCode (amparseamheader response.packet).amresultcode) = true)
        (by simp only [ResponsesApart, hsys, List.isEmpty_iff])
  | some s, .task =>
      match hque : s.amicmsgque with
      | [] => .isTrue (by simp only [ResponsesApart, hsys, hque])
      | msg :: rest =>
          decidable_of_iff (∀ t ∈ (amappevent { s with amicmsgque := rest } msg).1,
            t.amreqbusy = false → ∀ evt ∈ t.ameventheadq.head?, evt.otherVersion = true →
              rest.all (AmMsg.hasCode EQCWWANError.swicmAmVersError) = true)
            (by simp only [ResponsesApart, hsys, hque])
  | some _, .receive _ _ => .isTrue (by simp only [ResponsesApart, hsys])
  | none, _ => .isTrue (by simp only [ResponsesApart, hsys])

end Definitions

/-- The codes of the queued events are the one that the task will find, and the task is busy
while a request is with QM or its answer is queued. -/
structure InStep (s : AmIpcCb) (unanswered : List CiRrChannel) : Prop where
  codes : s.amicmsgque.all (AmMsg.hasCode s.amresultcode) = true
  count : unanswered.length + s.amicmsgque.countP AmMsg.isAnswer ≤ s.amreqbusy.toNat

/-- `InStep` while the daemon runs. -/
def OneAtATime : Option AmIpcCb → List CiRrChannel → Prop
  | none, unanswered => unanswered.length ≤ 1
  | some s, unanswered => InStep s unanswered

namespace InStep

variable {s : AmIpcCb} {unanswered : List CiRrChannel}

theorem length_le (h : InStep s unanswered) : unanswered.length ≤ 1 := by
  have hcount := h.count
  have hbusy := s.amreqbusy.toNat_le
  omega

/-- A timeout response, when all queued events are timeouts. -/
theorem timeout (h : InStep s unanswered)
    (hcodes : s.amicmsgque.all (AmMsg.hasCode EQCWWANError.swicmTimeout) = true) :
    InStep (responded s EQCWWANError.swicmTimeout) unanswered where
  codes := by simpa [responded, AmMsg.hasCode] using hcodes
  count := by simpa [responded, AmMsg.isAnswer] using h.count

/-- The answer to a request. -/
theorem answer {ipcchannel : CiRrChannel} (h : InStep s (ipcchannel :: unanswered))
    {code : EQCWWANError} (hcode : code ≠ EQCWWANError.swicmTimeout)
    (hcodes : s.amicmsgque.all (AmMsg.hasCode code) = true) :
    InStep (responded s code) unanswered where
  codes := by simpa [responded, AmMsg.hasCode] using hcodes
  count := by
    have hcount := h.count
    simp only [List.length_cons] at hcount
    simp only [responded, List.countP_append, List.countP_singleton, AmMsg.isAnswer, hcode, ne_eq,
      not_false_eq_true, decide_true, if_true]
    omega

/-- A message that is not a response-sent event. -/
theorem receive (h : InStep s unanswered) (evt : AmEvtBlock) :
    InStep { s with amicmsgque := s.amicmsgque ++ [.appRequest evt] } unanswered where
  codes := by simpa [AmMsg.hasCode] using h.codes
  count := by simpa [AmMsg.isAnswer] using h.count

end InStep

namespace OneAtATime

variable {s : AmIpcCb} {unanswered : List CiRrChannel}

theorem tracks_amtick (h : InStep s unanswered)
    (hguard : s.ameventheadq.any AmEvtBlock.expiring = true →
      s.amicmsgque.all (AmMsg.hasCode EQCWWANError.swicmTimeout) = true) :
    Tracks (collect AmOut.dispatched) OneAtATime unanswered (amtick s) := by
  cases hexp : s.ameventheadq.any AmEvtBlock.expiring with
  | false =>
      rw [amtick, amtickLoop_eq hexp]
      exact tracks_nil ⟨h.codes, h.count⟩
  | true =>
      have hboth : Tracks (collect AmOut.dispatched)
          (fun t m => OneAtATime t m ∧ ∀ s, t = some s →
            s.amicmsgque.all (AmMsg.hasCode EQCWWANError.swicmTimeout) = true)
          unanswered (amtick s) := by
        apply tracks_amtickLoop
        · exact fun hs => ⟨hs.1.length_le, fun _ hnone => by cases hnone⟩
        · rintro s m queue ⟨hs, hcodes⟩
          refine ⟨⟨hs.codes, hs.count⟩, ?_⟩
          rintro _ ⟨⟩
          exact hcodes s rfl
        · rintro s m ⟨hs, hcodes⟩
          have htimeout := hs.timeout (hcodes s rfl)
          refine ⟨htimeout, ?_⟩
          rintro _ ⟨⟩
          exact htimeout.codes
        · refine ⟨⟨h.codes, h.count⟩, ?_⟩
          rintro _ ⟨⟩
          exact hguard hexp
      exact hboth.imp fun m hm => hm.1

theorem tracks_amservequeue (h : InStep s unanswered)
    (hguard : s.amreqbusy = false → ∀ evt ∈ s.ameventheadq.head?, evt.otherVersion = true →
      s.amicmsgque.all (AmMsg.hasCode EQCWWANError.swicmAmVersError) = true) :
    Tracks (collect AmOut.dispatched) OneAtATime unanswered (amservequeue s) := by
  unfold amservequeue
  cases hbusy : s.amreqbusy with
  | true => exact tracks_nil h
  | false =>
      have hcount := h.count
      rw [hbusy, Bool.toNat_false] at hcount
      have hnone : unanswered = [] := List.length_eq_zero_iff.mp (by omega)
      have hanswers : s.amicmsgque.countP AmMsg.isAnswer = 0 := by omega
      subst hnone
      simp only [Bool.false_eq_true, if_false]
      cases hqueue : s.ameventheadq with
      | nil => exact tracks_nil h
      | cons evt rest =>
          apply tracks_amserverequest
          · exact Nat.zero_le 1
          · intro hversion
            have hcodes := hguard hbusy evt (by rw [hqueue]; rfl) hversion
            refine ⟨by simpa [responded, AmMsg.hasCode] using hcodes, ?_⟩
            simp [responded, hanswers, AmMsg.isAnswer, EQCWWANError.swicmAmVersError,
              EQCWWANError.swicmTimeout]
          · exact fun _ => ⟨h.codes, by simp [hanswers]⟩
          · exact fun _ _ => ⟨h.codes, by simp [hanswers]⟩

theorem tracks_amipctask (h : InStep s unanswered) {sys : AmSystem} (hsys : sys.am = some s)
    (hguard : ResponsesApart sys .task) :
    Tracks (collect AmOut.dispatched) OneAtATime unanswered (amipctask s) := by
  simp only [ResponsesApart, hsys] at hguard
  unfold amipctask
  cases hque : s.amicmsgque with
  | nil => exact tracks_nil h
  | cons msg rest =>
      simp only [hque] at hguard
      have hcodes := h.codes
      have hcount := h.count
      rw [hque, List.all_cons, Bool.and_eq_true] at hcodes
      rw [hque, List.countP_cons] at hcount
      refine tracks_andThen_of_eq (tracks_amappevent h.length_le ?_ ?_ ?_) ?_
      · rintro cause rfl hcode
        have hcause : cause = s.amresultcode := by simpa [AmMsg.hasCode] using hcodes.1
        rw [AmMsg.isAnswer, hcause, decide_eq_true hcode, if_pos rfl] at hcount
        have hbusy := s.amreqbusy.toNat_le
        refine ⟨hcodes.2, ?_⟩
        simp only [Bool.toNat_false]
        omega
      · intro _ _ _
        exact ⟨hcodes.2, Nat.le_trans (by simp only; omega) hcount⟩
      · intro _ _ _
        exact ⟨hcodes.2, Nat.le_trans (by simp only; omega) hcount⟩
      · intro t m ht hstep
        apply tracks_amservequeue hstep
        intro hidle evt hevt hversion
        rw [amappevent_amicmsgque ht]
        exact hguard t ht hidle evt hevt hversion

/-- A step with its responses apart keeps the task in step. -/
theorem amStep_of_guard {sys : AmSystem} (h : OneAtATime sys.am sys.unanswered)
    {event : AmEvent} (hguard : ResponsesApart sys event) :
    OneAtATime (amStep sys event).1.am (amStep sys event).1.unanswered := by
  unfold amStep
  cases hsys : sys.am with
  | none =>
      simp only
      rw [hsys] at h ⊢
      exact h
  | some s =>
      rw [hsys] at h
      cases event with
      | receive msg ipcchannel =>
          have hreceive : Tracks (collect AmOut.dispatched) OneAtATime sys.unanswered
              (amipcrcvhandler s msg ipcchannel) := by
            unfold amipcrcvhandler icsmt_send
            split_ifs
            · exact tracks_nil (InStep.receive h _)
            · exact tracks_uncollected (InStep.length_le h) (by simp [AmOut.dispatched])
            · exact tracks_uncollected (InStep.length_le h) (by simp [AmOut.dispatched])
          exact tracks_collect_iff.mp hreceive
      | task => exact tracks_collect_iff.mp (tracks_amipctask h hsys hguard)
      | tick =>
          simp only [ResponsesApart, hsys] at hguard
          exact tracks_collect_iff.mp (tracks_amtick h hguard)
      | answer response =>
          simp only [ResponsesApart, hsys] at hguard
          cases hunanswered : sys.unanswered with
          | nil =>
              simp only
              rw [hsys, hunanswered]
              rw [hunanswered] at h
              exact h
          | cons ipcchannel rest =>
              rw [hunanswered] at h hguard
              have hcodes := hguard.resolve_left (by simp)
              have hstop : OneAtATime none rest :=
                Nat.le_trans (Nat.le_succ _) (InStep.length_le h)
              exact tracks_collect_iff.mp (tracks_amsdk_send hstop rfl
                (InStep.answer h response.resultcode_ne hcodes) ipcchannel)

theorem length_le {am : Option AmIpcCb} (h : OneAtATime am unanswered) :
    unanswered.length ≤ 1 := by
  cases am with
  | none => exact h
  | some s => exact InStep.length_le h

/-- A task in step handles an event with its own result code. -/
theorem stopAndWait {sys : AmSystem} (h : OneAtATime sys.am sys.unanswered) {event : AmEvent}
    (hguard : ResponsesApart sys event) : StopAndWait sys event := by
  refine ⟨length_le (amStep_of_guard h hguard), ?_⟩
  rintro s cause rest hsys rfl hque
  rw [hsys] at h
  have hcodes := h.codes
  rw [hque, List.all_cons, Bool.and_eq_true, AmMsg.hasCode, decide_eq_true_eq] at hcodes
  exact hcodes.1.symm

end OneAtATime

/-- In a run in which responses are sent apart, QM has at most one request to answer, and every
response-sent event is handled with the result code of its response. -/
theorem stopAndWait_of_responsesApart {events : List AmEvent}
    (h : Meets amStep ResponsesApart amsysinit events) :
    Meets amStep StopAndWait amsysinit events := by
  have hinit : OneAtATime amsysinit.am amsysinit.unanswered := ⟨rfl, Nat.le_refl 0⟩
  exact meets_of_invariant (I := fun sys => OneAtATime sys.am sys.unanswered)
    (fun _ _ hs hguard => OneAtATime.amStep_of_guard hs hguard)
    (fun _ _ hs hguard => OneAtATime.stopAndWait hs hguard) hinit h

/-- A request is with QM, a second one runs out of time, and its timeout is handled before the
first one is answered. -/
theorem stopAndWait_queueTimeout :
    Meets amStep StopAndWait amsysinit
      (requestEvents 2000 ++ requestEvents 50 ++ [.tick, .task, .answer goodResponse, .task]) :=
  stopAndWait_of_responsesApart (by decide +kernel)

/-- The first of four requests is answered after the second one ran out of time and before the
event of its timeout is handled. -/
def overwrittenRun : List AmEvent :=
  requestEvents 2000 ++ requestEvents 50 ++ requestEvents 2000 ++ requestEvents 2000 ++
    [.tick, .answer goodResponse, .task]

/-- Both events are handled as the end of a request, and two requests are with QM. -/
theorem overwrittenRun_not_stopAndWait :
    ¬ Meets amStep StopAndWait amsysinit (overwrittenRun ++ [.task]) := by
  intro h
  obtain ⟨-, ⟨hlength, -⟩, -⟩ := meets_append.mp h
  revert hlength
  decide +kernel

end Am

end SierraSdk
