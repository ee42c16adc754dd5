import SierraSdk.Am.Task

/-!
# A busy task is owed a response

While the AM task is busy it processes no request, and only a response-sent event with a result
code other than `SWICM_TIMEOUT` ends that. So a busy task should be owed a response, or have such
an event queued (`Owed`). A dispatched packet that nothing answers breaks this, and so does a
request that runs out of time when the answer to another one has been sent and its event not
been handled: the event then says `SWICM_TIMEOUT`.
-/

namespace SierraSdk

namespace Am

open Ci Machine

/-- Whether a message is a response-sent event. -/
def AmMsg.isRespSent : AmMsg → Bool
  | .appRequest _ => false
  | .appRespSent _ => true

/-- When the task is busy, QM has a request to answer, or a response-sent event is queued that
will be handled with a result code other than the timeout. -/
def Owed : Option AmIpcCb → List CiRrChannel → Prop
  | none, _ => True
  | some s, unanswered =>
      s.amreqbusy = true → unanswered ≠ [] ∨
        s.amicmsgque.any AmMsg.isRespSent = true ∧
          s.amresultcode ≠ EQCWWANError.swicmTimeout

instance : ∀ am unanswered, Decidable (Owed am unanswered)
  | none, _ => .isTrue trivial
  | some _, _ => inferInstanceAs (Decidable (_ → _ ∨ _ ∧ _))

/-- After a step a busy task is owed a response. -/
def OwedAfter (sys : AmSystem) (event : AmEvent) : Prop :=
  Owed (amStep sys event).1.am (amStep sys event).1.unanswered

/-- The request that the task comes to is answered by someone, and when a request runs out of
time and the task is busy, QM has not answered yet. -/
def Answered (sys : AmSystem) (event : AmEvent) : Prop :=
  match sys.am, event with
  | some s, .tick =>
      s.ameventheadq.any AmEvtBlock.expiring = true → s.amreqbusy = true → sys.unanswered ≠ []
  | some s, .task =>
      match s.amicmsgque with
      | [] => True
      | msg :: rest =>
          ∀ t ∈ (amappevent { s with amicmsgque := rest } msg).1, t.amreqbusy = false →
            ∀ evt ∈ t.ameventheadq.head?, evt.otherVersion = true ∨ evt.unserved = false
  | _, _ => True

instance (sys : AmSystem) (event : AmEvent) : Decidable (Answered sys event) :=
  match hsys : sys.am, event with
  | some s, .tick =>
      decidable_of_iff (s.ameventheadq.any AmEvtBlock.expiring = true → s.amreqbusy = true →
        ¬ sys.unanswered.isEmpty = true)
        (by simp only [Answered, hsys, List.isEmpty_iff, ne_eq])
  | some s, .task =>
      match hque : s.amicmsgque with
      | [] => .isTrue (by simp only [Answered, hsys, hque])
      | msg :: rest =>
          decidable_of_iff (∀ t ∈ (amappevent { s with amicmsgque := rest } msg).1,
            t.amreqbusy = false →
              ∀ evt ∈ t.ameventheadq.head?, evt.otherVersion = true ∨ evt.unserved = false)
            (by simp only [Answered, hsys, hque])
  | some _, .receive _ _ | some _, .answer _ => .isTrue (by simp only [Answered, hsys])
  | none, _ => .isTrue (by simp only [Answered, hsys])

namespace Owed

variable {s : AmIpcCb} {unanswered : List CiRrChannel}

theorem stopped : Owed none unanswered := trivial

/-- A request is with QM while the task is busy. -/
theorem of_pending {am : Option AmIpcCb}
    (h : ∀ s, am = some s → s.amreqbusy = true → unanswered ≠ []) : Owed am unanswered := by
  cases am with
  | none => trivial
  | some s => exact fun hbusy => .inl (h s rfl hbusy)

/-- A response with another result code than the timeout. -/
theorem responded_of_ne {code : EQCWWANError} (hcode : code ≠ EQCWWANError.swicmTimeout) :
    Owed (some (responded s code)) unanswered := by
  intro _
  exact .inr ⟨by simp [responded, AmMsg.isRespSent], hcode⟩

theorem tracks_amtick (h : Owed (some s) unanswered)
    (hguard : s.ameventheadq.any AmEvtBlock.expiring = true → s.amreqbusy = true →
      unanswered ≠ []) :
    Tracks (collect AmOut.dispatched) Owed unanswered (amtick s) := by
  cases hexp : s.ameventheadq.any AmEvtBlock.expiring with
  | false =>
      rw [amtick, amtickLoop_eq hexp]
      exact tracks_nil h
  | true =>
      have hpending : Tracks (collect AmOut.dispatched)
          (fun t m => ∀ s, t = some s → s.amreqbusy = true → m ≠ []) unanswered (amtick s) := by
        apply tracks_amtickLoop
        · rintro _ _ _ _ ⟨⟩
        · rintro s m queue hs _ ⟨⟩
          exact hs s rfl
        · rintro s m hs _ ⟨⟩
          exact hs s rfl
        · rintro _ ⟨⟩
          exact hguard hexp
      exact hpending.imp fun m hm => of_pending hm

theorem tracks_amservequeue (h : Owed (some s) unanswered)
    (hguard : s.amreqbusy = false → ∀ evt ∈ s.ameventheadq.head?,
      evt.otherVersion = true ∨ evt.unserved = false) :
    Tracks (collect AmOut.dispatched) Owed unanswered (amservequeue s) := by
  unfold amservequeue
  cases hbusy : s.amreqbusy with
  | true => exact tracks_nil h
  | false =>
      simp only [Bool.false_eq_true, if_false]
      cases hqueue : s.ameventheadq with
      | nil => exact tracks_nil h
      | cons evt rest =>
          apply tracks_amserverequest stopped
          · exact fun _ => responded_of_ne (by decide)
          · exact fun _ _ => .inl (by simp)
          · intro hversion hunserved
            have hserved := hguard hbusy evt (by rw [hqueue]; rfl)
            rw [hversion, hunserved] at hserved
            simp at hserved

theorem tracks_amipctask (h : Owed (some s) unanswered) {sys : AmSystem}
    (hsys : sys.am = some s) (hguard : Answered sys .task) :
    Tracks (collect AmOut.dispatched) Owed unanswered (amipctask s) := by
  simp only [Answered, hsys] at hguard
  unfold amipctask
  cases hque : s.amicmsgque with
  | nil => exact tracks_nil h
  | cons msg rest =>
      simp only [hque] at hguard
      refine tracks_andThen_of_eq (tracks_amappevent stopped ?_ ?_ ?_) ?_
      · rintro cause - - ⟨⟩
      · intro cause _ hcode hbusy
        exact .inl ((h hbusy).resolve_right fun hevent => hevent.2 hcode)
      · rintro evt evt' rfl hbusy
        simpa [hque, AmMsg.isRespSent] using h hbusy
      · exact fun t m ht hstep => tracks_amservequeue hstep (hguard t ht)

/-- A step in which what is dispatched is answered keeps the task owed a response. -/
theorem amStep_of_guard {sys : AmSystem} (h : Owed sys.am sys.unanswered) {event : AmEvent}
    (hguard : Answered sys event) : OwedAfter sys event := by
  unfold OwedAfter amStep
  cases hsys : sys.am with
  | none =>
      simp only
      rw [hsys]
      trivial
  | some s =>
      rw [hsys] at h
      cases event with
      | receive msg ipcchannel =>
          have hreceive : Tracks (collect AmOut.dispatched) Owed sys.unanswered
              (amipcrcvhandler s msg ipcchannel) := by
            unfold amipcrcvhandler icsmt_send
            split_ifs
            · exact tracks_nil fun hbusy => by simpa [AmMsg.isRespSent] using h hbusy
            · exact tracks_uncollected stopped (by simp [AmOut.dispatched])
            · exact tracks_uncollected stopped (by simp [AmOut.dispatched])
          exact tracks_collect_iff.mp hreceive
      | task => exact tracks_collect_iff.mp (tracks_amipctask h hsys hguard)
      | tick =>
          simp only [Answered, hsys] at hguard
          exact tracks_collect_iff.mp (tracks_amtick h hguard)
      | answer response =>
          cases hunanswered : sys.unanswered with
          | nil =>
              simp only
              rw [hsys, hunanswered]
              rw [hunanswered] at h
              exact h
          | cons ipcchannel rest =>
              exact tracks_collect_iff.mp (tracks_amsdk_send stopped rfl
                (responded_of_ne response.resultcode_ne) ipcchannel)

end Owed

/-- In a run in which what is dispatched is answered, a busy task is always owed a response. -/
theorem owedAfter_of_answered {events : List AmEvent}
    (h : Meets amStep Answered amsysinit events) : Meets amStep OwedAfter amsysinit events := by
  have hinit : Owed amsysinit.am amsysinit.unanswered := by
    rintro ⟨⟩
  have hstep : ∀ sys event, Owed sys.am sys.unanswered → Answered sys event →
      OwedAfter sys event := fun _ _ hs hguard => Owed.amStep_of_guard hs hguard
  exact meets_of_invariant hstep hstep hinit h

/-- A request runs out of time while another one is with QM. -/
theorem owedAfter_queueTimeout :
    Meets amStep OwedAfter amsysinit
      (requestEvents 2000 ++ requestEvents 50 ++ [.tick, .answer goodResponse, .task, .task]) :=
  owedAfter_of_answered (by decide +kernel)

/-- A packet of an unknown type is dispatched to no one. -/
theorem not_owedAfter_unknownType :
    ¬ Meets amStep OwedAfter amsysinit [.receive (dmsPacket 0x55 2000) firstRr, .task] := by
  rintro ⟨-, howed, -⟩
  unfold OwedAfter at howed
  revert howed
  decide +kernel

end Am

end SierraSdk
