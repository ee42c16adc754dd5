import SierraSdk.Im.Cwe

/-!
# The events of the CWE task

A response of the device is run as the event that is declared for it. The code of the responses to
the first two requests is the same, and some devices answer them with an error: in the states in
which the task waits for them, both codes are that response. A command byte that is not one of the
protocol aborts the daemon.

`frames_answered` states this for every frame of a run (`Answers`), as far as the declarations of the events
and of the responses agree: they differ in the numbers of the image preference response and of the
error.
-/

namespace SierraSdk

namespace Im

namespace Cwe

open Hd (HdRxCtlBk hdrxreset)
open Sm (SmT smrun smrun_cases)

/-- The event that is declared for a response. -/
def declaredEvent (state : ℕ) (command : UInt8) : Option ImstEvent :=
  if command = vHelloRsp then
    if state = StIm.waitsdp then some .helloRsp else some .sdpAck
  else if command = vOpenRsp then some .ofPktRsp
  else if command = vWriteRsp then some .ufWriteRsp
  else if command = vDoneRsp then some .doneRsp
  else if command = vCurrentImagePreferenceRsp then some .getImagePrefRsp
  else if command = vErrorPacketRsp then some .errorRsp
  else none

/-- The columns of the action table. -/
def columns : List ImstEvent :=
  [.sdpAck, .helloRsp, .ofPktRsp, .ufWriteRsp, .doneRsp, .getImagePrefRsp, .errorRsp, .shutdown,
   .badElf, .hostIoErr]

/-- The action that is listed under the name of an event. -/
def namedAction (state : ℕ) (ev : ImstEvent) : Option Action :=
  if ev ∈ columns then imSat.getD (state * imMaxEvent + columns.idxOf ev) none else none

/-- The action that is executed for an event. -/
def executed (s : ImCwe) (ev : ℕ) : Option Action := (smrun s.sm ev).bind fun r => r.2.map Prod.fst

/-- The download has begun and is not finished. -/
def InProgress (state : ℕ) : Prop := StIm.hello ≤ state ∧ state ≤ StIm.done

/-- A frame is handled as it must be: the event is that of the response, the action the one listed
under its name, an error ends the task while the download is in progress, and the daemon is not
aborted. -/
def Handles : Option ImCwe → List UInt8 × World → Prop
  | none, _ => True
  | some s, (frame, w) =>
      s.terminated = false → ∀ t, unframed frame s = some t →
        let command := (t.psdp w).getD 0 0
        (∀ ev, declaredEvent t.state command = some ev →
            eventOf t.state command = some ev.number) ∧
          (∀ ev : ImstEvent, eventOf t.state command = some ev.number →
            ∀ action, executed t ev.number = some action → namedAction t.state ev = some action) ∧
          (command = vErrorPacketRsp → InProgress t.state →
            ∀ t', (step (some s) (frame, w)).1 = some t' → t'.terminated = true) ∧
          Output.erAbort ∉ (step (some s) (frame, w)).2

/-- The event of an answer to the request that was sent last. An error counts as the answer to the
first two requests. -/
def answerEvent (state : ℕ) (command : UInt8) : Option ImstEvent :=
  if command = vErrorPacketRsp then
    if state = StIm.idle then some .sdpAck
    else if state = StIm.waitsdp then some .helloRsp
    else none
  else if command = vCurrentImagePreferenceRsp then none
  else declaredEvent state command

/-- A frame is handled as an answer: the event is that of the answer, the action the one listed
under its name, and the daemon is aborted exactly by a byte that is no command. -/
def Answers : Option ImCwe → List UInt8 × World → Prop
  | none, _ => True
  | some s, (frame, w) =>
      s.terminated = false → ∀ t, unframed frame s = some t →
        let command := (t.psdp w).getD 0 0
        (∀ ev, answerEvent t.state command = some ev →
            eventOf t.state command = some ev.number) ∧
          (∀ ev : ImstEvent, eventOf t.state command = some ev.number →
            ∀ action, executed t ev.number = some action → namedAction t.state ev = some action) ∧
          (Output.erAbort ∈ (step (some s) (frame, w)).2 ↔
            ∀ entry ∈ ssdpCommands, entry.1 ≠ command)

section States

variable {s t : ImCwe} {w : World} {psdp : List UInt8}

/-- The state of the machine is one of the rows of the tables. -/
def ImCwe.Active (s : ImCwe) : Prop := s.state < StIm.numActiveStates

theorem ImCwe.Active.congr (hs : s.Active) (h : t.state = s.state) : t.Active := by
  rw [ImCwe.Active, h]
  exact hs

theorem state_impreparefile : (impreparefile w s).state = s.state := by
  rw [impreparefile]
  split
  split_ifs <;> rfl

theorem state_imsendOFpkt : (imsendOFpkt psdp w s).1.state = s.state := by
  simp only [imsendOFpkt]
  split_ifs <;> simp only [state_impreparefile]

theorem state_writeQDLImageBlock {sequenceNumber : UInt16} {offset blockSize : UInt32}
    (h : (writeQDLImageBlock sequenceNumber offset blockSize s).1 = some t) :
    t.state = s.state := by
  rw [writeQDLImageBlock] at h
  split at h
  · exact absurd h (Option.some_ne_none t).symm
  · exact congrArg ImCwe.state (Option.some.inj h).symm

/-- An action keeps the state, or sets one of the active states. -/
theorem active_call {action : Action} (hs : s.Active) (h : (call psdp w s action).1 = some t) :
    t.Active := by
  cases action with
  | imsendhello =>
      simp only [call, imsendhello] at h
      split at h
      · exact absurd h (Option.some_ne_none t).symm
      · exact Option.some.inj h ▸ hs
  | imsendOFpkt =>
      obtain rfl := Option.some.inj h
      exact hs.congr state_imsendOFpkt
  | imsendUFwrite =>
      simp only [call, imsendUFwrite] at h
      split at h
      · exact absurd h (Option.some_ne_none t).symm
      · split_ifs at h
        · exact Option.some.inj h ▸ hs
        · exact Option.some.inj h ▸ hs
        · have hstate := state_writeQDLImageBlock h
          exact hs.congr hstate
  | imsendNextUFwrite =>
      simp only [call, imsendNextUFwrite] at h
      split_ifs at h
      · obtain rfl := Option.some.inj h
        change (finishImage w s).1.Active
        simp only [finishImage]
        split_ifs
        · rw [ImCwe.Active, state_imsendOFpkt]
          exact (by decide : StIm.hello < StIm.numActiveStates)
        · exact (by decide : StIm.done < StIm.numActiveStates)
      · exact Option.some.inj h ▸ hs
      · have hstate := state_writeQDLImageBlock h
        exact hs.congr hstate
  | imsendDoneFinal =>
      simp only [call, imsendDoneFinal] at h
      split at h
      · exact absurd h (Option.some_ne_none t).symm
      · exact Option.some.inj h ▸ hs
  | imtaskshutdown => exact Option.some.inj h ▸ hs
  | imError =>
      obtain rfl := Option.some.inj h
      rw [ImCwe.Active, imError]
      split_ifs
      · exact hs
      · exact hs

/-- An entry of the transition table is a marker or an active state. -/
theorem imStt_active : ∀ nextstate ∈ imStt,
    nextstate = StIm.ignore ∨ nextstate < StIm.numActiveStates := by
  decide

theorem active_runEvent {ev : ℕ} (hs : s.Active) (h : (runEvent w ev s).1 = some t) :
    t.Active := by
  cases hrun : smrun s.sm ev with
  | none =>
      simp only [runEvent, hrun] at h
      exact absurd h (Option.some_ne_none t).symm
  | some r =>
      obtain ⟨sm, called⟩ := r
      have hsm : sm.state < StIm.numActiveStates := by
        rcases smrun_cases hrun with ⟨rfl, -⟩ | ⟨nextstate, action, hstt, -, -, hignore, rfl, -⟩
        · exact hs
        · rcases imStt_active nextstate (List.mem_of_getElem? hstt) with hmarker | hactive
          · exact absurd hmarker hignore
          · exact hactive
      rcases called with _ | ⟨action, udata⟩
      · simp only [runEvent, hrun] at h
        exact Option.some.inj h ▸ hsm
      · simp only [runEvent, hrun] at h
        exact active_call (s := { s with state := sm.state }) hsm h

theorem unframed_state {frame : List UInt8} (h : unframed frame s = some t) :
    t.state = s.state := by
  obtain ⟨r, -, rfl⟩ := Option.map_eq_some_iff.mp h
  rfl

theorem active_step {frame : List UInt8} (hs : s.Active)
    (h : (step (some s) (frame, w)).1 = some t) : t.Active := by
  simp only [step, framedRsp] at h
  split_ifs at h
  · exact Option.some.inj h ▸ hs
  · split at h
    · exact absurd h (Option.some_ne_none t).symm
    · rename_i r hr
      have hactive : r.Active := hs.congr (unframed_state hr)
      split at h
      · exact absurd h (Option.some_ne_none t).symm
      · exact active_runEvent hactive h

end States

section Events

variable {s t : ImCwe} {w : World} {psdp : List UInt8}

/-- No action aborts the daemon. -/
theorem erAbort_call (action : Action) : Output.erAbort ∉ (call psdp w s action).2 := by
  have hwrite : ∀ (sequenceNumber : UInt16) (offset blockSize : UInt32) (s : ImCwe),
      Output.erAbort ∉ (writeQDLImageBlock sequenceNumber offset blockSize s).2 := by
    intro sequenceNumber offset blockSize s
    rw [writeQDLImageBlock]
    split <;> simp
  have hopen : ∀ (psdp : List UInt8) (s : ImCwe), Output.erAbort ∉ (imsendOFpkt psdp w s).2 := by
    intro psdp s
    simp only [imsendOFpkt]
    split_ifs <;> simp
  cases action with
  | imsendhello =>
      simp only [call, imsendhello]
      split <;> simp
  | imsendOFpkt => exact hopen psdp s
  | imsendUFwrite =>
      simp only [call, imsendUFwrite]
      split
      · exact List.not_mem_nil
      · split_ifs
        · exact List.not_mem_nil
        · exact List.not_mem_nil
        · exact hwrite _ _ _ _
  | imsendNextUFwrite =>
      simp only [call, imsendNextUFwrite]
      split_ifs
      · simp only [finishImage]
        split_ifs
        · exact hopen [] _
        · simp [imsendDone]
      · exact List.not_mem_nil
      · exact hwrite _ _ _ _
  | imsendDoneFinal =>
      simp only [call, imsendDoneFinal]
      split <;> simp [closeQDLPort]
  | imtaskshutdown => exact List.not_mem_nil
  | imError => exact List.not_mem_nil

theorem erAbort_runEvent {ev : ℕ} : Output.erAbort ∉ (runEvent w ev s).2 := by
  rw [runEvent]
  split
  · exact List.not_mem_nil
  · exact List.not_mem_nil
  · exact erAbort_call _

/-- The daemon is aborted by a byte that has no event. -/
theorem erAbort_framedRsp {frame : List UInt8} (ht : unframed frame s = some t) :
    Output.erAbort ∈ (framedRsp frame w s).2 ↔ eventOf t.state ((t.psdp w).getD 0 0) = none := by
  simp only [framedRsp, ht]
  cases eventOf t.state ((t.psdp w).getD 0 0) with
  | none => simp
  | some ev => exact ⟨fun h => absurd h erAbort_runEvent, fun h => absurd h (Option.some_ne_none _)⟩

theorem eventOf_none {state : ℕ} {command : UInt8} :
    eventOf state command = none ↔ ∀ entry ∈ ssdpCommands, entry.1 ≠ command := by
  rw [eventOf, Option.map_eq_none_iff, imssdpMapCmd, List.lookup_eq_none_iff]
  exact forall₂_congr fun entry _ => bne_iff_ne.trans ne_comm

/-- The numbers of the events that command bytes are mapped to. -/
theorem eventOf_lt {state ev : ℕ} {command : UInt8} (h : eventOf state command = some ev) :
    ev < 8 := by
  have hnumbers : ∀ entry ∈ ssdpCommands, entry.2 < 8 := by decide
  obtain ⟨number, hlookup, rfl⟩ := Option.map_eq_some_iff.mp h
  have hlt : number < 8 := by
    obtain ⟨l₁, l₂, hsplit, -⟩ := List.lookup_eq_some_iff.mp hlookup
    exact hnumbers (command, number) (hsplit ▸ List.mem_append_right _ List.mem_cons_self)
  split_ifs
  · exact (by decide : ImstEvent.sdpAck.number < 8)
  · exact (by decide : ImstEvent.helloRsp.number < 8)
  · exact hlt
  · exact hlt

/-- An answer is mapped to its event. -/
theorem eventOf_answer {state : ℕ} {command : UInt8} {ev : ImstEvent}
    (h : answerEvent state command = some ev) : eventOf state command = some ev.number := by
  rw [answerEvent] at h
  split_ifs at h with herror hidle hwait hpref
  · obtain rfl := Option.some.inj h
    rw [herror, hidle]
    decide
  · obtain rfl := Option.some.inj h
    rw [herror, hwait]
    decide
  · rw [declaredEvent] at h
    split_ifs at h with hrsp hwait hopen hwrite hdone
    · obtain rfl := Option.some.inj h
      rw [hrsp, hwait]
      decide
    · obtain rfl := Option.some.inj h
      have hmap : imssdpMapCmd vHelloRsp = some ImstEvent.sdpAck.number := rfl
      rw [hrsp, eventOf, hmap, Option.map_some, if_pos (Or.inl rfl), if_neg hwait, ite_self]
    · obtain rfl := Option.some.inj h
      rw [hopen]
      rfl
    · obtain rfl := Option.some.inj h
      rw [hwrite]
      rfl
    · obtain rfl := Option.some.inj h
      rw [hdone]
      rfl

/-- For the events of command bytes, the action that the tables execute is the one listed under the
name of the event, although the action table lacks a column. -/
theorem executed_named {ev : ImstEvent} {action : Action} (hs : s.Active) (hev : ev.number < 8)
    (h : executed s ev.number = some action) : namedAction s.state ev = some action := by
  have htable : ∀ state < StIm.numActiveStates, ∀ ev : ImstEvent, ev.number < 8 →
      imStt.getD (state * imMaxEvent + ev.number) StIm.ignore ≠ StIm.ignore →
        imSat.getD (state * imMaxEvent + ev.number) none = namedAction state ev := by
    intro state hstate ev
    cases ev <;> revert state <;> decide
  obtain ⟨⟨sm, called⟩, hrun, hcalled⟩ := Option.bind_eq_some_iff.mp h
  rcases smrun_cases hrun with ⟨-, rfl⟩ | ⟨nextstate, act, hstt, hsat, -, hignore, -, rfl⟩
  · exact absurd hcalled (Option.some_ne_none action).symm
  · have hnext : imStt.getD (s.state * imMaxEvent + ev.number) StIm.ignore ≠ StIm.ignore := by
      rw [List.getD_eq_getElem?_getD]
      exact (congrArg (Option.getD · StIm.ignore) hstt).trans_ne hignore
    have hentry : imSat.getD (s.state * imMaxEvent + ev.number) none = act := by
      rw [List.getD_eq_getElem?_getD]
      exact congrArg (Option.getD · none) hsat
    rw [← htable s.state hs ev hev hnext, hentry]
    rw [Option.map_map] at hcalled
    obtain ⟨a, rfl, rfl⟩ := Option.map_eq_some_iff.mp hcalled
    rfl

end Events

/-- Every frame of a run is handled as an answer. -/
theorem frames_answered (hdr : HdRxCtlBk) (udata : List UInt8) (qdl : CweQdl)
    (frames : List (List UInt8 × World)) :
    Machine.Meets step Answers (some (start hdr udata qdl)) frames := by
  refine Machine.meets_of_invariant (G := fun _ _ => True)
    (I := fun s => ∀ t, s = some t → t.Active) ?_ ?_ ?_ ?_
  · rintro (_ | s) ⟨frame, w⟩ hs - t ht
    · exact absurd ht (Option.some_ne_none t).symm
    · exact active_step (hs s rfl) ht
  · rintro (_ | s) ⟨frame, w⟩ hs -
    · trivial
    · intro halive t ht
      have hactive : t.Active := (hs s rfl).congr (unframed_state ht)
      refine ⟨fun ev => eventOf_answer, fun ev hev action => ?_, ?_⟩
      · exact executed_named hactive (eventOf_lt hev)
      · simp only [step, halive]
        exact (erAbort_framedRsp ht).trans eventOf_none
  · rintro t ht
    obtain rfl := Option.some.inj ht
    exact (by decide : StIm.idle < StIm.numActiveStates)
  · exact Machine.meets_iff.mpr fun _ _ _ _ => trivial

/-- A download that starts with nothing left of an earlier one. -/
def fresh : CweQdl := ⟨⟨0, 0, 0, 0, 0, 0, 0, 0⟩, 0, 0, false, 0, false, none⟩

/-- Nothing lies behind a message, there are no images, and files can be mapped. -/
def emptyWorld : World := ⟨[], 0, [], true⟩

/-- A frame with the command byte `0x03`, which is no command, aborts the daemon. -/
theorem not_handles_invalidByte :
    ¬ ∀ (hdr : HdRxCtlBk) (udata : List UInt8) (qdl : CweQdl)
      (frames : List (List UInt8 × World)),
      Machine.Meets step Handles (some (start hdr udata qdl)) frames := by
  intro hall
  obtain ⟨hhandles, -⟩ := hall hdrxreset [] fresh [([0x7e, 0x03, 0x31, 0x32, 0x7e], emptyWorld)]
  have hunframed : unframed [0x7e, 0x03, 0x31, 0x32, 0x7e] (start hdrxreset [] fresh) =
      some { start hdrxreset [] fresh with udata := [0x03, 0x31, 0x32] } := by
    decide
  obtain ⟨-, -, -, hnoAbort⟩ := hhandles rfl _ hunframed
  have habort : Output.erAbort ∈
      (step (some (start hdrxreset [] fresh))
        ([0x7e, 0x03, 0x31, 0x32, 0x7e], emptyWorld)).2 := by
    decide
  exact hnoAbort habort

end Cwe

end Im

end SierraSdk
