import SierraSdk.Library.Machine
import Mathlib.Data.Finset.Card
import Mathlib.Data.Finset.Dedup
import Mathlib.Data.Finset.Lattice.Lemmas
import Mathlib.Data.UInt

/-!
# Subscriptions to the notifications of the modem

The AM task reads the CnS requests of the applications on their way to the modem, and keeps a
table of who asked to be notified of what: an entry for each object that was ever asked for,
with a bit for each request channel. `amsdk_sendcnsnot` sends a notification to the
notification channels whose bit is set, and clears the bit of one whose application has gone.

`effect k o e` is what an event `e` does to the subscription of request channel `k` to object
`o`: a start sets it, and a stop, a stop-all on any channel, and a notification that finds the
application gone clear it. `notified_iff_lastEffect` says that the table is at any time what the
last of these effects has left.
-/

namespace SierraSdk

namespace Sdk

open Machine

section Channels

/-- The names of the channels. -/
inductive CiName where
  | cnrr1 | cnrr2 | cnrr3 | cnrr4 | cnrr5
  | notif1 | notif2 | notif3 | notif4 | notif5
  | uiipc | diag | udiag | nmea | unmea | dummy
  deriving DecidableEq

/-- Interface types. -/
inductive CiIpcIf where
  | ciipc
  | ciuif
  deriving DecidableEq

/-- Use types. -/
inductive CiIpcIfUse where
  | cirr
  | cinotif
  | cidrsvc
  | ciui
  | ciifinvalid
  deriving DecidableEq

/-- What is fixed about a channel. -/
structure CiIpcChanFixed where
  ciname : CiName
  cipeername : CiName
  ciiftype : CiIpcIf
  ciipcifuse : CiIpcIfUse
  deriving DecidableEq

/-- The channel table. -/
def ciipcchanfixedinfo : List CiIpcChanFixed :=
  [⟨.cnrr1, .notif1, .ciipc, .cirr⟩, ⟨.cnrr2, .notif2, .ciipc, .cirr⟩,
    ⟨.cnrr3, .notif3, .ciipc, .cirr⟩, ⟨.cnrr4, .notif4, .ciipc, .cirr⟩,
    ⟨.cnrr5, .notif5, .ciipc, .cirr⟩, ⟨.notif1, .cnrr1, .ciipc, .cinotif⟩,
    ⟨.notif2, .cnrr2, .ciipc, .cinotif⟩, ⟨.notif3, .cnrr3, .ciipc, .cinotif⟩,
    ⟨.notif4, .cnrr4, .ciipc, .cinotif⟩, ⟨.notif5, .cnrr5, .ciipc, .cinotif⟩,
    ⟨.uiipc, .dummy, .ciipc, .ciui⟩, ⟨.diag, .udiag, .ciipc, .cidrsvc⟩,
    ⟨.udiag, .diag, .ciuif, .ciifinvalid⟩, ⟨.nmea, .unmea, .ciipc, .cidrsvc⟩]

/-- The loop of `cigetnextchannel`: `ipcnum` counts down the channels of the use type. -/
def nextChannel (ipcifuse : CiIpcIfUse) : List CiIpcChanFixed → ℕ → ℕ
  | [], _ => 0
  | c :: cs, ipcnum =>
      if c.ciiftype = .ciipc ∧ c.ciipcifuse = ipcifuse then
        if ipcnum = 0 then 0 else nextChannel ipcifuse cs (ipcnum - 1) + 1
      else nextChannel ipcifuse cs ipcnum + 1

/-- The number of the channel with index `ipcnum` among those of the use type. -/
def cigetnextchannel (ipcnum : ℕ) (ipcifuse : CiIpcIfUse) : ℕ :=
  nextChannel ipcifuse ciipcchanfixedinfo ipcnum

/-- The number of notification channels. -/
def cigetnumnotifchan : ℕ := ciipcchanfixedinfo.countP (·.ciipcifuse = .cinotif)

/-- The channel that has the peer name of channel `c` for its name. -/
def peerChannel (c : ℕ) : Option ℕ :=
  ciipcchanfixedinfo[c]?.bind fun info =>
    ciipcchanfixedinfo.findIdx? (·.ciname = info.cipeername)

/-- The channels that applications send requests on. -/
def requestChannels : List ℕ :=
  (List.range ciipcchanfixedinfo.length).filter fun c =>
    (ciipcchanfixedinfo[c]?).any (·.ciipcifuse = .cirr)

/-- A request channel. -/
structure AppChannel where
  channel : ℕ
  mem : channel ∈ requestChannels

theorem AppChannel.lt (k : AppChannel) : k.1 < 5 := by
  have h : ∀ c ∈ requestChannels, c < 5 := by decide
  exact h k.1 k.mem

/-- The notification channel with index `idx` is the peer of the request channel with number
`idx`: this is how a bit that is set under the one is found under the other. -/
theorem peerChannel_eq_cigetnextchannel :
    ∀ idx < cigetnumnotifchan, peerChannel idx = some (cigetnextchannel idx .cinotif) := by
  decide

theorem cigetnextchannel_injOn :
    ∀ i < cigetnumnotifchan, ∀ j < cigetnumnotifchan,
      cigetnextchannel i .cinotif = cigetnextchannel j .cinotif → i = j := by
  decide

theorem mem_requestChannels_iff {c : ℕ} : c ∈ requestChannels ↔ c < cigetnumnotifchan := by
  have h : requestChannels = List.range cigetnumnotifchan := by decide
  rw [h, List.mem_range]

end Channels

section Objects

/-- `CNS_NOTREQ`, `CNS_STOPREQ` and `CNS_SETREQ`. -/
def cnsSetreq : UInt8 := 0x03
def cnsNotreq : UInt8 := 0x05
def cnsStopreq : UInt8 := 0x08

/-- `CNS_DIS_ALL_NOT`, the object that is set to stop all notifications. -/
def cnsDisAllNot : UInt16 := 0x107c

/-- The objects that a start or a stop of an object is for. Some objects stand for a group of
others, and some for themselves and others. -/
def notifObjects (cnsobjid : UInt16) : List UInt16 :=
  match cnsobjid.toNat with
  -- `CNS_CALL_NOTIFICATION_STATUS`: incoming, connected, disconnected, error, connecting,
  -- dormant and OTASP state
  | 0x3000 => [0x3004, 0x300a, 0x300c, 0x300e, 0x3011, 0x3012, 0x3014]
  -- `CNS_CALL_CALLER_ID`: the extended caller id as well
  | 0x3006 => [cnsobjid, 0x3009]
  -- `CNS_LBS_LOC_NOTIFY_STATUS`
  | 0x0f07 => [0x0f0a, 0x0f0b, 0x0f0c, 0x0f0d, 0x0f0e]
  -- `CNS_LBS_DLOAD_NOTIFY_STATUS`
  | 0x0f08 => [0x0f0f, 0x0f10, 0x0f11, 0x0f12]
  -- `CNS_LBS_PARAM_NOTIFY_STATUS`
  | 0x0f09 => [0x0f13, 0x0f14, 0x0f15, 0x0f16, 0x0f17, 0x0f18]
  | _ => [cnsobjid]

end Objects

section Table

/-- An entry of the table. -/
structure AmIpcNotifQ where
  amcnsobjid : UInt16
  amchannotifflg : BitVec 16
  deriving DecidableEq

/-- `AMMAXNOTIFBITSINUSE`. -/
def amMaxNotifBitsInUse : BitVec 16 := 0x1f

/-- `AMMAXNOTIFY`, the number of blocks for entries. -/
def amMaxNotify : ℕ := 250

/-- The flags with the bit of a channel set, and cleared. -/
def enableBit (ipcchannel : ℕ) (flags : BitVec 16) : BitVec 16 :=
  flags ||| ((1#16 <<< ipcchannel) &&& amMaxNotifBitsInUse)
def disableBit (ipcchannel : ℕ) (flags : BitVec 16) : BitVec 16 :=
  flags &&& (~~~(1#16 <<< ipcchannel) &&& amMaxNotifBitsInUse)

theorem getLsbD_amMaxNotifBitsInUse {k : ℕ} (hk : k < 5) :
    amMaxNotifBitsInUse.getLsbD k = true := by
  have h : ∀ k < 5, amMaxNotifBitsInUse.getLsbD k = true := by decide
  exact h k hk

theorem getLsbD_one_shiftLeft {k : ℕ} (hk : k < 16) (c : ℕ) :
    (1#16 <<< c).getLsbD k = decide (k = c) := by
  rw [BitVec.getLsbD_shiftLeft, BitVec.getLsbD_one]
  simp only [hk, decide_true, Bool.true_and]
  grind

theorem getLsbD_enableBit {k : ℕ} (hk : k < 5) (c : ℕ) (flags : BitVec 16) :
    (enableBit c flags).getLsbD k = (flags.getLsbD k || decide (k = c)) := by
  rw [enableBit, BitVec.getLsbD_or, BitVec.getLsbD_and, getLsbD_one_shiftLeft (by omega),
    getLsbD_amMaxNotifBitsInUse hk, Bool.and_true]

theorem getLsbD_disableBit {k : ℕ} (hk : k < 5) (c : ℕ) (flags : BitVec 16) :
    (disableBit c flags).getLsbD k = (flags.getLsbD k && !decide (k = c)) := by
  rw [disableBit, BitVec.getLsbD_and, BitVec.getLsbD_and, BitVec.getLsbD_not,
    getLsbD_one_shiftLeft (by omega), getLsbD_amMaxNotifBitsInUse hk, Bool.and_true,
    decide_eq_true (show k < 16 by omega), Bool.true_and]

/-- Change the flags of the first entry for an object, if there is one. -/
def updateNotif (cnsobjid : UInt16) (f : BitVec 16 → BitVec 16) :
    List AmIpcNotifQ → Option (List AmIpcNotifQ)
  | [] => none
  | e :: q =>
      if e.amcnsobjid = cnsobjid then
        some ({ e with amchannotifflg := f e.amchannotifflg } :: q)
      else (updateNotif cnsobjid f q).map (e :: ·)

/-- Add an entry; no block for it is an abort. -/
def amipcaddnewnotif (q : List AmIpcNotifQ) (cnsobjid : UInt16) (ipcchannel : ℕ) :
    Option (List AmIpcNotifQ) :=
  if q.length < amMaxNotify then some (q ++ [⟨cnsobjid, enableBit ipcchannel 0⟩]) else none

/-- Set the bit of a channel in the entry for an object, which is added if it is missing. -/
def amipcenablenotif (q : List AmIpcNotifQ) (cnsobjid : UInt16) (ipcchannel : ℕ) :
    Option (List AmIpcNotifQ) :=
  match updateNotif cnsobjid (enableBit ipcchannel) q with
  | some q' => some q'
  | none => amipcaddnewnotif q cnsobjid ipcchannel

/-- Clear the bit of a channel in the entry for an object, if there is one. -/
def amipcdisablenotif (q : List AmIpcNotifQ) (cnsobjid : UInt16) (ipcchannel : ℕ) :
    List AmIpcNotifQ :=
  (updateNotif cnsobjid (disableBit ipcchannel) q).getD q

/-- Clear all bits in all entries. -/
def amipcdisableallnotif (q : List AmIpcNotifQ) : List AmIpcNotifQ :=
  q.map fun e => { e with amchannotifflg := 0 }

/-- A start, stop or stop-all request. -/
def amipchandlenotifreq (q : List AmIpcNotifQ) (cnsobjid : UInt16) (cnsoperation : UInt8)
    (ipcchannel : ℕ) : Option (List AmIpcNotifQ) :=
  if cnsoperation = cnsNotreq then
    (notifObjects cnsobjid).foldlM (fun q o => amipcenablenotif q o ipcchannel) q
  else if cnsoperation = cnsStopreq then
    some ((notifObjects cnsobjid).foldl (fun q o => amipcdisablenotif q o ipcchannel) q)
  else if cnsoperation = cnsSetreq then
    some (if cnsobjid = cnsDisAllNot then amipcdisableallnotif q else q)
  else some q

/-- The table after a CnS request: `amdispatchrequest` looks at the requests that are about
notifications, and passes all of them on to the modem. -/
def amdispatchrequest (q : List AmIpcNotifQ) (cnsobjid : UInt16) (cnsoperation : UInt8)
    (ipcchannel : ℕ) : Option (List AmIpcNotifQ) :=
  if cnsoperation = cnsNotreq ∨ cnsoperation = cnsStopreq ∨
      cnsoperation = cnsSetreq ∧ cnsobjid = cnsDisAllNot then
    amipchandlenotifreq q cnsobjid cnsoperation ipcchannel
  else some q

/-- One notification channel of an entry: the bit of one whose application has gone is cleared,
and what was read of the flags before decides on the sending. -/
def notifyChannel (peeravail : ℕ → Bool) (s : BitVec 16 × List ℕ) (ipcchidx : ℕ) :
    BitVec 16 × List ℕ :=
  let localNotifflg := s.1
  let channel := cigetnextchannel ipcchidx .cinotif
  let wanted := (localNotifflg >>> ipcchidx).getLsbD 0
  (if !peeravail channel && wanted then disableBit ipcchidx localNotifflg else localNotifflg,
    if wanted then s.2 ++ [channel] else s.2)

/-- All notification channels of an entry: its flags afterwards, and the channels that the
notification was sent to. -/
def notifyEntry (peeravail : ℕ → Bool) (flags : BitVec 16) : BitVec 16 × List ℕ :=
  (List.range cigetnumnotifchan).foldl (notifyChannel peeravail) (flags, [])

/-- Send a notification: the table afterwards, and the channels that it was sent to. -/
def amsdk_sendcnsnot (peeravail : ℕ → Bool) (cnsobjid : UInt16) :
    List AmIpcNotifQ → List AmIpcNotifQ × List ℕ
  | [] => ([], [])
  | e :: q =>
      let rest := amsdk_sendcnsnot peeravail cnsobjid q
      if e.amcnsobjid = cnsobjid then
        let sent := notifyEntry peeravail e.amchannotifflg
        ({ e with amchannotifflg := sent.1 } :: rest.1, sent.2 ++ rest.2)
      else (e :: rest.1, rest.2)

/-- What happens to the table. A request has the object and the operation of its CnS header and
the channel that it came on; with a notification of the modem stands which notification
channels have an application at their other end. -/
inductive AmEvent where
  | request (cnsobjid : UInt16) (cnsoperation : UInt8) (ipcchannel : AppChannel)
  | notification (cnsobjid : UInt16) (peeravail : ℕ → Bool)

/-- One event. -/
def amStep (q : List AmIpcNotifQ) : AmEvent → Option (List AmIpcNotifQ)
  | .request cnsobjid cnsoperation ipcchannel =>
      amdispatchrequest q cnsobjid cnsoperation ipcchannel.1
  | .notification cnsobjid peeravail => some (amsdk_sendcnsnot peeravail cnsobjid q).1

/-- The table after a sequence of events, if none of them was an abort. -/
def amRun (events : List AmEvent) : Option (List AmIpcNotifQ) := events.foldlM amStep []

end Table

section Subscriptions

/-- What an event does to the subscription of a request channel to an object: a start sets it;
a stop, a stop-all on any channel, and a notification that finds no application at the peer
clear it. -/
def effect (k : ℕ) (o : UInt16) : AmEvent → Option Bool
  | .request cnsobjid cnsoperation ipcchannel =>
      if cnsoperation = cnsNotreq then
        if ipcchannel.1 = k ∧ o ∈ notifObjects cnsobjid then some true else none
      else if cnsoperation = cnsStopreq then
        if ipcchannel.1 = k ∧ o ∈ notifObjects cnsobjid then some false else none
      else if cnsoperation = cnsSetreq ∧ cnsobjid = cnsDisAllNot then some false
      else none
  | .notification cnsobjid peeravail =>
      if cnsobjid = o ∧ (peerChannel k).any (fun c => !peeravail c) then some false else none

/-- The last effect of a sequence of events. -/
def lastEffect (events : List AmEvent) (k : ℕ) (o : UInt16) : Option Bool :=
  events.reverse.findSome? (effect k o)

/-- The objects that the events start. -/
def startedBy : AmEvent → List UInt16
  | .request cnsobjid cnsoperation _ =>
      if cnsoperation = cnsNotreq then notifObjects cnsobjid else []
  | .notification _ _ => []
def startedObjects (events : List AmEvent) : List UInt16 := events.flatMap startedBy

/-- An entry has the bit of channel `k` set for object `o`. -/
def Subscribed (q : List AmIpcNotifQ) (k : ℕ) (o : UInt16) : Prop :=
  ∃ e ∈ q, e.amcnsobjid = o ∧ e.amchannotifflg.getLsbD k = true

end Subscriptions

section Read

/-- The flags in the first entry for an object, none if there is no entry. -/
def flagsOf : List AmIpcNotifQ → UInt16 → BitVec 16
  | [], _ => 0
  | e :: q, o => if e.amcnsobjid = o then e.amchannotifflg else flagsOf q o

/-- The objects of the entries. -/
def objids (q : List AmIpcNotifQ) : List UInt16 := q.map (·.amcnsobjid)

theorem flagsOf_eq_zero {q : List AmIpcNotifQ} {o : UInt16} (h : o ∉ objids q) :
    flagsOf q o = 0 := by
  induction q with
  | nil => rfl
  | cons e q ih =>
      simp only [objids, List.map_cons, List.mem_cons, not_or] at h
      rw [flagsOf, if_neg (Ne.symm h.1), ih h.2]

theorem flagsOf_concat {q : List AmIpcNotifQ} {o : UInt16} (h : o ∉ objids q)
    (flags : BitVec 16) (o' : UInt16) :
    flagsOf (q ++ [⟨o, flags⟩]) o' = if o' = o then flags else flagsOf q o' := by
  induction q with
  | nil => simp [flagsOf, eq_comm]
  | cons e q ih =>
      simp only [objids, List.map_cons, List.mem_cons, not_or] at h
      rw [List.cons_append, flagsOf, flagsOf, ih h.2]
      by_cases he : e.amcnsobjid = o'
      · rw [if_pos he, if_pos he, if_neg (fun heq => h.1 (heq.symm.trans he.symm))]
      · rw [if_neg he, if_neg he]

/-- Where no object has two entries, the first entry is the only one. -/
theorem subscribed_iff {q : List AmIpcNotifQ} (hq : (objids q).Nodup) (k : ℕ) (o : UInt16) :
    Subscribed q k o ↔ (flagsOf q o).getLsbD k = true := by
  induction q with
  | nil => simp [Subscribed, flagsOf]
  | cons e q ih =>
      rw [objids, List.map_cons, List.nodup_cons] at hq
      rw [flagsOf]
      have ih := ih hq.2
      rw [Subscribed] at ih
      by_cases he : e.amcnsobjid = o
      · have hrest : ¬ ∃ e' ∈ q, e'.amcnsobjid = o ∧ e'.amchannotifflg.getLsbD k = true := by
          rintro ⟨e', hmem, heq, -⟩
          exact hq.1 (List.mem_map.mpr ⟨e', hmem, heq.trans he.symm⟩)
        rw [if_pos he, Subscribed, List.exists_mem_cons_iff]
        exact ⟨fun h => (h.resolve_right hrest).2, fun h => Or.inl ⟨he, h⟩⟩
      · rw [if_neg he, Subscribed, List.exists_mem_cons_iff, ih]
        exact ⟨fun h => h.resolve_left (fun h => he h.1), Or.inr⟩

end Read

section Update

variable {q q' : List AmIpcNotifQ} {o : UInt16} {f : BitVec 16 → BitVec 16}

theorem updateNotif_eq_none_iff : updateNotif o f q = none ↔ o ∉ objids q := by
  induction q with
  | nil => simp [updateNotif, objids]
  | cons e q ih =>
      rw [updateNotif, objids, List.map_cons, List.mem_cons]
      by_cases he : e.amcnsobjid = o
      · simp [he]
      · rw [if_neg he, Option.map_eq_none_iff, ih, objids, not_or]
        exact ⟨fun h => ⟨Ne.symm he, h⟩, And.right⟩

theorem objids_updateNotif (h : updateNotif o f q = some q') : objids q' = objids q := by
  induction q generalizing q' with
  | nil => exact absurd h.symm (Option.some_ne_none q')
  | cons e q ih =>
      rw [updateNotif] at h
      by_cases he : e.amcnsobjid = o
      · rw [if_pos he] at h
        rw [← Option.some.inj h]
        rfl
      · rw [if_neg he] at h
        obtain ⟨r, hr, rfl⟩ := Option.map_eq_some_iff.mp h
        exact congrArg (e.amcnsobjid :: ·) (ih hr)

theorem flagsOf_updateNotif (h : updateNotif o f q = some q') (o' : UInt16) :
    flagsOf q' o' = if o' = o then f (flagsOf q o) else flagsOf q o' := by
  induction q generalizing q' with
  | nil => exact absurd h.symm (Option.some_ne_none q')
  | cons e q ih =>
      rw [updateNotif] at h
      by_cases he : e.amcnsobjid = o
      · rw [if_pos he] at h
        rw [← Option.some.inj h, flagsOf, flagsOf, flagsOf, if_pos he]
        by_cases ho : o' = o
        · rw [if_pos ho, if_pos (he.trans ho.symm)]
        · rw [if_neg ho, if_neg (fun h => ho (h.symm.trans he))]
          exact (if_neg (fun h => ho (h.symm.trans he))).symm
      · rw [if_neg he] at h
        obtain ⟨r, hr, rfl⟩ := Option.map_eq_some_iff.mp h
        rw [flagsOf, flagsOf, flagsOf, if_neg he, ih hr]
        by_cases ho : o' = o
        · rw [if_neg (fun h => he (h.trans ho)), if_pos ho, if_pos ho]
        · rw [if_neg ho, if_neg ho]

theorem flagsOf_amipcenablenotif {c : ℕ} (h : amipcenablenotif q o c = some q')
    (o' : UInt16) :
    flagsOf q' o' = if o' = o then enableBit c (flagsOf q o) else flagsOf q o' := by
  rw [amipcenablenotif] at h
  cases hu : updateNotif o (enableBit c) q with
  | some r =>
      rw [hu] at h
      exact Option.some.inj h ▸ flagsOf_updateNotif hu o'
  | none =>
      have ho := updateNotif_eq_none_iff.mp hu
      simp only [hu, amipcaddnewnotif, Option.ite_none_right_eq_some] at h
      rw [← Option.some.inj h.2, flagsOf_concat ho, flagsOf_eq_zero ho]

theorem flagsOf_amipcdisablenotif (c : ℕ) (o' : UInt16) :
    flagsOf (amipcdisablenotif q o c) o' =
      if o' = o then disableBit c (flagsOf q o) else flagsOf q o' := by
  rw [amipcdisablenotif]
  cases hu : updateNotif o (disableBit c) q with
  | some r => exact flagsOf_updateNotif hu o'
  | none =>
      have ho := flagsOf_eq_zero (updateNotif_eq_none_iff.mp hu)
      by_cases heq : o' = o
      · rw [if_pos heq, heq, ho]
        exact ho.trans BitVec.zero_and.symm
      · rw [if_neg heq]
        rfl

theorem objids_amipcdisablenotif (c : ℕ) : objids (amipcdisablenotif q o c) = objids q := by
  rw [amipcdisablenotif]
  cases hu : updateNotif o (disableBit c) q with
  | some r => exact objids_updateNotif hu
  | none => rfl

theorem objids_amipcdisableallnotif : objids (amipcdisableallnotif q) = objids q := by
  rw [objids, amipcdisableallnotif, List.map_map]
  rfl

theorem flagsOf_amipcdisableallnotif : flagsOf (amipcdisableallnotif q) o = 0 := by
  induction q with
  | nil => rfl
  | cons e q ih =>
      rw [amipcdisableallnotif, List.map_cons, flagsOf]
      rw [amipcdisableallnotif] at ih
      split <;> first | rfl | exact ih

end Update

section Sending

variable (peeravail : ℕ → Bool)

/-- The channels of the list that are notified, and the bits that are left: the bit of a channel
is read before any other channel could have changed it. -/
theorem foldl_notifyChannel {idxs : List ℕ} (hidxs : idxs.Nodup) (hlt : ∀ i ∈ idxs, i < 5)
    (flags : BitVec 16) (sent : List ℕ) :
    (idxs.foldl (notifyChannel peeravail) (flags, sent)).2 =
        sent ++ (idxs.filter flags.getLsbD).map (cigetnextchannel · .cinotif) ∧
      ∀ k < 5, (idxs.foldl (notifyChannel peeravail) (flags, sent)).1.getLsbD k =
        (flags.getLsbD k &&
          !decide (k ∈ idxs ∧ peeravail (cigetnextchannel k .cinotif) = false)) := by
  induction idxs generalizing flags sent with
  | nil => simp
  | cons i idxs ih =>
      have hi : i < 5 := hlt i List.mem_cons_self
      rw [List.nodup_cons] at hidxs
      have hbit : (flags >>> i).getLsbD 0 = flags.getLsbD i := by
        rw [BitVec.getLsbD_ushiftRight, Nat.add_zero]
      -- the flags after channel `i`, bit by bit
      have hflags : ∀ k < 5, (notifyChannel peeravail (flags, sent) i).1.getLsbD k =
          (flags.getLsbD k &&
            !decide (k = i ∧ peeravail (cigetnextchannel i .cinotif) = false)) := by
        intro k hk
        simp only [notifyChannel, hbit]
        cases hp : peeravail (cigetnextchannel i .cinotif) <;> cases hf : flags.getLsbD i
        · by_cases hki : k = i <;> simp [hki, hf]
        · simp [getLsbD_disableBit hk]
        · simp
        · simp
      have hother : ∀ k ∈ idxs, (notifyChannel peeravail (flags, sent) i).1.getLsbD k =
          flags.getLsbD k := by
        intro k hk
        rw [hflags k (hlt k (List.mem_cons_of_mem i hk))]
        have hne : k ≠ i := fun h => hidxs.1 (h ▸ hk)
        simp [hne]
      have ih := ih hidxs.2 (fun j hj => hlt j (List.mem_cons_of_mem i hj))
        (notifyChannel peeravail (flags, sent) i).1 (notifyChannel peeravail (flags, sent) i).2
      constructor
      · rw [List.foldl_cons, ih.1, List.filter_congr hother]
        simp only [notifyChannel, hbit]
        cases hf : flags.getLsbD i <;> simp [hf]
      · intro k hk
        rw [List.foldl_cons, ih.2 k hk, hflags k hk]
        by_cases hki : k = i
        · subst hki
          simp [hidxs.1]
        · simp [hki]

theorem lt_five_of_mem_range : ∀ i ∈ List.range cigetnumnotifchan, i < 5 := by decide

theorem notifyEntry_sent (flags : BitVec 16) :
    (notifyEntry peeravail flags).2 =
      ((List.range cigetnumnotifchan).filter flags.getLsbD).map
        (cigetnextchannel · .cinotif) := by
  rw [notifyEntry, (foldl_notifyChannel peeravail List.nodup_range lt_five_of_mem_range flags
    []).1, List.nil_append]

theorem getLsbD_notifyEntry (flags : BitVec 16) {k : ℕ} (hk : k < 5) :
    (notifyEntry peeravail flags).1.getLsbD k =
      (flags.getLsbD k && peeravail (cigetnextchannel k .cinotif)) := by
  rw [notifyEntry, (foldl_notifyChannel peeravail List.nodup_range lt_five_of_mem_range flags
    []).2 k hk]
  have hmem : k ∈ List.range cigetnumnotifchan := List.mem_range.mpr hk
  simp [hmem]

variable {q : List AmIpcNotifQ} {o : UInt16}

theorem objids_amsdk_sendcnsnot : objids (amsdk_sendcnsnot peeravail o q).1 = objids q := by
  induction q with
  | nil => rfl
  | cons e q ih =>
      rw [amsdk_sendcnsnot]
      split <;> exact congrArg (e.amcnsobjid :: ·) ih

theorem getLsbD_flagsOf_amsdk_sendcnsnot (o' : UInt16) {k : ℕ} (hk : k < 5) :
    (flagsOf (amsdk_sendcnsnot peeravail o q).1 o').getLsbD k =
      ((flagsOf q o').getLsbD k &&
        !decide (o = o' ∧ peeravail (cigetnextchannel k .cinotif) = false)) := by
  induction q with
  | nil => simp [amsdk_sendcnsnot, flagsOf]
  | cons e q ih =>
      rw [amsdk_sendcnsnot]
      by_cases he : e.amcnsobjid = o
      · simp only [if_pos he]
        rw [flagsOf, flagsOf]
        by_cases ho : o = o'
        · rw [if_pos (he.trans ho), if_pos (he.trans ho), getLsbD_notifyEntry peeravail _ hk]
          simp [ho]
        · rw [if_neg (fun h => ho (he.symm.trans h)), if_neg (fun h => ho (he.symm.trans h)), ih]
      · simp only [if_neg he]
        rw [flagsOf, flagsOf]
        by_cases ho : e.amcnsobjid = o'
        · have hne : o ≠ o' := fun h => he (ho.trans h.symm)
          simp [ho, hne]
        · rw [if_neg ho, if_neg ho, ih]

/-- With no entry for it, a notification is sent to nobody. -/
theorem amsdk_sendcnsnot_of_not_mem (h : o ∉ objids q) :
    (amsdk_sendcnsnot peeravail o q).2 = [] := by
  induction q with
  | nil => rfl
  | cons e q ih =>
      simp only [objids, List.map_cons, List.mem_cons, not_or] at h
      rw [amsdk_sendcnsnot]
      simp only [if_neg (Ne.symm h.1)]
      exact ih h.2

/-- Who a notification is sent to, by the flags of the entry for its object. -/
theorem amsdk_sendcnsnot_sent (hq : (objids q).Nodup) :
    (amsdk_sendcnsnot peeravail o q).2 =
      ((List.range cigetnumnotifchan).filter (flagsOf q o).getLsbD).map
        (cigetnextchannel · .cinotif) := by
  induction q with
  | nil => simp [amsdk_sendcnsnot, flagsOf]
  | cons e q ih =>
      rw [objids, List.map_cons, List.nodup_cons] at hq
      rw [amsdk_sendcnsnot, flagsOf]
      by_cases he : e.amcnsobjid = o
      · simp only [if_pos he]
        rw [notifyEntry_sent, amsdk_sendcnsnot_of_not_mem peeravail (he ▸ hq.1), List.append_nil]
      · simp only [if_neg he]
        exact ih hq.2

end Sending

section Effects

variable {q q' : List AmIpcNotifQ}

/-- Starts of a row of objects on one channel. -/
theorem getLsbD_foldlM_enable {os : List UInt16} {c : ℕ}
    (h : os.foldlM (fun q o => amipcenablenotif q o c) q = some q') {k : ℕ} (hk : k < 5)
    (o : UInt16) :
    (flagsOf q' o).getLsbD k = ((flagsOf q o).getLsbD k || decide (c = k ∧ o ∈ os)) := by
  induction os generalizing q with
  | nil => simp [← Option.some.inj h]
  | cons o' os ih =>
      obtain ⟨r, hr, hrest⟩ := Option.bind_eq_some_iff.mp h
      rw [ih hrest, flagsOf_amipcenablenotif hr]
      by_cases ho : o = o'
      · subst ho
        rw [if_pos rfl, getLsbD_enableBit hk]
        by_cases hc : k = c
        · simp [hc]
        · simp [hc, Ne.symm hc]
      · simp [ho]

/-- Stops of a row of objects on one channel. -/
theorem getLsbD_foldl_disable (os : List UInt16) (c : ℕ) {k : ℕ} (hk : k < 5) (o : UInt16) :
    (flagsOf (os.foldl (fun q o => amipcdisablenotif q o c) q) o).getLsbD k =
      ((flagsOf q o).getLsbD k && !decide (c = k ∧ o ∈ os)) := by
  induction os generalizing q with
  | nil => simp
  | cons o' os ih =>
      rw [List.foldl_cons, ih, flagsOf_amipcdisablenotif]
      by_cases ho : o = o'
      · subst ho
        rw [if_pos rfl, getLsbD_disableBit hk]
        by_cases hc : k = c
        · simp [hc]
        · simp [hc, Ne.symm hc]
      · simp [ho]

theorem getLsbD_amipchandlenotifreq {cnsobjid : UInt16} {cnsoperation : UInt8}
    {c : AppChannel} (h : amipchandlenotifreq q cnsobjid cnsoperation c.1 = some q') {k : ℕ}
    (hk : k < 5) (o : UInt16) :
    (flagsOf q' o).getLsbD k =
      (effect k o (.request cnsobjid cnsoperation c)).getD ((flagsOf q o).getLsbD k) := by
  rw [amipchandlenotifreq] at h
  rw [effect]
  by_cases hnot : cnsoperation = cnsNotreq
  · rw [if_pos hnot] at h ⊢
    rw [getLsbD_foldlM_enable h hk]
    by_cases hcov : c.1 = k ∧ o ∈ notifObjects cnsobjid
    · rw [if_pos hcov, decide_eq_true hcov, Bool.or_true, Option.getD_some]
    · rw [if_neg hcov, decide_eq_false hcov, Bool.or_false, Option.getD_none]
  · rw [if_neg hnot] at h ⊢
    by_cases hstop : cnsoperation = cnsStopreq
    · rw [if_pos hstop] at h ⊢
      rw [← Option.some.inj h, getLsbD_foldl_disable _ _ hk]
      by_cases hcov : c.1 = k ∧ o ∈ notifObjects cnsobjid
      · rw [if_pos hcov, decide_eq_true hcov, Bool.not_true, Bool.and_false, Option.getD_some]
      · rw [if_neg hcov, decide_eq_false hcov, Bool.not_false, Bool.and_true, Option.getD_none]
    · rw [if_neg hstop] at h ⊢
      by_cases hall : cnsoperation = cnsSetreq ∧ cnsobjid = cnsDisAllNot
      · rw [if_pos hall.1, if_pos hall.2] at h
        rw [if_pos hall, Option.getD_some, ← Option.some.inj h, flagsOf_amipcdisableallnotif]
        exact BitVec.getLsbD_zero
      · rw [if_neg hall, Option.getD_none]
        by_cases hset : cnsoperation = cnsSetreq
        · rw [if_pos hset, if_neg (fun hobj => hall ⟨hset, hobj⟩)] at h
          rw [Option.some.inj h]
        · rw [if_neg hset] at h
          rw [Option.some.inj h]

/-- What one event does to the bit of a channel for an object. -/
theorem getLsbD_amStep {e : AmEvent} (h : amStep q e = some q') {k : ℕ} (hk : k < 5)
    (o : UInt16) :
    (flagsOf q' o).getLsbD k = (effect k o e).getD ((flagsOf q o).getLsbD k) := by
  cases e with
  | request cnsobjid cnsoperation c =>
      rw [amStep, amdispatchrequest] at h
      by_cases hreq : cnsoperation = cnsNotreq ∨ cnsoperation = cnsStopreq ∨
          cnsoperation = cnsSetreq ∧ cnsobjid = cnsDisAllNot
      · rw [if_pos hreq] at h
        exact getLsbD_amipchandlenotifreq h hk o
      · rw [if_neg hreq] at h
        rw [not_or, not_or] at hreq
        rw [effect, if_neg hreq.1, if_neg hreq.2.1, if_neg hreq.2.2, Option.getD_none,
          Option.some.inj h]
  | notification cnsobjid peeravail =>
      rw [← Option.some.inj h, getLsbD_flagsOf_amsdk_sendcnsnot peeravail o hk, effect,
        peerChannel_eq_cigetnextchannel k hk, Option.any_some]
      by_cases hgone : cnsobjid = o ∧ peeravail (cigetnextchannel k .cinotif) = false
      · rw [decide_eq_true hgone, if_pos ⟨hgone.1, by rw [hgone.2, Bool.not_false]⟩,
          Bool.not_true, Bool.and_false, Option.getD_some]
      · rw [decide_eq_false hgone, if_neg (fun h => hgone ⟨h.1, by simpa using h.2⟩),
          Bool.not_false, Bool.and_true, Option.getD_none]

/-- The bit of a channel for an object after a run is what the last effect on it has left. -/
theorem getLsbD_amRun {events : List AmEvent} (h : amRun events = some q) {k : ℕ} (hk : k < 5)
    (o : UInt16) : (flagsOf q o).getLsbD k = true ↔ lastEffect events k o = some true := by
  have hlast := foldlM_lastEffect (f := amStep) (fun q => (flagsOf q o).getLsbD k)
    (fun _ _ _ hstep => getLsbD_amStep hstep hk o) h
  rw [hlast, lastEffect, flagsOf]
  cases events.reverse.findSome? (effect k o) with
  | none => simp
  | some b => simp

end Effects

section Pool

variable {q q' : List AmIpcNotifQ}

/-- The entries are those of the objects in `S`, one each, and there was a block for each. -/
structure PoolInv (q : List AmIpcNotifQ) (S : Finset UInt16) : Prop where
  nodup : (objids q).Nodup
  objids_eq : (objids q).toFinset = S
  length_le : q.length ≤ amMaxNotify

theorem PoolInv.length_eq {S : Finset UInt16} (hq : PoolInv q S) : q.length = S.card := by
  rw [← hq.objids_eq, List.toFinset_card_of_nodup hq.nodup, objids, List.length_map]

theorem PoolInv.of_objids_eq {S : Finset UInt16} (hq : PoolInv q S)
    (h : objids q' = objids q) : PoolInv q' S where
  nodup := h ▸ hq.nodup
  objids_eq := h ▸ hq.objids_eq
  length_le := by
    have hlen := congrArg List.length h
    rw [objids, objids, List.length_map, List.length_map] at hlen
    exact hlen ▸ hq.length_le

/-- A start takes a block for an object that has no entry yet, and aborts if there is none. -/
theorem PoolInv.enable {S : Finset UInt16} (hq : PoolInv q S) (o : UInt16) (c : ℕ) :
    (∃ q', amipcenablenotif q o c = some q' ∧ PoolInv q' (insert o S)) ∨
      amipcenablenotif q o c = none ∧ amMaxNotify < (insert o S).card := by
  rw [amipcenablenotif]
  cases hu : updateNotif o (enableBit c) q with
  | some r =>
      have hmem : o ∈ objids q := by
        by_contra ho
        rw [updateNotif_eq_none_iff.mpr ho] at hu
        exact Option.some_ne_none r hu.symm
      rw [← List.mem_toFinset, hq.objids_eq] at hmem
      rw [Finset.insert_eq_of_mem hmem]
      exact Or.inl ⟨r, rfl, hq.of_objids_eq (objids_updateNotif hu)⟩
  | none =>
      have ho : o ∉ objids q := updateNotif_eq_none_iff.mp hu
      have hS : o ∉ S := fun h => ho (List.mem_toFinset.mp (hq.objids_eq ▸ h))
      simp only [amipcaddnewnotif]
      by_cases hlen : q.length < amMaxNotify
      · refine Or.inl ⟨_, if_pos hlen, ?_, ?_, ?_⟩
        · rw [objids, List.map_append]
          refine List.nodup_append.mpr ⟨hq.nodup, List.nodup_singleton o, ?_⟩
          intro a ha b hb hab
          rw [hab, List.mem_singleton.mp hb] at ha
          exact ho ha
        · rw [objids, List.map_append, List.toFinset_append, ← objids, hq.objids_eq,
            Finset.union_comm]
          rfl
        · rw [List.length_append]
          exact hlen
      · refine Or.inr ⟨if_neg hlen, ?_⟩
        rw [Finset.card_insert_of_notMem hS, ← hq.length_eq]
        omega

theorem PoolInv.foldlM_enable {S : Finset UInt16} (hq : PoolInv q S) (os : List UInt16)
    (c : ℕ) :
    (∃ q', os.foldlM (fun q o => amipcenablenotif q o c) q = some q' ∧
        PoolInv q' (S ∪ os.toFinset)) ∨
      os.foldlM (fun q o => amipcenablenotif q o c) q = none ∧
        amMaxNotify < (S ∪ os.toFinset).card := by
  induction os generalizing q S with
  | nil =>
      rw [List.toFinset_nil, Finset.union_empty]
      exact Or.inl ⟨q, rfl, hq⟩
  | cons o os ih =>
      have hunion : S ∪ (o :: os).toFinset = insert o S ∪ os.toFinset := by
        rw [List.toFinset_cons, Finset.union_insert, Finset.insert_union]
      rw [List.foldlM_cons, hunion]
      rcases hq.enable o c with ⟨r, hr, hrS⟩ | ⟨hnone, hcard⟩
      · rw [hr]
        exact ih hrS
      · rw [hnone]
        exact Or.inr ⟨rfl, hcard.trans_le (Finset.card_le_card Finset.subset_union_left)⟩

theorem objids_foldl_disable (os : List UInt16) (c : ℕ) :
    objids (os.foldl (fun q o => amipcdisablenotif q o c) q) = objids q := by
  induction os generalizing q with
  | nil => rfl
  | cons o os ih => rw [List.foldl_cons, ih, objids_amipcdisablenotif]

/-- The only event that takes blocks, and that aborts, is a start. -/
theorem PoolInv.amStep {S : Finset UInt16} (hq : PoolInv q S) (e : AmEvent) :
    (∃ q', amStep q e = some q' ∧ PoolInv q' (S ∪ (startedBy e).toFinset)) ∨
      amStep q e = none ∧ amMaxNotify < (S ∪ (startedBy e).toFinset).card := by
  cases e with
  | notification cnsobjid peeravail =>
      rw [startedBy, List.toFinset_nil, Finset.union_empty]
      exact Or.inl ⟨_, rfl, hq.of_objids_eq (objids_amsdk_sendcnsnot peeravail)⟩
  | request cnsobjid cnsoperation c =>
      rw [Sdk.amStep, amdispatchrequest, amipchandlenotifreq, startedBy]
      by_cases hnot : cnsoperation = cnsNotreq
      · rw [if_pos (Or.inl hnot), if_pos hnot, if_pos hnot]
        exact hq.foldlM_enable (notifObjects cnsobjid) c.1
      · rw [if_neg hnot, if_neg hnot, List.toFinset_nil, Finset.union_empty]
        refine Or.inl ?_
        split_ifs
        · exact ⟨_, rfl, hq.of_objids_eq (objids_foldl_disable _ _)⟩
        · exact ⟨_, rfl, hq.of_objids_eq objids_amipcdisableallnotif⟩
        · exact ⟨_, rfl, hq⟩
        · exact ⟨_, rfl, hq⟩
        · exact ⟨_, rfl, hq⟩

theorem PoolInv.foldlM_amStep {S : Finset UInt16} (hq : PoolInv q S) (events : List AmEvent) :
    (∃ q', events.foldlM Sdk.amStep q = some q' ∧
        PoolInv q' (S ∪ (startedObjects events).toFinset)) ∨
      events.foldlM Sdk.amStep q = none ∧
        amMaxNotify < (S ∪ (startedObjects events).toFinset).card := by
  induction events generalizing q S with
  | nil =>
      rw [startedObjects, List.flatMap_nil, List.toFinset_nil, Finset.union_empty]
      exact Or.inl ⟨q, rfl, hq⟩
  | cons e events ih =>
      have hunion : S ∪ (startedObjects (e :: events)).toFinset =
          S ∪ (startedBy e).toFinset ∪ (startedObjects events).toFinset := by
        rw [startedObjects, List.flatMap_cons, List.toFinset_append, Finset.union_assoc]
        rfl
      rw [List.foldlM_cons, hunion]
      rcases hq.amStep e with ⟨r, hr, hrS⟩ | ⟨hnone, hcard⟩
      · rw [hr]
        exact ih hrS
      · rw [hnone]
        exact Or.inr ⟨rfl, hcard.trans_le (Finset.card_le_card Finset.subset_union_left)⟩

theorem poolInv_nil : PoolInv [] ∅ := ⟨List.nodup_nil, rfl, Nat.zero_le _⟩

/-- A run aborts exactly if it starts more objects than there are blocks. -/
theorem amRun_eq_none_iff (events : List AmEvent) :
    amRun events = none ↔ amMaxNotify < (startedObjects events).toFinset.card := by
  have h := poolInv_nil.foldlM_amStep events
  rw [Finset.empty_union] at h
  rcases h with ⟨q, hq, hS⟩ | ⟨hnone, hcard⟩
  · rw [amRun, hq, ← hS.length_eq]
    exact ⟨fun h => absurd h (Option.some_ne_none q), fun h => absurd hS.length_le h.not_ge⟩
  · exact ⟨fun _ => hcard, fun _ => hnone⟩

theorem nodup_of_amRun {events : List AmEvent} (h : amRun events = some q) :
    (objids q).Nodup := by
  rcases poolInv_nil.foldlM_amStep events with ⟨r, hr, hS⟩ | ⟨hnone, -⟩
  · rw [← Option.some.inj (hr.symm.trans h)]
    exact hS.nodup
  · exact absurd (h.symm.trans hnone) (Option.some_ne_none q)

end Pool

section Notified

/-- The channels that a notification is sent to, by the bits of the request channels that they
are the peers of. -/
theorem mem_amsdk_sendcnsnot_iff {q : List AmIpcNotifQ} (hq : (objids q).Nodup)
    (peeravail : ℕ → Bool) (o : UInt16) (channel : ℕ) :
    channel ∈ (amsdk_sendcnsnot peeravail o q).2 ↔
      ∃ k : AppChannel, peerChannel k.1 = some channel ∧ (flagsOf q o).getLsbD k.1 = true := by
  rw [amsdk_sendcnsnot_sent peeravail hq]
  simp only [List.mem_map, List.mem_filter, List.mem_range]
  constructor
  · rintro ⟨k, ⟨hk, hbit⟩, rfl⟩
    exact ⟨⟨k, mem_requestChannels_iff.mpr hk⟩, peerChannel_eq_cigetnextchannel k hk, hbit⟩
  · rintro ⟨k, hpeer, hbit⟩
    have hk := mem_requestChannels_iff.mp k.mem
    rw [peerChannel_eq_cigetnextchannel k.1 hk] at hpeer
    exact ⟨k.1, ⟨hk, hbit⟩, Option.some.inj hpeer⟩

theorem nodup_amsdk_sendcnsnot {q : List AmIpcNotifQ} (hq : (objids q).Nodup)
    (peeravail : ℕ → Bool) (o : UInt16) : (amsdk_sendcnsnot peeravail o q).2.Nodup := by
  rw [amsdk_sendcnsnot_sent peeravail hq]
  refine List.Nodup.map_on ?_ (List.nodup_range.filter _)
  intro i hi j hj
  exact cigetnextchannel_injOn i (List.mem_range.mp (List.mem_filter.mp hi).1) j
    (List.mem_range.mp (List.mem_filter.mp hj).1)

/-- Whatever was started and stopped, and whoever has gone: while the objects started are no
more than there are blocks, nothing aborts, no object has two entries, a set bit is cleared by
exactly the events that unsubscribe its channel from its object, and a notification is sent, once,
to each peer of a request channel whose last effect on the object has been a start. -/
theorem notified_iff_lastEffect (events : List AmEvent)
    (hpool : (startedObjects events).toFinset.card ≤ amMaxNotify) :
    ∃ q, amRun events = some q ∧ (q.map (·.amcnsobjid)).Nodup ∧
      (∀ e q', amStep q e = some q' → ∀ (k : AppChannel) (o : UInt16), Subscribed q k.1 o →
        (¬ Subscribed q' k.1 o ↔ effect k.1 o e = some false)) ∧
      ∀ (o : UInt16) (peeravail : ℕ → Bool),
        (amsdk_sendcnsnot peeravail o q).2.Nodup ∧
          ∀ channel, channel ∈ (amsdk_sendcnsnot peeravail o q).2 ↔
            ∃ k : AppChannel, peerChannel k.1 = some channel ∧
              lastEffect events k.1 o = some true := by
  cases hrun : amRun events with
  | none => exact absurd hpool ((amRun_eq_none_iff events).mp hrun).not_ge
  | some q =>
      have hq := nodup_of_amRun hrun
      refine ⟨q, rfl, hq, ?_, ?_⟩
      · intro e q' hstep k o hsub
        have hrun' : amRun (events ++ [e]) = some q' := by
          rw [amRun, List.foldlM_append, ← amRun, hrun]
          exact (bind_pure _).trans hstep
        rw [subscribed_iff (nodup_of_amRun hrun'), getLsbD_amStep hstep k.lt,
          (subscribed_iff hq k.1 o).mp hsub]
        cases effect k.1 o e with
        | none => simp
        | some b => simp
      · intro o peeravail
        refine ⟨nodup_amsdk_sendcnsnot hq peeravail o, fun channel => ?_⟩
        rw [mem_amsdk_sendcnsnot_iff hq peeravail o channel]
        exact exists_congr fun k => and_congr_right fun _ => getLsbD_amRun hrun k.lt o

/-- The first request channel. -/
def firstChannel : AppChannel := ⟨0, by decide⟩

/-- Channel 0 starts an object: the notification goes to its peer, channel 5. -/
theorem notified_oneStart :
    ∃ q, amRun [.request 0x1001 cnsNotreq firstChannel] = some q ∧
      5 ∈ (amsdk_sendcnsnot (fun _ => true) 0x1001 q).2 := by
  obtain ⟨q, hq, -, -, hsent⟩ :=
    notified_iff_lastEffect [.request 0x1001 cnsNotreq firstChannel] (by decide)
  exact ⟨q, hq, ((hsent 0x1001 fun _ => true).2 5).mpr ⟨firstChannel, rfl, rfl⟩⟩

/-- The starts and stops, stop-all among them, that the application on the channel sent. -/
def ownOperation (k : ℕ) (o : UInt16) : AmEvent → Option Bool
  | .request cnsobjid cnsoperation ipcchannel =>
      if ipcchannel.1 = k then effect k o (.request cnsobjid cnsoperation ipcchannel) else none
  | .notification _ _ => none

/-- Channel 0 starts an object. After a stop-all on channel 1, and after a notification that
found no application at channel 5, it has sent no stop, and is not notified. -/
theorem not_notified_otherChannel :
    (∃ q, amRun [.request 0x1001 cnsNotreq firstChannel,
          .request cnsDisAllNot cnsSetreq ⟨1, by decide⟩] = some q ∧
        ([.request 0x1001 cnsNotreq firstChannel,
          .request cnsDisAllNot cnsSetreq ⟨1, by decide⟩] : List AmEvent).reverse.findSome?
            (ownOperation 0 0x1001) = some true ∧
        peerChannel 0 = some 5 ∧ 5 ∉ (amsdk_sendcnsnot (fun _ => true) 0x1001 q).2) ∧
      ∃ q, amRun [.request 0x1001 cnsNotreq firstChannel,
          .notification 0x1001 fun _ => false] = some q ∧
        ([.request 0x1001 cnsNotreq firstChannel,
          .notification 0x1001 fun _ => false] : List AmEvent).reverse.findSome?
            (ownOperation 0 0x1001) = some true ∧
        peerChannel 0 = some 5 ∧ 5 ∉ (amsdk_sendcnsnot (fun _ => true) 0x1001 q).2 :=
  ⟨⟨[⟨0x1001, 0⟩], by decide, by decide, by decide, by decide⟩,
    ⟨[⟨0x1001, 0⟩], by decide, by decide, by decide, by decide⟩⟩

end Notified

end Sdk

end SierraSdk
