import Mathlib.Data.List.Perm.Subperm
import Mathlib.Data.List.TakeWhile
import SierraSdk.Ril.EventQueue

/-!
# The order of the event queues

An event is linked in behind all events that are due at its time or earlier (`insert_rule`). Its
copy for the priority queue comes with the links that the event got in the normal queue. Those
that the second insertion does not write lead into the normal queue; and the first event of a queue
still points back to the one that was run before it. So the queues are in order in exactly the
runs in which neither is left, and in which the carry of the nanoseconds does its work
(`meets_queuesInOrder_iff`).
-/

namespace SierraSdk

namespace Ril

open Machine NullTerminated

section Times

variable {a b c tv : Timespec} {relativeTime : Option Timeval}

theorem isAfter_iff :
    a.isAfter b = true ↔ b.tv_sec < a.tv_sec ∨ b.tv_sec = a.tv_sec ∧ b.tv_nsec < a.tv_nsec := by
  rw [Timespec.isAfter, timespec_cmp]
  split_ifs with hsec
  · simp [hsec]
  · have hne : ¬ b.tv_sec = a.tv_sec := fun heq => hsec heq.symm
    simp [hne]

/-- For normalised times the comparison is that of the nanoseconds. -/
theorem isAfter_iff_nanoseconds (ha : a.normalised) (hb : b.normalised) :
    a.isAfter b = true ↔ b.nanoseconds < a.nanoseconds := by
  rw [isAfter_iff]
  unfold Timespec.normalised at ha hb
  unfold Timespec.nanoseconds
  omega

theorem isAfter_of_le (ha : a.normalised) (hb : b.normalised)
    (hle : a.nanoseconds ≤ b.nanoseconds) (h : a.isAfter c = true) : b.isAfter c = true := by
  rw [isAfter_iff] at h ⊢
  unfold Timespec.normalised at ha hb
  unfold Timespec.nanoseconds at hle
  omega

/-- The carry normalises a time unless there is just one second to carry, or more than one. -/
theorem dueTime_normalised_iff :
    (dueTime tv relativeTime).normalised ↔
      tv.tv_nsec + (relativeTime.getD ⟨0, 0⟩).tv_usec * 1000 ≠ 1000000000 ∧
        tv.tv_nsec + (relativeTime.getD ⟨0, 0⟩).tv_usec * 1000 < 2000000000 := by
  simp only [dueTime, Timespec.normalised]
  split_ifs
  all_goals simp only
  all_goals omega

end Times

section Insertion

variable {heap heap' : ℕ → RILEvent} {e x : ℕ} {xs rest : List ℕ} {p : Option ℕ}

/-- The events in front of the place of an event that is due at a time. -/
def frontOf (heap : ℕ → RILEvent) (t : Timespec) (xs : List ℕ) : List ℕ :=
  xs.takeWhile fun a => !(heap a).abstime.isAfter t

/-- The events behind it. -/
def rearOf (heap : ℕ → RILEvent) (t : Timespec) (xs : List ℕ) : List ℕ :=
  xs.dropWhile fun a => !(heap a).abstime.isAfter t

theorem frontOf_append_rearOf (heap : ℕ → RILEvent) (t : Timespec) (xs : List ℕ) :
    frontOf heap t xs ++ rearOf heap t xs = xs := List.takeWhile_append_dropWhile

theorem frontOf_of_after {t : Timespec} (h : (heap x).abstime.isAfter t = true) :
    frontOf heap t (x :: rest) = [] := List.takeWhile_cons_of_neg (by simp [h])

theorem rearOf_of_after {t : Timespec} (h : (heap x).abstime.isAfter t = true) :
    rearOf heap t (x :: rest) = x :: rest := List.dropWhile_cons_of_neg (by simp [h])

theorem frontOf_of_not_after {t : Timespec} (h : ¬ (heap x).abstime.isAfter t = true) :
    frontOf heap t (x :: rest) = x :: frontOf heap t rest :=
  List.takeWhile_cons_of_pos (by simpa using h)

theorem rearOf_of_not_after {t : Timespec} (h : ¬ (heap x).abstime.isAfter t = true) :
    rearOf heap t (x :: rest) = rearOf heap t rest :=
  List.dropWhile_cons_of_pos (by simpa using h)

theorem getLast?_cons_or (x : ℕ) (xs : List ℕ) (p : Option ℕ) :
    (x :: xs).getLast?.or p = xs.getLast?.or (some x) := by
  rw [List.getLast?_cons]
  cases xs.getLast? with
  | none => rfl
  | some z => rfl

/-- An event is linked in between its neighbours, and nothing else is changed. -/
structure LinkedIn (heap heap' : ℕ → RILEvent) (w : Option ℕ) (e : ℕ) (b : Option ℕ) : Prop where
  spliced : Spliced (fun p => (heap p).next) (fun p => (heap p).prev) (fun p => (heap' p).next)
    (fun p => (heap' p).prev) w e b
  abstime : ∀ a, (heap' a).abstime = (heap a).abstime
  number : ∀ a, (heap' a).number = (heap a).number

/-- An event is linked in in front of one that is not the first. -/
theorem linkedIn_before {w : ℕ} (hw : w ≠ e) (hx : x ≠ e) (hprev : (heap x).prev = some w) :
    LinkedIn heap
      (setNext (setPrev (setPrev (setNext heap w (some e)) e (setNext heap w (some e) x).prev) x
        (some e)) e (some x)) (some w) e (some x) where
  spliced :=
    { next_eq := fun a hwa hae => by
        have hne : a ≠ w := fun heq => hwa (congrArg some heq)
        simp [hae, hne]
      next_front := fun a ha => by simp [← Option.some.inj ha, hw]
      next_own := by simp
      prev_eq := fun a hxa hae => by
        have hne : a ≠ x := fun heq => hxa (congrArg some heq)
        simp [hae, hne]
      prev_rear := fun a ha => by simp [← Option.some.inj ha]
      prev_own := by simp [hx.symm, hprev] }
  abstime := by simp
  number := by simp

/-- An event is linked in in front of the first one. -/
theorem linkedIn_first (hx : x ≠ e) :
    LinkedIn heap (setPrev (setNext heap e (some x)) x (some e)) none e (some x) where
  spliced :=
    { next_eq := fun a _ hae => by simp [hae]
      next_front := fun a ha => absurd ha.symm (Option.some_ne_none a)
      next_own := by simp
      prev_eq := fun a hxa _ => by
        have hne : a ≠ x := fun heq => hxa (congrArg some heq)
        simp [hne]
      prev_rear := fun a ha => by simp [← Option.some.inj ha]
      prev_own := by simp [hx.symm] }
  abstime := by simp
  number := by simp

/-- An event is linked in behind the last one. -/
theorem linkedIn_last (hx : x ≠ e) :
    LinkedIn heap (setPrev (setNext heap x (some e)) e (some x)) (some x) e none where
  spliced :=
    { next_eq := fun a hxa _ => by
        have hne : a ≠ x := fun heq => hxa (congrArg some heq)
        simp [hne]
      next_front := fun a ha => by simp [← Option.some.inj ha]
      next_own := by simp [hx.symm]
      prev_eq := fun a _ hae => by simp [hae]
      prev_rear := fun a ha => absurd ha.symm (Option.some_ne_none a)
      prev_own := by simp }
  abstime := by simp
  number := by simp

/-- An event is put in an empty queue: its own links stay as they are. -/
theorem linkedIn_empty : LinkedIn heap heap none e none where
  spliced :=
    { next_eq := fun _ _ _ => rfl
      next_front := fun a ha => absurd ha.symm (Option.some_ne_none a)
      next_own := rfl
      prev_eq := fun _ _ _ => rfl
      prev_rear := fun a ha => absurd ha.symm (Option.some_ne_none a)
      prev_own := rfl }
  abstime := fun _ => rfl
  number := fun _ => rfl

/-- The loop links an event in in front of the first one that is due later, or at the end. -/
theorem insertLoop_rule {rounds : ℕ}
    (hleads : Leads (fun a => (heap a).next) (some x) (x :: rest))
    (hbacked : Backed (fun a => (heap a).prev) p (x :: rest))
    (hrounds : (x :: rest).length ≤ rounds)
    (hfirst : (heap x).abstime.isAfter (heap e).abstime = true → p ≠ none)
    (hp : p ≠ some e) (he : e ∉ x :: rest) :
    ∃ heap', insertLoop rounds heap e x = some heap' ∧
      LinkedIn heap heap' ((frontOf heap (heap e).abstime (x :: rest)).getLast?.or p) e
        (rearOf heap (heap e).abstime (x :: rest)).head? := by
  have hne : x ≠ e := fun heq => he (heq ▸ List.mem_cons_self ..)
  induction rounds generalizing x p rest with
  | zero => exact absurd hrounds (Nat.not_succ_le_zero _)
  | succ rounds ih =>
      rw [insertLoop]
      by_cases hafter : (heap x).abstime.isAfter (heap e).abstime = true
      · obtain ⟨w, rfl⟩ := Option.ne_none_iff_exists'.mp (hfirst hafter)
        have hprev : (heap x).prev = some w := hbacked.1
        have hw : w ≠ e := fun heq => hp (congrArg some heq)
        rw [if_pos hafter, frontOf_of_after hafter, rearOf_of_after hafter, hprev]
        exact ⟨_, rfl, linkedIn_before hw hne hprev⟩
      · rw [if_neg hafter, frontOf_of_not_after hafter, rearOf_of_not_after hafter]
        cases rest with
        | nil =>
            have hnext : (heap x).next = none := hleads.2
            rw [hnext]
            exact ⟨_, rfl, linkedIn_last hne⟩
        | cons y rest =>
            have hnext : (heap x).next = some y := hleads.2.1
            have hmem : e ∉ y :: rest := fun hmem => he (List.mem_cons_of_mem _ hmem)
            rw [hnext]
            have hleadsy : Leads (fun a => (heap a).next) (some y) (y :: rest) :=
              hnext ▸ hleads.2
            obtain ⟨heap', hrun, hlinked⟩ := ih hleadsy hbacked.2 (Nat.le_of_succ_le_succ hrounds)
              (fun _ => Option.some_ne_none x) (fun heq => hne (Option.some.inj heq)) hmem
              (fun heq => hmem (heq ▸ List.mem_cons_self ..))
            refine ⟨heap', hrun, ?_⟩
            rwa [getLast?_cons_or]

end Insertion

section Queues

variable {s t : RilQueues} {xs : QueueId → List ℕ} {q : QueueId} {e : ℕ}

theorem QueuesLinked.nodup (h : QueuesLinked s xs) (q : QueueId) : (xs q).Nodup := by
  obtain ⟨hnormal, hprio, -⟩ := List.nodup_append.mp h.apart
  cases q with
  | normal => exact hnormal
  | prio => exact hprio

/-- An event is in one queue only. -/
theorem QueuesLinked.notMem (h : QueuesLinked s xs) {q q' : QueueId} (hq : q ≠ q') {p : ℕ}
    (hp : p ∈ xs q) : p ∉ xs q' := by
  obtain ⟨-, -, hapart⟩ := List.nodup_append.mp h.apart
  intro hp'
  cases q with
  | normal =>
      cases q' with
      | normal => exact hq rfl
      | prio => exact hapart p hp p hp' rfl
  | prio =>
      cases q' with
      | normal => exact hapart p hp' p hp rfl
      | prio => exact hq rfl

theorem QueuesLinked.length_le (h : QueuesLinked s xs) (q : QueueId) :
    (xs q).length ≤ s.live.length :=
  (List.subperm_of_subset (h.nodup q) (h.live q)).length_le

theorem QueuesLinked.events_eq (h : QueuesLinked s xs) (q : QueueId) : s.events q = xs q :=
  follow_eq (h.linked q).leads (h.length_le q)

/-- An event is put in a queue: it is linked in behind those that are due at its time or earlier,
and becomes the first one if there are none. -/
theorem insert_rule (h : QueuesLinked s xs) (he : e ∉ xs q) {front rear : List ℕ}
    (hfront : frontOf s.heap (s.heap e).abstime (xs q) = front)
    (hrear : rearOf s.heap (s.heap e).abstime (xs q) = rear) :
    ∃ heap', LinkedIn s.heap heap' front.getLast? e rear.head? ∧
      s.insert q e = some ({ s with heap := heap' }.setHead q
        (if front = [] then some e else s.eventList q)) := by
  obtain ⟨hleads, hbacked⟩ := h.linked q
  subst hfront hrear
  rw [RilQueues.insert]
  cases hxs : xs q with
  | nil =>
      rw [hxs] at hleads
      rw [show s.eventList q = none from hleads]
      exact ⟨s.heap, linkedIn_empty, rfl⟩
  | cons x rest =>
      rw [hxs] at hleads hbacked he
      have hne : x ≠ e := fun heq => he (heq ▸ List.mem_cons_self ..)
      rw [hleads.1]
      by_cases hafter : (s.heap x).abstime.isAfter (s.heap e).abstime = true
      · rw [frontOf_of_after hafter, rearOf_of_after hafter]
        simp only [hafter, if_true]
        exact ⟨_, linkedIn_first hne, rfl⟩
      · have hcons : frontOf s.heap (s.heap e).abstime (x :: rest) ≠ [] := by
          rw [frontOf_of_not_after hafter]
          exact List.cons_ne_nil _ _
        obtain ⟨heap', hrun, hlinked⟩ := insertLoop_rule (hleads.1 ▸ hleads) hbacked
          (hxs ▸ h.length_le q) (fun hyes => absurd hyes hafter)
          (fun heq => absurd heq.symm (Option.some_ne_none e)) he
        rw [Option.or_none] at hlinked
        refine ⟨heap', hlinked, ?_⟩
        simp only [hafter, Bool.false_eq_true, if_false, hrun, Option.map_some, hcons,
          RilQueues.setHead]
        rw [← hleads.1, Function.update_eq_self]

/-- The neighbours of an event that is put in a queue are in that queue. -/
theorem QueuesLinked.neighbours (h : QueuesLinked s xs) {front rear : List ℕ}
    (hsplit : front ++ rear = xs q) {q' : QueueId} (hq : q' ≠ q) {a : ℕ} (ha : a ∈ xs q') :
    some a ≠ front.getLast? ∧ some a ≠ rear.head? := by
  have hout : a ∉ front ++ rear := hsplit ▸ h.notMem hq ha
  exact ⟨fun heq => hout (List.mem_append_left _ (List.mem_of_getLast? heq.symm)),
    fun heq => hout (List.mem_append_right _ (List.mem_of_head? heq.symm))⟩

/-- An event that is put in a queue leaves the other queue as it is. -/
theorem QueuesLinked.other (h : QueuesLinked s xs) {heap' : ℕ → RILEvent} {front rear : List ℕ}
    (hsplit : front ++ rear = xs q) (hin : LinkedIn s.heap heap' front.getLast? e rear.head?)
    {q' : QueueId} (hq : q' ≠ q) (he : e ∉ xs q') :
    Linked (fun p => (heap' p).next) (fun p => (heap' p).prev) (s.eventList q') (xs q') := by
  refine (h.linked q').congr (fun a ha => ?_) fun a ha => ?_
  · exact hin.spliced.next_eq a (h.neighbours hsplit hq ha).1 fun heq => he (heq ▸ ha)
  · exact hin.spliced.prev_eq a (h.neighbours hsplit hq ha).2 fun heq => he (heq ▸ ha)

/-- The queues after an event was put in one, if on a side where it has no neighbour its link was
null. -/
theorem QueuesLinked.insert (h : QueuesLinked s xs) (he : ∀ q, e ∉ xs q) (hlive : e ∈ s.live)
    {heap' : ℕ → RILEvent} {front rear : List ℕ} (hsplit : front ++ rear = xs q)
    (hin : LinkedIn s.heap heap' front.getLast? e rear.head?)
    (hnext : rear = [] → (s.heap e).next = none) (hprev : front = [] → (s.heap e).prev = none) :
    QueuesLinked ({ s with heap := heap' }.setHead q
      (if front = [] then some e else s.eventList q))
      (Function.update xs q (front ++ e :: rear)) := by
  have hmem : ∀ q' p, p ∈ Function.update xs q (front ++ e :: rear) q' → p = e ∨ p ∈ xs q' := by
    intro q' p hp
    by_cases hq : q' = q
    · subst hq
      rw [Function.update_self] at hp
      rw [← hsplit]
      simp only [List.mem_append, List.mem_cons] at hp ⊢
      tauto
    · rw [Function.update_of_ne hq] at hp
      exact .inr hp
  refine ⟨fun q' => ?_, ?_, fun q' p hp => ?_⟩
  · by_cases hq : q' = q
    · subst hq
      have hlinked := (hsplit ▸ h.linked q').splice hin.spliced (hsplit ▸ h.nodup q')
        (hsplit ▸ he q') hnext hprev
      simpa only [RilQueues.setHead, Function.update_self] using hlinked
    · simpa only [RilQueues.setHead, Function.update_of_ne hq] using h.other hsplit hin hq (he q')
  · have hfresh : e ∉ xs .normal ++ xs .prio := fun hmem =>
      (List.mem_append.mp hmem).elim (he .normal) (he .prio)
    have hcons : (e :: (xs .normal ++ xs .prio)).Nodup := List.nodup_cons.mpr ⟨hfresh, h.apart⟩
    refine (List.Perm.nodup_iff ?_).mpr hcons
    cases q with
    | normal =>
        rw [Function.update_self, Function.update_of_ne (by decide), ← hsplit, List.append_assoc,
          List.append_assoc, List.cons_append]
        exact List.perm_middle
    | prio =>
        rw [Function.update_self, Function.update_of_ne (by decide), ← hsplit,
          ← List.append_assoc, ← List.append_assoc]
        exact List.perm_middle
  · obtain rfl | hp := hmem q' p hp
    · exact hlive
    · exact h.live q' p hp

/-- In a sorted queue, all events behind a place are due later. -/
theorem QueuesSorted.mem_rearOf (h : QueuesSorted s xs) {t : Timespec} {a : ℕ}
    (ha : a ∈ rearOf s.heap t (xs q)) : (s.heap a).abstime.isAfter t = true := by
  have hsorted := h.sorted q
  have hnorm := h.normalised q
  generalize xs q = ys at ha hsorted hnorm
  induction ys with
  | nil => exact absurd ha List.not_mem_nil
  | cons x rest ih =>
      rw [List.pairwise_cons] at hsorted
      by_cases hafter : (s.heap x).abstime.isAfter t = true
      · rw [rearOf_of_after hafter] at ha
        rcases List.mem_cons.mp ha with rfl | ha
        · exact hafter
        · refine isAfter_of_le (hnorm x (by simp)) (hnorm a (by simp [ha])) ?_ hafter
          exact (hsorted.1 a ha).elim Nat.le_of_lt fun heq => heq.1.le
      · rw [rearOf_of_not_after hafter] at ha
        exact ih ha hsorted.2 fun p hp => hnorm p (List.mem_cons_of_mem _ hp)

theorem mem_frontOf {heap : ℕ → RILEvent} {t : Timespec} {a : ℕ} {xs : List ℕ}
    (ha : a ∈ frontOf heap t xs) : (heap a).abstime.isAfter t = false := by
  simpa using List.mem_takeWhile_imp ha

theorem QueuesSorted.hasLater_iff (h : QueuesSorted s xs) {t : Timespec} :
    s.HasLater q t ↔ rearOf s.heap t (xs q) ≠ [] := by
  rw [RilQueues.HasLater, h.events_eq, ne_eq, rearOf, List.dropWhile_eq_nil_iff]
  simp

theorem QueuesSorted.hasEarlier_iff (h : QueuesSorted s xs) {t : Timespec} :
    s.HasEarlier q t ↔ frontOf s.heap t (xs q) ≠ [] := by
  rw [RilQueues.HasEarlier, h.events_eq]
  constructor
  · rintro ⟨p, hp, hbefore⟩ hnil
    rw [← frontOf_append_rearOf s.heap t (xs q), hnil, List.nil_append] at hp
    rw [h.mem_rearOf hp] at hbefore
    exact absurd hbefore.symm Bool.false_ne_true
  · intro hne
    obtain ⟨p, rest, hcons⟩ := List.exists_cons_of_ne_nil hne
    have hp : p ∈ frontOf s.heap t (xs q) := hcons ▸ List.mem_cons_self ..
    exact ⟨p, List.takeWhile_subset _ hp, mem_frontOf hp⟩

/-- The queues stay sorted when an event with a normalised time is put in one, that was enqueued
after those in it. -/
theorem QueuesSorted.insert (h : QueuesSorted s xs) (he : ∀ q, e ∉ xs q) (hlive : e ∈ s.live)
    (hdue : (s.heap e).abstime.normalised)
    (hnumber : ∀ p ∈ xs q, (s.heap p).number < (s.heap e).number)
    {heap' : ℕ → RILEvent} {front rear : List ℕ}
    (hfront : frontOf s.heap (s.heap e).abstime (xs q) = front)
    (hrear : rearOf s.heap (s.heap e).abstime (xs q) = rear)
    (hin : LinkedIn s.heap heap' front.getLast? e rear.head?)
    (hnext : rear = [] → (s.heap e).next = none) (hprev : front = [] → (s.heap e).prev = none) :
    QueuesSorted ({ s with heap := heap' }.setHead q
      (if front = [] then some e else s.eventList q))
      (Function.update xs q (front ++ e :: rear)) := by
  have hsplit : front ++ rear = xs q := by
    rw [← hfront, ← hrear, frontOf_append_rearOf]
  have hsame : ∀ a b, (heap' a).DueEarlier (heap' b) ↔ (s.heap a).DueEarlier (s.heap b) := by
    intro a b
    simp only [RILEvent.DueEarlier, hin.abstime, hin.number]
  refine ⟨h.toQueuesLinked.insert he hlive hsplit hin hnext hprev, fun q' => ?_, fun q' p hp => ?_⟩
  · simp only [RilQueues.setHead, hsame]
    by_cases hq : q' = q
    · subst hq
      rw [Function.update_self]
      have hsorted := h.sorted q'
      have hnorm := h.normalised q'
      have hall : ∀ p ∈ rear, (s.heap p).abstime.isAfter (s.heap e).abstime = true := fun p hp =>
        h.mem_rearOf (hrear ▸ hp)
      rw [← hsplit] at hsorted hnorm hnumber
      obtain ⟨hfirst, hlast, hacross⟩ := List.pairwise_append.mp hsorted
      refine List.pairwise_append.mpr ⟨hfirst, List.pairwise_cons.mpr ⟨fun p hp => ?_, hlast⟩,
        fun a ha b hb => ?_⟩
      · exact .inl ((isAfter_iff_nanoseconds (hnorm p (List.mem_append_right _ hp)) hdue).mp
          (hall p hp))
      · rcases List.mem_cons.mp hb with rfl | hb
        · have hbefore : ¬ (s.heap a).abstime.isAfter (s.heap b).abstime = true := by
            rw [mem_frontOf (hfront ▸ ha)]
            exact Bool.false_ne_true
          rw [isAfter_iff_nanoseconds (hnorm a (List.mem_append_left _ ha)) hdue, Nat.not_lt]
            at hbefore
          exact hbefore.lt_or_eq.imp id fun heq => ⟨heq, hnumber a (List.mem_append_left _ ha)⟩
        · exact hacross a ha b hb
    · rw [Function.update_of_ne hq]
      exact h.sorted q'
  · simp only [RilQueues.setHead, hin.abstime]
    by_cases hq : q' = q
    · subst hq
      rw [Function.update_self] at hp
      by_cases hpe : p = e
      · exact hpe ▸ hdue
      · refine h.normalised q' p ?_
        rw [← hsplit]
        simp only [List.mem_append, List.mem_cons] at hp ⊢
        tauto
    · rw [Function.update_of_ne hq] at hp
      exact h.normalised q' p hp

/-- The numbers of the events of a queue, when one is put in. -/
theorem numbers_insert {heap' : ℕ → RILEvent} {front rear ys : List ℕ}
    (hsplit : front ++ rear = ys) (hin : LinkedIn s.heap heap' front.getLast? e rear.head?) :
    ((front ++ e :: rear).map fun p => (heap' p).number).Perm
      (ys.map (fun p => (s.heap p).number) ++ [(s.heap e).number]) := by
  simp only [hin.number, ← hsplit, List.map_append, List.map_cons]
  rw [List.append_assoc]
  refine List.Perm.append_left _ ?_
  exact (List.perm_append_singleton ..).symm

/-- Events that are in the same places are linked as they were. -/
theorem QueuesLinked.congr (h : QueuesLinked s xs) (hlive : ∀ p ∈ s.live, p ∈ t.live)
    (hheap : ∀ p ∈ s.live, t.heap p = s.heap p) (hfirst : t.eventList = s.eventList) :
    QueuesLinked t xs where
  linked := fun q => hfirst ▸ (h.linked q).congr (fun p hp => by rw [hheap p (h.live q p hp)])
    fun p hp => by rw [hheap p (h.live q p hp)]
  apart := h.apart
  live := fun q p hp => hlive p (h.live q p hp)

theorem QueuesSorted.congr (h : QueuesSorted s xs) (hlive : ∀ p ∈ s.live, p ∈ t.live)
    (hheap : ∀ p ∈ s.live, t.heap p = s.heap p) (hfirst : t.eventList = s.eventList) :
    QueuesSorted t xs where
  toQueuesLinked := h.toQueuesLinked.congr hlive hheap hfirst
  sorted := fun q => (h.sorted q).imp_of_mem fun ha hb hdue => by
    rwa [hheap _ (h.live q _ ha), hheap _ (h.live q _ hb)]
  normalised := fun q p hp => by
    rw [hheap p (h.live q p hp)]
    exact h.normalised q p hp

theorem le_foldr_max {live : List ℕ} {p : ℕ} (hp : p ∈ live) : p ≤ live.foldr max 0 := by
  induction live with
  | nil => exact absurd hp List.not_mem_nil
  | cons x live ih =>
      rcases List.mem_cons.mp hp with rfl | hp
      · exact Nat.le_max_left ..
      · exact (ih hp).trans (Nat.le_max_right ..)

theorem mallocAddr_notMem (live : List ℕ) (choice : ℕ) : mallocAddr live choice ∉ live := by
  rw [mallocAddr]
  split_ifs with hmem
  · exact fun hmax => absurd (le_foldr_max hmax) (Nat.not_succ_le_self _)
  · exact hmem

/-- A block is allocated beside the events. -/
theorem alloc_of_mem {choice : ℕ} {contents : RILEvent} {p : ℕ} (hp : p ∈ s.live) :
    (s.alloc choice contents).heap p = s.heap p :=
  Function.update_of_ne (fun heq : p = mallocAddr s.live choice =>
    mallocAddr_notMem s.live choice (heq ▸ hp)) ..

theorem QueuesLinked.alloc (h : QueuesLinked s xs) (choice : ℕ) (contents : RILEvent) :
    QueuesLinked (s.alloc choice contents) xs :=
  h.congr (fun _ hp => List.mem_cons_of_mem _ hp) (fun _ hp => alloc_of_mem hp) rfl

theorem QueuesSorted.alloc (h : QueuesSorted s xs) (choice : ℕ) (contents : RILEvent) :
    QueuesSorted (s.alloc choice contents) xs :=
  h.congr (fun _ hp => List.mem_cons_of_mem _ hp) (fun _ hp => alloc_of_mem hp) rfl

theorem frontOf_congr {heap heap' : ℕ → RILEvent} {t : Timespec} {ys : List ℕ}
    (h : ∀ p ∈ ys, (heap' p).abstime = (heap p).abstime) :
    frontOf heap' t ys = frontOf heap t ys ∧ rearOf heap' t ys = rearOf heap t ys := by
  induction ys with
  | nil => exact ⟨rfl, rfl⟩
  | cons x ys ih =>
      have hx := h x (List.mem_cons_self ..)
      obtain ⟨hfront, hrear⟩ := ih fun p hp => h p (List.mem_cons_of_mem _ hp)
      by_cases hafter : (heap x).abstime.isAfter t = true
      · have hafter' : (heap' x).abstime.isAfter t = true := hx ▸ hafter
        rw [frontOf_of_after hafter, frontOf_of_after hafter', rearOf_of_after hafter,
          rearOf_of_after hafter']
        exact ⟨rfl, rfl⟩
      · have hafter' : ¬ (heap' x).abstime.isAfter t = true := hx ▸ hafter
        rw [frontOf_of_not_after hafter, frontOf_of_not_after hafter',
          rearOf_of_not_after hafter, rearOf_of_not_after hafter', hfront, hrear]
        exact ⟨rfl, rfl⟩

/-- The events that a call is for are accounted for, when they are in its queues. -/
theorem QueuesHold.record (h : QueuesHold s xs) {ys : QueueId → List ℕ} {isPrio : RilEventQueue}
    (hsorted : QueuesSorted t ys) (hran : t.ran = s.ran) (hcalls : t.calls = s.calls + 1)
    (haddressed : t.addressed = (s.record isPrio).addressed)
    (hnumbers : ∀ q, ((ys q).map fun p => (t.heap p).number).Perm
      ((xs q).map (fun p => (s.heap p).number) ++
        if q = s.firstQueue isPrio ∨ q = .prio ∧ s.bothQueues isPrio = true then [s.calls]
        else [])) : QueuesHold t ys := by
  have hrecord : ∀ q, t.addressed q = s.addressed q ++
      if q = s.firstQueue isPrio ∨ q = .prio ∧ s.bothQueues isPrio = true then [s.calls]
      else [] := by
    intro q
    rw [haddressed, RilQueues.record]
    cases hboth : s.bothQueues isPrio with
    | true => by_cases hq : q = s.firstQueue isPrio ∨ q = .prio <;> simp [hq]
    | false => by_cases hq : q = s.firstQueue isPrio <;> simp [hq]
  refine ⟨hsorted, fun q => ?_, fun q => ?_⟩
  · rw [hrecord, hran]
    refine ((hnumbers q).append_right _).trans ?_
    rw [List.append_assoc]
    refine (List.perm_append_comm.append_left _).trans ?_
    rw [← List.append_assoc]
    exact (h.once q).append_right _
  · obtain ⟨horder, hlt⟩ := h.calls q
    rw [hrecord, hcalls]
    split_ifs
    · refine ⟨List.pairwise_append.mpr ⟨horder, List.pairwise_singleton .., fun a ha b hb => ?_⟩,
        fun n hn => ?_⟩
      · exact List.mem_singleton.mp hb ▸ hlt a ha
      · rcases List.mem_append.mp hn with hn | hn
        · exact Nat.lt_succ_of_lt (hlt n hn)
        · exact List.mem_singleton.mp hn ▸ Nat.lt_succ_self _
    · rw [List.append_nil]
      exact ⟨horder, fun n hn => Nat.lt_succ_of_lt (hlt n hn)⟩

/-- The numbers of waiting events were given before. -/
theorem QueuesHold.number_lt (h : QueuesHold s xs) {p : ℕ} (hp : p ∈ xs q) :
    (s.heap p).number < s.calls := by
  refine (h.calls q).2 _ ((h.once q).mem_iff.mp (List.mem_append_left _ ?_))
  exact List.mem_map_of_mem hp

/-- A thread takes an event that is due and has none behind it. -/
theorem QueuesHold.take (h : QueuesHold s xs) (hxs : xs q = [e]) :
    QueuesHold { s.setHead q none with
      live := s.live.erase e
      ran := Function.update s.ran q (s.ran q ++ [(s.heap e).number]) }
      (Function.update xs q []) := by
  have hother : ∀ q', ∀ p ∈ Function.update xs q [] q', p ∈ xs q' ∧ p ≠ e := by
    intro q' p hp
    by_cases hq : q' = q
    · subst hq
      rw [Function.update_self] at hp
      exact absurd hp List.not_mem_nil
    · rw [Function.update_of_ne hq] at hp
      exact ⟨hp, fun heq => h.notMem hq hp (by simp [hxs, heq])⟩
  refine ⟨⟨⟨fun q' => ?_, ?_, fun q' p hp => ?_⟩, fun q' => ?_, fun q' p hp => ?_⟩,
    fun q' => ?_, h.calls⟩
  · by_cases hq : q' = q
    · subst hq
      simp only [RilQueues.setHead, Function.update_self]
      exact ⟨rfl, trivial⟩
    · simpa only [RilQueues.setHead, Function.update_of_ne hq] using h.linked q'
  · refine h.apart.sublist ?_
    cases q with
    | normal => simp
    | prio => simp
  · obtain ⟨hmem, hne⟩ := hother q' p hp
    exact (List.mem_erase_of_ne hne).mpr (h.live q' p hmem)
  · by_cases hq : q' = q
    · subst hq
      simp
    · simpa only [RilQueues.setHead, Function.update_of_ne hq] using h.sorted q'
  · exact h.normalised q' p (hother q' p hp).1
  · by_cases hq : q' = q
    · subst hq
      have honce := h.once q'
      rw [hxs] at honce
      simp only [Function.update_self, List.map_nil, List.nil_append]
      exact (List.perm_append_singleton ..).trans honce
    · simpa only [RilQueues.setHead, Function.update_of_ne hq] using h.once q'

/-- The turn of a thread leaves the queues in order exactly when it takes no event, or one that has
none behind it. -/
theorem queueRunner_iff (h : QueuesHold s xs) (ts : Timespec) :
    (∃ ys, QueuesHold (s.queueRunner q ts) ys) ↔
      ∀ e, s.eventList q = some e → (s.heap e).abstime.isBefore ts = true →
        (s.heap e).next = none := by
  have hleads := (h.linked q).leads
  have hbacked := (h.linked q).backed
  rw [RilQueues.queueRunner]
  cases hxs : xs q with
  | nil =>
      rw [hxs] at hleads
      rw [show s.eventList q = none from hleads]
      exact ⟨fun _ e he => absurd he.symm (Option.some_ne_none e), fun _ => ⟨xs, h⟩⟩
  | cons e rest =>
      rw [hxs] at hleads hbacked
      rw [hleads.1]
      by_cases hdue : (s.heap e).abstime.isBefore ts = true
      · have honly : (∀ e', some e = some e' → (s.heap e').abstime.isBefore ts = true →
            (s.heap e').next = none) ↔ (s.heap e).next = none :=
          ⟨fun hall => hall e rfl hdue, fun hnext e' heq _ => Option.some.inj heq ▸ hnext⟩
        rw [honly]
        simp only [hdue, if_true]
        constructor
        · rintro ⟨ys, hys⟩
          -- the event behind the one that was taken still points back to it
          have hlater := hys.linked q
          simp only [RilQueues.setHead, Function.update_self] at hlater
          have hkept := hlater.leads.unique hleads.2
          cases rest with
          | nil => exact hleads.2
          | cons y rest =>
              have hfirst := hlater.backed
              rw [hkept] at hfirst
              exact absurd (hfirst.1.symm.trans hbacked.2.1) (Option.some_ne_none e).symm
        · intro hnext
          have hlast : Leads (fun p => (s.heap p).next) (s.heap e).next [] := hnext
          have hrest : rest = [] := hleads.2.unique hlast
          rw [hnext]
          exact ⟨_, h.take (hrest ▸ hxs)⟩
      · simp only [hdue]
        refine ⟨fun _ e' heq hbefore => ?_, fun _ => ⟨xs, h⟩⟩
        exact absurd (Option.some.inj heq ▸ hbefore) hdue

/-- A thread whose turns come when all events are due runs them in their order. -/
theorem ran_iterate {ts : Timespec} {ys : List ℕ}
    (hleads : Leads (fun p => (s.heap p).next) (s.eventList q) ys)
    (hdue : ∀ p ∈ ys, (s.heap p).abstime.isBefore ts = true) :
    ((fun t => t.queueRunner q ts)^[ys.length] s).ran q =
      s.ran q ++ ys.map fun p => (s.heap p).number := by
  induction ys generalizing s with
  | nil => simp
  | cons e ys ih =>
      have hstep : (s.queueRunner q ts).heap = s.heap ∧
          (s.queueRunner q ts).eventList q = (s.heap e).next ∧
          (s.queueRunner q ts).ran q = s.ran q ++ [(s.heap e).number] := by
        rw [RilQueues.queueRunner, hleads.1]
        simp [hdue e (List.mem_cons_self ..), RilQueues.setHead]
      obtain ⟨hheap, hfirst, hran⟩ := hstep
      rw [List.length_cons, Function.iterate_succ_apply, ih, hheap, hran, List.append_assoc]
      · rfl
      · rw [hfirst, hheap]
        exact hleads.2
      · rw [hheap]
        exact fun p hp => hdue p (List.mem_cons_of_mem _ hp)

theorem QueuesHold.runsAll (h : QueuesHold s xs) (q : QueueId) : s.RunsAll q := by
  intro ts hdue
  rw [h.events_eq] at hdue ⊢
  rw [ran_iterate (h.linked q).leads hdue]
  exact List.perm_append_comm.trans (h.once q)

section Enqueue

variable {isPrio : RilEventQueue} {choice choice2 : ℕ} {due tv : Timespec}
  {relativeTime : Option Timeval}

theorem newEvent_sorted (h : QueuesSorted s xs) :
    QueuesSorted (s.newEvent isPrio choice due) xs :=
  QueuesSorted.alloc (s := s.record isPrio) (h.congr (fun _ hp => hp) (fun _ _ => rfl) rfl) ..

theorem newEvent_self :
    (s.newEvent isPrio choice due).heap (mallocAddr s.live choice) =
      ⟨s.calls, due, none, none⟩ := Function.update_self ..

theorem newEvent_of_mem {p : ℕ} (hp : p ∈ s.live) :
    (s.newEvent isPrio choice due).heap p = s.heap p := alloc_of_mem (s := s.record isPrio) hp

theorem QueuesLinked.mallocAddr_notMem (h : QueuesLinked s xs) (choice : ℕ) (q : QueueId) :
    mallocAddr s.live choice ∉ xs q :=
  fun hmem => Ril.mallocAddr_notMem s.live choice (h.live q _ hmem)

/-- The queues `t` when a new event was put in the first queue for it: its links are those to its
neighbours. -/
structure FirstInserted (s t : RilQueues) (xs : QueueId → List ℕ) (isPrio : RilEventQueue)
    (due : Timespec) (q : QueueId) (e : ℕ) (front rear : List ℕ) : Prop where
  front_eq : frontOf s.heap due (xs q) = front
  rear_eq : rearOf s.heap due (xs q) = rear
  event : t.heap e = ⟨s.calls, due, rear.head?, front.getLast?⟩
  linked : QueuesLinked t (Function.update xs q (front ++ e :: rear))
  sorted : due.normalised → QueuesSorted t (Function.update xs q (front ++ e :: rear))
  abstime : ∀ q', ∀ p ∈ xs q', (t.heap p).abstime = (s.heap p).abstime
  number : ∀ q', ∀ p ∈ xs q', (t.heap p).number = (s.heap p).number
  ran : t.ran = s.ran
  calls : t.calls = s.calls + 1
  addressed : t.addressed = (s.record isPrio).addressed

theorem exists_firstInserted (h : QueuesHold s xs) (he : mallocAddr s.live choice = e)
    (due : Timespec) (q : QueueId) :
    ∃ t front rear, (s.newEvent isPrio choice due).insert q e = some t ∧
      FirstInserted s t xs isPrio due q e front rear := by
  have hu : QueuesSorted (s.newEvent isPrio choice due) xs := newEvent_sorted h.toQueuesSorted
  have hfresh : ∀ q, e ∉ xs q := fun q => he ▸ h.mallocAddr_notMem choice q
  have hlive : e ∈ (s.newEvent isPrio choice due).live := he ▸ List.mem_cons_self ..
  have hself : (s.newEvent isPrio choice due).heap e = ⟨s.calls, due, none, none⟩ :=
    he ▸ newEvent_self
  have hkept : ∀ q', ∀ p ∈ xs q', (s.newEvent isPrio choice due).heap p = s.heap p :=
    fun q' p hp => newEvent_of_mem (h.live q' p hp)
  obtain ⟨hfront, hrear⟩ := @frontOf_congr s.heap (s.newEvent isPrio choice due).heap due (xs q)
    fun p hp => by rw [hkept q p hp]
  have hdue : ((s.newEvent isPrio choice due).heap e).abstime = due := by rw [hself]
  have hnext : ((s.newEvent isPrio choice due).heap e).next = none := by rw [hself]
  have hprev : ((s.newEvent isPrio choice due).heap e).prev = none := by rw [hself]
  have hfront' : frontOf (s.newEvent isPrio choice due).heap
      ((s.newEvent isPrio choice due).heap e).abstime (xs q) = frontOf s.heap due (xs q) := by
    rw [hdue, hfront]
  have hrear' : rearOf (s.newEvent isPrio choice due).heap
      ((s.newEvent isPrio choice due).heap e).abstime (xs q) = rearOf s.heap due (xs q) := by
    rw [hdue, hrear]
  obtain ⟨heap', hin, hrun⟩ := insert_rule hu.toQueuesLinked (hfresh q) hfront' hrear'
  refine ⟨_, _, _, hrun, rfl, rfl, ?_, ?_, fun hnorm => ?_, fun q' p hp => ?_, fun q' p hp => ?_,
    rfl, rfl, rfl⟩
  · have hown := hin.spliced.next_own
    have hback := hin.spliced.prev_own
    simp only [hnext, hprev, Option.or_none] at hown hback
    exact RILEvent.ext ((hin.number e).trans (by rw [hself])) ((hin.abstime e).trans hdue) hown
      hback
  · exact hu.toQueuesLinked.insert hfresh hlive (frontOf_append_rearOf ..) hin (fun _ => hnext)
      fun _ => hprev
  · refine hu.insert hfresh hlive ?_ (fun p hp => ?_) hfront' hrear' hin (fun _ => hnext)
      fun _ => hprev
    · rw [hdue]
      exact hnorm
    · rw [hkept q p hp, hself]
      exact h.number_lt hp
  · exact (hin.abstime p).trans (by rw [hkept q' p hp])
  · exact (hin.number p).trans (by rw [hkept q' p hp])

section First

variable {front rear : List ℕ}

/-- The numbers in the queues when a new event was put in the first one. -/
theorem FirstInserted.numbers (h : FirstInserted s t xs isPrio due q e front rear)
    (q' : QueueId) :
    ((Function.update xs q (front ++ e :: rear) q').map fun p => (t.heap p).number).Perm
      ((xs q').map (fun p => (s.heap p).number) ++ if q' = q then [s.calls] else []) := by
  have hkept : (xs q').map (fun p => (t.heap p).number) =
      (xs q').map fun p => (s.heap p).number :=
    List.map_congr_left fun p hp => h.number q' p hp
  by_cases hq : q' = q
  · subst hq
    have hsplit : front ++ rear = xs q' := by
      rw [← h.front_eq, ← h.rear_eq, frontOf_append_rearOf]
    rw [Function.update_self, if_pos rfl, ← hkept, ← hsplit, List.map_append, List.map_append,
      List.map_cons, h.event, List.append_assoc]
    exact List.Perm.append_left _ (List.perm_append_singleton ..).symm
  · rw [Function.update_of_ne hq, if_neg hq, List.append_nil, hkept]

/-- A new event that is in queues in order has a normalised time. -/
theorem FirstInserted.normalised (h : FirstInserted s t xs isPrio due q e front rear)
    {u : RilQueues} {ys : QueueId → List ℕ} (hys : QueuesSorted u ys)
    (hsame : (u.heap e).abstime = (t.heap e).abstime)
    (hleads : Leads (fun p => (u.heap p).next) (u.eventList q) (front ++ e :: rear)) :
    due.normalised := by
  have hmem : e ∈ ys q := by
    rw [(hys.linked q).leads.unique hleads]
    exact List.mem_append_right _ (List.mem_cons_self ..)
  have hnorm := hys.normalised q e hmem
  rwa [hsame, h.event] at hnorm

end First

/-- An event for one queue leaves the queues in order exactly when its time is normalised. -/
theorem enqueue_single_iff (h : QueuesHold s xs) (hboth : s.bothQueues isPrio = false) :
    (∃ t, s.enqueueRILEvent isPrio choice choice2 tv relativeTime = some t ∧
        ∃ ys, QueuesHold t ys) ↔
      (dueTime tv relativeTime).normalised := by
  obtain ⟨t, front, rear, hrun, hfirst⟩ :=
    @exists_firstInserted s xs _ isPrio choice h rfl (dueTime tv relativeTime)
      (s.firstQueue isPrio)
  simp only [RilQueues.enqueueRILEvent, hrun, Option.bind_some, hboth, Bool.false_eq_true,
    if_false]
  constructor
  · rintro ⟨t', ht, ys, hys⟩
    obtain rfl := Option.some.inj ht
    have hlinked := hfirst.linked.linked (s.firstQueue isPrio)
    rw [Function.update_self] at hlinked
    exact hfirst.normalised hys.toQueuesSorted rfl hlinked.leads
  · intro hnorm
    refine ⟨t, rfl, _, h.record (hfirst.sorted hnorm) hfirst.ran hfirst.calls hfirst.addressed
      fun q' => ?_⟩
    simpa [hboth] using hfirst.numbers q'

/-- The queues `t` when the copy `e2` of an event was put in the priority queue: its links are those
to its neighbours, and on a side on which it has none that of the event. -/
structure CopyInserted (s u t : RilQueues) (xs ys : QueueId → List ℕ) (due : Timespec)
    (e e2 : ℕ) (front2 rear2 : List ℕ) : Prop where
  front_eq : frontOf s.heap due (xs .prio) = front2
  rear_eq : rearOf s.heap due (xs .prio) = rear2
  normal : Linked (fun p => (t.heap p).next) (fun p => (t.heap p).prev) (t.eventList .normal)
    (ys .normal)
  event : t.heap e = u.heap e
  copy : t.heap e2 = ⟨s.calls, due, rear2.head?.or (u.heap e).next,
    front2.getLast?.or (u.heap e).prev⟩
  head : front2 = [] → t.eventList .prio = some e2
  leads : ∀ rest, Leads (fun p => (t.heap p).next) (t.heap e2).next rest →
    Leads (fun p => (t.heap p).next) (t.eventList .prio) (front2 ++ e2 :: rest)
  sorted : QueuesSorted u ys → (rear2 = [] → (u.heap e).next = none) →
    (front2 = [] → (u.heap e).prev = none) →
    QueuesSorted t (Function.update ys .prio (front2 ++ e2 :: rear2))
  numbers : ∀ q', ((Function.update ys .prio (front2 ++ e2 :: rear2) q').map
      fun p => (t.heap p).number).Perm
    ((ys q').map (fun p => (u.heap p).number) ++ if q' = .prio then [s.calls] else [])
  ran : t.ran = u.ran
  calls : t.calls = u.calls
  addressed : t.addressed = u.addressed

section Both

variable {u : RilQueues} {ys : QueueId → List ℕ} {front rear front2 rear2 : List ℕ} {e2 : ℕ}

theorem exists_copyInserted (h : QueuesHold s xs)
    (hfirst : FirstInserted s u xs isPrio due .normal e front rear)
    (hys : ys = Function.update xs .normal (front ++ e :: rear)) (choice2 : ℕ) :
    ∃ t e2 front2 rear2,
      (u.alloc choice2 (u.heap e)).insert .prio (mallocAddr u.live choice2) = some t ∧
        CopyInserted s u t xs ys due e e2 front2 rear2 := by
  generalize he2 : mallocAddr u.live choice2 = e2
  have hlinked : QueuesLinked (u.alloc choice2 (u.heap e)) ys :=
    hys ▸ hfirst.linked.alloc choice2 (u.heap e)
  have hprio : ys .prio = xs .prio := hys ▸ Function.update_of_ne (by decide) ..
  have hfresh : ∀ q, e2 ∉ ys q := fun q => by
    rw [hys, ← he2]
    exact hfirst.linked.mallocAddr_notMem choice2 q
  have hlive : e2 ∈ (u.alloc choice2 (u.heap e)).live := he2 ▸ List.mem_cons_self ..
  have hself : (u.alloc choice2 (u.heap e)).heap e2 = u.heap e := he2 ▸ Function.update_self ..
  have hkept : ∀ q, ∀ p ∈ ys q, (u.alloc choice2 (u.heap e)).heap p = u.heap p := fun q p hp =>
    alloc_of_mem (hfirst.linked.live q p (hys ▸ hp))
  have hmem : e ∈ ys .normal := by
    rw [hys, Function.update_self]
    exact List.mem_append_right _ (List.mem_cons_self ..)
  have hdue : ((u.alloc choice2 (u.heap e)).heap e2).abstime = due := by
    rw [hself, hfirst.event]
  obtain ⟨hfront, hrear⟩ := @frontOf_congr s.heap (u.alloc choice2 (u.heap e)).heap due
    (xs .prio) fun p hp => (congrArg RILEvent.abstime (hkept .prio p (hprio ▸ hp))).trans
      (hfirst.abstime .prio p hp)
  generalize hfrontOf : frontOf s.heap due (xs .prio) = front2 at hfront
  generalize hrearOf : rearOf s.heap due (xs .prio) = rear2 at hrear
  rw [← hprio, ← hdue] at hfront hrear
  have hsplit : front2 ++ rear2 = ys .prio := by
    rw [← hfront, ← hrear, frontOf_append_rearOf]
  obtain ⟨heap', hin, hrun⟩ := insert_rule hlinked (hfresh .prio) hfront hrear
  refine ⟨_, e2, front2, rear2, hrun, hfrontOf, hrearOf, ?_, ?_, ?_, fun hnil => ?_,
    fun rest hrest => ?_, fun hsorted hnext hprev => ?_, fun q' => ?_, rfl, rfl, rfl⟩
  · have hprio : QueueId.normal ≠ .prio := by decide
    have hnormal := hlinked.other hsplit hin hprio (hfresh .normal)
    simpa only [RilQueues.setHead, Function.update_of_ne hprio] using hnormal
  · have hne : e ≠ e2 := fun heq => hfresh .normal (heq ▸ hmem)
    obtain ⟨hw, hb⟩ := hlinked.neighbours hsplit (by decide) hmem
    rw [← hkept .normal e hmem]
    exact RILEvent.ext (hin.number e) (hin.abstime e) (hin.spliced.next_eq e hw hne)
      (hin.spliced.prev_eq e hb hne)
  · have hown := hin.spliced.next_own
    have hback := hin.spliced.prev_own
    have hnumber := hin.number e2
    rw [hself] at hown hback hnumber
    rw [hfirst.event] at hnumber
    exact RILEvent.ext hnumber ((hin.abstime e2).trans hdue) hown hback
  · simp [RilQueues.setHead, hnil]
  · have hlist := hlinked.linked .prio
    rw [← hsplit] at hlist
    have hfront2 : front2.Nodup :=
      (List.nodup_append.mp (hsplit ▸ hlinked.nodup .prio : (front2 ++ rear2).Nodup)).1
    have hout : e2 ∉ front2 := fun hmem2 =>
      hfresh .prio (hsplit ▸ List.mem_append_left _ hmem2)
    simpa only [RilQueues.setHead, Function.update_self] using
      hin.spliced.leads_front hlist.leads hfront2 hout hrest
  · refine (hsorted.alloc choice2 (u.heap e)).insert hfresh hlive ?_ (fun p hp => ?_) hfront hrear
      hin (by rwa [hself]) (by rwa [hself])
    · rw [hself]
      exact hsorted.normalised .normal e hmem
    · rw [hkept .prio p hp, hself, hfirst.event, hfirst.number .prio p (hprio ▸ hp)]
      exact h.number_lt (hprio ▸ hp)
  · have hsame : (ys q').map (fun p => ((u.alloc choice2 (u.heap e)).heap p).number) =
        (ys q').map fun p => (u.heap p).number :=
      List.map_congr_left fun p hp => by rw [hkept q' p hp]
    rw [← hsame]
    by_cases hq : q' = .prio
    · subst hq
      have hnumbers := numbers_insert hsplit hin
      have hnumber : (u.heap e).number = s.calls := by rw [hfirst.event]
      rw [hself, hnumber] at hnumbers
      rw [Function.update_self, if_pos rfl]
      exact hnumbers
    · rw [Function.update_of_ne hq, if_neg hq, List.append_nil]
      exact List.Perm.of_eq (List.map_congr_left fun p _ => hin.number p)

/-- If the queues are in order when the copy was put in the priority queue, it has a neighbour on
each side on which the event has one. -/
theorem CopyInserted.neighbours {t : RilQueues} {zs : QueueId → List ℕ}
    (hfirst : FirstInserted s u xs isPrio due .normal e front rear)
    (hcopy : CopyInserted s u t xs (Function.update xs .normal (front ++ e :: rear)) due e e2
      front2 rear2) (h : QueuesLinked t zs) :
    (rear ≠ [] → rear2 ≠ []) ∧ (front ≠ [] → front2 ≠ []) := by
  have hnormal := hcopy.normal
  rw [Function.update_self] at hnormal
  refine ⟨?_, ?_⟩
  · -- the copy leads on to the events behind the one in the normal queue
    rintro hne rfl
    have hnext : (t.heap e2).next = (t.heap e).next := by
      rw [hcopy.event, hcopy.copy]
      rfl
    have hrest : Leads (fun p => (t.heap p).next) (t.heap e2).next rear := by
      rw [hnext]
      exact hnormal.leads.drop.2
    obtain ⟨y, rest, hy⟩ := List.exists_cons_of_ne_nil hne
    have hyNormal : y ∈ zs .normal := by
      rw [(h.linked .normal).leads.unique hnormal.leads, hy]
      simp
    have hyPrio : y ∈ zs .prio := by
      rw [(h.linked .prio).leads.unique (hcopy.leads rear hrest), hy]
      simp
    exact h.notMem (by decide) hyNormal hyPrio
  · -- the copy points back to the event in front of the one in the normal queue
    rintro hne rfl
    have hback : (t.heap e2).prev = front.getLast? := by
      rw [hcopy.copy, hfirst.event]
      rfl
    have hlinked := h.linked .prio
    rw [hcopy.head rfl] at hlinked
    cases hzs : zs .prio with
    | nil =>
        rw [hzs] at hlinked
        exact Option.some_ne_none e2 hlinked.leads
    | cons a rest =>
        rw [hzs] at hlinked
        obtain rfl := Option.some.inj hlinked.leads.1
        exact hne (List.getLast?_eq_none_iff.mp (hback.symm.trans hlinked.backed.1))

/-- An event for both queues leaves the queues in order exactly when its time is normalised and the
priority queue has an event on each side of it on which the normal queue has one. -/
theorem enqueue_both_iff (h : QueuesHold s xs) (hboth : s.bothQueues isPrio = true) :
    (∃ t, s.enqueueRILEvent isPrio choice choice2 tv relativeTime = some t ∧
        ∃ ys, QueuesHold t ys) ↔
      (dueTime tv relativeTime).normalised ∧
        (rearOf s.heap (dueTime tv relativeTime) (xs .normal) ≠ [] →
          rearOf s.heap (dueTime tv relativeTime) (xs .prio) ≠ []) ∧
        (frontOf s.heap (dueTime tv relativeTime) (xs .normal) ≠ [] →
          frontOf s.heap (dueTime tv relativeTime) (xs .prio) ≠ []) := by
  have hq : s.firstQueue isPrio = .normal := by
    simp only [RilQueues.bothQueues, Bool.and_eq_true, beq_iff_eq] at hboth
    simp [RilQueues.firstQueue, hboth]
  obtain ⟨u, front, rear, hrun, hfirst⟩ :=
    @exists_firstInserted s xs _ isPrio choice h rfl (dueTime tv relativeTime) .normal
  obtain ⟨t, e2, front2, rear2, hrun2, hcopy⟩ := exists_copyInserted h hfirst rfl choice2
  rw [hfirst.front_eq, hfirst.rear_eq, hcopy.front_eq, hcopy.rear_eq]
  simp only [RilQueues.enqueueRILEvent, hq, hrun, Option.bind_some, hboth, if_true, hrun2]
  constructor
  · rintro ⟨t', ht, zs, hzs⟩
    obtain rfl := Option.some.inj ht
    have hnormal := hcopy.normal.leads
    rw [Function.update_self] at hnormal
    exact ⟨hfirst.normalised hzs.toQueuesSorted (by rw [hcopy.event]) hnormal,
      hcopy.neighbours hfirst hzs.toQueuesLinked⟩
  · rintro ⟨hnorm, hlater, hearlier⟩
    have hsorted := hcopy.sorted (hfirst.sorted hnorm)
      (fun hnil => by
        rw [hfirst.event]
        exact List.head?_eq_none_iff.mpr (not_not.mp fun hne => hlater hne hnil))
      (fun hnil => by
        rw [hfirst.event]
        exact List.getLast?_eq_none_iff.mpr (not_not.mp fun hne => hearlier hne hnil))
    refine ⟨t, rfl, _, h.record hsorted (hcopy.ran.trans hfirst.ran)
      (hcopy.calls.trans hfirst.calls) (hcopy.addressed.trans hfirst.addressed) fun q' => ?_⟩
    refine (hcopy.numbers q').trans (((hfirst.numbers q').append_right _).trans ?_)
    cases q' with
    | normal => simp [hq]
    | prio => simp [hboth]

end Both

end Enqueue

/-- A step leaves the queues in order exactly when it is safe. -/
theorem queueStep_iff (h : QueuesHold s xs) (event : RilQueueEvent) :
    (∃ t, (rilQueueStep (some s) event).1 = some t ∧ ∃ ys, QueuesHold t ys) ↔
      QueueSafe (some s) event := by
  cases event with
  | enqueueRILEvent isPrio choice choice2 tv relativeTime =>
      simp only [rilQueueStep, QueueSafe, ← dueTime_normalised_iff, h.hasLater_iff,
        h.hasEarlier_iff]
      cases hboth : s.bothQueues isPrio with
      | false => simpa using enqueue_single_iff h hboth
      | true => simpa using enqueue_both_iff h hboth
  | queueRunner q ts =>
      simp only [rilQueueStep, QueueSafe, Option.some.injEq, exists_eq_left']
      exact queueRunner_iff h ts

end Queues

theorem queuesHold_start (heap : ℕ → RILEvent) (enabled : Bool) :
    QueuesHold (rilQueuesStart heap enabled) fun _ => [] := by
  refine ⟨⟨⟨fun q => ⟨rfl, trivial⟩, List.nodup_nil, ?_⟩, fun q => .nil, ?_⟩, fun q => .nil,
    fun q => ⟨.nil, ?_⟩⟩
  all_goals simp [rilQueuesStart]

/-- In every run, the queues are in order and their events will be run, exactly if every step is
safe. -/
theorem meets_queuesInOrder_iff (heap : ℕ → RILEvent) (enabled : Bool)
    (events : List RilQueueEvent) :
    Meets rilQueueStep QueuesInOrder (some (rilQueuesStart heap enabled)) events ↔
      Meets rilQueueStep QueueSafe (some (rilQueuesStart heap enabled)) events := by
  have hiff : ∀ s event, (∃ t xs, s = some t ∧ QueuesHold t xs) →
      (QueuesInOrder s event ↔ QueueSafe s event) := by
    rintro _ event ⟨s, xs, rfl, h⟩
    rw [← queueStep_iff h event]
    constructor
    · intro hall
      obtain ⟨t, ht, hys, -⟩ := hall rfl
      exact ⟨t, ht, hys⟩
    · rintro ⟨t, ht, ys, hys⟩ -
      exact ⟨t, ht, ⟨ys, hys⟩, hys.runsAll⟩
  have hnext : ∀ s event, (∃ t xs, s = some t ∧ QueuesHold t xs) → QueuesInOrder s event →
      ∃ t xs, (rilQueueStep s event).1 = some t ∧ QueuesHold t xs := by
    rintro _ event ⟨s, xs, rfl, h⟩ hall
    obtain ⟨t, ht, ⟨ys, hys⟩, -⟩ := hall rfl
    exact ⟨t, ys, ht, hys⟩
  have hstart : ∃ t xs, some (rilQueuesStart heap enabled) = some t ∧ QueuesHold t xs :=
    ⟨_, _, rfl, queuesHold_start heap enabled⟩
  constructor
  · exact meets_of_invariant hnext (fun s event hs => (hiff s event hs).mp) hstart
  · exact meets_of_invariant
      (fun s event hs hsafe => hnext s event hs ((hiff s event hs).mpr hsafe))
      (fun s event hs => (hiff s event hs).mpr) hstart

/-- An event for the normal queue in a minute, and one for both queues at once. -/
def joiningEvents : List RilQueueEvent :=
  [.enqueueRILEvent .normal 0 0 ⟨10, 0⟩ (some ⟨60, 0⟩),
    .enqueueRILEvent .all 1 2 ⟨10, 0⟩ none]

/-- The copy in the priority queue leads on to the event in the normal queue. -/
theorem not_queuesInOrder_joined :
    ¬ Meets rilQueueStep QueuesInOrder
      (some (rilQueuesStart (fun _ => ⟨0, ⟨0, 0⟩, none, none⟩) true)) joiningEvents := by
  rintro ⟨-, hsecond, -⟩
  obtain ⟨t, ht, ⟨ys, hys⟩, -⟩ := hsecond rfl
  obtain rfl := Option.some.inj ht
  have hnormal : ys .normal = [1, 0] :=
    (hys.linked .normal).leads.unique ⟨rfl, rfl, rfl⟩
  have hprio : ys .prio = [2, 0] := (hys.linked .prio).leads.unique ⟨rfl, rfl, rfl⟩
  have hapart := hys.apart
  rw [hnormal, hprio] at hapart
  exact absurd hapart (by decide)

end Ril

end SierraSdk
