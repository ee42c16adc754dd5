import SierraSdk.Library.Monitor
import Mathlib.Data.List.Perm.Basic
import Mathlib.Logic.Function.Basic

/-!
# Waiting lines that can be withdrawn from

Requests of type `α` wait in lines `κ`. The head of a line is taken, the first request of a line
that satisfies `p` may be withdrawn and is completed later, and what was taken or completed is in
hand until it is released. `book p` reads a log of this and refuses an entry that does not fit.

What a log that was not refused says is in the four laws at the end: nothing is lost or handled
twice, a line is served in order, and what was released was handled before.
-/

namespace WaitingLines

open Machine

variable {κ α : Type*}

structure Lines (κ α : Type*) where
  waiting : κ → List α
  withdrawn : List α
  inHand : List α

inductive Entry (κ α : Type*) where
  | arrived (q : κ) (a : α)
  | taken (q : κ) (a : α)
  | withdrawn (q : κ) (a : α)
  | completed (a : α)
  | released (a : α)
  deriving DecidableEq

namespace Lines

def empty : Lines κ α := ⟨fun _ => [], [], []⟩

end Lines

namespace Entry

/-- The request of an arrival, of any line. -/
def arrival : Entry κ α → Option α
  | .arrived _ a => some a
  | _ => none

/-- The request of an entry that takes it or completes it after it was withdrawn. -/
def handled : Entry κ α → Option α
  | .taken _ a => some a
  | .completed a => some a
  | _ => none

def withdrawal : Entry κ α → Option α
  | .withdrawn _ a => some a
  | _ => none

def completion : Entry κ α → Option α
  | .completed a => some a
  | _ => none

def release : Entry κ α → Option α
  | .released a => some a
  | _ => none

variable [DecidableEq κ]

def arrivalIn (q : κ) : Entry κ α → Option α
  | .arrived q' a => if q' = q then some a else none
  | _ => none

def takenFrom (q : κ) : Entry κ α → Option α
  | .taken q' a => if q' = q then some a else none
  | _ => none

def withdrawnFrom (q : κ) : Entry κ α → Option α
  | .withdrawn q' a => if q' = q then some a else none
  | _ => none

end Entry

/-- The first element that satisfies `p`, with what is left, makes up a list. -/
theorem perm_eraseP {p : α → Bool} {l : List α} {a : α} (h : l.find? p = some a) :
    l.Perm (a :: l.eraseP p) := by
  induction l with
  | nil => exact absurd h (Option.some_ne_none a).symm
  | cons b l ih =>
      cases hb : p b with
      | true =>
          rw [List.find?_cons_of_pos hb] at h
          obtain rfl := Option.some.inj h
          rw [List.eraseP_cons_of_pos hb]
      | false =>
          rw [List.find?_cons_of_neg (by rw [hb]; exact Bool.false_ne_true)] at h
          rw [List.eraseP_cons_of_neg (by rw [hb]; exact Bool.false_ne_true)]
          exact ((ih h).cons b).trans (List.Perm.swap a b _)

theorem filterMap_concat {β : Type*} (f : Entry κ α → Option β) (es : List (Entry κ α))
    (e : Entry κ α) : (es ++ [e]).filterMap f = es.filterMap f ++ (f e).toList := by
  rw [List.filterMap_append]
  cases h : f e with
  | none => simp [h]
  | some b => simp [h]

/-- Lists that are split up, and more that is split up, put together. -/
theorem perm_account {l m w x y w' : List α} (h : l.Perm (m ++ w)) (hx : (w ++ x).Perm (y ++ w')) :
    (l ++ x).Perm (m ++ y ++ w') :=
  calc l ++ x
    _ |>.Perm (m ++ w ++ x) := h.append_right x
    _ = m ++ (w ++ x) := List.append_assoc m w x
    _ |>.Perm (m ++ (y ++ w')) := hx.append_left m
    _ = m ++ y ++ w' := (List.append_assoc m y w').symm

theorem mem_handled_of_completed {es : List (Entry κ α)} {a : α}
    (h : a ∈ es.filterMap Entry.completion) :
    a ∈ es.filterMap Entry.handled := by
  obtain ⟨e, he, hb⟩ := List.mem_filterMap.mp h
  cases e with
  | completed b => exact List.mem_filterMap.mpr ⟨_, he, hb⟩
  | _ => exact absurd hb (Option.some_ne_none a).symm

section Book

variable [DecidableEq κ] (p : α → Bool)

section Log

variable {es : List (Entry κ α)} {a : α} {q : κ}

theorem mem_handled_of_taken (h : a ∈ es.filterMap (Entry.takenFrom q)) :
    a ∈ es.filterMap Entry.handled := by
  obtain ⟨e, he, hb⟩ := List.mem_filterMap.mp h
  cases e with
  | taken q' b => exact List.mem_filterMap.mpr ⟨_, he, (Option.ite_none_right_eq_some.mp hb).2⟩
  | _ => exact absurd hb (Option.some_ne_none a).symm

theorem mem_arrival_of_arrivalIn (h : a ∈ es.filterMap (Entry.arrivalIn q)) :
    a ∈ es.filterMap Entry.arrival := by
  obtain ⟨e, he, hb⟩ := List.mem_filterMap.mp h
  cases e with
  | arrived q' b => exact List.mem_filterMap.mpr ⟨_, he, (Option.ite_none_right_eq_some.mp hb).2⟩
  | _ => exact absurd hb (Option.some_ne_none a).symm

theorem mem_withdrawal_of_withdrawn (h : a ∈ es.filterMap (Entry.withdrawnFrom q)) :
    a ∈ es.filterMap Entry.withdrawal := by
  obtain ⟨e, he, hb⟩ := List.mem_filterMap.mp h
  cases e with
  | withdrawn q' b =>
      exact List.mem_filterMap.mpr ⟨_, he, (Option.ite_none_right_eq_some.mp hb).2⟩
  | _ => exact absurd hb (Option.some_ne_none a).symm

end Log

/-- What the log `es` says about the lines `d`. -/
structure Booked (es : List (Entry κ α)) (d : Lines κ α) : Prop where
  once : ∀ q, (es.filterMap (Entry.arrivalIn q)).Perm
    (es.filterMap (Entry.takenFrom q) ++ es.filterMap (Entry.withdrawnFrom q) ++ d.waiting q)
  inOrder : ∀ q, (es.filterMap (Entry.takenFrom q) ++ d.waiting q).Sublist
    (es.filterMap (Entry.arrivalIn q))
  withdrawals : (es.filterMap Entry.withdrawal).Perm
    (es.filterMap Entry.completion ++ d.withdrawn)
  releases : (es.filterMap Entry.handled).Perm (es.filterMap Entry.release ++ d.inHand)

theorem booked_empty : Booked ([] : List (Entry κ α)) Lines.empty where
  once _ := List.Perm.refl _
  inOrder _ := List.Sublist.refl _
  withdrawals := List.Perm.refl _
  releases := List.Perm.refl _

/-- The order of what was withdrawn and of what is in hand is free. -/
theorem Booked.of_perm {es : List (Entry κ α)} {d d' : Lines κ α} (h : Booked es d)
    (hwaiting : d.waiting = d'.waiting) (hwithdrawn : d.withdrawn.Perm d'.withdrawn)
    (hhand : d.inHand.Perm d'.inHand) : Booked es d' where
  once q := hwaiting ▸ h.once q
  inOrder q := hwaiting ▸ h.inOrder q
  withdrawals := h.withdrawals.trans (hwithdrawn.append_left _)
  releases := h.releases.trans (hhand.append_left _)

/-- What was released has arrived. -/
theorem Booked.arrived {es : List (Entry κ α)} {d : Lines κ α} (h : Booked es d) {a : α}
    (ha : a ∈ es.filterMap Entry.release) : a ∈ es.filterMap Entry.arrival := by
  have hhandled := h.releases.mem_iff.mpr (List.mem_append_left _ ha)
  obtain ⟨e, he, hb⟩ := List.mem_filterMap.mp hhandled
  cases e with
  | taken q b =>
      obtain rfl := Option.some.inj hb
      have htaken : b ∈ es.filterMap (Entry.takenFrom q) :=
        List.mem_filterMap.mpr ⟨_, he, if_pos rfl⟩
      refine mem_arrival_of_arrivalIn ((h.once q).mem_iff.mpr ?_)
      exact List.mem_append_left _ (List.mem_append_left _ htaken)
  | completed b =>
      obtain rfl := Option.some.inj hb
      have hcompleted : b ∈ es.filterMap Entry.completion := List.mem_filterMap.mpr ⟨_, he, rfl⟩
      have hwithdrawal := h.withdrawals.mem_iff.mpr (List.mem_append_left _ hcompleted)
      obtain ⟨e', he', hb'⟩ := List.mem_filterMap.mp hwithdrawal
      cases e' with
      | withdrawn q c =>
          obtain rfl := Option.some.inj hb'
          have hwithdrawn : c ∈ es.filterMap (Entry.withdrawnFrom q) :=
            List.mem_filterMap.mpr ⟨_, he', if_pos rfl⟩
          refine mem_arrival_of_arrivalIn ((h.once q).mem_iff.mpr ?_)
          exact List.mem_append_left _ (List.mem_append_right _ hwithdrawn)
      | _ => exact absurd hb' (Option.some_ne_none b).symm
  | _ => exact absurd hb (Option.some_ne_none a).symm

/-- When nothing waits and nothing is in hand, all that arrived was released. -/
theorem Booked.released {es : List (Entry κ α)} (h : Booked es Lines.empty) {a : α}
    (ha : a ∈ es.filterMap Entry.arrival) : a ∈ es.filterMap Entry.release := by
  have hhandled : a ∈ es.filterMap Entry.handled := by
    obtain ⟨e, he, harrival⟩ := List.mem_filterMap.mp ha
    cases e with
    | arrived q b =>
        obtain rfl := Option.some.inj harrival
        have hin : b ∈ es.filterMap (Entry.arrivalIn q) :=
          List.mem_filterMap.mpr ⟨_, he, if_pos rfl⟩
        rw [(h.once q).mem_iff, Lines.empty, List.append_nil, List.mem_append] at hin
        obtain htaken | hwithdrawn := hin
        · exact mem_handled_of_taken htaken
        · have hcompleted := h.withdrawals.mem_iff.mp (mem_withdrawal_of_withdrawn hwithdrawn)
          rw [Lines.empty, List.append_nil] at hcompleted
          exact mem_handled_of_completed hcompleted
    | _ => exact absurd harrival (Option.some_ne_none a).symm
  have hreleased := h.releases.mem_iff.mp hhandled
  rw [Lines.empty, List.append_nil] at hreleased
  exact hreleased

variable [DecidableEq α]

/-- The lines after an entry. -/
def book (d : Lines κ α) : Entry κ α → Option (Lines κ α)
  | .arrived q a =>
      some { d with waiting := Function.update d.waiting q (d.waiting q ++ [a]) }
  | .taken q a =>
      if (d.waiting q).head? = some a then
        some { d with waiting := Function.update d.waiting q (d.waiting q).tail
                      inHand := a :: d.inHand }
      else none
  | .withdrawn q a =>
      if (d.waiting q).find? p = some a then
        some { d with waiting := Function.update d.waiting q ((d.waiting q).eraseP p)
                      withdrawn := a :: d.withdrawn }
      else none
  | .completed a =>
      if a ∈ d.withdrawn then
        some { d with withdrawn := d.withdrawn.erase a, inHand := a :: d.inHand }
      else none
  | .released a =>
      if a ∈ d.inHand then some { d with inHand := d.inHand.erase a } else none

variable {p} {es : List (Entry κ α)} {d d' : Lines κ α} {e : Entry κ α}

/-- One entry, on one line: what waited and what arrived is taken, withdrawn or waits. -/
theorem line_of_book (he : book p d e = some d') (q : κ) :
    (d.waiting q ++ (e.arrivalIn q).toList).Perm
        ((e.takenFrom q).toList ++ (e.withdrawnFrom q).toList ++ d'.waiting q) ∧
      ((e.takenFrom q).toList ++ d'.waiting q).Sublist
        (d.waiting q ++ (e.arrivalIn q).toList) := by
  cases e with
  | arrived q' a =>
      obtain rfl := Option.some.inj he
      by_cases hq : q' = q
      · subst hq
        simp [Entry.arrivalIn, Entry.takenFrom, Entry.withdrawnFrom]
      · simp [Entry.arrivalIn, Entry.takenFrom, Entry.withdrawnFrom, hq, Ne.symm hq]
  | taken q' a =>
      obtain ⟨hhead, hd⟩ := Option.ite_none_right_eq_some.mp he
      obtain rfl := Option.some.inj hd
      by_cases hq : q' = q
      · subst hq
        obtain ⟨rest, hrest⟩ := List.head?_eq_some_iff.mp hhead
        simp [Entry.arrivalIn, Entry.takenFrom, Entry.withdrawnFrom, hrest]
      · simp [Entry.arrivalIn, Entry.takenFrom, Entry.withdrawnFrom, hq, Ne.symm hq]
  | withdrawn q' a =>
      obtain ⟨hfind, hd⟩ := Option.ite_none_right_eq_some.mp he
      obtain rfl := Option.some.inj hd
      by_cases hq : q' = q
      · subst hq
        simpa [Entry.arrivalIn, Entry.takenFrom, Entry.withdrawnFrom] using
          And.intro (perm_eraseP hfind) List.eraseP_sublist
      · simp [Entry.arrivalIn, Entry.takenFrom, Entry.withdrawnFrom, hq, Ne.symm hq]
  | completed a =>
      obtain ⟨-, hd⟩ := Option.ite_none_right_eq_some.mp he
      obtain rfl := Option.some.inj hd
      simp [Entry.arrivalIn, Entry.takenFrom, Entry.withdrawnFrom]
  | released a =>
      obtain ⟨-, hd⟩ := Option.ite_none_right_eq_some.mp he
      obtain rfl := Option.some.inj hd
      simp [Entry.arrivalIn, Entry.takenFrom, Entry.withdrawnFrom]

/-- One entry, on the requests that were withdrawn and on those in hand. -/
theorem held_of_book (he : book p d e = some d') :
    (d.withdrawn ++ e.withdrawal.toList).Perm (e.completion.toList ++ d'.withdrawn) ∧
      (d.inHand ++ e.handled.toList).Perm (e.release.toList ++ d'.inHand) := by
  cases e with
  | arrived q a =>
      obtain rfl := Option.some.inj he
      simp [Entry.withdrawal, Entry.completion, Entry.handled, Entry.release]
  | taken q a =>
      obtain ⟨-, hd⟩ := Option.ite_none_right_eq_some.mp he
      obtain rfl := Option.some.inj hd
      simp [Entry.withdrawal, Entry.completion, Entry.handled, Entry.release]
  | withdrawn q a =>
      obtain ⟨-, hd⟩ := Option.ite_none_right_eq_some.mp he
      obtain rfl := Option.some.inj hd
      simp [Entry.withdrawal, Entry.completion, Entry.handled, Entry.release]
  | completed a =>
      obtain ⟨hmem, hd⟩ := Option.ite_none_right_eq_some.mp he
      obtain rfl := Option.some.inj hd
      simpa [Entry.withdrawal, Entry.completion, Entry.handled, Entry.release] using
        List.perm_cons_erase hmem
  | released a =>
      obtain ⟨hmem, hd⟩ := Option.ite_none_right_eq_some.mp he
      obtain rfl := Option.some.inj hd
      simpa [Entry.withdrawal, Entry.completion, Entry.handled, Entry.release] using
        List.perm_cons_erase hmem

/-- An entry that is not refused keeps the laws. -/
theorem Booked.book (h : Booked es d) (he : book p d e = some d') : Booked (es ++ [e]) d' where
  once q := by
    rw [filterMap_concat, filterMap_concat, filterMap_concat]
    have hline := perm_account (h.once q) (line_of_book he q).1
    rw [List.perm_iff_count] at hline ⊢
    intro b
    have hb := hline b
    simp only [List.count_append] at hb ⊢
    omega
  inOrder q := by
    rw [filterMap_concat, filterMap_concat, List.append_assoc]
    calc es.filterMap (Entry.takenFrom q) ++ ((e.takenFrom q).toList ++ d'.waiting q)
      _ |>.Sublist (es.filterMap (Entry.takenFrom q) ++ (d.waiting q ++ (e.arrivalIn q).toList)) :=
          (line_of_book he q).2.append_left _
      _ = es.filterMap (Entry.takenFrom q) ++ d.waiting q ++ (e.arrivalIn q).toList :=
          (List.append_assoc _ _ _).symm
      _ |>.Sublist (es.filterMap (Entry.arrivalIn q) ++ (e.arrivalIn q).toList) :=
          (h.inOrder q).append_right _
  withdrawals := by
    rw [filterMap_concat, filterMap_concat]
    exact perm_account h.withdrawals (held_of_book he).1
  releases := by
    rw [filterMap_concat, filterMap_concat]
    exact perm_account h.releases (held_of_book he).2

/-- A log that is not refused keeps the laws. -/
theorem Booked.watch {es' : List (Entry κ α)} (h : Booked es d)
    (hes : watch (WaitingLines.book p) d es' = some d') : Booked (es ++ es') d' := by
  induction es' generalizing es d with
  | nil =>
      obtain rfl := Option.some.inj hes
      rw [List.append_nil]
      exact h
  | cons e es' ih =>
      obtain ⟨d₁, hd₁, hrest⟩ := Option.bind_eq_some_iff.mp hes
      have hlaws := ih (h.book hd₁) hrest
      rw [List.append_assoc] at hlaws
      exact hlaws

end Book

end WaitingLines
