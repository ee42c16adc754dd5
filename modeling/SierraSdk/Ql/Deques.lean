import SierraSdk.Library.Machine
import SierraSdk.Ql.Link

/-!
# Queues as deques

Many queues share one memory, each with a head of its own. For their users a queue is a list of
links (`Deques`): a link is added in front of or behind any other one, of the head the first and
the last of the list, and a link is taken out wherever it is.

`qlruns_deques` says that this is what the operations do, over any run of calls by the rules
(`Proper`): a link is added only while it is in no queue, and a head is never taken out. The pointers
lead through the lists forward and back, and every call returns the user data of the link that the
list has in that place.
-/

namespace SierraSdk

namespace Ql

open DoublyLinked (follower leader insertAhead)

variable {H A U : Type}

namespace QlMemory

variable [DecidableEq A] (mem : QlMemory A U)

/-- `qladdnext` -/
def qladdnext (curlinkp newlinkp : A) : QlMemory A U :=
  let mem := setNext mem newlinkp (mem curlinkp).qlnextp
  let mem := setPrev mem newlinkp curlinkp
  let mem := setPrev mem (mem newlinkp).qlnextp newlinkp
  setNext mem curlinkp newlinkp

omit [DecidableEq A] in
/-- `qlgetprev` -/
def qlgetprev (curlinkp : A) : U := (mem (mem curlinkp).qlprevp).qluserp

/-- `qlremprev` -/
def qlremprev (curlinkp : A) : U × QlMemory A U :=
  let remlinkp := (mem curlinkp).qlprevp
  let mem := setPrev mem curlinkp (mem remlinkp).qlprevp
  let mem := setNext mem (mem remlinkp).qlprevp curlinkp
  ((mem remlinkp).qluserp, mem)

end QlMemory

/-- The calls of the package, with the queue that the current link is in. -/
inductive QlCall (H A U : Type) where
  | qlinitlnk (linkp : A) (userp : U)
  | qladdnext (h : H) (curlinkp newlinkp : A)
  | qladdprev (h : H) (curlinkp newlinkp : A)
  | qlgetnext (h : H) (curlinkp : A)
  | qlgetprev (h : H) (curlinkp : A)
  | qlremnext (h : H) (curlinkp : A)
  | qlremprev (h : H) (curlinkp : A)
  | qlremcur (h : H) (curlinkp : A)

/-- The memory after a call, and the user data that it returns. -/
def qlcall [DecidableEq A] (mem : QlMemory A U) : QlCall H A U → QlMemory A U × List U
  | .qlinitlnk linkp userp => (mem.qlinitlnk linkp userp, [])
  | .qladdnext _ cur new => (mem.qladdnext cur new, [])
  | .qladdprev _ cur new => (mem.qladdprev cur new, [])
  | .qlgetnext _ cur => (mem, [mem.qlgetnext cur])
  | .qlgetprev _ cur => (mem, [mem.qlgetprev cur])
  | .qlremnext _ cur => ((mem.qlremnext cur).2, [(mem.qlremnext cur).1])
  | .qlremprev _ cur => ((mem.qlremprev cur).2, [(mem.qlremprev cur).1])
  | .qlremcur _ cur => ((mem.qlremcur cur).2, [(mem.qlremcur cur).1])

/-! ### Lists of links -/

/-- The links behind the head of each queue, and the user data of the links. -/
structure Deques (H A U : Type) where
  queue : H → List A
  user : A → U

namespace Deques

variable [DecidableEq H] [DecidableEq A] (head : H → A) (d : Deques H A U)

def set (h : H) (links : List A) : Deques H A U :=
  { d with queue := Function.update d.queue h links }

omit [DecidableEq H] in
/-- The links behind and in front of a link of a queue; the head is both the first and the last. -/
def next (h : H) (cur : A) : A := follower (head h) (head h) (d.queue h) cur

omit [DecidableEq H] in
def prev (h : H) (cur : A) : A := leader (head h) (d.queue h) cur

/-- What a call is meant to do. -/
def call : QlCall H A U → Deques H A U × List U
  | .qlinitlnk linkp userp => ({ d with user := Function.update d.user linkp userp }, [])
  | .qladdnext h cur new => (d.set h (insertAhead (d.next head h cur) new (d.queue h)), [])
  | .qladdprev h cur new => (d.set h (insertAhead cur new (d.queue h)), [])
  | .qlgetnext h cur => (d, [d.user (d.next head h cur)])
  | .qlgetprev h cur => (d, [d.user (d.prev head h cur)])
  | .qlremnext h cur =>
      (d.set h ((d.queue h).erase (d.next head h cur)), [d.user (d.next head h cur)])
  | .qlremprev h cur =>
      (d.set h ((d.queue h).erase (d.prev head h cur)), [d.user (d.prev head h cur)])
  | .qlremcur h cur => (d.set h ((d.queue h).erase cur), [d.user cur])

omit [DecidableEq H] [DecidableEq A] in
/-- The link is in no queue. -/
def Free (linkp : A) : Prop := ∀ h, linkp ∉ head h :: d.queue h

/-- The rules for the users: the head of a queue may be addressed for its removal while the queue is
empty, and it stays. -/
def Proper : QlCall H A U → Prop
  | .qlinitlnk linkp _ => d.Free head linkp
  | .qladdnext h cur new => cur ∈ head h :: d.queue h ∧ d.Free head new
  | .qladdprev h cur new => cur ∈ head h :: d.queue h ∧ d.Free head new
  | .qlgetnext h cur => cur ∈ head h :: d.queue h
  | .qlgetprev h cur => cur ∈ head h :: d.queue h
  | .qlremnext h cur =>
      cur ∈ head h :: d.queue h ∧ (d.next head h cur ∈ d.queue h ∨ d.queue h = [])
  | .qlremprev h cur =>
      cur ∈ head h :: d.queue h ∧ (d.prev head h cur ∈ d.queue h ∨ d.queue h = [])
  | .qlremcur h cur => cur ∈ d.queue h

end Deques

/-- The memory holds the queues: the pointers lead through their links, which no two queues
share. -/
structure Holds (head : H → A) (mem : QlMemory A U) (d : Deques H A U) : Prop where
  linked : ∀ h, Linked mem (head h) (d.queue h)
  apart : ∀ i j, i ≠ j → List.Disjoint (head i :: d.queue i) (head j :: d.queue j)
  user : ∀ a, (mem a).qluserp = d.user a

section Pointers

variable [DecidableEq A] (mem : QlMemory A U) (cur new a : A)

@[simp] theorem qladdnext_qluserp : (mem.qladdnext cur new a).qluserp = (mem a).qluserp := by
  simp [QlMemory.qladdnext]

@[simp] theorem qlremprev_qluserp : ((mem.qlremprev cur).2 a).qluserp = (mem a).qluserp := by
  simp [QlMemory.qlremprev]

theorem qladdnext_eq :
    mem.qladdnext cur new =
      (((mem.setNext new (mem.next cur)).setPrev new cur).setPrev (mem.next cur) new).setNext
        cur new := by
  have hnext : ((mem.setNext new (mem.next cur)).setPrev new cur).next new = mem.next cur := by
    simp
  exact congrArg (fun q => QlMemory.setNext (QlMemory.setPrev _ q new) cur new) hnext

theorem qlremprev_eq :
    (mem.qlremprev cur).2 =
      (mem.setPrev cur (mem.prev (mem.prev cur))).setNext (mem.prev (mem.prev cur)) cur := by
  have hprev : (mem.setPrev cur (mem.prev (mem.prev cur))).prev (mem.prev cur) =
      mem.prev (mem.prev cur) := by
    rw [prev_setPrev]
    by_cases heq : mem.prev cur = cur
    · rw [heq, Function.update_self, heq]
    · rw [Function.update_of_ne heq]
  exact congrArg (fun q => QlMemory.setNext _ q cur) hprev

omit [DecidableEq A] in
theorem qlgetnext_eq : mem.qlgetnext cur = (mem (mem.next cur)).qluserp := rfl

omit [DecidableEq A] in
theorem qlgetprev_eq : mem.qlgetprev cur = (mem (mem.prev cur)).qluserp := rfl

theorem qlremnext_user : (mem.qlremnext cur).1 = (mem (mem.next cur)).qluserp := by
  simp [QlMemory.qlremnext, QlMemory.next]

theorem qlremprev_user : (mem.qlremprev cur).1 = (mem (mem.prev cur)).qluserp := by
  simp [QlMemory.qlremprev, QlMemory.prev]

theorem qlremcur_user : (mem.qlremcur cur).1 = (mem cur).qluserp := by
  simp [QlMemory.qlremcur]

end Pointers

section Lists

variable {mem : QlMemory A U} {head cur new x : A} {xs : List A}

variable [DecidableEq A]

theorem Linked.next_eq_follower (h : Linked mem head xs) (hcur : cur ∈ head :: xs) :
    mem.next cur = follower head head xs cur := h.2.next_eq hcur

theorem Linked.prev_eq_leader (h : Linked mem head xs) (hcur : cur ∈ head :: xs) :
    mem.prev cur = leader head xs cur := h.2.prev_eq hcur

/-- A link is added in front of another one. -/
theorem Linked.addprev (h : Linked mem head xs) (hcur : cur ∈ head :: xs)
    (hnew : new ∉ head :: xs) :
    Linked (mem.qladdprev cur new) head (insertAhead cur new xs) := by
  have hring := DoublyLinked.Ring.insert h hcur hnew
  rw [Linked, qladdprev_eq]
  simpa using hring

/-- A link is added behind another one. -/
theorem Linked.addnext (h : Linked mem head xs) (hcur : cur ∈ head :: xs)
    (hnew : new ∉ head :: xs) :
    Linked (mem.qladdnext cur new) head (insertAhead (mem.next cur) new xs) := by
  obtain ⟨hback, hmem⟩ := h.2.prev_next hcur
  have hring := DoublyLinked.Ring.insert h hmem hnew
  rw [show mem.prev (mem.next cur) = cur from hback] at hring
  rw [Linked, qladdnext_eq]
  simpa using hring

/-- A link is taken out. -/
theorem Linked.remcur (h : Linked mem head xs) (hx : x ∈ xs) :
    Linked (mem.qlremcur x).2 head (xs.erase x) := by
  have hring := DoublyLinked.Ring.erase h hx
  rw [Linked, qlremcur_eq]
  simpa using hring

theorem Linked.remnext (h : Linked mem head xs) (hcur : cur ∈ head :: xs)
    (hnext : mem.next cur ∈ xs ∨ xs = []) :
    Linked (mem.qlremnext cur).2 head (xs.erase (mem.next cur)) := by
  rcases hnext with hnext | rfl
  · have hback : mem.prev (mem.next cur) = cur := (h.2.prev_next hcur).1
    have hring := DoublyLinked.Ring.erase h hnext
    rw [hback] at hring
    rw [Linked, qlremnext_eq]
    simpa using hring
  · obtain rfl := List.mem_singleton.mp hcur
    exact h.qlremnext.2

theorem Linked.remprev (h : Linked mem head xs) (hcur : cur ∈ head :: xs)
    (hprev : mem.prev cur ∈ xs ∨ xs = []) :
    Linked (mem.qlremprev cur).2 head (xs.erase (mem.prev cur)) := by
  rw [Linked, qlremprev_eq]
  rcases hprev with hprev | rfl
  · have hforth : mem.next (mem.prev cur) = cur := (h.2.next_prev hcur).1
    have hring := DoublyLinked.Ring.erase h hprev
    rw [hforth] at hring
    simpa using hring
  · obtain rfl := List.mem_singleton.mp hcur
    have hself : mem.prev (mem.prev cur) = cur := by rw [h.2.2, h.2.2]
    rw [hself]
    refine DoublyLinked.ring_nil_iff.mpr ⟨?_, ?_⟩
    · rw [next_setNext, Function.update_self]
    · rw [prev_setNext, prev_setPrev, Function.update_self]

end Lists

section Refinement

variable {head : H → A} {mem mem' : QlMemory A U} {d : Deques H A U} {i : H} {cur new a : A}

theorem Holds.notMem_of_ne (h : Holds head mem d) {j : H} (hne : j ≠ i)
    (ha : a ∈ head j :: d.queue j) : a ∉ head i :: d.queue i := fun hmem =>
  h.apart j i hne ha hmem

variable [DecidableEq H]

/-- One queue is changed, by links that are in no other one. -/
theorem Holds.replace (h : Holds head mem d) {links : List A}
    (hlinked : Linked mem' (head i) links)
    (hlinks : ∀ a ∈ links, a ∈ d.queue i ∨ d.Free head a)
    (hother : ∀ a, a ∉ head i :: d.queue i → ¬ d.Free head a →
      mem'.next a = mem.next a ∧ mem'.prev a = mem.prev a)
    (huser : ∀ a, (mem' a).qluserp = (mem a).qluserp) : Holds head mem' (d.set i links) := by
  have hset (j : H) (hne : j ≠ i) : (d.set i links).queue j = d.queue j :=
    Function.update_of_ne hne ..
  have hself : (d.set i links).queue i = links := Function.update_self ..
  have hlinked' (j : H) (hne : j ≠ i) : Linked mem' (head j) (d.queue j) := by
    have hsame (a : A) (ha : a ∈ head j :: d.queue j) :=
      hother a (h.notMem_of_ne hne ha) fun hfree => hfree j ha
    exact DoublyLinked.Ring.congr (h.linked j) (fun a ha => (hsame a ha).1) fun a ha =>
      (hsame a ha).2
  have hapart (j : H) (hne : j ≠ i) :
      List.Disjoint (head i :: links) (head j :: d.queue j) := by
    intro a ha ha'
    rcases List.mem_cons.mp ha with rfl | hmem
    · exact h.notMem_of_ne hne ha' (List.mem_cons_self ..)
    · rcases hlinks a hmem with hmem | hfree
      · exact h.notMem_of_ne hne ha' (List.mem_cons_of_mem _ hmem)
      · exact hfree j ha'
  refine ⟨fun j => ?_, fun j k hjk => ?_, fun a => (huser a).trans (h.user a)⟩
  · by_cases hj : j = i
    · rw [hj, hself]
      exact hlinked
    · rw [hset j hj]
      exact hlinked' j hj
  · by_cases hj : j = i
    · subst hj
      rw [hself, hset k hjk.symm]
      exact hapart k hjk.symm
    · rw [hset j hj]
      by_cases hk : k = i
      · subst hk
        rw [hself]
        exact fun a ha ha' => hapart j hj ha' ha
      · rw [hset k hk]
        exact h.apart j k hjk

variable [DecidableEq A]

omit [DecidableEq H] in
theorem Holds.next_eq (h : Holds head mem d) (hcur : cur ∈ head i :: d.queue i) :
    mem.next cur = d.next head i cur := (h.linked i).next_eq_follower hcur

omit [DecidableEq H] in
theorem Holds.prev_eq (h : Holds head mem d) (hcur : cur ∈ head i :: d.queue i) :
    mem.prev cur = d.prev head i cur := (h.linked i).prev_eq_leader hcur

omit [DecidableEq H] in
/-- Two pointers are changed: those of the other links are not. -/
theorem update_other {f : A → A} {p q x y : A} (hx : a ≠ x) (hy : a ≠ y) :
    Function.update (Function.update f x p) y q a = f a := by
  rw [Function.update_of_ne hy, Function.update_of_ne hx]

/-- A link is added in front of another one. -/
theorem Holds.qladdprev (h : Holds head mem d) (hcur : cur ∈ head i :: d.queue i)
    (hnew : d.Free head new) :
    Holds head (mem.qladdprev cur new) (d.set i (insertAhead cur new (d.queue i))) := by
  refine h.replace ((h.linked i).addprev hcur (hnew i)) (fun a ha => ?_) (fun a ha hfree => ?_)
    (by simp)
  · rcases DoublyLinked.mem_insertAhead.mp ha with rfl | hmem
    · exact .inr hnew
    · exact .inl hmem
  · have hprev := ((h.linked i).2.next_prev hcur).2
    have hne : a ≠ new := fun heq => hfree (heq ▸ hnew)
    rw [qladdprev_eq]
    simp only [next_setPrev, next_setNext, prev_setPrev, prev_setNext]
    exact ⟨update_other hne (ne_of_mem_of_not_mem hprev ha).symm,
      update_other hne (ne_of_mem_of_not_mem hcur ha).symm⟩

/-- A link is added behind another one. -/
theorem Holds.qladdnext (h : Holds head mem d) (hcur : cur ∈ head i :: d.queue i)
    (hnew : d.Free head new) :
    Holds head (mem.qladdnext cur new)
      (d.set i (insertAhead (d.next head i cur) new (d.queue i))) := by
  rw [← h.next_eq hcur]
  refine h.replace ((h.linked i).addnext hcur (hnew i)) (fun a ha => ?_) (fun a ha hfree => ?_)
    (by simp)
  · rcases DoublyLinked.mem_insertAhead.mp ha with rfl | hmem
    · exact .inr hnew
    · exact .inl hmem
  · have hnext := ((h.linked i).2.prev_next hcur).2
    have hne : a ≠ new := fun heq => hfree (heq ▸ hnew)
    rw [qladdnext_eq]
    simp only [next_setPrev, next_setNext, prev_setPrev, prev_setNext]
    exact ⟨update_other hne (ne_of_mem_of_not_mem hcur ha).symm,
      update_other hne (ne_of_mem_of_not_mem hnext ha).symm⟩

/-- A link is taken out. -/
theorem Holds.qlremcur (h : Holds head mem d) (hcur : cur ∈ d.queue i) :
    Holds head (mem.qlremcur cur).2 (d.set i ((d.queue i).erase cur)) := by
  have hmem : cur ∈ head i :: d.queue i := List.mem_cons_of_mem _ hcur
  refine h.replace ((h.linked i).remcur hcur) (fun a ha => .inl (List.mem_of_mem_erase ha))
    (fun a ha _ => ?_) (by simp)
  have hnext := ((h.linked i).2.prev_next hmem).2
  have hprev := ((h.linked i).2.next_prev hmem).2
  rw [qlremcur_eq, next_setPrev, next_setNext, prev_setPrev, prev_setNext]
  exact ⟨Function.update_of_ne (ne_of_mem_of_not_mem hprev ha).symm ..,
    Function.update_of_ne (ne_of_mem_of_not_mem hnext ha).symm ..⟩

/-- The link behind another one is taken out. -/
theorem Holds.qlremnext (h : Holds head mem d) (hcur : cur ∈ head i :: d.queue i)
    (hnext : d.next head i cur ∈ d.queue i ∨ d.queue i = []) :
    Holds head (mem.qlremnext cur).2 (d.set i ((d.queue i).erase (d.next head i cur))) := by
  rw [← h.next_eq hcur] at hnext ⊢
  refine h.replace ((h.linked i).remnext hcur hnext) (fun a ha => .inl (List.mem_of_mem_erase ha))
    (fun a ha _ => ?_) (by simp)
  have hfirst := ((h.linked i).2.prev_next hcur).2
  have hsecond := ((h.linked i).2.prev_next hfirst).2
  rw [qlremnext_eq, next_setPrev, next_setNext, prev_setPrev, prev_setNext]
  exact ⟨Function.update_of_ne (ne_of_mem_of_not_mem hcur ha).symm ..,
    Function.update_of_ne (ne_of_mem_of_not_mem hsecond ha).symm ..⟩

/-- The link in front of another one is taken out. -/
theorem Holds.qlremprev (h : Holds head mem d) (hcur : cur ∈ head i :: d.queue i)
    (hprev : d.prev head i cur ∈ d.queue i ∨ d.queue i = []) :
    Holds head (mem.qlremprev cur).2 (d.set i ((d.queue i).erase (d.prev head i cur))) := by
  rw [← h.prev_eq hcur] at hprev ⊢
  refine h.replace ((h.linked i).remprev hcur hprev) (fun a ha => .inl (List.mem_of_mem_erase ha))
    (fun a ha _ => ?_) (by simp)
  have hfirst := ((h.linked i).2.next_prev hcur).2
  have hsecond := ((h.linked i).2.next_prev hfirst).2
  rw [qlremprev_eq, next_setNext, next_setPrev, prev_setNext, prev_setPrev]
  exact ⟨Function.update_of_ne (ne_of_mem_of_not_mem hsecond ha).symm ..,
    Function.update_of_ne (ne_of_mem_of_not_mem hcur ha).symm ..⟩

omit [DecidableEq H] in
/-- A link that is in no queue is initialised. -/
theorem Holds.qlinitlnk (h : Holds head mem d) (hfree : d.Free head a) (userp : U) :
    Holds head (mem.qlinitlnk a userp) { d with user := Function.update d.user a userp } := by
  refine ⟨fun j => (h.linked j).congr fun b hb => ?_, h.apart, fun b => ?_⟩
  · exact Function.update_of_ne (ne_of_mem_of_not_mem hb (hfree j)) ..
  · by_cases hb : b = a
    · subst hb
      simp [QlMemory.qlinitlnk]
    · simp [QlMemory.qlinitlnk, hb, h.user b]

/-- A call by the rules does what it is meant to do. -/
theorem Holds.call (h : Holds head mem d) {c : QlCall H A U} (hproper : d.Proper head c) :
    Holds head (qlcall mem c).1 (d.call head c).1 ∧ (qlcall mem c).2 = (d.call head c).2 := by
  cases c with
  | qlinitlnk linkp userp => exact ⟨h.qlinitlnk hproper userp, rfl⟩
  | qladdnext i cur new => exact ⟨h.qladdnext hproper.1 hproper.2, rfl⟩
  | qladdprev i cur new => exact ⟨h.qladdprev hproper.1 hproper.2, rfl⟩
  | qlgetnext i cur =>
      refine ⟨h, congrArg (fun u => [u]) ?_⟩
      rw [qlgetnext_eq, h.user, h.next_eq hproper]
  | qlgetprev i cur =>
      refine ⟨h, congrArg (fun u => [u]) ?_⟩
      rw [qlgetprev_eq, h.user, h.prev_eq hproper]
  | qlremnext i cur =>
      refine ⟨h.qlremnext hproper.1 hproper.2, congrArg (fun u => [u]) ?_⟩
      rw [qlremnext_user, h.user, h.next_eq hproper.1]
  | qlremprev i cur =>
      refine ⟨h.qlremprev hproper.1 hproper.2, congrArg (fun u => [u]) ?_⟩
      rw [qlremprev_user, h.user, h.prev_eq hproper.1]
  | qlremcur i cur =>
      refine ⟨h.qlremcur hproper, congrArg (fun u => [u]) ?_⟩
      rw [qlremcur_user, h.user]

/-- Over any run of calls by the rules the queues are the lists that the calls are meant to make, and
the calls return what these lists have in the place of the link. -/
theorem qlruns_deques (h : Holds head mem d) {calls : List (QlCall H A U)}
    (hproper : Machine.Meets (Deques.call head) (Deques.Proper head) d calls) :
    Holds head (Machine.after qlcall mem calls) (Machine.after (Deques.call head) d calls) ∧
      Machine.outputs qlcall mem calls = Machine.outputs (Deques.call head) d calls := by
  have hstep (d : Deques H A U) (mem : QlMemory A U) (c : QlCall H A U)
      (h : Holds head mem d) (hproper : d.Proper head c) :
      Holds head (qlcall mem c).1 (d.call head c).1 ∧ (d.call head c).2 = (qlcall mem c).2 :=
    ⟨(h.call hproper).1, (h.call hproper).2.symm⟩
  obtain ⟨hholds, hout⟩ :=
    Machine.simulation (R := fun d mem => Holds head mem d) hstep h hproper
  exact ⟨hholds, hout.symm⟩

omit [DecidableEq H] [DecidableEq A] in
/-- The heads have been initialised. -/
theorem holds_start (hhead : Function.Injective head) (hself : ∀ j, Linked mem (head j) []) :
    Holds head mem ⟨fun _ => [], fun a => (mem a).qluserp⟩ where
  linked := hself
  apart i j hne a ha ha' := by
    have hi := List.mem_singleton.mp ha
    have hj := List.mem_singleton.mp ha'
    exact hne (hhead (hi.symm.trans hj))
  user _ := rfl

end Refinement

/-- Two queues, with heads `0` and `1`. -/
def twoHeads : Bool → ℕ
  | false => 0
  | true => 1

/-- Links that point to themselves and stand for themselves. -/
def selfLinked : QlMemory ℕ ℕ := fun a => ⟨a, a, a⟩

def twoQueueCalls : List (QlCall Bool ℕ ℕ) :=
  [.qladdprev false 0 5, .qladdnext false 0 6, .qladdnext false 6 7, .qladdprev true 1 8,
    .qlremprev false 0, .qlgetnext false 6, .qlremcur false 7, .qlremnext true 1]

theorem qlruns_deques_twoQueues :
    Machine.outputs qlcall selfLinked twoQueueCalls = [5, 7, 7, 8] ∧
      Linked (Machine.after qlcall selfLinked twoQueueCalls) 0 [6] := by
  have hself (j : Bool) : Linked selfLinked (twoHeads j) [] :=
    DoublyLinked.ring_nil_iff.mpr ⟨rfl, rfl⟩
  have hfree (n : ℕ) (q : Bool → List ℕ) (u : ℕ → ℕ) (h₀ : n ∉ 0 :: q false)
      (h₁ : n ∉ 1 :: q true) : Deques.Free twoHeads ⟨q, u⟩ n
    | false => h₀
    | true => h₁
  have hhead : Function.Injective twoHeads := by
    intro i j h
    cases i <;> cases j <;> first | rfl | exact absurd h (by decide)
  have hproper : Machine.Meets (Deques.call twoHeads) (Deques.Proper twoHeads)
      ⟨fun _ => [], fun a => (selfLinked a).qluserp⟩ twoQueueCalls :=
    ⟨⟨by decide, hfree _ _ _ (by decide) (by decide)⟩,
      ⟨by decide, hfree _ _ _ (by decide) (by decide)⟩,
      ⟨by decide, hfree _ _ _ (by decide) (by decide)⟩,
      ⟨by decide, hfree _ _ _ (by decide) (by decide)⟩, ⟨by decide, .inl (by decide)⟩,
      show 6 ∈ [0, 6, 7] by decide, show 7 ∈ [6, 7] by decide,
      ⟨by decide, .inl (by decide)⟩, trivial⟩
  obtain ⟨hholds, hout⟩ := qlruns_deques (holds_start hhead hself) hproper
  exact ⟨hout, hholds.linked false⟩

end Ql

end SierraSdk
