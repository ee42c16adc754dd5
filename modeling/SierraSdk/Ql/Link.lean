import SierraSdk.Library.DoublyLinked

/-!
# Queue links

The `ql` package: doubly linked queues of links that their users embed in their own data. A link
points to the next link, to the one before, and to the data it belongs to. The links are looked
up by address, for any type of addresses.

The operations are those of a list with a head: `qladdprev` at the head adds at the end
(`Linked.qladdprev`), `qlremnext` of the head takes the first link (`Linked.qlremnext`), and
`qlremcur` takes a link out of the middle (`Linked.qlremcur`).
-/

namespace SierraSdk

namespace Ql

variable {A U : Type}

/-- `struct qllink` -/
structure QlLink (A U : Type) where
  qlnextp : A
  qlprevp : A
  qluserp : U

/-- The links by address. -/
abbrev QlMemory (A U : Type) := A → QlLink A U

namespace QlMemory

variable [DecidableEq A] (mem : QlMemory A U)

/-- `linkp->qlnextp = nextp` -/
def setNext (linkp nextp : A) : QlMemory A U :=
  Function.update mem linkp { mem linkp with qlnextp := nextp }

/-- `linkp->qlprevp = prevp` -/
def setPrev (linkp prevp : A) : QlMemory A U :=
  Function.update mem linkp { mem linkp with qlprevp := prevp }

/-- `qlinitlnk` -/
def qlinitlnk (linkp : A) (userp : U) : QlMemory A U :=
  Function.update mem linkp ⟨linkp, linkp, userp⟩

/-- `qladdprev` -/
def qladdprev (curlinkp newlinkp : A) : QlMemory A U :=
  let mem := setPrev mem newlinkp (mem curlinkp).qlprevp
  let mem := setNext mem newlinkp curlinkp
  let mem := setNext mem (mem newlinkp).qlprevp newlinkp
  setPrev mem curlinkp newlinkp

omit [DecidableEq A] in
/-- `qlgetnext` -/
def qlgetnext (curlinkp : A) : U := (mem (mem curlinkp).qlnextp).qluserp

/-- `qlremnext` -/
def qlremnext (curlinkp : A) : U × QlMemory A U :=
  let remlinkp := (mem curlinkp).qlnextp
  let mem := setNext mem curlinkp (mem remlinkp).qlnextp
  let mem := setPrev mem (mem remlinkp).qlnextp curlinkp
  ((mem remlinkp).qluserp, mem)

/-- `qlremcur` -/
def qlremcur (curlinkp : A) : U × QlMemory A U :=
  let nextlinkp := (mem curlinkp).qlnextp
  let mem := setNext mem (mem curlinkp).qlprevp nextlinkp
  let mem := setPrev mem nextlinkp (mem curlinkp).qlprevp
  ((mem curlinkp).qluserp, mem)

omit [DecidableEq A] in
/-- The next links. -/
def next (linkp : A) : A := (mem linkp).qlnextp

omit [DecidableEq A] in
/-- The links before. -/
def prev (linkp : A) : A := (mem linkp).qlprevp

end QlMemory

/-- The links behind the head of a queue. -/
def Linked (mem : QlMemory A U) (head : A) (xs : List A) : Prop :=
  DoublyLinked.Ring mem.next mem.prev head xs

section Fields

variable [DecidableEq A] (mem : QlMemory A U) (linkp p a : A)

@[simp] theorem next_setNext :
    (mem.setNext linkp p).next = Function.update mem.next linkp p := by
  funext a
  by_cases h : a = linkp <;> simp [QlMemory.next, QlMemory.setNext, h]

@[simp] theorem prev_setNext : (mem.setNext linkp p).prev = mem.prev := by
  funext a
  by_cases h : a = linkp <;> simp [QlMemory.prev, QlMemory.setNext, h]

@[simp] theorem next_setPrev : (mem.setPrev linkp p).next = mem.next := by
  funext a
  by_cases h : a = linkp <;> simp [QlMemory.next, QlMemory.setPrev, h]

@[simp] theorem prev_setPrev :
    (mem.setPrev linkp p).prev = Function.update mem.prev linkp p := by
  funext a
  by_cases h : a = linkp <;> simp [QlMemory.prev, QlMemory.setPrev, h]

@[simp] theorem setNext_qluserp : (mem.setNext linkp p a).qluserp = (mem a).qluserp := by
  by_cases h : a = linkp <;> simp [QlMemory.setNext, h]

@[simp] theorem setPrev_qluserp : (mem.setPrev linkp p a).qluserp = (mem a).qluserp := by
  by_cases h : a = linkp <;> simp [QlMemory.setPrev, h]

@[simp] theorem qladdprev_qluserp : (mem.qladdprev linkp p a).qluserp = (mem a).qluserp := by
  simp [QlMemory.qladdprev]

@[simp] theorem qlremnext_qluserp :
    ((mem.qlremnext linkp).2 a).qluserp = (mem a).qluserp := by
  simp [QlMemory.qlremnext]

@[simp] theorem qlremcur_qluserp :
    ((mem.qlremcur linkp).2 a).qluserp = (mem a).qluserp := by
  simp [QlMemory.qlremcur]

theorem qlremcur_eq :
    (mem.qlremcur linkp).2 =
      (mem.setNext (mem.prev linkp) (mem.next linkp)).setPrev (mem.next linkp)
        (mem.prev linkp) := by
  have hprev := congrFun (prev_setNext mem (mem.prev linkp) (mem.next linkp)) linkp
  exact congrArg (QlMemory.setPrev _ (mem.next linkp)) hprev

theorem qladdprev_eq :
    mem.qladdprev linkp p =
      (((mem.setPrev p (mem.prev linkp)).setNext p linkp).setNext (mem.prev linkp) p).setPrev
        linkp p := by
  have hprev : ((mem.setPrev p (mem.prev linkp)).setNext p linkp).prev p = mem.prev linkp := by
    simp
  exact congrArg (fun q => QlMemory.setPrev (QlMemory.setNext _ q p) linkp p) hprev

theorem qlremnext_eq :
    (mem.qlremnext linkp).2 =
      (mem.setNext linkp (mem.next (mem.next linkp))).setPrev (mem.next (mem.next linkp))
        linkp := by
  have hnext : (mem.setNext linkp (mem.next (mem.next linkp))).next (mem.next linkp) =
      mem.next (mem.next linkp) := by
    rw [next_setNext]
    by_cases heq : mem.next linkp = linkp
    · rw [heq, Function.update_self, heq]
    · rw [Function.update_of_ne heq]
  exact congrArg (fun q => QlMemory.setPrev _ q linkp) hnext

end Fields

section Queues

variable {mem mem' : QlMemory A U} {head b x : A} {xs ys : List A}

/-- A queue does not depend on other links. -/
theorem Linked.congr (h : Linked mem head xs) (hsame : ∀ a ∈ head :: xs, mem' a = mem a) :
    Linked mem' head xs :=
  DoublyLinked.Ring.congr h (fun a ha => congrArg QlLink.qlnextp (hsame a ha))
    fun a ha => congrArg QlLink.qlprevp (hsame a ha)

/-- The link behind one is the first of the rest, or the head. -/
theorem Linked.next_eq (h : Linked mem head (xs ++ x :: ys)) :
    mem.next x = ys.headD head := by
  obtain ⟨-, hrest⟩ := DoublyLinked.chain_append.mp h.2
  cases ys with
  | nil => exact hrest.1
  | cons y ys => exact hrest.1

theorem Linked.next_head (h : Linked mem head xs) : mem.next head = xs.headD head := by
  cases xs with
  | nil => exact h.2.1
  | cons x xs => exact h.2.1

variable [DecidableEq A]

theorem linked_qlinitlnk (userp : U) : Linked (mem.qlinitlnk head userp) head [] := by
  rw [Linked, DoublyLinked.ring_nil_iff]
  simp [QlMemory.next, QlMemory.prev, QlMemory.qlinitlnk]

/-- A link is added at the end. -/
theorem Linked.qladdprev (h : Linked mem head xs) (hb : b ∉ head :: xs) :
    Linked (mem.qladdprev head b) head (xs ++ [b]) := by
  have hring := DoublyLinked.Ring.concat h hb
  rw [Linked, qladdprev_eq]
  simpa using hring

/-- A link is taken out. -/
theorem Linked.qlremcur (h : Linked mem head (xs ++ x :: ys)) :
    Linked (mem.qlremcur x).2 head (xs ++ ys) := by
  have hring := DoublyLinked.Ring.unlink h
  rw [Linked, qlremcur_eq]
  simpa using hring

/-- A link that was taken out still points to the one that was behind it. -/
theorem Linked.next_qlremcur (h : Linked mem head (xs ++ x :: ys)) :
    (mem.qlremcur x).2.next x = mem.next x := by
  obtain ⟨hfront, -⟩ := DoublyLinked.chain_append.mp h.2
  have hne : x ≠ mem.prev x := by
    intro heq
    have hmem := hfront.prev_mem
    rw [← heq] at hmem
    have hnodup : (head :: xs ++ x :: ys).Nodup := h.1
    exact (List.nodup_append.mp hnodup).2.2 x hmem x (List.mem_cons_self ..) rfl
  rw [qlremcur_eq, next_setPrev, next_setNext, Function.update_of_ne hne]

/-- The first link is taken. When there is none, the head is taken for one and stays. -/
theorem Linked.qlremnext (h : Linked mem head xs) :
    (mem.qlremnext head).1 = (mem (xs.headD head)).qluserp ∧
      Linked (mem.qlremnext head).2 head xs.tail := by
  have hfirst := h.next_head
  have huser : (mem.qlremnext head).1 = (mem (mem.next head)).qluserp := by
    simp [QlMemory.qlremnext, QlMemory.next]
  refine ⟨by rw [huser, hfirst], ?_⟩
  rw [Linked, qlremnext_eq, next_setPrev, prev_setPrev, next_setNext, prev_setNext]
  cases xs with
  | nil =>
      obtain ⟨hhead, -⟩ := h.2
      have hself : mem.next (mem.next head) = head := by rw [hhead, hhead]
      rw [hself]
      exact DoublyLinked.ring_nil_iff.mpr ⟨Function.update_self .., Function.update_self ..⟩
  | cons x xs =>
      have hprev : mem.prev x = head := h.2.2.1
      have hring := @DoublyLinked.Ring.unlink _ _ _ _ x [] xs _ h
      rw [hprev] at hring
      rw [hfirst]
      exact hring

end Queues

end Ql

end SierraSdk
