import Mathlib.Data.List.Basic
import Mathlib.Data.List.Nodup
import Mathlib.Logic.Function.Basic

/-!
# Doubly linked lists

The cells of a doubly linked list point to the next one and to the one before.
`Chain next prev p xs q` says that the pointers lead from `p` through the cells `xs` to `q`, and
back. A list with a head is a chain that leads from the head to itself (`Ring`).

A cell is linked in at the end of a chain (`Chain.concat`), and a cell is taken out between two
others (`Chain.unlink`): in both cases the pointers of the two cells beside it are changed and no
others are. Since the list leads back to its head, a cell may be linked in in front of any other one
(`Ring.insert`).
-/

namespace DoublyLinked

variable {A : Type*}

/-- The pointers lead from `p` through the cells `xs` to `q`, and back. -/
def Chain (next prev : A → A) : A → List A → A → Prop
  | p, [], q => next p = q ∧ prev q = p
  | p, x :: xs, q => next p = x ∧ prev x = p ∧ Chain next prev x xs q

/-- The cells behind the head of a list that leads back to its head. -/
def Ring (next prev : A → A) (head : A) (xs : List A) : Prop :=
  (head :: xs).Nodup ∧ Chain next prev head xs head

section Chains

variable {next prev next' prev' : A → A} {p q x b : A} {xs ys : List A}

theorem chain_append :
    Chain next prev p (xs ++ x :: ys) q ↔
      Chain next prev p xs x ∧ Chain next prev x ys q := by
  induction xs generalizing p with
  | nil => rw [List.nil_append, Chain, Chain, and_assoc]
  | cons y xs ih => rw [List.cons_append, Chain, Chain, ih, and_assoc, and_assoc]

/-- Pointers that were not changed lead the same way. -/
theorem Chain.congr (h : Chain next prev p xs q) (hnext : ∀ a ∈ p :: xs, next' a = next a)
    (hprev : ∀ a ∈ xs ++ [q], prev' a = prev a) : Chain next' prev' p xs q := by
  induction xs generalizing p with
  | nil =>
      obtain ⟨hq, hp⟩ := h
      exact ⟨(hnext p (List.mem_cons_self ..)).trans hq,
        (hprev q (List.mem_cons_self ..)).trans hp⟩
  | cons x xs ih =>
      obtain ⟨hx, hp, hrest⟩ := h
      refine ⟨(hnext p (List.mem_cons_self ..)).trans hx,
        (hprev x (List.mem_cons_self ..)).trans hp, ih hrest ?_ ?_⟩
      · exact fun a ha => hnext a (List.mem_cons_of_mem _ ha)
      · exact fun a ha => hprev a (List.mem_cons_of_mem _ ha)

/-- The cell in front of the end of a chain is its last one. -/
theorem Chain.prev_mem (h : Chain next prev p xs q) : prev q ∈ p :: xs := by
  induction xs generalizing p with
  | nil => exact List.mem_singleton.mpr h.2
  | cons x xs ih => exact List.mem_cons_of_mem _ (ih h.2.2)

/-- The cell behind the beginning of a chain is its first one. -/
theorem Chain.next_mem (h : Chain next prev p xs q) : next p ∈ xs ++ [q] := by
  cases xs with
  | nil => exact List.mem_singleton.mpr h.1
  | cons x xs => exact h.1 ▸ List.mem_cons_self ..

/-- A cell is linked in at the end of a chain. -/
theorem Chain.concat (h : Chain next prev p xs q) (hnodup : (p :: xs).Nodup)
    (hnext : ∀ a ∈ p :: xs, a ≠ prev q → next' a = next a) (hlast : next' (prev q) = b)
    (hb : next' b = q) (hprev : ∀ a ∈ xs, prev' a = prev a) (hback : prev' b = prev q)
    (hq : prev' q = b) : Chain next' prev' p (xs ++ [b]) q := by
  induction xs generalizing p with
  | nil =>
      obtain ⟨-, rfl⟩ := h
      exact ⟨hlast, hback, hb, hq⟩
  | cons x xs ih =>
      obtain ⟨hx, hp, hrest⟩ := h
      have hne : p ≠ prev q := fun heq =>
        (List.nodup_cons.mp hnodup).1 (heq ▸ hrest.prev_mem)
      refine ⟨(hnext p (List.mem_cons_self ..) hne).trans hx,
        (hprev x (List.mem_cons_self ..)).trans hp,
        ih hrest (List.nodup_cons.mp hnodup).2 ?_ ?_⟩
      · exact fun a ha => hnext a (List.mem_cons_of_mem _ ha)
      · exact fun a ha => hprev a (List.mem_cons_of_mem _ ha)

/-- A cell is taken out between two chains. -/
theorem Chain.unlink (h : Chain next prev p xs x) (h' : Chain next prev x ys q)
    (hfront : (p :: xs).Nodup) (hrear : (ys ++ [q]).Nodup)
    (hnext : ∀ a ∈ p :: xs, a ≠ prev x → next' a = next a)
    (hkept : ∀ a ∈ ys, next' a = next a) (hlast : next' (prev x) = next x)
    (hprev : ∀ a ∈ ys ++ [q], a ≠ next x → prev' a = prev a)
    (hback : ∀ a ∈ xs, prev' a = prev a) (hfirst : prev' (next x) = prev x) :
    Chain next' prev' p (xs ++ ys) q := by
  induction xs generalizing p with
  | nil =>
      obtain ⟨-, rfl⟩ := h
      cases ys with
      | nil =>
          obtain ⟨rfl, -⟩ := h'
          exact ⟨hlast, hfirst⟩
      | cons y ys =>
          obtain ⟨rfl, -, hrest⟩ := h'
          refine ⟨hlast, hfirst, hrest.congr hkept fun a ha => ?_⟩
          have hne : a ≠ next x := fun heq => (List.nodup_cons.mp hrear).1 (heq ▸ ha)
          exact hprev a (List.mem_cons_of_mem _ ha) hne
  | cons y xs ih =>
      obtain ⟨hy, hp, hrest⟩ := h
      have hne : p ≠ prev x := fun heq =>
        (List.nodup_cons.mp hfront).1 (heq ▸ hrest.prev_mem)
      refine ⟨(hnext p (List.mem_cons_self ..) hne).trans hy,
        (hback y (List.mem_cons_self ..)).trans hp,
        ih hrest (List.nodup_cons.mp hfront).2 ?_ ?_⟩
      · exact fun a ha => hnext a (List.mem_cons_of_mem _ ha)
      · exact fun a ha => hback a (List.mem_cons_of_mem _ ha)

end Chains

section Rings

variable {next prev : A → A} {head b x : A} {xs ys : List A}

theorem Ring.congr {next' prev' : A → A} (h : Ring next prev head xs)
    (hnext : ∀ a ∈ head :: xs, next' a = next a) (hprev : ∀ a ∈ head :: xs, prev' a = prev a) :
    Ring next' prev' head xs := by
  refine ⟨h.1, h.2.congr hnext fun a ha => hprev a ?_⟩
  rw [List.mem_append, List.mem_singleton] at ha
  exact List.mem_cons.mpr ha.symm

theorem ring_nil_iff : Ring next prev head [] ↔ next head = head ∧ prev head = head :=
  ⟨fun h => h.2, fun h => ⟨List.nodup_singleton head, h⟩⟩

variable [DecidableEq A]

/-- A cell is linked in in front of the head, where the list ends. -/
theorem Ring.concat (h : Ring next prev head xs) (hb : b ∉ head :: xs) :
    Ring (Function.update (Function.update next b head) (prev head) b)
      (Function.update (Function.update prev b (prev head)) head b) head (xs ++ [b]) := by
  obtain ⟨hnodup, hchain⟩ := h
  have hlast := hchain.prev_mem
  have hne : ∀ a ∈ head :: xs, a ≠ b := fun a ha heq => hb (heq ▸ ha)
  have hall : (head :: xs ++ [b]).Nodup :=
    List.nodup_append.mpr ⟨hnodup, List.nodup_singleton b, fun a ha c hc heq =>
      hb ((List.mem_singleton.mp hc) ▸ heq ▸ ha)⟩
  have hhead : ∀ a ∈ xs, a ≠ head := fun a ha heq =>
    (List.nodup_cons.mp hnodup).1 (heq ▸ ha)
  refine ⟨hall, hchain.concat hnodup (fun a ha hlast => ?_) (Function.update_self ..) ?_
    (fun a ha => ?_) ?_ (Function.update_self ..)⟩
  · rw [Function.update_of_ne hlast, Function.update_of_ne (hne a ha)]
  · rw [Function.update_of_ne (hne _ hlast).symm, Function.update_self]
  · rw [Function.update_of_ne (hhead a ha),
      Function.update_of_ne (hne a (List.mem_cons_of_mem _ ha))]
  · rw [Function.update_of_ne (hne head (List.mem_cons_self ..)).symm, Function.update_self]

/-- A cell is taken out of a list. -/
theorem Ring.unlink (h : Ring next prev head (xs ++ x :: ys)) :
    Ring (Function.update next (prev x) (next x)) (Function.update prev (next x) (prev x)) head
      (xs ++ ys) := by
  obtain ⟨hnodup, hchain⟩ := h
  obtain ⟨hfront, hrear⟩ := chain_append.mp hchain
  have hlast := hfront.prev_mem
  have hfirst := hrear.next_mem
  obtain ⟨hxs, htail, hapart⟩ :=
    List.nodup_append.mp (show (head :: xs ++ x :: ys).Nodup from hnodup)
  have hys := (List.nodup_cons.mp htail).2
  have hhead : head ∉ ys := fun hmem =>
    hapart head (List.mem_cons_self ..) head (List.mem_cons_of_mem _ hmem) rfl
  have hend : (ys ++ [head]).Nodup :=
    List.nodup_append.mpr ⟨hys, List.nodup_singleton head, fun a ha c hc heq =>
      hhead ((List.mem_singleton.mp hc) ▸ heq ▸ ha)⟩
  have hall : (head :: xs ++ ys).Nodup :=
    List.nodup_append.mpr ⟨hxs, hys, fun a ha c hc => hapart a ha c (List.mem_cons_of_mem _ hc)⟩
  refine ⟨hall, hfront.unlink hrear hxs hend (fun a _ hne => Function.update_of_ne hne ..)
    (fun a ha => ?_) (Function.update_self ..) (fun a _ hne => Function.update_of_ne hne ..)
    (fun a ha => ?_) (Function.update_self ..)⟩
  · have hne : a ≠ prev x := fun heq =>
      hapart _ hlast a (List.mem_cons_of_mem _ ha) heq.symm
    exact Function.update_of_ne hne ..
  · have hne : a ≠ next x := by
      intro heq
      rw [← heq, List.mem_append, List.mem_singleton] at hfirst
      rcases hfirst with hmem | rfl
      · exact hapart a (List.mem_cons_of_mem _ ha) a (List.mem_cons_of_mem _ hmem) rfl
      · exact (List.nodup_cons.mp hxs).1 ha
    exact Function.update_of_ne hne ..

end Rings

/-! ### Any cell as the head -/

section Rotation

variable {next prev : A → A} {head b x p q cur : A} {xs ys : List A}

/-- A list that leads back to its head may be read from any of its cells on. -/
theorem Ring.rotate (h : Ring next prev head (xs ++ x :: ys)) :
    Ring next prev x (ys ++ head :: xs) := by
  obtain ⟨hnodup, hchain⟩ := h
  obtain ⟨hfront, hrear⟩ := chain_append.mp hchain
  have hperm : ((x :: ys) ++ (head :: xs)).Perm ((head :: xs) ++ (x :: ys)) :=
    List.perm_append_comm
  exact ⟨hperm.nodup_iff.mpr hnodup, chain_append.mpr ⟨hrear, hfront⟩⟩

/-- The pointers lead back from the cell behind another one. -/
theorem Chain.prev_next (h : Chain next prev p xs q) (hcur : cur ∈ p :: xs) :
    prev (next cur) = cur ∧ next cur ∈ q :: xs := by
  induction xs generalizing p with
  | nil =>
      obtain rfl := List.mem_singleton.mp hcur
      obtain ⟨hq, hp⟩ := h
      rw [hq]
      exact ⟨hp, List.mem_cons_self ..⟩
  | cons x xs ih =>
      obtain ⟨hx, hp, hrest⟩ := h
      rcases List.mem_cons.mp hcur with rfl | hcur
      · rw [hx]
        exact ⟨hp, List.mem_cons_of_mem _ (List.mem_cons_self ..)⟩
      · obtain ⟨hback, hmem⟩ := ih hrest hcur
        exact ⟨hback, List.mem_cons.mpr ((List.mem_cons.mp hmem).imp_right fun h =>
          List.mem_cons_of_mem _ h)⟩

/-- The pointers lead forward again from the cell in front of another one. -/
theorem Chain.next_prev (h : Chain next prev p xs q) (hcur : cur ∈ q :: xs) :
    next (prev cur) = cur ∧ prev cur ∈ p :: xs := by
  induction xs generalizing p with
  | nil =>
      obtain rfl := List.mem_singleton.mp hcur
      obtain ⟨hq, hp⟩ := h
      rw [hp]
      exact ⟨hq, List.mem_cons_self ..⟩
  | cons x xs ih =>
      obtain ⟨hx, hp, hrest⟩ := h
      by_cases heq : cur = x
      · subst heq
        rw [hp]
        exact ⟨hx, List.mem_cons_self ..⟩
      · have hmem : cur ∈ q :: xs := by
          rcases List.mem_cons.mp hcur with rfl | hcur
          · exact List.mem_cons_self ..
          · exact List.mem_cons_of_mem _ ((List.mem_cons.mp hcur).resolve_left heq)
        obtain ⟨hforth, hback⟩ := ih hrest hmem
        exact ⟨hforth, List.mem_cons_of_mem _ hback⟩

variable [DecidableEq A]

/-- The cell behind `cur` on the way from `p` through `xs` to `q`. -/
def follower (q : A) : A → List A → A → A
  | _, [], _ => q
  | p, x :: xs, cur => if p = cur then x else follower q x xs cur

/-- The cell in front of `cur` on the way from `p` through `xs` and on. -/
def leader : A → List A → A → A
  | p, [], _ => p
  | p, x :: xs, cur => if x = cur then p else leader x xs cur

theorem Chain.next_eq (h : Chain next prev p xs q) (hcur : cur ∈ p :: xs) :
    next cur = follower q p xs cur := by
  induction xs generalizing p with
  | nil =>
      obtain rfl := List.mem_singleton.mp hcur
      exact h.1
  | cons x xs ih =>
      obtain ⟨hx, -, hrest⟩ := h
      rw [follower]
      by_cases heq : p = cur
      · rw [if_pos heq, ← heq, hx]
      · rw [if_neg heq]
        exact ih hrest ((List.mem_cons.mp hcur).resolve_left (Ne.symm heq))

theorem Chain.prev_eq (h : Chain next prev p xs q) (hcur : cur ∈ q :: xs) :
    prev cur = leader p xs cur := by
  induction xs generalizing p with
  | nil =>
      obtain rfl := List.mem_singleton.mp hcur
      exact h.2
  | cons x xs ih =>
      obtain ⟨-, hp, hrest⟩ := h
      rw [leader]
      by_cases heq : x = cur
      · rw [if_pos heq, ← heq, hp]
      · have hmem : cur ∈ q :: xs := by
          rcases List.mem_cons.mp hcur with rfl | hcur
          · exact List.mem_cons_self ..
          · exact List.mem_cons_of_mem _ ((List.mem_cons.mp hcur).resolve_left (Ne.symm heq))
        rw [if_neg heq]
        exact ih hrest hmem

/-- `b` in front of `cur`, or at the end. -/
def insertAhead (cur b : A) : List A → List A
  | [] => [b]
  | x :: xs => if x = cur then b :: x :: xs else x :: insertAhead cur b xs

theorem insertAhead_of_notMem (h : cur ∉ xs) : insertAhead cur b xs = xs ++ [b] := by
  induction xs with
  | nil => rfl
  | cons x xs ih =>
      obtain ⟨hne, hrest⟩ := not_or.mp (mt List.mem_cons.mpr h)
      rw [insertAhead, if_neg (Ne.symm hne), ih hrest]
      rfl

theorem insertAhead_append (h : cur ∉ xs) :
    insertAhead cur b (xs ++ cur :: ys) = xs ++ b :: cur :: ys := by
  induction xs with
  | nil => exact if_pos rfl
  | cons x xs ih =>
      obtain ⟨hne, hrest⟩ := not_or.mp (mt List.mem_cons.mpr h)
      rw [List.cons_append, insertAhead, if_neg (Ne.symm hne), ih hrest]
      rfl

theorem mem_insertAhead {a : A} : a ∈ insertAhead cur b xs ↔ a = b ∨ a ∈ xs := by
  induction xs with
  | nil => simp [insertAhead]
  | cons x xs ih =>
      rw [insertAhead]
      split_ifs
      · simp
      · simp only [List.mem_cons, ih]
        exact or_left_comm

/-- A cell is linked in in front of any other one. -/
theorem Ring.insert (h : Ring next prev head xs) (hcur : cur ∈ head :: xs) (hb : b ∉ head :: xs) :
    Ring (Function.update (Function.update next b cur) (prev cur) b)
      (Function.update (Function.update prev b (prev cur)) cur b) head (insertAhead cur b xs) := by
  rcases List.mem_cons.mp hcur with rfl | hmem
  · rw [insertAhead_of_notMem (List.nodup_cons.mp h.1).1]
    exact h.concat hb
  · obtain ⟨as, bs, rfl⟩ := List.append_of_mem hmem
    have hnot : cur ∉ as := fun has =>
      (List.nodup_append.mp (List.nodup_cons.mp h.1).2).2.2 cur has cur (List.mem_cons_self ..) rfl
    have hperm : ((cur :: bs) ++ (head :: as)).Perm ((head :: as) ++ (cur :: bs)) :=
      List.perm_append_comm
    have hring := h.rotate.concat fun hmem => hb (hperm.mem_iff.mp hmem)
    rw [List.append_assoc, List.cons_append] at hring
    rw [insertAhead_append hnot, ← List.singleton_append, ← List.append_assoc]
    exact hring.rotate

/-- A cell is taken out, wherever it is. -/
theorem Ring.erase (h : Ring next prev head xs) (hx : x ∈ xs) :
    Ring (Function.update next (prev x) (next x)) (Function.update prev (next x) (prev x)) head
      (xs.erase x) := by
  obtain ⟨as, bs, rfl⟩ := List.append_of_mem hx
  have hnot : x ∉ as := fun has =>
    (List.nodup_append.mp (List.nodup_cons.mp h.1).2).2.2 x has x (List.mem_cons_self ..) rfl
  rw [List.erase_append_right _ hnot, List.erase_cons_head]
  exact h.unlink

end Rotation

end DoublyLinked
