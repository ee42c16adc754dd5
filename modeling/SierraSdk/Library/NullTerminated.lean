import Mathlib.Data.List.Basic
import Mathlib.Data.List.Nodup

/-!
# Doubly linked lists that end with a null pointer

`Leads next first xs` says that the pointers lead from `first` through the cells `xs` to the null
pointer, and `Backed prev p xs` that each of the cells points back to the one before it, the first
one to `p`. A list is linked when both hold, with nothing in front of its first cell.

A cell is linked in between two others by `Spliced`, which says what becomes of the pointers: those
of its neighbours are set, and its own are set when there is a neighbour on that side. On a side
where there is none, the pointer of the cell is as it was, so that the list is linked afterwards
when it was null there.
-/

namespace NullTerminated

variable {A : Type*}

/-- The pointers lead from `first` through the cells to null. -/
def Leads (next : A → Option A) : Option A → List A → Prop
  | first, [] => first = none
  | first, x :: xs => first = some x ∧ Leads next (next x) xs

/-- Each cell points back to the one before it, and the first one to `p`. -/
def Backed (prev : A → Option A) : Option A → List A → Prop
  | _, [] => True
  | p, x :: xs => prev x = p ∧ Backed prev (some x) xs

/-- A doubly linked list. -/
structure Linked (next prev : A → Option A) (first : Option A) (xs : List A) : Prop where
  leads : Leads next first xs
  backed : Backed prev none xs

/-- The cells from a pointer on, at most so many. -/
def follow (next : A → Option A) : ℕ → Option A → List A
  | _, none => []
  | 0, some _ => []
  | n + 1, some x => x :: follow next n (next x)

section Pointers

variable {next next' prev prev' : A → Option A} {first p : Option A} {xs ys front rear : List A}
  {x e : A}

theorem Leads.unique (h : Leads next first xs) (h' : Leads next first ys) : xs = ys := by
  induction xs generalizing first ys with
  | nil =>
      cases ys with
      | nil => rfl
      | cons y ys => exact absurd (h'.1.symm.trans h) (Option.some_ne_none y)
  | cons x xs ih =>
      cases ys with
      | nil => exact absurd (h.1.symm.trans h') (Option.some_ne_none x)
      | cons y ys =>
          obtain rfl := Option.some.inj (h.1.symm.trans h'.1)
          rw [ih h.2 h'.2]

/-- Pointers that were not changed lead the same way. -/
theorem Leads.congr (h : Leads next first xs) (hnext : ∀ a ∈ xs, next' a = next a) :
    Leads next' first xs := by
  induction xs generalizing first with
  | nil => exact h
  | cons x xs ih =>
      refine ⟨h.1, ih ?_ fun a ha => hnext a (List.mem_cons_of_mem _ ha)⟩
      rw [hnext x (List.mem_cons_self ..)]
      exact h.2

theorem Backed.congr (h : Backed prev p xs) (hprev : ∀ a ∈ xs, prev' a = prev a) :
    Backed prev' p xs := by
  induction xs generalizing p with
  | nil => trivial
  | cons x xs ih =>
      exact ⟨(hprev x (List.mem_cons_self ..)).trans h.1,
        ih h.2 fun a ha => hprev a (List.mem_cons_of_mem _ ha)⟩

theorem Linked.congr (h : Linked next prev first xs) (hnext : ∀ a ∈ xs, next' a = next a)
    (hprev : ∀ a ∈ xs, prev' a = prev a) : Linked next' prev' first xs :=
  ⟨h.leads.congr hnext, h.backed.congr hprev⟩

theorem follow_eq (h : Leads next first xs) {n : ℕ} (hlen : xs.length ≤ n) :
    follow next n first = xs := by
  induction xs generalizing first n with
  | nil =>
      rw [show first = none from h]
      cases n with
      | zero => rfl
      | succ n => rfl
  | cons x xs ih =>
      obtain ⟨m, rfl⟩ := Nat.exists_eq_add_one_of_ne_zero (Nat.ne_zero_of_lt hlen)
      rw [h.1, follow, ih h.2 (Nat.le_of_succ_le_succ hlen)]

/-- A suffix of a list is led to by its own first cell. -/
theorem Leads.drop (h : Leads next first (front ++ x :: rear)) :
    Leads next (some x) (x :: rear) := by
  induction front generalizing first with
  | nil => exact ⟨rfl, h.2⟩
  | cons y front ih => exact ih h.2

/-- The cell `e` is linked in between its neighbours, as far as there are any. -/
structure Spliced (next prev next' prev' : A → Option A) (w : Option A) (e : A)
    (b : Option A) : Prop where
  next_eq : ∀ a, some a ≠ w → a ≠ e → next' a = next a
  next_front : ∀ a, w = some a → next' a = some e
  next_own : next' e = b.or (next e)
  prev_eq : ∀ a, some a ≠ b → a ≠ e → prev' a = prev a
  prev_rear : ∀ a, b = some a → prev' a = some e
  prev_own : prev' e = w.or (prev e)

/-- The cells in front of a cell that is linked in lead to it, and on to what is behind it. -/
theorem Spliced.leads_front {b : Option A} (hs : Spliced next prev next' prev' front.getLast? e b)
    (h : Leads next first (front ++ rear)) (hnodup : front.Nodup) (he : e ∉ front)
    (hrest : Leads next' (next' e) ys) :
    Leads next' (if front = [] then some e else first) (front ++ e :: ys) := by
  induction front generalizing first with
  | nil => exact ⟨rfl, hrest⟩
  | cons x front ih =>
      rw [if_neg (List.cons_ne_nil x front)]
      refine ⟨h.1, ?_⟩
      cases front with
      | nil => exact ⟨hs.next_front x rfl, hrest⟩
      | cons y front =>
          rw [List.getLast?_cons_cons] at hs
          have hlast : some x ≠ (y :: front).getLast? := fun heq =>
            (List.nodup_cons.mp hnodup).1 (List.mem_of_getLast? heq.symm)
          have hkept : next' x = next x :=
            hs.next_eq x hlast fun heq => he (heq ▸ List.mem_cons_self ..)
          rw [hkept]
          have hfront := ih hs h.2 (List.nodup_cons.mp hnodup).2
            fun hmem => he (List.mem_cons_of_mem _ hmem)
          rwa [if_neg (List.cons_ne_nil y front)] at hfront

/-- The cells behind a cell that is linked in lead on as before. -/
theorem Spliced.leads_rear {w b : Option A} (hs : Spliced next prev next' prev' w e b)
    (h : Leads next p rear) (hw : ∀ a ∈ rear, some a ≠ w) (he : e ∉ rear) :
    Leads next' p rear :=
  h.congr fun a ha => hs.next_eq a (hw a ha) fun heq => he (heq ▸ ha)

/-- The cells around a cell that is linked in point back, if it points back to what is in front
of it. -/
theorem Spliced.backed {w : Option A} (hs : Spliced next prev next' prev' w e rear.head?)
    (h : Backed prev p (front ++ rear)) (hnodup : (front ++ rear).Nodup) (he : e ∉ front ++ rear)
    (hown : prev' e = front.getLast?.or p) : Backed prev' p (front ++ e :: rear) := by
  induction front generalizing p with
  | nil =>
      refine ⟨hown, ?_⟩
      cases rear with
      | nil => trivial
      | cons y rear =>
          refine ⟨hs.prev_rear y rfl, h.2.congr fun a ha => hs.prev_eq a ?_ ?_⟩
          · exact fun heq => (List.nodup_cons.mp hnodup).1 (Option.some.inj heq ▸ ha)
          · exact fun heq => he (heq ▸ List.mem_cons_of_mem _ ha)
  | cons x front ih =>
      have hx : x ∉ front ++ rear := (List.nodup_cons.mp hnodup).1
      refine ⟨(hs.prev_eq x ?_ ?_).trans h.1, ih h.2 (List.nodup_cons.mp hnodup).2
        (fun hmem => he (List.mem_cons_of_mem _ hmem)) ?_⟩
      · exact fun heq => hx (List.mem_append_right _ (List.mem_of_head? heq.symm))
      · exact fun heq => he (heq ▸ List.mem_cons_self ..)
      · rw [hown]
        cases front with
        | nil => rfl
        | cons y front =>
            rw [List.getLast?_cons_cons]
            cases hlast : (y :: front).getLast? with
            | none => exact absurd (List.getLast?_eq_none_iff.mp hlast) (List.cons_ne_nil y front)
            | some z => rfl

/-- A cell is linked in: the list is linked when the cell was null on a side on which there is no
neighbour. -/
theorem Linked.splice (h : Linked next prev first (front ++ rear))
    (hs : Spliced next prev next' prev' front.getLast? e rear.head?)
    (hnodup : (front ++ rear).Nodup) (he : e ∉ front ++ rear)
    (hnext : rear = [] → next e = none) (hprev : front = [] → prev e = none) :
    Linked next' prev' (if front = [] then some e else first) (front ++ e :: rear) := by
  obtain ⟨hfront, hrear, hapart⟩ := List.nodup_append.mp hnodup
  have hbehind : Leads next' (next' e) rear := by
    rw [hs.next_own]
    cases rear with
    | nil => exact hnext rfl
    | cons y rear =>
        refine hs.leads_rear h.leads.drop (fun a ha heq => ?_)
          fun hmem => he (List.mem_append_right _ hmem)
        exact hapart a (List.mem_of_getLast? heq.symm) a ha rfl
  refine ⟨hs.leads_front h.leads hfront (fun hmem => he (List.mem_append_left _ hmem)) hbehind,
    hs.backed h.backed hnodup he ?_⟩
  rw [hs.prev_own]
  cases hlast : front.getLast? with
  | none => exact hprev (List.getLast?_eq_none_iff.mp hlast)
  | some w => rfl

end Pointers

end NullTerminated
