import Mathlib.Data.List.Basic
import Mathlib.Data.List.Nodup
import Mathlib.Logic.Function.Basic

/-!
# Circular lists

A singly linked circular list is reached from its last cell: `next` of the last cell is the first
one. `Path next p xs q` says that the pointers lead from `p` through the cells `xs` to `q`, and
`Holds next last xs` that `last` is the last cell of a circular list of the cells `xs`, `none` if
there are none.

A cell is linked behind the last one, and the first one is unlinked, each with one pointer of the
last cell changed; so a circular list is a queue (`Holds.link`, `Holds.unlink`).
-/

namespace CircularList

variable {A : Type*}

/-- The pointers lead from `p` through the cells `xs` to `q`. -/
def Path (next : A → A) : A → List A → A → Prop
  | p, [], q => next p = q
  | p, x :: xs, q => next p = x ∧ Path next x xs q

/-- The cells of a circular list, the first one first. -/
def Holds (next : A → A) (last : Option A) (xs : List A) : Prop :=
  xs.Nodup ∧
    match last with
    | none => xs = []
    | some l => ∃ ys, xs = ys ++ [l] ∧ Path next l ys l

section Paths

variable {next next' : A → A} {p p' q r : A} {xs ys : List A}

theorem path_append : Path next p (xs ++ q :: ys) r ↔ Path next p xs q ∧ Path next q ys r := by
  induction xs generalizing p with
  | nil => rfl
  | cons x xs ih =>
      rw [List.cons_append, Path, Path, ih, and_assoc]

/-- Pointers that were not changed lead the same way. -/
theorem Path.congr (h : Path next p xs q) (hp : next' p' = next p)
    (hxs : ∀ x ∈ xs, next' x = next x) : Path next' p' xs q := by
  induction xs generalizing p p' with
  | nil => exact hp.trans h
  | cons x xs ih =>
      obtain ⟨hx, hrest⟩ := h
      refine ⟨hp.trans hx, ih hrest (hxs x (List.mem_cons_self ..)) fun y hy => ?_⟩
      exact hxs y (List.mem_cons_of_mem _ hy)

end Paths

variable {next : A → A} {last : Option A} {l b x : A} {xs : List A}

theorem holds_none_iff : Holds next none xs ↔ xs = [] :=
  ⟨fun h => h.2, fun h => ⟨h ▸ List.nodup_nil, h⟩⟩

theorem Holds.eq_none_iff (h : Holds next last xs) : last = none ↔ xs = [] := by
  cases last with
  | none => exact iff_of_true rfl h.2
  | some l =>
      obtain ⟨-, ys, rfl, -⟩ := h
      exact iff_of_false (Option.some_ne_none l)
        (List.append_ne_nil_of_right_ne_nil ys (List.cons_ne_nil l []))

variable [DecidableEq A]

/-- The pointers once a cell is linked behind the last one. -/
def link (next : A → A) (last : Option A) (b : A) : A → A :=
  match last with
  | none => Function.update next b b
  | some l => Function.update (Function.update next b (next l)) l b

/-- The first cell, and the pointers and the last cell once it is unlinked. -/
def unlink (next : A → A) (l : A) : A × (A → A) × Option A :=
  if l = next l then (next l, next, none)
  else (next l, Function.update next l (next (next l)), some l)

/-- A cell is linked behind the others. -/
theorem Holds.link (h : Holds next last xs) (hb : b ∉ xs) :
    Holds (link next last b) (some b) (xs ++ [b]) := by
  have hnodup : (xs ++ [b]).Nodup := List.nodup_append.mpr ⟨h.1, List.nodup_singleton b, by
    intro x hx y hy hxy
    rw [List.mem_singleton.mp hy] at hxy
    exact hb (hxy ▸ hx)⟩
  cases last with
  | none =>
      obtain rfl : xs = [] := h.2
      exact ⟨hnodup, [], rfl, Function.update_self ..⟩
  | some l =>
      obtain ⟨hxs, ys, rfl, hpath⟩ := h
      have hlb : l ≠ b := fun heq => hb (by rw [heq]; exact List.mem_concat_self ..)
      have hl : l ∉ ys := (List.nodup_concat ys l).mp (by rwa [List.concat_eq_append]) |>.1
      refine ⟨hnodup, ys ++ [l], rfl, path_append.mpr ⟨hpath.congr ?_ fun y hy => ?_, ?_⟩⟩
      · simp only [CircularList.link]
        rw [Function.update_of_ne hlb.symm, Function.update_self]
      · have hyl : y ≠ l := fun heq => hl (heq ▸ hy)
        have hyb : y ≠ b := fun heq => hb (heq ▸ List.mem_append_left _ hy)
        simp only [CircularList.link]
        rw [Function.update_of_ne hyl, Function.update_of_ne hyb]
      · exact Function.update_self ..

/-- The first cell is unlinked. -/
theorem Holds.unlink (h : Holds next (some l) (x :: xs)) :
    (unlink next l).1 = x ∧ Holds (unlink next l).2.1 (unlink next l).2.2 xs := by
  obtain ⟨hnodup, ys, hys, hpath⟩ := h
  cases ys with
  | nil =>
      obtain ⟨rfl, rfl⟩ := List.cons.inj hys
      have hself : x = next x := hpath.symm
      rw [CircularList.unlink, if_pos hself]
      exact ⟨hself.symm, List.nodup_nil, rfl⟩
  | cons y zs =>
      obtain ⟨rfl, rfl⟩ := List.cons.inj hys
      obtain ⟨hfirst, hrest⟩ := hpath
      have hne : l ≠ next l := by
        intro heq
        rw [hfirst] at heq
        exact (List.nodup_cons.mp hnodup).1 (heq ▸ List.mem_concat_self ..)
      have hzs : l ∉ zs := by
        have htail := (List.nodup_cons.mp hnodup).2
        exact ((List.nodup_concat zs l).mp (by rwa [List.concat_eq_append])).1
      rw [CircularList.unlink, if_neg hne]
      refine ⟨hfirst, (List.nodup_cons.mp hnodup).2, zs, rfl, hrest.congr ?_ fun z hz => ?_⟩
      · change Function.update next l (next (next l)) l = next x
        rw [Function.update_self, hfirst]
      · have hzl : z ≠ l := fun heq => hzs (heq ▸ hz)
        exact Function.update_of_ne hzl ..

end CircularList
