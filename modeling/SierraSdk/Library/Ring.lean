import Mathlib.Data.List.Basic
import Mathlib.Logic.Function.Basic

/-!
# Circular buffers

A circular buffer is the cells from `start` to `last`, with a position `get` that is read next
and a position `put` that is written next. `next` moves a position by one cell, from the last
one to the first. `Holds` says that the buffer holds a list: its elements lie from `get` on, and
`put` is the position behind them.

One cell stays free, so a buffer holds at most `last - start` elements. An element is added at
`put` (`Holds.push`) and taken at `get` (`Holds.pop`), and the buffer is empty exactly if both
positions are the same (`Holds.eq_nil_iff`); a buffer that is full looks empty once another
element is added (`Holds.next_put_eq_iff`).
-/

namespace Ring

variable {α : Type*}

/-- The position behind `p`. -/
def next (start last p : ℕ) : ℕ := if p = last then start else p + 1

/-- The position `k` cells behind `p`. -/
def slot (start last p k : ℕ) : ℕ := if p + k ≤ last then p + k else p + k - (last - start + 1)

/-- The buffer holds a list. -/
structure Holds (start last : ℕ) (cells : ℕ → α) (get put : ℕ) (xs : List α) : Prop where
  start_le : start ≤ get
  le_last : get ≤ last
  fits : xs.length ≤ last - start
  put_eq : put = slot start last get xs.length
  cell : ∀ k (hk : k < xs.length), cells (slot start last get k) = xs[k]

section Slots

variable {start last p k j : ℕ}

theorem slot_zero (hp : p ≤ last) : slot start last p 0 = p := if_pos hp

theorem slot_mem (hstart : start ≤ p) (hp : p ≤ last) (hk : k ≤ last - start) :
    start ≤ slot start last p k ∧ slot start last p k ≤ last := by
  unfold slot
  split_ifs <;> omega

theorem slot_ne (hstart : start ≤ p) (hp : p ≤ last) (hjk : j < k) (hk : k ≤ last - start) :
    slot start last p j ≠ slot start last p k := by
  unfold slot
  split_ifs <;> omega

theorem next_slot (hstart : start ≤ p) (hp : p ≤ last) (hk : k < last - start) :
    next start last (slot start last p k) = slot start last p (k + 1) := by
  unfold next slot
  split_ifs <;> omega

/-- After a whole turn the position is the same. -/
theorem next_slot_last (hstart : start ≤ p) (hp : p ≤ last) :
    next start last (slot start last p (last - start)) = p := by
  unfold next slot
  split_ifs <;> omega

theorem slot_next (hstart : start ≤ p) (hk : k + 1 ≤ last - start) :
    slot start last (next start last p) k = slot start last p (k + 1) := by
  unfold next slot
  split_ifs <;> omega

theorem next_mem (hstart : start ≤ p) (hp : p ≤ last) :
    start ≤ next start last p ∧ next start last p ≤ last := by
  unfold next
  split_ifs <;> omega

end Slots

variable {start last get put : ℕ} {cells : ℕ → α} {xs : List α} {x : α}

theorem holds_nil (h : start ≤ get) (h' : get ≤ last) : Holds start last cells get get [] where
  start_le := h
  le_last := h'
  fits := Nat.zero_le _
  put_eq := (slot_zero h').symm
  cell := fun k hk => absurd hk (Nat.not_lt_zero k)

namespace Holds

theorem put_mem (h : Holds start last cells get put xs) : start ≤ put ∧ put ≤ last := by
  rw [h.put_eq]
  exact slot_mem h.start_le h.le_last h.fits

theorem eq_nil_iff (h : Holds start last cells get put xs) : put = get ↔ xs = [] := by
  rw [h.put_eq, ← List.length_eq_zero_iff]
  constructor
  · intro hslot
    by_contra hne
    have hpos : 0 < xs.length := Nat.pos_of_ne_zero hne
    have hfirst := slot_ne h.start_le h.le_last hpos h.fits
    rw [slot_zero h.le_last] at hfirst
    exact hfirst hslot.symm
  · intro hlen
    rw [hlen, slot_zero h.le_last]

/-- Behind the end of a full buffer lies its beginning. -/
theorem next_put_eq_iff (h : Holds start last cells get put xs) :
    next start last put = get ↔ xs.length = last - start := by
  rw [h.put_eq]
  constructor
  · intro hnext
    by_contra hne
    have hlt : xs.length < last - start := Nat.lt_of_le_of_ne h.fits hne
    rw [next_slot h.start_le h.le_last hlt] at hnext
    have hfirst := slot_ne h.start_le h.le_last (Nat.succ_pos xs.length) hlt
    rw [slot_zero h.le_last] at hfirst
    exact hfirst hnext.symm
  · intro hlen
    rw [hlen]
    exact next_slot_last h.start_le h.le_last

/-- An element is added. -/
theorem push (h : Holds start last cells get put xs) (hlt : xs.length < last - start) (x : α) :
    Holds start last (Function.update cells put x) get (next start last put) (xs ++ [x]) where
  start_le := h.start_le
  le_last := h.le_last
  fits := by
    rw [List.length_append, List.length_singleton]
    exact hlt
  put_eq := by
    rw [h.put_eq, next_slot h.start_le h.le_last hlt, List.length_append, List.length_singleton]
  cell := by
    intro k hk
    rw [List.length_append, List.length_singleton] at hk
    rcases Nat.lt_succ_iff_lt_or_eq.mp hk with hk | rfl
    · have hne : slot start last get k ≠ put := by
        rw [h.put_eq]
        exact slot_ne h.start_le h.le_last hk h.fits
      rw [Function.update_of_ne hne, List.getElem_append_left hk]
      exact h.cell k hk
    · rw [← h.put_eq, Function.update_self, List.getElem_concat_length rfl]

/-- The element that is read next. -/
theorem front (h : Holds start last cells get put (x :: xs)) : cells get = x := by
  have hfirst := h.cell 0 (Nat.succ_pos _)
  rwa [slot_zero h.le_last] at hfirst

/-- An element is taken. -/
theorem pop (h : Holds start last cells get put (x :: xs)) :
    Holds start last cells (next start last get) put xs where
  start_le := (next_mem h.start_le h.le_last).1
  le_last := (next_mem h.start_le h.le_last).2
  fits := Nat.le_of_succ_le h.fits
  put_eq := by
    rw [slot_next h.start_le h.fits]
    exact h.put_eq
  cell := by
    intro k hk
    have hfits : k + 1 ≤ last - start := Nat.le_trans hk (Nat.le_of_succ_le h.fits)
    rw [slot_next h.start_le hfits]
    exact h.cell (k + 1) (Nat.succ_lt_succ hk)

/-- The number of elements, from the positions. -/
theorem length_eq (h : Holds start last cells get put xs) :
    xs.length = if get ≤ put then put - get else put + (last - start) - get + 1 := by
  have hput := h.put_eq
  have hfits := h.fits
  have hstart := h.start_le
  have hlast := h.le_last
  unfold slot at hput
  split_ifs at hput ⊢ <;> omega

end Holds

end Ring
