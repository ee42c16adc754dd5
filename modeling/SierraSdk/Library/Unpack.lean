import Mathlib.Data.List.Basic

/-!
# Unpacking from the front of a list

An `Unpack` computation takes symbols from the front of a list, one or several at a time, and
fails if one that it wants is not there. So its result tells what was unpacked and that nothing
beyond the end was touched.
-/

namespace Unpacking

variable {α β γ : Type}

/-- Take symbols from the front of a list. -/
abbrev Unpack (α : Type) := StateT (List α) Option

/-- The next symbol. -/
def next : Unpack α α := fun xs => xs.head?.map fun x => (x, xs.tail)

/-- The next `n` symbols. -/
def nextMany (n : ℕ) : Unpack α (List α) := fun xs =>
  if n ≤ xs.length then some (xs.take n, xs.drop n) else none

@[simp] theorem run_next_cons (x : α) (xs : List α) : next.run (x :: xs) = some (x, xs) := rfl

theorem run_nextMany_append {xs : List α} {n : ℕ} (h : xs.length = n) (ys : List α) :
    (nextMany n).run (xs ++ ys) = some (xs, ys) := by
  subst h
  change (if _ then _ else _) = _
  rw [if_pos (by simp), List.take_left, List.drop_left]

/-- The computation takes `n` symbols and has the value `f` of the list, and it fails on a
shorter list. -/
def Takes (p : Unpack α β) (n : ℕ) (f : List α → β) : Prop :=
  ∀ xs, p.run xs = if n ≤ xs.length then some (f xs, xs.drop n) else none

section Takes

variable {p : Unpack α β} {n : ℕ} {f : List α → β}

theorem Takes.run_eq (h : Takes p n f) {xs : List α} (hn : n ≤ xs.length) :
    p.run xs = some (f xs, xs.drop n) := by
  rw [h xs, if_pos hn]

theorem Takes.run_eq_none (h : Takes p n f) {xs : List α} (hn : xs.length < n) :
    p.run xs = none := by
  rw [h xs, if_neg (Nat.not_le.mpr hn)]

theorem takes_next (d : α) : Takes next 1 fun xs => xs.getD 0 d := by
  intro xs
  cases xs with
  | nil => rfl
  | cons x xs => rfl

theorem takes_pure (b : β) : Takes (pure b : Unpack α β) 0 fun _ => b := by
  intro xs
  rw [if_pos (Nat.zero_le _)]
  rfl

/-- What takes `m` symbols after `n` symbols takes `n + m` of them. -/
theorem Takes.bind (hp : Takes p n f) {q : β → Unpack α γ} {m : ℕ} {g : β → List α → γ}
    (hq : ∀ b, Takes (q b) m (g b)) :
    Takes (p >>= q) (n + m) fun xs => g (f xs) (xs.drop n) := by
  intro xs
  rw [StateT.run_bind, hp xs]
  by_cases hn : n ≤ xs.length
  · rw [if_pos hn, Option.bind_eq_bind, Option.bind_some, hq (f xs) (xs.drop n),
      List.length_drop, List.drop_drop]
    by_cases hm : n + m ≤ xs.length
    · rw [if_pos hm, if_pos (Nat.le_sub_of_add_le' hm)]
    · rw [if_neg hm, if_neg (fun h => hm (Nat.add_le_of_le_sub' hn h))]
  · rw [if_neg hn, if_neg (fun h => hn (Nat.le_trans (Nat.le_add_right n m) h))]
    rfl

end Takes

end Unpacking
