import Mathlib.Data.List.Basic
import SierraSdk.Library.Memory

/-!
# Cells written one after the other

A computation that writes cell by cell is given by its writes: each has what is written and the
cell. `afterWrites d writes` is the memory after them. Cells in a row are written by `List.zipIdx`,
and make one store.
-/

namespace Memory

variable {α : Type*} {d : ℕ → α} {writes : List (α × ℕ)}

/-- The memory after writes. -/
def afterWrites (d : ℕ → α) (writes : List (α × ℕ)) : ℕ → α :=
  writes.foldl (fun d w => store d w.2 [w.1]) d

@[simp] theorem afterWrites_nil (d : ℕ → α) : afterWrites d [] = d := rfl

@[simp] theorem afterWrites_cons (d : ℕ → α) (w : α × ℕ) (writes : List (α × ℕ)) :
    afterWrites d (w :: writes) = afterWrites (store d w.2 [w.1]) writes := rfl

/-- Cells in a row are written like one store. -/
theorem afterWrites_zipIdx (d : ℕ → α) (xs : List α) (i : ℕ) :
    afterWrites d (xs.zipIdx i) = store d i xs := by
  induction xs generalizing d i with
  | nil => rw [List.zipIdx_nil, afterWrites_nil, store_nil]
  | cons x xs ih =>
      have happend := store_append d i [x] xs
      rw [List.length_singleton, List.singleton_append] at happend
      rw [List.zipIdx_cons, afterWrites_cons, ih, happend]

/-- The writes of cells in a row stay below the end of the row. -/
theorem lt_of_mem_zipIdx {xs : List α} {i : ℕ} {w : α × ℕ} (h : w ∈ xs.zipIdx i) :
    w.2 < i + xs.length := by
  have hlt := List.snd_lt_of_mem_zipIdx h
  rwa [Nat.add_comm] at hlt

end Memory
