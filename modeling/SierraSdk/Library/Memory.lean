import Mathlib.Algebra.Group.Nat.Defs
import Mathlib.Data.List.GetD
import Mathlib.Logic.Function.Basic

/-!
# A memory of cells

A memory is a function from addresses to cells. `load d i n` reads `n` cells from address
`i` on and `store d i xs` writes the cells `xs` there. A load reads what was stored under it
(`load_store`) and does not see a store elsewhere (`load_store_of_disjoint`); adjacent loads
and stores join (`load_add`, `store_append`).
-/

namespace Memory

variable {α : Type*}

/-- The `n` cells from address `i` on. -/
def load (d : ℕ → α) (i n : ℕ) : List α := (List.range n).map fun k => d (i + k)

/-- The memory with the cells `xs` written from address `i` on. -/
def store (d : ℕ → α) (i : ℕ) (xs : List α) : ℕ → α :=
  fun j => if i ≤ j then xs.getD (j - i) (d j) else d j

/-- The memory that holds a list of cells from address `0` on, and `a` behind them. -/
def ofList (a : α) (xs : List α) : ℕ → α := fun j => xs.getD j a

@[simp] theorem load_zero (d : ℕ → α) (i : ℕ) : load d i 0 = [] := rfl

@[simp] theorem length_load (d : ℕ → α) (i n : ℕ) : (load d i n).length = n := by
  simp [load]

theorem load_succ (d : ℕ → α) (i n : ℕ) : load d i (n + 1) = d i :: load d (i + 1) n := by
  simp only [load, List.range_succ_eq_map, List.map_cons, List.map_map, Nat.add_zero]
  congr 1
  apply List.map_congr_left
  intro k _
  exact congrArg d (Nat.add_right_comm i k 1)

theorem load_add (d : ℕ → α) (i m n : ℕ) :
    load d i (m + n) = load d i m ++ load d (i + m) n := by
  induction m generalizing i with
  | zero => simp
  | succ m ih =>
      have hpath : i + (m + 1) = i + 1 + m := by omega
      rw [Nat.succ_add, load_succ, load_succ, ih, hpath, List.cons_append]

/-- Two memories that agree on the cells that are read. -/
theorem load_congr {d d' : ℕ → α} {i n : ℕ} (h : ∀ j, i ≤ j → j < i + n → d j = d' j) :
    load d i n = load d' i n := by
  apply List.map_congr_left
  intro k hk
  exact h _ (Nat.le_add_right i k) (Nat.add_lt_add_left (List.mem_range.mp hk) i)

theorem take_load (d : ℕ → α) (i : ℕ) {m n : ℕ} (h : m ≤ n) :
    (load d i n).take m = load d i m := by
  obtain ⟨k, rfl⟩ := Nat.exists_eq_add_of_le h
  rw [load_add, List.take_left' (length_load d i m)]

theorem getElem?_load (d : ℕ → α) {i n k : ℕ} (hk : k < n) :
    (load d i n)[k]? = some (d (i + k)) := by
  simp [load, hk]

@[simp] theorem store_nil (d : ℕ → α) (i : ℕ) : store d i [] = d := by
  funext j
  simp [store]

theorem store_of_lt {d : ℕ → α} {i j : ℕ} {xs : List α} (h : j < i) : store d i xs j = d j :=
  if_neg (Nat.not_le.mpr h)

theorem store_of_ge {d : ℕ → α} {i j : ℕ} {xs : List α} (h : i + xs.length ≤ j) :
    store d i xs j = d j := by
  have hle : i ≤ j := Nat.le_of_add_right_le h
  rw [store, if_pos hle]
  exact List.getD_eq_default xs _ (Nat.le_sub_of_add_le' h)

theorem store_add {d : ℕ → α} {i k : ℕ} {xs : List α} (h : k < xs.length) :
    store d i xs (i + k) = xs[k] := by
  rw [store, if_pos (Nat.le_add_right i k), Nat.add_sub_cancel_left, List.getD_eq_getElem xs _ h]

theorem store_at (d : ℕ → α) (i : ℕ) (a : α) : store d i [a] i = a := by
  simp [store]

theorem store_singleton_of_ne {d : ℕ → α} {i j : ℕ} {a : α} (h : j ≠ i) :
    store d i [a] j = d j := by
  rcases Nat.lt_or_gt_of_ne h with hlt | hgt
  · exact store_of_lt hlt
  · exact store_of_ge hgt

/-- A store of one cell is an update. -/
theorem store_singleton (d : ℕ → α) (i : ℕ) (a : α) :
    store d i [a] = Function.update d i a := by
  funext j
  by_cases h : j = i
  · rw [h, store_at, Function.update_self]
  · rw [store_singleton_of_ne h, Function.update_of_ne h]

/-- What was stored is loaded. -/
theorem load_store (d : ℕ → α) (i : ℕ) (xs : List α) : load (store d i xs) i xs.length = xs := by
  apply List.ext_getElem (length_load _ _ _)
  intro k hk hk'
  simp only [load, List.getElem_map, List.getElem_range]
  exact store_add hk'

theorem load_store_of_length (d : ℕ → α) (i : ℕ) {xs : List α} {n : ℕ} (h : xs.length = n) :
    load (store d i xs) i n = xs := h ▸ load_store d i xs

/-- The front of what was stored is loaded. -/
theorem load_store_append (d : ℕ → α) (i : ℕ) {xs : List α} (ys : List α) {n : ℕ}
    (h : xs.length = n) : load (store d i (xs ++ ys)) i n = xs := by
  have hle : n ≤ (xs ++ ys).length := by
    rw [← h, List.length_append]
    exact Nat.le_add_right _ _
  rw [← take_load _ _ hle, load_store, ← h, List.take_left]

/-- A load does not see a store elsewhere. -/
theorem load_store_of_disjoint {d : ℕ → α} {i j n : ℕ} {xs : List α}
    (h : j + n ≤ i ∨ i + xs.length ≤ j) : load (store d i xs) j n = load d j n := by
  apply load_congr
  intro k hjk hk
  rcases h with h | h
  · exact store_of_lt (Nat.lt_of_lt_of_le hk h)
  · exact store_of_ge (Nat.le_trans h hjk)

/-- A store into memories that agree in a cell. -/
theorem store_congr {d d' : ℕ → α} {k : ℕ} (h : d k = d' k) (i : ℕ) (xs : List α) :
    store d i xs k = store d' i xs k := by
  rw [store, store, h]

/-- A store behind another one may be done first. -/
theorem store_comm_of_le {d : ℕ → α} {i j : ℕ} {xs ys : List α} (h : i + xs.length ≤ j) :
    store (store d i xs) j ys = store (store d j ys) i xs := by
  funext k
  by_cases hk : k < j
  · rw [store_of_lt hk]
    exact store_congr (store_of_lt hk).symm i xs
  · have hge : i + xs.length ≤ k := Nat.le_trans h (Nat.le_of_not_lt hk)
    rw [store_of_ge hge]
    exact store_congr (store_of_ge hge) j ys

/-- Stores that do not overlap may be done in either order. -/
theorem store_comm {d : ℕ → α} {i j : ℕ} {xs ys : List α}
    (h : i + xs.length ≤ j ∨ j + ys.length ≤ i) :
    store (store d i xs) j ys = store (store d j ys) i xs := by
  rcases h with h | h
  · exact store_comm_of_le h
  · exact (store_comm_of_le h).symm

/-- Stores at adjacent addresses make one store. -/
theorem store_append (d : ℕ → α) (i : ℕ) (xs ys : List α) :
    store (store d i xs) (i + xs.length) ys = store d i (xs ++ ys) := by
  funext j
  by_cases hlt : j < i
  · rw [store_of_lt (Nat.lt_of_lt_of_le hlt (Nat.le_add_right i _)), store_of_lt hlt,
      store_of_lt hlt]
  obtain ⟨k, rfl⟩ := Nat.exists_eq_add_of_le (Nat.le_of_not_lt hlt)
  by_cases hxs : k < xs.length
  · rw [store_of_lt (Nat.add_lt_add_left hxs i), store_add hxs,
      store_add (by rw [List.length_append]; exact Nat.lt_add_right _ hxs),
      List.getElem_append_left hxs]
  obtain ⟨m, rfl⟩ := Nat.exists_eq_add_of_le (Nat.le_of_not_lt hxs)
  rw [← Nat.add_assoc]
  by_cases hys : m < ys.length
  · have hlen : xs.length + m < (xs ++ ys).length := by
      rw [List.length_append]
      exact Nat.add_lt_add_left hys _
    rw [store_add hys, Nat.add_assoc, store_add hlen,
      List.getElem_append_right (Nat.le_add_right _ _)]
    simp
  · have hge : ys.length ≤ m := Nat.le_of_not_lt hys
    rw [store_of_ge (Nat.add_le_add_left hge _), store_of_ge (Nat.le_add_right _ m),
      store_of_ge (by rw [List.length_append]; omega)]

/-- A cell stored in front of others. -/
theorem store_cons (d : ℕ → α) (i : ℕ) (x : α) (xs : List α) :
    store (store d (i + 1) xs) i [x] = store d i (x :: xs) := by
  funext j
  rcases Nat.lt_trichotomy j i with hlt | rfl | hgt
  · rw [store_of_lt hlt, store_of_lt hlt, store_of_lt (Nat.lt_succ_of_lt hlt)]
  · rw [store_at, store, if_pos (Nat.le_refl j), Nat.sub_self]
    rfl
  · obtain ⟨k, rfl⟩ := Nat.exists_eq_add_of_lt hgt
    rw [store_singleton_of_ne (Nat.ne_of_gt hgt), store, store, if_pos (by omega),
      if_pos (by omega), show i + k + 1 - i = k + 1 by omega,
      show i + k + 1 - (i + 1) = k by omega]
    rfl

/-- A part of what is loaded. -/
theorem load_part {d : ℕ → α} {i n : ℕ} {pre xs post : List α}
    (h : load d i n = pre ++ (xs ++ post)) : load d (i + pre.length) xs.length = xs := by
  have hn : n = pre.length + (xs.length + post.length) := by
    rw [← length_load d i n, h, List.length_append, List.length_append]
  rw [hn, load_add, load_add] at h
  have hrest := (List.append_inj h (length_load _ _ _)).2
  exact (List.append_inj hrest (length_load _ _ _)).1

theorem load_ofList (a : α) (pre xs post : List α) :
    load (ofList a (pre ++ (xs ++ post))) pre.length xs.length = xs := by
  apply List.ext_getElem (length_load _ _ _)
  intro k hk hk'
  simp only [load, List.getElem_map, List.getElem_range, ofList]
  rw [List.getD_append_right _ _ _ _ (Nat.le_add_right _ _), Nat.add_sub_cancel_left,
    List.getD_append _ _ _ _ hk', List.getD_eq_getElem _ _ hk']

end Memory
