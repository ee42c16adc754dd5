import SierraSdk.Library.Memory

/-!
# Null-terminated texts in a memory

`Text d i xs` says that the memory holds the cells `xs` from address `i` on, none of them zero, and
a zero behind them. `seek` goes on to the first cell that a loop stops at. When it stops at zeros,
it does not leave the text (`seek_eq`).
-/

namespace MemoryText

open Memory

variable {α : Type*} [Zero α]

/-- The cells from an address on are these and then a zero. -/
structure Text (d : ℕ → α) (i : ℕ) (xs : List α) : Prop where
  load_eq : load d i xs.length = xs
  end_eq : d (i + xs.length) = 0
  ne_zero : ∀ x ∈ xs, x ≠ 0

/-- The first cell from an address on that is to stop at, among so many. -/
def seek (stop : α → Bool) (d : ℕ → α) : ℕ → ℕ → ℕ
  | 0, i => i
  | n + 1, i => if stop (d i) then i else seek stop d n (i + 1)

variable {d : ℕ → α} {i : ℕ} {x : α} {xs ys : List α}

theorem text_nil_iff : Text d i [] ↔ d i = 0 :=
  ⟨fun h => h.end_eq, fun h => ⟨rfl, h, List.forall_mem_nil _⟩⟩

theorem text_cons_iff : Text d i (x :: xs) ↔ d i = x ∧ x ≠ 0 ∧ Text d (i + 1) xs := by
  constructor
  · rintro ⟨hload, hend, hne⟩
    rw [List.length_cons, load_succ] at hload
    obtain ⟨hx, hxs⟩ := List.forall_mem_cons.mp hne
    obtain ⟨hhead, htail⟩ := List.cons.inj hload
    rw [List.length_cons, ← Nat.add_assoc, Nat.add_right_comm] at hend
    exact ⟨hhead, hx, htail, hend, hxs⟩
  · rintro ⟨rfl, hne, hload, hend, hxs⟩
    refine ⟨?_, ?_, List.forall_mem_cons.mpr ⟨hne, hxs⟩⟩
    · rw [List.length_cons, load_succ, hload]
    · rw [List.length_cons, ← Nat.add_assoc, Nat.add_right_comm]
      exact hend

theorem Text.unique (h : Text d i xs) (h' : Text d i ys) : xs = ys := by
  induction xs generalizing i ys with
  | nil =>
      cases ys with
      | nil => rfl
      | cons y ys =>
          obtain ⟨hy, hne, -⟩ := text_cons_iff.mp h'
          exact absurd (hy.symm.trans (text_nil_iff.mp h)) hne
  | cons x xs ih =>
      obtain ⟨hx, hne, hxs⟩ := text_cons_iff.mp h
      cases ys with
      | nil => exact absurd (hx.symm.trans (text_nil_iff.mp h')) hne
      | cons y ys =>
          obtain ⟨hy, -, hys⟩ := text_cons_iff.mp h'
          rw [← hx, ← hy, ih hxs hys]

theorem Text.drop (h : Text d i (xs ++ ys)) : Text d (i + xs.length) ys := by
  induction xs generalizing i with
  | nil => exact h
  | cons x xs ih =>
      have htail := ih (text_cons_iff.mp h).2.2
      rwa [List.length_cons, Nat.add_comm xs.length, ← Nat.add_assoc]

/-- A text is there in every memory with the same cells. -/
theorem Text.congr (h : Text d i xs) {d' : ℕ → α}
    (heq : ∀ j, i ≤ j → j ≤ i + xs.length → d' j = d j) : Text d' i xs := by
  refine ⟨?_, ?_, h.ne_zero⟩
  · rw [load_congr fun j hij hj => heq j hij (Nat.le_of_lt hj), h.load_eq]
  · rw [heq _ (Nat.le_add_right i _) (Nat.le_refl _), h.end_eq]

/-- A text does not see a store in front of it. -/
theorem Text.store_of_lt (h : Text d i xs) {j : ℕ} (hj : j < i) (a : α) :
    Text (store d j [a]) i xs := by
  refine ⟨?_, ?_, h.ne_zero⟩
  · rw [load_store_of_disjoint (.inr hj), h.load_eq]
  · rw [store_of_ge (Nat.le_trans hj (Nat.le_add_right i _)), h.end_eq]

/-- A zero that is put in a text ends it there. -/
theorem Text.cut (h : Text d i (xs ++ ys)) : Text (store d (i + xs.length) [0]) i xs := by
  refine ⟨?_, store_at _ _ _, fun x hx => h.ne_zero x (List.mem_append_left ys hx)⟩
  have hload := congrArg (List.take xs.length) h.load_eq
  rw [take_load _ _ (by rw [List.length_append]; exact Nat.le_add_right _ _),
    List.take_left] at hload
  rw [load_store_of_disjoint (.inl (Nat.le_refl _)), hload]

/-- A text that is stored with its zero. -/
theorem text_store (d : ℕ → α) (i : ℕ) (hys : ∀ y ∈ ys, y ≠ 0) :
    Text (store d i (ys ++ [0])) i ys := by
  have hlast : ys.length < (ys ++ [(0 : α)]).length := by
    rw [List.length_append, List.length_singleton]
    exact Nat.lt_succ_self _
  have hload := congrArg (List.take ys.length) (load_store d i (ys ++ [0]))
  rw [take_load _ _ (Nat.le_of_lt hlast), List.take_left] at hload
  refine ⟨hload, ?_, hys⟩
  rw [store_add hlast, List.getElem_append_right (Nat.le_refl _)]
  simp

/-- A text that is stored over one of the same length. -/
theorem Text.replace (h : Text d i xs) (hlength : ys.length = xs.length) (hys : ∀ y ∈ ys, y ≠ 0) :
    Text (store d i ys) i ys := by
  refine ⟨load_store d i ys, ?_, hys⟩
  rw [store_of_ge (Nat.le_refl _), hlength, h.end_eq]

/-- What is stored at the end of a text with a zero behind it is joined to it. -/
theorem Text.append (h : Text d i xs) (hys : ∀ y ∈ ys, y ≠ 0) :
    Text (store d (i + xs.length) (ys ++ [0])) i (xs ++ ys) := by
  have hnew := text_store d (i + xs.length) hys
  have hold : load (store d (i + xs.length) (ys ++ [0])) i xs.length = load d i xs.length :=
    load_store_of_disjoint (.inl (Nat.le_refl (i + xs.length)))
  refine ⟨?_, ?_, fun x hx => (List.mem_append.mp hx).elim (h.ne_zero x) (hys x)⟩
  · rw [List.length_append, load_add, hold, h.load_eq, hnew.load_eq]
  · rw [List.length_append, ← Nat.add_assoc]
    exact hnew.end_eq

/-- A text that is copied with its zero. -/
theorem Text.copy (h : Text d i xs) (j : ℕ) :
    Text (store d j (load d i (xs.length + 1))) j xs := by
  have hload : load d i (xs.length + 1) = xs ++ [0] := by
    rw [load_add, h.load_eq, load_succ, h.end_eq, load_zero]
  rw [hload]
  exact text_store d j h.ne_zero

/-- The first cell to stop at, or else the end of the text. -/
theorem seek_eq {stop : α → Bool} (hzero : stop 0 = true) (h : Text d i xs) {n : ℕ}
    (hn : xs.length < n) :
    seek stop d n i = i + (xs.takeWhile fun x => !stop x).length := by
  induction xs generalizing i n with
  | nil =>
      obtain ⟨m, rfl⟩ := Nat.exists_eq_add_one_of_ne_zero (Nat.ne_zero_of_lt hn)
      rw [seek, text_nil_iff.mp h, if_pos hzero]
      rfl
  | cons x xs ih =>
      obtain ⟨m, rfl⟩ := Nat.exists_eq_add_one_of_ne_zero (Nat.ne_zero_of_lt hn)
      obtain ⟨hx, -, hxs⟩ := text_cons_iff.mp h
      rw [seek, hx, List.takeWhile_cons]
      cases hstop : stop x with
      | true => rfl
      | false =>
          rw [if_neg Bool.false_ne_true, ih hxs (Nat.lt_of_succ_lt_succ hn), Bool.not_false,
            if_pos rfl, List.length_cons, Nat.add_assoc, Nat.add_comm 1]

end MemoryText
