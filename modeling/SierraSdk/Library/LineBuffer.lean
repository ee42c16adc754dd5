import SierraSdk.Library.Machine

/-!
# Lines in a buffer of fixed capacity

A line ends with `nl`. `addLine` puts a character behind the others; a character that finds the
buffer full makes it skip the rest of the line, up to the next `nl` that it is given. The character
that finds it full is not looked at, so when it is itself the end of a line, the line behind it is
skipped.

`outputs_addLine` says which lines come out, and `delivered_eq_filter_iff` when these are those that
fit.
-/

namespace LineBuffer

open Machine

variable {α : Type*}

structure Buffer (α : Type*) where
  line : List α
  overflow : Bool

/-- The lines that come out of a buffer: a line that exceeds the capacity by one takes the next one
with it. -/
def delivered (capacity : ℕ) : List (List α) → List (List α)
  | [] => []
  | [line] => if line.length ≤ capacity then [line] else []
  | line :: next :: rest =>
      if line.length ≤ capacity then line :: delivered capacity (next :: rest)
      else if line.length = capacity + 1 then delivered capacity rest
      else delivered capacity (next :: rest)

/-- No line that fits is behind one that exceeds the capacity by one. -/
def Unswallowed (capacity : ℕ) : List (List α) → Prop
  | [] => True
  | [_] => True
  | line :: next :: rest =>
      if line.length = capacity + 1 then capacity < next.length ∧ Unswallowed capacity rest
      else Unswallowed capacity (next :: rest)

section Fitting

variable {capacity : ℕ}

theorem delivered_cons_of_le {line : List α} (rest : List (List α))
    (h : line.length ≤ capacity) :
    delivered capacity (line :: rest) = line :: delivered capacity rest := by
  cases rest with
  | nil => simp [delivered, h]
  | cons next rest => rw [delivered, if_pos h]

theorem delivered_cons_of_eq {line : List α} (rest : List (List α))
    (h : line.length = capacity + 1) :
    delivered capacity (line :: rest) = delivered capacity rest.tail := by
  have hgt : ¬ line.length ≤ capacity := by omega
  cases rest with
  | nil => simp [delivered, hgt]
  | cons next rest => rw [delivered, if_neg hgt, if_pos h, List.tail_cons]

theorem delivered_cons_of_gt {line : List α} (rest : List (List α))
    (h : capacity + 1 < line.length) :
    delivered capacity (line :: rest) = delivered capacity rest := by
  have hgt : ¬ line.length ≤ capacity := by omega
  have hne : line.length ≠ capacity + 1 := by omega
  cases rest with
  | nil => simp [delivered, hgt]
  | cons next rest => rw [delivered, if_neg hgt, if_neg hne]

/-- The lines that come out are some of those that fit, in order. -/
theorem delivered_sublist (capacity : ℕ) (ls : List (List α)) :
    (delivered capacity ls).Sublist (ls.filter (·.length ≤ capacity)) := by
  induction ls using delivered.induct capacity with
  | case1 => exact List.Sublist.refl _
  | case2 line h => simp [delivered, h]
  | case3 line h => simp [delivered, h]
  | case4 line next rest h ih =>
      rw [delivered, if_pos h, List.filter_cons_of_pos (by simpa using h)]
      exact ih.cons_cons line
  | case5 line next rest h heq ih =>
      rw [delivered, if_neg h, if_pos heq, List.filter_cons_of_neg (by simpa using h)]
      exact ih.trans ((List.sublist_cons_self next rest).filter _)
  | case6 line next rest h hne ih =>
      rw [delivered, if_neg h, if_neg hne, List.filter_cons_of_neg (by simpa using h)]
      exact ih

/-- The lines that come out are those that fit, unless one of them is behind a line that exceeds the
capacity by one. -/
theorem delivered_eq_filter_iff (ls : List (List α)) :
    delivered capacity ls = ls.filter (·.length ≤ capacity) ↔ Unswallowed capacity ls := by
  induction ls using delivered.induct capacity with
  | case1 => exact iff_of_true rfl trivial
  | case2 line h => exact iff_of_true (by simp [delivered, h]) trivial
  | case3 line h => exact iff_of_true (by simp [delivered, h]) trivial
  | case4 line next rest h ih =>
      have hne : line.length ≠ capacity + 1 := by omega
      rw [delivered, if_pos h, List.filter_cons_of_pos (by simpa using h), Unswallowed,
        if_neg hne, ← ih]
      exact ⟨List.tail_eq_of_cons_eq, congrArg (line :: ·)⟩
  | case5 line next rest h heq ih =>
      rw [delivered, if_neg h, if_pos heq, List.filter_cons_of_neg (by simpa using h), Unswallowed,
        if_pos heq, ← ih]
      by_cases hnext : next.length ≤ capacity
      · rw [List.filter_cons_of_pos (by simpa using hnext)]
        refine iff_of_false (fun heq' => ?_) fun hboth => absurd hnext (Nat.not_le.mpr hboth.1)
        have hlength := (delivered_sublist capacity rest).length_le
        rw [heq', List.length_cons] at hlength
        omega
      · rw [List.filter_cons_of_neg (by simpa using hnext)]
        exact ⟨fun h' => ⟨Nat.not_le.mp hnext, h'⟩, And.right⟩
  | case6 line next rest h hne ih =>
      rw [delivered, if_neg h, if_neg hne, List.filter_cons_of_neg (by simpa using h), Unswallowed,
        if_neg hne, ← ih]

end Fitting

section Outputs

variable [DecidableEq α]

/-- A character is added; a line that it completes comes out. -/
def addLine (nl : α) (capacity : ℕ) (b : Buffer α) (c : α) : Buffer α × List (List α) :=
  if b.overflow then ({ b with overflow := c ≠ nl }, [])
  else if capacity ≤ b.line.length then (⟨[], true⟩, [])
  else if c = nl then (⟨[], false⟩, [b.line ++ [c]])
  else (⟨b.line ++ [c], false⟩, [])

/-- The complete lines of a text, whose first line has begun with `line`. -/
def completeLines (nl : α) : List α → List α → List (List α)
  | _, [] => []
  | line, c :: cs =>
      if c = nl then (line ++ [c]) :: completeLines nl [] cs
      else completeLines nl (line ++ [c]) cs

variable {nl : α} {capacity : ℕ}

/-- Behind the first line, the lines do not depend on how it began. -/
theorem tail_completeLines (line line' cs : List α) :
    (completeLines nl line cs).tail = (completeLines nl line' cs).tail := by
  induction cs generalizing line line' with
  | nil => rfl
  | cons c cs ih =>
      rw [completeLines, completeLines]
      split_ifs
      · rfl
      · exact ih (line ++ [c]) (line' ++ [c])

/-- A line that exceeds the capacity by more than one takes no other with it. -/
theorem delivered_completeLines {line : List α} (h : capacity < line.length) (cs : List α) :
    delivered capacity (completeLines nl line cs) =
      delivered capacity (completeLines nl line cs).tail := by
  induction cs generalizing line with
  | nil => rfl
  | cons c cs ih =>
      rw [completeLines]
      split_ifs
      · refine delivered_cons_of_gt _ ?_
        rw [List.length_append, List.length_singleton]
        omega
      · refine ih ?_
        rw [List.length_append]
        omega

/-- The lines that come out of a buffer. While it skips the rest of a line, the next line that is
completed does not come out. -/
theorem outputs_addLine_aux (cs : List α) :
    (∀ line : List α, line.length ≤ capacity →
      outputs (addLine nl capacity) ⟨line, false⟩ cs =
        delivered capacity (completeLines nl line cs)) ∧
    (∀ line : List α, outputs (addLine nl capacity) ⟨[], true⟩ cs =
        delivered capacity (completeLines nl line cs).tail) := by
  induction cs with
  | nil => exact ⟨fun _ _ => rfl, fun _ => rfl⟩
  | cons c cs ih =>
      obtain ⟨ihline, ihskip⟩ := ih
      constructor
      · intro line hline
        rw [outputs_cons, addLine, if_neg Bool.false_ne_true]
        by_cases hfull : capacity ≤ line.length
        · rw [if_pos hfull, List.nil_append, ihskip (line ++ [c])]
          have hlength : (line ++ [c]).length = capacity + 1 := by
            rw [List.length_append, List.length_singleton]
            omega
          by_cases hc : c = nl
          · rw [completeLines, if_pos hc, delivered_cons_of_eq _ hlength,
              tail_completeLines (line ++ [c]) []]
          · rw [completeLines, if_neg hc, delivered_completeLines (by omega)]
        · rw [if_neg hfull, completeLines]
          have hlength : (line ++ [c]).length ≤ capacity := by
            rw [List.length_append, List.length_singleton]
            omega
          by_cases hc : c = nl
          · rw [if_pos hc, if_pos hc, delivered_cons_of_le _ hlength]
            exact congrArg ((line ++ [c]) :: ·) (ihline [] (Nat.zero_le _))
          · rw [if_neg hc, if_neg hc]
            exact ihline (line ++ [c]) hlength
      · intro line
        rw [outputs_cons, addLine, if_pos rfl, List.nil_append, completeLines]
        by_cases hc : c = nl
        · rw [if_pos hc, List.tail_cons]
          simp only [hc, ne_eq, not_true_eq_false, decide_false]
          exact ihline [] (Nat.zero_le _)
        · rw [if_neg hc]
          simp only [hc, ne_eq, not_false_eq_true, decide_true]
          exact ihskip (line ++ [c])

theorem outputs_addLine (cs : List α) :
    outputs (addLine nl capacity) ⟨[], false⟩ cs =
      delivered capacity (completeLines nl [] cs) :=
  (outputs_addLine_aux cs).1 [] (Nat.zero_le _)

end Outputs

end LineBuffer
