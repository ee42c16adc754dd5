import Mathlib.Algebra.GroupWithZero.Nat
import Mathlib.Data.List.Basic

/-!
# Pieces between delimiters

`pieces p l` are the non-empty parts of a list that lie between its delimiters, in order. A
delimiter cuts the pieces apart (`pieces_append_cons`), whatever is in front of it or behind it.
`cuts` cuts the pieces off one by one.
-/

namespace Pieces

variable {α : Type*} {p : α → Bool}

/-- The non-empty parts of a list between its delimiters. -/
def pieces (p : α → Bool) (l : List α) : List (List α) :=
  (l.splitOnP p).filter fun piece => !piece.isEmpty

/-- A word: it is not empty and has no delimiter. -/
def IsWord (p : α → Bool) (w : List α) : Prop := w ≠ [] ∧ ∀ c ∈ w, p c = false

@[simp] theorem pieces_nil : pieces p [] = [] := rfl

/-- A delimiter cuts the pieces in front of it from the pieces behind it. -/
theorem pieces_append_cons (l m : List α) {d : α} (hd : p d = true) :
    pieces p (l ++ d :: m) = pieces p l ++ pieces p m := by
  rw [pieces, List.splitOnP_append_cons _ _ hd, List.filter_append]
  rfl

theorem pieces_cons (l : List α) {d : α} (hd : p d = true) : pieces p (d :: l) = pieces p l :=
  pieces_append_cons [] l hd

theorem pieces_concat (l : List α) {d : α} (hd : p d = true) : pieces p (l ++ [d]) = pieces p l := by
  rw [pieces_append_cons l [] hd, pieces_nil, List.append_nil]

/-- A list without delimiters is one piece. -/
theorem pieces_of_forall {w : List α} (h : ∀ c ∈ w, p c = false) :
    pieces p w = if w.isEmpty then [] else [w] := by
  rw [pieces, List.splitOnP_eq_singleton h]
  cases w <;> rfl

theorem pieces_word {w : List α} (h : IsWord p w) : pieces p w = [w] := by
  rw [pieces_of_forall h.2, if_neg (by simpa using h.1)]

/-- A word with a delimiter behind it is the first piece. -/
theorem pieces_word_append {w : List α} (h : IsWord p w) {d : α} (hd : p d = true) (l : List α) :
    pieces p (w ++ d :: l) = w :: pieces p l := by
  rw [pieces_append_cons w l hd, pieces_word h]
  rfl

/-- A list is a first part without delimiters, and either ends there or goes on with one. -/
theorem exists_first (p : α → Bool) (l : List α) :
    ∃ w, (∀ c ∈ w, p c = false) ∧ (l = w ∨ ∃ d m, p d = true ∧ l = w ++ d :: m) := by
  induction l with
  | nil => exact ⟨[], List.forall_mem_nil _, .inl rfl⟩
  | cons c l ih =>
      by_cases hc : p c = true
      · exact ⟨[], List.forall_mem_nil _, .inr ⟨c, l, hc, rfl⟩⟩
      · obtain ⟨w, hw, hl⟩ := ih
        refine ⟨c :: w, List.forall_mem_cons.mpr ⟨Bool.eq_false_iff.mpr hc, hw⟩, ?_⟩
        rcases hl with rfl | ⟨d, m, hd, rfl⟩
        · exact .inl rfl
        · exact .inr ⟨d, m, hd, rfl⟩

/-- Induction over the delimiters of a list. -/
theorem delimited_induction {motive : List α → Prop}
    (last : ∀ w, (∀ c ∈ w, p c = false) → motive w)
    (next : ∀ w d m, (∀ c ∈ w, p c = false) → p d = true → motive m → motive (w ++ d :: m))
    (l : List α) : motive l := by
  induction hn : l.length using Nat.strongRecOn generalizing l with
  | ind n ih =>
      obtain ⟨w, hw, rfl | ⟨d, m, hd, rfl⟩⟩ := exists_first p l
      · exact last l hw
      · refine next w d m hw hd (ih m.length ?_ m rfl)
        rw [← hn, List.length_append, List.length_cons]
        omega

/-- The pieces are words. -/
theorem isWord_of_mem {l w : List α} (h : w ∈ pieces p l) : IsWord p w := by
  have hfirst : ∀ {first : List α}, (∀ c ∈ first, p c = false) → w ∈ pieces p first →
      IsWord p w := by
    intro first hfirst hmem
    rw [pieces_of_forall hfirst] at hmem
    split_ifs at hmem with hempty
    · cases hmem
    · obtain rfl := List.mem_singleton.mp hmem
      exact ⟨by simpa using hempty, hfirst⟩
  induction l using delimited_induction (p := p) with
  | last first hw => exact hfirst hw h
  | next first d m hw hd ih =>
      rw [pieces_append_cons _ _ hd] at h
      rcases List.mem_append.mp h with h | h
      · exact hfirst hw h
      · exact ih h

theorem sum_length_of_forall {w : List α} (h : ∀ c ∈ w, p c = false) :
    ((pieces p w).map fun piece => piece.length + 1).sum ≤ w.length + 1 := by
  rw [pieces_of_forall h]
  split_ifs
  · exact Nat.zero_le _
  · exact Nat.le_of_eq (by rw [List.map_singleton, List.sum_singleton])

/-- The pieces fit in the list, with room for a delimiter behind each. -/
theorem sum_length_pieces (p : α → Bool) (l : List α) :
    ((pieces p l).map fun piece => piece.length + 1).sum ≤ l.length + 1 := by
  induction l using delimited_induction (p := p) with
  | last w hw => exact sum_length_of_forall hw
  | next w d m hw hd ih =>
      have hfirst := sum_length_of_forall hw
      rw [pieces_append_cons _ _ hd, List.map_append, List.sum_append, List.length_append,
        List.length_cons]
      omega

theorem length_pieces_of_forall_le {w : List α} (h : ∀ c ∈ w, p c = false) :
    (pieces p w).length ≤ 1 := by
  rw [pieces_of_forall h]
  split_ifs <;> simp

/-- Lists have at most as many pieces together as they have one by one. -/
theorem length_pieces_append_le (l m : List α) :
    (pieces p (l ++ m)).length ≤ (pieces p l).length + (pieces p m).length := by
  induction l using delimited_induction (p := p) with
  | last w hw =>
      cases w with
      | nil =>
          exact Nat.le_of_eq (by rw [List.nil_append, pieces_nil, List.length_nil, Nat.zero_add])
      | cons c w =>
          rw [pieces_word ⟨List.cons_ne_nil c w, hw⟩, List.length_singleton]
          obtain ⟨first, hfirst, rfl | ⟨d, m, hd, rfl⟩⟩ := exists_first p m
          · have hall := length_pieces_of_forall_le
              (fun x hx => (List.mem_append.mp hx).elim (hw x) (hfirst x) :
                ∀ x ∈ (c :: w) ++ m, p x = false)
            omega
          · have hall := length_pieces_of_forall_le
              (fun x hx => (List.mem_append.mp hx).elim (hw x) (hfirst x) :
                ∀ x ∈ (c :: w) ++ first, p x = false)
            rw [← List.append_assoc, pieces_append_cons _ _ hd, pieces_append_cons _ _ hd,
              List.length_append, List.length_append]
            omega
  | next w d l hw hd ih =>
      rw [List.append_assoc, List.cons_append, pieces_append_cons _ _ hd,
        pieces_append_cons _ _ hd, List.length_append, List.length_append]
      omega

/-- Words that are joined with delimiters. -/
theorem pieces_intercalate {ws : List (List α)} (h : ∀ w ∈ ws, IsWord p w) {d : α}
    (hd : p d = true) : pieces p (List.intercalate [d] ws) = ws := by
  induction ws with
  | nil => rfl
  | cons w ws ih =>
      obtain ⟨hw, hws⟩ := List.forall_mem_cons.mp h
      cases ws with
      | nil => rw [List.intercalate_singleton, pieces_word hw]
      | cons w' ws =>
          rw [List.intercalate_cons_cons, List.append_assoc, List.singleton_append,
            pieces_word_append hw hd, ih hws]

/-- A piece that goes on is longer. -/
theorem head_pieces_append {w : List α} (h : ∀ c ∈ w, p c = false) {c : α} (hc : p c = false)
    (l : List α) :
    ∃ rest ws, pieces p (w ++ c :: l) = (w ++ c :: rest) :: ws := by
  obtain ⟨first, hfirst, hl⟩ := exists_first p l
  have hword : IsWord p (w ++ c :: first) := by
    refine ⟨List.append_ne_nil_of_right_ne_nil _ (List.cons_ne_nil _ _), fun x hx => ?_⟩
    rcases List.mem_append.mp hx with hx | hx
    · exact h x hx
    · rcases List.mem_cons.mp hx with rfl | hx
      · exact hc
      · exact hfirst x hx
  rcases hl with rfl | ⟨d, m, hd, rfl⟩
  · exact ⟨l, [], pieces_word hword⟩
  · refine ⟨first, pieces p m, ?_⟩
    rw [← List.cons_append, ← List.append_assoc, pieces_word_append hword hd]

section Completed

/-- The pieces that have a delimiter behind them. -/
def completed (p : α → Bool) (l : List α) : List (List α) :=
  (l.splitOnP p).dropLast.filter fun piece => !piece.isEmpty

/-- No piece of a list without delimiters is completed. -/
theorem completed_of_forall {w : List α} (h : ∀ c ∈ w, p c = false) : completed p w = [] := by
  rw [completed, List.splitOnP_eq_singleton h]
  rfl

theorem completed_append_cons (l m : List α) {d : α} (hd : p d = true) :
    completed p (l ++ d :: m) = pieces p l ++ completed p m := by
  rw [completed, List.splitOnP_append_cons _ _ hd,
    List.dropLast_append_of_ne_nil (List.splitOnP_ne_nil _ _), List.filter_append]
  rfl

/-- A delimiter in front completes nothing. -/
theorem completed_cons (l : List α) {d : α} (hd : p d = true) :
    completed p (d :: l) = completed p l :=
  completed_append_cons [] l hd

/-- A word with a delimiter behind it is the first piece that is completed. -/
theorem completed_word_append {w : List α} (h : IsWord p w) {d : α} (hd : p d = true)
    (l : List α) : completed p (w ++ d :: l) = w :: completed p l := by
  rw [completed_append_cons w l hd, pieces_word h]
  rfl

/-- The lengths of the completed pieces, together. -/
def completedSize (p : α → Bool) (l : List α) : ℕ := ((completed p l).map List.length).sum

theorem completedSize_of_forall {w : List α} (h : ∀ c ∈ w, p c = false) :
    completedSize p w = 0 := by
  rw [completedSize, completed_of_forall h]
  rfl

theorem completedSize_cons (l : List α) {d : α} (hd : p d = true) :
    completedSize p (d :: l) = completedSize p l := by
  rw [completedSize, completed_cons l hd, completedSize]

theorem completedSize_append_cons {w : List α} (h : ∀ c ∈ w, p c = false) {d : α}
    (hd : p d = true) (l : List α) :
    completedSize p (w ++ d :: l) = w.length + completedSize p l := by
  rw [completedSize, completed_append_cons w l hd, pieces_of_forall h]
  cases w with
  | nil => exact (Nat.zero_add _).symm
  | cons c w => rfl

/-- What goes on in front of a list belongs to a completed piece if there is a delimiter in it. -/
theorem completedSize_append {w l : List α} (h : ∀ c ∈ w, p c = false) :
    completedSize p (w ++ l) = (if l.any p then w.length else 0) + completedSize p l := by
  obtain ⟨first, hfirst, rfl | ⟨d, m, hd, rfl⟩⟩ := exists_first p l
  · have hnone : l.any p = false := List.any_eq_false.mpr fun c hc => by
      rw [hfirst c hc]
      exact Bool.false_ne_true
    have hall : ∀ c ∈ w ++ l, p c = false := fun c hc =>
      (List.mem_append.mp hc).elim (h c) (hfirst c)
    rw [hnone, completedSize_of_forall hall, completedSize_of_forall hfirst,
      if_neg Bool.false_ne_true]
  · have hsome : (first ++ d :: m).any p = true :=
      List.any_eq_true.mpr ⟨d, List.mem_append_right _ (List.mem_cons_self ..), hd⟩
    have hall : ∀ c ∈ w ++ first, p c = false := fun c hc =>
      (List.mem_append.mp hc).elim (h c) (hfirst c)
    rw [hsome, if_pos rfl, ← List.append_assoc, completedSize_append_cons hall hd,
      completedSize_append_cons hfirst hd, List.length_append, Nat.add_assoc]

end Completed

section Cuts

/-- The pieces that are cut off a list one by one, each with delimiters of its own, until there is
nothing left but delimiters: the delimiters in front of a piece are skipped, and the one behind it
is dropped. -/
def cuts : List (α → Bool) → List α → List (List α)
  | [], _ => []
  | p :: ps, l =>
      match l.dropWhile p with
      | [] => []
      | c :: l =>
          (c :: l).takeWhile (fun c => !p c) :: cuts ps ((c :: l).dropWhile fun c => !p c).tail

theorem cuts_cons_of_eq_nil {l : List α} (ps : List (α → Bool)) (h : l.dropWhile p = []) :
    cuts (p :: ps) l = [] := by
  rw [cuts, h]

theorem cuts_cons_of_ne_nil {l : List α} (ps : List (α → Bool)) (h : l.dropWhile p ≠ []) :
    cuts (p :: ps) l = (l.dropWhile p).takeWhile (fun c => !p c) ::
      cuts ps ((l.dropWhile p).dropWhile fun c => !p c).tail := by
  obtain ⟨c, rest, hrest⟩ := List.exists_cons_of_ne_nil h
  rw [cuts, hrest]

/-- Delimiters in front do not count. -/
theorem pieces_dropWhile (p : α → Bool) (l : List α) : pieces p (l.dropWhile p) = pieces p l := by
  induction l with
  | nil => rfl
  | cons c l ih =>
      by_cases hc : p c = true
      · rw [List.dropWhile_cons_of_pos hc, ih, pieces_cons l hc]
      · rw [List.dropWhile_cons_of_neg hc]

/-- The first piece of a list that begins with none of its delimiters, and the others. -/
theorem pieces_eq_takeWhile_cons {c : α} {l : List α} (hc : p c = false) :
    pieces p (c :: l) = (c :: l).takeWhile (fun c => !p c) ::
      pieces p ((c :: l).dropWhile fun c => !p c).tail := by
  have hword : IsWord p ((c :: l).takeWhile fun c => !p c) := by
    constructor
    · rw [List.takeWhile_cons_of_pos (by rw [hc]; rfl)]
      exact List.cons_ne_nil _ _
    · intro x hx
      have hall := List.all_eq_true.mp (List.all_takeWhile (l := c :: l) (p := fun c => !p c))
      simpa using hall x hx
  have hsplit := List.takeWhile_append_dropWhile (p := fun c => !p c) (l := c :: l)
  cases hrest : (c :: l).dropWhile fun c => !p c with
  | nil =>
      rw [hrest, List.append_nil] at hsplit
      rw [hsplit] at hword
      rw [hsplit, List.tail_nil, pieces_nil, pieces_word hword]
  | cons d m =>
      have hd : p d = true := by
        have hhead := List.head_dropWhile_not (fun c => !p c) (l := c :: l)
          (by rw [hrest]; exact List.cons_ne_nil d m)
        simpa [hrest] using hhead
      conv_lhs => rw [← hsplit, hrest]
      exact pieces_word_append hword hd m

/-- With the same delimiters for all, the pieces between them are cut off. -/
theorem cuts_replicate (p : α → Bool) (k : ℕ) (l : List α) :
    cuts (List.replicate k p) l = (pieces p l).take k := by
  induction k generalizing l with
  | zero => rfl
  | succ k ih =>
      rw [List.replicate_succ]
      cases hrest : l.dropWhile p with
      | nil =>
          rw [cuts_cons_of_eq_nil _ hrest, ← pieces_dropWhile, hrest]
          rfl
      | cons c rest =>
          have hc : p c = false := by
            have hhead := List.head_dropWhile_not p (l := l)
              (by rw [hrest]; exact List.cons_ne_nil c rest)
            simpa [hrest] using hhead
          rw [cuts_cons_of_ne_nil _ (by rw [hrest]; exact List.cons_ne_nil c rest), hrest, ih,
            ← pieces_dropWhile p l, hrest, pieces_eq_takeWhile_cons hc, List.take_succ_cons]

end Cuts

end Pieces
