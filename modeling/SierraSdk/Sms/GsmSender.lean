import SierraSdk.Sms.GsmReceived

/-!
# A number that is swapped and swapped again

`Swapchars` finds the length of a number with `strlen` and has it in an `INT8`. `ExtractSMSSent`
calls it before the number is terminated, so that what stands behind the number in the memory of
the caller counts too. The number is found exactly if that length is between 2 and 127 and no pair
that it leaves out is changed by a swap (`senderFound_iff`).
-/

namespace SierraSdk

namespace Sms

open Memory

section Pairs

theorem length_swapPairs (k : ℕ) (l : List UInt8) : (swapPairs k l).length = l.length := by
  induction k, l using swapPairs.induct with
  | case1 n a b rest ih =>
      rw [swapPairs, List.length_cons, List.length_cons, ih]
      rfl
  | case2 n l h =>
      rw [swapPairs]
      exact h

theorem swapPairs_swapPairs (k : ℕ) (l : List UInt8) : swapPairs k (swapPairs k l) = l := by
  induction k, l using swapPairs.induct with
  | case1 n a b rest ih => rw [swapPairs, swapPairs, ih]
  | case2 n l h =>
      have hsame : swapPairs n l = l := by
        rw [swapPairs]
        exact h
      rw [hsame, hsame]

theorem swapPairs_perm (k : ℕ) (l : List UInt8) : (swapPairs k l).Perm l := by
  induction k, l using swapPairs.induct with
  | case1 n a b rest ih =>
      rw [swapPairs]
      exact ((ih.cons a).cons b).trans (List.Perm.swap a b rest)
  | case2 n l h =>
      rw [swapPairs]
      exact h

/-- Pairs at the beginning, and pairs behind them. -/
theorem swapPairs_append {j : ℕ} {xs : List UInt8} (h : xs.length = 2 * j) (k : ℕ)
    (ys : List UInt8) : swapPairs (j + k) (xs ++ ys) = swapPairs j xs ++ swapPairs k ys := by
  induction j generalizing xs with
  | zero =>
      have hnil := List.eq_nil_of_length_eq_zero h
      rw [hnil, Nat.zero_add]
      cases k <;> rfl
  | succ j ih =>
      match xs, h with
      | a :: b :: xs, h =>
        have hlen : xs.length = 2 * j := by
          rw [List.length_cons, List.length_cons] at h
          omega
        have hsucc : j + 1 + k = j + k + 1 := by omega
        rw [hsucc, List.cons_append, List.cons_append, swapPairs, ih hlen, swapPairs]
        rfl

/-- Pairs of equal characters are not changed. -/
theorem swapPairs_eq_self_iff {k : ℕ} {l : List UInt8} (h : l.length = 2 * k) :
    swapPairs k l = l ↔ ∀ i < k, l.getD (2 * i) 0 = l.getD (2 * i + 1) 0 := by
  induction k generalizing l with
  | zero => simp [swapPairs]
  | succ k ih =>
      match l, h with
      | a :: b :: l, h =>
        have hlen : l.length = 2 * k := by
          rw [List.length_cons, List.length_cons] at h
          omega
        rw [swapPairs, List.cons.injEq, List.cons.injEq, ih hlen]
        constructor
        · rintro ⟨hba, -, hrest⟩ i hi
          cases i with
          | zero => exact hba.symm
          | succ i => exact hrest i (Nat.lt_of_succ_lt_succ hi)
        · intro hall
          have hab : a = b := hall 0 (Nat.succ_pos k)
          exact ⟨hab.symm, hab, fun i hi => hall (i + 1) (Nat.succ_lt_succ hi)⟩

end Pairs

/-- A number: neither NUL, nor a newline, nor the filler is in it. -/
structure IsNumber (number : List UInt8) : Prop where
  ne_nil : number ≠ []
  nul : 0 ∉ number
  newline : enterKey ∉ number
  filler : 70 ∉ number

/-- `Length` of `Swapchars`, if a number is swapped with something behind it. -/
def swapLength (number stale : List UInt8) : Int8 :=
  (UInt8.ofNat ((tmpNumber number).1.length + (cString stale).length)).toInt8

/-- The length is accepted, and the pairs that it leaves out are of equal characters. -/
def SenderFound (number stale : List UInt8) : Prop :=
  1 < swapLength number stale ∧
    ∀ i, (swapLength number stale).toInt.toNat / 2 ≤ i → 2 * i + 1 < (tmpNumber number).1.length →
      (tmpNumber number).1.getD (2 * i) 0 = (tmpNumber number).1.getD (2 * i + 1) 0

section Number

variable {number : List UInt8}

/-- The number in pairs. -/
structure InPairs (number tmp : List UInt8) (m : ℕ) : Prop where
  length : tmp.length = 2 * m
  pos : 0 < m
  nul : 0 ∉ tmp
  take : tmp.take number.length = number
  short : tmp.length ≤ number.length + 1

theorem inPairs_tmpNumber (h : IsNumber number) :
    InPairs number (tmpNumber number).1 ((number.length + 1) / 2) ∧
      (tmpNumber number).2 = number.length := by
  have hpos := List.length_pos_iff.mpr h.ne_nil
  rw [tmpNumber, if_neg h.newline]
  refine ⟨?_, rfl⟩
  change InPairs number (if number.length % 2 ≠ 0 then number ++ [70] else number) _
  split_ifs with hodd
  · constructor
    · rw [List.length_append, List.length_singleton]
      omega
    · omega
    · rw [List.mem_append, not_or]
      exact ⟨h.nul, by decide⟩
    · exact List.take_left
    · exact Nat.le_of_eq List.length_append
  · constructor
    · omega
    · omega
    · exact h.nul
    · exact List.take_length
    · exact Nat.le_succ _

/-- Characters that are moved are the same ones if all but the last are. -/
theorem eq_of_perm_of_take_eq {xs ys : List UInt8} {n : ℕ} (hperm : xs.Perm ys)
    (hn : ys.length ≤ n + 1) (htake : xs.take n = ys.take n) : xs = ys := by
  have hlen := hperm.length_eq
  have hdrop : (xs.drop n).Perm (ys.drop n) := by
    rw [← List.take_append_drop n xs, ← List.take_append_drop n ys, htake,
      List.perm_append_left_iff] at hperm
    exact hperm
  have hsame : xs.drop n = ys.drop n := by
    have hshort : (ys.drop n).length ≤ 1 := by
      rw [List.length_drop]
      omega
    rcases hys : ys.drop n with _ | ⟨a, rest⟩
    · rw [hys] at hdrop
      exact hdrop.eq_nil
    · have hrest : rest = [] := by
        rw [hys, List.length_cons] at hshort
        exact List.eq_nil_of_length_eq_zero (by omega)
      rw [hys, hrest] at hdrop
      rw [hrest]
      exact List.perm_singleton.mp hdrop
  rw [← List.take_append_drop n xs, ← List.take_append_drop n ys, htake, hsame]

/-- What is left of a number that is terminated, and whose filler is cleared. -/
theorem cString_clearFiller_iff {tmp xs : List UInt8} {m : ℕ} (h : IsNumber number)
    (hpairs : InPairs number tmp m) (hperm : xs.Perm tmp) (rest : List UInt8)
    (hroom : number.length < xs.length + rest.length) :
    cString (clearFiller ((xs ++ rest).set number.length 0) number.length) = number ↔ xs = tmp := by
  have hpos := List.length_pos_iff.mpr h.ne_nil
  have hlen := hperm.length_eq
  have htmp : number.length ≤ tmp.length := by
    rw [← hpairs.take, List.length_take]
    omega
  have hnul : ∀ n, 0 ∉ xs.take n := fun n hmem =>
    hpairs.nul (hperm.mem_iff.mp (List.mem_of_mem_take hmem))
  have hset : (xs ++ rest).set number.length 0 =
      xs.take number.length ++ 0 :: (xs ++ rest).drop (number.length + 1) := by
    rw [List.set_eq_take_append_cons_drop, if_pos (by rw [List.length_append]; exact hroom),
      List.take_append_of_le_length (by omega)]
  have htake : (xs.take number.length).length = number.length := by
    rw [List.length_take]
    omega
  have hlast : ((xs ++ rest).set number.length 0).getD (number.length - 1) 0 =
      (xs.take number.length).getD (number.length - 1) 0 := by
    rw [hset, List.getD_append _ _ _ _ (by omega)]
  have hnumber : xs.take number.length = number ↔ xs = tmp := by
    constructor
    · intro heq
      exact eq_of_perm_of_take_eq hperm hpairs.short (heq.trans hpairs.take.symm)
    · rintro rfl
      exact hpairs.take
  have hend : ∀ ys : List UInt8, cString (0 :: ys) = [] := fun _ => rfl
  rw [← hnumber, clearFiller, hlast]
  split_ifs with hfiller
  · -- a number has no filler, and is longer than what is left
    refine iff_of_false (fun heq => ?_) fun heq => ?_
    · have hcut : ((xs ++ rest).set number.length 0).take (number.length - 1) =
          xs.take (number.length - 1) := by
        rw [hset, List.take_append_of_le_length (by omega), List.take_take,
          Nat.min_eq_left (Nat.sub_le _ _)]
      rw [List.set_eq_take_append_cons_drop, if_pos (by simp; omega), hcut,
        cString_append (hnul _), hend, List.append_nil] at heq
      have hshort := congrArg List.length heq
      rw [List.length_take] at hshort
      omega
    · have hmem : number.getD (number.length - 1) 0 ∈ number := by
        rw [List.getD_eq_getElem _ _ (by omega)]
        exact List.getElem_mem _
      rw [heq] at hfiller
      exact h.filler (hfiller.2 ▸ hmem)
  · rw [hset, cString_append (hnul _), hend, List.append_nil]

/-- What `Swapchars` makes of a number that was swapped, with something behind it. -/
theorem swapchars_swapped {tmp : List UInt8} {m : ℕ} (hpairs : InPairs number tmp m)
    (htmp : tmp = (tmpNumber number).1) (stale : List UInt8) :
    Swapchars (swapPairs m tmp ++ stale) =
      if swapLength number stale ≤ 1 then (.smscNumCorrupted, swapPairs m tmp ++ stale)
      else (.none, swapPairs ((swapLength number stale).toInt.toNat / 2)
        (swapPairs m tmp ++ stale)) := by
  have hnul : 0 ∉ swapPairs m tmp := fun hmem =>
    hpairs.nul ((swapPairs_perm m tmp).mem_iff.mp hmem)
  have hlen : (cString (swapPairs m tmp ++ stale)).length =
      (tmpNumber number).1.length + (cString stale).length := by
    rw [cString_append hnul, List.length_append, length_swapPairs, htmp]
  rw [Swapchars, hlen]
  rfl

/-- Some of the pairs are swapped again. -/
theorem swapPairs_again {tmp : List UInt8} {m : ℕ} (hlen : tmp.length = 2 * m) (j : ℕ)
    (stale : List UInt8) :
    ∃ xs rest, swapPairs j (swapPairs m tmp ++ stale) = xs ++ rest ∧ xs.Perm tmp ∧
      rest.length = stale.length ∧
      (xs = tmp ↔ ∀ i, j ≤ i → 2 * i + 1 < tmp.length →
        tmp.getD (2 * i) 0 = tmp.getD (2 * i + 1) 0) := by
  rcases Nat.le_total m j with hle | hle
  · obtain ⟨k, rfl⟩ := Nat.exists_eq_add_of_le hle
    refine ⟨tmp, swapPairs k stale, ?_, List.Perm.refl _, length_swapPairs _ _, ?_⟩
    · rw [swapPairs_append ((length_swapPairs m tmp).trans hlen), swapPairs_swapPairs]
    · exact iff_of_true rfl fun i hi hlt => absurd hlt (by omega)
  · obtain ⟨k, rfl⟩ := Nat.exists_eq_add_of_le hle
    have hsplit : tmp = tmp.take (2 * j) ++ tmp.drop (2 * j) := (List.take_append_drop _ _).symm
    have htake : (tmp.take (2 * j)).length = 2 * j := by
      rw [List.length_take]
      omega
    have hdrop : (tmp.drop (2 * j)).length = 2 * k := by
      rw [List.length_drop]
      omega
    have hfirst : swapPairs (j + k) tmp =
        swapPairs j (tmp.take (2 * j)) ++ swapPairs k (tmp.drop (2 * j)) := by
      conv_lhs => rw [hsplit]
      exact swapPairs_append htake k _
    have hzero : ∀ ys : List UInt8, swapPairs 0 ys = ys := fun ys => by rw [swapPairs]; simp
    refine ⟨tmp.take (2 * j) ++ swapPairs k (tmp.drop (2 * j)), stale, ?_, ?_, rfl, ?_⟩
    · have hagain := swapPairs_append ((length_swapPairs j _).trans htake) 0
        (swapPairs k (tmp.drop (2 * j)) ++ stale)
      rw [Nat.add_zero, swapPairs_swapPairs, hzero] at hagain
      rw [hfirst, List.append_assoc, hagain, List.append_assoc]
    · conv_rhs => rw [hsplit]
      exact (swapPairs_perm k _).append_left _
    · have hrest : tmp.take (2 * j) ++ swapPairs k (tmp.drop (2 * j)) = tmp ↔
          swapPairs k (tmp.drop (2 * j)) = tmp.drop (2 * j) :=
        ⟨fun heq => List.append_cancel_left (heq.trans hsplit),
          fun heq => by rw [heq, List.take_append_drop]⟩
      have hget : ∀ i, (tmp.drop (2 * j)).getD i 0 = tmp.getD (2 * j + i) 0 := by
        intro i
        rw [List.getD_eq_getElem?_getD, List.getElem?_drop, ← List.getD_eq_getElem?_getD]
      rw [hrest, swapPairs_eq_self_iff hdrop]
      simp only [hget]
      constructor
      · intro hall i hi hlt
        obtain ⟨d, rfl⟩ := Nat.exists_eq_add_of_le hi
        have hd := hall d (by omega)
        rwa [← Nat.add_assoc, ← Nat.mul_add] at hd
      · intro hall i hi
        rw [← Nat.add_assoc, ← Nat.mul_add]
        exact hall (j + i) (Nat.le_add_right j i) (by omega)

/-- A number that was swapped is found in the memory of the caller. -/
theorem senderFound_iff (h : IsNumber number) (stale : List UInt8)
    (hroom : number.length < (tmpNumber number).1.length + stale.length) :
    ((Swapchars (swapPairs ((number.length + 1) / 2) (tmpNumber number).1 ++ stale)).1 = .none ∧
        cString (clearFiller ((Swapchars (swapPairs ((number.length + 1) / 2)
          (tmpNumber number).1 ++ stale)).2.set number.length 0) number.length) = number) ↔
      SenderFound number stale := by
  obtain ⟨hpairs, -⟩ := inPairs_tmpNumber h
  rw [swapchars_swapped hpairs rfl]
  by_cases hshort : swapLength number stale ≤ 1
  · rw [if_pos hshort]
    refine iff_of_false (fun hfound => ?_) fun hfound => ?_
    · exact PduRc.noConfusion hfound.1
    · exact absurd hfound.1 (Int8.not_lt.mpr hshort)
  · obtain ⟨xs, rest, hagain, hperm, hrest, hiff⟩ := swapPairs_again hpairs.length
      ((swapLength number stale).toInt.toNat / 2) stale
    have hlen := hperm.length_eq
    rw [if_neg hshort]
    simp only [hagain]
    rw [cString_clearFiller_iff h hpairs hperm rest (by omega), hiff]
    exact ⟨fun hfound => ⟨Int8.not_le.mp hshort, hfound.2⟩, fun hfound => ⟨trivial, hfound.2⟩⟩

end Number

end Sms

end SierraSdk
