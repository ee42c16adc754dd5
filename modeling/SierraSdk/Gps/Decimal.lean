import SierraSdk.Gps.Nmea

/-!
# Numbers in decimal digits

`decimal` is the number that digits stand for. `str2int` finds it in up to nine digits, and `-1`
where there is none (`str2int_eq`).
-/

namespace SierraSdk

namespace Gps

/-- The number that decimal digits stand for. -/
def decimal (cs : List UInt8) : Option ℕ :=
  if cs ≠ [] ∧ cs.all isDigit then some (cs.foldl (fun n c => n * 10 + (c.toNat - 48)) 0) else none

theorem isDigit_toNat {c : UInt8} (h : isDigit c = true) : 48 ≤ c.toNat ∧ c.toNat ≤ 57 := by
  simpa [isDigit, UInt8.le_iff_toNat_le] using h

theorem foldl_digits (cs : List UInt8) : ∀ (k n : ℕ), cs.all isDigit → n < 10 ^ k →
    k + cs.length ≤ 9 →
      cs.foldl (fun result c => wrap (result * 10 + (c.toNat - 48))) (n : ℤ) =
        (cs.foldl (fun n c => n * 10 + (c.toNat - 48)) n : ℕ) ∧
      cs.foldl (fun n c => n * 10 + (c.toNat - 48)) n < 10 ^ (k + cs.length) := by
  induction cs with
  | nil => intro k n _ hn _; exact ⟨rfl, hn⟩
  | cons c cs ih =>
      intro k n hdigits hn hk
      obtain ⟨hc, hcs⟩ := (Bool.and_eq_true _ _).mp (List.all_cons ▸ hdigits)
      obtain ⟨hlow, hhigh⟩ := isDigit_toNat hc
      have hlen : k + 1 + cs.length ≤ 9 := by rw [List.length_cons] at hk; omega
      have hn' : n * 10 + (c.toNat - 48) < 10 ^ (k + 1) := by rw [pow_succ]; omega
      have hbound : 10 ^ (k + 1) ≤ 10 ^ 9 := Nat.pow_le_pow_right (by decide) (by omega)
      have hwrap : wrap ((n : ℤ) * 10 + (c.toNat - 48)) = ((n * 10 + (c.toNat - 48) : ℕ) : ℤ) := by
        have hcast : ((n * 10 + (c.toNat - 48) : ℕ) : ℤ) = (n : ℤ) * 10 + (c.toNat - 48) := by omega
        rw [hcast, wrap]
        exact Int.bmod_eq_of_le (by omega) (by omega)
      rw [List.foldl_cons, List.foldl_cons, hwrap, List.length_cons, Nat.add_comm cs.length 1,
        ← Nat.add_assoc]
      exact ih (k + 1) _ hcs hn' hlen

/-- Up to nine digits are a number. -/
theorem str2int_eq (tok : Token) (h : tok.chars.length ≤ 9) :
    str2int tok = ((decimal tok.chars).map Nat.cast).getD (-1) := by
  rw [str2int, decimal]
  by_cases hempty : tok.chars = []
  · rw [if_pos hempty, if_neg (fun hd => hd.1 hempty)]
    rfl
  · by_cases hdigits : tok.chars.all isDigit
    · have hfold := (foldl_digits tok.chars 0 0 hdigits (by decide) (by omega)).1
      rw [if_neg hempty, if_pos hdigits, if_pos ⟨hempty, hdigits⟩]
      exact hfold
    · rw [if_neg hempty, if_neg hdigits, if_neg (fun hd => hdigits hd.2)]
      rfl

theorem decimal_lt {cs : List UInt8} {n : ℕ} (hlen : cs.length ≤ 9) (h : decimal cs = some n) :
    n < 10 ^ cs.length := by
  rw [decimal] at h
  split_ifs at h with hd
  obtain rfl := Option.some.inj h
  have hfold := (foldl_digits cs 0 0 hd.2 (by decide) (by omega)).2
  rwa [Nat.zero_add] at hfold

theorem decimal_of_digits {cs : List UInt8} (hne : cs ≠ []) (h : cs.all isDigit) :
    decimal cs = some (cs.foldl (fun n c => n * 10 + (c.toNat - 48)) 0) :=
  if_pos ⟨hne, h⟩

/-- A zero behind a number makes it ten times as large. -/
theorem decimal_append_zero {cs : List UInt8} {n : ℕ} (h : decimal cs = some n) :
    decimal (cs ++ [48]) = some (n * 10) := by
  rw [decimal] at h
  split_ifs at h with hd
  obtain rfl := Option.some.inj h
  rw [decimal_of_digits (List.append_ne_nil_of_right_ne_nil _ (List.cons_ne_nil _ _))
    (by rw [List.all_append, hd.2]; rfl), List.foldl_append]
  rfl

end Gps

end SierraSdk
