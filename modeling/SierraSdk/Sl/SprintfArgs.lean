import Mathlib.Algebra.GroupWithZero.Nat
import SierraSdk.Sl.Sprintf

/-!
# The arguments of a format

A format is read from one item to the next (`formatItems_cons`). The formatter reads no more
arguments for what its conversions write than `slcountfmtargs` counts (`takes_le_slcountfmtargs`);
the ones for widths and precisions are not counted.
-/

namespace SierraSdk

namespace Sl

section Parsing

/-- `slatol` returns the number that the digits denote, modulo `2 ^ 32`. -/
theorem slatolLoop_eq (placeholder result : UInt32) (cs : List UInt8) :
    slatolLoop placeholder result cs =
      result + placeholder *
        UInt32.ofNat (Nat.ofDigits 10 (cs.map fun c => (c - 0x30).toNat)) := by
  induction cs generalizing placeholder result with
  | nil => simp [slatolLoop]
  | cons c cs ih =>
      have hdigit : (c - 0x30).toUInt32 = UInt32.ofNat (c - 0x30).toNat := by
        apply UInt32.toNat_inj.mp
        simp
      rw [slatolLoop, ih, List.map_cons, Nat.ofDigits_cons, UInt32.ofNat_add, UInt32.ofNat_mul,
        hdigit]
      have hten : UInt32.ofNat 10 = 10 := rfl
      rw [hten]
      grind

theorem toNat_slatoi (sp : List UInt8) : (slatoi sp).toNat = decNumber sp % 65536 := by
  have hslatol : slatol sp = UInt32.ofNat (decNumber sp) := by
    rw [slatol, decNumber]
    split_ifs with hnone
    · rw [hnone]
      rfl
    · rw [slatolLoop_eq, denotes]
      simp
  rw [slatoi, hslatol, UInt32.toNat_toUInt16, UInt32.toNat_ofNat']
  omega

theorem digit_lt {c : UInt8} (h : slisdigit c = true) : (c - 0x30).toNat < 10 := by
  simp only [slisdigit, Bool.and_eq_true, decide_eq_true_eq] at h
  have hle : c.toNat ≤ 57 := UInt8.le_iff_toNat_le.mp h.2
  rw [UInt8.toNat_sub_of_le _ _ h.1]
  exact Nat.lt_of_le_of_lt (Nat.sub_le_sub_right hle 48) (by decide)

/-- A number that starts with a digit has its digits at the start. -/
theorem digitsOf_of_digit {c : UInt8} (h : slisdigit c = true) (cs : List UInt8) :
    digitsOf slisdigit (c :: cs) = (c :: cs).takeWhile slisdigit := by
  have hdrop : (c :: cs).dropWhile (· = blank) = c :: cs := by
    refine List.dropWhile_cons_of_neg ?_
    intro hblank
    rw [of_decide_eq_true hblank] at h
    exact Bool.noConfusion h
  rw [digitsOf, hdrop]

theorem length_digits_slatoi (sp : List UInt8) :
    (Nat.digits 10 (slatoi sp).toNat).length ≤ (digitsOf slisdigit sp).length := by
  rw [toNat_slatoi, Nat.digits_length_le_iff (by decide)]
  refine Nat.lt_of_le_of_lt (Nat.mod_le _ _) (denotes_lt _ _ (by decide) fun c hc => ?_)
  exact digit_lt (List.mem_takeWhile_imp hc)

/-- What is skipped of a format has no `%`. -/
def Skips (fmtp rest : List UInt8) : Prop :=
  ∃ skipped, fmtp = skipped ++ rest ∧ ∀ c ∈ skipped, c ≠ 0x25

theorem skips_refl (fmtp : List UInt8) : Skips fmtp fmtp :=
  ⟨[], rfl, List.forall_mem_nil _⟩

theorem skips_cons {c : UInt8} (h : c ≠ 0x25) (fmtp : List UInt8) : Skips (c :: fmtp) fmtp :=
  ⟨[c], rfl, List.forall_mem_singleton.mpr h⟩

theorem Skips.trans {fmtp rest rest' : List UInt8} (h : Skips fmtp rest) (h' : Skips rest rest') :
    Skips fmtp rest' := by
  obtain ⟨skipped, rfl, hskipped⟩ := h
  obtain ⟨skipped', rfl, hskipped'⟩ := h'
  refine ⟨skipped ++ skipped', (List.append_assoc ..).symm, fun c hc => ?_⟩
  exact (List.mem_append.mp hc).elim (hskipped c) (hskipped' c)

theorem skips_parseFlags (fmtp : List UInt8) : Skips fmtp (parseFlags fmtp).2 := by
  cases fmtp with
  | nil => exact skips_refl []
  | cons c fmtp =>
    rw [parseFlags]
    split_ifs with h h h h h
    · exact skips_cons (by rw [h]; decide) fmtp
    · exact skips_cons (by rw [h]; decide) fmtp
    · exact skips_cons (by rw [h]; decide) fmtp
    · exact skips_cons (by rw [h]; decide) fmtp
    · exact skips_cons (by rw [h]; decide) fmtp
    · exact skips_refl _

theorem skips_parseCount (fmtp : List UInt8) : Skips fmtp (parseCount fmtp).2 := by
  cases fmtp with
  | nil => exact skips_refl []
  | cons c fmtp =>
    rw [parseCount]
    split_ifs with hdigit hstar
    · have hlength := length_digits_slatoi (c :: fmtp)
      rw [digitsOf_of_digit hdigit] at hlength
      refine ⟨(c :: fmtp).take (Nat.digits 10 (slatoi (c :: fmtp)).toNat).length,
        (List.take_append_drop _ _).symm, fun d hd => ?_⟩
      have hdigits : d ∈ (c :: fmtp).takeWhile slisdigit := by
        refine List.IsPrefix.subset ?_ hd
        have htake := List.takeWhile_prefix (l := c :: fmtp) slisdigit
        exact List.prefix_of_prefix_length_le (List.take_prefix _ _) htake
          (Nat.le_trans (List.length_take_le _ _) hlength)
      rintro rfl
      exact absurd (List.mem_takeWhile_imp hdigits) (by decide)
    · exact skips_cons (by rw [hstar]; decide) fmtp
    · exact skips_refl _

theorem skips_parsePrecision (fmtp : List UInt8) : Skips fmtp (parsePrecision fmtp).2 := by
  cases fmtp with
  | nil => exact skips_refl []
  | cons c fmtp =>
    rw [parsePrecision]
    split_ifs with hpoint
    · have hne : c ≠ 0x25 := by
        rw [hpoint]
        decide
      have hskips := (skips_cons hne fmtp).trans (skips_parseCount fmtp)
      split
      · rename_i hcount
        rw [hcount] at hskips
        exact hskips
      · rename_i hcount
        rw [hcount] at hskips
        exact hskips
    · exact skips_refl _

theorem skips_parseQualifier (fmtp : List UInt8) : Skips fmtp (parseQualifier fmtp).2 := by
  cases fmtp with
  | nil => exact skips_refl []
  | cons c fmtp =>
    rw [parseQualifier]
    split_ifs with h
    · refine skips_cons ?_ fmtp
      rcases h with rfl | rfl <;> decide
    · exact skips_refl _

/-- A conversion is parsed up to its specifier without a `%`. -/
theorem parseConversion_skips (fmtp : List UInt8) :
    ∃ rest, Skips fmtp rest ∧ (parseConversion fmtp).1.specifier = rest.head? ∧
      (parseConversion fmtp).2 = rest.tail :=
  ⟨_, (((skips_parseFlags fmtp).trans (skips_parseCount _)).trans (skips_parsePrecision _)).trans
    (skips_parseQualifier _), rfl, rfl⟩

theorem Skips.length_le {fmtp rest : List UInt8} (h : Skips fmtp rest) :
    rest.length ≤ fmtp.length := by
  obtain ⟨skipped, rfl, -⟩ := h
  rw [List.length_append]
  exact Nat.le_add_left _ _

theorem nextItem_length_le (c : UInt8) (fmtp : List UInt8) :
    (nextItem c fmtp).2.length ≤ fmtp.length := by
  rw [nextItem]
  split_ifs
  · obtain ⟨rest, hskips, -, htail⟩ := parseConversion_skips fmtp
    rw [htail, List.length_tail]
    exact Nat.le_trans (Nat.sub_le _ _) hskips.length_le
  · exact Nat.le_refl _

theorem takeItems_congr {n m : ℕ} {fmtp : List UInt8} (hn : fmtp.length ≤ n)
    (hm : fmtp.length ≤ m) : takeItems n fmtp = takeItems m fmtp := by
  induction n generalizing m fmtp with
  | zero =>
    rw [List.eq_nil_of_length_eq_zero (Nat.le_zero.mp hn), takeItems, takeItems]
  | succ n ih =>
    cases fmtp with
    | nil => rw [takeItems, takeItems]
    | cons c fmtp =>
      cases m with
      | zero => exact absurd hm (Nat.not_succ_le_zero _)
      | succ m =>
        have hle := nextItem_length_le c fmtp
        rw [List.length_cons] at hn hm
        rw [takeItems, takeItems, @ih m _ (by omega) (by omega)]

@[simp] theorem formatItems_nil : formatItems [] = [] := rfl

theorem formatItems_cons (c : UInt8) (fmtp : List UInt8) :
    formatItems (c :: fmtp) = (nextItem c fmtp).1 :: formatItems (nextItem c fmtp).2 := by
  have hle := nextItem_length_le c fmtp
  rw [formatItems, List.length_cons, takeItems, formatItems, takeItems_congr hle (Nat.le_refl _)]

theorem slcountfmtargs_cons_of_ne {c : UInt8} (h : c ≠ 0x25) (scp : List UInt8) :
    slcountfmtargs (c :: scp) = slcountfmtargs scp := by
  cases scp with
  | nil => exact if_neg h
  | cons d scp => rw [slcountfmtargs, if_neg h]

theorem Skips.slcountfmtargs_eq {fmtp rest : List UInt8} (h : Skips fmtp rest) :
    slcountfmtargs fmtp = slcountfmtargs rest := by
  obtain ⟨skipped, rfl, hskipped⟩ := h
  induction skipped with
  | nil => rfl
  | cons c skipped ih =>
    obtain ⟨hc, hskipped⟩ := List.forall_mem_cons.mp hskipped
    rw [List.cons_append, slcountfmtargs_cons_of_ne hc, ih hskipped]

theorem slcountfmtargs_percent_cons_of_ne {d : UInt8} (h : d ≠ 0x25) (scp : List UInt8) :
    slcountfmtargs (0x25 :: d :: scp) = slcountfmtargs (d :: scp) + 1 := by
  rw [slcountfmtargs, if_pos rfl, if_neg h]

end Parsing

section Counting

/-- The specifiers that read an argument: `c`, `s`, `p`, `n` and the ones of numbers. -/
def readsArg (c : UInt8) : Bool := c = 0x63 || c = 0x73 || c = 0x70 || c = 0x6e || isNumber c

/-- How many arguments a width or a precision is read from. -/
def Count.args : Count → ℕ
  | .argument => 1
  | _ => 0

/-- The arguments that an item reads for its width and its precision, and the one that it writes. -/
def Item.stars : Item → ℕ
  | .character _ => 0
  | .conversion conv => conv.field_width.args + conv.precision.args

def Item.takes : Item → ℕ
  | .character _ => 0
  | .conversion conv => if conv.specifier.any readsArg then 1 else 0

def Item.args (item : Item) : ℕ := item.stars + item.takes

theorem Item.takes_le_one (item : Item) : item.takes ≤ 1 := by
  cases item with
  | character c => exact Nat.zero_le 1
  | conversion conv =>
    rw [Item.takes]
    split_ifs
    · exact Nat.le_refl 1
    · exact Nat.zero_le 1

/-- The arguments that are read for what the conversions of a format write. -/
def takes (fmtp : List UInt8) : ℕ := ((formatItems fmtp).map Item.takes).sum

theorem takes_cons (c : UInt8) (fmtp : List UInt8) :
    takes (c :: fmtp) = (nextItem c fmtp).1.takes + takes (nextItem c fmtp).2 := by
  rw [takes, formatItems_cons, List.map_cons, List.sum_cons, takes]

theorem takes_cons_of_ne {c : UInt8} (h : c ≠ 0x25) (fmtp : List UInt8) :
    takes (c :: fmtp) = takes fmtp := by
  rw [takes_cons, nextItem, if_neg h]
  exact Nat.zero_add _

/-- A conversion that ends with the format or with a `%` reads nothing, and another one at most one
argument. -/
theorem takes_percent_cons (fmtp : List UInt8) :
    ∃ rest, Skips fmtp rest ∧
      ((rest = [] ∧ takes (0x25 :: fmtp) = 0) ∨
        (∃ rest', rest = 0x25 :: rest' ∧ takes (0x25 :: fmtp) = takes rest') ∨
        ∃ d rest', rest = d :: rest' ∧ d ≠ 0x25 ∧ takes (0x25 :: fmtp) ≤ takes rest' + 1) := by
  obtain ⟨rest, hskips, hspecifier, htail⟩ := parseConversion_skips fmtp
  refine ⟨rest, hskips, ?_⟩
  rw [takes_cons, nextItem, if_pos rfl]
  simp only [htail]
  cases rest with
  | nil =>
    refine .inl ⟨rfl, ?_⟩
    rw [Item.takes, hspecifier]
    rfl
  | cons d rest =>
    by_cases hpercent : d = 0x25
    · refine .inr (.inl ⟨rest, by rw [hpercent], ?_⟩)
      rw [Item.takes, hspecifier, hpercent]
      exact Nat.zero_add _
    · refine .inr (.inr ⟨d, rest, rfl, hpercent, ?_⟩)
      have hone := Item.takes_le_one (.conversion (parseConversion fmtp).1)
      rw [List.tail_cons]
      omega

theorem Skips.eq_of_percent {fmtp rest : List UInt8} (h : Skips (0x25 :: fmtp) rest) :
    rest = 0x25 :: fmtp := by
  obtain ⟨skipped, heq, hskipped⟩ := h
  cases skipped with
  | nil => exact heq.symm
  | cons c skipped => exact absurd (List.cons.inj heq).1.symm (hskipped c List.mem_cons_self)

/-- Without the ones for widths and precisions no more arguments are read than are counted. The
formatter may be one `%` ahead of the count, which then has counted one for it. -/
theorem takes_le_slcountfmtargs (fmtp : List UInt8) :
    takes fmtp ≤ slcountfmtargs fmtp ∧ takes fmtp ≤ slcountfmtargs (0x25 :: fmtp) + 1 := by
  induction hlength : fmtp.length using Nat.strong_induction_on generalizing fmtp with
  | h n ih =>
    cases fmtp with
    | nil => exact ⟨Nat.zero_le _, Nat.zero_le _⟩
    | cons c fmtp =>
      rw [List.length_cons] at hlength
      by_cases hc : c = 0x25
      · subst hc
        obtain ⟨rest, hskips, hcases⟩ := takes_percent_cons fmtp
        have hcount := hskips.slcountfmtargs_eq
        have hle := hskips.length_le
        -- the conversion read at most one argument more than the count of what is behind the `%`
        have hone : takes (0x25 :: fmtp) ≤ slcountfmtargs fmtp + 1 := by
          rcases hcases with ⟨-, hzero⟩ | ⟨rest', rfl, hrest⟩ | ⟨d, rest', rfl, hd, hrest⟩
          · omega
          · rw [List.length_cons] at hle
            have hih := (ih rest'.length (by omega) rest' rfl).2
            omega
          · rw [List.length_cons] at hle
            rw [slcountfmtargs_cons_of_ne hd] at hcount
            have hih := (ih rest'.length (by omega) rest' rfl).1
            omega
        refine ⟨?_, ?_⟩
        · cases fmtp with
          | nil => exact hone
          | cons d fmtp =>
            by_cases hd : d = 0x25
            · subst hd
              obtain rfl := hskips.eq_of_percent
              rw [slcountfmtargs, if_pos rfl, if_pos rfl]
              rw [List.length_cons] at hlength
              rcases hcases with ⟨hnil, -⟩ | ⟨rest', hrest, htakes⟩ | ⟨d', rest', hrest, hd', -⟩
              · exact absurd hnil (List.cons_ne_nil _ _)
              · obtain rfl := (List.cons.inj hrest).2
                rw [htakes]
                exact (ih fmtp.length (by omega) fmtp rfl).1
              · exact absurd (List.cons.inj hrest).1.symm hd'
            · rw [slcountfmtargs_percent_cons_of_ne hd]
              exact hone
        · rw [slcountfmtargs, if_pos rfl, if_pos rfl]
          exact hone
      · have hih := (ih fmtp.length (by omega) fmtp rfl).1
        rw [takes_cons_of_ne hc, slcountfmtargs_cons_of_ne hc]
        refine ⟨hih, ?_⟩
        rw [slcountfmtargs_percent_cons_of_ne hc, slcountfmtargs_cons_of_ne hc]
        omega

end Counting

end Sl

end SierraSdk
