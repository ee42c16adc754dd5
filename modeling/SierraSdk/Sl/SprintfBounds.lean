import SierraSdk.Sl.SprintfArgs

/-!
# The bounds of formatted texts

Every item is written up to the maximum length (`bounded_printItems`), and so what `slvsprintflen`
writes is what it writes without a maximum, cut. Without a maximum all items are written if the
digits of the numbers fit their buffer (`printItems_of_fit`), which is a question of the numbers in
octal alone (`octalFits_iff`).
-/

namespace SierraSdk

namespace Sl

open BoundedText

section Writers

theorem slstrnlen_le (sp : List UInt8) (count : ℤ) : slstrnlen sp count ≤ sp.length := by
  rw [slstrnlen]
  split_ifs
  · exact Nat.le_refl _
  · exact Nat.min_le_right _ _

theorem length_signOf_le (type : TypeMask) (num : UInt32) : (signOf type num).length ≤ 1 := by
  rw [signOf]
  split_ifs <;> simp

theorem bounded_slnumberlen (num : UInt32) (base : ℕ) (size precision : ℤ) (type : TypeMask) :
    Bounded fun maxlen strp => slnumberlen maxlen strp num base size precision type :=
  (bounded_failed _).ite ((bounded_failed _).ite ((bounded_puts _).andThen
    ((bounded_checked (length_signOf_le type num)).andThen ((bounded_puts _).andThen
      ((bounded_puts _).andThen ((bounded_puts _).andThen
        ((bounded_puts _).andThen (bounded_puts _))))))))

theorem bounded_printString (sp : List UInt8) (flags : TypeMask) (field_width precision : ℤ) :
    Bounded fun maxlen strp => printString maxlen sp flags field_width precision strp :=
  (bounded_puts _).andThen ((bounded_puts _).andThen (bounded_puts _))

theorem bounded_printPointer (num : UInt32) (flags : TypeMask) (field_width precision : ℤ) :
    Bounded fun maxlen strp => printPointer maxlen num flags field_width precision strp :=
  (bounded_slnumberlen _ _ _ _ _).ite (bounded_slnumberlen _ _ _ _ _)

theorem thenRead_snd (argp : ℕ) (w : Written UInt8 Abort)
    (f : List UInt8 → Written UInt8 Abort) : (thenRead argp w f).2 = andThen w f := by
  cases w with
  | ok strp => rfl
  | error e => rfl

theorem bounded_printChar (args : Arguments) (flags : TypeMask) (field_width : ℤ) (argp : ℕ) :
    Bounded fun maxlen strp => (printChar maxlen args flags field_width argp strp).2 := by
  simp only [printChar, thenRead_snd]
  exact (bounded_puts _).andThen (bounded_puts _)

theorem bounded_snd_ite {p : Prop} [Decidable p]
    {F G : ℕ → List UInt8 → ℕ × Written UInt8 Abort} (hF : Bounded fun m t => (F m t).2)
    (hG : Bounded fun m t => (G m t).2) : Bounded fun m t => (if p then F m t else G m t).2 := by
  by_cases hp : p
  · simpa only [if_pos hp] using hF
  · simpa only [if_neg hp] using hG

theorem bounded_printConversion (args : Arguments) (conv : Conversion) (argp : ℕ) :
    Bounded fun maxlen strp => (printConversion maxlen args conv argp strp).2 := by
  unfold printConversion
  cases conv.specifier with
  | none => exact bounded_put _
  | some c =>
    exact bounded_snd_ite (bounded_printChar _ _ _ _)
      (bounded_snd_ite (bounded_printString _ _ _ _)
        (bounded_snd_ite (bounded_printPointer _ _ _ _)
          (bounded_snd_ite bounded_ok
            (bounded_snd_ite (bounded_slnumberlen _ _ _ _ _) (bounded_puts _)))))

theorem bounded_printItem (args : Arguments) (item : Item) (argp : ℕ) :
    Bounded fun maxlen strp => (printItem maxlen args item argp strp).2 := by
  cases item with
  | character c => exact bounded_put c
  | conversion conv => exact bounded_printConversion args conv argp

end Writers

section Reading

variable {maxlen argp : ℕ} {args : Arguments} {strp : List UInt8}

theorem fieldWidth_argp (flags : TypeMask) (width : Count) :
    (fieldWidth args flags argp width).2.2 = argp + width.args := by
  cases width with
  | absent => rfl
  | number n => rfl
  | argument =>
    rw [fieldWidth]
    split_ifs <;> rfl

theorem precisionOf_argp (precision : Count) :
    (precisionOf args argp precision).2 = argp + precision.args := by
  cases precision <;> rfl

theorem argp_of_counts (conv : Conversion) :
    (precisionOf args (fieldWidth args conv.flags argp conv.field_width).2.2 conv.precision).2 =
      argp + (Item.conversion conv).stars := by
  rw [precisionOf_argp, fieldWidth_argp, Item.stars, Nat.add_assoc]

theorem thenRead_fst {w : Written UInt8 Abort} {f : List UInt8 → Written UInt8 Abort} :
    (thenRead argp w f).1 ≤ argp + 1 ∧
      ∀ text, (thenRead argp w f).2 = .ok text → (thenRead argp w f).1 = argp + 1 := by
  cases w with
  | ok strp => exact ⟨Nat.le_refl _, fun _ _ => rfl⟩
  | error e => exact ⟨Nat.le_succ _, fun _ h => by cases h⟩

theorem not_readsArg_iff {c : UInt8} :
    ¬ readsArg c = true ↔
      c ≠ 0x63 ∧ c ≠ 0x73 ∧ c ≠ 0x70 ∧ c ≠ 0x6e ∧ ¬ isNumber c = true := by
  simp [readsArg, and_assoc]

theorem readsArg_iff {c : UInt8} :
    readsArg c = true ↔ c = 0x63 ∨ c = 0x73 ∨ c = 0x70 ∨ c = 0x6e ∨
      isNumber c = true ∧ c ≠ 0x63 ∧ c ≠ 0x73 ∧ c ≠ 0x70 ∧ c ≠ 0x6e := by
  simp only [readsArg, Bool.or_eq_true, decide_eq_true_eq]
  tauto

/-- An item reads its arguments, or fewer if it is not written to its end. -/
theorem printItem_fst (maxlen : ℕ) (args : Arguments) (item : Item) (argp : ℕ)
    (strp : List UInt8) :
    (printItem maxlen args item argp strp).1 ≤ argp + item.args ∧
      ∀ text, (printItem maxlen args item argp strp).2 = .ok text →
        (printItem maxlen args item argp strp).1 = argp + item.args := by
  cases item with
  | character c => exact ⟨Nat.le_refl _, fun _ _ => rfl⟩
  | conversion conv =>
    rw [printItem, printConversion, Item.args, Item.takes]
    simp only [argp_of_counts]
    cases conv.specifier with
    | none => exact ⟨Nat.le_refl _, fun _ _ => rfl⟩
    | some c =>
      by_cases hreads : readsArg c = true
      · rw [Option.any_some, if_pos hreads]
        rcases readsArg_iff.mp hreads with rfl | rfl | rfl | rfl | ⟨hnumber, hc, hs, hp, hn⟩
        · exact thenRead_fst
        · exact ⟨Nat.le_refl _, fun _ _ => rfl⟩
        · exact ⟨Nat.le_refl _, fun _ _ => rfl⟩
        · exact ⟨Nat.le_refl _, fun _ _ => rfl⟩
        · simp only [if_neg hc, if_neg hs, if_neg hp, if_neg hn, if_pos hnumber]
          exact ⟨Nat.le_refl _, fun _ _ => rfl⟩
      · obtain ⟨hc, hs, hp, hn, hnumber⟩ := not_readsArg_iff.mp hreads
        rw [Option.any_some, if_neg hreads]
        simp only [if_neg hc, if_neg hs, if_neg hp, if_neg hn, if_neg hnumber]
        exact ⟨Nat.le_refl _, fun _ _ => rfl⟩

theorem printItems_cons (item : Item) (items : List Item) :
    (printItems maxlen args (item :: items) argp strp).2 =
      andThen (printItem maxlen args item argp strp).2 fun strp =>
        (printItems maxlen args items (argp + item.args) strp).2 := by
  have hfst := (printItem_fst maxlen args item argp strp).2
  rw [printItems]
  rcases hitem : printItem maxlen args item argp strp with ⟨argp', e | strp'⟩
  · rfl
  · rw [hitem] at hfst
    have hargp : argp' = argp + item.args := hfst strp' rfl
    rw [hargp]
    rfl

/-- The items read their arguments, or fewer if they are not written to their end. -/
theorem printItems_fst (maxlen : ℕ) (args : Arguments) (items : List Item) (argp : ℕ)
    (strp : List UInt8) :
    (printItems maxlen args items argp strp).1 ≤ argp + (items.map Item.args).sum ∧
      ∀ text, (printItems maxlen args items argp strp).2 = .ok text →
        (printItems maxlen args items argp strp).1 = argp + (items.map Item.args).sum := by
  induction items generalizing argp strp with
  | nil => exact ⟨Nat.le_refl _, fun _ _ => rfl⟩
  | cons item items ih =>
    have hfst := printItem_fst maxlen args item argp strp
    rw [List.map_cons, List.sum_cons, ← Nat.add_assoc, printItems]
    rcases hitem : printItem maxlen args item argp strp with ⟨argp', e | strp'⟩
    · rw [hitem] at hfst
      exact ⟨Nat.le_trans hfst.1 (Nat.le_add_right _ _), fun _ h => by cases h⟩
    · rw [hitem] at hfst
      have hargp : argp' = argp + item.args := hfst.2 strp' rfl
      rw [hargp]
      exact ih (argp + item.args) strp'

theorem bounded_printItems (args : Arguments) (items : List Item) (argp : ℕ) :
    Bounded fun maxlen strp => (printItems maxlen args items argp strp).2 := by
  induction items generalizing argp with
  | nil => exact bounded_ok
  | cons item items ih =>
    simp only [printItems_cons]
    exact (bounded_printItem args item argp).andThen (ih _)

end Reading

section Numbers

/-- What `slnumberlen` is given. -/
structure NumberCall where
  num : UInt32
  base : ℕ
  size : ℤ
  precision : ℤ
  type : TypeMask

/-- What a conversion of a number or a pointer gives to `slnumberlen`. -/
def Conversion.number? (conv : Conversion) (args : Arguments) (argp : ℕ) : Option NumberCall :=
  let width := fieldWidth args conv.flags argp conv.field_width
  let precision := precisionOf args width.2.2 conv.precision
  let a := args.arg precision.2
  conv.specifier.bind fun c =>
    if c = 0x70 then
      some (if width.2.1 = -1 then ⟨a, 16, 8, precision.1, { width.1 with zeropad := true }⟩
        else ⟨a, 16, width.2.1, precision.1, width.1⟩)
    else if isNumber c then
      some ⟨numberOf conv.qualifier (numberFlags c width.1).sign a, baseOf c, width.2.1,
        precision.1, numberFlags c width.1⟩
    else none

/-- The parts of a number that is given to `slnumberlen`. -/
def NumberCall.parts (n : NumberCall) : Layout :=
  layout n.num n.base n.size n.precision n.type

/-- The text of a number. -/
def Layout.text (l : Layout) : List UInt8 :=
  l.blanks ++ l.sign ++ l.special ++ l.pads ++ l.zeros ++ l.digits ++ l.rest

variable {args : Arguments} {conv : Conversion} {argp : ℕ} {n : NumberCall}

theorem number?_spec (h : conv.number? args argp = some n) :
    (n.base = 8 ∨ n.base = 10 ∨ n.base = 16) ∧
      ∀ maxlen strp, printConversion maxlen args conv argp strp =
        (argp + (Item.conversion conv).args,
          slnumberlen maxlen strp n.num n.base n.size n.precision n.type) := by
  rw [Conversion.number?] at h
  simp only [argp_of_counts] at h
  simp only [printConversion, argp_of_counts, Item.args, Item.takes]
  cases hspecifier : conv.specifier with
  | none =>
    rw [hspecifier] at h
    cases h
  | some c =>
    rw [hspecifier, Option.bind_some] at h
    by_cases hpointer : c = 0x70
    · subst hpointer
      obtain rfl := Option.some.inj h
      refine ⟨?_, fun maxlen strp => ?_⟩
      · split_ifs <;> exact .inr (.inr rfl)
      · refine Prod.ext rfl ?_
        change printPointer maxlen _ _ _ _ strp = _
        rw [printPointer]
        split_ifs <;> rfl
    · rw [if_neg hpointer] at h
      by_cases hnumber : isNumber c = true
      · rw [if_pos hnumber] at h
        obtain rfl := Option.some.inj h
        have hreads : readsArg c = true := by rw [readsArg, hnumber, Bool.or_true]
        have hne {d : UInt8} (hd : isNumber d = false) : c ≠ d := by
          rintro rfl
          rw [hd] at hnumber
          exact Bool.noConfusion hnumber
        refine ⟨?_, fun maxlen strp => ?_⟩
        · simp only [baseOf]
          split_ifs
          · exact .inl rfl
          · exact .inr (.inr rfl)
          · exact .inr (.inl rfl)
        · simp only [if_neg (hne (d := 0x63) rfl), if_neg (hne (d := 0x73) rfl), if_neg hpointer,
            if_neg (hne (d := 0x6e) rfl), if_pos hnumber, Option.any_some, if_pos hreads,
            Nat.add_assoc]
      · rw [if_neg hnumber] at h
        cases h

theorem slnumberlen_zero (hbase : n.base = 8 ∨ n.base = 10 ∨ n.base = 16) (strp : List UInt8) :
    slnumberlen 0 strp n.num n.base n.size n.precision n.type =
      if 10 < n.parts.digits.length then .error (.failed .aborted)
      else .ok (strp ++ n.parts.text) := by
  have hnone : ¬ (n.base < 2 ∨ 36 < n.base) := by omega
  rw [slnumberlen, if_neg hnone]
  by_cases hlong : 10 < n.parts.digits.length
  · rw [if_pos hlong]
    exact if_pos hlong
  · rw [if_neg hlong]
    refine (if_neg hlong).trans ?_
    simp only [puts_zero, checked_zero, andThen_ok, Layout.text, NumberCall.parts,
      List.append_assoc]

theorem length_digits_le_iff (hbase : 1 < n.base) :
    n.parts.digits.length ≤ 10 ↔ (unsigned n.type n.num).toNat < n.base ^ 10 := by
  have hdigits : n.parts.digits = (tmp (unsigned n.type n.num) n.base n.type.large).reverse := rfl
  rw [hdigits, List.length_reverse, tmp]
  by_cases hzero : unsigned n.type n.num = 0
  · rw [if_pos hzero, hzero]
    exact iff_of_true (by decide) (Nat.pow_pos (by omega))
  · rw [if_neg hzero, List.length_map, Nat.digits_length_le_iff hbase]

/-- A number in octal has at most ten digits. -/
def Item.OctalFits (args : Arguments) (argp : ℕ) : Item → Prop
  | .character _ => True
  | .conversion conv => conv.specifier = some 0x6f →
      (numberOf conv.qualifier false
        (args.arg (argp + (Item.conversion conv).stars))).toNat < 2 ^ 30

/-- Every number in octal has at most ten digits. -/
def OctalsFit (args : Arguments) : List Item → ℕ → Prop
  | [], _ => True
  | item :: items, argp => item.OctalFits args argp ∧ OctalsFit args items (argp + item.args)

/-- The digits of a number fit if it is not in octal, or small. -/
theorem octalFits_iff (h : conv.number? args argp = some n) :
    (Item.conversion conv).OctalFits args argp ↔ n.parts.digits.length ≤ 10 := by
  rw [length_digits_le_iff (by have := (number?_spec h).1; omega)]
  rw [Conversion.number?] at h
  simp only [argp_of_counts] at h
  rw [Item.OctalFits]
  have hbits := (unsigned n.type n.num).toNat_lt
  cases hspecifier : conv.specifier with
  | none =>
    rw [hspecifier] at h
    cases h
  | some c =>
    rw [hspecifier, Option.bind_some] at h
    by_cases hpointer : c = 0x70
    · subst hpointer
      obtain rfl := Option.some.inj h
      refine iff_of_true (fun hoctal => absurd (Option.some.inj hoctal) (by decide)) ?_
      have hsixteen : 2 ^ 32 ≤ 16 ^ 10 := by decide
      refine Nat.lt_of_lt_of_le hbits ?_
      split_ifs <;> exact hsixteen
    · rw [if_neg hpointer] at h
      by_cases hnumber : isNumber c = true
      · rw [if_pos hnumber] at h
        obtain rfl := Option.some.inj h
        by_cases hoctal : c = 0x6f
        · subst hoctal
          have hsign (flags : TypeMask) : (numberFlags 0x6f flags).sign = false := rfl
          have hnum (flags : TypeMask) (num : UInt32) :
              unsigned (numberFlags 0x6f flags) num = num := if_neg fun h => by
            rw [hsign] at h
            exact Bool.noConfusion h.1
          have hbase : baseOf 0x6f ^ 10 = 2 ^ 30 := by decide
          simp only [hsign, hnum, hbase]
          exact ⟨fun h => h trivial, fun h _ => h⟩
        · refine iff_of_true (fun h => absurd (Option.some.inj h) hoctal) ?_
          have hten : 2 ^ 32 ≤ 10 ^ 10 := by decide
          have hsixteen : 2 ^ 32 ≤ 16 ^ 10 := by decide
          refine Nat.lt_of_lt_of_le hbits ?_
          simp only [baseOf, if_neg hoctal]
          split_ifs
          · exact hsixteen
          · exact hten
      · rw [if_neg hnumber] at h
        cases h

theorem number?_of_not_isNumber {c : UInt8} (hspecifier : conv.specifier = some c)
    (hpointer : c ≠ 0x70) (hnumber : ¬ isNumber c = true) : conv.number? args argp = none := by
  rw [Conversion.number?, hspecifier, Option.bind_some, if_neg hpointer, if_neg hnumber]

theorem number?_eq_none {c : UInt8} (hspecifier : conv.specifier = some c)
    (h : conv.number? args argp = none) : c ≠ 0x70 ∧ ¬ isNumber c = true := by
  rw [Conversion.number?, hspecifier, Option.bind_some] at h
  by_cases hpointer : c = 0x70
  · rw [if_pos hpointer] at h
    cases h
  · rw [if_neg hpointer] at h
    refine ⟨hpointer, fun hnumber => ?_⟩
    rw [if_pos hnumber] at h
    cases h

/-- Without a maximum an item is written if the digits of its number fit. -/
theorem printItem_of_fits {item : Item} (h : item.OctalFits args argp) (strp : List UInt8) :
    ∃ text, (printItem 0 args item argp strp).2 = .ok text := by
  cases item with
  | character c => exact ⟨_, checked_zero _⟩
  | conversion conv =>
    rw [printItem]
    cases hnumber : conv.number? args argp with
    | some n =>
      obtain ⟨hbase, hprint⟩ := number?_spec hnumber
      have hdigits := (octalFits_iff hnumber).mp h
      rw [hprint, slnumberlen_zero hbase, if_neg (Nat.not_lt.mpr hdigits)]
      exact ⟨_, rfl⟩
    | none =>
      rw [printConversion]
      cases hspecifier : conv.specifier with
      | none => exact ⟨_, checked_zero _⟩
      | some c =>
        obtain ⟨hpointer, hdigits⟩ := number?_eq_none hspecifier hnumber
        by_cases hchar : c = 0x63
        · simp only [if_pos hchar, printChar, thenRead_snd, puts_zero, andThen_ok]
          exact ⟨_, rfl⟩
        · by_cases hstring : c = 0x73
          · simp only [if_neg hchar, if_pos hstring, printString, puts_zero, andThen_ok]
            exact ⟨_, rfl⟩
          · by_cases hcount : c = 0x6e
            · simp only [if_neg hchar, if_neg hstring, if_neg hpointer, if_pos hcount]
              exact ⟨_, rfl⟩
            · simp only [if_neg hchar, if_neg hstring, if_neg hpointer, if_neg hcount,
                if_neg hdigits]
              exact ⟨_, puts_zero _ _⟩

theorem printItem_of_not_fits {item : Item} (h : ¬ item.OctalFits args argp) (maxlen : ℕ)
    (strp : List UInt8) : (printItem maxlen args item argp strp).2 = .error (.failed .aborted) := by
  cases item with
  | character c => exact absurd trivial h
  | conversion conv =>
    rw [printItem]
    cases hnumber : conv.number? args argp with
    | some n =>
      obtain ⟨hbase, hprint⟩ := number?_spec hnumber
      have hnone : ¬ (n.base < 2 ∨ 36 < n.base) := by omega
      have hlong : 10 < n.parts.digits.length := by
        rw [octalFits_iff hnumber] at h
        omega
      rw [hprint, slnumberlen, if_neg hnone]
      exact if_pos hlong
    | none =>
      refine absurd (fun hoctal => ?_) h
      exact absurd rfl (number?_eq_none hoctal hnumber).2

/-- Without a maximum the items are written if the digits of all numbers fit. -/
theorem printItems_of_fit {items : List Item} (h : OctalsFit args items argp)
    (strp : List UInt8) : ∃ text, (printItems 0 args items argp strp).2 = .ok text := by
  induction items generalizing argp strp with
  | nil => exact ⟨strp, rfl⟩
  | cons item items ih =>
    obtain ⟨text, hitem⟩ := printItem_of_fits h.1 strp
    rw [printItems_cons, hitem, andThen_ok]
    exact ih h.2 text

/-- If they do not, the process is ended where the maximum is large enough. -/
theorem printItems_of_not_fit {items : List Item} (h : ¬ OctalsFit args items argp)
    (strp : List UInt8) : ∃ n, ∀ maxlen, n ≤ maxlen →
      (printItems maxlen args items argp strp).2 = .error (.failed .aborted) := by
  induction items generalizing argp strp with
  | nil => exact absurd trivial h
  | cons item items ih =>
    by_cases hitem : item.OctalFits args argp
    · obtain ⟨text, htext⟩ := printItem_of_fits hitem strp
      obtain ⟨n, hn⟩ := ih (fun hrest => h ⟨hitem, hrest⟩) text
      refine ⟨max n (text.length + 2), fun maxlen hmaxlen => ?_⟩
      have hadds := ((bounded_printItem args item argp).adds htext).length_le
      have hroom : Room maxlen text :=
        Nat.lt_of_succ_le (Nat.le_trans (Nat.le_max_right n _) hmaxlen)
      have hcut := (bounded_printItem args item argp).cut
        (Nat.lt_of_le_of_lt (Nat.succ_le_succ hadds) hroom) htext
      rw [upTo, if_pos hroom] at hcut
      rw [printItems_cons, hcut, andThen_ok]
      exact hn maxlen (Nat.le_trans (Nat.le_max_left n _) hmaxlen)
    · refine ⟨0, fun maxlen _ => ?_⟩
      rw [printItems_cons, printItem_of_not_fits hitem, andThen_error]

end Numbers

end Sl

end SierraSdk
