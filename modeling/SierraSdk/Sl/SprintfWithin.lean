import SierraSdk.Sl.SprintfBounds

/-!
# Formatted texts within their bounds

`slvsprintflen_within_iff` says when a text and its arguments stay within their bounds. A maximum of
one is never compared with, as the first comparison is made behind the first character; only
`slnumberlen` compares before it. The digits of a number in octal from `2 ^ 30` on do not fit their
buffer, and the arguments for widths and precisions are not counted.
-/

namespace SierraSdk

namespace Sl

open BoundedText

section Bounds

/-- What is written has at most the maximum length with its null character, which stands at the
index that is returned, and no more arguments were read than are counted. -/
structure WithinBounds (count maxlen : ℕ) (r : Formatted) : Prop where
  bytes : r.bufp.length ≤ maxlen
  ended : ∃ text, r.bufp = text ++ [0] ∧ r.length = text.length
  args : r.args ≤ count

/-- A text is formatted within its bounds, and so are the arguments that `slvsprintflenc` allows. -/
structure Within (fmtp : List UInt8) (args : Arguments) (maxlen : ℕ) : Prop where
  formatted : ∃ r, slvsprintflen fmtp args maxlen = some r ∧
    WithinBounds (slcountfmtargs fmtp) maxlen r
  allowed : ∀ maxargs r, slvsprintflenc fmtp args maxlen maxargs = some r → r.args ≤ maxargs

theorem finish_eq_some_iff {written : ℕ × Written UInt8 Abort} {r : Formatted} :
    finish written = some r ↔ ∃ text,
      (written.2 = .ok text ∨ written.2 = .error (.full text)) ∧
        r = ⟨text ++ [0], text.length, written.1⟩ := by
  obtain ⟨argp, (text | why) | text⟩ := written
  · simp [finish, eq_comm]
  · simp [finish]
  · simp [finish, eq_comm]

theorem formatted_within_iff {fmtp : List UInt8} {args : Arguments} {maxlen : ℕ} :
    Within fmtp args maxlen ↔ ∃ text,
      ((printItems maxlen args (formatItems fmtp) 0 []).2 = .ok text ∨
        (printItems maxlen args (formatItems fmtp) 0 []).2 = .error (.full text)) ∧
      text.length + 1 ≤ maxlen ∧
      (printItems maxlen args (formatItems fmtp) 0 []).1 ≤ slcountfmtargs fmtp := by
  constructor
  · intro h
    obtain ⟨r, hr, hwithin⟩ := h.formatted
    obtain ⟨text, htext, rfl⟩ := finish_eq_some_iff.mp hr
    refine ⟨text, htext, ?_, hwithin.args⟩
    have hbytes := hwithin.bytes
    rwa [List.length_append] at hbytes
  · rintro ⟨text, htext, hbytes, hargs⟩
    have hr := finish_eq_some_iff.mpr ⟨text, htext, rfl⟩
    refine ⟨⟨_, hr, ?_, ⟨text, rfl, rfl⟩, hargs⟩, fun maxargs r hallowed => ?_⟩
    · rwa [List.length_append]
    · rw [slvsprintflenc] at hallowed
      split_ifs at hallowed with hcount
      obtain rfl := Option.some.inj (hr.symm.trans hallowed)
      exact Nat.le_trans hargs (Nat.le_of_not_lt hcount)

/-- The arguments that are read for the widths and the precisions of a format. -/
def stars (fmtp : List UInt8) : ℕ := ((formatItems fmtp).map Item.stars).sum

theorem sum_args (items : List Item) :
    (items.map Item.args).sum = (items.map Item.stars).sum + (items.map Item.takes).sum := by
  induction items with
  | nil => rfl
  | cons item items ih =>
    rw [List.map_cons, List.map_cons, List.map_cons, List.sum_cons, List.sum_cons, List.sum_cons,
      ih, Item.args]
    omega

/-- Every maximum but one is kept if the digits of all numbers fit and the widths and precisions
that are arguments do not outnumber the conversions that are counted and write none. -/
theorem within_of_two_le_iff (fmtp : List UInt8) (args : Arguments) :
    (∀ maxlen, 2 ≤ maxlen → Within fmtp args maxlen) ↔
      OctalsFit args (formatItems fmtp) 0 ∧ stars fmtp ≤ slcountfmtargs fmtp - takes fmtp := by
  have hbounded := bounded_printItems args (formatItems fmtp) 0
  have htakes := (takes_le_slcountfmtargs fmtp).1
  have hsum := sum_args (formatItems fmtp)
  constructor
  · intro h
    have hfit : OctalsFit args (formatItems fmtp) 0 := by
      by_contra hfit
      obtain ⟨n, hn⟩ := printItems_of_not_fit hfit []
      obtain ⟨text, htext, -⟩ := formatted_within_iff.mp (h (max n 2) (Nat.le_max_right n 2))
      rw [hn _ (Nat.le_max_left n 2)] at htext
      rcases htext with htext | htext <;> cases htext
    refine ⟨hfit, ?_⟩
    obtain ⟨text, htext⟩ := printItems_of_fit hfit []
    have hroom : Room (text.length + 2) text := Nat.lt_succ_self _
    have hempty : Room (text.length + 2) ([] : List UInt8) := Nat.le_add_left 2 _
    have hcut := hbounded.cut hempty htext
    rw [upTo, if_pos hroom] at hcut
    obtain ⟨-, -, -, hargs⟩ := formatted_within_iff.mp (h (text.length + 2) (Nat.le_add_left 2 _))
    rw [(printItems_fst _ args (formatItems fmtp) 0 []).2 text hcut, hsum] at hargs
    rw [stars, takes]
    omega
  · rintro ⟨hfit, hstars⟩ maxlen hmaxlen
    obtain ⟨text, htext⟩ := printItems_of_fit hfit []
    have hempty : Room maxlen ([] : List UInt8) := hmaxlen
    have hcut := hbounded.cut hempty htext
    have hargs := (printItems_fst maxlen args (formatItems fmtp) 0 []).1
    rw [stars] at hstars
    rw [takes] at hstars htakes
    rw [formatted_within_iff]
    by_cases hroom : Room maxlen text
    · rw [upTo, if_pos hroom] at hcut
      exact ⟨text, .inl hcut, Nat.le_of_lt hroom, by omega⟩
    · rw [upTo, if_neg hroom] at hcut
      refine ⟨_, .inr hcut, ?_, by omega⟩
      have hle := List.length_take_le (maxlen - 1) text
      omega

end Bounds

section One

variable {args : Arguments} {argp : ℕ}

/-- Nothing is written. -/
def Item.Silent (args : Arguments) (argp : ℕ) : Item → Prop
  | .character _ => False
  | .conversion conv =>
      let width := fieldWidth args conv.flags argp conv.field_width
      let precision := precisionOf args width.2.2 conv.precision
      conv.specifier = some 0x6e ∨
        conv.specifier = some 0x73 ∧ width.2.1 ≤ 0 ∧
          slstrnlen (args.sp (argp + (Item.conversion conv).stars)) precision.1 = 0

/-- A number of at most ten digits with nothing in front of its sign, and no sign. -/
def Item.Bare (args : Arguments) (argp : ℕ) : Item → Prop
  | .character _ => False
  | .conversion conv => ∃ n, conv.number? args argp = some n ∧ n.parts.digits.length ≤ 10 ∧
      n.parts.blanks = [] ∧ n.parts.sign = []

/-- Nothing is written, or a bare number is the first thing that would be. -/
def OneIsEnough (args : Arguments) (count : ℕ) : List Item → ℕ → Prop
  | [], argp => argp ≤ count
  | item :: items, argp =>
      item.Silent args argp ∧ OneIsEnough args count items (argp + item.args) ∨
        item.Bare args argp ∧ argp + item.args ≤ count

theorem puts_one (cs : List UInt8) : puts (ε := Abort) 1 [] cs = .ok cs :=
  puts_of_le (Nat.le_refl 1)

theorem parts_digits_ne_nil (n : NumberCall) : n.parts.digits ≠ [] := by
  have hdigits : n.parts.digits = (tmp (unsigned n.type n.num) n.base n.type.large).reverse := rfl
  rw [hdigits, Ne, List.reverse_eq_nil_iff, tmp]
  by_cases hzero : unsigned n.type n.num = 0
  · rw [if_pos hzero]
    exact List.cons_ne_nil _ _
  · rw [if_neg hzero, List.map_eq_nil_iff, Nat.digits_eq_nil_iff_eq_zero]
    exact fun h => hzero (UInt32.toNat_inj.mp h)

/-- A number at a maximum of one: only the comparison behind the sign can end it. -/
theorem slnumberlen_one {n : NumberCall} (hbase : n.base = 8 ∨ n.base = 10 ∨ n.base = 16) :
    slnumberlen 1 [] n.num n.base n.size n.precision n.type =
      if 10 < n.parts.digits.length then .error (.failed .aborted)
      else if n.parts.blanks ++ n.parts.sign = [] then .error (.full [])
      else .ok n.parts.text := by
  have hnone : ¬ (n.base < 2 ∨ 36 < n.base) := by omega
  rw [slnumberlen, if_neg hnone]
  by_cases hlong : 10 < n.parts.digits.length
  · rw [if_pos hlong]
    exact if_pos hlong
  · rw [if_neg hlong]
    refine (if_neg hlong).trans ?_
    rw [puts_one, andThen_ok]
    change andThen (checked 1 (n.parts.blanks ++ n.parts.sign)) _ = _
    by_cases hbare : n.parts.blanks ++ n.parts.sign = []
    · rw [if_pos hbare, hbare]
      rfl
    · have hlength : (n.parts.blanks ++ n.parts.sign).length ≠ 0 :=
        fun h => hbare (List.eq_nil_of_length_eq_zero h)
      have hchecked : checked (ε := Abort) 1 (n.parts.blanks ++ n.parts.sign) =
          .ok (n.parts.blanks ++ n.parts.sign) := if_neg (by omega)
      have hputs (text cs : List UInt8) : puts (ε := Abort) 1 text cs = .ok (text ++ cs) :=
        puts_of_le (Nat.le_add_left 1 _)
      rw [if_neg hbare, hchecked]
      simp only [hputs, andThen_ok, Layout.text, NumberCall.parts]

theorem fieldWidth_cases (args : Arguments) (flags : TypeMask) (argp : ℕ) (width : Count) :
    (fieldWidth args flags argp width).1.left = true ∨
      -1 ≤ (fieldWidth args flags argp width).2.1 := by
  cases width with
  | absent => exact .inr (Int.le_refl _)
  | number n =>
    refine .inr ?_
    change -1 ≤ (n.toNat : ℤ)
    omega
  | argument =>
    rw [fieldWidth]
    split_ifs with hneg
    · exact .inl rfl
    · refine .inr ?_
      change -1 ≤ args.int argp
      omega

theorem written_eq_nil_iff {len n : ℤ} {c : UInt8} : written len n c = [] ↔ n ≤ len := by
  rw [written, List.replicate_eq_nil_iff]
  omega

/-- A string that is not padded is written as nothing if it is empty. -/
theorem printString_one {flags : TypeMask} {field_width : ℤ}
    (hwidth : flags.left = true ∨ -1 ≤ field_width) (sp : List UInt8) (precision : ℤ) :
    (field_width ≤ 0 ∧ slstrnlen sp precision = 0 ∧
        printString 1 sp flags field_width precision [] = .ok []) ∨
      (¬ (field_width ≤ 0 ∧ slstrnlen sp precision = 0) ∧
        ∃ text ≠ [], printString 1 sp flags field_width precision [] = .ok text) := by
  have hputs (text cs : List UInt8) : puts (ε := Abort) 1 text cs = .ok (text ++ cs) :=
    puts_of_le (Nat.le_add_left 1 _)
  have hle := slstrnlen_le sp precision
  simp only [printString, hputs, andThen_ok, List.nil_append]
  by_cases hsilent : field_width ≤ 0 ∧ slstrnlen sp precision = 0
  · obtain ⟨hpads, hempty⟩ := hsilent
    refine .inl ⟨hpads, hempty, ?_⟩
    have hpad : written 0 field_width blank = [] := written_eq_nil_iff.mpr hpads
    have hrest : written 0 (if flags.left then field_width else leftOver 0 field_width) blank =
        [] := by
      rw [written_eq_nil_iff]
      split_ifs with hleft
      · exact hpads
      · have hbelow := hwidth.resolve_left hleft
        rw [leftOver, if_neg (by omega), int32]
        omega
    rw [hempty, Nat.cast_zero, hpad, hrest, ite_self, List.take_zero]
    rfl
  · refine .inr ⟨hsilent, _, fun hnil => hsilent ?_, rfl⟩
    obtain ⟨hfront, hrest⟩ := List.append_eq_nil_iff.mp hnil
    obtain ⟨hfront, htake⟩ := List.append_eq_nil_iff.mp hfront
    have hempty : slstrnlen sp precision = 0 := by
      have hlength := congrArg List.length htake
      rw [List.length_take_of_le hle] at hlength
      exact hlength
    refine ⟨?_, hempty⟩
    rw [hempty] at hfront hrest
    by_cases hleft : flags.left = true
    · rw [if_pos hleft] at hrest
      exact written_eq_nil_iff.mp hrest
    · rw [if_neg hleft] at hfront
      exact written_eq_nil_iff.mp hfront

theorem number?_of_silent {conv : Conversion} (h : (Item.conversion conv).Silent args argp) :
    conv.number? args argp = none := by
  rcases h with hcount | ⟨hstring, -⟩
  · exact number?_of_not_isNumber hcount (by decide) (by decide)
  · exact number?_of_not_isNumber hstring (by decide) (by decide)

theorem not_bare_of_silent {item : Item} (h : item.Silent args argp) :
    ¬ item.Bare args argp := by
  cases item with
  | character c => exact id
  | conversion conv =>
    rintro ⟨n, hn, -⟩
    exact Option.some_ne_none n (hn.symm.trans (number?_of_silent h))

/-- An item at a maximum of one. -/
theorem printItem_one (args : Arguments) (item : Item) (argp : ℕ) :
    (item.Silent args argp ∧
        printItem 1 args item argp [] = (argp + item.args, .ok [])) ∨
      (item.Bare args argp ∧
        printItem 1 args item argp [] = (argp + item.args, .error (.full []))) ∨
      ¬ item.Silent args argp ∧ ¬ item.Bare args argp ∧
        ((∃ text ≠ [], (printItem 1 args item argp []).2 = .ok text) ∨
          ∃ why, (printItem 1 args item argp []).2 = .error (.failed why)) := by
  cases item with
  | character c =>
    exact .inr (.inr ⟨id, id, .inl ⟨[c], List.cons_ne_nil _ _, rfl⟩⟩)
  | conversion conv =>
    cases hnumber : conv.number? args argp with
    | some n =>
      obtain ⟨hbase, hprint⟩ := number?_spec hnumber
      rw [printItem, hprint, slnumberlen_one hbase]
      have hsilent : ¬ (Item.conversion conv).Silent args argp := fun hsilent =>
        Option.some_ne_none n (hnumber.symm.trans (number?_of_silent hsilent))
      by_cases hlong : 10 < n.parts.digits.length
      · refine .inr (.inr ⟨hsilent, ?_, .inr ⟨.aborted, if_pos hlong⟩⟩)
        rintro ⟨n', hn', hshort, -⟩
        obtain rfl := Option.some.inj (hnumber.symm.trans hn')
        exact absurd hlong (Nat.not_lt.mpr hshort)
      · rw [if_neg hlong]
        by_cases hbare : n.parts.blanks ++ n.parts.sign = []
        · rw [if_pos hbare]
          obtain ⟨hblanks, hsign⟩ := List.append_eq_nil_iff.mp hbare
          exact .inr (.inl ⟨⟨n, hnumber, Nat.le_of_not_lt hlong, hblanks, hsign⟩, rfl⟩)
        · refine .inr (.inr ⟨hsilent, ?_, .inl ⟨n.parts.text, fun hnil => ?_, if_neg hbare⟩⟩)
          · rintro ⟨n', hn', -, hblanks, hsign⟩
            obtain rfl := Option.some.inj (hnumber.symm.trans hn')
            exact hbare (by rw [hblanks, hsign]; rfl)
          · simp only [Layout.text, List.append_eq_nil_iff] at hnil
            exact parts_digits_ne_nil n hnil.1.2
    | none =>
      have hbare : ¬ (Item.conversion conv).Bare args argp := by
        rintro ⟨n, hn, -⟩
        rw [hnumber] at hn
        cases hn
      have hputs (text cs : List UInt8) : puts (ε := Abort) 1 text cs = .ok (text ++ cs) :=
        puts_of_le (Nat.le_add_left 1 _)
      have hloud (hcount : conv.specifier ≠ some 0x6e) (hstring : conv.specifier ≠ some 0x73) :
          ¬ (Item.conversion conv).Silent args argp := by
        rintro (h | ⟨h, -⟩)
        · exact hcount h
        · exact hstring h
      rw [printItem, printConversion]
      simp only [argp_of_counts, Item.args, Item.takes]
      cases hspecifier : conv.specifier with
      | none =>
        rw [hspecifier] at hloud
        exact .inr (.inr ⟨hloud (Option.some_ne_none _).symm (Option.some_ne_none _).symm, hbare,
          .inl ⟨[0x25], List.cons_ne_nil _ _, rfl⟩⟩)
      | some c =>
        obtain ⟨hpointer, hdigits⟩ := number?_eq_none hspecifier hnumber
        rw [hspecifier] at hloud
        by_cases hstring : c = 0x73
        · subst hstring
          have hwidth := fieldWidth_cases args conv.flags argp conv.field_width
          rcases printString_one hwidth (args.sp (argp + (Item.conversion conv).stars))
              (precisionOf args (fieldWidth args conv.flags argp conv.field_width).2.2
                conv.precision).1 with
            ⟨hblank, hempty, hprint⟩ | ⟨hwritten, text, hne, hprint⟩
          · exact .inl ⟨.inr ⟨hspecifier, hblank, hempty⟩, Prod.ext rfl hprint⟩
          · refine .inr (.inr ⟨?_, hbare, .inl ⟨text, hne, hprint⟩⟩)
            rintro (h | ⟨-, h⟩)
            · rw [hspecifier] at h
              exact absurd (Option.some.inj h) (by decide)
            · exact hwritten h
        · by_cases hcount : c = 0x6e
          · subst hcount
            exact .inl ⟨.inl hspecifier, rfl⟩
          · refine .inr (.inr ⟨hloud (fun h => hcount (Option.some.inj h))
              (fun h => hstring (Option.some.inj h)), hbare, .inl ?_⟩)
            by_cases hchar : c = 0x63
            · simp only [if_pos hchar, printChar, thenRead_snd, hputs, andThen_ok]
              exact ⟨_, List.append_ne_nil_of_right_ne_nil _ (List.cons_ne_nil _ _), rfl⟩
            · simp only [if_neg hchar, if_neg hstring, if_neg hpointer, if_neg hcount,
                if_neg hdigits, hputs]
              refine ⟨_, ?_, rfl⟩
              split_ifs <;> exact List.cons_ne_nil _ _

theorem oneIsEnough_iff (count : ℕ) (items : List Item) :
    (((printItems 1 args items argp []).2 = .ok [] ∨
        (printItems 1 args items argp []).2 = .error (.full [])) ∧
      (printItems 1 args items argp []).1 ≤ count) ↔ OneIsEnough args count items argp := by
  induction items generalizing argp with
  | nil => exact ⟨fun h => h.2, fun h => ⟨.inl rfl, h⟩⟩
  | cons item items ih =>
    rw [OneIsEnough]
    rcases printItem_one args item argp with
      ⟨hsilent, hprint⟩ | ⟨hbare, hprint⟩ | ⟨hsilent, hbare, hprint⟩
    · have hrest : printItems 1 args (item :: items) argp [] =
          printItems 1 args items (argp + item.args) [] := by rw [printItems, hprint]
      have hbare := not_bare_of_silent hsilent
      rw [hrest, ih]
      exact ⟨fun h => .inl ⟨hsilent, h⟩, fun h => h.elim (fun h => h.2) fun h => absurd h.1 hbare⟩
    · have hstop : printItems 1 args (item :: items) argp [] =
          (argp + item.args, .error (.full [])) := by rw [printItems, hprint]
      have hsilent : ¬ item.Silent args argp := fun hsilent => not_bare_of_silent hsilent hbare
      rw [hstop]
      exact ⟨fun h => .inr ⟨hbare, h.2⟩,
        fun h => ⟨.inr rfl, h.elim (fun h => absurd h.1 hsilent) fun h => h.2⟩⟩
    · refine ⟨fun h => ?_, fun h => h.elim (fun h => absurd h.1 hsilent)
        fun h => absurd h.1 hbare⟩
      obtain ⟨hended, -⟩ := h
      rw [printItems_cons] at hended
      rcases hprint with ⟨text, hne, htext⟩ | ⟨why, hwhy⟩
      · have hbounded := bounded_printItems args items (argp + item.args)
        have hlength := List.length_pos_of_ne_nil hne
        rw [htext, andThen_ok] at hended
        have hlong : (printItems 1 args items (argp + item.args) text).2 =
            (printItems 0 args items (argp + item.args) text).2 := hbounded.tooLong hlength
        rw [hlong] at hended
        rcases hended with hok | hfull
        · have hadds := (hbounded.adds hok).length_le
          exact absurd hadds (Nat.not_le.mpr hlength)
        · exact absurd hfull (hbounded.endless _ _)
      · rw [hwhy, andThen_error] at hended
        rcases hended with hended | hended <;> cases hended

theorem within_one_iff (fmtp : List UInt8) (args : Arguments) :
    Within fmtp args 1 ↔ OneIsEnough args (slcountfmtargs fmtp) (formatItems fmtp) 0 := by
  rw [formatted_within_iff, ← oneIsEnough_iff]
  constructor
  · rintro ⟨text, htext, hbytes, hargs⟩
    obtain rfl := List.eq_nil_of_length_eq_zero (Nat.le_zero.mp (Nat.le_of_succ_le_succ hbytes))
    exact ⟨htext, hargs⟩
  · rintro ⟨htext, hargs⟩
    exact ⟨[], htext, Nat.le_refl 1, hargs⟩

/-- `slvsprintflen` keeps its bounds: the maximum of one if it is enough, and every other one if the
digits of all numbers fit and the widths and precisions that are arguments do not outnumber the
conversions that are counted and write none. -/
theorem slvsprintflen_within_iff (fmtp : List UInt8) (args : Arguments) :
    (Within fmtp args 1 ↔ OneIsEnough args (slcountfmtargs fmtp) (formatItems fmtp) 0) ∧
      ((∀ maxlen, 2 ≤ maxlen → Within fmtp args maxlen) ↔
        OctalsFit args (formatItems fmtp) 0 ∧ stars fmtp ≤ slcountfmtargs fmtp - takes fmtp) :=
  ⟨within_one_iff fmtp args, within_of_two_le_iff fmtp args⟩

/-- Arguments that are all the same number. -/
def allArgs (a : UInt32) : Arguments where
  arg _ := a
  string _ := []

/-- `ab` with a maximum of one; `%o` for `2 ^ 30`; and `%*d` reads two arguments and one is
counted. -/
theorem not_slvsprintflen_within :
    ¬ Within [0x61, 0x62] (allArgs 0) 1 ∧
      ¬ (∀ maxlen, 2 ≤ maxlen → Within [0x25, 0x6f] (allArgs 0x40000000) maxlen) ∧
        ¬ (∀ maxlen, 2 ≤ maxlen → Within [0x25, 0x2a, 0x64] (allArgs 0) maxlen) := by
  refine ⟨fun h => ?_, fun h => ?_, fun h => ?_⟩
  · rcases (within_one_iff _ _).mp h with ⟨hsilent, -⟩ | ⟨hbare, -⟩
    · exact hsilent
    · exact hbare
  · have hfits := ((within_of_two_le_iff _ _).mp h).1.1 rfl
    exact absurd hfits (by decide)
  · exact absurd ((within_of_two_le_iff _ _).mp h).2 (by decide)

end One

end Sl

end SierraSdk
