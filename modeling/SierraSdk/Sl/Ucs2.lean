import SierraSdk.Sl.Utf8Length

/-!
# UTF-8 and UCS-2

`slUcs2ToUtf8` writes the units of a UCS-2 text as UTF-8 into a buffer of so many bytes and ends
the text there: in front of the first character that does not fit, if there is one. The other way
round `slUtf8ToUcs2` checks each character with `slValidateUtf8char`, takes its bits together and
refuses the units that are surrogates.

The bytes of a character are those of Lean's own `String.utf8EncodeChar`, and a `Char` is a code
point that is no surrogate. So the texts that are accepted are the images of lists of `Char`
(`accepts_iff`), as long as there is room for their units.
-/

namespace SierraSdk

namespace Sl

open Memory

/-- A mark and the lowest bits of a unit. -/
def markedByte (mrk msk ucs2char : UInt16) : UInt8 := (mrk + (ucs2char &&& msk)).toUInt8

/-- The loop of `slUcs2ToUtf8`, with the bytes stored in the order of the source. -/
def ucs2ToUtf8Loop (endstringp : ℕ) :
    (ℕ → UInt8) → ℕ → List UInt16 → (ℕ → UInt8) × Bool
  | d, utf8stringp, [] => (store d utf8stringp [0], true)
  | d, utf8stringp, ucs2char :: ucs2stringp =>
      if ucs2char < 0x80 then
        if utf8stringp + 1 > endstringp then (store d utf8stringp [0], false)
        else
          ucs2ToUtf8Loop endstringp (store d utf8stringp [ucs2char.toUInt8]) (utf8stringp + 1)
            ucs2stringp
      else if ucs2char < 0x800 then
        if utf8stringp + 2 > endstringp then (store d utf8stringp [0], false)
        else
          let d := store d (utf8stringp + 1) [markedByte 0x80 0x3f ucs2char]
          let ucs2char := ucs2char >>> 6
          let d := store d utf8stringp [markedByte 0xc0 0x1f ucs2char]
          ucs2ToUtf8Loop endstringp d (utf8stringp + 2) ucs2stringp
      else
        if utf8stringp + 3 > endstringp then (store d utf8stringp [0], false)
        else
          let d := store d (utf8stringp + 2) [markedByte 0x80 0x3f ucs2char]
          let ucs2char := ucs2char >>> 6
          let d := store d (utf8stringp + 1) [markedByte 0x80 0x3f ucs2char]
          let ucs2char := ucs2char >>> 6
          let d := store d utf8stringp [markedByte 0xe0 0x0f ucs2char]
          ucs2ToUtf8Loop endstringp d (utf8stringp + 3) ucs2stringp

/-- The memory after the call, and whether the text was fit into the buffer. -/
def slUcs2ToUtf8 (d : ℕ → UInt8) (ucs2stringp : List UInt16) (utf8stringp : ℕ)
    (maxbytes : UInt16) : (ℕ → UInt8) × Bool :=
  ucs2ToUtf8Loop (utf8stringp + maxbytes.toNat - 1) d utf8stringp ucs2stringp

/-- Whether a byte lies in a range. -/
def within (first last b : UInt8) : Bool := first ≤ b && b ≤ last

/-- Whether the character that begins with these bytes is legal, and the number of its bytes. -/
def slValidateUtf8char (firstbyte secondbyte thirdbyte fourthbyte : UInt8) : Bool × UInt8 :=
  if firstbyte < 0xc0 then (firstbyte < 0x80, 1)
  else if firstbyte < 0xe0 then
    (within 0xc2 0xdf firstbyte && within 0x80 0xbf secondbyte, 2)
  else if firstbyte < 0xf0 then
    let legal :=
      if firstbyte = 0xe0 then within 0xa0 0xbf secondbyte
      else if within 0xe1 0xef firstbyte then within 0x80 0xbf secondbyte
      else false
    (legal && within 0x80 0xbf thirdbyte, 3)
  else
    let legal :=
      if firstbyte = 0xf0 then within 0x90 0xbf secondbyte
      else if within 0xf1 0xf3 firstbyte then within 0x80 0xbf secondbyte
      else false
    (legal && within 0x80 0xbf thirdbyte && within 0x80 0xbf fourthbyte, 4)

/-- A unit that is part of a surrogate pair. -/
def Surrogate (ucs2char : UInt16) : Prop := ucs2char ≥ 0xd800 ∧ ucs2char ≤ 0xdfff

instance (ucs2char : UInt16) : Decidable (Surrogate ucs2char) := inferInstanceAs (Decidable (_ ∧ _))

/-- The bits of a character of so many bytes, and the address behind it. -/
def decodeUtf8char (d : ℕ → UInt8) (p : ℕ) (numutf8bytes : UInt8) : Option (UInt16 × ℕ) :=
  if numutf8bytes = 1 then some ((d p).toUInt16, p + 1)
  else if numutf8bytes = 2 then
    some (((d p &&& 0x1f).toUInt16 <<< 6) + (d (p + 1) &&& 0x3f).toUInt16, p + 2)
  else if numutf8bytes = 3 then
    some (((((d p &&& 0x0f).toUInt16 <<< 6) + (d (p + 1) &&& 0x3f).toUInt16) <<< 6) +
      (d (p + 2) &&& 0x3f).toUInt16, p + 3)
  else none

/-- The unit of the character at an address and the address behind it, if the character is legal,
has at most three bytes and is no surrogate. -/
def nextUcs2 (d : ℕ → UInt8) (p : ℕ) : Option (UInt16 × ℕ) :=
  let (legal, numutf8bytes) := slValidateUtf8char (d p) (d (p + 1)) (d (p + 2)) (d (p + 3))
  if legal then
    (decodeUtf8char d p numutf8bytes).filter fun r => ¬ Surrogate r.1
  else none

/-- The room that is left counts down. -/
theorem room_lt {maxnumchars numconvchars : UInt16} (h : numconvchars ≠ maxnumchars) :
    (maxnumchars - (numconvchars + 1)).toNat < (maxnumchars - numconvchars).toNat := by
  have hne : numconvchars.toNat ≠ maxnumchars.toNat := fun heq => h (UInt16.toNat_inj.mp heq)
  have hmax := maxnumchars.toNat_lt
  have hnum := numconvchars.toNat_lt
  rw [UInt16.toNat_sub, UInt16.toNat_sub, UInt16.toNat_add, UInt16.toNat_one]
  omega

/-- The loop of `slUtf8ToUcs2`: the units after the call, and the number of characters if the
conversion was successful. -/
def utf8ToUcs2Loop (d : ℕ → UInt8) (maxnumchars : UInt16) (m : ℕ → UInt16)
    (utf8stringp usc2stringp : ℕ) (numconvchars : UInt16) : (ℕ → UInt16) × Option UInt16 :=
  if d utf8stringp = 0 then (m, some numconvchars)
  else if numconvchars = maxnumchars then (m, none)
  else
    match nextUcs2 d utf8stringp with
    | none => (m, none)
    | some (ucs2char, utf8stringp) =>
        utf8ToUcs2Loop d maxnumchars (store m usc2stringp [ucs2char]) utf8stringp
          (usc2stringp + 1) (numconvchars + 1)
  termination_by (maxnumchars - numconvchars).toNat
  decreasing_by exact room_lt (by assumption)

/-- The units after the call, and the number of characters if the conversion was successful. -/
def slUtf8ToUcs2 (d : ℕ → UInt8) (utf8stringp : ℕ) (m : ℕ → UInt16) (usc2stringp : ℕ)
    (maxnumchars : UInt16) : (ℕ → UInt16) × Option UInt16 :=
  utf8ToUcs2Loop d maxnumchars m utf8stringp usc2stringp 0

/-- The bytes of a unit. -/
def unitToUtf8 (c : UInt16) : List UInt8 :=
  if c < 0x80 then [c.toUInt8]
  else if c < 0x800 then [markedByte 0xc0 0x1f (c >>> 6), markedByte 0x80 0x3f c]
  else
    [markedByte 0xe0 0x0f (c >>> 6 >>> 6), markedByte 0x80 0x3f (c >>> 6), markedByte 0x80 0x3f c]

/-- The bytes of a code point below `0x10000`, as numbers. -/
def utf8Bytes (n : ℕ) : List ℕ :=
  if n < 0x80 then [n]
  else if n < 0x800 then [0xc0 + n / 64, 0x80 + n % 64]
  else [0xe0 + n / 4096, 0x80 + n / 64 % 64, 0x80 + n % 64]

section Units

variable {c : UInt16} {d : ℕ → UInt8} {p : ℕ}

theorem markedByte_toNat {mrk msk : UInt16} (c : UInt16) {k : ℕ} (hmsk : msk.toNat = 2 ^ k - 1)
    (hlt : mrk.toNat + 2 ^ k ≤ 256) :
    (markedByte mrk msk c).toNat = mrk.toNat + c.toNat % 2 ^ k := by
  have hmask : c.toNat &&& msk.toNat = c.toNat % 2 ^ k := by
    rw [hmsk]
    exact Nat.and_two_pow_sub_one_eq_mod c.toNat k
  have hmod : c.toNat % 2 ^ k < 2 ^ k := Nat.mod_lt _ (Nat.two_pow_pos k)
  rw [markedByte, UInt16.toNat_toUInt8, UInt16.toNat_add, UInt16.toNat_and, hmask,
    Nat.mod_eq_of_lt (a := mrk.toNat + _) (by omega), Nat.mod_eq_of_lt (by omega)]

theorem shift_toNat (c : UInt16) : (c >>> 6).toNat = c.toNat / 64 := by
  simp [Nat.shiftRight_eq_div_pow]

theorem secondaryByte_toNat (c : UInt16) :
    (markedByte 0x80 0x3f c).toNat = 0x80 + c.toNat % 64 :=
  markedByte_toNat c (k := 6) rfl (by decide)

theorem unitToUtf8_toNat (c : UInt16) : (unitToUtf8 c).map UInt8.toNat = utf8Bytes c.toNat := by
  have h80 : c < 0x80 ↔ c.toNat < 0x80 := UInt16.lt_iff_toNat_lt
  have h800 : c < 0x800 ↔ c.toNat < 0x800 := UInt16.lt_iff_toNat_lt
  have hfirst : ∀ c, (markedByte 0xc0 0x1f c).toNat = 0xc0 + c.toNat % 32 :=
    fun c => markedByte_toNat c (k := 5) rfl (by decide)
  have hfirst' : ∀ c, (markedByte 0xe0 0x0f c).toNat = 0xe0 + c.toNat % 16 :=
    fun c => markedByte_toNat c (k := 4) rfl (by decide)
  have hlt : c.toNat < 65536 := c.toNat_lt
  simp only [unitToUtf8, utf8Bytes, h80, h800]
  split_ifs with hone htwo
  · simp only [List.map_cons, List.map_nil, UInt16.toNat_toUInt8]
    rw [Nat.mod_eq_of_lt (by omega)]
  · simp only [List.map_cons, List.map_nil, secondaryByte_toNat, hfirst, shift_toNat]
    rw [Nat.mod_eq_of_lt (by omega)]
  · simp only [List.map_cons, List.map_nil, secondaryByte_toNat, hfirst', shift_toNat]
    rw [Nat.div_div_eq_div_mul, Nat.mod_eq_of_lt (by omega)]

/-- A unit's bytes lie at an address, said of the numbers. -/
theorem load_eq_unitToUtf8_iff :
    load d p (unitToUtf8 c).length = unitToUtf8 c ↔
      (load d p (utf8Bytes c.toNat).length).map UInt8.toNat = utf8Bytes c.toNat := by
  have hinj : Function.Injective (List.map UInt8.toNat) :=
    List.map_injective_iff.mpr fun _ _ => UInt8.toNat_inj.mp
  rw [← unitToUtf8_toNat, List.length_map, hinj.eq_iff]

theorem within_iff {first last b : UInt8} :
    within first last b = true ↔ first.toNat ≤ b.toNat ∧ b.toNat ≤ last.toNat := by
  simp [within, UInt8.le_iff_toNat_le]

/-- The legal characters of at most three bytes. -/
theorem slValidateUtf8char_iff {b₁ b₂ b₃ b₄ n : UInt8} (hn : n ≠ 4) :
    slValidateUtf8char b₁ b₂ b₃ b₄ = (true, n) ↔
      (b₁.toNat < 0x80 ∧ n = 1) ∨
      (0xc2 ≤ b₁.toNat ∧ b₁.toNat ≤ 0xdf ∧ 0x80 ≤ b₂.toNat ∧ b₂.toNat ≤ 0xbf ∧ n = 2) ∨
      (0xe0 ≤ b₁.toNat ∧ b₁.toNat ≤ 0xef ∧ (b₁.toNat = 0xe0 → 0xa0 ≤ b₂.toNat) ∧
        0x80 ≤ b₂.toNat ∧ b₂.toNat ≤ 0xbf ∧ 0x80 ≤ b₃.toNat ∧ b₃.toNat ≤ 0xbf ∧ n = 3) := by
  have hlt : ∀ k : UInt8, b₁ < k ↔ b₁.toNat < k.toNat := fun k => UInt8.lt_iff_toNat_lt
  have he0 : b₁ = 0xe0 ↔ b₁.toNat = 0xe0 := UInt8.toNat_inj.symm
  unfold slValidateUtf8char
  simp only [hlt, he0]
  split_ifs with hone htwo hthree he0 hin
  · simp
    grind
  · simp [within_iff]
    grind
  · simp [within_iff]
    grind
  · simp [within_iff] at hin ⊢
    grind
  · simp [within_iff] at hin ⊢
    grind
  · simp
    grind
  · simp
    grind
  · simp
    grind

theorem nextUcs2_eq_some {r : UInt16 × ℕ} :
    nextUcs2 d p = some r ↔ ∃ n, slValidateUtf8char (d p) (d (p + 1)) (d (p + 2)) (d (p + 3)) =
      (true, n) ∧ decodeUtf8char d p n = some r ∧ ¬ Surrogate r.1 := by
  unfold nextUcs2
  obtain ⟨legal, n⟩ := slValidateUtf8char (d p) (d (p + 1)) (d (p + 2)) (d (p + 3))
  cases legal with
  | false => simp
  | true => simp [Option.filter_eq_some_iff]

theorem bits_toNat (b msk : UInt8) {k : ℕ} (hmsk : msk.toNat = 2 ^ k - 1) :
    (b &&& msk).toUInt16.toNat = b.toNat % 2 ^ k := by
  rw [UInt8.toNat_toUInt16, UInt8.toNat_and, hmsk]
  exact Nat.and_two_pow_sub_one_eq_mod b.toNat k

/-- The bits of a byte are put behind others. -/
theorem joinBits_toNat {a b : UInt16} (ha : a.toNat < 1024) (hb : b.toNat < 64) :
    ((a <<< 6) + b).toNat = a.toNat * 64 + b.toNat := by
  simp [Nat.shiftLeft_eq]
  omega

/-- What a character's bytes are taken together to. -/
theorem decodeUtf8char_iff {n : UInt8} {p' : ℕ} (hn : n = 1 ∨ n = 2 ∨ n = 3) :
    decodeUtf8char d p n = some (c, p') ↔
      (n = 1 ∧ c.toNat = (d p).toNat ∧ p' = p + 1) ∨
      (n = 2 ∧ c.toNat = (d p).toNat % 32 * 64 + (d (p + 1)).toNat % 64 ∧ p' = p + 2) ∨
      (n = 3 ∧ c.toNat = ((d p).toNat % 16 * 64 + (d (p + 1)).toNat % 64) * 64 +
        (d (p + 2)).toNat % 64 ∧ p' = p + 3) := by
  have htail : ∀ b : UInt8, (b &&& 0x3f).toUInt16.toNat = b.toNat % 64 :=
    fun b => bits_toNat b 0x3f (k := 6) rfl
  have hfirst : (d p &&& 0x1f).toUInt16.toNat = (d p).toNat % 32 :=
    bits_toNat (d p) 0x1f (k := 5) rfl
  have hfirst' : (d p &&& 0x0f).toUInt16.toNat = (d p).toNat % 16 :=
    bits_toNat (d p) 0x0f (k := 4) rfl
  have htwo := joinBits_toNat (a := (d p &&& 0x1f).toUInt16)
    (b := (d (p + 1) &&& 0x3f).toUInt16) (by omega) (by rw [htail]; omega)
  have hthree := joinBits_toNat (a := (d p &&& 0x0f).toUInt16)
    (b := (d (p + 1) &&& 0x3f).toUInt16) (by omega) (by rw [htail]; omega)
  rw [hfirst', htail] at hthree
  have hthree' := joinBits_toNat
    (a := ((d p &&& 0x0f).toUInt16 <<< 6) + (d (p + 1) &&& 0x3f).toUInt16)
    (b := (d (p + 2) &&& 0x3f).toUInt16) (by omega) (by rw [htail]; omega)
  rw [hfirst, htail] at htwo
  rw [hthree, htail] at hthree'
  have hsome : ∀ (a : UInt16) (q : ℕ), some (a, q) = some (c, p') ↔ c.toNat = a.toNat ∧ p' = q := by
    intro a q
    rw [Option.some.injEq, Prod.mk.injEq, ← UInt16.toNat_inj, eq_comm, eq_comm (a := q)]
  unfold decodeUtf8char
  rcases hn with rfl | rfl | rfl
  · rw [if_pos rfl, hsome, UInt8.toNat_toUInt16]
    simp
  · rw [if_neg (by decide), if_pos rfl, hsome, htwo]
    simp
  · rw [if_neg (by decide), if_neg (by decide), if_pos rfl, hsome, hthree']
    simp

/-- The bytes of a unit, one by one. -/
theorem unitAt_iff {p' : ℕ} :
    p' = p + (unitToUtf8 c).length ∧ load d p (unitToUtf8 c).length = unitToUtf8 c ↔
      (c.toNat < 0x80 ∧ (d p).toNat = c.toNat ∧ p' = p + 1) ∨
      (0x80 ≤ c.toNat ∧ c.toNat < 0x800 ∧ (d p).toNat = 0xc0 + c.toNat / 64 ∧
        (d (p + 1)).toNat = 0x80 + c.toNat % 64 ∧ p' = p + 2) ∨
      (0x800 ≤ c.toNat ∧ (d p).toNat = 0xe0 + c.toNat / 4096 ∧
        (d (p + 1)).toNat = 0x80 + c.toNat / 64 % 64 ∧
        (d (p + 2)).toNat = 0x80 + c.toNat % 64 ∧ p' = p + 3) := by
  have hlen : (unitToUtf8 c).length = (utf8Bytes c.toNat).length := by
    rw [← unitToUtf8_toNat, List.length_map]
  rw [load_eq_unitToUtf8_iff, hlen]
  unfold utf8Bytes
  split_ifs with hone htwo
  · simp [load_succ]
    omega
  · simp [load_succ]
    omega
  · simp [load_succ, Nat.add_assoc]
    omega

/-- A character is taken exactly where the bytes of its unit lie, which is no surrogate. -/
theorem nextUcs2_iff {p' : ℕ} :
    nextUcs2 d p = some (c, p') ↔
      ¬ Surrogate c ∧ p' = p + (unitToUtf8 c).length ∧
        load d p (unitToUtf8 c).length = unitToUtf8 c := by
  rw [nextUcs2_eq_some, unitAt_iff]
  have hlt : c.toNat < 65536 := c.toNat_lt
  constructor
  · rintro ⟨n, hlegal, hdecode, hsurrogate⟩
    refine ⟨hsurrogate, ?_⟩
    have hn : n ≠ 4 := by
      rintro rfl
      exact absurd hdecode.symm (Option.some_ne_none _)
    rw [slValidateUtf8char_iff hn] at hlegal
    rcases hlegal with ⟨h, rfl⟩ | ⟨h, h', h'', h''', rfl⟩ | ⟨h, h', he0, h2, h2', h3, h3', rfl⟩
    · rw [decodeUtf8char_iff (.inl rfl)] at hdecode
      simp at hdecode
      omega
    · rw [decodeUtf8char_iff (.inr (.inl rfl))] at hdecode
      simp at hdecode
      omega
    · rw [decodeUtf8char_iff (.inr (.inr rfl))] at hdecode
      have hfirst : (d p).toNat % 16 = (d p).toNat - 0xe0 := by omega
      have hsecond : (d (p + 1)).toNat % 64 = (d (p + 1)).toNat - 0x80 := by omega
      have hthird : (d (p + 2)).toNat % 64 = (d (p + 2)).toNat - 0x80 := by omega
      simp [hfirst, hsecond, hthird] at hdecode
      omega
  · rintro ⟨hsurrogate, h | h | h⟩
    · refine ⟨1, ?_, ?_, hsurrogate⟩
      · rw [slValidateUtf8char_iff (by decide)]
        simp
        omega
      · rw [decodeUtf8char_iff (.inl rfl)]
        simp
        omega
    · refine ⟨2, ?_, ?_, hsurrogate⟩
      · rw [slValidateUtf8char_iff (by decide)]
        simp
        omega
      · rw [decodeUtf8char_iff (.inr (.inl rfl))]
        simp
        omega
    · refine ⟨3, ?_, ?_, hsurrogate⟩
      · rw [slValidateUtf8char_iff (by decide)]
        simp
        omega
      · rw [decodeUtf8char_iff (.inr (.inr rfl))]
        simp
        omega

end Units

/-- The text of some units. -/
def utf8Text (units : List UInt16) : List UInt8 := units.flatMap unitToUtf8

/-- A unit that a text can hold: no end of a text, and no surrogate. -/
def Plain (c : UInt16) : Prop := c ≠ 0 ∧ ¬ Surrogate c

instance (c : UInt16) : Decidable (Plain c) := inferInstanceAs (Decidable (_ ∧ _))

section Texts

variable {c : UInt16} {d : ℕ → UInt8} {p : ℕ} {text bytes rest : List UInt8}
  {units : List UInt16} {maxnumchars num n : UInt16} {m : ℕ → UInt16} {q : ℕ}

@[simp] theorem utf8Text_nil : utf8Text [] = [] := rfl

@[simp] theorem utf8Text_cons (c : UInt16) (units : List UInt16) :
    utf8Text (c :: units) = unitToUtf8 c ++ utf8Text units := rfl

theorem mem_unitToUtf8_ne_zero (hc : c ≠ 0) : ∀ b ∈ unitToUtf8 c, b ≠ 0 := by
  rintro b hb rfl
  have hzero : 0 ∈ utf8Bytes c.toNat := by
    rw [← unitToUtf8_toNat]
    exact List.mem_map_of_mem hb
  have hne : c.toNat ≠ 0 := fun heq => hc (UInt16.toNat_inj.mp heq)
  unfold utf8Bytes at hzero
  split_ifs at hzero with hone htwo
  · simp at hzero
    omega
  · simp at hzero
    omega
  · simp at hzero
    omega

/-- A unit's first byte is zero for the unit zero only. -/
theorem unitAt_eq_zero_iff (h : load d p (unitToUtf8 c).length = unitToUtf8 c) :
    d p = 0 ↔ c = 0 := by
  have hbytes := unitAt_iff.mp ⟨rfl, h⟩
  have hbyte : d p = 0 ↔ (d p).toNat = 0 := UInt8.toNat_inj.symm
  have hunit : c = 0 ↔ c.toNat = 0 := UInt16.toNat_inj.symm
  rw [hbyte, hunit]
  omega

theorem TextAt.drop (h : TextAt d p (bytes ++ rest)) :
    load d p bytes.length = bytes ∧ TextAt d (p + bytes.length) rest := by
  have hload := h.bytes
  rw [List.length_append, Nat.add_assoc, load_add, List.append_assoc] at hload
  obtain ⟨hfront, hrear⟩ := List.append_inj hload (length_load _ _ _)
  exact ⟨hfront, hrear, fun b hb => h.nonzero b (List.mem_append_right _ hb)⟩

theorem TextAt.cell_length (h : TextAt d p text) : d (p + text.length) = 0 := by
  have hload := h.bytes
  rw [load_add, load_succ] at hload
  exact (List.cons.inj (List.append_inj hload (length_load _ _ _)).2).1

/-- Bytes that lie where a text does, and are not zero, are the beginning of the text. -/
theorem TextAt.split (h : TextAt d p text) (hload : load d p bytes.length = bytes)
    (hbytes : ∀ b ∈ bytes, b ≠ 0) :
    ∃ rest, text = bytes ++ rest ∧ TextAt d (p + bytes.length) rest := by
  have hle : bytes.length ≤ text.length := by
    by_contra hlt
    have hget := getElem?_load d (i := p) (Nat.not_le.mp hlt)
    rw [hload, h.cell_length] at hget
    exact hbytes 0 (List.mem_of_getElem? hget) rfl
  have htake : text.take bytes.length = bytes := by
    calc text.take bytes.length = (text ++ [0]).take bytes.length :=
          (List.take_append_of_le_length hle).symm
      _ = bytes := by rw [← h.bytes, take_load d p (by omega), hload]
  have hsplit : text = bytes ++ text.drop bytes.length := by
    rw [← htake, List.length_take, Nat.min_eq_left hle]
    exact (List.take_append_drop _ _).symm
  refine ⟨text.drop bytes.length, hsplit, ?_⟩
  rw [hsplit] at h
  exact h.drop.2

/-- A text's first unit, and the text behind it. -/
theorem TextAt.of_cons (h : TextAt d p (utf8Text (c :: units))) :
    c ≠ 0 ∧ load d p (unitToUtf8 c).length = unitToUtf8 c ∧
      TextAt d (p + (unitToUtf8 c).length) (utf8Text units) := by
  rw [utf8Text_cons] at h
  refine ⟨?_, h.drop⟩
  rintro rfl
  exact h.nonzero 0 (List.mem_append_left _ (List.mem_singleton_self _)) rfl

theorem room_succ (h : num.toNat + (units.length + 1) ≤ maxnumchars.toNat) :
    num ≠ maxnumchars ∧ (num + 1).toNat + units.length ≤ maxnumchars.toNat ∧
      num + 1 + UInt16.ofNat units.length = num + UInt16.ofNat (units.length + 1) := by
  have hmax := maxnumchars.toNat_lt
  refine ⟨?_, ?_, ?_⟩
  · rintro rfl
    omega
  · rw [UInt16.toNat_add, UInt16.toNat_one]
    omega
  · rw [UInt16.ofNat_add, UInt16.add_assoc, UInt16.add_comm 1]
    rfl

/-- The units of a text are stored, as long as there is room for them. -/
theorem utf8ToUcs2Loop_units (h : TextAt d p (utf8Text units))
    (hplain : ∀ c ∈ units, ¬ Surrogate c)
    (hroom : num.toNat + units.length ≤ maxnumchars.toNat) :
    utf8ToUcs2Loop d maxnumchars m p q num =
      (store m q units, some (num + UInt16.ofNat units.length)) := by
  induction units generalizing m p q num with
  | nil =>
      have hend : d p = 0 := h.cell_length
      rw [utf8ToUcs2Loop, if_pos hend, store_nil]
      simp
  | cons c units ih =>
      obtain ⟨hc, hload, hrest⟩ := h.of_cons
      obtain ⟨hne, hroom, hsum⟩ := room_succ hroom
      have hnext : nextUcs2 d p = some (c, p + (unitToUtf8 c).length) :=
        nextUcs2_iff.mpr ⟨hplain c (List.mem_cons_self ..), rfl, hload⟩
      have hfirst : d p ≠ 0 := fun h => hc ((unitAt_eq_zero_iff hload).mp h)
      rw [utf8ToUcs2Loop, if_neg hfirst, if_neg hne, hnext]
      dsimp only
      rw [ih hrest (fun a ha => hplain a (List.mem_cons_of_mem _ ha)) hroom, hsum]
      exact congrArg (fun m => (m, some _)) (store_append m q [c] units)

/-- What is accepted is the text of some units, and there is room for them. -/
theorem exists_units (h : TextAt d p text) (hle : num.toNat ≤ maxnumchars.toNat)
    (hrun : (utf8ToUcs2Loop d maxnumchars m p q num).2 = some n) :
    ∃ units, text = utf8Text units ∧ (∀ c ∈ units, Plain c) ∧
      num.toNat + units.length ≤ maxnumchars.toNat := by
  fun_induction utf8ToUcs2Loop d maxnumchars m p q num generalizing text with
  | case1 m p q num hend =>
      have hempty : text = [] := by
        by_contra hne
        obtain ⟨b, rest, rfl⟩ := List.exists_cons_of_ne_nil hne
        have hload := h.bytes
        rw [List.length_cons, load_succ] at hload
        exact h.nonzero b (List.mem_cons_self ..) ((List.cons.inj hload).1 ▸ hend)
      exact ⟨[], hempty, List.forall_mem_nil _, hle⟩
  | case2 m p q hend => exact absurd hrun.symm (Option.some_ne_none n)
  | case3 m p q num hend hne hnext => exact absurd hrun.symm (Option.some_ne_none n)
  | case4 m p q num hend hne c p' hnext ih =>
      obtain ⟨hsurrogate, rfl, hload⟩ := nextUcs2_iff.mp hnext
      have hc : c ≠ 0 := fun h => hend ((unitAt_eq_zero_iff hload).mpr h)
      obtain ⟨rest, rfl, hrest⟩ := h.split hload (mem_unitToUtf8_ne_zero hc)
      have hlt : num.toNat < maxnumchars.toNat :=
        Nat.lt_of_le_of_ne hle fun heq => hne (UInt16.toNat_inj.mp heq)
      have hnum : (num + 1).toNat = num.toNat + 1 := by
        have hmax := maxnumchars.toNat_lt
        rw [UInt16.toNat_add, UInt16.toNat_one]
        omega
      obtain ⟨units, rfl, hplain, hroom⟩ := ih hrest (by omega) hrun
      refine ⟨c :: units, rfl, List.forall_mem_cons.mpr ⟨⟨hc, hsurrogate⟩, hplain⟩, ?_⟩
      rw [List.length_cons]
      omega

end Texts

section Buffers

variable {d : ℕ → UInt8} {p stop : ℕ} {units : List UInt16}

/-- A unit's bytes are stored if there is room for them and the end of the text. -/
theorem ucs2ToUtf8Loop_cons (c : UInt16) (units : List UInt16) :
    ucs2ToUtf8Loop stop d p (c :: units) =
      if p + (unitToUtf8 c).length > stop then (store d p [0], false)
      else
        ucs2ToUtf8Loop stop (store d p (unitToUtf8 c)) (p + (unitToUtf8 c).length) units := by
  rw [ucs2ToUtf8Loop]
  unfold unitToUtf8
  by_cases hone : c < 0x80
  · simp only [if_pos hone]
    rfl
  · by_cases htwo : c < 0x800
    · simp only [if_neg hone, if_pos htwo, store_cons]
      rfl
    · have hthird : p + 2 = p + 1 + 1 := rfl
      simp only [if_neg hone, if_neg htwo, hthird, store_cons]
      rfl

/-- What the loop leaves: the text of the longest run of units that fits, and its end. -/
theorem ucs2ToUtf8Loop_eq (d : ℕ → UInt8) (units : List UInt16) (hstop : p ≤ stop) :
    ∃ k ≤ units.length,
      ucs2ToUtf8Loop stop d p units =
        (store d p (utf8Text (units.take k) ++ [0]), decide (p + (utf8Text units).length ≤ stop)) ∧
      p + (utf8Text (units.take k)).length ≤ stop ∧
      (p + (utf8Text units).length ≤ stop → k = units.length) := by
  induction units generalizing d p with
  | nil => exact ⟨0, Nat.le_refl 0, by simp [ucs2ToUtf8Loop, hstop], hstop, fun _ => rfl⟩
  | cons c units ih =>
      rw [ucs2ToUtf8Loop_cons]
      have hlen : p + (utf8Text (c :: units)).length =
          p + (unitToUtf8 c).length + (utf8Text units).length := by
        rw [utf8Text_cons, List.length_append, Nat.add_assoc]
      split_ifs with hfull
      · refine ⟨0, Nat.zero_le _, ?_, hstop, fun hfits => by omega⟩
        rw [hlen, decide_eq_false (by omega)]
        rfl
      · obtain ⟨k, hk, heq, hfits, hall⟩ := ih (store d p (unitToUtf8 c)) (Nat.not_lt.mp hfull)
        refine ⟨k + 1, Nat.succ_le_succ hk, ?_, ?_, fun h => by rw [hall (by omega)]; rfl⟩
        · rw [heq, store_append, hlen, List.take_succ_cons, utf8Text_cons, List.append_assoc]
        · rw [List.take_succ_cons, utf8Text_cons, List.length_append]
          omega

end Buffers

/-- A text in UTF-8 of characters of at most three bytes. -/
structure WellFormed (text : List UInt8) (cs : List Char) : Prop where
  bytes : text = cs.flatMap String.utf8EncodeChar
  short : ∀ ch ∈ cs, ch.utf8Size ≤ 3

section Characters

variable {c : UInt16} {ch : Char} {text : List UInt8} {units : List UInt16} {cs : List Char}

theorem utf8Size_le_three_iff : ch.utf8Size ≤ 3 ↔ ch.toNat < 0x10000 := by
  have hone : ch.val ≤ 0x7f ↔ ch.val.toNat ≤ 0x7f := UInt32.le_iff_toNat_le
  have htwo : ch.val ≤ 0x7ff ↔ ch.val.toNat ≤ 0x7ff := UInt32.le_iff_toNat_le
  have hthree : ch.val ≤ 0xffff ↔ ch.val.toNat ≤ 0xffff := UInt32.le_iff_toNat_le
  have hsize : ch.utf8Size = if ch.val ≤ 0x7f then 1 else if ch.val ≤ 0x7ff then 2
      else if ch.val ≤ 0xffff then 3 else 4 := rfl
  have hval : ch.toNat = ch.val.toNat := rfl
  rw [hsize, hval]
  simp only [hone, htwo, hthree]
  split_ifs <;> omega

/-- A unit and a character of one number have the same bytes. -/
theorem utf8EncodeChar_eq (h : ch.toNat = c.toNat) :
    String.utf8EncodeChar ch = unitToUtf8 c := by
  have hinj : Function.Injective (List.map UInt8.toNat) :=
    List.map_injective_iff.mpr fun _ _ => UInt8.toNat_inj.mp
  have hlt : c.toNat < 65536 := c.toNat_lt
  have hval : ch.val.toNat = c.toNat := h
  apply hinj
  rw [unitToUtf8_toNat]
  unfold String.utf8EncodeChar utf8Bytes
  simp only [hval, Nat.lt_succ_iff]
  split_ifs
  · simp
    omega
  · simp
    omega
  · simp
    omega
  · omega

/-- A unit that is no surrogate is the number of a character. -/
theorem exists_char (h : ¬ Surrogate c) : ∃ ch : Char, ch.toNat = c.toNat := by
  have hlt : c.toNat < 65536 := c.toNat_lt
  have hlow : c ≥ 0xd800 ↔ 0xd800 ≤ c.toNat := UInt16.le_iff_toNat_le
  have hhigh : c ≤ 0xdfff ↔ c.toNat ≤ 0xdfff := UInt16.le_iff_toNat_le
  rw [Surrogate, hlow, hhigh] at h
  have hvalid : c.toNat.isValidChar := by
    unfold Nat.isValidChar
    omega
  exact ⟨Char.ofNatAux c.toNat hvalid, rfl⟩

/-- A character of at most three bytes is the number of a unit that is no surrogate. -/
theorem exists_unit (h : ch.utf8Size ≤ 3) : ∃ c : UInt16, ¬ Surrogate c ∧ ch.toNat = c.toNat := by
  have hlt := utf8Size_le_three_iff.mp h
  have hvalid : ch.toNat.isValidChar := ch.valid
  have hnum : (UInt16.ofNat ch.toNat).toNat = ch.toNat := UInt16.toNat_ofNat_of_lt' hlt
  refine ⟨UInt16.ofNat ch.toNat, ?_, hnum.symm⟩
  unfold Nat.isValidChar at hvalid
  rw [Surrogate, ge_iff_le, UInt16.le_iff_toNat_le, UInt16.le_iff_toNat_le, hnum]
  have hlow : UInt16.toNat 0xd800 = 0xd800 := rfl
  have hhigh : UInt16.toNat 0xdfff = 0xdfff := rfl
  omega

theorem WellFormed.cons (hch : ch.utf8Size ≤ 3) (h : WellFormed text cs) :
    WellFormed (String.utf8EncodeChar ch ++ text) (ch :: cs) :=
  ⟨by rw [h.bytes, List.flatMap_cons], List.forall_mem_cons.mpr ⟨hch, h.short⟩⟩

/-- The texts of units that are no surrogates are the texts of characters. -/
theorem exists_chars (h : ∀ c ∈ units, ¬ Surrogate c) :
    ∃ cs, WellFormed (utf8Text units) cs ∧ cs.length = units.length := by
  induction units with
  | nil => exact ⟨[], ⟨rfl, List.forall_mem_nil _⟩, rfl⟩
  | cons c units ih =>
      obtain ⟨hc, hunits⟩ := List.forall_mem_cons.mp h
      obtain ⟨ch, hch⟩ := exists_char hc
      obtain ⟨cs, hcs, hlen⟩ := ih hunits
      have hshort : ch.utf8Size ≤ 3 := utf8Size_le_three_iff.mpr (hch ▸ c.toNat_lt)
      refine ⟨ch :: cs, ?_, congrArg (· + 1) hlen⟩
      rw [utf8Text_cons, ← utf8EncodeChar_eq hch]
      exact hcs.cons hshort

theorem WellFormed.exists_units (h : WellFormed text cs) :
    ∃ units, text = utf8Text units ∧ (∀ c ∈ units, ¬ Surrogate c) ∧
      units.length = cs.length := by
  induction cs generalizing text with
  | nil => exact ⟨[], h.bytes, List.forall_mem_nil _, rfl⟩
  | cons ch cs ih =>
      obtain ⟨hch, hcs⟩ := List.forall_mem_cons.mp h.short
      obtain ⟨c, hc, hnum⟩ := exists_unit hch
      obtain ⟨units, hunits, hplain, hlen⟩ := ih ⟨rfl, hcs⟩
      refine ⟨c :: units, ?_, List.forall_mem_cons.mpr ⟨hc, hplain⟩, congrArg (· + 1) hlen⟩
      rw [h.bytes, List.flatMap_cons, hunits, utf8EncodeChar_eq hnum, utf8Text_cons]

end Characters

section Conversions

variable {d : ℕ → UInt8} {p q : ℕ} {m : ℕ → UInt16} {text : List UInt8} {units : List UInt16}
  {maxnumchars maxbytes : UInt16}

/-- What is accepted, and what is stored then. -/
theorem slUtf8ToUcs2_eq_some_iff (h : TextAt d p text) {n : UInt16} :
    (slUtf8ToUcs2 d p m q maxnumchars).2 = some n ↔
      ∃ units, text = utf8Text units ∧ (∀ c ∈ units, Plain c) ∧
        units.length ≤ maxnumchars.toNat ∧ n = UInt16.ofNat units.length ∧
        slUtf8ToUcs2 d p m q maxnumchars = (store m q units, some n) := by
  constructor
  · intro hrun
    obtain ⟨units, rfl, hplain, hroom⟩ := exists_units h (Nat.zero_le _) hrun
    have hroom' : units.length ≤ maxnumchars.toNat := by simpa using hroom
    have heq := utf8ToUcs2Loop_units (m := m) (q := q) h (fun c hc => (hplain c hc).2) hroom
    rw [slUtf8ToUcs2, heq] at hrun
    obtain rfl := Option.some.inj hrun
    exact ⟨units, rfl, hplain, hroom', UInt16.zero_add _, heq⟩
  · rintro ⟨units, rfl, hplain, hroom, rfl, heq⟩
    rw [heq]

theorem accepts_iff (h : TextAt d p text) :
    (slUtf8ToUcs2 d p m q maxnumchars).2.isSome ↔
      ∃ cs, WellFormed text cs ∧ cs.length ≤ maxnumchars.toNat := by
  rw [Option.isSome_iff_exists]
  constructor
  · rintro ⟨n, hn⟩
    obtain ⟨units, rfl, hplain, hroom, -⟩ := (slUtf8ToUcs2_eq_some_iff h).mp hn
    obtain ⟨cs, hcs, hlen⟩ := exists_chars fun c hc => (hplain c hc).2
    exact ⟨cs, hcs, hlen ▸ hroom⟩
  · rintro ⟨cs, hcs, hroom⟩
    obtain ⟨units, rfl, hplain, hlen⟩ := hcs.exists_units
    refine ⟨_, congrArg Prod.snd (utf8ToUcs2Loop_units h hplain ?_)⟩
    rw [hlen]
    simpa using hroom

/-- What is written, with room for the end of the text at least. -/
theorem slUcs2ToUtf8_eq (d : ℕ → UInt8) (units : List UInt16) (p : ℕ) (hmax : 1 ≤ maxbytes) :
    ∃ k ≤ units.length,
      slUcs2ToUtf8 d units p maxbytes =
        (store d p (utf8Text (units.take k) ++ [0]),
          decide ((utf8Text units ++ [0]).length ≤ maxbytes.toNat)) ∧
      (utf8Text (units.take k) ++ [0]).length ≤ maxbytes.toNat ∧
      ((utf8Text units ++ [0]).length ≤ maxbytes.toNat → k = units.length) := by
  have hpos : 1 ≤ maxbytes.toNat := UInt16.le_iff_toNat_le.mp hmax
  have hstop : p ≤ p + maxbytes.toNat - 1 := by omega
  obtain ⟨k, hk, heq, hfits, hall⟩ := ucs2ToUtf8Loop_eq d units hstop
  have hiff : ∀ l : List UInt8, (l ++ [0]).length ≤ maxbytes.toNat ↔
      p + l.length ≤ p + maxbytes.toNat - 1 := by
    intro l
    rw [List.length_append, List.length_singleton]
    omega
  refine ⟨k, hk, ?_, (hiff _).mpr hfits, fun h => hall ((hiff _).mp h)⟩
  rw [slUcs2ToUtf8, heq]
  simp only [hiff]

theorem textAt_store (d : ℕ → UInt8) (p : ℕ) (hplain : ∀ c ∈ units, Plain c) :
    TextAt (store d p (utf8Text units ++ [0])) p (utf8Text units) := by
  refine ⟨load_store_of_length d p (by rw [List.length_append]; rfl), fun b hb => ?_⟩
  obtain ⟨c, hc, hbc⟩ := List.mem_flatMap.mp hb
  exact mem_unitToUtf8_ne_zero (hplain c hc).1 b hbc

/-- A text that was fit into the buffer is taken back to its units. -/
theorem slUtf8ToUcs2_slUcs2ToUtf8 (hplain : ∀ c ∈ units, Plain c)
    (hroom : units.length ≤ maxnumchars.toNat) (hmax : 1 ≤ maxbytes)
    (hfit : (slUcs2ToUtf8 d units p maxbytes).2 = true) :
    slUtf8ToUcs2 (slUcs2ToUtf8 d units p maxbytes).1 p m q maxnumchars =
      (store m q units, some (UInt16.ofNat units.length)) := by
  obtain ⟨k, -, heq, -, hall⟩ := slUcs2ToUtf8_eq d units p hmax
  rw [heq] at hfit ⊢
  rw [hall (of_decide_eq_true hfit), List.take_length]
  have hroom' : (0 : UInt16).toNat + units.length ≤ maxnumchars.toNat := by simpa using hroom
  rw [slUtf8ToUcs2, utf8ToUcs2Loop_units (textAt_store d p hplain) (fun c hc => (hplain c hc).2)
    hroom', UInt16.zero_add]

/-- The units of a text are taken back to the text, if it fits into the buffer. -/
theorem slUcs2ToUtf8_slUtf8ToUcs2 {e : ℕ → UInt8} {r : ℕ} {n : UInt16} (h : TextAt d p text)
    (hrun : (slUtf8ToUcs2 d p m q maxnumchars).2 = some n) (hfit : text.length < maxbytes.toNat) :
    (∀ c ∈ load (slUtf8ToUcs2 d p m q maxnumchars).1 q n.toNat, Plain c) ∧
      slUcs2ToUtf8 e (load (slUtf8ToUcs2 d p m q maxnumchars).1 q n.toNat) r maxbytes =
        (store e r (text ++ [0]), true) := by
  obtain ⟨units, rfl, hplain, hroom, rfl, heq⟩ := (slUtf8ToUcs2_eq_some_iff h).mp hrun
  have hlen : (UInt16.ofNat units.length).toNat = units.length :=
    UInt16.toNat_ofNat_of_lt' (Nat.lt_of_le_of_lt hroom maxnumchars.toNat_lt)
  have hload : load (store m q units) q units.length = units := load_store m q units
  have hmax : 1 ≤ maxbytes := UInt16.le_iff_toNat_le.mpr (Nat.one_le_of_lt hfit)
  have hfits : (utf8Text units ++ [0]).length ≤ maxbytes.toNat := by
    rw [List.length_append]
    exact hfit
  obtain ⟨k, -, hwritten, -, hall⟩ := slUcs2ToUtf8_eq e units r hmax
  rw [heq, hlen]
  dsimp only
  rw [hload]
  refine ⟨hplain, ?_⟩
  rw [hwritten, hall hfits, List.take_length, decide_eq_true hfits]

/-- What is accepted, the conversions as inverses of each other, and what is written. -/
theorem utf8_ucs2_conversions :
    (∀ (d : ℕ → UInt8) p (m : ℕ → UInt16) q maxnumchars text, TextAt d p text →
      ((slUtf8ToUcs2 d p m q maxnumchars).2.isSome ↔
        ∃ cs, WellFormed text cs ∧ cs.length ≤ maxnumchars.toNat)) ∧
    (∀ (d : ℕ → UInt8) p (m : ℕ → UInt16) q maxnumchars maxbytes units,
      (∀ c ∈ units, Plain c) → units.length ≤ maxnumchars.toNat → 1 ≤ maxbytes →
      (slUcs2ToUtf8 d units p maxbytes).2 = true →
      slUtf8ToUcs2 (slUcs2ToUtf8 d units p maxbytes).1 p m q maxnumchars =
        (store m q units, some (UInt16.ofNat units.length))) ∧
    (∀ (d : ℕ → UInt8) p (m : ℕ → UInt16) q maxnumchars text n (e : ℕ → UInt8) r maxbytes,
      TextAt d p text → (slUtf8ToUcs2 d p m q maxnumchars).2 = some n →
      text.length < maxbytes.toNat →
      (∀ c ∈ load (slUtf8ToUcs2 d p m q maxnumchars).1 q n.toNat, Plain c) ∧
        slUcs2ToUtf8 e (load (slUtf8ToUcs2 d p m q maxnumchars).1 q n.toNat) r maxbytes =
          (store e r (text ++ [0]), true)) ∧
    (∀ (d : ℕ → UInt8) units p maxbytes, 1 ≤ maxbytes →
      ∃ k ≤ units.length,
        (slUcs2ToUtf8 d units p maxbytes).1 = store d p (utf8Text (units.take k) ++ [0]) ∧
        (utf8Text (units.take k) ++ [0]).length ≤ maxbytes.toNat ∧
        ((slUcs2ToUtf8 d units p maxbytes).2 = false ↔
          maxbytes.toNat < (utf8Text units ++ [0]).length) ∧
        ((slUcs2ToUtf8 d units p maxbytes).2 = true → k = units.length)) := by
  refine ⟨fun d p m q max text h => accepts_iff h, ?_, ?_, ?_⟩
  · intro d p m q maxnumchars maxbytes units hplain hroom hmax hfit
    exact slUtf8ToUcs2_slUcs2ToUtf8 hplain hroom hmax hfit
  · intro d p m q maxnumchars text n e r maxbytes h hrun hfit
    exact slUcs2ToUtf8_slUtf8ToUcs2 h hrun hfit
  · intro d units p maxbytes hmax
    obtain ⟨k, hk, heq, hfits, hall⟩ := slUcs2ToUtf8_eq d units p hmax
    rw [heq]
    refine ⟨k, hk, rfl, hfits, ?_, fun htrue => hall (of_decide_eq_true htrue)⟩
    rw [decide_eq_false_iff_not, Nat.not_le]

theorem wellFormed_abc : WellFormed [0x61, 0x62, 0x63] ['a', 'b', 'c'] where
  bytes := by decide
  short := by
    simp only [List.forall_mem_cons]
    exact ⟨by decide, by decide, by decide, List.forall_mem_nil _⟩

theorem plain_units : ∀ c ∈ [0x61, 0xe9, 0x20ac], Plain c := by
  simp only [List.forall_mem_cons]
  exact ⟨by decide, by decide, by decide, List.forall_mem_nil _⟩

theorem utf8_ucs2_conversions_abc :
    (slUtf8ToUcs2 abc 0 (fun _ => 0) 0 3).2.isSome ∧
      slUtf8ToUcs2 (slUcs2ToUtf8 (fun _ => 1) [0x61, 0xe9, 0x20ac] 4 7).1 4 (fun _ => 0) 0 3 =
        (store (fun _ => 0) 0 [0x61, 0xe9, 0x20ac], some 3) ∧
      slUcs2ToUtf8 (fun _ => 1) (load (slUtf8ToUcs2 abc 0 (fun _ => 0) 0 3).1 0 3) 5 4 =
        (store (fun _ => 1) 5 [0x61, 0x62, 0x63, 0x00], true) ∧
      (slUcs2ToUtf8 (fun _ => 1) [0x61, 0xe9, 0x20ac] 4 6).2 = false := by
  obtain ⟨haccepts, hback, hforth, hwrites⟩ := utf8_ucs2_conversions
  refine ⟨?_, ?_, ?_, ?_⟩
  · exact (haccepts abc 0 _ 0 3 _ textAt_abc).mpr ⟨_, wellFormed_abc, by decide⟩
  · exact hback (fun _ => 1) 4 (fun _ => 0) 0 3 7 _ plain_units (by decide) (by decide) (by decide)
  · exact (hforth abc 0 (fun _ => 0) 0 3 _ 3 (fun _ => 1) 5 4 textAt_abc (by decide +kernel)
      (by decide)).2
  · obtain ⟨k, -, -, -, hfalse, -⟩ := hwrites (fun _ => 1) [0x61, 0xe9, 0x20ac] 4 6 (by decide)
    exact hfalse.mpr (by decide)

/-- A text with more characters than there is room for is refused. -/
theorem slUtf8ToUcs2_full : WellFormed [0x61, 0x62, 0x63] ['a', 'b', 'c'] ∧
    TextAt abc 0 [0x61, 0x62, 0x63] ∧ (slUtf8ToUcs2 abc 0 (fun _ => 0) 0 2).2 = none :=
  ⟨wellFormed_abc, textAt_abc, by decide +kernel⟩

end Conversions

end Sl

end SierraSdk
