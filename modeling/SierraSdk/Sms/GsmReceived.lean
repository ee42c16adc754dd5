import Mathlib.Data.List.TakeWhile
import SierraSdk.Sms.GsmPdu

/-!
# What a text is decoded to

A message that was made with `SwiMakePdu` is decoded in the default alphabet, whatever the
alphabet that it was made in. The caller gets the string up to the first NUL.

A text of the default alphabet comes back if each of its characters does. Of the 8-bit texts only
a few of at most three characters come back, and of the UCS-2 texts only the empty one does
(`eq_cString_iff`): every other octet of it is zero, so that its first septets are no escapes and
stand for more characters than it has.
-/

namespace SierraSdk

namespace Sms

open Memory Bits

section Strings

/-- The string at the beginning of a memory, up to a NUL. -/
def HasString (mem : ℕ → UInt8) (s : List UInt8) : Prop :=
  0 ∉ s ∧ load mem 0 (s.length + 1) = s ++ [0]

theorem not_mem_cString (d : List UInt8) : 0 ∉ cString d := by
  intro h
  have hne := List.mem_takeWhile_imp h
  exact absurd hne (by decide)

theorem cString_of_not_mem {d : List UInt8} (h : 0 ∉ d) : cString d = d := by
  rw [cString, List.takeWhile_eq_self_iff]
  intro c hc
  exact decide_eq_true fun hzero => h (hzero ▸ hc)

theorem cString_append {xs : List UInt8} (h : 0 ∉ xs) (ys : List UInt8) :
    cString (xs ++ ys) = xs ++ cString ys := by
  rw [cString, List.takeWhile_append_of_pos]
  · rfl
  · intro c hc
    exact decide_eq_true fun hzero => h (hzero ▸ hc)

theorem HasString.unique {mem : ℕ → UInt8} {s t : List UInt8} (hs : HasString mem s)
    (ht : HasString mem t) : s = t := by
  have hshort : ∀ {u v : List UInt8}, HasString mem u → HasString mem v →
      ¬ u.length < v.length := by
    intro u v hu hv hlt
    have hnul : (load mem 0 (u.length + 1))[u.length]? = some 0 := by
      rw [hu.2, List.getElem?_append_right (Nat.le_refl _), Nat.sub_self]
      rfl
    have hchar : (load mem 0 (v.length + 1))[u.length]? = some v[u.length] := by
      rw [hv.2, List.getElem?_append_left hlt, List.getElem?_eq_getElem hlt]
    rw [getElem?_load _ (by omega)] at hnul hchar
    have hzero : v[u.length] = 0 := Option.some.inj (hchar.symm.trans hnul)
    exact hv.1 (hzero ▸ List.getElem_mem hlt)
  have hlen : s.length = t.length := Nat.le_antisymm (Nat.le_of_not_lt (hshort ht hs))
    (Nat.le_of_not_lt (hshort hs ht))
  have hload := hs.2.symm.trans (hlen ▸ ht.2)
  exact (List.append_inj hload hlen).1

/-- A text that was stored is read up to its first NUL. -/
theorem hasString_store_iff (before : ℕ → UInt8) (d s : List UInt8) :
    HasString (store before 0 (d ++ [0])) s ↔ s = cString d := by
  have hstring : HasString (store before 0 (d ++ [0])) (cString d) := by
    refine ⟨not_mem_cString d, ?_⟩
    obtain ⟨rest, hrest⟩ : ∃ rest, d ++ [0] = (cString d ++ [0]) ++ rest := by
      have hsplit : d = cString d ++ d.dropWhile (· ≠ 0) := (List.takeWhile_append_dropWhile).symm
      rcases hdrop : d.dropWhile (· ≠ 0) with _ | ⟨c, tail⟩
      · refine ⟨[], ?_⟩
        rw [hdrop, List.append_nil] at hsplit
        rw [← hsplit, List.append_nil]
      · have hzero : c = 0 := by
          have hhead := List.head?_dropWhile_not (fun c : UInt8 => decide (c ≠ 0)) d
          rw [hdrop] at hhead
          simpa using hhead
        refine ⟨tail ++ [0], ?_⟩
        conv_lhs => rw [hsplit, hdrop, hzero]
        simp
    have hload := load_store before 0 (d ++ [0])
    have hpart := load_part (hload.trans (hrest.trans (List.nil_append _).symm))
    rw [List.length_append, List.length_singleton] at hpart
    exact hpart
  exact ⟨fun h => h.unique hstring, fun h => h ▸ hstring⟩

end Strings

section Escapes

theorem decodeSeptets_concat (septets : List UInt8) (c : UInt8) :
    decodeSeptets (septets ++ [c]) = decodeStep (decodeSeptets septets) c := by
  rw [decodeSeptets, List.foldl_append]
  rfl

/-- Each septet that is not an escape adds a character. -/
theorem length_decodeSeptets (septets : List UInt8) :
    (decodeSeptets septets).1.length = septets.countP (· ≠ gsmEscChar) := by
  induction septets using List.reverseRecOn with
  | nil => rfl
  | append_singleton septets c ih =>
      rw [decodeSeptets_concat, List.countP_append, ← ih, decodeStep]
      by_cases hesc : c = gsmEscChar
      · rw [if_pos hesc, hesc]
        rfl
      · have hone : List.countP (fun c => decide (c ≠ gsmEscChar)) [c] = 1 := by simp [hesc]
        rw [if_neg hesc, List.length_append, List.length_singleton, hone]

/-- Septets without an escape are decoded one by one. -/
theorem decodeSeptets_of_no_escape {septets : List UInt8} (h : ∀ c ∈ septets, c ≠ gsmEscChar) :
    decodeSeptets septets = (septets.map gsmChar, false) := by
  induction septets using List.reverseRecOn with
  | nil => rfl
  | append_singleton septets c ih =>
      obtain ⟨hseptets, hc⟩ := List.forall_mem_append.mp h
      have hne : c ≠ gsmEscChar := hc c (List.mem_singleton_self c)
      rw [decodeSeptets_concat, ih hseptets, decodeStep, if_neg hne, List.map_append]
      rfl

set_option maxRecDepth 2000 in
theorem gsmToUcs2_ne_zero : ∀ v ∈ gsmToUcs2, v % 2 ^ 8 ≠ 0 := by decide

/-- The character of a code stands at its place in the table. -/
theorem gsmChar_entry {c : UInt8} (h : c < 128) :
    ∃ e ∈ gsmToUcs2.zipIdx, e.2 = c.toNat ∧ UInt8.ofNat e.1 = gsmChar c := by
  have hlt : c.toNat < gsmToUcs2.length := h
  refine ⟨(gsmToUcs2.getD c.toNat 0, c.toNat), ?_, rfl, rfl⟩
  rw [List.mem_zipIdx_iff_getElem?, List.getD_eq_getElem _ _ hlt]
  exact List.getElem?_eq_getElem hlt

/-- The table for decoding has no NUL. -/
theorem gsmChar_ne_zero {c : UInt8} (h : c < 128) : gsmChar c ≠ 0 := by
  obtain ⟨e, he, -, hchar⟩ := gsmChar_entry h
  rw [← hchar]
  intro hzero
  have hnat : e.1 % 2 ^ 8 = 0 := congrArg UInt8.toNat hzero
  exact gsmToUcs2_ne_zero e.1 (List.fst_mem_of_mem_zipIdx he) hnat

/-- Without an escape the text is the characters of the codes. -/
theorem cString_decodeSeptets {septets : List UInt8}
    (h : ∀ c ∈ septets, c ≠ gsmEscChar ∧ c < 128) :
    cString (decodeSeptets septets).1 = septets.map gsmChar := by
  rw [decodeSeptets_of_no_escape fun c hc => (h c hc).1]
  apply cString_of_not_mem
  rw [List.mem_map]
  rintro ⟨c, hc, hzero⟩
  exact gsmChar_ne_zero (h c hc).2 hzero

/-- The septets in front of the first escape are at the beginning of the text. -/
theorem prefix_map_gsmChar {first rest : List UInt8}
    (h : ∀ c ∈ first, c ≠ gsmEscChar ∧ c < 128) :
    first.map gsmChar <+: cString (decodeSeptets (first ++ rest)).1 := by
  have hfirst := decodeSeptets_of_no_escape fun c hc => (h c hc).1
  have hdecode := foldl_decodeStep (first.map gsmChar) ([], false) rest
  rw [List.append_nil, ← hfirst] at hdecode
  have hall : (decodeSeptets (first ++ rest)).1 = first.map gsmChar ++ (decodeSeptets rest).1 := by
    rw [decodeSeptets, List.foldl_append]
    exact congrArg Prod.fst hdecode
  have hnul : 0 ∉ first.map gsmChar := by
    intro hmem
    obtain ⟨c, hc, hzero⟩ := List.mem_map.mp hmem
    exact gsmChar_ne_zero (h c hc).2 hzero
  rw [hall, cString_append hnul]
  exact List.prefix_append _ _

end Escapes

section Octets

/-- The septets in some octets. -/
def septetsAt (octets : List UInt8) (n : ℕ) : List UInt8 :=
  (List.range n).map fun k => readSeptet (ofList 0 octets) (7 * k)

/-- Bits that are shifted in make a septet. -/
theorem foldl_shiftIn_lt (c : UInt8) (b : Bool) (bits : List Bool) :
    (b :: bits).foldl shiftIn c < 128 := by
  induction bits generalizing b c with
  | nil => exact and_127_lt _
  | cons b' bits ih => exact ih (shiftIn c b) b'

theorem readSeptet_lt (binary : ℕ → UInt8) (bitposition : ℕ) :
    readSeptet binary bitposition < 128 := by
  rw [readSeptet_eq]
  exact foldl_shiftIn_lt 0 _ _

/-- A septet is read from the octets up to its number. -/
theorem readSeptet_congr {binary binary' : ℕ → UInt8} {k : ℕ}
    (h : ∀ i ≤ k, 8 * i < 7 * (k + 1) → binary i = binary' i) :
    readSeptet binary (7 * k) = readSeptet binary' (7 * k) := by
  have hsame : load (lowBitsOf binary) (7 * k) 7 = load (lowBitsOf binary') (7 * k) 7 := by
    apply load_congr
    intro j hj hj'
    apply lsb_congr
    rw [h (j / 8) (by omega) (by omega)]
  rw [readSeptet_eq, readSeptet_eq, hsame]

/-- The septets are read from octets that were printed. -/
theorem readSeptet_flatMap_hexOctet {octets : List UInt8} {n k : ℕ}
    (hn : (n * 7 + 7) / 8 ≤ octets.length) (octet0 octet1 : UInt8) (hk : k < n) :
    readSeptet (userData (octet0 :: octet1 :: octets.flatMap hexOctet) ((n * 7 + 7) / 8)) (7 * k) =
      readSeptet (ofList 0 octets) (7 * k) := by
  apply readSeptet_congr
  intro i _ hi
  have hlt : i < (n * 7 + 7) / 8 := by omega
  have hpos : i < octets.length := Nat.lt_of_lt_of_le hlt hn
  rw [userData, if_pos hlt, ofList, List.getD_eq_getElem octets 0 hpos]
  exact octet2bin_flatMap hpos

end Octets

section Default

/-- The characters that come back: those of the alphabet below 128, the currency sign, and one
that is not of the alphabet. -/
def CharComesBack (c : UInt8) : Prop := (c < 128 ∧ Mapped c) ∨ c = 0xA4 ∨ c = 0x93

instance (c : UInt8) : Decidable (CharComesBack c) := inferInstanceAs (Decidable (_ ∨ _))

set_option maxRecDepth 2000 in
theorem ucsGsmCode_unicode : ∀ e ∈ ucsGsmCode, 0 < e.unicode ∧ e.unicode < 2 ^ 16 := by
  decide

theorem lookup_eq_none {c : UInt8} (h : ¬ (c < 128 ∧ Mapped c)) : lookup c = none := by
  rw [lookup, List.find?_eq_none]
  intro e he hcode
  have hcode := of_decide_eq_true hcode
  have hlt := (ucsGsmCode_unicode e he).2
  rw [charToULong] at hcode
  split_ifs at hcode with hc
  · exact h ⟨hc, e, he, hcode.symm⟩
  · omega

/-- A character that the table does not have is sent as it is. -/
theorem receivedChar_of_not_mapped {c : UInt8} (h : ¬ (c < 128 ∧ Mapped c)) :
    receivedChar c = (decodeSeptets [c &&& 127]).1 := by
  simp [receivedChar, septetsOf, sentSeptets, sentChar, lookup_eq_none h]

/-- A septet that is decoded to a character is its code. -/
theorem decodeSeptets_singleton_eq {s c : UInt8} (h : (decodeSeptets [s]).1 = [c]) :
    gsmChar s = c := by
  rw [decodeSeptets, List.foldl_cons, List.foldl_nil, decodeStep] at h
  by_cases hesc : s = gsmEscChar
  · rw [if_pos hesc] at h
    exact absurd h (List.cons_ne_nil c []).symm
  · rw [if_neg hesc] at h
    exact (List.cons.inj h).1

set_option maxRecDepth 2000 in
theorem receivedChar_eq_iff (c : UInt8) : receivedChar c = [c] ↔ CharComesBack c := by
  by_cases hmapped : c < 128 ∧ Mapped c
  · rw [(receivedChar_of_mapped hmapped.2).2.2, CharComesBack]
    exact iff_of_true (.inl hmapped.1) (.inl hmapped)
  · have hall : ∀ e ∈ gsmToUcs2.zipIdx, (UInt8.ofNat e.1 &&& 127).toNat = e.2 →
        CharComesBack (UInt8.ofNat e.1) := by decide
    have hback : (decodeSeptets [0xA4 &&& 127]).1 = [0xA4] ∧
        (decodeSeptets [0x93 &&& 127]).1 = [0x93] := by decide
    rw [receivedChar_of_not_mapped hmapped]
    constructor
    · intro h
      obtain ⟨e, he, hcode, hchar⟩ := gsmChar_entry (and_127_lt c)
      rw [decodeSeptets_singleton_eq h] at hchar
      have hc := hall e he
      rw [hchar] at hc
      exact hc hcode.symm
    · rintro (h | rfl | rfl)
      · exact absurd h hmapped
      · exact hback.1
      · exact hback.2

/-- A character is sent as one septet, with an escape in front of it or not. -/
theorem septetsOf_singleton (c : UInt8) :
    ∃ escape, (escape = [] ∨ escape = [gsmEscChar]) ∧
      septetsOf [c] = escape ++ [sentChar c &&& 127] := by
  have hone : septetsOf [c] = (sentSeptets c).map (· &&& 127) := by
    rw [septetsOf, List.flatMap_singleton]
  rw [hone, sentSeptets]
  cases lookup c with
  | none => exact ⟨[], .inl rfl, rfl⟩
  | some e =>
      dsimp only
      split_ifs
      · exact ⟨[gsmEscChar], .inr rfl, rfl⟩
      · exact ⟨[], .inl rfl, rfl⟩

/-- If that septet is not an escape itself, it is the only one, and no escape is left behind. -/
theorem countP_septetsOf_singleton (c : UInt8) :
    (septetsOf [c]).countP (· ≠ gsmEscChar) ≤ 1 ∧
      ((septetsOf [c]).countP (· ≠ gsmEscChar) = 1 →
        (decodeSeptets (septetsOf [c])).2 = false) := by
  obtain ⟨escape, hescape, heq⟩ := septetsOf_singleton c
  have hzero : escape.countP (· ≠ gsmEscChar) = 0 := by
    rcases hescape with rfl | rfl <;> rfl
  rw [heq, List.countP_append, hzero, Nat.zero_add, decodeSeptets_concat, decodeStep]
  refine ⟨List.countP_le_length, fun hone => ?_⟩
  by_cases hesc : sentChar c &&& 127 = gsmEscChar
  · rw [hesc] at hone
    exact absurd hone (by decide)
  · rw [if_neg hesc]

/-- A text has as many such septets as characters only if each character has one. -/
theorem countP_septetsOf (text : List UInt8) :
    (septetsOf text).countP (· ≠ gsmEscChar) ≤ text.length ∧
      ((septetsOf text).countP (· ≠ gsmEscChar) = text.length →
        ∀ c ∈ text, (septetsOf [c]).countP (· ≠ gsmEscChar) = 1) := by
  induction text with
  | nil => exact ⟨Nat.zero_le _, fun _ _ hc => absurd hc List.not_mem_nil⟩
  | cons c text ih =>
      have hsplit : septetsOf (c :: text) = septetsOf [c] ++ septetsOf text := by
        simp [septetsOf]
      have hone := (countP_septetsOf_singleton c).1
      rw [hsplit, List.countP_append, List.length_cons]
      refine ⟨by omega, fun heq => ?_⟩
      have htext : (septetsOf text).countP (· ≠ gsmEscChar) = text.length := by omega
      rw [List.forall_mem_cons]
      exact ⟨by omega, ih.2 htext⟩

/-- A text of the default alphabet comes back exactly if its characters do. -/
theorem eq_cString_default_iff (text : List UInt8) :
    text = cString (decodeSeptets (septetsOf text)).1 ↔ ∀ c ∈ text, CharComesBack c := by
  have hsame : (∀ c ∈ text, receivedChar c = [c]) ↔ ∀ c ∈ text, CharComesBack c :=
    forall₂_congr fun c _ => receivedChar_eq_iff c
  have hchars : (∀ c ∈ text, (septetsOf [c]).countP (· ≠ gsmEscChar) = 1) →
      (decodeSeptets (septetsOf text)).1 = text.flatMap receivedChar ∧
        (text.flatMap receivedChar = text ↔ ∀ c ∈ text, receivedChar c = [c]) := by
    intro h
    refine ⟨?_, flatMap_receivedChar_eq_iff fun c hc => ?_⟩
    · rw [decodeSeptets_septetsOf fun c hc => (countP_septetsOf_singleton c).2 (h c hc)]
    · rw [receivedChar, length_decodeSeptets]
      exact h c hc
  constructor
  · intro h
    have hlen := congrArg List.length h
    have hcount := length_decodeSeptets (septetsOf text)
    have hle := (countP_septetsOf text).1
    have hcut : cString (decodeSeptets (septetsOf text)).1 <+: (decodeSeptets (septetsOf text)).1 :=
      List.takeWhile_prefix _
    have hcutLen := hcut.length_le
    have hone := (countP_septetsOf text).2 (by omega)
    obtain ⟨hdecode, hiff⟩ := hchars hone
    have hwhole : cString (decodeSeptets (septetsOf text)).1 = (decodeSeptets (septetsOf text)).1 :=
      hcut.eq_of_length (by omega)
    rw [hwhole, hdecode] at h
    exact hsame.mp (hiff.mp h.symm)
  · intro h
    have hback := hsame.mpr h
    have hone : ∀ c ∈ text, (septetsOf [c]).countP (· ≠ gsmEscChar) = 1 := by
      intro c hc
      have hlen := length_decodeSeptets (septetsOf [c])
      have hchar : (decodeSeptets (septetsOf [c])).1 = [c] := hback c hc
      rw [← hlen, hchar, List.length_singleton]
    have hnul : 0 ∉ text := by
      intro hmem
      rcases h 0 hmem with ⟨-, e, he, hcode⟩ | hzero | hzero
      · exact absurd hcode (Nat.ne_of_gt (ucsGsmCode_unicode e he).1)
      · exact absurd hzero (by decide)
      · exact absurd hzero (by decide)
    obtain ⟨hdecode, hiff⟩ := hchars hone
    rw [hdecode, hiff.mpr hback, cString_of_not_mem hnul]

end Default

section EightBit

/-- The 8-bit texts that come back: one character that its seven low bits stand for, and up to
two more that are decoded from an at sign. -/
def EightBitComesBack (text : List UInt8) : Prop :=
  text = [] ∨ ∃ c, gsmChar (c &&& 127) = c ∧
    (text = [c] ∨ c < 128 ∧ (text = [c, 0x40] ∨ text = [c, 0x40, 0x55]))

/-- The character of some bits. -/
def bitsChar (bits : List Bool) : UInt8 := gsmChar (bits.foldl shiftIn 0)

theorem bitsChar_first (a : UInt8) : bitsChar (septetField a) = gsmChar (a &&& 127) := by
  rw [bitsChar, foldl_shiftIn]

set_option maxRecDepth 2000 in
/-- The second character of a text that comes back, the third one, behind an at sign, and that
there is no fourth one. -/
theorem bitsChar_cases (c : UInt8) :
    (∀ x, bitsChar (x :: lsbField 6 c.toBitVec) = c → x = false ∧ c = 0x40) ∧
      (bitsChar (true :: false :: lsbField 5 c.toBitVec) = c → c = 0x55) ∧
      bitsChar (false :: true :: false :: lsbField 4 c.toBitVec) ≠ c := by
  have hall : ∀ e ∈ gsmToUcs2.zipIdx,
      (∀ x, ((x :: lsbField 6 (UInt8.ofNat e.1).toBitVec).foldl shiftIn 0).toNat = e.2 →
        x = false ∧ UInt8.ofNat e.1 = 0x40) ∧
      (((true :: false :: lsbField 5 (UInt8.ofNat e.1).toBitVec).foldl shiftIn 0).toNat = e.2 →
        UInt8.ofNat e.1 = 0x55) ∧
      ((false :: true :: false :: lsbField 4 (UInt8.ofNat e.1).toBitVec).foldl shiftIn 0).toNat ≠
        e.2 := by decide
  -- the character is the one at the place that its own bits give
  have hentry : ∀ b bits, bitsChar (b :: bits) = c →
      ∃ e ∈ gsmToUcs2.zipIdx, ((b :: bits).foldl shiftIn 0).toNat = e.2 ∧ UInt8.ofNat e.1 = c := by
    intro b bits h
    obtain ⟨e, he, hcode, hchar⟩ := gsmChar_entry (foldl_shiftIn_lt 0 b bits)
    exact ⟨e, he, hcode.symm, hchar.trans h⟩
  refine ⟨fun x h => ?_, fun h => ?_, fun h => ?_⟩
  · obtain ⟨e, he, hcode, rfl⟩ := hentry _ _ h
    exact (hall e he).1 x hcode
  · obtain ⟨e, he, hcode, rfl⟩ := hentry _ _ h
    exact (hall e he).2.1 hcode
  · obtain ⟨e, he, hcode, rfl⟩ := hentry _ _ h
    exact (hall e he).2.2 hcode

/-- The high bit of a character is its sign. -/
theorem lt_of_getLsbD_seven {c : UInt8} (h : c.toBitVec.getLsbD 7 = false) : c < 128 := by
  have hbit : c.toNat.testBit 7 = false := h
  have hlt := c.toNat_lt
  rw [Nat.testBit_eq_decide_div_mod_eq, decide_eq_false_iff_not] at hbit
  have hnat : c.toNat < 128 := by omega
  exact hnat

theorem getLsbD_seven_of_lt {c : UInt8} (h : c < 128) : c.toBitVec.getLsbD 7 = false :=
  Nat.testBit_lt_two_pow h

/-- A text that is decoded to as many characters as it has septets has no escape. -/
theorem getElem_of_eq_cString {text septets : List UInt8} (hlen : septets.length = text.length)
    (h : text = cString (decodeSeptets septets).1) : text = septets.map gsmChar := by
  have hcut : cString (decodeSeptets septets).1 <+: (decodeSeptets septets).1 :=
    List.takeWhile_prefix _
  have hcutLen := hcut.length_le
  have htext := congrArg List.length h
  have hcount := length_decodeSeptets septets
  have hle : septets.countP (· ≠ gsmEscChar) ≤ septets.length := List.countP_le_length
  have hnone : ∀ c ∈ septets, c ≠ gsmEscChar := by
    have hall := List.countP_eq_length.mp (show septets.countP (· ≠ gsmEscChar) = _ by omega)
    exact fun c hc => of_decide_eq_true (hall c hc)
  rw [hcut.eq_of_length (by omega), decodeSeptets_of_no_escape hnone] at h
  exact h

/-- Each character of a text that comes back stands for the bits at its place. -/
theorem bitsChar_of_eq_cString {text : List UInt8}
    (h : text = cString (decodeSeptets (septetsAt text text.length)).1) {k : ℕ} {c : UInt8}
    (hk : text[k]? = some c) :
    bitsChar (load (lowBitsOf (ofList 0 text)) (7 * k) 7) = c := by
  have hlen : (septetsAt text text.length).length = text.length := by simp [septetsAt]
  have hmap := getElem_of_eq_cString hlen h
  have hpos : k < text.length := (List.getElem?_eq_some_iff.mp hk).1
  rw [hmap] at hk
  simp only [septetsAt, List.getElem?_map, List.getElem?_range hpos, Option.map_some,
    Option.some.injEq, readSeptet_eq] at hk
  exact hk

section Places

variable (a b c d : UInt8) (text : List UInt8)

theorem load_second : load (lowBitsOf (ofList 0 (a :: b :: text))) 7 7 =
    a.toBitVec.getLsbD 7 :: lsbField 6 b.toBitVec := rfl

theorem load_third : load (lowBitsOf (ofList 0 (a :: b :: c :: text))) 14 7 =
    b.toBitVec.getLsbD 6 :: b.toBitVec.getLsbD 7 :: lsbField 5 c.toBitVec := rfl

theorem load_fourth : load (lowBitsOf (ofList 0 (a :: b :: c :: d :: text))) 21 7 =
    c.toBitVec.getLsbD 5 :: c.toBitVec.getLsbD 6 :: c.toBitVec.getLsbD 7 ::
      lsbField 4 d.toBitVec := rfl

theorem readSeptet_first : readSeptet (ofList 0 (a :: text)) 0 = a &&& 127 := by
  rw [readSeptet_eq, ← foldl_shiftIn]
  rfl

variable {a}

/-- Behind a character below 128 an at sign is read as its code, and a `U` behind it as its own. -/
theorem readSeptet_second (ha : a < 128) :
    readSeptet (ofList 0 (a :: 0x40 :: text)) 7 = 0 := by
  rw [readSeptet_eq, load_second, getLsbD_seven_of_lt ha]
  decide

theorem readSeptet_third : readSeptet (ofList 0 (a :: 0x40 :: 0x55 :: text)) 14 = 0x55 := by
  rw [readSeptet_eq, load_third]
  decide

end Places

/-- A code with a character of the same septet is no escape. -/
theorem plain_of_gsmChar {c : UInt8} (h : gsmChar (c &&& 127) = c) :
    c &&& 127 ≠ gsmEscChar ∧ c &&& 127 < 128 := by
  refine ⟨fun hesc => ?_, and_127_lt c⟩
  have hspace : c = 0x20 := by
    rw [← h, hesc]
    rfl
  rw [hspace] at hesc
  exact absurd hesc (by decide)

theorem eq_cString_eightBit_iff (text : List UInt8) :
    text = cString (decodeSeptets (septetsAt text text.length)).1 ↔ EightBitComesBack text := by
  constructor
  · intro h
    have hchar := fun k c hk => @bitsChar_of_eq_cString text h k c hk
    rcases text with _ | ⟨a, text⟩
    · exact .inl rfl
    have hfirst : gsmChar (a &&& 127) = a := by
      rw [← bitsChar_first]
      exact hchar 0 a rfl
    refine .inr ⟨a, hfirst, ?_⟩
    rcases text with _ | ⟨b, text⟩
    · exact .inl rfl
    obtain ⟨hbit, rfl⟩ := (bitsChar_cases b).1 _ (load_second a b text ▸ hchar 1 b rfl)
    refine .inr ⟨lt_of_getLsbD_seven hbit, ?_⟩
    rcases text with _ | ⟨c, text⟩
    · exact .inl rfl
    have hthird := (bitsChar_cases c).2.1 (load_third a 0x40 c text ▸ hchar 2 c rfl)
    subst hthird
    rcases text with _ | ⟨d, text⟩
    · exact .inr rfl
    exact absurd (load_fourth a 0x40 0x55 d text ▸ hchar 3 d rfl) (bitsChar_cases d).2.2
  · rintro (rfl | ⟨c, hc, htext⟩)
    · rfl
    have hplain := plain_of_gsmChar hc
    have hat : (0 : UInt8) ≠ gsmEscChar ∧ (0 : UInt8) < 128 := by decide
    have hu : (0x55 : UInt8) ≠ gsmEscChar ∧ (0x55 : UInt8) < 128 := by decide
    rcases htext with rfl | ⟨hlt, rfl | rfl⟩
    · have hseptets : septetsAt [c] 1 = [c &&& 127] :=
        congrArg (fun s => [s]) (readSeptet_first c [])
      rw [List.length_singleton, hseptets,
        cString_decodeSeptets (List.forall_mem_singleton.mpr hplain), List.map_singleton, hc]
    · have hseptets : septetsAt [c, 0x40] 2 = [c &&& 127, 0] :=
        congrArg₂ (fun s t => [s, t]) (readSeptet_first c [0x40]) (readSeptet_second [] hlt)
      have hall : ∀ s ∈ [c &&& 127, 0], s ≠ gsmEscChar ∧ s < 128 :=
        List.forall_mem_cons.mpr ⟨hplain, List.forall_mem_singleton.mpr hat⟩
      change [c, 0x40] = cString (decodeSeptets (septetsAt [c, 0x40] 2)).1
      rw [hseptets, cString_decodeSeptets hall, List.map_cons, hc]
      rfl
    · have hfirst : septetsAt [c, 0x40, 0x55] 3 =
          [c &&& 127, readSeptet (ofList 0 [c, 0x40, 0x55]) 7,
            readSeptet (ofList 0 [c, 0x40, 0x55]) 14] :=
        congrArg (fun s => [s, _, _]) (readSeptet_first c [0x40, 0x55])
      have hseptets : septetsAt [c, 0x40, 0x55] 3 = [c &&& 127, 0, 0x55] := by
        rw [hfirst, readSeptet_second [0x55] hlt, readSeptet_third []]
      have hall : ∀ s ∈ [c &&& 127, 0, 0x55], s ≠ gsmEscChar ∧ s < 128 :=
        List.forall_mem_cons.mpr
          ⟨hplain, List.forall_mem_cons.mpr ⟨hat, List.forall_mem_singleton.mpr hu⟩⟩
      change [c, 0x40, 0x55] = cString (decodeSeptets (septetsAt [c, 0x40, 0x55] 3)).1
      rw [hseptets, cString_decodeSeptets hall, List.map_cons, hc]
      rfl

end EightBit

section Ucs

/-- The octets of a UCS-2 text. -/
def ucsOctets (text : List UInt8) : List UInt8 := text.flatMap fun c => [0, c]

/-- The characters that the first septets of a UCS-2 text stand for, if each of them is the
character at its place: a septet does not depend on that character. -/
def ucsFixed : List UInt8 :=
  [0x40, 0x40, 0xA3, 0x40, 0xE8, 0xBF, 0x28, 0x40, 0xA1, 0x40, 0x20, 0xEC, 0x70, 0xA8, 0x40, 0x9B,
    0x40, 0x40, 0xA3, 0xF2, 0x0A, 0x40, 0x94, 0x40, 0x20, 0x40, 0x30, 0xEC, 0x40, 0xC5, 0x40, 0x54,
    0x40, 0x40, 0xA3, 0x58, 0xC7, 0x40, 0x94, 0x40, 0xA1, 0x40, 0xF8, 0xE9, 0x20, 0xDF, 0x40, 0xE9,
    0x40, 0x40, 0xA3, 0x20, 0xC7, 0x40, 0x94, 0x40, 0x20, 0x40, 0x40, 0x24, 0x40, 0xF9, 0x40, 0x76,
    0x40, 0x40, 0xA3, 0x28, 0xF8, 0x40, 0x94]

set_option maxRecDepth 2000 in
theorem septetsAt_ucsFixed :
    (septetsAt (ucsOctets ucsFixed) ucsFixed.length).map gsmChar = ucsFixed ∧
      (septetsAt (ucsOctets ucsFixed) ucsFixed.length).count gsmEscChar = 0 := by
  decide

theorem ne_escape_ucsFixed :
    ∀ c ∈ septetsAt (ucsOctets ucsFixed) ucsFixed.length, c ≠ gsmEscChar := by
  intro c hc heq
  exact List.count_eq_zero.mp septetsAt_ucsFixed.2 (heq ▸ hc)

theorem length_ucsOctets (text : List UInt8) : (ucsOctets text).length = 2 * text.length := by
  simp [ucsOctets, Nat.mul_comm]

theorem ucsOctets_append (xs ys : List UInt8) :
    ucsOctets (xs ++ ys) = ucsOctets xs ++ ucsOctets ys :=
  List.flatMap_append

theorem ofList_ucsOctets_zero (text : List UInt8) : ofList 0 (ucsOctets text) 0 = 0 := by
  cases text <;> rfl

/-- Texts that begin with the same characters have the same septets up to that number. -/
theorem readSeptet_ucsOctets_append (xs ys zs : List UInt8) {k : ℕ} (hk : k ≤ xs.length) :
    readSeptet (ofList 0 (ucsOctets (xs ++ ys))) (7 * k) =
      readSeptet (ofList 0 (ucsOctets (xs ++ zs))) (7 * k) := by
  apply readSeptet_congr
  intro i hi _
  rcases Nat.eq_zero_or_pos i with rfl | hpos
  · rw [ofList_ucsOctets_zero, ofList_ucsOctets_zero]
  · have hlt : i < (ucsOctets xs).length := by
      rw [length_ucsOctets]
      omega
    rw [ofList, ofList, ucsOctets_append, ucsOctets_append, List.getD_append _ _ _ _ hlt,
      List.getD_append _ _ _ _ hlt]

theorem take_septetsAt (octets : List UInt8) {m n : ℕ} (h : m ≤ n) :
    (septetsAt octets n).take m = septetsAt octets m := by
  rw [septetsAt, septetsAt, ← List.map_take, List.take_range, Nat.min_eq_left h]

/-- A UCS-2 text that comes back begins with as many characters of `ucsFixed` as it has septets. -/
theorem prefix_take_ucsFixed {text : List UInt8}
    (h : text = cString (decodeSeptets (septetsAt (ucsOctets text) (2 * text.length))).1) {k : ℕ}
    (hfixed : k ≤ ucsFixed.length) (hk : k ≤ 2 * text.length) : ucsFixed.take k <+: text := by
  induction k with
  | zero => exact List.nil_prefix
  | succ k ih =>
      obtain ⟨rest, hrest⟩ := ih (by omega) (by omega)
      have hfirst : septetsAt (ucsOctets text) (k + 1) =
          septetsAt (ucsOctets ucsFixed) (k + 1) := by
        apply List.map_congr_left
        intro i hi
        have hle : i ≤ (ucsFixed.take k).length := by
          rw [List.length_take]
          have hlt := List.mem_range.mp hi
          omega
        rw [← hrest, readSeptet_ucsOctets_append _ rest (ucsFixed.drop k) hle,
          List.take_append_drop]
      have hsplit : septetsAt (ucsOctets text) (2 * text.length) =
          septetsAt (ucsOctets ucsFixed) (k + 1) ++
            (septetsAt (ucsOctets text) (2 * text.length)).drop (k + 1) := by
        rw [← hfirst, ← take_septetsAt _ hk, List.take_append_drop]
      have hclean : ∀ c ∈ septetsAt (ucsOctets ucsFixed) (k + 1), c ≠ gsmEscChar ∧ c < 128 := by
        intro c hc
        obtain ⟨i, hi, rfl⟩ := List.mem_map.mp hc
        refine ⟨ne_escape_ucsFixed _ (List.mem_map.mpr ⟨i, ?_, rfl⟩), readSeptet_lt _ _⟩
        exact List.mem_range.mpr (Nat.lt_of_lt_of_le (List.mem_range.mp hi) hfixed)
      have hchars : (septetsAt (ucsOctets ucsFixed) (k + 1)).map gsmChar =
          ucsFixed.take (k + 1) := by
        conv_rhs => rw [← septetsAt_ucsFixed.1]
        rw [← List.map_take, take_septetsAt _ hfixed]
      rw [hsplit] at h
      rw [← hchars, h]
      exact prefix_map_gsmChar hclean

/-- No UCS-2 text comes back but the empty one. -/
theorem eq_cString_ucs_iff {text : List UInt8} (hlen : text.length < ucsFixed.length) :
    text = cString (decodeSeptets (septetsAt (ucsOctets text) (2 * text.length))).1 ↔
      text = [] := by
  constructor
  · intro h
    by_contra hne
    have hpos := List.length_pos_iff.mpr hne
    have hprefix := (@prefix_take_ucsFixed text h (text.length + 1) hlen (by omega)).length_le
    rw [List.length_take] at hprefix
    omega
  · rintro rfl
    rfl

end Ucs

end Sms

end SierraSdk
