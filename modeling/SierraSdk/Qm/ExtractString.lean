import SierraSdk.Library.Writes
import SierraSdk.Qm.DcsContent

/-!
# A string of a message, written into a buffer of the caller

`qmQmiExtractString` takes the length of the string from the header of its TLV, behind which the
cursor is, and copies byte by byte into a buffer, with the character that ends a string behind
them. Here it is the function with its writes: `qmQmiExtractStringInto` lists them in their order,
and what `qmQmiExtractString` says of the string follows from them.

`Extracts` is what an extraction is to do: it writes below the length of the buffer only, and a
success leaves the value of the TLV in the buffer, ended. An empty value is the exception. It is a
success that writes nothing, and so leaves the buffer without an end.
-/

namespace SierraSdk

namespace Qm

open Am Memory

/-- `EOS` -/
def eos : UInt8 := 0

/-- `lIndex`: two bytes in front of the cursor, as a 16-bit value. -/
def lengthIndex (tbuf : QmTBuffer) : ℕ := (tbuf.Index + (2 ^ 16 - 2)) % 2 ^ 16

/-- `GetStringLen`, with the index that it computes. -/
def GetStringLenAt (tbuf : QmTBuffer) : Option UInt16 :=
  if lengthIndex tbuf + 2 ≤ tbuf.Size then some (wordAt tbuf.Datap (lengthIndex tbuf)) else none

/-- What an extraction does: the code, the buffer of the message, and the writes. -/
structure Extraction where
  eRCode : EQCWWANError
  tbuf : QmTBuffer
  writes : List (UInt8 × ℕ)

namespace Extraction

/-- Put a write in front. -/
def cons (w : UInt8 × ℕ) (r : Extraction) : Extraction := { r with writes := w :: r.writes }

/-- The memory of the caller's buffer afterwards. -/
def output (r : Extraction) (out : ℕ → UInt8) : ℕ → UInt8 := afterWrites out r.writes

end Extraction

/-- The loop, and the end of the string behind it. The place is one further also when no byte is
left. -/
def extractLoop (TlvLength : UInt16) : ℕ → QmTBuffer → UInt16 → Option Extraction
  | 0, _, _ => none
  | fuel + 1, tbuf, lBufferSize =>
      match GetByte tbuf with
      | none => some ⟨EQCWWANError.memory, tbuf, [(eos, (lBufferSize + 1).toNat)]⟩
      | some (value, tbuf) =>
          Option.map (Extraction.cons (value, lBufferSize.toNat)) <|
            if lBufferSize + 1 = TlvLength then
              some ⟨EQCWWANError.none, tbuf, [(eos, (lBufferSize + 1).toNat)]⟩
            else extractLoop TlvLength fuel tbuf (lBufferSize + 1)

/-- `qmQmiExtractString`, into a buffer that is `none` for a null pointer. The counter has 16 bits,
so a loop of more rounds than that does not end. -/
def qmQmiExtractStringInto (tbuf : QmTBuffer) (pInBuffer : Option (ℕ → UInt8))
    (lengthBuffer : UInt32) : Option Extraction :=
  match GetStringLenAt tbuf with
  | none => some ⟨EQCWWANError.memory, tbuf, []⟩
  | some TlvLength =>
      if lengthBuffer.toNat ≤ TlvLength.toNat then some ⟨EQCWWANError.bufferSz, tbuf, []⟩
      else if TlvLength = 0 ∨ pInBuffer = none then some ⟨EQCWWANError.none, tbuf, []⟩
      else extractLoop TlvLength (2 ^ 16) tbuf 0

/-- What an extraction is to do. -/
structure Extracts (tbuf : QmTBuffer) (pInBuffer : Option (ℕ → UInt8)) (lengthBuffer : UInt32)
    (r : Extraction) : Prop where
  below : ∀ w ∈ r.writes, w.2 < lengthBuffer.toNat
  exactly : ∀ out, pInBuffer = some out → r.eRCode = EQCWWANError.none →
    ∃ len, GetStringLenAt tbuf = some len ∧ tbuf.Index + len.toNat ≤ tbuf.Size ∧
      r.output out = store out 0 (load tbuf.Datap tbuf.Index len.toNat ++ [eos])

section Loop

variable {TlvLength lBufferSize : UInt16} {tbuf : QmTBuffer} {fuel : ℕ}

/-- The counter does not overflow below a length. -/
theorem toNat_counter_succ {n : ℕ} (h : lBufferSize.toNat + (n + 1) = TlvLength.toNat) :
    (lBufferSize + 1).toNat = lBufferSize.toNat + 1 := by
  have hlt := TlvLength.toNat_lt
  rw [UInt16.toNat_add, UInt16.toNat_one]
  exact Nat.mod_eq_of_lt (by omega)

theorem counter_succ_ne {n : ℕ} (h : lBufferSize.toNat + (n + 1 + 1) = TlvLength.toNat) :
    lBufferSize + 1 ≠ TlvLength := by
  intro heq
  rw [← heq, toNat_counter_succ h] at h
  omega

/-- One round that finds a byte. -/
theorem extractLoop_succ (h : tbuf.Index + 1 ≤ tbuf.Size) :
    extractLoop TlvLength (fuel + 1) tbuf lBufferSize =
      Option.map (Extraction.cons (tbuf.Datap tbuf.Index, lBufferSize.toNat))
        (if lBufferSize + 1 = TlvLength then
          some ⟨EQCWWANError.none, { tbuf with Index := tbuf.Index + 1 },
            [(eos, (lBufferSize + 1).toNat)]⟩
        else extractLoop TlvLength fuel { tbuf with Index := tbuf.Index + 1 }
          (lBufferSize + 1)) := by
  rw [extractLoop, GetByte, if_pos h]

/-- The loop over a value that is in the message copies it. -/
theorem extractLoop_of_le {n : ℕ} (hn : lBufferSize.toNat + (n + 1) = TlvLength.toNat)
    (hfuel : n < fuel) (hsize : tbuf.Index + (n + 1) ≤ tbuf.Size) :
    extractLoop TlvLength fuel tbuf lBufferSize =
      some ⟨EQCWWANError.none, { tbuf with Index := tbuf.Index + (n + 1) },
        (load tbuf.Datap tbuf.Index (n + 1) ++ [eos]).zipIdx lBufferSize.toNat⟩ := by
  induction n generalizing fuel tbuf lBufferSize with
  | zero =>
      obtain ⟨fuel, rfl⟩ := Nat.exists_eq_add_of_lt hfuel
      have hlast : lBufferSize + 1 = TlvLength :=
        UInt16.toNat_inj.mp ((toNat_counter_succ hn).trans hn)
      rw [extractLoop_succ hsize, if_pos hlast, load_succ, load_zero, toNat_counter_succ hn]
      rfl
  | succ n ih =>
      obtain ⟨fuel, rfl⟩ := Nat.exists_eq_add_of_lt (Nat.lt_of_le_of_lt (Nat.zero_le _) hfuel)
      have hcount := toNat_counter_succ hn
      have hcount' : (lBufferSize + 1).toNat + (n + 1) = TlvLength.toNat := by omega
      have hsize' : tbuf.Index + 1 + (n + 1) ≤ tbuf.Size := by omega
      have hrest : extractLoop TlvLength fuel { tbuf with Index := tbuf.Index + 1 }
          (lBufferSize + 1) = _ := ih hcount' (by omega) hsize'
      rw [Nat.zero_add, extractLoop_succ (by omega), if_neg (counter_succ_ne hn), hrest,
        load_succ tbuf.Datap tbuf.Index (n + 1), hcount, List.cons_append, List.zipIdx_cons]
      dsimp only [Option.map, Extraction.cons]
      rw [Nat.add_assoc, Nat.add_comm 1 (n + 1)]

/-- The loop over a value that goes beyond the message copies what is there, and ends the string
one place further. -/
theorem extractLoop_of_lt {n : ℕ} (hn : lBufferSize.toNat + (n + 1) = TlvLength.toNat)
    (hfuel : n < fuel) (hsize : tbuf.Size < tbuf.Index + (n + 1)) :
    extractLoop TlvLength fuel tbuf lBufferSize =
      some ⟨EQCWWANError.memory, { tbuf with Index := max tbuf.Index tbuf.Size },
        (load tbuf.Datap tbuf.Index (tbuf.Size - tbuf.Index)).zipIdx lBufferSize.toNat ++
          [(eos, lBufferSize.toNat + (tbuf.Size - tbuf.Index) + 1)]⟩ := by
  induction n generalizing fuel tbuf lBufferSize with
  | zero =>
      obtain ⟨fuel, rfl⟩ := Nat.exists_eq_add_of_lt hfuel
      have hleft : tbuf.Size - tbuf.Index = 0 := by omega
      have hmax : max tbuf.Index tbuf.Size = tbuf.Index := by omega
      rw [Nat.zero_add, extractLoop, GetByte, if_neg (by omega), hleft, hmax, load_zero,
        toNat_counter_succ hn]
      rfl
  | succ n ih =>
      obtain ⟨fuel, rfl⟩ := Nat.exists_eq_add_of_lt (Nat.lt_of_le_of_lt (Nat.zero_le _) hfuel)
      have hcount := toNat_counter_succ hn
      rw [Nat.zero_add]
      by_cases hbyte : tbuf.Index + 1 ≤ tbuf.Size
      · have hcount' : (lBufferSize + 1).toNat + (n + 1) = TlvLength.toNat := by omega
        have hsize' : tbuf.Size < tbuf.Index + 1 + (n + 1) := by omega
        have hrest : extractLoop TlvLength fuel { tbuf with Index := tbuf.Index + 1 }
            (lBufferSize + 1) = _ := ih hcount' (by omega) hsize'
        obtain ⟨left, hleft⟩ := Nat.exists_eq_add_of_le hbyte
        have hsub : tbuf.Size - tbuf.Index = left + 1 := by omega
        have hsub' : tbuf.Size - (tbuf.Index + 1) = left := by omega
        have hmax : max (tbuf.Index + 1) tbuf.Size = max tbuf.Index tbuf.Size := by omega
        rw [extractLoop_succ hbyte, if_neg (counter_succ_ne hn), hrest, hcount, hsub, hsub',
          load_succ, List.zipIdx_cons, hmax]
        dsimp only [Option.map, Extraction.cons]
        rw [List.cons_append, Nat.add_right_comm _ 1 left, Nat.add_assoc _ left 1]
      · have hleft : tbuf.Size - tbuf.Index = 0 := by omega
        have hmax : max tbuf.Index tbuf.Size = tbuf.Index := by omega
        rw [extractLoop, GetByte, if_neg hbyte, hleft, hmax, load_zero, hcount]
        rfl

end Loop

section Cases

variable {tbuf : QmTBuffer} {pInBuffer : Option (ℕ → UInt8)} {out : ℕ → UInt8}
  {lengthBuffer : UInt32} {len : UInt16}

theorem extractInto_of_none (hlen : GetStringLenAt tbuf = none) :
    qmQmiExtractStringInto tbuf pInBuffer lengthBuffer =
      some ⟨EQCWWANError.memory, tbuf, []⟩ := by
  rw [qmQmiExtractStringInto, hlen]

theorem extractInto_of_tooLong (hlen : GetStringLenAt tbuf = some len)
    (hle : lengthBuffer.toNat ≤ len.toNat) :
    qmQmiExtractStringInto tbuf pInBuffer lengthBuffer =
      some ⟨EQCWWANError.bufferSz, tbuf, []⟩ := by
  rw [qmQmiExtractStringInto, hlen]
  exact if_pos hle

theorem extractInto_of_nothing (hlen : GetStringLenAt tbuf = some len)
    (hlt : len.toNat < lengthBuffer.toNat) (hnothing : len = 0 ∨ pInBuffer = none) :
    qmQmiExtractStringInto tbuf pInBuffer lengthBuffer =
      some ⟨EQCWWANError.none, tbuf, []⟩ := by
  rw [qmQmiExtractStringInto, hlen]
  exact (if_neg (Nat.not_le.mpr hlt)).trans (if_pos hnothing)

/-- A value with at least one byte that fits the buffer is copied by the loop. -/
theorem extractInto_of_fits (hlen : GetStringLenAt tbuf = some len)
    (hlt : len.toNat < lengthBuffer.toNat) (hne : len ≠ 0) :
    qmQmiExtractStringInto tbuf (some out) lengthBuffer = extractLoop len (2 ^ 16) tbuf 0 := by
  have hsome : ¬(len = 0 ∨ some out = none) :=
    not_or.mpr ⟨hne, Option.some_ne_none out⟩
  rw [qmQmiExtractStringInto, hlen]
  exact (if_neg (Nat.not_le.mpr hlt)).trans (if_neg hsome)

theorem exists_length_eq (hne : len ≠ 0) :
    ∃ n, (0 : UInt16).toNat + (n + 1) = len.toNat ∧ len.toNat = n + 1 ∧ n < 2 ^ 16 := by
  have hpos : len.toNat ≠ 0 := by
    intro hzero
    exact hne (UInt16.toNat_inj.mp hzero)
  obtain ⟨n, hn⟩ := Nat.exists_eq_succ_of_ne_zero hpos
  have hbound := len.toNat_lt
  refine ⟨n, ?_, hn, by omega⟩
  rw [UInt16.toNat_zero, Nat.zero_add]
  exact hn.symm

/-- A value that is in the message is copied, with its end behind it. -/
theorem extractInto_of_le (hlen : GetStringLenAt tbuf = some len)
    (hlt : len.toNat < lengthBuffer.toNat) (hne : len ≠ 0)
    (hsize : tbuf.Index + len.toNat ≤ tbuf.Size) :
    qmQmiExtractStringInto tbuf (some out) lengthBuffer =
      some ⟨EQCWWANError.none, { tbuf with Index := tbuf.Index + len.toNat },
        (load tbuf.Datap tbuf.Index len.toNat ++ [eos]).zipIdx⟩ := by
  obtain ⟨n, hcount, hn, hfuel⟩ := exists_length_eq hne
  rw [hn] at hsize ⊢
  rw [extractInto_of_fits hlen hlt hne, extractLoop_of_le hcount hfuel hsize]
  rfl

/-- Of a value that goes beyond the message, what is there is copied. -/
theorem extractInto_of_lt (hlen : GetStringLenAt tbuf = some len)
    (hlt : len.toNat < lengthBuffer.toNat) (hne : len ≠ 0)
    (hsize : tbuf.Size < tbuf.Index + len.toNat) :
    qmQmiExtractStringInto tbuf (some out) lengthBuffer =
      some ⟨EQCWWANError.memory, { tbuf with Index := max tbuf.Index tbuf.Size },
        (load tbuf.Datap tbuf.Index (tbuf.Size - tbuf.Index)).zipIdx ++
          [(eos, tbuf.Size - tbuf.Index + 1)]⟩ := by
  obtain ⟨n, hcount, hn, hfuel⟩ := exists_length_eq hne
  rw [hn] at hsize
  rw [extractInto_of_fits hlen hlt hne, extractLoop_of_lt hcount hfuel hsize,
    UInt16.toNat_zero, Nat.zero_add]

end Cases

section Extraction

variable {d : ℕ → UInt8} {size index : UInt16} {pInBuffer : Option (ℕ → UInt8)}
  {out : ℕ → UInt8} {lengthBuffer : UInt32} {len : UInt16} {r : Extraction}

theorem lengthIndex_of_le {tbuf : QmTBuffer} (h : 2 ≤ tbuf.Index) (hlt : tbuf.Index < 2 ^ 16) :
    lengthIndex tbuf = tbuf.Index - 2 := by
  rw [lengthIndex]
  omega

/-- Behind a header the index is what it is meant to be. -/
theorem GetStringLenAt_of_le {tbuf : QmTBuffer} (h : 2 ≤ tbuf.Index)
    (hlt : tbuf.Index < 2 ^ 16) : GetStringLenAt tbuf = GetStringLen tbuf := by
  rw [GetStringLenAt, lengthIndex_of_le h hlt]
  rfl

/-- With less than two bytes in front of the cursor the index is beyond every message. -/
theorem GetStringLenAt_of_lt {tbuf : QmTBuffer} (h : tbuf.Index < 2)
    (hsize : tbuf.Size < 2 ^ 16) : GetStringLenAt tbuf = none := by
  have hindex : lengthIndex tbuf = tbuf.Index + (2 ^ 16 - 2) := by
    rw [lengthIndex]
    omega
  rw [GetStringLenAt, hindex]
  exact if_neg (by omega)

theorem le_of_GetStringLenAt
    (h : GetStringLenAt (window d size.toNat index.toNat) = some len) :
    index.toNat ≤ size.toNat := by
  have htwo : 2 ≤ index.toNat := by
    by_contra hlt
    rw [GetStringLenAt_of_lt (Nat.not_le.mp hlt) size.toNat_lt] at h
    cases h
  rw [GetStringLenAt_of_le htwo index.toNat_lt] at h
  obtain ⟨hle, _⟩ := Option.ite_none_right_eq_some.mp h
  rwa [window, Nat.sub_add_cancel htwo] at hle

/-- The extraction returns, and writes below the length of the buffer. -/
theorem exists_extraction (tbuf : QmTBuffer) (pInBuffer : Option (ℕ → UInt8))
    (lengthBuffer : UInt32) :
    ∃ r, qmQmiExtractStringInto tbuf pInBuffer lengthBuffer = some r ∧
      ∀ w ∈ r.writes, w.2 < lengthBuffer.toNat := by
  cases hlen : GetStringLenAt tbuf with
  | none => exact ⟨_, extractInto_of_none hlen, List.forall_mem_nil _⟩
  | some len =>
      by_cases hle : lengthBuffer.toNat ≤ len.toNat
      · exact ⟨_, extractInto_of_tooLong hlen hle, List.forall_mem_nil _⟩
      have hlt := Nat.not_le.mp hle
      by_cases hnothing : len = 0 ∨ pInBuffer = none
      · exact ⟨_, extractInto_of_nothing hlen hlt hnothing, List.forall_mem_nil _⟩
      obtain ⟨hne, hsome⟩ := not_or.mp hnothing
      obtain ⟨out, rfl⟩ := Option.ne_none_iff_exists'.mp hsome
      by_cases hsize : tbuf.Index + len.toNat ≤ tbuf.Size
      · refine ⟨_, extractInto_of_le hlen hlt hne hsize, ?_⟩
        intro w hw
        have hmem := lt_of_mem_zipIdx hw
        rw [List.length_append, length_load, List.length_singleton] at hmem
        omega
      · have hbeyond := Nat.not_le.mp hsize
        obtain ⟨n, _, hn, _⟩ := exists_length_eq hne
        refine ⟨_, extractInto_of_lt hlen hlt hne hbeyond, ?_⟩
        intro w hw
        rcases List.mem_append.mp hw with hw | hw
        · have hmem := lt_of_mem_zipIdx hw
          rw [length_load] at hmem
          omega
        · rw [List.mem_singleton.mp hw]
          dsimp only
          omega

/-- The output of a value that was copied. -/
theorem output_zipIdx {tbuf : QmTBuffer} {eRCode : EQCWWANError} (bytes : List UInt8) :
    Extraction.output ⟨eRCode, tbuf, bytes.zipIdx⟩ out = store out 0 bytes :=
  afterWrites_zipIdx out bytes 0

/-- An empty value leaves the output as it is to be only if it was ended before. -/
theorem store_eos_iff (out : ℕ → UInt8) : out = store out 0 [eos] ↔ out 0 = eos := by
  constructor
  · intro h
    have hcell := congrFun h 0
    rwa [store_at] at hcell
  · intro h
    rw [store_singleton, ← h, Function.update_eq_self]

/-- Every byte is written below the length of the buffer, and a success leaves the value and its
end, except that an empty value does not end a buffer that was not ended before. -/
theorem exists_extracts_iff (d : ℕ → UInt8) (size index : UInt16)
    (pInBuffer : Option (ℕ → UInt8)) (lengthBuffer : UInt32) :
    (∃ r,
        qmQmiExtractStringInto (window d size.toNat index.toNat) pInBuffer lengthBuffer = some r ∧
          Extracts (window d size.toNat index.toNat) pInBuffer lengthBuffer r) ↔
      ∀ out, pInBuffer = some out →
        GetStringLenAt (window d size.toNat index.toNat) = some 0 → 0 < lengthBuffer →
          out 0 = eos := by
  obtain ⟨r, hr, hbelow⟩ :=
    exists_extraction (window d size.toNat index.toNat) pInBuffer lengthBuffer
  constructor
  · rintro ⟨r', hr', hextracts⟩ out rfl hlen hpos
    rw [extractInto_of_nothing hlen hpos (.inl rfl)] at hr'
    obtain rfl := Option.some.inj hr'
    obtain ⟨len, hlen', _, houtput⟩ := hextracts.exactly out rfl rfl
    obtain rfl := Option.some.inj (hlen.symm.trans hlen')
    exact (store_eos_iff out).mp houtput
  · intro hended
    refine ⟨r, hr, hbelow, ?_⟩
    rintro out rfl hcode
    cases hlen : GetStringLenAt (window d size.toNat index.toNat) with
    | none =>
        rw [extractInto_of_none hlen] at hr
        obtain rfl := Option.some.inj hr
        exact absurd hcode EQCWWANError.memory_ne_none
    | some len =>
        refine ⟨len, rfl, ?_⟩
        by_cases hle : lengthBuffer.toNat ≤ len.toNat
        · rw [extractInto_of_tooLong hlen hle] at hr
          obtain rfl := Option.some.inj hr
          exact absurd hcode EQCWWANError.bufferSz_ne_none
        have hlt := Nat.not_le.mp hle
        by_cases hzero : len = 0
        · rw [extractInto_of_nothing hlen hlt (.inl hzero)] at hr
          obtain rfl := Option.some.inj hr
          subst hzero
          exact ⟨le_of_GetStringLenAt hlen, (store_eos_iff out).mpr (hended out rfl hlen hlt)⟩
        by_cases hsize : index.toNat + len.toNat ≤ size.toNat
        · rw [extractInto_of_le hlen hlt hzero hsize] at hr
          obtain rfl := Option.some.inj hr
          exact ⟨hsize, output_zipIdx _⟩
        · rw [extractInto_of_lt hlen hlt hzero (Nat.not_le.mp hsize)] at hr
          obtain rfl := Option.some.inj hr
          exact absurd hcode EQCWWANError.memory_ne_none

/-- A TLV of length zero leaves a buffer that is not ended. -/
theorem not_exists_extracts :
    ¬∀ (d : ℕ → UInt8) (size index : UInt16) (pInBuffer : Option (ℕ → UInt8))
      (lengthBuffer : UInt32), ∃ r,
        qmQmiExtractStringInto (window d size.toNat index.toNat) pInBuffer lengthBuffer = some r ∧
          Extracts (window d size.toNat index.toNat) pInBuffer lengthBuffer r := by
  intro h
  obtain ⟨r, hr, hextracts⟩ := h (fun _ => 0) 3 3 (some fun _ => 1) 4
  have hempty : GetStringLenAt (window (fun _ => 0) (3 : UInt16).toNat (3 : UInt16).toNat) =
      some 0 := by decide
  rw [extractInto_of_nothing hempty (by decide) (.inl rfl)] at hr
  obtain rfl := Option.some.inj hr
  obtain ⟨len, hlen, _, houtput⟩ := hextracts.exactly (fun _ => 1) rfl rfl
  obtain rfl := Option.some.inj (hempty.symm.trans hlen)
  exact absurd (congrFun houtput 0) (by decide)

/-- The string that `qmQmiExtractString` has is the one in the buffer. -/
theorem qmQmiExtractString_eq {tbuf : QmTBuffer} (hindex : 2 ≤ tbuf.Index)
    (hbound : tbuf.Index < 2 ^ 16)
    (hr : qmQmiExtractStringInto tbuf (some out) lengthBuffer = some r) :
    qmQmiExtractString tbuf lengthBuffer.toNat =
      (r.eRCode, r.tbuf.Index,
        if r.eRCode = EQCWWANError.none ∧ r.writes ≠ [] then
          some (load (r.output out) 0 (r.writes.length - 1))
        else none) := by
  rw [qmQmiExtractString, ← GetStringLenAt_of_le hindex hbound]
  cases hlen : GetStringLenAt tbuf with
  | none =>
      rw [extractInto_of_none hlen] at hr
      obtain rfl := Option.some.inj hr
      rfl
  | some len =>
      dsimp only
      by_cases hle : lengthBuffer.toNat ≤ len.toNat
      · rw [extractInto_of_tooLong hlen hle] at hr
        obtain rfl := Option.some.inj hr
        rw [if_pos hle]
        rfl
      have hlt := Nat.not_le.mp hle
      by_cases hzero : len = 0
      · rw [extractInto_of_nothing hlen hlt (.inl hzero)] at hr
        obtain rfl := Option.some.inj hr
        rw [if_neg hle, if_pos hzero]
        rfl
      rw [if_neg hle, if_neg hzero]
      by_cases hsize : tbuf.Index + len.toNat ≤ tbuf.Size
      · rw [extractInto_of_le hlen hlt hzero hsize] at hr
        obtain rfl := Option.some.inj hr
        have hwrites : (load tbuf.Datap tbuf.Index len.toNat ++ [eos]).zipIdx ≠ [] := by
          simp
        rw [getBytes_of_le hsize, output_zipIdx]
        dsimp only
        rw [if_pos ⟨rfl, hwrites⟩, List.length_zipIdx, List.length_append, length_load,
          List.length_singleton, Nat.add_sub_cancel,
          load_store_append _ _ _ (length_load tbuf.Datap tbuf.Index len.toNat)]
        rfl
      · rw [extractInto_of_lt hlen hlt hzero (Nat.not_le.mp hsize)] at hr
        obtain rfl := Option.some.inj hr
        rw [getBytes_of_lt (Nat.not_le.mp hsize)]
        dsimp only
        rw [if_neg (not_and_of_not_left _ EQCWWANError.memory_ne_none)]

end Extraction

end Qm

end SierraSdk
