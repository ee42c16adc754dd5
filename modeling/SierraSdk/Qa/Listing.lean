import SierraSdk.Library.Reading
import SierraSdk.Qm.DcsContent

/-!
# Lists in a TLV

The unpackers of lists read a count and then as many records, each into the next entry of an array of
the caller, if the caller said that the array has as many entries. The index of an entry is a byte.

They do not look at the length of the TLV, but read on to the end of the message. `ListLayout` says
what the records of a list look like in a message and in the array, and `UnpacksList` what an unpacker
of the list is to do. `listUnpacked_iff` says for which messages it does.
-/

namespace SierraSdk

namespace Qa

open Am Memory Qm Reading

section Cursor

/-- The bytes from the cursor to the end of a message. -/
def left (tbuf : QmTBuffer) : List UInt8 := load tbuf.Datap tbuf.Index (tbuf.Size - tbuf.Index)

theorem length_left (tbuf : QmTBuffer) : (left tbuf).length = tbuf.Size - tbuf.Index :=
  length_load _ _ _

/-- The next bytes, and those behind them. -/
theorem left_eq {tbuf : QmTBuffer} {n : ℕ} (h : tbuf.Index + n ≤ tbuf.Size) :
    left tbuf = load tbuf.Datap tbuf.Index n ++ left (tbuf.skip n) := by
  have hsplit : tbuf.Size - tbuf.Index = n + (tbuf.Size - (tbuf.Index + n)) := by omega
  rw [left, hsplit, load_add]
  rfl

/-- A value in a number of bytes is got when they are there. -/
theorem gets_of_load {ρ : Type} {enc : ρ → List UInt8} (dec : List UInt8 → ρ) {n : ℕ} (hn : 0 < n)
    {get : QmTBuffer → Option (ρ × QmTBuffer)} (hlength : ∀ r, (enc r).length = n)
    (hdec : ∀ r, dec (enc r) = r) (henc : ∀ xs, xs.length = n → enc (dec xs) = xs)
    (hget : ∀ tbuf, get tbuf = if tbuf.Index + n ≤ tbuf.Size then
      some (dec (load tbuf.Datap tbuf.Index n), tbuf.skip n) else none) : Gets left enc get where
  prefixFree r r' xs xs' heq := by
    obtain ⟨hsame, hrest⟩ := List.append_inj heq ((hlength r).trans (hlength r').symm)
    exact ⟨by rw [← hdec r, hsame, hdec], hrest⟩
  got tbuf r rest hleft := by
    have hthere : tbuf.Index + n ≤ tbuf.Size := by
      have hle := congrArg List.length hleft
      rw [length_left, List.length_append, hlength] at hle
      omega
    rw [left_eq hthere] at hleft
    obtain ⟨hload, hrest⟩ := List.append_inj hleft ((length_load _ _ _).trans (hlength r).symm)
    exact ⟨tbuf.skip n, hrest, by rw [hget, if_pos hthere, hload, hdec]⟩
  missing tbuf hmissing := by
    rw [hget, if_neg]
    intro hthere
    refine hmissing (dec (load tbuf.Datap tbuf.Index n)) (left (tbuf.skip n)) ?_
    rw [henc _ (length_load _ _ _), left_eq hthere]

theorem gets_GetByte : Gets left (fun b : UInt8 => [b]) GetByte := by
  refine gets_of_load (fun xs => xs.headD 0) (Nat.succ_pos 0) (fun _ => rfl) (fun _ => rfl)
    (fun xs hxs => ?_) fun tbuf => rfl
  obtain ⟨b, rfl⟩ := List.length_eq_one_iff.mp hxs
  rfl

/-- The bytes of a word made of two. -/
theorem toUInt8_halves (lo hi : UInt8) :
    (lo.toUInt16 ||| hi.toUInt16 <<< 8).toUInt8 = lo ∧
      ((lo.toUInt16 ||| hi.toUInt16 <<< 8) >>> 8).toUInt8 = hi := by
  constructor
  · apply UInt8.toBitVec_inj.mp
    apply BitVec.eq_of_getLsbD_eq
    intro i hi
    simp [hi]
  · apply UInt8.toBitVec_inj.mp
    apply BitVec.eq_of_getLsbD_eq
    intro i hi
    have hlow : i < 16 := by omega
    have hhigh : 8 + i < 16 := by omega
    simp [hi, hlow, hhigh]

/-- The halves of a number made of two words. -/
theorem toUInt16_halves (lo hi : UInt16) :
    (lo.toUInt32 ||| hi.toUInt32 <<< 16).toUInt16 = lo ∧
      ((lo.toUInt32 ||| hi.toUInt32 <<< 16) >>> 16).toUInt16 = hi := by
  constructor
  · apply UInt16.toBitVec_inj.mp
    apply BitVec.eq_of_getLsbD_eq
    intro i hi
    simp [hi]
  · apply UInt16.toBitVec_inj.mp
    apply BitVec.eq_of_getLsbD_eq
    intro i hi
    have hlow : i < 32 := by omega
    have hhigh : 16 + i < 32 := by omega
    simp [hi, hlow, hhigh]

theorem piput16_piget16 (a b : UInt8) : piput16 (piget16 [a, b] 0) = [a, b] := by
  obtain ⟨hlow, hhigh⟩ := toUInt8_halves a b
  change [(a.toUInt16 ||| b.toUInt16 <<< 8).toUInt8, _] = _
  rw [hlow]
  exact congrArg (fun x => [a, x]) hhigh

theorem piput32_piget32 (a b c d : UInt8) :
    piput32 (piget32 [a, b, c, d] 0) = [a, b, c, d] := by
  obtain ⟨hlow, hhigh⟩ := toUInt16_halves (piget16 [a, b] 0) (piget16 [c, d] 0)
  change piput16 ((piget16 [a, b] 0).toUInt32 ||| (piget16 [c, d] 0).toUInt32 <<< 16).toUInt16 ++
    piput16 (((piget16 [a, b] 0).toUInt32 ||| (piget16 [c, d] 0).toUInt32 <<< 16) >>> 16).toUInt16
      = _
  rw [hlow, hhigh, piput16_piget16, piput16_piget16]
  rfl

theorem gets_GetWord : Gets left piput16 GetWord := by
  refine gets_of_load (fun xs => piget16 xs 0) (Nat.succ_pos 1) (fun _ => rfl)
    (fun value => piget16_piput16 value [] []) (fun xs hxs => ?_) fun tbuf => rfl
  obtain ⟨a, b, rfl⟩ := List.length_eq_two.mp hxs
  exact piput16_piget16 a b

theorem gets_GetLong : Gets left piput32 GetLong := by
  refine gets_of_load (fun xs => piget32 xs 0) (Nat.succ_pos 3) (fun _ => rfl)
    (fun value => piget32_piput32 value [] []) (fun xs hxs => ?_) fun tbuf => ?_
  · obtain ⟨a, ys, rfl⟩ := List.exists_cons_of_length_eq_add_one hxs
    obtain ⟨b, c, d, rfl⟩ := List.length_eq_three.mp (Nat.succ.inj hxs)
    exact piput32_piget32 a b c d
  · by_cases hthere : tbuf.Index + 4 ≤ tbuf.Size
    · rw [GetLong, getBytes_of_le hthere, if_pos hthere]
      rfl
    · rw [GetLong, getBytes_of_lt (Nat.lt_of_not_le hthere), if_neg hthere]
      rfl

end Cursor

section Model

variable {ν κ ε : Type}

/-- How a list is unpacked: how its count is read and stored at the caller, and how an entry is
read. -/
structure ListTlv (ν κ ε : Type) where
  getCount : QmTBuffer → Option (ν × QmTBuffer)
  toNat : ν → ℕ
  capacity : κ → ℕ
  store : ν → κ
  read : Reader QmTBuffer ε

/-- `lArrayIndex` after a number of records, a byte. -/
def lArrayIndex (k : ℕ) : ℕ := (UInt8.ofNat k).toNat

/-- Unpack a list into the entries of the caller, of whose number `size` says how many there are. The
code, the cursor, the number that the caller gets, and the entries. -/
def ListTlv.unpack (l : ListTlv ν κ ε) (tbuf : QmTBuffer) (size : κ) (entries : ℕ → ε) :
    EQCWWANError × QmTBuffer × κ × (ℕ → ε) :=
  match l.getCount tbuf with
  | none => (EQCWWANError.memory, tbuf, size, entries)
  | some (n, tbuf) =>
      if l.capacity size < l.toNat n then (EQCWWANError.bufferSz, tbuf, l.store n, entries)
      else
        let r := fill lArrayIndex l.read (l.toNat n) 0 tbuf entries
        (if r.1 then EQCWWANError.none else EQCWWANError.memory, r.2.1, l.store n, r.2.2)

end Model

section Layout

variable {ν κ ε ρ σ τ : Type} {l : ListTlv ν κ ε}

/-- What the records of a list look like in a message, and in an entry of the array. A record is
`short` when nothing outside the arrays of the entry is written for it. -/
structure ListLayout (l : ListTlv ν κ ε) (ρ : Type) where
  countEnc : ν → List UInt8
  enc : ρ → List UInt8
  put : ρ → ε → ε
  kept : ε → ε → Prop
  Holds : ε → ρ → Prop
  short : ρ → Prop
  gets : Gets left countEnc l.getCount
  reads : Reads left enc put kept l.read
  capacity_store : ∀ n size, l.toNat n ≤ l.capacity size → l.capacity (l.store n) = l.toNat n
  kept_refl : ∀ e, kept e e
  kept_trans : ∀ e e' e'', kept e e' → kept e' e'' → kept e e''
  short_iff : ∀ r, short r ↔ ∀ e, kept e (put r e)
  holds_put : ∀ r, short r → ∀ e, Holds (put r e) r
  exists_not_holds : ∀ r, ∃ e, ¬ Holds e r
  few : (∀ size, l.capacity size ≤ 256) ∨ ∀ r, short r

/-- What is to come of unpacking a list: if it succeeds, the entries hold the records of the TLV;
nothing outside the entries and their arrays is written; and nothing is unpacked if there are too few
entries. -/
structure ListUnpacked (f : ListLayout l ρ) (value : List UInt8) (size : κ) (entries : ℕ → ε)
    (code : EQCWWANError) (size' : κ) (entries' : ℕ → ε) : Prop where
  exact : code = EQCWWANError.none → ∃ (n : ν) (rs : List ρ) (rest : List UInt8),
    value = f.countEnc n ++ (rs.flatMap f.enc ++ rest) ∧ rs.length = l.toNat n ∧
      l.capacity size' = rs.length ∧ ∀ i (h : i < rs.length), f.Holds (entries' i) rs[i]
  inside : ∀ i, f.kept (entries i) (entries' i) ∧
    (l.capacity size ≤ i → entries' i = entries i)
  small : ∀ n rest, value = f.countEnc n ++ rest → l.capacity size < l.toNat n →
    code ≠ EQCWWANError.none ∧ entries' = entries

/-- An unpacker does so with any entries of the caller, and if there are too few of them it changes
only their number in what the caller gave it. -/
def UnpacksList (f : ListLayout l ρ) (value : List UInt8) (size : κ)
    (mk : τ → κ → (ℕ → ε) → σ) (unpack : σ → EQCWWANError × QmTBuffer × σ) : Prop :=
  ∀ t entries, ∃ code tbuf t' size' entries',
    unpack (mk t size entries) = (code, tbuf, mk t' size' entries') ∧
      ListUnpacked f value size entries code size' entries' ∧
      (∀ n rest, value = f.countEnc n ++ rest → l.capacity size < l.toNat n → t' = t)

/-- The records that are there are short, and if they are all there, they are not more than the index
can tell apart and they end inside the TLV. -/
def ListFits (f : ListLayout l ρ) (tbuf : QmTBuffer) (tlvLen : ℕ) (size : κ) : Prop :=
  ∀ (n : ν) (rs : List ρ) rest, left tbuf = f.countEnc n ++ (rs.flatMap f.enc ++ rest) →
    rs.length ≤ l.toNat n → l.toNat n ≤ l.capacity size →
      (∀ r ∈ rs, f.short r) ∧
        (rs.length = l.toNat n →
          rs.length ≤ 256 ∧ (f.countEnc n ++ rs.flatMap f.enc).length ≤ tlvLen)

theorem lArrayIndex_le (k : ℕ) : lArrayIndex k ≤ k := by
  rw [lArrayIndex, UInt8.toNat_ofNat']
  exact Nat.mod_le k _

theorem lArrayIndex_lt (k : ℕ) : lArrayIndex k < 256 := (UInt8.ofNat k).toNat_lt

theorem lArrayIndex_of_lt {k : ℕ} (h : k < 256) : lArrayIndex k = k := by
  rw [lArrayIndex, UInt8.toNat_ofNat']
  exact Nat.mod_eq_of_lt h

section Steps

variable {f : ListLayout l ρ} {tbuf : QmTBuffer} {size : κ} {entries : ℕ → ε}

/-- There is no count. -/
theorem unpack_of_missing (h : ∀ n rest, left tbuf ≠ f.countEnc n ++ rest) :
    l.unpack tbuf size entries = (EQCWWANError.memory, tbuf, size, entries) := by
  rw [ListTlv.unpack, f.gets.missing tbuf h]

/-- There are too few entries. -/
theorem unpack_of_small {n : ν} {rest : List UInt8} (h : left tbuf = f.countEnc n ++ rest)
    (hsmall : l.capacity size < l.toNat n) (entries : ℕ → ε) :
    ∃ tbuf', l.unpack tbuf size entries = (EQCWWANError.bufferSz, tbuf', l.store n, entries) := by
  obtain ⟨tbuf', -, hget⟩ := f.gets.got tbuf n rest h
  exact ⟨tbuf', by rw [ListTlv.unpack, hget]; exact if_pos hsmall⟩

/-- There are enough entries: the records that are there are put in them. -/
theorem unpack_of_le {n : ν} {rest : List UInt8} (h : left tbuf = f.countEnc n ++ rest)
    (hle : l.toNat n ≤ l.capacity size) (entries : ℕ → ε) :
    ∃ rs rest' tbuf', rest = rs.flatMap f.enc ++ rest' ∧
      ((rs.length = l.toNat n ∧ l.unpack tbuf size entries =
          (EQCWWANError.none, tbuf', l.store n, filled lArrayIndex f.put rs 0 entries)) ∨
        (rs.length < l.toNat n ∧ (∀ r rest'', rest' ≠ f.enc r ++ rest'') ∧
          ∃ e, f.kept (filled lArrayIndex f.put rs 0 entries (lArrayIndex rs.length)) e ∧
            l.unpack tbuf size entries = (EQCWWANError.memory, tbuf', l.store n,
              Function.update (filled lArrayIndex f.put rs 0 entries)
                (lArrayIndex rs.length) e))) := by
  obtain ⟨tbuf₁, hleft, hget⟩ := f.gets.got tbuf n rest h
  obtain ⟨rs, rest', hrest, hend⟩ := fill_spec f.reads lArrayIndex (l.toNat n) 0 tbuf₁ entries
  rw [hleft] at hrest
  have hunpack : l.unpack tbuf size entries =
      let r := fill lArrayIndex l.read (l.toNat n) 0 tbuf₁ entries
      (if r.1 then EQCWWANError.none else EQCWWANError.memory, r.2.1, l.store n, r.2.2) := by
    rw [ListTlv.unpack, hget]
    exact if_neg (Nat.not_lt.mpr hle)
  rw [Nat.zero_add] at hend
  rcases hend with ⟨hall, tbuf', hfill⟩ | ⟨hless, hmissing, tbuf', e, hkept, hfill⟩
  · exact ⟨rs, rest', tbuf', hrest, .inl ⟨hall, by rw [hunpack, hfill]; rfl⟩⟩
  · exact ⟨rs, rest', tbuf', hrest, .inr ⟨hless, hmissing, e, hkept, by rw [hunpack, hfill]; rfl⟩⟩

/-- No entry behind those of the records is written. -/
theorem filled_of_le {rs : List ρ} {i : ℕ} (h : rs.length ≤ i) :
    filled lArrayIndex f.put rs 0 entries i = entries i := by
  refine filled_of_ne fun j hj heq => ?_
  have hle := lArrayIndex_le (0 + j)
  omega

/-- An entry holds the record of its number, if the index can tell the records apart. -/
theorem filled_eq_put {rs : List ρ} (hfew : rs.length ≤ 256) {i : ℕ} (hi : i < rs.length) :
    filled lArrayIndex f.put rs 0 entries i = f.put rs[i] (entries i) := by
  have hat : filled lArrayIndex f.put rs 0 entries (0 + i) = f.put rs[i] (entries (0 + i)) :=
    filled_at (fun k hk => lArrayIndex_of_lt hk) (by rwa [Nat.zero_add]) hi
  rwa [Nat.zero_add] at hat

/-- A count is the only one at the cursor. -/
theorem count_unique {tlvLen : ℕ} {n n' : ν} {rest rest' : List UInt8}
    (h : left tbuf = f.countEnc n ++ rest)
    (h' : (left tbuf).take tlvLen = f.countEnc n' ++ rest') :
    n' = n ∧ rest' ++ (left tbuf).drop tlvLen = rest := by
  have hall : f.countEnc n' ++ (rest' ++ (left tbuf).drop tlvLen) = f.countEnc n ++ rest := by
    rw [← List.append_assoc, ← h', List.take_append_drop, h]
  exact f.gets.prefixFree _ _ _ _ hall

/-- A failed unpacker that left the entries alone. -/
theorem listUnpacked_of_eq {value : List UInt8} {code : EQCWWANError} {size' : κ}
    (hcode : code ≠ EQCWWANError.none) :
    ListUnpacked f value size entries code size' entries where
  exact h := absurd h hcode
  inside _ := ⟨f.kept_refl _, fun _ => rfl⟩
  small _ _ _ _ := ⟨hcode, rfl⟩

/-- All records are there. -/
theorem listUnpacked_of_all {tlvLen : ℕ} {n : ν} {rs : List ρ} {rest : List UInt8}
    (hleft : left tbuf = f.countEnc n ++ (rs.flatMap f.enc ++ rest))
    (hle : l.toNat n ≤ l.capacity size) (hall : rs.length = l.toNat n)
    (hshort : ∀ r ∈ rs, f.short r) (hfew : rs.length ≤ 256)
    (hinside : (f.countEnc n ++ rs.flatMap f.enc).length ≤ tlvLen) :
    ListUnpacked f ((left tbuf).take tlvLen) size entries EQCWWANError.none (l.store n)
      (filled lArrayIndex f.put rs 0 entries) where
  exact _ := by
    refine ⟨n, rs, rest.take (tlvLen - (f.countEnc n ++ rs.flatMap f.enc).length), ?_, hall,
      (f.capacity_store n size hle).trans hall.symm, fun i hi => ?_⟩
    · rw [hleft, ← List.append_assoc, List.take_append, List.take_of_length_le hinside,
        List.append_assoc]
    · rw [filled_eq_put hfew hi]
      exact f.holds_put _ (hshort _ (List.getElem_mem hi)) _
  inside i := by
    refine ⟨filled_kept f.kept_refl f.kept_trans
      (fun r hr => (f.short_iff r).mp (hshort r hr)) 0 entries i, fun hi => ?_⟩
    exact filled_of_le (Nat.le_trans (Nat.le_of_eq hall) (Nat.le_trans hle hi))
  small n' rest' h' hsmall := by
    rw [(count_unique hleft h').1] at hsmall
    exact absurd hsmall (Nat.not_lt.mpr hle)

/-- A record is missing. -/
theorem listUnpacked_of_missing {tlvLen : ℕ} {n : ν} {rs : List ρ} {rest : List UInt8}
    (hleft : left tbuf = f.countEnc n ++ (rs.flatMap f.enc ++ rest))
    (hle : l.toNat n ≤ l.capacity size) (hless : rs.length < l.toNat n)
    (hshort : ∀ r ∈ rs, f.short r) {e : ε}
    (hkept : f.kept (filled lArrayIndex f.put rs 0 entries (lArrayIndex rs.length)) e) :
    ListUnpacked f ((left tbuf).take tlvLen) size entries EQCWWANError.memory (l.store n)
      (Function.update (filled lArrayIndex f.put rs 0 entries) (lArrayIndex rs.length) e) where
  exact hcode := absurd hcode EQCWWANError.memory_ne_none
  inside i := by
    have hfilled : ∀ i, f.kept (entries i) (filled lArrayIndex f.put rs 0 entries i) :=
      filled_kept f.kept_refl f.kept_trans (fun r hr => (f.short_iff r).mp (hshort r hr)) 0 entries
    refine ⟨?_, fun hi => ?_⟩
    · by_cases hi : i = lArrayIndex rs.length
      · rw [hi, Function.update_self]
        exact f.kept_trans _ _ _ (hfilled _) hkept
      · rw [Function.update_of_ne hi]
        exact hfilled i
    · have hindex := lArrayIndex_le rs.length
      have hne : i ≠ lArrayIndex rs.length := by omega
      rw [Function.update_of_ne hne]
      exact filled_of_le (by omega)
  small n' rest' h' hsmall := by
    rw [(count_unique hleft h').1] at hsmall
    exact absurd hsmall (Nat.not_lt.mpr hle)

/-- A list that fits is unpacked. -/
theorem listUnpacked_of_fits {tlvLen : ℕ} (h : ListFits f tbuf tlvLen size) (entries : ℕ → ε) :
    ListUnpacked f ((left tbuf).take tlvLen) size entries (l.unpack tbuf size entries).1
      (l.unpack tbuf size entries).2.2.1 (l.unpack tbuf size entries).2.2.2 := by
  rcases there_or_missing f.countEnc (left tbuf) with ⟨n, rest, hleft⟩ | hmissing
  · by_cases hle : l.toNat n ≤ l.capacity size
    · obtain ⟨rs, rest', tbuf', rfl, hend⟩ := unpack_of_le hleft hle entries
      rcases hend with ⟨hall, hunpack⟩ | ⟨hless, -, e, hkept, hunpack⟩
      · obtain ⟨hshort, hlast⟩ := h n rs rest' hleft (Nat.le_of_eq hall) hle
        obtain ⟨hfew, hinside⟩ := hlast hall
        rw [hunpack]
        exact listUnpacked_of_all hleft hle hall hshort hfew hinside
      · obtain ⟨hshort, -⟩ := h n rs rest' hleft (Nat.le_of_lt hless) hle
        rw [hunpack]
        exact listUnpacked_of_missing hleft hle hless hshort hkept
    · obtain ⟨tbuf', hunpack⟩ := unpack_of_small hleft (Nat.lt_of_not_le hle) entries
      rw [hunpack]
      exact listUnpacked_of_eq EQCWWANError.bufferSz_ne_none
  · rw [unpack_of_missing hmissing]
    exact listUnpacked_of_eq EQCWWANError.memory_ne_none

/-- A record that is there, and has an entry of its own, is put in that entry. -/
theorem kept_put_of_unpacked {tlvLen : ℕ} {n : ν} {rs : List ρ} {rest : List UInt8}
    (h : ∀ entries, ListUnpacked f ((left tbuf).take tlvLen) size entries
      (l.unpack tbuf size entries).1 (l.unpack tbuf size entries).2.2.1
      (l.unpack tbuf size entries).2.2.2)
    (hleft : left tbuf = f.countEnc n ++ (rs.flatMap f.enc ++ rest))
    (hlength : rs.length ≤ l.toNat n) (hle : l.toNat n ≤ l.capacity size)
    (hcapacity : l.capacity size ≤ 256) {r : ρ} (hr : r ∈ rs) (e : ε) : f.kept e (f.put r e) := by
  obtain ⟨rs', rest', tbuf', heq, hend⟩ := unpack_of_le hleft hle fun _ => e
  have hfirst : rs <+: rs' := by
    rcases hend with ⟨hall, -⟩ | ⟨-, hmissing, -⟩
    · exact flatMap_first_of_le f.reads.prefixFree (by omega) heq.symm
    · exact flatMap_first f.reads.prefixFree hmissing heq.symm
  obtain ⟨i, hi, rfl⟩ := List.getElem_of_mem (hfirst.subset hr)
  have hinside := ((h fun _ => e).inside i).1
  rcases hend with ⟨hall, hunpack⟩ | ⟨hless, -, e', -, hunpack⟩
  · rw [hunpack] at hinside
    dsimp only at hinside
    rwa [filled_eq_put (by omega) hi] at hinside
  · have hne : i ≠ lArrayIndex rs'.length := by
      rw [lArrayIndex_of_lt (by omega)]
      exact Nat.ne_of_lt hi
    rw [hunpack] at hinside
    dsimp only at hinside
    rwa [Function.update_of_ne hne, filled_eq_put (by omega) hi] at hinside

/-- A list of which all records are there is in the TLV, and has an entry for each of them. -/
theorem all_of_unpacked [Nonempty ε] {tlvLen : ℕ} {n : ν} {rs : List ρ} {rest : List UInt8}
    (h : ∀ entries, ListUnpacked f ((left tbuf).take tlvLen) size entries
      (l.unpack tbuf size entries).1 (l.unpack tbuf size entries).2.2.1
      (l.unpack tbuf size entries).2.2.2)
    (hleft : left tbuf = f.countEnc n ++ (rs.flatMap f.enc ++ rest))
    (hall : rs.length = l.toNat n) (hle : l.toNat n ≤ l.capacity size) :
    rs.length ≤ 256 ∧ (f.countEnc n ++ rs.flatMap f.enc).length ≤ tlvLen := by
  have hunpacked : ∀ entries, ∃ tbuf', l.unpack tbuf size entries =
      (EQCWWANError.none, tbuf', l.store n, filled lArrayIndex f.put rs 0 entries) := by
    intro entries
    obtain ⟨rs', rest', tbuf', heq, hend⟩ := unpack_of_le hleft hle entries
    rcases hend with ⟨hall', hunpack⟩ | ⟨hless, hmissing, -⟩
    · have hsame := (flatMap_unique f.reads.prefixFree (hall.trans hall'.symm) heq).1
      exact ⟨tbuf', by rw [hunpack, hsame]⟩
    · have hfirst := flatMap_first f.reads.prefixFree hmissing heq.symm
      have hlength := hfirst.length_le
      omega
  have hexact : ∀ entries, (f.countEnc n ++ rs.flatMap f.enc).length ≤ tlvLen ∧
      ∀ i (hi : i < rs.length), f.Holds (filled lArrayIndex f.put rs 0 entries i) rs[i] := by
    intro entries
    obtain ⟨tbuf', hunpack⟩ := hunpacked entries
    have hlist := h entries
    rw [hunpack] at hlist
    obtain ⟨n', rs', rest', hvalue, hall', -, hholds⟩ := hlist.exact rfl
    obtain ⟨rfl, hrest⟩ := count_unique hleft hvalue
    rw [List.append_assoc] at hrest
    obtain ⟨rfl, -⟩ :=
      flatMap_unique f.reads.prefixFree (hall'.trans hall.symm) hrest
    refine ⟨?_, hholds⟩
    have hlength := congrArg List.length hvalue
    rw [List.length_take, ← List.append_assoc, List.length_append] at hlength
    omega
  refine ⟨?_, (hexact fun _ => Classical.arbitrary ε).1⟩
  by_contra hmany
  -- the index never gets to the entry behind the first 256, which need not hold its record
  have hbehind : 256 < rs.length := Nat.lt_of_not_le hmany
  obtain ⟨e, he⟩ := f.exists_not_holds rs[256]
  have hholds := (hexact fun _ => e).2 256 hbehind
  have hsame : filled lArrayIndex f.put rs 0 (fun _ => e) 256 = e :=
    filled_of_ne fun j _ => Nat.ne_of_lt (lArrayIndex_lt (0 + j))
  rw [hsame] at hholds
  exact he hholds

/-- A list is unpacked as it is to be, whatever the entries hold, exactly when it fits. -/
theorem listUnpacked_iff [Nonempty ε] (f : ListLayout l ρ) (tbuf : QmTBuffer) (tlvLen : ℕ)
    (size : κ) :
    (∀ entries, ListUnpacked f ((left tbuf).take tlvLen) size entries
      (l.unpack tbuf size entries).1 (l.unpack tbuf size entries).2.2.1
      (l.unpack tbuf size entries).2.2.2) ↔ ListFits f tbuf tlvLen size := by
  constructor
  · intro h n rs rest hleft hlength hle
    refine ⟨fun r hr => ?_, fun hall => all_of_unpacked h hleft hall hle⟩
    rcases f.few with hcapacity | hshort
    · rw [f.short_iff]
      exact kept_put_of_unpacked h hleft hlength hle (hcapacity size) hr
    · exact hshort r
  · exact listUnpacked_of_fits

/-- An unpacker that hands the count and the entries to the list, and changes the rest of what the
caller gave it only when the list is unpacked. -/
theorem unpacksList_iff [Nonempty ε] [Nonempty τ] (f : ListLayout l ρ) (tbuf : QmTBuffer)
    (tlvLen : ℕ) (size : κ) {mk : τ → κ → (ℕ → ε) → σ}
    {unpack : σ → EQCWWANError × QmTBuffer × σ}
    (hinj : ∀ t s a t' s' a', mk t s a = mk t' s' a' → s = s' ∧ a = a')
    (hunpack : ∀ t entries, ∃ t', (unpack (mk t size entries) =
      ((l.unpack tbuf size entries).1, (l.unpack tbuf size entries).2.1,
        mk t' (l.unpack tbuf size entries).2.2.1 (l.unpack tbuf size entries).2.2.2)) ∧
      ((l.unpack tbuf size entries).1 ≠ EQCWWANError.none → t' = t)) :
    UnpacksList f ((left tbuf).take tlvLen) size mk unpack ↔ ListFits f tbuf tlvLen size := by
  rw [← listUnpacked_iff]
  constructor
  · intro h entries
    obtain ⟨code, tbuf', t', size', entries', heq, hlist, -⟩ := h (Classical.arbitrary τ) entries
    obtain ⟨t'', hr, -⟩ := hunpack (Classical.arbitrary τ) entries
    rw [hr] at heq
    obtain ⟨rfl, hrest⟩ := Prod.mk.inj heq
    obtain ⟨rfl, hresp⟩ := Prod.mk.inj hrest
    obtain ⟨rfl, rfl⟩ := hinj _ _ _ _ _ _ hresp
    exact hlist
  · intro h t entries
    obtain ⟨t', hr, hsame⟩ := hunpack t entries
    exact ⟨_, _, t', _, _, hr, h entries, fun n rest hvalue hsmall =>
      hsame ((h entries).small n rest hvalue hsmall).1⟩

end Steps

end Layout

end Qa

end SierraSdk
