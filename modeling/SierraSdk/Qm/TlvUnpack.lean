import SierraSdk.Library.Tlv
import SierraSdk.Qm.TlvBuffer

/-!
# Unpacking a QMI message

`qmunpack` reads the header of a TLV at the cursor, calls the unpacker that a table has for
its type, and goes on at the cursor that the unpacker left. Only if the unpacker did not move
the cursor, or if there is none, is the TLV skipped by its length, and then only if its value
lies inside the message.

An unpacker is any function of the buffer and of the storage for what it unpacks; it returns
a code, the cursor and the storage. The loop is given fuel, since an unpacker may move the
cursor back. `reference` is the walk that the types and lengths alone determine (`Tlv.scan`),
with the unpackers called on the way. `Realigns` says of one TLV that the loop goes on where
the reference does, and `Framed` says it of all of them.
-/

namespace SierraSdk

namespace Qm

open Am Memory

/-- An entry of a table of unpackers, other than the one that ends the table. -/
structure QmTlvUnpackerItem (ρ : Type*) where
  tlvType : UInt8
  Unpacker : QmTBuffer → ρ → EQCWWANError × UInt16 × ρ
  valid : tlvType ≠ eTlvTypeInvalid

/-- What `qmunpack` does: it reads the header of a TLV, or calls the unpacker for a type with
the cursor at an index. -/
inductive UnpackEvent where
  | header (index : ℕ) (tlvType : UInt8) (tlvLen : UInt16)
  | call (tlvType : UInt8) (index : ℕ)
  deriving DecidableEq

/-- The events, the code that is returned, and the unpacked data. -/
abbrev Unpacked (ρ : Type*) := List UnpackEvent × EQCWWANError × ρ

/-- A window of `size` bytes with the cursor at an index. -/
def window (d : ℕ → UInt8) (size index : ℕ) : QmTBuffer where
  Size := size
  Index := index
  Datap := d
  overrun := false

/-- The 16-bit value at an index of a memory. -/
def wordAt (d : ℕ → UInt8) (index : ℕ) : UInt16 := piget16 (load d index 2) 0

/-- Read the byte at the cursor and move it, if there is one. -/
def GetByte (tbuf : QmTBuffer) : Option (UInt8 × QmTBuffer) :=
  if tbuf.Index + 1 ≤ tbuf.Size then
    some (tbuf.Datap tbuf.Index, { tbuf with Index := tbuf.Index + 1 })
  else none

/-- Read the word at the cursor and move it, if there is one. -/
def GetWord (tbuf : QmTBuffer) : Option (UInt16 × QmTBuffer) :=
  if tbuf.Index + 2 ≤ tbuf.Size then
    some (wordAt tbuf.Datap tbuf.Index, { tbuf with Index := tbuf.Index + 2 })
  else none

section Model

variable {ρ : Type*}

/-- The entry of the table for a type. -/
def findItem (items : List (QmTlvUnpackerItem ρ)) (tlvType : UInt8) :
    Option (QmTlvUnpackerItem ρ) :=
  items.find? fun item => item.tlvType == tlvType

/-- Put an event in front. -/
def Unpacked.cons (event : UnpackEvent) (r : Unpacked ρ) : Unpacked ρ := (event :: r.1, r.2)

/-- The loop of `qmunpack` and `tlv_unpack`. -/
def unpackLoop (items : List (QmTlvUnpackerItem ρ)) : ℕ → QmTBuffer → ρ → Option (Unpacked ρ)
  | 0, _, _ => none
  | fuel + 1, tbuf, resp =>
      if tbuf.Index = tbuf.Size then some ([], EQCWWANError.none, resp)
      else
        match GetByte tbuf with
        | none => some ([], EQCWWANError.memory, resp)
        | some (tlvType, tbuf₁) =>
            match GetWord tbuf₁ with
            | none => some ([], EQCWWANError.memory, resp)
            | some (tlvLen, tbuf₂) =>
                Option.map (Unpacked.cons (.header tbuf.Index tlvType tlvLen)) <|
                  match findItem items tlvType with
                  | some item =>
                      Option.map (Unpacked.cons (.call tlvType tbuf₂.Index)) <|
                        let (eRCode, cursor, resp) := item.Unpacker tbuf₂ resp
                        if eRCode ≠ EQCWWANError.none then some ([], eRCode, resp)
                        else if tbuf₂.Index = cursor.toNat then
                          unpackLoop items fuel (IncrementIndex tbuf₂ tlvLen.toNat).2 resp
                        else unpackLoop items fuel { tbuf₂ with Index := cursor.toNat } resp
                  | none => unpackLoop items fuel (IncrementIndex tbuf₂ tlvLen.toNat).2 resp

/-- The message id of the response is read, and is not looked at. -/
def qmunpack (fuel : ℕ) (bufp : ℕ → UInt8) (resp : ρ) (items : List (QmTlvUnpackerItem ρ))
    (_messageId : UInt16) : Option (Unpacked ρ) :=
  unpackLoop items fuel
    (window (fun k => bufp (qmisvcMsghdrSz + k)) (wordAt bufp qmisvcMsgidSz).toNat 0) resp

def tlv_unpack (fuel : ℕ) (bufp : ℕ → UInt8) (buflen : UInt16) (resp : ρ)
    (items : List (QmTlvUnpackerItem ρ)) : Option (Unpacked ρ) :=
  unpackLoop items fuel (window bufp buflen.toNat 0) resp

end Model

section Reference

variable {ρ : Type*}

/-- The layout of the TLVs of a message. -/
def qmiLayout : Tlv.Layout UInt8 where
  hdr := qmitlvHdrSz
  hdr_pos := by decide
  len d i := (wordAt d (i + qmitlvTypeSz)).toNat

/-- The header of the TLV at an index. -/
def headerAt (d : ℕ → UInt8) (i : ℕ) : UnpackEvent :=
  .header i (d i) (wordAt d (i + qmitlvTypeSz))

/-- Call the unpackers for the TLVs at the given indices, until one fails. A walk that does
not end with a TLV at the end of the message is an error. -/
def serve (items : List (QmTlvUnpackerItem ρ)) (d : ℕ → UInt8) (size : ℕ)
    (ending : Tlv.Ending) : List ℕ → ρ → Unpacked ρ
  | [], resp =>
      ([], if ending = .complete then EQCWWANError.none else EQCWWANError.memory, resp)
  | i :: indices, resp =>
      Unpacked.cons (headerAt d i) <|
        match findItem items (d i) with
        | some item =>
            Unpacked.cons (.call (d i) (qmiLayout.value i)) <|
              let (eRCode, _, resp) := item.Unpacker (window d size (qmiLayout.value i)) resp
              if eRCode ≠ EQCWWANError.none then ([], eRCode, resp)
              else serve items d size ending indices resp
        | none => serve items d size ending indices resp

/-- The walk over the TLVs from an index on, with the unpackers called on their values. -/
def referenceFrom (items : List (QmTlvUnpackerItem ρ)) (d : ℕ → UInt8) (size i : ℕ) (resp : ρ) :
    Unpacked ρ :=
  serve items d size (Tlv.scan qmiLayout d size i).2 (Tlv.scan qmiLayout d size i).1 resp

/-- The bytes behind the header of a message, and their number. -/
def sdu (bufp : ℕ → UInt8) : ℕ → UInt8 := fun k => bufp (qmisvcMsghdrSz + k)
def sduSize (bufp : ℕ → UInt8) : ℕ := (wordAt bufp qmisvcMsgidSz).toNat

/-- The walk over the TLVs of a message. -/
def reference (bufp : ℕ → UInt8) (resp : ρ) (items : List (QmTlvUnpackerItem ρ)) : Unpacked ρ :=
  referenceFrom items (sdu bufp) (sduSize bufp) 0 resp

/-- Neither a header fits at the index, nor is it the end of the message. -/
def Stuck (size index : ℕ) : Prop := index ≠ size ∧ size < index + qmitlvHdrSz

/-- With the cursor left at `cursor`, the loop goes on behind the TLV at `i`. Behind a value
that runs past the end of the message this means that it ends with an error, and the same
error is had where the TLV is followed by less than a header. -/
def Realigns (d : ℕ → UInt8) (size i cursor : ℕ) : Prop :=
  if qmiLayout.next d i ≤ size then
    cursor = qmiLayout.value i ∨ cursor = qmiLayout.next d i ∨
      (Stuck size (qmiLayout.next d i) ∧ Stuck size cursor)
  else Stuck size cursor

/-- Every TLV that the walk comes to is realigned after, until an unpacker fails. A type
without an unpacker leaves the cursor at the value. -/
def Framed (items : List (QmTlvUnpackerItem ρ)) (d : ℕ → UInt8) (size : ℕ) : List ℕ → ρ → Prop
  | [], _ => True
  | i :: indices, resp =>
      match findItem items (d i) with
      | some item =>
          let (eRCode, cursor, resp) := item.Unpacker (window d size (qmiLayout.value i)) resp
          eRCode ≠ EQCWWANError.none ∨
            (Realigns d size i cursor.toNat ∧ Framed items d size indices resp)
      | none => Realigns d size i (qmiLayout.value i) ∧ Framed items d size indices resp

end Reference

section Loop

variable {ρ : Type*} {items : List (QmTlvUnpackerItem ρ)} {d : ℕ → UInt8} {size i : ℕ}
  {resp : ρ} {r : Unpacked ρ}

/-- Where the loop goes on after the TLV at `i`, with the cursor left at `cursor`. -/
def continuation (d : ℕ → UInt8) (size i cursor : ℕ) : ℕ :=
  if qmiLayout.value i = cursor then
    if qmiLayout.next d i ≤ size then qmiLayout.next d i else qmiLayout.value i
  else cursor

/-- The loop behind the header of the TLV at `i`. -/
def afterHeader (items : List (QmTlvUnpackerItem ρ)) (d : ℕ → UInt8) (size i fuel : ℕ)
    (resp : ρ) : Option (Unpacked ρ) :=
  match findItem items (d i) with
  | some item =>
      Option.map (Unpacked.cons (.call (d i) (qmiLayout.value i))) <|
        let (eRCode, cursor, resp) := item.Unpacker (window d size (qmiLayout.value i)) resp
        if eRCode ≠ EQCWWANError.none then some ([], eRCode, resp)
        else unpackLoop items fuel (window d size (continuation d size i cursor.toNat)) resp
  | none =>
      unpackLoop items fuel (window d size (continuation d size i (qmiLayout.value i))) resp

theorem incrementIndex_window (d : ℕ → UInt8) (size i : ℕ) :
    (IncrementIndex (window d size (qmiLayout.value i)) (qmiLayout.len d i)).2 =
      window d size (continuation d size i (qmiLayout.value i)) := by
  rw [continuation, if_pos rfl, IncrementIndex]
  change (if qmiLayout.next d i ≤ size then _ else _ : EQCWWANError × QmTBuffer).2 = _
  split_ifs <;> rfl

theorem unpackLoop_header (h : qmiLayout.value i ≤ size) (fuel : ℕ) :
    unpackLoop items (fuel + 1) (window d size i) resp =
      (afterHeader items d size i fuel resp).map (Unpacked.cons (headerAt d i)) := by
  have hle : i + 3 ≤ size := h
  have hne : ¬ (window d size i).Index = (window d size i).Size := Nat.ne_of_lt (by
    change i < size
    omega)
  have hbyte : GetByte (window d size i) = some (d i, window d size (i + 1)) :=
    if_pos (by change i + 1 ≤ size; omega)
  have hword : GetWord (window d size (i + 1)) =
      some (wordAt d (i + qmitlvTypeSz), window d size (qmiLayout.value i)) := if_pos hle
  rw [unpackLoop, if_neg hne, hbyte]
  simp only [hword]
  congr 1
  unfold afterHeader
  have hskip : (IncrementIndex (window d size (qmiLayout.value i))
      (wordAt d (i + qmitlvTypeSz)).toNat).2 =
        window d size (continuation d size i (qmiLayout.value i)) := incrementIndex_window d size i
  cases findItem items (d i) with
  | none => exact congrArg (fun tbuf => unpackLoop items fuel tbuf resp) hskip
  | some item =>
      simp only [hskip]
      congr 1
      split_ifs with hcode hcursor
      · rfl
      · have hvalue : qmiLayout.value i =
            (item.Unpacker (window d size (qmiLayout.value i)) resp).2.1.toNat := hcursor
        rw [← hvalue]
      · have hvalue : ¬ qmiLayout.value i =
            (item.Unpacker (window d size (qmiLayout.value i)) resp).2.1.toNat := hcursor
        rw [continuation, if_neg hvalue]
        rfl

/-- Where no header fits, the loop ends. -/
theorem unpackLoop_end (h : size < qmiLayout.value i) (fuel : ℕ) :
    unpackLoop items (fuel + 1) (window d size i) resp =
      some ([], if i = size then EQCWWANError.none else EQCWWANError.memory, resp) := by
  have hlt : size < i + 3 := h
  by_cases hend : i = size
  · have heq : (window d size i).Index = (window d size i).Size := hend
    rw [unpackLoop, if_pos heq, if_pos hend]
  · have hne : ¬ (window d size i).Index = (window d size i).Size := hend
    rw [unpackLoop, if_neg hne, if_neg hend]
    by_cases hbyte : i + 1 ≤ size
    · have hget : GetByte (window d size i) = some (d i, window d size (i + 1)) := if_pos hbyte
      have hword : GetWord (window d size (i + 1)) = none :=
        if_neg (by change ¬ i + 1 + 2 ≤ size; omega)
      simp only [hget, hword]
    · have hget : GetByte (window d size i) = none := if_neg hbyte
      simp only [hget]

theorem exists_unpackLoop_iff {tbuf : QmTBuffer} :
    (∃ fuel, unpackLoop items fuel tbuf resp = some r) ↔
      ∃ fuel, unpackLoop items (fuel + 1) tbuf resp = some r := by
  constructor
  · rintro ⟨_ | fuel, hfuel⟩
    · exact absurd hfuel.symm (Option.some_ne_none r)
    · exact ⟨fuel, hfuel⟩
  · rintro ⟨fuel, hfuel⟩
    exact ⟨fuel + 1, hfuel⟩

theorem exists_unpackLoop_end_iff (h : size < qmiLayout.value i) :
    (∃ fuel, unpackLoop items fuel (window d size i) resp = some r) ↔
      r = ([], if i = size then EQCWWANError.none else EQCWWANError.memory, resp) := by
  rw [exists_unpackLoop_iff]
  simp only [unpackLoop_end h, Option.some.injEq, exists_const, eq_comm]

/-- The first event of the loop is the header where it begins. -/
theorem unpackLoop_head (h : qmiLayout.value i ≤ size)
    (hloop : ∃ fuel, unpackLoop items fuel (window d size i) resp = some r) :
    r.1.head? = some (headerAt d i) := by
  obtain ⟨fuel, hfuel⟩ := exists_unpackLoop_iff.mp hloop
  rw [unpackLoop_header h, Option.map_eq_some_iff] at hfuel
  obtain ⟨r', -, rfl⟩ := hfuel
  rfl

theorem referenceFrom_end (hend : size < qmiLayout.value i) :
    referenceFrom items d size i resp =
      ([], if i = size then EQCWWANError.none else EQCWWANError.memory, resp) := by
  by_cases heq : i = size
  · rw [heq, referenceFrom, Tlv.scan_complete, if_pos rfl]
    rfl
  · rw [referenceFrom, Tlv.scan_truncated heq hend, if_neg heq]
    rfl

theorem scan_header (h : qmiLayout.value i ≤ size) :
    ∃ indices, (Tlv.scan qmiLayout d size i).1 = i :: indices := by
  by_cases hnext : qmiLayout.next d i ≤ size
  · exact ⟨_, congrArg Prod.fst (Tlv.scan_next hnext)⟩
  · exact ⟨[], congrArg Prod.fst (Tlv.scan_overlong h (Nat.lt_of_not_le hnext))⟩

theorem referenceFrom_head (h : qmiLayout.value i ≤ size) :
    (referenceFrom items d size i resp).1.head? = some (headerAt d i) := by
  obtain ⟨indices, hscan⟩ := scan_header h
  rw [referenceFrom, hscan]
  rfl

theorem stuck_iff : Stuck size i ↔ i ≠ size ∧ size < qmiLayout.value i := Iff.rfl

/-- A loop that is not where the reference is agrees with it only where both are stuck. -/
theorem exists_unpackLoop_of_ne {c n : ℕ} (hne : c ≠ n) :
    (∃ fuel, unpackLoop items fuel (window d size c) resp =
        some (referenceFrom items d size n resp)) ↔ Stuck size n ∧ Stuck size c := by
  rw [stuck_iff, stuck_iff]
  by_cases hc : qmiLayout.value c ≤ size
  · refine iff_of_false (fun hloop => ?_) fun h => absurd h.2.2 (Nat.not_lt.mpr hc)
    have hhead := unpackLoop_head hc hloop
    by_cases hn : qmiLayout.value n ≤ size
    · rw [referenceFrom_head hn] at hhead
      exact hne (UnpackEvent.header.inj (Option.some.inj hhead)).1.symm
    · rw [referenceFrom_end (Nat.lt_of_not_le hn)] at hhead
      exact absurd hhead.symm (Option.some_ne_none _)
  · have hc' := Nat.lt_of_not_le hc
    rw [exists_unpackLoop_end_iff hc']
    by_cases hn : qmiLayout.value n ≤ size
    · refine iff_of_false (fun heq => ?_) fun h => absurd h.1.2 (Nat.not_lt.mpr hn)
      have hhead : (referenceFrom items d size n resp).1.head? = some (headerAt d n) :=
        referenceFrom_head hn
      rw [heq] at hhead
      exact absurd hhead.symm (Option.some_ne_none _)
    · rw [referenceFrom_end (Nat.lt_of_not_le hn)]
      have hmem : EQCWWANError.none ≠ EQCWWANError.memory := by decide
      by_cases hcs : c = size
      · have hns : n ≠ size := fun h => hne (hcs.trans h.symm)
        simp [hcs, hns, hmem.symm]
      · by_cases hns : n = size
        · simp [hcs, hns, hmem]
        · simp [hcs, hns, hc', Nat.lt_of_not_le hn]

theorem framed_of_stuck {n : ℕ} (h : Stuck size n) :
    Framed items d size (Tlv.scan qmiLayout d size n).1 resp := by
  have hend : size < qmiLayout.value n := h.2
  rw [Tlv.scan_truncated h.1 hend]
  trivial

/-- Behind a TLV of the message, the loop agrees with the reference if it is realigned and
agrees from there on. -/
theorem resume_iff (hnext : qmiLayout.next d i ≤ size)
    (ih : ∀ resp, (∃ fuel, unpackLoop items fuel (window d size (qmiLayout.next d i)) resp =
        some (referenceFrom items d size (qmiLayout.next d i) resp)) ↔
      Framed items d size (Tlv.scan qmiLayout d size (qmiLayout.next d i)).1 resp) (cursor : ℕ) :
    (∃ fuel, unpackLoop items fuel (window d size (continuation d size i cursor)) resp =
        some (referenceFrom items d size (qmiLayout.next d i) resp)) ↔
      Realigns d size i cursor ∧
        Framed items d size (Tlv.scan qmiLayout d size (qmiLayout.next d i)).1 resp := by
  rw [Realigns, if_pos hnext]
  by_cases hvalue : qmiLayout.value i = cursor
  · rw [continuation, if_pos hvalue, if_pos hnext, ih]
    exact (and_iff_right (.inl hvalue.symm)).symm
  · rw [continuation, if_neg hvalue]
    by_cases hcursor : cursor = qmiLayout.next d i
    · rw [hcursor, ih]
      exact (and_iff_right (.inr (.inl rfl))).symm
    · rw [exists_unpackLoop_of_ne hcursor]
      constructor
      · intro hstuck
        exact ⟨.inr (.inr hstuck), framed_of_stuck hstuck.1⟩
      · rintro ⟨h | h | hstuck, -⟩
        · exact absurd h.symm hvalue
        · exact absurd h hcursor
        · exact hstuck

/-- Behind a TLV that runs past the end of the message, the loop ends with an error if it is
stuck. -/
theorem resume_overlong_iff (hnext : size < qmiLayout.next d i) (cursor : ℕ) :
    (∃ fuel, unpackLoop items fuel (window d size (continuation d size i cursor)) resp =
        some ([], EQCWWANError.memory, resp)) ↔ Realigns d size i cursor := by
  have hcont : continuation d size i cursor = cursor := by
    rw [continuation, if_neg (Nat.not_le.mpr hnext)]
    split_ifs with hvalue
    · exact hvalue
    · rfl
  rw [hcont, Realigns, if_neg (Nat.not_le.mpr hnext), stuck_iff]
  by_cases hc : qmiLayout.value cursor ≤ size
  · refine iff_of_false (fun hloop => ?_) fun h => absurd h.2 (Nat.not_lt.mpr hc)
    exact absurd (unpackLoop_head hc hloop).symm (Option.some_ne_none _)
  · have hlt := Nat.lt_of_not_le hc
    have hmem : EQCWWANError.memory ≠ EQCWWANError.none := by decide
    rw [exists_unpackLoop_end_iff hlt, and_iff_left hlt]
    by_cases hend : cursor = size
    · simp [hend, hmem]
    · simp [hend]

/-- The first component of a mapped result is that of the result. -/
theorem map_cons_eq_some {o : Option (Unpacked ρ)} {event : UnpackEvent} :
    o.map (Unpacked.cons event) = some (Unpacked.cons event r) ↔ o = some r := by
  rw [Option.map_eq_some_iff]
  constructor
  · rintro ⟨r', hr', heq⟩
    obtain ⟨hevents, hrest⟩ := Prod.ext_iff.mp heq
    rw [hr', Prod.ext (List.cons.inj hevents).2 hrest]
  · rintro rfl
    exact ⟨r, rfl, rfl⟩

/-- From the header of a TLV on, the loop agrees with the reference if it does behind the
TLV, or the unpacker fails. -/
theorem header_iff {indices : List ℕ} {ending : Tlv.Ending} (h : qmiLayout.value i ≤ size)
    (hrest : ∀ resp cursor, (∃ fuel,
        unpackLoop items fuel (window d size (continuation d size i cursor)) resp =
          some (serve items d size ending indices resp)) ↔
      Realigns d size i cursor ∧ Framed items d size indices resp) (resp : ρ) :
    (∃ fuel, unpackLoop items fuel (window d size i) resp =
        some (serve items d size ending (i :: indices) resp)) ↔
      Framed items d size (i :: indices) resp := by
  rw [exists_unpackLoop_iff]
  simp only [unpackLoop_header h, serve, map_cons_eq_some, afterHeader, Framed]
  cases findItem items (d i) with
  | none => exact hrest resp _
  | some item =>
      simp only [map_cons_eq_some]
      by_cases hcode : (item.Unpacker (window d size (qmiLayout.value i)) resp).1 =
          EQCWWANError.none
      · simp only [hcode, ne_eq, not_true_eq_false, if_false, false_or]
        exact hrest _ _
      · simp only [hcode, ne_eq, not_false_eq_true, if_true, exists_const, true_or]

theorem unpackLoop_iff (items : List (QmTlvUnpackerItem ρ)) (d : ℕ → UInt8) (size i : ℕ)
    (resp : ρ) :
    (∃ fuel, unpackLoop items fuel (window d size i) resp =
        some (referenceFrom items d size i resp)) ↔
      Framed items d size (Tlv.scan qmiLayout d size i).1 resp := by
  induction i using Tlv.scan_induction qmiLayout d size generalizing resp with
  | complete =>
      rw [exists_unpackLoop_end_iff (qmiLayout.lt_value size),
        referenceFrom_end (qmiLayout.lt_value size), Tlv.scan_complete]
      exact iff_of_true rfl trivial
  | truncated i hne hend =>
      rw [exists_unpackLoop_end_iff hend, referenceFrom_end hend, Tlv.scan_truncated hne hend]
      exact iff_of_true rfl trivial
  | overlong i hvalue hnext =>
      rw [referenceFrom, Tlv.scan_overlong hvalue hnext]
      refine header_iff hvalue (fun resp cursor => ?_) resp
      exact (resume_overlong_iff hnext cursor).trans (and_iff_left trivial).symm
  | next i hnext ih =>
      rw [referenceFrom, Tlv.scan_next hnext]
      exact header_iff (Nat.le_trans (qmiLayout.value_le_next d i) hnext)
        (fun resp cursor => resume_iff hnext ih cursor) resp

end Loop

/-- `qmunpack` follows the walk over the TLVs exactly if every TLV is realigned after. -/
theorem qmunpack_reference_iff {ρ : Type*} (bufp : ℕ → UInt8) (resp : ρ)
    (items : List (QmTlvUnpackerItem ρ)) (messageId : UInt16) :
    (∃ fuel, qmunpack fuel bufp resp items messageId = some (reference bufp resp items)) ↔
      Framed items (sdu bufp) (sduSize bufp)
        (Tlv.scan qmiLayout (sdu bufp) (sduSize bufp) 0).1 resp :=
  unpackLoop_iff items (sdu bufp) (sduSize bufp) 0 resp

/-- An unpacker that takes the first byte of its value. -/
def firstByte (tbuf : QmTBuffer) (resp : List UInt8) : EQCWWANError × UInt16 × List UInt8 :=
  match GetByte tbuf with
  | none => (EQCWWANError.memory, UInt16.ofNat tbuf.Index, resp)
  | some (value, tbuf) => (EQCWWANError.none, UInt16.ofNat tbuf.Index, resp ++ [value])

/-- A message with one TLV, of type `1` and length 5, and a table for the types `1` and `16`. -/
def oneTlv : ℕ → UInt8 :=
  ofList 0 [0x20, 0x00, 0x08, 0x00, 0x01, 0x05, 0x00, 0xaa, 0x10, 0x01, 0x00, 0xbb]

def firstByteItems : List (QmTlvUnpackerItem (List UInt8)) :=
  [⟨0x01, firstByte, one_ne_invalid⟩, ⟨0x10, firstByte, sixteen_ne_invalid⟩]

/-- The unpacker takes one byte of the value. Of the other four `qmunpack` makes a TLV of
type `16`. -/
theorem not_qmunpack_reference :
    (reference oneTlv [] firstByteItems).1 = [.header 0 0x01 5, .call 0x01 3] ∧
      (qmunpack 3 oneTlv [] firstByteItems 0x20).map Prod.fst =
        some [.header 0 0x01 5, .call 0x01 3, .header 4 0x10 1, .call 0x10 7] ∧
      ¬ ∃ fuel, qmunpack fuel oneTlv [] firstByteItems 0x20 =
        some (reference oneTlv [] firstByteItems) := by
  refine ⟨by decide +kernel, by decide +kernel, ?_⟩
  rintro ⟨fuel, hfuel⟩
  match fuel, hfuel with
  | 0, h => exact absurd h (by decide +kernel)
  | 1, h => exact absurd h (by decide +kernel)
  | 2, h => exact absurd h (by decide +kernel)
  | fuel + 3, h =>
      have hrun : (qmunpack (fuel + 3) oneTlv [] firstByteItems 0x20).map Prod.fst =
          some [.header 0 0x01 5, .call 0x01 3, .header 4 0x10 1, .call 0x10 7] := rfl
      rw [h] at hrun
      exact absurd hrun (by decide +kernel)

end Qm

end SierraSdk
