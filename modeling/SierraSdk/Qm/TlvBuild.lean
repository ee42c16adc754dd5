import SierraSdk.Qm.TlvBuffer

/-!
# Building a QMI message

`qmbuild` calls the builders of a table one after another. For each it skips the header of a
TLV, lets the builder append the value, and then fills in the header, or takes the cursor
back if there is no value. The status variable is reassigned by each of these operations, so
that only the last one counts: a header that did not fit is not noticed.

The fields `lost`, `wrapped` and `calls` of `BuildState` are not in the source. They record
that an error in the status variable has been overwritten, that a length has been computed
with a wrapping subtraction, and what the builders appended and returned. A result is
`WellBuilt` if nothing of the kind happened, every byte lies inside the buffer and the buffer
holds the message of the TLVs that were built. That is so exactly if, for every builder, the
header and what the builder appends fit (`EveryTlvFits`).
-/

namespace SierraSdk

namespace Qm

open Am Memory

/-- A type, and the value that goes with it. -/
structure Tlv where
  tlvType : UInt8
  value : List UInt8
  deriving DecidableEq

/-- The bytes of a TLV. -/
def Tlv.bytes (tlv : Tlv) : List UInt8 :=
  tlv.tlvType :: piput16 (UInt16.ofNat tlv.value.length) ++ tlv.value

/-- The bytes of a sequence of TLVs. -/
def tlvBytes (tlvs : List Tlv) : List UInt8 := tlvs.flatMap Tlv.bytes

/-- The bytes of a message: its id, the number of bytes that follow, and the TLVs. -/
def qmiMessage (messageId : UInt16) (tlvs : List Tlv) : List UInt8 :=
  piput16 messageId ++ piput16 (UInt16.ofNat (tlvBytes tlvs).length) ++ tlvBytes tlvs

/-- An entry of a table of builders, other than the one that ends the table. -/
structure QmTlvBuilderItem where
  tlvType : UInt8
  Builder : Builder
  valid : tlvType ≠ eTlvTypeInvalid

/-- What a builder appended and returned. -/
structure BuilderCall where
  tlvType : UInt8
  value : List UInt8
  eRCode : EQCWWANError

/-- What a builder appends and returns with the header of its TLV at `index` of a buffer of
`size` bytes. -/
def QmTlvBuilderItem.call (item : QmTlvBuilderItem) (size index : ℕ) : BuilderCall where
  tlvType := item.tlvType
  value := item.Builder.appended size (index + qmitlvHdrSz)
  eRCode := item.Builder.code size (index + qmitlvHdrSz)

/-- The TLV that a builder asks for, if any. -/
def BuilderCall.tlv (call : BuilderCall) : Option Tlv :=
  if call.value = [] ∧ call.eRCode ≠ EQCWWANError.nullTlv then none
  else some ⟨call.tlvType, call.value⟩

/-- The local variables of `qmbuild`. -/
structure BuildState where
  tbuf : QmTBuffer
  flag : Bool
  eRCode : EQCWWANError
  lost : Bool
  wrapped : Bool
  calls : List BuilderCall

namespace BuildState

/-- The TLVs that the builders asked for. -/
def tlvs (s : BuildState) : List Tlv := s.calls.filterMap BuilderCall.tlv

/-- The code is that of a failure. -/
def Failure (eRCode : EQCWWANError) : Prop :=
  eRCode ≠ EQCWWANError.none ∧ eRCode ≠ EQCWWANError.nullTlv

instance (eRCode : EQCWWANError) : Decidable (Failure eRCode) :=
  inferInstanceAs (Decidable (_ ∧ _))

/-- The codes of builders that make `qmbuild` return. -/
def stopsQmbuild (eRCode : EQCWWANError) : Bool := decide (Failure eRCode)

/-- Assign the code of an operation on the buffer to the status variable. -/
def assign (s : BuildState) (result : EQCWWANError × QmTBuffer) : BuildState :=
  { s with
      tbuf := result.2
      eRCode := result.1
      lost := s.lost || decide (Failure s.eRCode) }

/-- Skip the header of the next TLV and call its builder. -/
def callBuilder (s : BuildState) (item : QmTlvBuilderItem) : BuildState :=
  let s := s.assign (IncrementIndex s.tbuf qmitlvHdrSz)
  let size := s.tbuf.Size
  let index := s.tbuf.Index
  let s := s.assign (item.Builder.run s.tbuf)
  { s with
      flag := s.flag || decide (s.eRCode = EQCWWANError.nullTlv)
      calls := s.calls ++ [⟨item.tlvType, item.Builder.appended size index, s.eRCode⟩] }

/-- Fill in the header of the TLV, or go back to where it would have been. -/
def fixHeader (s : BuildState) (tlvHeaderIndex : ℕ) (item : QmTlvBuilderItem) : BuildState :=
  let tlvLength := UInt16.ofNat s.tbuf.Index - UInt16.ofNat (tlvHeaderIndex + qmitlvHdrSz)
  let s : BuildState :=
    { s with wrapped := s.wrapped || decide (s.tbuf.Index < tlvHeaderIndex + qmitlvHdrSz) }
  if 0 < tlvLength ∨ s.flag = true then
    let s := s.assign (PokeByte s.tbuf tlvHeaderIndex item.tlvType)
    let s := s.assign (PokeWord s.tbuf (tlvHeaderIndex + qmitlvTypeSz) tlvLength)
    { s with flag := false }
  else s.assign (IndexB s.tbuf tlvHeaderIndex)

/-- The loop over the table, left when a builder returns a code that `stops`. The first
component says whether the end of the table was reached. -/
def buildLoop (stops : EQCWWANError → Bool) (s : BuildState) :
    List QmTlvBuilderItem → Bool × BuildState
  | [] => (true, s)
  | item :: items =>
      let called := s.callBuilder item
      if stops called.eRCode then (false, called)
      else buildLoop stops (called.fixHeader s.tbuf.Index item) items

/-- Fill in the header of the message. -/
def fixMessage (s : BuildState) (messageId : UInt16) : BuildState × UInt16 :=
  let mLength := UInt16.ofNat s.tbuf.Index - UInt16.ofNat qmisvcMsghdrSz
  let s := { s with wrapped := s.wrapped || decide (s.tbuf.Index < qmisvcMsghdrSz) }
  let s := s.assign (PokeWord s.tbuf 0 messageId)
  let s := s.assign (PokeWord s.tbuf qmisvcMsgidSz mLength)
  (s, mLength)

/-- The state at the start, with a cursor at the beginning of the buffer. -/
def init (size : UInt16) (bufp : ℕ → UInt8) : BuildState where
  tbuf := { Size := size.toNat, Index := 0, Datap := bufp, overrun := false }
  flag := false
  eRCode := EQCWWANError.none
  lost := false
  wrapped := false
  calls := []

/-- The state in which the loop of `qmbuild` begins. -/
def skipHeader (size : UInt16) (bufp : ℕ → UInt8) : BuildState :=
  (init size bufp).assign (IncrementIndex (init size bufp).tbuf qmisvcMsghdrSz)

end BuildState

open BuildState

/-- `qmbuild` with a buffer of `size` bytes: the variables at its end, with the code that it
returns in `eRCode`, and the length of the message. -/
def qmbuildIn (size : UInt16) (bufp : ℕ → UInt8) (items : List QmTlvBuilderItem)
    (messageId : UInt16) : BuildState × UInt16 :=
  let r := (skipHeader size bufp).buildLoop stopsQmbuild items
  if r.1 then r.2.fixMessage messageId else (r.2, 0)

/-- The size of the buffer of `qmbuild`. -/
def qmbuildSize : UInt16 := UInt16.ofNat (amMaxReqBkLen - amQmiTotal)

def qmbuild (bufp : ℕ → UInt8) (items : List QmTlvBuilderItem) (messageId : UInt16) :
    BuildState × UInt16 :=
  qmbuildIn qmbuildSize bufp items messageId

/-- The buffer holds the message of the TLVs that the builders asked for, every byte was
written inside the buffer, no error was overwritten, and no length was computed with a
wrapping subtraction. -/
structure WellBuilt (size messageId : UInt16) (result : BuildState × UInt16) : Prop where
  inside : result.1.tbuf.overrun = false
  fits : result.1.tbuf.Index ≤ size.toNat
  message : load result.1.tbuf.Datap 0 result.1.tbuf.Index = qmiMessage messageId result.1.tlvs
  mLength : result.2.toNat = (tlvBytes result.1.tlvs).length
  kept : result.1.lost = false
  exact : result.1.wrapped = false

/-- For every builder, with the header of its TLV at `index`, the header and the bytes that
it appends fit. -/
def EveryTlvFits (size : ℕ) : ℕ → List QmTlvBuilderItem → Prop
  | _, [] => True
  | index, item :: items =>
      index + qmitlvHdrSz + (item.call size index).value.length ≤ size ∧
        EveryTlvFits size (index + (tlvBytes (item.call size index).tlv.toList).length) items

/-- The calls of the builders, with the header of the first TLV at `index`, if everything
fits. -/
def builderCalls (size : ℕ) : ℕ → List QmTlvBuilderItem → List BuilderCall
  | _, [] => []
  | index, item :: items =>
      item.call size index ::
        builderCalls size (index + (tlvBytes (item.call size index).tlv.toList).length) items

/-- `tlvbuild` with a buffer of `size` bytes: no header, and a null TLV is a failure. -/
def tlvbuildIn (size : UInt16) (bufp : ℕ → UInt8) (items : List QmTlvBuilderItem) :
    BuildState × UInt16 :=
  let r := (init size bufp).buildLoop (· != EQCWWANError.none) items
  if r.1 then (r.2, UInt16.ofNat r.2.tbuf.Index) else (r.2, 0)

def tlvbuild (bufp : ℕ → UInt8) (items : List QmTlvBuilderItem) : BuildState × UInt16 :=
  tlvbuildIn qmbuildSize bufp items

/-- What holds at the start of each turn of the loop as long as everything fits. The TLVs
begin at the index `base`. -/
structure Building (base size : ℕ) (s : BuildState) : Prop where
  size_eq : s.tbuf.Size = size
  inside : s.tbuf.overrun = false
  base_le : base ≤ s.tbuf.Index
  index_le : s.tbuf.Index ≤ size
  body : load s.tbuf.Datap base (s.tbuf.Index - base) = tlvBytes s.tlvs
  flag : s.flag = false
  eRCode : ¬ Failure s.eRCode
  kept : s.lost = false
  exact : s.wrapped = false

/-- Something has gone wrong that the result does not undo. -/
def Spoilt (s : BuildState) : Prop := s.tbuf.overrun = true ∨ s.wrapped = true

section Spoilt

theorem pokeBytes_overrun {tbuf : QmTBuffer} (h : tbuf.overrun = true) (index : ℕ)
    (bytes : List UInt8) : (pokeBytes tbuf index bytes).2.overrun = true := by
  unfold pokeBytes
  split_ifs
  · simp [QmTBuffer.write, h]
  · exact h

theorem incrementIndex_overrun {tbuf : QmTBuffer} (h : tbuf.overrun = true) (increment : ℕ) :
    (IncrementIndex tbuf increment).2.overrun = true := by
  unfold IncrementIndex
  split_ifs <;> exact h

theorem indexB_overrun {tbuf : QmTBuffer} (h : tbuf.overrun = true) (index : ℕ) :
    (IndexB tbuf index).2.overrun = true := by
  unfold IndexB
  split_ifs <;> exact h

theorem Spoilt.callBuilder {s : BuildState} (h : Spoilt s) (item : QmTlvBuilderItem) :
    Spoilt (s.callBuilder item) := by
  rcases h with h | h
  · exact .inl (Builder.run_overrun (incrementIndex_overrun h _) _)
  · exact .inr h

theorem Spoilt.fixHeader {s : BuildState} (h : Spoilt s) (tlvHeaderIndex : ℕ)
    (item : QmTlvBuilderItem) : Spoilt (s.fixHeader tlvHeaderIndex item) := by
  simp only [BuildState.fixHeader]
  rcases h with h | h
  · split_ifs
    · exact .inl (pokeBytes_overrun (pokeBytes_overrun h _ _) _ _)
    · exact .inl (indexB_overrun h _)
  · split_ifs
    · exact .inr (Bool.or_eq_true_iff.mpr (.inl h))
    · exact .inr (Bool.or_eq_true_iff.mpr (.inl h))

theorem Spoilt.buildLoop {stops : EQCWWANError → Bool} {s : BuildState} (h : Spoilt s)
    (items : List QmTlvBuilderItem) : Spoilt (s.buildLoop stops items).2 := by
  induction items generalizing s with
  | nil => exact h
  | cons item items ih =>
      rw [BuildState.buildLoop]
      split_ifs
      · exact h.callBuilder item
      · exact ih ((h.callBuilder item).fixHeader _ item)

theorem Spoilt.fixMessage {s : BuildState} (h : Spoilt s) (messageId : UInt16) :
    Spoilt (s.fixMessage messageId).1 := by
  rcases h with h | h
  · exact .inl (pokeBytes_overrun (pokeBytes_overrun h _ _) _ _)
  · exact .inr (Bool.or_eq_true_iff.mpr (.inl h))

theorem WellBuilt.not_spoilt {size messageId : UInt16} {result : BuildState × UInt16}
    (h : WellBuilt size messageId result) : ¬ Spoilt result.1 := by
  rintro (hoverrun | hwrapped)
  · exact Bool.false_ne_true (h.inside.symm.trans hoverrun)
  · exact Bool.false_ne_true (h.exact.symm.trans hwrapped)

end Spoilt

section Bytes

theorem tlv_bytes_length (tlv : Tlv) : tlv.bytes.length = qmitlvHdrSz + tlv.value.length :=
  List.length_append

theorem tlvBytes_append (tlvs tlvs' : List Tlv) :
    tlvBytes (tlvs ++ tlvs') = tlvBytes tlvs ++ tlvBytes tlvs' := by
  simp [tlvBytes]

@[simp] theorem tlvBytes_nil : tlvBytes [] = [] := rfl

theorem tlvBytes_cons (tlv : Tlv) (tlvs : List Tlv) :
    tlvBytes (tlv :: tlvs) = tlv.bytes ++ tlvBytes tlvs := rfl

@[simp] theorem tlvBytes_singleton (tlv : Tlv) : tlvBytes [tlv] = tlv.bytes := by
  simp [tlvBytes]

/-- The buffer after the header of a TLV has been filled in. -/
def withHeader (tbuf : QmTBuffer) (index : ℕ) (tlvType : UInt8) (tlvLength : UInt16) :
    QmTBuffer :=
  { tbuf with
      Datap := store (store tbuf.Datap index [tlvType]) (index + qmitlvTypeSz)
        (piput16 tlvLength) }

/-- A value behind a header is read as the TLV, and what is before it as it was. -/
theorem load_withHeader (tbuf : QmTBuffer) (tlv : Tlv) {base : ℕ} (hbase : base ≤ tbuf.Index) :
    load
      (withHeader ({ tbuf with Index := tbuf.Index + qmitlvHdrSz }.append tlv.value) tbuf.Index
        tlv.tlvType (UInt16.ofNat tlv.value.length)).Datap
      base (tbuf.Index - base + tlv.bytes.length) =
      load tbuf.Datap base (tbuf.Index - base) ++ tlv.bytes := by
  set d := store tbuf.Datap (tbuf.Index + qmitlvHdrSz) tlv.value with hd
  set header := [tlv.tlvType] ++ piput16 (UInt16.ofNat tlv.value.length) with hheader
  have hDatap : (withHeader ({ tbuf with Index := tbuf.Index + qmitlvHdrSz }.append tlv.value)
      tbuf.Index tlv.tlvType (UInt16.ofNat tlv.value.length)).Datap = store d tbuf.Index header :=
    store_append d tbuf.Index [tlv.tlvType] _
  have hindex : base + (tbuf.Index - base) = tbuf.Index := Nat.add_sub_of_le hbase
  have hbefore : load (store d tbuf.Index header) base (tbuf.Index - base) =
      load tbuf.Datap base (tbuf.Index - base) := by
    rw [load_store_of_disjoint (.inl (Nat.le_of_eq hindex)), hd,
      load_store_of_disjoint (.inl (Nat.le_trans (Nat.le_of_eq hindex) (Nat.le_add_right _ _)))]
  have hload : load (store d tbuf.Index header) tbuf.Index qmitlvHdrSz = header :=
    load_store d tbuf.Index header
  have hvalue : load (store d tbuf.Index header) (tbuf.Index + qmitlvHdrSz) tlv.value.length =
      tlv.value :=
    (load_store_of_disjoint (.inr (Nat.le_refl _))).trans (load_store _ _ _)
  rw [hDatap, load_add, hbefore, hindex, tlv_bytes_length, load_add, hload, hvalue]
  rfl

end Bytes

section Step

variable {base size : ℕ} {s : BuildState} {item : QmTlvBuilderItem} {call : BuilderCall}

/-- The state after the call of a builder whose TLV fits. -/
def called (s : BuildState) (call : BuilderCall) : BuildState where
  tbuf := { s.tbuf with Index := s.tbuf.Index + qmitlvHdrSz }.append call.value
  flag := decide (call.eRCode = EQCWWANError.nullTlv)
  eRCode := call.eRCode
  lost := false
  wrapped := false
  calls := s.calls ++ [call]

theorem not_failure_none : ¬ Failure EQCWWANError.none := by decide

theorem Building.callBuilder (h : Building base size s) (hsize : size < 2 ^ 16)
    (hfit : s.tbuf.Index + qmitlvHdrSz + (item.call size s.tbuf.Index).value.length ≤ size) :
    s.callBuilder item = called s (item.call size s.tbuf.Index) := by
  obtain ⟨rfl, -, -, -, -, hflag, hcode, hkept, hexact⟩ := h
  have hheader : IncrementIndex s.tbuf qmitlvHdrSz =
      (EQCWWANError.none, { s.tbuf with Index := s.tbuf.Index + qmitlvHdrSz }) :=
    if_pos (Nat.le_of_add_right_le hfit)
  have hrun : item.Builder.run { s.tbuf with Index := s.tbuf.Index + qmitlvHdrSz } =
      ((item.call s.tbuf.Size s.tbuf.Index).eRCode,
        { s.tbuf with Index := s.tbuf.Index + qmitlvHdrSz }.append
          (item.call s.tbuf.Size s.tbuf.Index).value) :=
    Builder.run_of_le hsize hfit
  simp [BuildState.callBuilder, BuildState.assign, hheader, hrun, hflag, hcode, hkept, hexact,
    not_failure_none, called, QmTlvBuilderItem.call]
  exact decide_eq_decide.mpr Iff.rfl

theorem pokeBytes_of_le {tbuf : QmTBuffer} {index : ℕ} {bytes : List UInt8}
    (hindex : index < 2 ^ 16) (h : index + bytes.length ≤ tbuf.Size) :
    pokeBytes tbuf index bytes =
      (EQCWWANError.none, { tbuf with Datap := store tbuf.Datap index bytes }) := by
  have hmod : index % 2 ^ 16 = index := Nat.mod_eq_of_lt hindex
  rw [pokeBytes, hmod, if_pos h, QmTBuffer.write_of_le h]

/-- Going back over the header of a TLV that has no value. -/
theorem fixHeader_of_none (hfit : s.tbuf.Index + qmitlvHdrSz ≤ s.tbuf.Size)
    (hok : ¬ Failure call.eRCode) (hnone : call.tlv = none) :
    (called s call).fixHeader s.tbuf.Index item =
      { called s call with
          tbuf := { (called s call).tbuf with Index := s.tbuf.Index }
          eRCode := EQCWWANError.none } := by
  obtain ⟨hvalue, hcode⟩ : call.value = [] ∧ call.eRCode ≠ EQCWWANError.nullTlv := by
    by_contra hne
    rw [BuilderCall.tlv, if_neg hne] at hnone
    exact Option.some_ne_none _ hnone
  have hlt : s.tbuf.Index < s.tbuf.Size := by
    simp only [qmitlvHdrSz] at hfit
    omega
  simp [BuildState.fixHeader, called, hvalue, hcode, BuildState.assign, IndexB, hlt, hok]

theorem length_ofNat_pos {value : List UInt8} (h : value.length < 2 ^ 16) :
    0 < UInt16.ofNat value.length ↔ value ≠ [] := by
  rw [UInt16.lt_iff_toNat_lt, UInt16.toNat_ofNat_of_lt' h]
  exact List.length_pos_iff

/-- Filling in the header of a TLV that has one. -/
theorem fixHeader_of_some (hsize : s.tbuf.Size < 2 ^ 16)
    (hfit : s.tbuf.Index + qmitlvHdrSz + call.value.length ≤ s.tbuf.Size)
    (hok : ¬ Failure call.eRCode) (htype : item.tlvType = call.tlvType) {tlv : Tlv}
    (hsome : call.tlv = some tlv) :
    (called s call).fixHeader s.tbuf.Index item =
      { called s call with
          tbuf := withHeader (called s call).tbuf s.tbuf.Index tlv.tlvType
            (UInt16.ofNat tlv.value.length)
          eRCode := EQCWWANError.none
          flag := false } := by
  obtain ⟨hne, rfl⟩ : ¬ (call.value = [] ∧ call.eRCode ≠ EQCWWANError.nullTlv) ∧
      ⟨call.tlvType, call.value⟩ = tlv := by
    rw [BuilderCall.tlv] at hsome
    split_ifs at hsome with hnone
    exact ⟨hnone, Option.some.inj hsome⟩
  have htop : s.tbuf.Index + 3 ≤ s.tbuf.Size := Nat.le_of_add_right_le hfit
  have hlength : UInt16.ofNat (called s call).tbuf.Index -
      UInt16.ofNat (s.tbuf.Index + qmitlvHdrSz) = UInt16.ofNat call.value.length := by
    rw [called, QmTBuffer.append_Index, ← UInt16.ofNat_sub (Nat.le_add_right _ _),
      Nat.add_sub_cancel_left]
  have hexact : decide ((called s call).tbuf.Index < s.tbuf.Index + qmitlvHdrSz) = false :=
    decide_eq_false (Nat.not_lt.mpr (Nat.le_add_right _ _))
  have hfix : 0 < UInt16.ofNat call.value.length ∨ (called s call).flag = true := by
    rw [length_ofNat_pos (by omega), called, decide_eq_true_iff]
    exact (not_and_or.mp hne).imp_right not_not.mp
  have htypeByte : PokeByte (called s call).tbuf s.tbuf.Index call.tlvType =
      (EQCWWANError.none,
        { (called s call).tbuf with
            Datap := store (called s call).tbuf.Datap s.tbuf.Index [call.tlvType] }) :=
    pokeBytes_of_le (by omega) (Nat.le_trans (Nat.add_le_add_left (Nat.le_add_left 1 2) _) htop)
  have hlengthWord : PokeWord
      { (called s call).tbuf with
          Datap := store (called s call).tbuf.Datap s.tbuf.Index [call.tlvType] }
      (s.tbuf.Index + qmitlvTypeSz) (UInt16.ofNat call.value.length) =
      (EQCWWANError.none, withHeader (called s call).tbuf s.tbuf.Index call.tlvType
        (UInt16.ofNat call.value.length)) :=
    pokeBytes_of_le (by simp only [qmitlvTypeSz]; omega) htop
  simp only [BuildState.fixHeader, hlength, if_pos hfix, htype, hexact, BuildState.assign,
    htypeByte, hlengthWord, Bool.or_false]
  simp [called, not_failure_none]
  exact decide_eq_false hok

/-- After a TLV that fits, everything is still in order, and the cursor is behind the TLV, or
where it was if there is none. -/
theorem Building.step (h : Building base size s) (hsize : size < 2 ^ 16)
    (hfit : s.tbuf.Index + qmitlvHdrSz + (item.call size s.tbuf.Index).value.length ≤ size)
    (hok : ¬ Failure (s.callBuilder item).eRCode) :
    Building base size ((s.callBuilder item).fixHeader s.tbuf.Index item) ∧
      ((s.callBuilder item).fixHeader s.tbuf.Index item).tbuf.Index =
        s.tbuf.Index + (tlvBytes (item.call size s.tbuf.Index).tlv.toList).length ∧
      ((s.callBuilder item).fixHeader s.tbuf.Index item).calls =
        s.calls ++ [item.call size s.tbuf.Index] := by
  rw [h.callBuilder hsize hfit] at hok ⊢
  obtain ⟨rfl, hinside, hbase, hindex, hbody, -, -, -, -⟩ := h
  set call := item.call s.tbuf.Size s.tbuf.Index with hcall
  have htlvs : (called s call).tlvs = s.tlvs ++ call.tlv.toList := by
    rw [BuildState.tlvs, called, List.filterMap_append]
    cases hcase : call.tlv <;> simp [hcase, BuildState.tlvs]
  cases htlv : call.tlv with
  | none =>
      rw [fixHeader_of_none (Nat.le_of_add_right_le hfit) hok htlv]
      rw [htlv, Option.toList_none, List.append_nil] at htlvs
      refine ⟨⟨rfl, hinside, hbase, hindex, ?_, ?_, not_failure_none, rfl, rfl⟩, rfl, rfl⟩
      · refine Eq.trans ?_ (hbody.trans (congrArg tlvBytes htlvs.symm))
        exact load_store_of_disjoint
          (.inl (by rw [Nat.add_sub_of_le hbase]; exact Nat.le_add_right _ _))
      · rw [BuilderCall.tlv] at htlv
        split_ifs at htlv with hnone
        exact decide_eq_false hnone.2
  | some tlv =>
      rw [fixHeader_of_some hsize hfit hok rfl htlv]
      obtain rfl : tlv = ⟨call.tlvType, call.value⟩ := by
        rw [BuilderCall.tlv] at htlv
        split_ifs at htlv
        exact (Option.some.inj htlv).symm
      rw [htlv, Option.toList_some] at htlvs
      refine ⟨⟨rfl, hinside, ?_, hfit, ?_, rfl, not_failure_none, rfl, rfl⟩, ?_, rfl⟩
      · exact Nat.le_trans hbase (Nat.le_trans (Nat.le_add_right _ _) (Nat.le_add_right _ _))
      · have hload := load_withHeader s.tbuf ⟨call.tlvType, call.value⟩ hbase
        have hlen : s.tbuf.Index + qmitlvHdrSz + call.value.length - base =
            s.tbuf.Index - base + (Tlv.bytes ⟨call.tlvType, call.value⟩).length := by
          rw [tlv_bytes_length]
          simp only
          omega
        refine Eq.trans (congrArg (load _ base) hlen) (hload.trans ?_)
        rw [hbody, ← tlvBytes_singleton, ← tlvBytes_append]
        exact congrArg tlvBytes htlvs.symm
      · rw [Option.toList_some, tlvBytes_singleton, tlv_bytes_length, ← Nat.add_assoc]
        rfl

/-- A TLV that does not fit spoils the result. -/
theorem Building.spoilt (h : Building base size s) (hsize : size < 2 ^ 16)
    (hfit : size < s.tbuf.Index + qmitlvHdrSz + (item.call size s.tbuf.Index).value.length) :
    Spoilt ((s.callBuilder item).fixHeader s.tbuf.Index item) := by
  obtain ⟨rfl, hinside, -, hindex, -, -, -, -, -⟩ := h
  by_cases hheader : s.tbuf.Index + qmitlvHdrSz ≤ s.tbuf.Size
  · have hskip : IncrementIndex s.tbuf qmitlvHdrSz =
        (EQCWWANError.none, { s.tbuf with Index := s.tbuf.Index + qmitlvHdrSz }) := if_pos hheader
    have hrun : (item.Builder.run { s.tbuf with Index := s.tbuf.Index + qmitlvHdrSz }).2.overrun =
        true := Builder.run_of_lt hsize hheader hfit
    refine Spoilt.fixHeader (.inl ?_) _ item
    simp only [BuildState.callBuilder, BuildState.assign, hskip, hrun]
  · -- the builder is called with the cursor where the header should have been
    have hskip : IncrementIndex s.tbuf qmitlvHdrSz = (EQCWWANError.memory, s.tbuf) :=
      if_neg hheader
    have hcalled : (s.callBuilder item).tbuf = (item.Builder.run s.tbuf).2 := by
      simp only [BuildState.callBuilder, BuildState.assign, hskip]
    by_cases hin : s.tbuf.Index + (item.Builder.appended s.tbuf.Size s.tbuf.Index).length ≤
        s.tbuf.Size
    · have hrun := Builder.run_of_le hsize hin
      have hlow : (s.callBuilder item).tbuf.Index < s.tbuf.Index + qmitlvHdrSz := by
        rw [hcalled, hrun]
        exact Nat.lt_of_le_of_lt hin (Nat.lt_of_not_le hheader)
      right
      simp only [BuildState.fixHeader, hlow]
      split_ifs
      · simp [BuildState.assign]
      · simp [BuildState.assign]
    · refine Spoilt.fixHeader (.inl ?_) _ item
      rw [hcalled]
      exact Builder.run_of_lt hsize hindex (Nat.lt_of_not_le hin)

/-- The loop over a table, from a state in order. -/
theorem Building.buildLoop {stops : EQCWWANError → Bool} (hstops : ∀ e, Failure e → stops e = true)
    (h : Building base size s) (hsize : size < 2 ^ 16) {items : List QmTlvBuilderItem}
    (hdone : (s.buildLoop stops items).1 = true) :
    (EveryTlvFits size s.tbuf.Index items → Building base size (s.buildLoop stops items).2) ∧
      (¬ EveryTlvFits size s.tbuf.Index items → Spoilt (s.buildLoop stops items).2) := by
  induction items generalizing s with
  | nil => exact ⟨fun _ => h, fun hnot => absurd trivial hnot⟩
  | cons item items ih =>
      rw [BuildState.buildLoop] at hdone ⊢
      by_cases hstop : stops (s.callBuilder item).eRCode = true
      · rw [if_pos hstop] at hdone
        exact absurd hdone Bool.false_ne_true
      · have hok : ¬ Failure (s.callBuilder item).eRCode := fun hfail => hstop (hstops _ hfail)
        rw [if_neg hstop] at hdone ⊢
        by_cases hfit : s.tbuf.Index + qmitlvHdrSz +
            (item.call size s.tbuf.Index).value.length ≤ size
        · obtain ⟨hstep, hindex, -⟩ := h.step hsize hfit hok
          obtain ⟨hgood, hbad⟩ := ih hstep hdone
          rw [hindex] at hgood hbad
          exact ⟨fun hfits => hgood hfits.2, fun hnot => hbad fun hrest => hnot ⟨hfit, hrest⟩⟩
        · exact ⟨fun hfits => absurd hfits.1 hfit,
            fun _ => (h.spoilt hsize (Nat.lt_of_not_le hfit)).buildLoop items⟩

/-- Builders that do not fail and whose TLVs fit are all called. -/
theorem Building.buildLoop_calls {stops : EQCWWANError → Bool}
    (h : Building base size s) (hsize : size < 2 ^ 16) {items : List QmTlvBuilderItem}
    (hfits : EveryTlvFits size s.tbuf.Index items)
    (hok : ∀ call ∈ builderCalls size s.tbuf.Index items,
      ¬ Failure call.eRCode ∧ stops call.eRCode = false) :
    (s.buildLoop stops items).1 = true ∧
      (s.buildLoop stops items).2.calls = s.calls ++ builderCalls size s.tbuf.Index items := by
  induction items generalizing s with
  | nil => exact ⟨rfl, (List.append_nil _).symm⟩
  | cons item items ih =>
      obtain ⟨hfit, hrest⟩ := hfits
      rw [builderCalls, List.forall_mem_cons] at hok
      have hcode : (s.callBuilder item).eRCode = (item.call size s.tbuf.Index).eRCode := by
        rw [h.callBuilder hsize hfit]
        rfl
      obtain ⟨hstep, hindex, hcalls⟩ := h.step hsize hfit (hcode ▸ hok.1.1)
      have hgoes : ¬ stops (s.callBuilder item).eRCode = true := by
        rw [hcode, hok.1.2]
        exact Bool.false_ne_true
      rw [BuildState.buildLoop, if_neg hgoes, builderCalls, ← hindex]
      rw [← hindex] at hrest hok
      obtain ⟨hdone, hall⟩ := ih hstep hrest hok.2
      rw [hcalls, List.append_assoc] at hall
      exact ⟨hdone, hall⟩

end Step

section Size

theorem pokeBytes_Size (tbuf : QmTBuffer) (index : ℕ) (bytes : List UInt8) :
    (pokeBytes tbuf index bytes).2.Size = tbuf.Size := by
  unfold pokeBytes
  split_ifs <;> rfl

theorem incrementIndex_Size (tbuf : QmTBuffer) (increment : ℕ) :
    (IncrementIndex tbuf increment).2.Size = tbuf.Size := by
  unfold IncrementIndex
  split_ifs <;> rfl

theorem indexB_Size (tbuf : QmTBuffer) (index : ℕ) :
    (IndexB tbuf index).2.Size = tbuf.Size := by
  unfold IndexB
  split_ifs <;> rfl

theorem callBuilder_Size (s : BuildState) (item : QmTlvBuilderItem) :
    (s.callBuilder item).tbuf.Size = s.tbuf.Size :=
  (Builder.run_Size _ _).trans (incrementIndex_Size _ _)

theorem fixHeader_Size (s : BuildState) (tlvHeaderIndex : ℕ) (item : QmTlvBuilderItem) :
    (s.fixHeader tlvHeaderIndex item).tbuf.Size = s.tbuf.Size := by
  simp only [BuildState.fixHeader]
  split_ifs
  · exact (pokeBytes_Size _ _ _).trans (pokeBytes_Size _ _ _)
  · exact indexB_Size _ _

theorem buildLoop_Size (stops : EQCWWANError → Bool) (s : BuildState)
    (items : List QmTlvBuilderItem) :
    (s.buildLoop stops items).2.tbuf.Size = s.tbuf.Size := by
  induction items generalizing s with
  | nil => rfl
  | cons item items ih =>
      rw [BuildState.buildLoop]
      split_ifs
      · exact callBuilder_Size s item
      · exact (ih _).trans ((fixHeader_Size _ _ _).trans (callBuilder_Size s item))

end Size

/-- A loop that does not reach the end of the table is left with a code that stops it. -/
theorem buildLoop_stopped {stops : EQCWWANError → Bool} {s : BuildState}
    {items : List QmTlvBuilderItem} (h : (s.buildLoop stops items).1 = false) :
    stops (s.buildLoop stops items).2.eRCode = true := by
  induction items generalizing s with
  | nil => exact absurd h.symm Bool.false_ne_true
  | cons item items ih =>
      rw [BuildState.buildLoop] at h ⊢
      by_cases hstop : stops (s.callBuilder item).eRCode = true
      · rw [if_pos hstop]
        exact hstop
      · rw [if_neg hstop] at h ⊢
        exact ih h

section Message

variable {base size : ℕ} {s : BuildState}

/-- The last operation of `qmbuild` fails if the header of the message does not fit. -/
theorem fixMessage_of_lt (h : s.tbuf.Size < qmisvcMsghdrSz) (messageId : UInt16) :
    (s.fixMessage messageId).1.eRCode = EQCWWANError.memory := by
  refine congrArg Prod.fst (if_neg (Nat.not_le.mpr ?_))
  exact (pokeBytes_Size s.tbuf 0 (piput16 messageId)).symm ▸ h

/-- The bytes of the header of a message. -/
def messageHeader (messageId : UInt16) (tlvs : List Tlv) : List UInt8 :=
  piput16 messageId ++ piput16 (UInt16.ofNat (tlvBytes tlvs).length)

theorem Building.length_tlvBytes (h : Building base size s) :
    s.tbuf.Index - base = (tlvBytes s.tlvs).length := by
  rw [← h.body, length_load]

/-- The header of a message all of whose parts fit is filled in. -/
theorem Building.fixMessage_eq {messageId : UInt16} (h : Building qmisvcMsghdrSz size s) :
    s.fixMessage messageId =
      ({ s with
          tbuf := { s.tbuf with Datap := store s.tbuf.Datap 0 (messageHeader messageId s.tlvs) }
          eRCode := EQCWWANError.none
          lost := false
          wrapped := false }, UInt16.ofNat (tlvBytes s.tlvs).length) := by
  have hbodylen := h.length_tlvBytes
  obtain ⟨rfl, -, hbase, hindex, -, -, hcode, hkept, hexact⟩ := h
  have hlength : UInt16.ofNat s.tbuf.Index - UInt16.ofNat qmisvcMsghdrSz =
      UInt16.ofNat (tlvBytes s.tlvs).length := by
    rw [← UInt16.ofNat_sub hbase, hbodylen]
  have htop : qmisvcMsghdrSz ≤ s.tbuf.Size := Nat.le_trans hbase hindex
  have hid : PokeWord s.tbuf 0 messageId =
      (EQCWWANError.none, { s.tbuf with Datap := store s.tbuf.Datap 0 (piput16 messageId) }) :=
    pokeBytes_of_le (by decide) (Nat.le_trans (Nat.le_add_left 2 2) htop)
  have hword : PokeWord { s.tbuf with Datap := store s.tbuf.Datap 0 (piput16 messageId) }
      qmisvcMsgidSz (UInt16.ofNat (tlvBytes s.tlvs).length) =
      (EQCWWANError.none,
        { s.tbuf with Datap := store s.tbuf.Datap 0 (messageHeader messageId s.tlvs) }) := by
    refine (pokeBytes_of_le (by decide) htop).trans ?_
    exact congrArg (fun d => (EQCWWANError.none, { s.tbuf with Datap := d }))
      (store_append s.tbuf.Datap 0 (piput16 messageId) _)
  simp only [BuildState.fixMessage, BuildState.assign, hlength, hid, hword, hkept, hexact, hcode,
    not_failure_none, Nat.not_lt.mpr hbase, decide_false, Bool.or_false]

/-- A message all of whose parts fit is well built. -/
theorem Building.fixMessage {size messageId : UInt16}
    (h : Building qmisvcMsghdrSz size.toNat s) :
    WellBuilt size messageId (s.fixMessage messageId) := by
  have hbodylen := h.length_tlvBytes
  rw [h.fixMessage_eq]
  obtain ⟨-, hinside, hbase, hindex, hbody, -, -, -, -⟩ := h
  have hlt := size.toNat_lt
  set header := messageHeader messageId s.tlvs
  refine ⟨hinside, hindex, ?_, ?_, rfl, rfl⟩
  · have hsplit : s.tbuf.Index = qmisvcMsghdrSz + (s.tbuf.Index - qmisvcMsghdrSz) :=
      (Nat.add_sub_of_le hbase).symm
    have hload : load (store s.tbuf.Datap 0 header) 0 qmisvcMsghdrSz = header :=
      load_store s.tbuf.Datap 0 header
    have hrest : load (store s.tbuf.Datap 0 header) (0 + qmisvcMsghdrSz)
        (s.tbuf.Index - qmisvcMsghdrSz) = tlvBytes s.tlvs :=
      (load_store_of_disjoint (.inr (Nat.le_refl _))).trans hbody
    calc load (store s.tbuf.Datap 0 header) 0 s.tbuf.Index
        = load (store s.tbuf.Datap 0 header) 0
            (qmisvcMsghdrSz + (s.tbuf.Index - qmisvcMsghdrSz)) := congrArg _ hsplit
      _ = header ++ tlvBytes s.tlvs := by rw [load_add, hload, hrest]
  · exact UInt16.toNat_ofNat_of_lt' (show _ < 2 ^ 16 by omega)

end Message

theorem skipHeader_eq {size : UInt16} (h : qmisvcMsghdrSz ≤ size.toNat) (bufp : ℕ → UInt8) :
    skipHeader size bufp =
      { init size bufp with tbuf := { (init size bufp).tbuf with Index := qmisvcMsghdrSz } } := by
  have hskip : IncrementIndex (init size bufp).tbuf qmisvcMsghdrSz =
      (EQCWWANError.none, { (init size bufp).tbuf with Index := qmisvcMsghdrSz }) := by
    refine (if_pos ?_).trans ?_
    · simpa [init] using h
    · simp [init]
  rw [skipHeader, hskip]
  rfl

theorem building_skipHeader {size : UInt16} (h : qmisvcMsghdrSz ≤ size.toNat)
    (bufp : ℕ → UInt8) : Building qmisvcMsghdrSz size.toNat (skipHeader size bufp) := by
  rw [skipHeader_eq h]
  exact ⟨rfl, rfl, Nat.le_refl _, h, rfl, rfl, not_failure_none, rfl, rfl⟩

theorem skipHeader_Index {size : UInt16} (h : qmisvcMsghdrSz ≤ size.toNat) (bufp : ℕ → UInt8) :
    (skipHeader size bufp).tbuf.Index = qmisvcMsghdrSz := by
  rw [skipHeader_eq h]

/-- A message that was built without a failure is well built exactly if the TLVs fit. -/
theorem qmbuildIn_wellBuilt_iff {size messageId : UInt16} {bufp : ℕ → UInt8}
    {items : List QmTlvBuilderItem}
    (hok : (qmbuildIn size bufp items messageId).1.eRCode = EQCWWANError.none) :
    WellBuilt size messageId (qmbuildIn size bufp items messageId) ↔
      EveryTlvFits size.toNat qmisvcMsghdrSz items := by
  set s := skipHeader size bufp with hs
  set r := s.buildLoop stopsQmbuild items with hr
  have hbuild : qmbuildIn size bufp items messageId =
      if r.1 then r.2.fixMessage messageId else (r.2, 0) := rfl
  have hdone : r.1 = true := by
    by_contra hstop
    rw [hbuild, if_neg hstop] at hok
    have hfail := decide_eq_true_iff.mp (buildLoop_stopped (Bool.eq_false_iff.mpr hstop))
    exact hfail.1 hok
  rw [hbuild, if_pos hdone] at hok ⊢
  have hsize : qmisvcMsghdrSz ≤ size.toNat := by
    by_contra hlt
    have hr : r.2.tbuf.Size = size.toNat :=
      (buildLoop_Size stopsQmbuild s items).trans (incrementIndex_Size _ _)
    rw [fixMessage_of_lt (hr ▸ Nat.lt_of_not_le hlt)] at hok
    exact absurd hok (by decide)
  obtain ⟨hgood, hbad⟩ := (building_skipHeader hsize bufp).buildLoop
    (fun _ hfail => decide_eq_true hfail) size.toNat_lt hdone
  rw [skipHeader_Index hsize] at hgood hbad
  constructor
  · intro hwell
    by_contra hnot
    exact hwell.not_spoilt ((hbad hnot).fixMessage messageId)
  · exact fun hfits => (hgood hfits).fixMessage

theorem qmbuildIn_wellBuilt_iff_byte :
    WellBuilt qmbuildSize 0x22
        (qmbuildIn qmbuildSize (fun _ => 0) [⟨0x01, .put (.byte 5) .ret, by decide⟩] 0x22) ↔
      EveryTlvFits qmbuildSize.toNat qmisvcMsghdrSz [⟨0x01, .put (.byte 5) .ret, by decide⟩] :=
  qmbuildIn_wellBuilt_iff (by decide)

/-- A stream that leaves two bytes of the buffer, and a byte. -/
def streamAndByte : List QmTlvBuilderItem :=
  [⟨0x01, .put (.stream (List.replicate 997 0)) .ret, one_ne_invalid⟩,
    ⟨0x10, .put (.byte 5) .ret, sixteen_ne_invalid⟩]

/-- The header of the second TLV does not fit. It is left out, and its value is not. -/
theorem not_wellBuilt_streamAndByte :
    (qmbuild (fun _ => 0) streamAndByte 0x22).1.eRCode = EQCWWANError.none ∧
      (qmbuild (fun _ => 0) streamAndByte 0x22).2 = 1001 ∧
      ¬ WellBuilt qmbuildSize 0x22 (qmbuild (fun _ => 0) streamAndByte 0x22) := by
  have hlength : (qmbuild (fun _ => 0) streamAndByte 0x22).2 = 1001 := by decide +kernel
  have htlvs : (tlvBytes (qmbuild (fun _ => 0) streamAndByte 0x22).1.tlvs).length = 1004 := by
    decide +kernel
  refine ⟨by decide +kernel, hlength, fun hwell => ?_⟩
  have h := hwell.mLength
  rw [hlength, htlvs] at h
  exact absurd h (by decide)

end Qm

end SierraSdk
