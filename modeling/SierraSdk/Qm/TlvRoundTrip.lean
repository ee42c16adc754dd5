import SierraSdk.Qm.TlvBuild
import SierraSdk.Qm.TlvUnpack

/-!
# A QMI message that is built and unpacked

The TLVs that the builders of a table ask for, if they fit and no builder fails, are the TLVs
of the message that `qmbuild` makes (`qmbuild_message`). `qmunpack` reads such a message from
TLV to TLV (`tlvEvents`) exactly if every unpacker that it calls succeeds and leaves the
cursor at the beginning or at the end of its value (`Consumes`).
-/

namespace SierraSdk

namespace Qm

open Am Memory

/-- The message that `qmbuild` has left in the buffer: its header, and as many bytes as the
length that it returned. -/
def messageOf (result : BuildState × UInt16) : List UInt8 :=
  load result.1.tbuf.Datap 0 (qmisvcMsghdrSz + result.2.toNat)

/-- The memory holds the TLVs from an index on: their types, lengths and values. -/
def HoldsTlvs (d : ℕ → UInt8) : ℕ → List Tlv → Prop
  | _, [] => True
  | i, tlv :: tlvs =>
      d i = tlv.tlvType ∧ (wordAt d (i + qmitlvTypeSz)).toNat = tlv.value.length ∧
        load d (i + qmitlvHdrSz) tlv.value.length = tlv.value ∧
        HoldsTlvs d (i + tlv.bytes.length) tlvs

section RoundTrip

variable {ρ : Type*}

/-- Every TLV is read in turn, and the unpacker for its type, if there is one, is called on
its value. -/
def tlvEvents (table : List (QmTlvUnpackerItem ρ)) : ℕ → List Tlv → List UnpackEvent
  | _, [] => []
  | i, tlv :: tlvs =>
      .header i tlv.tlvType (UInt16.ofNat tlv.value.length) ::
        (((findItem table tlv.tlvType).toList.map fun _ =>
          UnpackEvent.call tlv.tlvType (i + qmitlvHdrSz)) ++
          tlvEvents table (i + tlv.bytes.length) tlvs)

/-- Every unpacker succeeds on its TLV and leaves the cursor at the beginning or at the end
of the value. -/
def Consumes (table : List (QmTlvUnpackerItem ρ)) (d : ℕ → UInt8) (size : ℕ) :
    ℕ → List Tlv → ρ → Prop
  | _, [], _ => True
  | i, tlv :: tlvs, resp =>
      match findItem table tlv.tlvType with
      | some item =>
          let (eRCode, cursor, resp) := item.Unpacker (window d size (i + qmitlvHdrSz)) resp
          eRCode = EQCWWANError.none ∧
            (cursor.toNat = i + qmitlvHdrSz ∨ cursor.toNat = i + tlv.bytes.length) ∧
            Consumes table d size (i + tlv.bytes.length) tlvs resp
      | none => Consumes table d size (i + tlv.bytes.length) tlvs resp

variable {table : List (QmTlvUnpackerItem ρ)} {d : ℕ → UInt8} {size : ℕ}

theorem map_cons_eq_some_mk {o : Option (Unpacked ρ)} {event : UnpackEvent}
    {events : List UnpackEvent} {rest : EQCWWANError × ρ} :
    o.map (Unpacked.cons event) = some (event :: events, rest) ↔ o = some (events, rest) :=
  @map_cons_eq_some ρ (events, rest) o event

theorem tlvEvents_head {tlvs : List Tlv} {i : ℕ} {event : UnpackEvent}
    (h : (tlvEvents table i tlvs).head? = some event) :
    ∃ tlvType tlvLen, event = .header i tlvType tlvLen := by
  cases tlvs with
  | nil => exact absurd h.symm (Option.some_ne_none _)
  | cons tlv tlvs => exact ⟨_, _, (Option.some.inj h).symm⟩

/-- Behind a TLV, with the cursor left at `cursor`. -/
theorem resume_tlvs_iff {tlvs : List Tlv} {i : ℕ} (hle : qmiLayout.next d i ≤ size)
    (hend : tlvs = [] → qmiLayout.next d i = size)
    (ih : ∀ resp, (∃ fuel resp', unpackLoop table fuel (window d size (qmiLayout.next d i)) resp =
        some (tlvEvents table (qmiLayout.next d i) tlvs, EQCWWANError.none, resp')) ↔
      Consumes table d size (qmiLayout.next d i) tlvs resp) (cursor : ℕ) (resp : ρ) :
    (∃ fuel resp', unpackLoop table fuel (window d size (continuation d size i cursor)) resp =
        some (tlvEvents table (qmiLayout.next d i) tlvs, EQCWWANError.none, resp')) ↔
      (cursor = qmiLayout.value i ∨ cursor = qmiLayout.next d i) ∧
        Consumes table d size (qmiLayout.next d i) tlvs resp := by
  by_cases hvalue : qmiLayout.value i = cursor
  · rw [continuation, if_pos hvalue, if_pos hle, ih]
    exact (and_iff_right (.inl hvalue.symm)).symm
  · rw [continuation, if_neg hvalue]
    by_cases hcursor : cursor = qmiLayout.next d i
    · rw [hcursor, ih]
      exact (and_iff_right (.inr rfl)).symm
    · refine iff_of_false ?_ fun h => h.1.elim (fun h => hvalue h.symm) hcursor
      rintro ⟨fuel, resp', hloop⟩
      by_cases hc : qmiLayout.value cursor ≤ size
      · obtain ⟨_, _, hhead⟩ := tlvEvents_head (unpackLoop_head hc ⟨fuel, hloop⟩)
        exact hcursor (UnpackEvent.header.inj hhead).1
      · have hstop := (exists_unpackLoop_end_iff (Nat.lt_of_not_le hc)).mp ⟨fuel, hloop⟩
        obtain ⟨hevents, hcode⟩ := Prod.ext_iff.mp hstop
        have hnil : tlvs = [] := by
          cases tlvs with
          | nil => rfl
          | cons tlv tlvs => exact absurd hevents (List.cons_ne_nil _ _)
        have hsize : cursor = size := by
          by_contra hne
          rw [if_neg hne] at hcode
          have hmem : EQCWWANError.none ≠ EQCWWANError.memory := by decide
          exact hmem (Prod.ext_iff.mp hcode).1
        exact hcursor (hsize.trans (hend hnil).symm)

/-- The loop reads TLVs that lie back to back, to the end of the message, exactly if the
unpackers consume them. -/
theorem unpackLoop_tlvs_iff {tlvs : List Tlv} {i : ℕ} (hholds : HoldsTlvs d i tlvs)
    (hsize : i + (tlvBytes tlvs).length = size) (resp : ρ) :
    (∃ fuel resp', unpackLoop table fuel (window d size i) resp =
        some (tlvEvents table i tlvs, EQCWWANError.none, resp')) ↔
      Consumes table d size i tlvs resp := by
  induction tlvs generalizing i resp with
  | nil =>
      have hend : i = size := hsize
      refine iff_of_true ⟨1, resp, ?_⟩ trivial
      rw [unpackLoop_end (hend ▸ qmiLayout.lt_value i), if_pos hend]
      rfl
  | cons tlv tlvs ih =>
      obtain ⟨htype, hlen, -, hrest⟩ := hholds
      have hnext : qmiLayout.next d i = i + tlv.bytes.length := by
        rw [tlv_bytes_length, ← hlen, ← Nat.add_assoc]
        rfl
      have hafter : i + tlv.bytes.length + (tlvBytes tlvs).length = size := by
        rw [← hsize, tlvBytes_cons, List.length_append, Nat.add_assoc]
      have hle : qmiLayout.next d i ≤ size := by
        rw [hnext, ← hafter]
        exact Nat.le_add_right _ _
      have hvalue : qmiLayout.value i ≤ size := Nat.le_trans (qmiLayout.value_le_next d i) hle
      have hheader : headerAt d i = .header i tlv.tlvType (UInt16.ofNat tlv.value.length) := by
        rw [headerAt, htype, ← hlen, UInt16.ofNat_toNat]
      have hlast : tlvs = [] → qmiLayout.next d i = size := by
        rintro rfl
        rw [hnext]
        exact hafter
      have hresume := resume_tlvs_iff hle hlast (fun resp => hnext ▸ ih hrest hafter resp)
      rw [hnext] at hresume
      have hloop (resp' : ρ) : (∃ fuel, unpackLoop table fuel (window d size i) resp =
          some (tlvEvents table i (tlv :: tlvs), EQCWWANError.none, resp')) ↔
          ∃ fuel, afterHeader table d size i fuel resp =
            some ((findItem table tlv.tlvType).toList.map
              (fun _ => UnpackEvent.call tlv.tlvType (i + qmitlvHdrSz)) ++
                tlvEvents table (i + tlv.bytes.length) tlvs, EQCWWANError.none, resp') := by
        rw [exists_unpackLoop_iff]
        refine exists_congr fun fuel => ?_
        rw [unpackLoop_header hvalue, hheader]
        exact map_cons_eq_some_mk
      rw [exists_comm]
      simp only [hloop, Consumes, afterHeader, htype]
      rw [exists_comm]
      cases findItem table tlv.tlvType with
      | none => exact (hresume _ resp).trans (and_iff_right (.inl rfl))
      | some item =>
          simp only [Option.toList_some, List.map_cons, List.map_nil, List.singleton_append]
          have hcall (o : Option (Unpacked ρ)) (resp' : ρ) :
              o.map (Unpacked.cons (.call tlv.tlvType (qmiLayout.value i))) =
                some (.call tlv.tlvType (i + qmitlvHdrSz) ::
                  tlvEvents table (i + tlv.bytes.length) tlvs, EQCWWANError.none, resp') ↔
              o = some (tlvEvents table (i + tlv.bytes.length) tlvs, EQCWWANError.none, resp') :=
            map_cons_eq_some_mk
          simp only [hcall]
          by_cases hcode : (item.Unpacker (window d size (qmiLayout.value i)) resp).1 =
              EQCWWANError.none
          · have hgoes := hresume
              (item.Unpacker (window d size (qmiLayout.value i)) resp).2.1.toNat
              (item.Unpacker (window d size (qmiLayout.value i)) resp).2.2
            simp only [hcode, ne_eq, not_true_eq_false, if_false]
            exact hgoes.trans (and_iff_right hcode).symm
          · refine iff_of_false ?_ fun h => hcode h.1
            simp only [ne_eq, hcode, not_false_eq_true, if_true, exists_const]
            rintro ⟨resp', heq⟩
            exact hcode (Prod.ext_iff.mp (Prod.ext_iff.mp (Option.some.inj heq)).2).1

end RoundTrip

section Message

theorem wordAt_of_load {d : ℕ → UInt8} {i : ℕ} {value : UInt16}
    (h : load d i 2 = piput16 value) : wordAt d i = value := by
  have hget := piget16_piput16 value [] []
  rw [List.nil_append, List.append_nil] at hget
  rw [wordAt, h]
  exact hget

/-- The bytes of TLVs are held as these TLVs. -/
theorem holdsTlvs_ofList {tlvs : List Tlv} (pre : List UInt8)
    (hsize : (tlvBytes tlvs).length < 2 ^ 16) :
    HoldsTlvs (ofList 0 (pre ++ tlvBytes tlvs)) pre.length tlvs := by
  induction tlvs generalizing pre with
  | nil => trivial
  | cons tlv tlvs ih =>
      rw [tlvBytes_cons, List.length_append, tlv_bytes_length] at hsize
      have hlt : tlv.value.length < 2 ^ 16 := by omega
      set len := piput16 (UInt16.ofNat tlv.value.length) with hlen
      have htype := load_ofList 0 pre [tlv.tlvType] (len ++ tlv.value ++ tlvBytes tlvs)
      have hword := load_ofList 0 (pre ++ [tlv.tlvType]) len (tlv.value ++ tlvBytes tlvs)
      have hvalue := load_ofList 0 (pre ++ [tlv.tlvType] ++ len) tlv.value (tlvBytes tlvs)
      have hrest := ih (pre ++ tlv.bytes) (by omega)
      have hbytes : tlvBytes (tlv :: tlvs) =
          [tlv.tlvType] ++ (len ++ (tlv.value ++ tlvBytes tlvs)) := by
        simp [tlvBytes_cons, Tlv.bytes, hlen]
      rw [hbytes]
      simp only [List.append_assoc, List.length_append] at htype hword hvalue hrest
      rw [tlvBytes_cons] at hbytes
      rw [hbytes] at hrest
      refine ⟨?_, ?_, ?_, hrest⟩
      · exact (List.cons.inj htype).1
      · have hread : wordAt _ (pre.length + qmitlvTypeSz) = UInt16.ofNat tlv.value.length :=
          wordAt_of_load hword
        rw [hread]
        exact UInt16.toNat_ofNat_of_lt' hlt
      · exact hvalue

/-- The TLVs of a message as `qmunpack` sees them. -/
theorem sdu_qmiMessage (messageId : UInt16) (tlvs : List Tlv) :
    sdu (ofList 0 (qmiMessage messageId tlvs)) = ofList 0 (tlvBytes tlvs) := by
  funext k
  rw [sdu, ofList, qmiMessage]
  exact (List.getD_append_right _ _ _ _ (Nat.le_add_right _ _)).trans
    (congrArg (fun j => (tlvBytes tlvs).getD j 0) (Nat.add_sub_cancel_left ..))

theorem sduSize_qmiMessage (messageId : UInt16) {tlvs : List Tlv}
    (hsize : (tlvBytes tlvs).length < 2 ^ 16) :
    sduSize (ofList 0 (qmiMessage messageId tlvs)) = (tlvBytes tlvs).length := by
  have hload := load_ofList 0 (piput16 messageId)
    (piput16 (UInt16.ofNat (tlvBytes tlvs).length)) (tlvBytes tlvs)
  rw [← List.append_assoc] at hload
  have hword : wordAt (ofList 0 (qmiMessage messageId tlvs)) qmisvcMsgidSz =
      UInt16.ofNat (tlvBytes tlvs).length := wordAt_of_load hload
  rw [sduSize, hword]
  exact UInt16.toNat_ofNat_of_lt' hsize

/-- What `qmbuild` makes of builders that do not fail and whose TLVs fit. -/
theorem qmbuild_message (bufp : ℕ → UInt8) {items : List QmTlvBuilderItem} (messageId : UInt16)
    (hfits : EveryTlvFits qmbuildSize.toNat qmisvcMsghdrSz items)
    (hok : ∀ call ∈ builderCalls qmbuildSize.toNat qmisvcMsghdrSz items,
      call.eRCode = EQCWWANError.none ∨ call.eRCode = EQCWWANError.nullTlv) :
    (qmbuild bufp items messageId).1.eRCode = EQCWWANError.none ∧
      (qmbuild bufp items messageId).1.tlvs =
        (builderCalls qmbuildSize.toNat qmisvcMsghdrSz items).filterMap BuilderCall.tlv ∧
      (qmbuild bufp items messageId).2.toNat =
        (tlvBytes (qmbuild bufp items messageId).1.tlvs).length ∧
      messageOf (qmbuild bufp items messageId) =
        qmiMessage messageId (qmbuild bufp items messageId).1.tlvs := by
  have hsize : qmisvcMsghdrSz ≤ qmbuildSize.toNat := by decide
  have hstart := building_skipHeader hsize bufp
  set s := BuildState.skipHeader qmbuildSize bufp with hs
  have hindex : s.tbuf.Index = qmisvcMsghdrSz := skipHeader_Index hsize bufp
  set r := s.buildLoop BuildState.stopsQmbuild items with hr
  rw [← hindex] at hfits
  have hgoes : ∀ call ∈ builderCalls qmbuildSize.toNat s.tbuf.Index items,
      ¬ BuildState.Failure call.eRCode ∧ BuildState.stopsQmbuild call.eRCode = false := by
    intro call hcall
    have hnot : ¬ BuildState.Failure call.eRCode := fun hfail =>
      (hok call (hindex ▸ hcall)).elim hfail.1 hfail.2
    exact ⟨hnot, decide_eq_false hnot⟩
  obtain ⟨hdone, hcalls⟩ := hstart.buildLoop_calls qmbuildSize.toNat_lt hfits hgoes
  have hbuilding : Building qmisvcMsghdrSz qmbuildSize.toNat r.2 :=
    (hstart.buildLoop (fun _ hfail => decide_eq_true hfail) qmbuildSize.toNat_lt hdone).1 hfits
  have hbuild : qmbuild bufp items messageId = r.2.fixMessage messageId := if_pos hdone
  have hwell : WellBuilt qmbuildSize messageId (r.2.fixMessage messageId) := hbuilding.fixMessage
  have htlvs : r.2.tlvs =
      (builderCalls qmbuildSize.toNat qmisvcMsghdrSz items).filterMap BuilderCall.tlv := by
    rw [BuildState.tlvs, hcalls, hindex, hs, skipHeader_eq hsize]
    rfl
  rw [hbuild]
  have hmLength := hwell.mLength
  have hmessage := hwell.message
  rw [hbuilding.fixMessage_eq] at hmLength hmessage ⊢
  refine ⟨rfl, htlvs, hmLength, ?_⟩
  have hlen : qmisvcMsghdrSz + (UInt16.ofNat (tlvBytes r.2.tlvs).length).toNat =
      r.2.tbuf.Index := by
    rw [hmLength]
    exact (congrArg _ hbuilding.length_tlvBytes).symm.trans
      (Nat.add_sub_of_le hbuilding.base_le)
  rw [messageOf, hlen]
  exact hmessage

end Message

/-- The message that `qmbuild` made is that of the TLVs, its length and the lengths of the
TLVs are the numbers of bytes that follow them, and `qmunpack` succeeds on it and calls the
unpackers on the values, in order. -/
structure RoundTrips {ρ : Type*} (result : BuildState × UInt16) (messageId : UInt16)
    (tlvs : List Tlv) (table : List (QmTlvUnpackerItem ρ)) (resp : ρ) : Prop where
  built : result.1.eRCode = EQCWWANError.none
  mLength : result.2.toNat = (tlvBytes tlvs).length
  message : messageOf result = qmiMessage messageId tlvs
  holds : HoldsTlvs (sdu (ofList 0 (messageOf result))) 0 tlvs
  unpacked : ∃ fuel resp', qmunpack fuel (ofList 0 (messageOf result)) resp table messageId =
    some (tlvEvents table 0 tlvs, EQCWWANError.none, resp')

/-- The TLVs that the builders of a table ask for. -/
def tlvsOf (items : List QmTlvBuilderItem) : List Tlv :=
  (builderCalls qmbuildSize.toNat qmisvcMsghdrSz items).filterMap BuilderCall.tlv

/-- A message is unpacked as it was built exactly if the unpackers consume their TLVs. -/
theorem qmunpack_qmbuild_iff {ρ : Type*} {bufp : ℕ → UInt8} {items : List QmTlvBuilderItem}
    {messageId : UInt16} {table : List (QmTlvUnpackerItem ρ)} {resp : ρ}
    (hfits : EveryTlvFits qmbuildSize.toNat qmisvcMsghdrSz items)
    (hok : ∀ call ∈ builderCalls qmbuildSize.toNat qmisvcMsghdrSz items,
      call.eRCode = EQCWWANError.none ∨ call.eRCode = EQCWWANError.nullTlv) :
    RoundTrips (qmbuild bufp items messageId) messageId (tlvsOf items) table resp ↔
      Consumes table (ofList 0 (tlvBytes (tlvsOf items))) (tlvBytes (tlvsOf items)).length 0
        (tlvsOf items) resp := by
  obtain ⟨hcode, htlvs, hmLength, hmessage⟩ := qmbuild_message bufp messageId hfits hok
  have htlvsOf : (qmbuild bufp items messageId).1.tlvs = tlvsOf items := htlvs
  rw [htlvsOf] at hmLength hmessage
  have hsize : (tlvBytes (tlvsOf items)).length < 2 ^ 16 := hmLength ▸ UInt16.toNat_lt _
  have hholds : HoldsTlvs (ofList 0 (tlvBytes (tlvsOf items))) 0 (tlvsOf items) :=
    holdsTlvs_ofList [] hsize
  have hsdu := sdu_qmiMessage messageId (tlvsOf items)
  have hunpack (fuel : ℕ) :
      qmunpack fuel (ofList 0 (messageOf (qmbuild bufp items messageId))) resp table messageId =
        unpackLoop table fuel
          (window (ofList 0 (tlvBytes (tlvsOf items))) (tlvBytes (tlvsOf items)).length 0)
          resp := by
    have hwindow := congrArg₂ (fun d size => window d size 0) hsdu
      (sduSize_qmiMessage messageId hsize)
    rw [hmessage]
    exact congrArg (fun tbuf => unpackLoop table fuel tbuf resp) hwindow
  rw [← unpackLoop_tlvs_iff hholds (Nat.zero_add _)]
  simp only [← hunpack]
  refine ⟨RoundTrips.unpacked, fun hunpacked => ⟨hcode, hmLength, hmessage, ?_, hunpacked⟩⟩
  rw [hmessage, hsdu]
  exact hholds

theorem qmunpack_qmbuild_iff_byte :
    RoundTrips (qmbuild (fun _ => 0) [⟨0x01, .put (.byte 5) .ret, by decide⟩] 0x20) 0x20
        (tlvsOf [⟨0x01, .put (.byte 5) .ret, by decide⟩]) firstByteItems [] ↔
      Consumes firstByteItems
        (ofList 0 (tlvBytes (tlvsOf [⟨0x01, .put (.byte 5) .ret, by decide⟩])))
        (tlvBytes (tlvsOf [⟨0x01, .put (.byte 5) .ret, by decide⟩])).length 0
        (tlvsOf [⟨0x01, .put (.byte 5) .ret, by decide⟩]) [] := by
  refine qmunpack_qmbuild_iff ⟨by decide, trivial⟩ ?_
  intro call hcall
  obtain rfl := List.mem_singleton.mp hcall
  exact .inl rfl

/-- A TLV of five bytes, of which the unpacker takes one. -/
def fiveBytes : List QmTlvBuilderItem :=
  [⟨0x01, .put (.stream [0xaa, 0x10, 0x01, 0x00, 0xbb]) .ret, one_ne_invalid⟩]

theorem not_roundTrips_fiveBytes :
    EveryTlvFits qmbuildSize.toNat qmisvcMsghdrSz fiveBytes ∧
      (∀ call ∈ builderCalls qmbuildSize.toNat qmisvcMsghdrSz fiveBytes,
        call.eRCode = EQCWWANError.none ∨ call.eRCode = EQCWWANError.nullTlv) ∧
      ¬ RoundTrips (qmbuild (fun _ => 0) fiveBytes 0x20) 0x20 (tlvsOf fiveBytes)
        firstByteItems [] := by
  refine ⟨⟨by decide, trivial⟩, ?_, ?_⟩
  · intro call hcall
    obtain rfl := List.mem_singleton.mp hcall
    exact .inl rfl
  · intro hround
    obtain ⟨fuel, resp', hfuel⟩ := hround.unpacked
    have hmessage : messageOf (qmbuild (fun _ => 0) fiveBytes 0x20) =
        [0x20, 0x00, 0x08, 0x00, 0x01, 0x05, 0x00, 0xaa, 0x10, 0x01, 0x00, 0xbb] := by
      decide +kernel
    rw [hmessage] at hfuel
    have hevents := congrArg (Option.map Prod.fst) hfuel
    match fuel, hevents with
    | 0, h => exact absurd h.symm (Option.some_ne_none _)
    | 1, h => exact absurd h.symm (Option.some_ne_none _)
    | 2, h => exact absurd h.symm (Option.some_ne_none _)
    | fuel + 3, h =>
        have hrun : (qmunpack (fuel + 3) oneTlv [] firstByteItems 0x20).map Prod.fst =
            some [.header 0 0x01 5, .call 0x01 3, .header 4 0x10 1, .call 0x10 7] := rfl
        have hlists : tlvEvents firstByteItems 0 (tlvsOf fiveBytes) =
            [.header 0 0x01 5, .call 0x01 3, .header 4 0x10 1, .call 0x10 7] :=
          Option.some.inj (h.symm.trans hrun)
        exact absurd hlists (by decide +kernel)

end Qm

end SierraSdk
