import Mathlib.Order.Basic
import Mathlib.Tactic.SplitIfs
import SierraSdk.Library.Memory

/-!
# File control parameters

`fcp_to_ts_51011` takes the response of a USIM, hexadecimal digits in memory up to an end address,
and converts the properties in its FCP template to the file header of TS 51.011. The response
begins with the template's header; the properties lie behind each other in its value, each with a
header of its own. They are read as long as they begin in front of the template's end.

The length of a property is checked against the end of the response. Once the template's header
is accepted the output is cleared, and each property then changes it.
-/

namespace SierraSdk

namespace Ril

open Memory

inductive Errno where
  | einval
  | enotsup
  deriving DecidableEq

/-- A structure `tlv`: the digits of its value lie from `data` up to `stop`. -/
structure TlvItem where
  tag : UInt8
  data : ℕ
  stop : ℕ
  deriving DecidableEq

def char2nib (c : UInt8) : UInt8 :=
  if 0x30 ≤ c ∧ c ≤ 0x39 then c - 0x30
  else if 0x41 ≤ c ∧ c ≤ 0x46 then c - 0x41 + 0xa
  else if 0x61 ≤ c ∧ c ≤ 0x66 then c - 0x61 + 0xa
  else 0

/-- The byte of the two digits at an address. -/
def digits (d : ℕ → UInt8) (i : ℕ) : UInt8 :=
  (char2nib (d i) <<< 4) ||| char2nib (d (i + 1))

def parseTlv (d : ℕ → UInt8) (stream stop : ℕ) : Except Errno TlvItem :=
  if stream + 1 ≥ stop then .error .einval
  else
    let tag := digits d stream
    let stream := stream + 2
    if stream + 1 ≥ stop then .error .einval
    else
      let size := (digits d stream).toNat
      let stream := stream + 2
      if stream + size * 2 > stop then .error .einval
      else .ok { tag := tag, data := stream, stop := stream + size * 2 }

/-- The file header of TS 51.011, with the numbers of two bytes as they lie in memory. -/
structure Ts51011 where
  rfu_1 : UInt8 × UInt8
  file_size : UInt8 × UInt8
  file_id : UInt8 × UInt8
  file_type : UInt8
  rfu_2 : UInt8
  file_acc : UInt8 × UInt8 × UInt8
  file_status : UInt8
  data_size : UInt8
  file_structure : UInt8
  record_size : UInt8
  deriving DecidableEq

/-- The header that `memset` leaves. -/
def clearedHeader : Ts51011 where
  rfu_1 := (0, 0)
  file_size := (0, 0)
  file_id := (0, 0)
  file_type := 0
  rfu_2 := 0
  file_acc := (0, 0, 0)
  file_status := 0
  data_size := 0
  file_structure := 0
  record_size := 0

/-- A byte of a value, `TLV_DATA`. -/
def TlvItem.byte (d : ℕ → UInt8) (tlv : TlvItem) (pos : ℕ) : UInt8 := digits d (tlv.data + pos * 2)

/-- The file descriptor. -/
def convertDescriptor (d : ℕ → UInt8) (tlv : TlvItem) (propertySize : ℕ) (out : Ts51011) :
    Option Errno × Ts51011 :=
  if propertySize < 2 then (some .einval, out)
  else
    let fdbyte := tlv.byte d 0
    if fdbyte &&& 0xbf = 0x38 then (none, { out with file_type := 2 })
    else if fdbyte &&& 0xb0 = 0x00 then
      let out := { out with file_type := 4, file_status := 1, data_size := out.data_size + 1 }
      if fdbyte &&& 0x07 = 0x01 then (none, { out with file_structure := 0 })
      else if propertySize < 5 then (some .einval, out)
      else
        let out := { out with data_size := out.data_size + 1, record_size := tlv.byte d 3 }
        if fdbyte &&& 0x07 = 0x06 then (none, { out with file_structure := 3 })
        else if fdbyte &&& 0x07 = 0x02 then (none, { out with file_structure := 1 })
        else (some .einval, out)
    else (none, { out with file_type := 0 })

/-- One property: the error, and the header, which may be changed before an error. -/
def convertProperty (d : ℕ → UInt8) (tlv : TlvItem) (out : Ts51011) : Option Errno × Ts51011 :=
  let propertySize := (tlv.stop - tlv.data) / 2
  if tlv.tag = 0x80 then
    if propertySize ≠ 2 then (some .enotsup, out)
    else (none, { out with file_size := (tlv.byte d 0, tlv.byte d 1) })
  else if tlv.tag = 0x83 then
    if propertySize ≠ 2 then (some .einval, out)
    else (none, { out with file_id := (tlv.byte d 0, tlv.byte d 1) })
  else if tlv.tag = 0x82 then convertDescriptor d tlv propertySize out
  else (none, out)

/-- What a call returns and leaves, and the properties that were used. -/
structure FcpResult where
  ret : Option Errno
  out : Ts51011
  used : List TlvItem
  deriving DecidableEq

/-- The loop over the properties; none if it does not end in so many rounds. -/
def propertyLoop (d : ℕ → UInt8) (stop fcpEnd : ℕ) : ℕ → ℕ → Ts51011 → Option FcpResult
  | 0, _, _ => none
  | rounds + 1, fcpData, out =>
      if fcpData < fcpEnd then
        match parseTlv d fcpData stop with
        | .error e => some { ret := some e, out := out, used := [] }
        | .ok tlv =>
            match convertProperty d tlv out with
            | (some e, out) => some { ret := some e, out := out, used := [tlv] }
            | (none, out) =>
                (propertyLoop d stop fcpEnd rounds tlv.stop out).map
                  fun r => { r with used := tlv :: r.used }
      else some { ret := none, out := out, used := [] }

def fcp_to_ts_51011 (rounds : ℕ) (d : ℕ → UInt8) (len : ℕ) (out : Ts51011) : Option FcpResult :=
  match parseTlv d 0 len with
  | .error e => some { ret := some e, out := out, used := [] }
  | .ok fcp =>
      if fcp.tag ≠ 0x62 then some { ret := some .einval, out := out, used := [] }
      else propertyLoop d len fcp.stop rounds fcp.data clearedHeader

/-- A response begins with a template. -/
def BeginsWith (d : ℕ → UInt8) (len : ℕ) (fcp : TlvItem) : Prop :=
  parseTlv d 0 len = .ok fcp ∧ fcp.tag = 0x62

/-- What properties make of a header. -/
def applyProperties (d : ℕ → UInt8) (used : List TlvItem) (out : Ts51011) : Ts51011 :=
  used.foldl (fun out tlv => (convertProperty d tlv out).2) out

section Properties

variable {d : ℕ → UInt8} {stream stop fcpData fcpEnd len : ℕ} {tlv fcp : TlvItem}

/-- Where an item lies. -/
theorem parseTlv_eq_ok (h : parseTlv d stream stop = .ok tlv) :
    tlv.data = stream + 4 ∧ tlv.data ≤ tlv.stop ∧ tlv.stop ≤ stop := by
  simp only [parseTlv] at h
  split_ifs at h with htag hsize hvalue
  obtain rfl := Except.ok.inj h
  dsimp only
  omega

/-- An item that begins in an interval and ends in front of an address. -/
structure Confined (first last stop : ℕ) (tlv : TlvItem) : Prop where
  first_le : first + 4 ≤ tlv.data
  lt_last : tlv.data < last + 4
  data_le : tlv.data ≤ tlv.stop
  stop_le : tlv.stop ≤ stop

theorem Confined.of_le {first first' last : ℕ} (h : Confined first last stop tlv)
    (hle : first' ≤ first) : Confined first' last stop tlv :=
  { h with first_le := Nat.le_trans (Nat.add_le_add_right hle 4) h.first_le }

/-- The loop ends, since each property takes four digits at least: where its properties lie, and
what they make of the header. -/
theorem propertyLoop_spec (d : ℕ → UInt8) (fcpEnd : ℕ) (out : Ts51011)
    (hdata : fcpData ≤ stop) :
    ∃ r, (∀ rounds, stop < fcpData + rounds →
        propertyLoop d stop fcpEnd rounds fcpData out = some r) ∧
      (∀ tlv ∈ r.used, Confined fcpData fcpEnd stop tlv) ∧
      r.out = applyProperties d r.used out := by
  induction hn : stop - fcpData using Nat.strongRecOn generalizing fcpData out with
  | _ n ih =>
      have hpos : ∀ {rounds}, stop < fcpData + rounds → rounds ≠ 0 := by
        rintro rounds hrounds rfl
        omega
      by_cases hend : fcpData < fcpEnd
      · cases hparse : parseTlv d fcpData stop with
        | error e =>
            refine ⟨{ ret := some e, out := out, used := [] }, fun rounds hrounds => ?_,
              List.forall_mem_nil _, rfl⟩
            obtain ⟨rounds, rfl⟩ := Nat.exists_eq_add_one_of_ne_zero (hpos hrounds)
            rw [propertyLoop, if_pos hend, hparse]
        | ok tlv =>
            obtain ⟨hvalue, hle, hstop⟩ := parseTlv_eq_ok hparse
            have hconfined : Confined fcpData fcpEnd stop tlv :=
              ⟨Nat.le_of_eq hvalue.symm, by omega, hle, hstop⟩
            cases hconvert : convertProperty d tlv out with
            | mk err out' =>
                cases err with
                | some e =>
                    refine ⟨{ ret := some e, out := out', used := [tlv] },
                      fun rounds hrounds => ?_, List.forall_mem_singleton.mpr hconfined, ?_⟩
                    · obtain ⟨rounds, rfl⟩ := Nat.exists_eq_add_one_of_ne_zero (hpos hrounds)
                      rw [propertyLoop, if_pos hend, hparse]
                      dsimp only
                      rw [hconvert]
                    · exact (congrArg Prod.snd hconvert).symm
                | none =>
                    obtain ⟨r, hloop, hused, hout⟩ :=
                      ih (stop - tlv.stop) (by omega) out' hstop rfl
                    refine ⟨{ r with used := tlv :: r.used }, fun rounds hrounds => ?_,
                      List.forall_mem_cons.mpr ⟨hconfined, fun t ht => ?_⟩, ?_⟩
                    · obtain ⟨rounds, rfl⟩ := Nat.exists_eq_add_one_of_ne_zero (hpos hrounds)
                      rw [propertyLoop, if_pos hend, hparse]
                      dsimp only
                      rw [hconvert]
                      dsimp only
                      rw [hloop rounds (by omega)]
                      rfl
                    · exact (hused t ht).of_le (by omega)
                    · rw [hout]
                      exact congrArg (applyProperties d r.used) (congrArg Prod.snd hconvert).symm
      · refine ⟨{ ret := none, out := out, used := [] }, fun rounds hrounds => ?_,
          List.forall_mem_nil _, rfl⟩
        obtain ⟨rounds, rfl⟩ := Nat.exists_eq_add_one_of_ne_zero (hpos hrounds)
        rw [propertyLoop, if_neg hend]

end Properties

/-- The loop ends; the properties that are used begin in the template's value and lie inside the
response. If there is no template the header is as it was before the call, and otherwise it is
what the properties up to the end or the error make of a cleared one. -/
theorem fcp_to_ts_51011_spec (d : ℕ → UInt8) (len : ℕ) (out : Ts51011) :
    ∃ r, (∀ rounds, len < rounds → fcp_to_ts_51011 rounds d len out = some r) ∧
      ((¬ ∃ fcp, BeginsWith d len fcp) → r.ret ≠ none ∧ r.out = out ∧ r.used = []) ∧
      ∀ fcp, BeginsWith d len fcp →
        (∀ tlv ∈ r.used, Confined fcp.data fcp.stop len tlv) ∧
          r.out = applyProperties d r.used clearedHeader := by
  cases hparse : parseTlv d 0 len with
  | error e =>
      refine ⟨{ ret := some e, out := out, used := [] }, fun rounds _ => ?_,
        fun _ => ⟨Option.some_ne_none e, rfl, rfl⟩, fun fcp hfcp => ?_⟩
      · rw [fcp_to_ts_51011, hparse]
      · cases hparse.symm.trans hfcp.1
  | ok fcp =>
      obtain ⟨hdata, hle, hstop⟩ := parseTlv_eq_ok hparse
      by_cases htag : fcp.tag = 0x62
      · obtain ⟨r, hloop, hused, hout⟩ :=
          propertyLoop_spec d fcp.stop clearedHeader (Nat.le_trans hle hstop)
        refine ⟨r, fun rounds hrounds => ?_, fun hnone => absurd ⟨fcp, hparse, htag⟩ hnone,
          fun fcp' hfcp' => ?_⟩
        · rw [fcp_to_ts_51011, hparse]
          dsimp only
          rw [if_neg (not_not_intro htag), hloop rounds (by omega)]
        · obtain rfl := Except.ok.inj (hparse.symm.trans hfcp'.1)
          exact ⟨hused, hout⟩
      · refine ⟨{ ret := some .einval, out := out, used := [] }, fun rounds _ => ?_,
          fun _ => ⟨Option.some_ne_none _, rfl, rfl⟩, fun fcp' hfcp' => ?_⟩
        · rw [fcp_to_ts_51011, hparse]
          dsimp only
          rw [if_pos htag]
        · obtain rfl := Except.ok.inj (hparse.symm.trans hfcp'.1)
          exact absurd hfcp'.2 htag

/-- The properties that are used lie in the template's value, and an error leaves the header as it
was. -/
def ConfinedAndKept (d : ℕ → UInt8) (len : ℕ) (out : Ts51011) : Prop :=
  ∃ rounds r, fcp_to_ts_51011 rounds d len out = some r ∧
    (∀ fcp, BeginsWith d len fcp → ∀ tlv ∈ r.used, fcp.data ≤ tlv.data ∧ tlv.stop ≤ fcp.stop) ∧
    (r.ret ≠ none → r.out = out)

/-- A template of two bytes, with the header of a file identifier whose value lies behind it. -/
def overrunResponse : ℕ → UInt8 :=
  ofList 0 [0x36, 0x32, 0x30, 0x32, 0x38, 0x33, 0x30, 0x32, 0x33, 0x46, 0x30, 0x30]

/-- A template with a file size of no bytes. -/
def badSizeResponse : ℕ → UInt8 :=
  ofList 0 [0x36, 0x32, 0x30, 0x32, 0x38, 0x30, 0x30, 0x30]

/-- A header that is not cleared. -/
def usedHeader : Ts51011 := { clearedHeader with file_type := 4 }

theorem not_confinedAndKept :
    ¬ ConfinedAndKept overrunResponse 12 usedHeader ∧
      ¬ ConfinedAndKept badSizeResponse 8 usedHeader := by
  constructor
  · rintro ⟨rounds, r, hrun, hconfined, -⟩
    obtain _ | _ | rounds := rounds
    · exact absurd hrun.symm (Option.some_ne_none r)
    · exact absurd hrun.symm (Option.some_ne_none r)
    · obtain rfl := Option.some.inj hrun
      have hlies := hconfined { tag := 0x62, data := 4, stop := 8 } ⟨rfl, rfl⟩ _
        (List.mem_singleton_self _)
      exact absurd hlies.2 (by decide)
  · rintro ⟨rounds, r, hrun, -, hkept⟩
    obtain _ | rounds := rounds
    · exact absurd hrun.symm (Option.some_ne_none r)
    · obtain rfl := Option.some.inj hrun
      exact absurd (hkept (Option.some_ne_none _)) (by decide)

end Ril

end SierraSdk
