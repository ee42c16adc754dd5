import SierraSdk.Library.Pieces

/-!
# The package string of a firmware image

A firmware image is stamped with a string of parameters that are joined with underscores. Which
parameters there are depends on the module: the string of a 9090 module has no boot block, and may
be without a carrier, which is told from the number of its parameters.
`qm_fms_extract_spkgsparameters` reads such a string, parameter by parameter.

Whatever the string is, each parameter that is kept is the one in the place that the format of the
string has for it (`SpkgsFormat.param`). A `Package` is what a string is to say, and
`PackageParams.print` is the string, which is read back as it was printed.
-/

namespace SierraSdk

namespace Qm

open Pieces

def underscore : UInt8 := 0x5f

/-- `QM_FMS_SPKGS_STR_MAX_SZ` -/
def qmFmsSpkgsStrMaxSz : ℕ := 84

/-- `SLQSIMINFO_MAX_SZ`, which is the size of every parameter. -/
def slqsiminfoMaxSz : ℕ := 20

/-- `MC9090_CWE_MODEL_NAME`, "9090" -/
def mc9090CweModelName : List UInt8 := [0x39, 0x30, 0x39, 0x30]

/-- `SLQSIMINFO_UNKNOWN_CARRIER_STRING`, "UNKNOWN" -/
def slqsiminfoUnknownCarrierString : List UInt8 := [0x55, 0x4e, 0x4b, 0x4e, 0x4f, 0x57, 0x4e]

/-- `enum cwe_spkgs_param_indices` -/
inductive CweSpkgsParamIndex where
  | sku
  | partno
  | modelid
  | fwversion
  | bootblk
  | carrier
  | priver
  | pkgid
  | last
  deriving DecidableEq

/-- `struct qm_fms_cwe_spkgs_response_tlv_values` -/
structure CweSpkgsRsp where
  modelid_str : List UInt8
  fwversion_str : List UInt8
  sku_str : List UInt8
  packageid_str : List UInt8
  carrier_str : List UInt8
  priversion_str : List UInt8

/-- The structure after it was cleared. -/
def CweSpkgsRsp.zero : CweSpkgsRsp := ⟨[], [], [], [], [], []⟩

/-- What the first pass over a string finds out. -/
structure SpkgsFormat where
  bIs9090 : Bool
  bIsCarrierPresence : Bool

/-- The parameters, as `strtok` finds them. -/
def spkgsParams (pspkgsstring : List UInt8) : List (List UInt8) :=
  pieces (· == underscore) pspkgsstring

/-- A model id names a 9090 module. -/
def Is9090 (modelid : List UInt8) : Prop :=
  2 < modelid.length ∧ (modelid.drop 2).take mc9090CweModelName.length = mc9090CweModelName

instance (modelid : List UInt8) : Decidable (Is9090 modelid) :=
  inferInstanceAs (Decidable (_ ∧ _))

namespace SpkgsFormat

/-- The first pass, over a copy of the string. Only a string of eight parameters is without a
carrier. -/
def ofString (pspkgsstring : List UInt8) : SpkgsFormat :=
  let params := spkgsParams (pspkgsstring.take qmFmsSpkgsStrMaxSz)
  { bIs9090 := params[2]?.any fun pparam => decide (Is9090 pparam)
    bIsCarrierPresence := decide (params.length ≠ 8) }

/-- The parameter behind a parameter. -/
def next (format : SpkgsFormat) : CweSpkgsParamIndex → CweSpkgsParamIndex
  | .sku => .partno
  | .partno => .modelid
  | .modelid => .fwversion
  | .fwversion =>
      if format.bIs9090 then if format.bIsCarrierPresence then .carrier else .priver
      else .bootblk
  | .bootblk => .carrier
  | .carrier => .priver
  | .priver => .pkgid
  | .pkgid | .last => .last

/-- Copy a parameter. The carrier that a string is without is filled in behind the firmware
version. -/
def copy (format : SpkgsFormat) (rsp : CweSpkgsRsp) (pparam : List UInt8) :
    CweSpkgsParamIndex → CweSpkgsRsp
  | .sku => { rsp with sku_str := pparam }
  | .modelid => { rsp with modelid_str := pparam }
  | .fwversion =>
      { rsp with
        fwversion_str := pparam
        carrier_str :=
          if format.bIs9090 && !format.bIsCarrierPresence then
            slqsiminfoUnknownCarrierString.take (slqsiminfoMaxSz - 1)
          else rsp.carrier_str }
  | .carrier => { rsp with carrier_str := pparam }
  | .priver => { rsp with priversion_str := pparam }
  | .pkgid => { rsp with packageid_str := pparam }
  | .partno | .bootblk | .last => rsp

/-- One round of the second pass, for a parameter that is not too long. -/
def take (format : SpkgsFormat) (s : CweSpkgsParamIndex × CweSpkgsRsp) (pparam : List UInt8) :
    CweSpkgsParamIndex × CweSpkgsRsp :=
  (format.next s.1, format.copy s.2 pparam s.1)

/-- The second pass. Parameters behind the package id are not looked at. -/
def extractLoop (format : SpkgsFormat) :
    CweSpkgsParamIndex × CweSpkgsRsp → List (List UInt8) → Option CweSpkgsRsp
  | s, [] => some s.2
  | s, pparam :: params =>
      if s.1 ≠ .last ∧ slqsiminfoMaxSz < pparam.length then none
      else extractLoop format (format.take s pparam) params

end SpkgsFormat

/-- Extract the parameters of a package string into a structure that was cleared. The structure of a
string that is corrupt is not used. -/
def qm_fms_extract_spkgsparameters (pspkgsstring : List UInt8) : Option CweSpkgsRsp :=
  (SpkgsFormat.ofString pspkgsstring).extractLoop (.sku, .zero) (spkgsParams pspkgsstring)

section Places

theorem map_fst_zip_eq_take {α β : Type*} (xs : List α) (ys : List β) :
    (xs.zip ys).map Prod.fst = xs.take ys.length := by
  induction xs generalizing ys with
  | nil => simp
  | cons x xs ih =>
      cases ys with
      | nil => rfl
      | cons y ys => simp [ih]

/-- The parameters that are kept. -/
def keptParams : List CweSpkgsParamIndex := [.sku, .modelid, .fwversion, .carrier, .priver, .pkgid]

/-- A parameter that is kept. -/
def CweSpkgsRsp.field (rsp : CweSpkgsRsp) : CweSpkgsParamIndex → List UInt8
  | .sku => rsp.sku_str
  | .modelid => rsp.modelid_str
  | .fwversion => rsp.fwversion_str
  | .carrier => rsp.carrier_str
  | .priver => rsp.priversion_str
  | .pkgid => rsp.packageid_str
  | .partno | .bootblk | .last => []

namespace SpkgsFormat

variable (format : SpkgsFormat)

/-- Strings of the format are without a carrier. -/
def lacksCarrier : Bool := format.bIs9090 && !format.bIsCarrierPresence

/-- The parameters behind the firmware version. -/
def behindVersion : List CweSpkgsParamIndex :=
  if format.bIs9090 then
    if format.bIsCarrierPresence then [.carrier, .priver, .pkgid] else [.priver, .pkgid]
  else [.bootblk, .carrier, .priver, .pkgid]

/-- The parameters from an index on, as a string of the format has them. -/
def rest : CweSpkgsParamIndex → List CweSpkgsParamIndex
  | .sku => .sku :: .partno :: .modelid :: .fwversion :: format.behindVersion
  | .partno => .partno :: .modelid :: .fwversion :: format.behindVersion
  | .modelid => .modelid :: .fwversion :: format.behindVersion
  | .fwversion => .fwversion :: format.behindVersion
  | .bootblk => [.bootblk, .carrier, .priver, .pkgid]
  | .carrier => [.carrier, .priver, .pkgid]
  | .priver => [.priver, .pkgid]
  | .pkgid => [.pkgid]
  | .last => []

/-- What a string with these parameters says of one: the parameter in its place. The carrier that
the format lacks is called unknown, if there is a firmware version, and a parameter in whose place
there is none is empty. -/
def param (params : List (List UInt8)) (index : CweSpkgsParamIndex) : List UInt8 :=
  (((format.rest .sku).zip params).lookup index).getD
    (if format.lacksCarrier ∧ index = .carrier ∧ 3 < params.length then
      slqsiminfoUnknownCarrierString
    else [])

variable {format}

theorem rest_eq_cons {index : CweSpkgsParamIndex} (h : index ≠ .last) :
    format.rest index = index :: format.rest (format.next index) := by
  cases index with
  | fwversion =>
      simp only [rest, behindVersion, next]
      split_ifs <;> rfl
  | last => exact absurd rfl h
  | _ => rfl

theorem nodup_rest_sku : (format.rest .sku).Nodup := by
  obtain ⟨bIs9090, bIsCarrierPresence⟩ := format
  cases bIs9090 <;> cases bIsCarrierPresence <;> decide

theorem carrier_notMem_rest_sku (h : format.lacksCarrier = true) : .carrier ∉ format.rest .sku := by
  obtain ⟨bIs9090, bIsCarrierPresence⟩ := format
  revert h
  cases bIs9090 <;> cases bIsCarrierPresence <;> decide

/-- The firmware version is the fourth parameter. -/
theorem fwversion_mem_take_iff (n : ℕ) : .fwversion ∈ (format.rest .sku).take n ↔ 3 < n := by
  match n with
  | 0 | 1 | 2 | 3 => simp [rest]
  | n + 4 => simp [rest]

variable (format) in
/-- The rounds of the second pass, until one finds a parameter that is too long. Those for no
parameter of the format change nothing. -/
theorem extractLoop_eq (index : CweSpkgsParamIndex) (rsp : CweSpkgsRsp)
    (params : List (List UInt8)) :
    format.extractLoop (index, rsp) params =
      if ∃ pparam ∈ params.take (format.rest index).length, slqsiminfoMaxSz < pparam.length then
        none
      else
        some (((format.rest index).zip params).foldl (fun rsp z => format.copy rsp z.2 z.1) rsp) := by
  induction params generalizing index rsp with
  | nil => simp [extractLoop]
  | cons pparam params ih =>
      by_cases hlast : index = .last
      · rw [hlast, extractLoop, if_neg fun h => h.1 rfl, take, ih]
        simp [rest, next, copy]
      · rw [rest_eq_cons hlast, extractLoop]
        by_cases hlong : slqsiminfoMaxSz < pparam.length
        · rw [if_pos ⟨hlast, hlong⟩, if_pos ⟨pparam, List.mem_cons_self, hlong⟩]
        · rw [if_neg fun h => hlong h.2, take, ih]
          simp [hlong]

/-- What a round does to the parameters that are kept. -/
theorem field_copy (rsp : CweSpkgsRsp) (pparam : List UInt8) (index : CweSpkgsParamIndex)
    {kept : CweSpkgsParamIndex} (hkept : kept ∈ keptParams) :
    (format.copy rsp pparam index).field kept =
      if index = kept then pparam
      else if format.lacksCarrier ∧ kept = .carrier ∧ index = .fwversion then
        slqsiminfoUnknownCarrierString
      else rsp.field kept := by
  cases index with
  | fwversion =>
      have hunknown : slqsiminfoUnknownCarrierString.take (slqsiminfoMaxSz - 1) =
          slqsiminfoUnknownCarrierString := rfl
      cases kept <;> simp [copy, CweSpkgsRsp.field, lacksCarrier, keptParams, hunknown] at hkept ⊢
  | _ => cases kept <;> simp [copy, CweSpkgsRsp.field, keptParams] at hkept ⊢

/-- The parameters that are kept are those found last, or the carrier is unknown. -/
theorem field_foldl {kept : CweSpkgsParamIndex} (hkept : kept ∈ keptParams)
    (zs : List (CweSpkgsParamIndex × List UInt8)) (hnodup : (zs.map Prod.fst).Nodup)
    (hcarrier : format.lacksCarrier = true → .carrier ∉ zs.map Prod.fst) (rsp : CweSpkgsRsp) :
    (zs.foldl (fun rsp z => format.copy rsp z.2 z.1) rsp).field kept =
      (zs.lookup kept).getD
        (if format.lacksCarrier ∧ kept = .carrier ∧ .fwversion ∈ zs.map Prod.fst then
          slqsiminfoUnknownCarrierString
        else rsp.field kept) := by
  induction zs generalizing rsp with
  | nil => simp
  | cons z zs ih =>
      obtain ⟨index, pparam⟩ := z
      obtain ⟨hnotMem, hnodup⟩ := List.nodup_cons.mp hnodup
      have hrest (h : format.lacksCarrier = true) := fun hmem =>
        hcarrier h (List.mem_cons_of_mem index hmem)
      rw [List.foldl_cons, ih hnodup hrest, field_copy rsp pparam index hkept]
      by_cases hindex : index = kept
      · subst hindex
        have hlookup : zs.lookup index = none := by
          rw [List.lookup_eq_none_iff]
          intro z hz
          exact bne_iff_ne.mpr fun heq => hnotMem (List.mem_map.mpr ⟨z, hz, heq.symm⟩)
        have hfound : ¬ (format.lacksCarrier ∧ index = .carrier ∧ .fwversion ∈ zs.map Prod.fst) := by
          rintro ⟨hlacks, rfl, -⟩
          exact hcarrier hlacks List.mem_cons_self
        rw [hlookup, Option.getD_none, if_neg hfound, if_pos rfl, List.lookup_cons_self,
          Option.getD_some]
      · rw [if_neg hindex, List.lookup_cons, beq_false_of_ne (Ne.symm hindex)]
        congr 1
        simp only [List.map_cons, List.mem_cons, ← ite_or, ← and_or_left, eq_comm (a := index),
          or_comm]

/-- What is kept of the parameters of a string. -/
theorem field_zip {kept : CweSpkgsParamIndex} (hkept : kept ∈ keptParams)
    (params : List (List UInt8)) :
    (((format.rest .sku).zip params).foldl (fun rsp z => format.copy rsp z.2 z.1) .zero).field kept =
      format.param params kept := by
  have hkeys := map_fst_zip_eq_take (format.rest .sku) params
  have hnodup : (((format.rest .sku).zip params).map Prod.fst).Nodup := by
    rw [hkeys]
    exact nodup_rest_sku.sublist (List.take_sublist _ _)
  have hcarrier (h : format.lacksCarrier = true) :
      .carrier ∉ ((format.rest .sku).zip params).map Prod.fst := by
    rw [hkeys]
    exact fun hmem => carrier_notMem_rest_sku h (List.mem_of_mem_take hmem)
  have hzero : CweSpkgsRsp.zero.field kept = [] := by
    cases kept <;> rfl
  rw [field_foldl hkept _ hnodup hcarrier, param, hzero]
  simp only [hkeys, fwversion_mem_take_iff]

end SpkgsFormat

end Places

/-- The text of a parameter. -/
structure SpkgsParam where
  text : List UInt8
  ne_nil : text ≠ []
  fits : text.length ≤ slqsiminfoMaxSz
  plain : ∀ c ∈ text, c ≠ 0 ∧ c ≠ underscore

theorem unknownCarrier_plain :
    ∀ c ∈ slqsiminfoUnknownCarrierString, c ≠ 0 ∧ c ≠ underscore := by
  simp [slqsiminfoUnknownCarrierString, underscore]

/-- The name of the carrier that a string is without. -/
def unknownCarrier : SpkgsParam where
  text := slqsiminfoUnknownCarrierString
  ne_nil := List.cons_ne_nil _ _
  fits := Nat.le_of_ble_eq_true rfl
  plain := unknownCarrier_plain

/-- Parameters that are joined with underscores. -/
def joined (params : List SpkgsParam) : List UInt8 :=
  List.intercalate [underscore] (params.map SpkgsParam.text)

/-- The parameters of a package. The last two say what the string is, and for which modules. -/
structure PackageParams where
  sku : SpkgsParam
  partno : SpkgsParam
  modelid : SpkgsParam
  fwversion : SpkgsParam
  bootblk : Option SpkgsParam
  carrier : Option SpkgsParam
  priversion : SpkgsParam
  packageid : SpkgsParam
  format : SpkgsParam
  family : SpkgsParam

namespace PackageParams

/-- The parameters in front of the last one. -/
def front (p : PackageParams) : List SpkgsParam :=
  [p.sku, p.partno, p.modelid, p.fwversion] ++ p.bootblk.toList ++ p.carrier.toList ++
    [p.priversion, p.packageid, p.format]

/-- The package string. -/
def print (p : PackageParams) : List UInt8 := joined (p.front ++ [p.family])

/-- The carrier, or the name in its place. -/
def carrierName (p : PackageParams) : SpkgsParam := p.carrier.getD unknownCarrier

/-- What the string says of the package. -/
def info (p : PackageParams) : CweSpkgsRsp where
  modelid_str := p.modelid.text
  fwversion_str := p.fwversion.text
  sku_str := p.sku.text
  packageid_str := p.packageid.text
  carrier_str := p.carrierName.text
  priversion_str := p.priversion.text

end PackageParams

/-- A package. Its string has a boot block unless the module is a 9090 one, and a carrier with the
boot block. -/
structure Package extends PackageParams where
  bootblk_eq_none : bootblk = none ↔ Is9090 modelid.text
  carrier_isSome : bootblk.isSome → carrier.isSome
  short : toPackageParams.print.length < qmFmsSpkgsStrMaxSz

theorem SpkgsParam.isWord (param : SpkgsParam) : IsWord (· == underscore) param.text :=
  ⟨param.ne_nil, fun c hc => beq_eq_false_iff_ne.mpr (param.plain c hc).2⟩

theorem spkgsParams_joined (params : List SpkgsParam) :
    spkgsParams (joined params) = params.map SpkgsParam.text := by
  apply pieces_intercalate (List.forall_mem_map.mpr fun param _ => param.isWord)
  exact beq_self_eq_true underscore

/-- Parameters that are not too long are copied one after another. -/
theorem SpkgsFormat.extractLoop_map_text (format : SpkgsFormat)
    (s : CweSpkgsParamIndex × CweSpkgsRsp) (params : List SpkgsParam) :
    format.extractLoop s (params.map SpkgsParam.text) =
      some ((params.map SpkgsParam.text).foldl format.take s).2 := by
  induction params generalizing s with
  | nil => rfl
  | cons param params ih =>
      rw [List.map_cons, extractLoop, if_neg (fun h => Nat.not_lt.mpr param.fits h.2),
        List.foldl_cons, ih]

/-- The first pass over a package string. -/
theorem Package.ofString_print (p : Package) :
    SpkgsFormat.ofString p.print = ⟨p.bootblk.isNone, p.bootblk.isSome || p.carrier.isSome⟩ := by
  have hparams : spkgsParams (p.print.take qmFmsSpkgsStrMaxSz) =
      (p.front ++ [p.family]).map SpkgsParam.text := by
    rw [List.take_of_length_le (Nat.le_of_lt p.short), PackageParams.print, spkgsParams_joined]
  have hmodel : decide (Is9090 p.modelid.text) = p.bootblk.isNone := by
    rw [Bool.eq_iff_iff, decide_eq_true_iff, Option.isNone_iff_eq_none, p.bootblk_eq_none]
  simp only [SpkgsFormat.ofString, hparams]
  cases hboot : p.bootblk with
  | none =>
      rw [hboot] at hmodel
      cases hcarrier : p.carrier with
      | none => simp [PackageParams.front, hboot, hcarrier, hmodel]
      | some carrier => simp [PackageParams.front, hboot, hcarrier, hmodel]
  | some bootblk =>
      rw [hboot] at hmodel
      obtain ⟨carrier, hcarrier⟩ :=
        Option.isSome_iff_exists.mp (p.carrier_isSome (by rw [hboot]; rfl))
      simp [PackageParams.front, hboot, hcarrier, hmodel]

/-- A package string is read back as it was printed. -/
theorem Package.extract_print (p : Package) :
    qm_fms_extract_spkgsparameters p.print = some p.info := by
  rw [qm_fms_extract_spkgsparameters, p.ofString_print, PackageParams.print, spkgsParams_joined,
    SpkgsFormat.extractLoop_map_text]
  congr 1
  cases hboot : p.bootblk with
  | none =>
      cases hcarrier : p.carrier with
      | none =>
          simp only [PackageParams.front, PackageParams.info, PackageParams.carrierName, hboot, hcarrier]
          rfl
      | some carrier =>
          simp only [PackageParams.front, PackageParams.info, PackageParams.carrierName, hboot, hcarrier]
          rfl
  | some bootblk =>
      obtain ⟨carrier, hcarrier⟩ :=
        Option.isSome_iff_exists.mp (p.carrier_isSome (by rw [hboot]; rfl))
      simp only [PackageParams.front, PackageParams.info, PackageParams.carrierName, hboot, hcarrier]
      rfl

/-- A string is corrupt exactly if a parameter that its format has is too long. Of any other, each
parameter that is kept is the one in its place, and the string of a package says what the package
is. -/
theorem extract_reads (pspkgsstring : List UInt8) :
    (qm_fms_extract_spkgsparameters pspkgsstring = none ↔
      ∃ pparam ∈ (spkgsParams pspkgsstring).take
          ((SpkgsFormat.ofString pspkgsstring).rest .sku).length,
        slqsiminfoMaxSz < pparam.length) ∧
    (∀ rsp, qm_fms_extract_spkgsparameters pspkgsstring = some rsp → ∀ kept ∈ keptParams,
      rsp.field kept =
        (SpkgsFormat.ofString pspkgsstring).param (spkgsParams pspkgsstring) kept) ∧
    ∀ p : Package, p.print = pspkgsstring →
      qm_fms_extract_spkgsparameters pspkgsstring = some p.info := by
  have hloop := SpkgsFormat.extractLoop_eq (SpkgsFormat.ofString pspkgsstring) .sku .zero
    (spkgsParams pspkgsstring)
  refine ⟨by simp [qm_fms_extract_spkgsparameters, hloop], fun rsp h kept hkept => ?_, ?_⟩
  · rw [qm_fms_extract_spkgsparameters, hloop, Option.ite_none_left_eq_some] at h
    rw [← Option.some.inj h.2]
    exact SpkgsFormat.field_zip hkept _
  · rintro p rfl
    exact p.extract_print

/-- The parameters in the package string of an MC7710 module. -/
def mc7710Text : Fin 9 → List UInt8
  | 0 => [0x39, 0x39, 0x39, 0x39, 0x39, 0x39, 0x39]
  | 1 => [0x39, 0x32, 0x30, 0x30]
  | 2 => [0x30, 0x33, 0x2e, 0x30, 0x35, 0x2e, 0x32, 0x34, 0x2e, 0x30, 0x30]
  | 3 => [0x30, 0x30]
  | 4 => [0x67, 0x65, 0x6e, 0x65, 0x72, 0x69, 0x63]
  | 5 => [0x30, 0x30, 0x30, 0x2e, 0x30, 0x30, 0x30]
  | 6 => [0x30, 0x30, 0x31]
  | 7 => [0x53, 0x50, 0x4b, 0x47]
  | 8 => [0x4d, 0x43]

theorem mc7710Text_valid (i : Fin 9) :
    mc7710Text i ≠ [] ∧ (mc7710Text i).length ≤ slqsiminfoMaxSz ∧
      (mc7710Text i).all (fun c => decide (c ≠ 0 ∧ c ≠ underscore)) = true := by
  revert i
  decide

def mc7710Param (i : Fin 9) : SpkgsParam where
  text := mc7710Text i
  ne_nil := (mc7710Text_valid i).1
  fits := (mc7710Text_valid i).2.1
  plain c hc := of_decide_eq_true (List.all_eq_true.mp (mc7710Text_valid i).2.2 c hc)

/-- The parameters of the package of an MC7710 module. -/
def mc7710Params : PackageParams where
  sku := mc7710Param 0
  partno := mc7710Param 0
  modelid := mc7710Param 1
  fwversion := mc7710Param 2
  bootblk := some (mc7710Param 3)
  carrier := some (mc7710Param 4)
  priversion := mc7710Param 5
  packageid := mc7710Param 6
  format := mc7710Param 7
  family := mc7710Param 8

theorem mc7710_bootblk : mc7710Params.bootblk = none ↔ Is9090 mc7710Params.modelid.text :=
  iff_of_false (Option.some_ne_none _) (by decide)

theorem mc7710_short : mc7710Params.print.length < qmFmsSpkgsStrMaxSz := by decide

def mc7710 : Package := ⟨mc7710Params, mc7710_bootblk, fun _ => rfl, mc7710_short⟩

theorem extract_reads_mc7710 :
    qm_fms_extract_spkgsparameters mc7710.print = some mc7710.info :=
  (extract_reads mc7710.print).2.2 mc7710 rfl

end Qm

end SierraSdk
