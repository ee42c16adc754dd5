import Mathlib.Algebra.Group.Nat.Defs
import SierraSdk.Sdk.CnsTask

/-!
# HIP packets

A HIP packet starts with a length, a message id and a parameter; an escape code instead of the
message id says that an extended message id follows. The messages of the two directions differ in
their ids (`HipDirection`): the host parses forward packets and builds reverse ones, and the modem
does the opposite.

What is built is what the other side parses, if the length fits its field
(`hpparsehdr_hpconstruct`).
-/

namespace SierraSdk

namespace Sdk

section Designators

/-- The ids of a direction: the range of the message ids, the escape code among them, and the range
of the extended ones. -/
structure HipDirection where
  minMsgId : UInt32
  maxMsgId : UInt32
  extended : UInt32
  minExtMsgId : UInt32
  maxExtMsgId : UInt32

namespace HipDirection

/-- `HPMINFMSGID`, `HPMAXFMSGID`, `HPHEXTENDED`, `HPMINFEXTMSGID` and `HPMAXFEXTMSGID` -/
def forward : HipDirection := ⟨0x40, 0x7f, 0x7f, 0x200, 0x3ff⟩

/-- `HPMINRMSGID`, `HPMAXRMSGID`, `HPMEXTENDED`, `HPMINREXTMSGID` and `HPMAXREXTMSGID` -/
def reverse : HipDirection := ⟨0x00, 0x3f, 0x3f, 0x000, 0x1ff⟩

end HipDirection

/-- `HPMSGIDMSK`, `HPPADBMSK` and `HPEXTMSGIDMSK` -/
def hpMsgIdMsk : UInt32 := 0x7f
def hpPadBMsk : UInt8 := 0x80
def hpExtMsgIdMsk : UInt32 := 0x3ff

/-- `HPPAYLENMSK` and `HPEXTPAYLENMSK` -/
def hpPayLenMsk : UInt16 := 0x7ff
def hpExtPayLenMsk : UInt16 := 0x3fff

/-- `HPEXTMSGIDSHF` -/
def hpExtMsgIdShf : UInt32 := 16

/-- `HPHDRLENGTHEXT` -/
def hpHdrLengthExt : ℕ := 6

/-- The message id of a designator, and the extended one if it has one. -/
def hpdesignator2msgid (msgdesignator : UInt32) : UInt32 × Option UInt32 :=
  let shortmsgid := msgdesignator &&& hpMsgIdMsk
  if shortmsgid = HipDirection.reverse.extended ∨ shortmsgid = HipDirection.forward.extended then
    (shortmsgid, some ((msgdesignator >>> hpExtMsgIdShf) &&& hpExtMsgIdMsk))
  else (shortmsgid, none)

def hpmsgid2designator (dir : HipDirection) (shortmsgid extmsgid : UInt32) : UInt32 :=
  if shortmsgid = dir.extended then (extmsgid <<< hpExtMsgIdShf) ||| shortmsgid else shortmsgid

end Designators

section Header

/-- The size of the header of a message; `none` is an abort. -/
def hpgethdrsize (dir : HipDirection) (msgdesignator : UInt32) : Option ℕ :=
  match hpdesignator2msgid msgdesignator with
  | (msgid, extmsgid) =>
      if msgid > dir.maxMsgId then none
      else
        match extmsgid with
        | some extmsgid => if extmsgid > dir.maxExtMsgId then none else some hpHdrLengthExt
        | none => some hpHdrLength

/-- The header of a packet, and its size. -/
def hpconstruct (dir : HipDirection) (msgdesignator : UInt32) (msgparm : UInt8)
    (paylength : UInt16) : List UInt8 × Option ℕ :=
  match hpdesignator2msgid msgdesignator with
  | (msgid, extmsgid) =>
      (piput16 paylength ++ [msgid.toUInt8, msgparm] ++
          (match extmsgid with
          | some extmsgid => piput16 (extmsgid &&& hpExtMsgIdMsk).toUInt16
          | none => []),
        hpgethdrsize dir msgdesignator)

/-- What is read from a header. The payload is given by its position behind the header's start. -/
structure HipHeader where
  msgdesignator : UInt32
  payload : ℕ
  payloadlen : UInt16
  msgparm : UInt8
  deriving DecidableEq

/-- The header of a packet, and whether its ids are those of the direction. -/
def hpparsehdr (dir : HipDirection) (msghdr : List UInt8) : HipHeader × Bool :=
  let payloadlen := piget16 msghdr 0
  let msgid := hpMsgIdMsk &&& (msghdr.getD 2 0).toUInt32
  let padbyte : Bool := hpPadBMsk &&& msghdr.getD 2 0 ≠ 0
  let msgparm := msghdr.getD 3 0
  let badmsgid : Bool := msgid > dir.maxMsgId || msgid < dir.minMsgId
  let extended : Bool := !badmsgid && msgid = dir.extended
  let extmsgid := if extended then (piget16 msghdr 4).toUInt32 &&& hpExtMsgIdMsk else 0
  let badextmsgid : Bool :=
    extended && (extmsgid > dir.maxExtMsgId || extmsgid < dir.minExtMsgId)
  let payload := if extended then hpHdrLengthExt else hpHdrLength
  let payloadlen :=
    if badmsgid then payloadlen
    else payloadlen &&& (if extended then hpExtPayLenMsk else hpPayLenMsk)
  let msgdesignator := hpmsgid2designator dir msgid extmsgid
  let valid := !(badmsgid || badextmsgid)
  if padbyte && payloadlen > 0 then
    (⟨msgdesignator, payload + 1, payloadlen - 1, msgparm⟩, valid)
  else (⟨msgdesignator, payload, payloadlen, msgparm⟩, valid)

end Header

section RoundTrip

/-- The designators of a direction, with the longest payload that the header has room for. -/
inductive HipDirection.Designates (dir : HipDirection) : UInt32 → UInt16 → Prop where
  | normal (msgid : UInt32) : dir.minMsgId ≤ msgid → msgid ≤ dir.maxMsgId → msgid ≠ dir.extended →
      dir.Designates msgid hpPayLenMsk
  | extended (extmsgid : UInt32) : dir.minExtMsgId ≤ extmsgid → extmsgid ≤ dir.maxExtMsgId →
      dir.Designates ((extmsgid <<< hpExtMsgIdShf) ||| dir.extended) hpExtPayLenMsk

/-- The host's direction and the modem's. -/
def HipDirection.both : List HipDirection := [.forward, .reverse]

theorem and_mask {mask length : UInt16} {k : ℕ} (hmask : mask.toNat = 2 ^ k - 1)
    (h : length ≤ mask) : length &&& mask = length := by
  apply UInt16.toNat_inj.mp
  rw [UInt16.toNat_and, hmask]
  apply Nat.and_two_pow_sub_one_of_lt_two_pow
  have hle : length.toNat ≤ mask.toNat := UInt16.le_iff_toNat_le.mp h
  have hpos := Nat.two_pow_pos k
  omega

/-- A message id fits in the seven bits of its field. -/
theorem msgid_bits {msgid : UInt32} (h : msgid ≤ 0x7f) :
    msgid &&& hpMsgIdMsk = msgid ∧ hpMsgIdMsk &&& msgid.toUInt8.toUInt32 = msgid ∧
      hpPadBMsk &&& msgid.toUInt8 = 0 := by
  have hall : ∀ n < 128, UInt32.ofNat n &&& hpMsgIdMsk = UInt32.ofNat n ∧
      hpMsgIdMsk &&& (UInt32.ofNat n).toUInt8.toUInt32 = UInt32.ofNat n ∧
        hpPadBMsk &&& (UInt32.ofNat n).toUInt8 = 0 := by
    decide +kernel
  have hle : msgid.toNat ≤ 127 := UInt32.le_iff_toNat_le.mp h
  have hbits := hall msgid.toNat (Nat.lt_succ_of_le hle)
  rwa [UInt32.ofNat_toNat] at hbits

/-- Masking with the low bits. -/
theorem and_hpMsgIdMsk (n : UInt32) : (n &&& hpMsgIdMsk).toNat = n.toNat % 2 ^ 7 := by
  rw [UInt32.toNat_and]
  exact Nat.and_two_pow_sub_one_eq_mod n.toNat 7

theorem and_hpExtMsgIdMsk (n : UInt32) : (n &&& hpExtMsgIdMsk).toNat = n.toNat % 2 ^ 10 := by
  rw [UInt32.toNat_and]
  exact Nat.and_two_pow_sub_one_eq_mod n.toNat 10

/-- The number that an extended designator is. -/
theorem toNat_extended_designator {extmsgid escape : UInt32} (hext : extmsgid.toNat < 2 ^ 10)
    (hescape : escape.toNat < 2 ^ 7) :
    ((extmsgid <<< hpExtMsgIdShf) ||| escape).toNat =
      extmsgid.toNat * 2 ^ 16 + escape.toNat := by
  have hmoved : (extmsgid <<< hpExtMsgIdShf).toNat = extmsgid.toNat <<< 16 := by
    have hfits : extmsgid.toNat <<< 16 < 2 ^ 32 := by
      rw [Nat.shiftLeft_eq]
      omega
    rw [UInt32.toNat_shiftLeft]
    exact Nat.mod_eq_of_lt hfits
  have hbelow : escape.toNat < 2 ^ 16 := Nat.lt_trans hescape (by decide)
  rw [UInt32.toNat_or, hmoved, ← Nat.shiftLeft_add_eq_or_of_lt hbelow, Nat.shiftLeft_eq]

/-- An extended message id fits in the bits above a message id. -/
theorem extmsgid_bits {dir : HipDirection} (hdir : dir ∈ HipDirection.both) {extmsgid : UInt32}
    (h : extmsgid ≤ dir.maxExtMsgId) :
    hpdesignator2msgid ((extmsgid <<< hpExtMsgIdShf) ||| dir.extended) =
        (dir.extended, some extmsgid) ∧
      extmsgid &&& hpExtMsgIdMsk = extmsgid ∧ extmsgid.toUInt16.toUInt32 = extmsgid := by
  have hmax : ∀ dir ∈ HipDirection.both, dir.maxExtMsgId.toNat < 2 ^ 10 := by decide
  have hescapes : ∀ dir ∈ HipDirection.both, dir.extended.toNat < 2 ^ 7 ∧
      (dir.extended = HipDirection.reverse.extended ∨
        dir.extended = HipDirection.forward.extended) := by decide
  have hext : extmsgid.toNat < 2 ^ 10 :=
    Nat.lt_of_le_of_lt (UInt32.le_iff_toNat_le.mp h) (hmax dir hdir)
  obtain ⟨hescape, hcode⟩ := hescapes dir hdir
  have hnumber := toNat_extended_designator hext hescape
  generalize hdes : (extmsgid <<< hpExtMsgIdShf) ||| dir.extended = designator at hnumber
  have hlow : designator &&& hpMsgIdMsk = dir.extended := by
    apply UInt32.toNat_inj.mp
    rw [and_hpMsgIdMsk, hnumber]
    omega
  have hhigh : (designator >>> hpExtMsgIdShf) &&& hpExtMsgIdMsk = extmsgid := by
    have hmoved : (designator >>> hpExtMsgIdShf).toNat = designator.toNat >>> 16 :=
      UInt32.toNat_shiftRight _ _
    apply UInt32.toNat_inj.mp
    rw [and_hpExtMsgIdMsk, hmoved, hnumber, Nat.shiftRight_eq_div_pow]
    omega
  refine ⟨?_, ?_, ?_⟩
  · simp only [hpdesignator2msgid, hlow, hhigh]
    exact if_pos hcode
  · apply UInt32.toNat_inj.mp
    rw [and_hpExtMsgIdMsk]
    exact Nat.mod_eq_of_lt hext
  · apply UInt32.toNat_inj.mp
    rw [UInt16.toNat_toUInt32, UInt32.toNat_toUInt16]
    exact Nat.mod_eq_of_lt (Nat.lt_trans hext (by decide))

/-- The header of a normal message without a pad byte. -/
theorem hpparsehdr_normal {dir : HipDirection} {msghdr : List UInt8} {msgid : UInt32}
    (hid : hpMsgIdMsk &&& (msghdr.getD 2 0).toUInt32 = msgid)
    (hpad : hpPadBMsk &&& msghdr.getD 2 0 = 0) (hmin : dir.minMsgId ≤ msgid)
    (hmax : msgid ≤ dir.maxMsgId) (hne : msgid ≠ dir.extended) :
    hpparsehdr dir msghdr =
      (⟨msgid, hpHdrLength, piget16 msghdr 0 &&& hpPayLenMsk, msghdr.getD 3 0⟩, true) := by
  have hbad : ¬ (msgid > dir.maxMsgId ∨ msgid < dir.minMsgId) := by
    rintro (hgt | hlt)
    · exact UInt32.not_lt.mpr hmax hgt
    · exact UInt32.not_lt.mpr hmin hlt
  have hbadb : (decide (msgid > dir.maxMsgId) || decide (msgid < dir.minMsgId)) = false := by
    rw [← Bool.decide_or]
    exact decide_eq_false hbad
  simp only [hpparsehdr, hid, hpad, hbadb, hne, hpmsgid2designator]
  simp

/-- The header of an extended message without a pad byte. -/
theorem hpparsehdr_extended {dir : HipDirection} {msghdr : List UInt8} {extmsgid : UInt32}
    (hid : hpMsgIdMsk &&& (msghdr.getD 2 0).toUInt32 = dir.extended)
    (hpad : hpPadBMsk &&& msghdr.getD 2 0 = 0) (hescape : dir.minMsgId ≤ dir.extended)
    (hescape' : dir.extended ≤ dir.maxMsgId)
    (hext : (piget16 msghdr 4).toUInt32 &&& hpExtMsgIdMsk = extmsgid)
    (hmin : dir.minExtMsgId ≤ extmsgid) (hmax : extmsgid ≤ dir.maxExtMsgId) :
    hpparsehdr dir msghdr =
      (⟨(extmsgid <<< hpExtMsgIdShf) ||| dir.extended, hpHdrLengthExt,
        piget16 msghdr 0 &&& hpExtPayLenMsk, msghdr.getD 3 0⟩, true) := by
  have hbad : (decide (dir.extended > dir.maxMsgId) || decide (dir.extended < dir.minMsgId)) =
      false := by
    rw [← Bool.decide_or]
    refine decide_eq_false ?_
    rintro (hgt | hlt)
    · exact UInt32.not_lt.mpr hescape' hgt
    · exact UInt32.not_lt.mpr hescape hlt
  have hbadext : (decide (extmsgid > dir.maxExtMsgId) || decide (extmsgid < dir.minExtMsgId)) =
      false := by
    rw [← Bool.decide_or]
    refine decide_eq_false ?_
    rintro (hgt | hlt)
    · exact UInt32.not_lt.mpr hmax hgt
    · exact UInt32.not_lt.mpr hmin hlt
  simp only [hpparsehdr, hid, hpad, hbad, hpmsgid2designator]
  simp [hext, hbadext]

theorem escapes_ne {dir : HipDirection} (hdir : dir ∈ HipDirection.both) {msgid : UInt32}
    (hmin : dir.minMsgId ≤ msgid) (hmax : msgid ≤ dir.maxMsgId) (hne : msgid ≠ dir.extended) :
    ¬ (msgid = HipDirection.reverse.extended ∨ msgid = HipDirection.forward.extended) := by
  simp only [HipDirection.both, List.mem_cons, List.not_mem_nil, or_false] at hdir
  rintro (rfl | rfl)
  · obtain rfl | rfl := hdir
    · exact absurd hmin (by decide)
    · exact hne rfl
  · obtain rfl | rfl := hdir
    · exact hne rfl
    · exact absurd hmax (by decide)

/-- Both escape codes are among the ids of their direction, and have only the bits of an id. -/
theorem escape_bounds {dir : HipDirection} (hdir : dir ∈ HipDirection.both) :
    dir.minMsgId ≤ dir.extended ∧ dir.extended ≤ dir.maxMsgId ∧ dir.maxMsgId ≤ 0x7f := by
  revert dir
  decide

/-- What a side builds, the other side parses. -/
theorem hpparsehdr_hpconstruct {dir : HipDirection} (hdir : dir ∈ HipDirection.both)
    {msgdesignator : UInt32} {maxlength : UInt16} (hd : dir.Designates msgdesignator maxlength)
    (msgparm : UInt8) {paylength : UInt16} (hlength : paylength ≤ maxlength)
    (payload : List UInt8) :
    ∃ size, (hpconstruct dir msgdesignator msgparm paylength).2 = some size ∧
      (hpconstruct dir msgdesignator msgparm paylength).1.length = size ∧
      hpparsehdr dir ((hpconstruct dir msgdesignator msgparm paylength).1 ++ payload) =
        (⟨msgdesignator, size, paylength, msgparm⟩, true) := by
  obtain ⟨hescape, hescape', hbits⟩ := escape_bounds hdir
  cases hd with
  | normal _ hmin hmax hne =>
      obtain ⟨hid, hbyte, hpad⟩ := msgid_bits (UInt32.le_trans hmax hbits)
      have hsplit : hpdesignator2msgid msgdesignator = (msgdesignator, none) := by
        simp only [hpdesignator2msgid, hid, escapes_ne hdir hmin hmax hne, if_false]
      have hnot : ¬ msgdesignator > dir.maxMsgId := UInt32.not_lt.mpr hmax
      have hfield : piget16 (piput16 paylength ++ [msgdesignator.toUInt8, msgparm] ++ payload) 0 =
          paylength := piget16_piput16 paylength [] ([msgdesignator.toUInt8, msgparm] ++ payload)
      have hparsed : hpparsehdr dir
          (piput16 paylength ++ [msgdesignator.toUInt8, msgparm] ++ payload) = _ :=
        hpparsehdr_normal hbyte hpad hmin hmax hne
      refine ⟨hpHdrLength, ?_, ?_, ?_⟩
      · simp only [hpconstruct, hpgethdrsize, hsplit, hnot, if_false]
      · simp only [hpconstruct, hsplit]
        rfl
      · simp only [hpconstruct, hsplit, List.append_nil]
        rw [hparsed, hfield, and_mask (k := 11) rfl hlength]
        rfl
  | extended extmsgid hmin hmax =>
      obtain ⟨hsplit, hext, hword⟩ := extmsgid_bits hdir hmax
      obtain ⟨-, hbyte, hpad⟩ := msgid_bits (UInt32.le_trans hescape' hbits)
      have hnot : ¬ dir.extended > dir.maxMsgId := UInt32.not_lt.mpr hescape'
      have hnotext : ¬ extmsgid > dir.maxExtMsgId := UInt32.not_lt.mpr hmax
      have hfield : piget16 (piput16 paylength ++ [dir.extended.toUInt8, msgparm] ++
          piput16 extmsgid.toUInt16 ++ payload) 0 = paylength :=
        piget16_piput16 paylength []
          ([dir.extended.toUInt8, msgparm] ++ piput16 extmsgid.toUInt16 ++ payload)
      have hextfield : piget16 (piput16 paylength ++ [dir.extended.toUInt8, msgparm] ++
          piput16 extmsgid.toUInt16 ++ payload) 4 = extmsgid.toUInt16 :=
        piget16_piput16 extmsgid.toUInt16 (piput16 paylength ++ [dir.extended.toUInt8, msgparm])
          payload
      have hid : (piget16 (piput16 paylength ++ [dir.extended.toUInt8, msgparm] ++
          piput16 extmsgid.toUInt16 ++ payload) 4).toUInt32 &&& hpExtMsgIdMsk = extmsgid := by
        rw [hextfield, hword, hext]
      have hparsed : hpparsehdr dir (piput16 paylength ++ [dir.extended.toUInt8, msgparm] ++
          piput16 extmsgid.toUInt16 ++ payload) = _ :=
        hpparsehdr_extended hbyte hpad hescape hescape' hid hmin hmax
      refine ⟨hpHdrLengthExt, ?_, ?_, ?_⟩
      · simp only [hpconstruct, hpgethdrsize, hsplit, hnot, hnotext, if_false]
      · simp only [hpconstruct, hsplit]
        rfl
      · simp only [hpconstruct, hsplit, hext]
        rw [hparsed, hfield, and_mask (k := 14) rfl hlength]
        rfl

end RoundTrip

end Sdk

end SierraSdk
