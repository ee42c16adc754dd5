import SierraSdk.Library.CNumerals
import SierraSdk.Library.Pieces
import SierraSdk.Library.Rounding
import Mathlib.Data.List.Induction

/-!
# Firehose programming

After the replies of the device, `fhsendProgram` announces the firmware file in sectors of the size
that the last information reply named, and `fhsendFile` streams it in blocks of `CHUNK_SIZE` bytes,
the last one filled up with zeros. `Programmed` says that the announced sectors are those of the
file, and that as many bytes are streamed.

The block is not a sector. So the sizes agree only for a file that ends less than a sector and less
than a block in front of a common multiple of both (`SectorsFit`). A reply whose text after the
`=` is no number sets the sector size to zero, and `fhsendProgram` divides by it.

A `long` has 64 bits here.
-/

namespace SierraSdk

namespace Im

namespace Fh

open CNumerals Pieces Rounding

/-- `CHUNK_SIZE` -/
def chunkSize : ℕ := 131072

section Replies

/-- The events of the Firehose state machine that a reply of the device stands for. -/
inductive FhEvent where
  | saMin
  | saSwitchConfirmedRsp
  | fhInfoRsp
  | fhConfigureRsp
  | fhProgramRsp
  | fhProcessRsp
  | fhResetRsp
  | fhErrorRsp
  deriving DecidableEq

/-- The states that a reply sets, and the other ones. -/
inductive FhState where
  | saComExeData
  | fhRawDataTrf
  | fhReset
  | other (state : UInt8)
  deriving DecidableEq

/-- What `parseFirehoseCommandResp` changes. The event is that of the last reply that had one. -/
structure FhTask where
  event : FhEvent
  gSectorSize : Int32
  maxPayloadSizeToTargetInBytes : UInt32
  state : FhState

def fhStart : FhTask := ⟨.saMin, 2048, 16384, .other 0⟩

/-- The rest of a text from the first occurrence of another one on. -/
def strstr (text pattern : List Char) : Option (List Char) :=
  text.tails.find? fun rest => pattern.isPrefixOf rest

/-- The second token of a text. -/
def secondToken (delimiter : Char) (text : List Char) : Option (List Char) :=
  (pieces (· == delimiter) text)[1]?

def xmlHeader : List Char := "<?xml version=\"1.0\" encoding=\"UTF-8\" ?>\n".toList
def xmlRespAck : List Char := "<response value=\"ACK\"".toList
def xmlRespNak : List Char := "<response value=\"NAK\"".toList

/-- The text after the first `=` behind the name of the sector size. -/
def sectorSizeText (pResp : List Char) : Option (List Char) :=
  (strstr pResp "SECTOR_SIZE_IN_BYTES".toList).bind (secondToken '=')

/-- The text after the first quotation mark behind the name of the payload size. -/
def payloadSizeText (pResp : List Char) : Option (List Char) :=
  (strstr pResp "MaxPayloadSizeToTargetInBytes".toList).bind (secondToken '"')

/-- The reply has a text in it. -/
def Has (pResp : List Char) (text : String) : Prop := (strstr pResp text.toList).isSome

instance (pResp : List Char) (text : String) : Decidable (Has pResp text) :=
  inferInstanceAs (Decidable (_ = true))

def parseFirehoseCommandResp (s : FhTask) (pResp : List Char) : FhTask :=
  if Has pResp "SWI supported functions: CWE" then { s with event := .saSwitchConfirmedRsp }
  else if (strstr pResp xmlHeader).isSome then
    if Has pResp "SWI CWE image processed OK" then { s with event := .fhProcessRsp }
    else if Has pResp "\"SECTOR_SIZE_IN_BYTES" then
      { s with
        event := .fhInfoRsp
        gSectorSize := (sectorSizeText pResp).elim s.gSectorSize fun pch =>
          Int32.ofInt (strtol 64 10 pch) }
    else if Has pResp " Requested POWER_RESET" then
      { s with event := .fhResetRsp, state := .fhReset }
    else if Has pResp "ERROR: XML not formed correctly" then
      { s with event := .fhProcessRsp, state := .fhRawDataTrf }
    else if (strstr pResp xmlRespAck).isSome then
      if Has pResp "MaxPayloadSizeToTargetInBytes" then { s with event := .fhConfigureRsp }
      else if Has pResp "rawmode=\"true\"" then { s with event := .fhProgramRsp }
      else s
    else if (strstr pResp xmlRespNak).isSome then
      (payloadSizeText pResp).elim s fun pch =>
        { s with
          event := .saSwitchConfirmedRsp
          maxPayloadSizeToTargetInBytes := UInt32.ofInt (strtol 64 10 pch)
          state := .saComExeData }
    else if Has pResp " HANDLE_PROGRAM_FAILURE" then { s with event := .fhErrorRsp }
    else if Has pResp "SWI Error Code" then { s with event := .fhErrorRsp }
    else s
  else s

end Replies

section Programming

/-- The numbers of the `program` command. -/
structure Program where
  sectorSizeInBytes : ℤ
  numPartitionSectors : ℤ

/-- The command for a file of so many bytes; `none` is the division by zero. The number of sectors
is an unsigned word, and printed as a signed one. -/
def fhsendProgram (gSectorSize : Int32) (lSize : ℕ) : Option Program :=
  if gSectorSize = 0 then none
  else
    let numPartSectors := UInt32.ofInt
      (((lSize : ℤ) + gSectorSize.toInt - 1).tdiv gSectorSize.toInt)
    some ⟨gSectorSize.toInt, numPartSectors.toInt32.toInt⟩

/-- The loop of `fhsendFile`, with what was not read of the file of `lSize` bytes. A block that the
file does not fill is sent as the last one, with zeros behind the data. -/
def sendBlocks (lSize : ℕ) (rest : List UInt8) (writeSize : UInt32) : List (List UInt8) :=
  if 0 < (lSize : ℤ) - writeSize.toNat then
    if rest.length < chunkSize then [rest ++ List.replicate (chunkSize - rest.length) 0]
    else rest.take chunkSize ::
      sendBlocks lSize (rest.drop chunkSize) (writeSize + UInt32.ofNat chunkSize)
  else []
termination_by rest.length
decreasing_by
  rw [List.length_drop]
  simp only [chunkSize] at *
  omega

/-- The blocks that are streamed of a file. -/
def fhsendFile (file : List UInt8) : List (List UInt8) := sendBlocks file.length file 0

end Programming

section Streaming

theorem chunkSize_pos : 0 < chunkSize := by decide

/-- What is filled up: the file, or for a file whose size does not fit 32 bits one byte more, since
the loop goes on until a block is not filled. -/
def streamedSize (lSize rest : ℕ) : ℕ := if lSize < 2 ^ 32 then rest else rest + 1

theorem length_sendBlocks {lSize : ℕ} {rest : List UInt8} {writeSize : UInt32}
    (hrest : rest.length ≤ lSize) (hwrite : writeSize.toNat = (lSize - rest.length) % 2 ^ 32) :
    RoundedUp chunkSize (streamedSize lSize rest.length)
      (sendBlocks lSize rest writeSize).flatten.length := by
  induction hn : rest.length using Nat.strongRecOn generalizing rest writeSize with
  | ind n ih =>
      subst hn
      rw [sendBlocks, streamedSize]
      by_cases hmore : 0 < (lSize : ℤ) - writeSize.toNat
      · rw [if_pos hmore]
        by_cases hlast : rest.length < chunkSize
        · -- the last block is filled up
          rw [if_pos hlast, List.flatten_singleton, List.length_append, List.length_replicate,
            Nat.add_sub_cancel' (Nat.le_of_lt hlast)]
          by_cases hsize : lSize < 2 ^ 32
          · rw [if_pos hsize]
            rw [Nat.mod_eq_of_lt (by omega)] at hwrite
            exact roundedUp_block (by omega) (Nat.le_of_lt hlast)
          · rw [if_neg hsize]
            exact roundedUp_block (Nat.succ_pos _) hlast
        · have hle : chunkSize ≤ rest.length := Nat.not_lt.mp hlast
          have hdrop : (rest.drop chunkSize).length = rest.length - chunkSize :=
            List.length_drop
          have hsize : streamedSize lSize rest.length =
              chunkSize + streamedSize lSize (rest.length - chunkSize) := by
            rw [streamedSize, streamedSize]
            split_ifs <;> omega
          have hnext : (writeSize + UInt32.ofNat chunkSize).toNat =
              (lSize - (rest.drop chunkSize).length) % 2 ^ 32 := by
            have hchunk : (UInt32.ofNat chunkSize).toNat = chunkSize := rfl
            have hsum : lSize - rest.length + chunkSize = lSize - (rest.length - chunkSize) := by
              omega
            rw [UInt32.toNat_add, hwrite, hchunk, hdrop, Nat.mod_add_mod, hsum]
          have hpos := chunkSize_pos
          have hblocks := ih (rest.length - chunkSize) (by omega) (by rw [hdrop]; omega) hnext hdrop
          rw [if_neg hlast, List.flatten_cons, List.length_append, List.length_take,
            Nat.min_eq_left hle, ← streamedSize, hsize]
          exact hblocks.add_block
      · -- everything was written
        have hle : lSize ≤ writeSize.toNat := by omega
        have hsize : lSize < 2 ^ 32 := Nat.lt_of_le_of_lt hle writeSize.toNat_lt
        have hzero : rest.length = 0 := by
          rw [hwrite, Nat.mod_eq_of_lt (by omega)] at hle
          omega
        rw [if_neg hmore, if_pos hsize, hzero]
        exact roundedUp_zero chunkSize_pos

/-- The blocks of a file are its size rounded up to a block. -/
theorem length_fhsendFile (file : List UInt8) :
    RoundedUp chunkSize (streamedSize file.length file.length)
      (fhsendFile file).flatten.length := by
  refine length_sendBlocks (Nat.le_refl _) ?_
  rw [Nat.sub_self]
  rfl

end Streaming

section Programmed

/-- The reply is taken as an information reply. -/
def IsInfo (pResp : List Char) : Prop :=
  ¬ Has pResp "SWI supported functions: CWE" ∧ (strstr pResp xmlHeader).isSome ∧
    ¬ Has pResp "SWI CWE image processed OK" ∧ Has pResp "\"SECTOR_SIZE_IN_BYTES"

instance (pResp : List Char) : Decidable (IsInfo pResp) :=
  inferInstanceAs (Decidable (_ ∧ _ ∧ _ ∧ _))

/-- The sector size that a reply names. -/
def namedSize (pResp : List Char) : Option Int32 :=
  if IsInfo pResp then (sectorSizeText pResp).map fun pch => Int32.ofInt (strtol 64 10 pch)
  else none

/-- The sector size that was named last, or else the default. -/
def sectorSize (replies : List (List Char)) : Int32 :=
  (replies.filterMap namedSize).getLast?.getD 2048

/-- Only an information reply sets the sector size. -/
theorem gSectorSize_parse (s : FhTask) (pResp : List Char) :
    (parseFirehoseCommandResp s pResp).gSectorSize = (namedSize pResp).getD s.gSectorSize := by
  rw [parseFirehoseCommandResp, namedSize]
  by_cases hcwe : Has pResp "SWI supported functions: CWE"
  · have hnot : ¬ IsInfo pResp := fun h => h.1 hcwe
    rw [if_pos hcwe, if_neg hnot]
    rfl
  by_cases hxml : (strstr pResp xmlHeader).isSome
  · by_cases hdone : Has pResp "SWI CWE image processed OK"
    · have hnot : ¬ IsInfo pResp := fun h => h.2.2.1 hdone
      rw [if_neg hcwe, if_pos hxml, if_pos hdone, if_neg hnot]
      rfl
    by_cases hinfo : Has pResp "\"SECTOR_SIZE_IN_BYTES"
    · have hall : IsInfo pResp := ⟨hcwe, hxml, hdone, hinfo⟩
      rw [if_neg hcwe, if_pos hxml, if_neg hdone, if_pos hinfo, if_pos hall]
      cases sectorSizeText pResp with
      | none => rfl
      | some pch => rfl
    · have hnot : ¬ IsInfo pResp := fun h => hinfo h.2.2.2
      rw [if_neg hcwe, if_pos hxml, if_neg hdone, if_neg hinfo, if_neg hnot]
      cases payloadSizeText pResp with
      | none => split_ifs <;> rfl
      | some pch => split_ifs <;> rfl
  · have hnot : ¬ IsInfo pResp := fun h => hxml h.2.1
    rw [if_neg hcwe, if_neg hxml, if_neg hnot]
    rfl

theorem gSectorSize_replies (replies : List (List Char)) :
    (replies.foldl parseFirehoseCommandResp fhStart).gSectorSize = sectorSize replies := by
  induction replies using List.reverseRecOn with
  | nil => rfl
  | append_singleton replies pResp ih =>
      rw [List.foldl_append, List.foldl_cons, List.foldl_nil, gSectorSize_parse, ih, sectorSize,
        sectorSize, List.filterMap_append]
      cases hnamed : namedSize pResp with
      | none => simp [hnamed]
      | some size => simp [hnamed]

/-- The command announces the sectors of the file, and as many bytes are streamed. -/
def Announces (program : Program) (file : List UInt8) : Prop :=
  0 < program.sectorSizeInBytes ∧
    (file.length : ℤ) ≤ program.numPartitionSectors * program.sectorSizeInBytes ∧
    program.numPartitionSectors * program.sectorSizeInBytes <
      file.length + program.sectorSizeInBytes ∧
    ((fhsendFile file).flatten.length : ℤ) =
      program.numPartitionSectors * program.sectorSizeInBytes

/-- After these replies the file is programmed: no division by zero, and the command announces what
is streamed. -/
def Programmed (replies : List (List Char)) (file : List UInt8) : Prop :=
  ∃ program ∈
      fhsendProgram (replies.foldl parseFirehoseCommandResp fhStart).gSectorSize file.length,
    Announces program file

/-- The sector size is positive, and the file ends less than a sector and less than a block in front
of a common multiple of both. The number of sectors fits a signed word. -/
def SectorsFit (size : Int32) (lSize : ℕ) : Prop :=
  0 < size.toInt ∧ ∃ m, m < 2 ^ 31 * size.toInt.toNat ∧ RoundedUp size.toInt.toNat lSize m ∧
    RoundedUp chunkSize (streamedSize lSize lSize) m

/-- A number of sectors that fits a signed word is printed as it is. -/
theorem printed {q : ℕ} (h : q < 2 ^ 31) : (UInt32.ofInt (q : ℤ)).toInt32.toInt = q := by
  have hmod : ((q : ℤ) % 2 ^ 32).toNat = q := by omega
  have hword : (UInt32.ofInt (q : ℤ)).toInt32 = Int32.ofNat q := by
    rw [UInt32.ofInt, hmod]
    rfl
  rw [hword, Int32.toInt_ofNat_of_lt h]

/-- The command for a positive sector size: the file in sectors, rounded up. -/
theorem fhsendProgram_of_pos {gSectorSize : Int32} {size : ℕ} (hsize : gSectorSize.toInt = size)
    (hpos : 0 < size) (lSize : ℕ) :
    fhsendProgram gSectorSize lSize = some ⟨size,
      (UInt32.ofInt (((lSize + size - 1) / size : ℕ) : ℤ)).toInt32.toInt⟩ := by
  have hne : gSectorSize ≠ 0 := by
    rintro rfl
    exact absurd hsize.symm (Int.ofNat_ne_zero.mpr (Nat.ne_of_gt hpos))
  have hsum : (lSize : ℤ) + size - 1 = ((lSize + size - 1 : ℕ) : ℤ) := by omega
  rw [fhsendProgram, if_neg hne, hsize, hsum, ← Int.ofNat_tdiv]

/-- The command announces what is streamed of a file if and only if the sizes fit. -/
theorem announces_iff (gSectorSize : Int32) (file : List UInt8) :
    (∃ program ∈ fhsendProgram gSectorSize file.length, Announces program file) ↔
      SectorsFit gSectorSize file.length := by
  have hstreamed := length_fhsendFile file
  by_cases hpos : 0 < gSectorSize.toInt
  · obtain ⟨size, hsize⟩ := Int.eq_ofNat_of_zero_le (Int.le_of_lt hpos)
    have hsizepos : 0 < size := Int.natCast_pos.mp (hsize ▸ hpos)
    have htoNat : gSectorSize.toInt.toNat = size := congrArg Int.toNat hsize
    have hsectors := roundedUp_div hsizepos file.length
    rw [fhsendProgram_of_pos hsize hsizepos, SectorsFit, htoNat]
    generalize (file.length + size - 1) / size = q at hsectors ⊢
    generalize hblocks : (fhsendFile file).flatten.length = streamed at hstreamed
    constructor
    · rintro ⟨_, ⟨⟩, -, hle, hlt, heq⟩
      rw [hblocks] at heq
      have hcast : ((q * size : ℕ) : ℤ) = q * size := Int.natCast_mul q size
      have hround : RoundedUp size file.length streamed := by
        refine ⟨Int.natCast_dvd_natCast.mp ⟨_, heq.trans (Int.mul_comm _ _)⟩, ?_, ?_⟩
        · exact Int.ofNat_le.mp (heq ▸ hle)
        · exact Int.ofNat_lt.mp (heq ▸ hlt)
      have hq := hround.unique hsectors
      rw [hq, hcast] at heq
      have hnumber : (q : ℤ) = (UInt32.ofInt (q : ℤ)).toInt32.toInt :=
        Int.eq_of_mul_eq_mul_right (Int.natCast_ne_zero.mpr (Nat.ne_of_gt hsizepos)) heq
      have hfits : (q : ℤ) < 2 ^ 31 := by
        rw [hnumber]
        exact Int32.toInt_lt _
      refine ⟨hpos, streamed, ?_, hround, hstreamed⟩
      rw [hq]
      exact Nat.mul_lt_mul_of_pos_right (by omega) hsizepos
    · rintro ⟨-, m, hm, hround, hfilled⟩
      have hq := hround.unique hsectors
      have hm' := hfilled.unique hstreamed
      have hfits : q < 2 ^ 31 := Nat.lt_of_mul_lt_mul_right (hq ▸ hm)
      have hcast : ((m : ℕ) : ℤ) = q * size := by rw [hq, Int.natCast_mul]
      refine ⟨_, rfl, hsize ▸ hpos, ?_⟩
      rw [printed hfits, hblocks, ← hm']
      simp only [← hcast]
      exact ⟨Int.ofNat_le.mpr hround.2.1, Int.ofNat_lt.mpr hround.2.2, trivial⟩
  · refine iff_of_false ?_ fun h => hpos h.1
    rintro ⟨program, hprogram, hsize, -⟩
    rw [fhsendProgram] at hprogram
    obtain ⟨-, ⟨⟩⟩ := Option.ite_none_left_eq_some.mp hprogram
    exact hpos hsize

/-- An information reply with its number in quotation marks. -/
def quotedReply : List Char :=
  xmlHeader ++ "<data><log value=\"INFO: \"SECTOR_SIZE_IN_BYTES\"=\"4096\"\" /></data>".toList

end Programmed

end Fh

end Im

end SierraSdk
