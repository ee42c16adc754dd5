import SierraSdk.Library.Memory
import SierraSdk.Ril.HexStrings

/-!
# SIM I/O by QMI

A SIM I/O request has a path and data in hexadecimal digits. They are converted into the fields of
a request to the SDK: the path to numbers of 16 bits with a length in bytes, the data to bytes.
Nothing looks at whether a string could be converted, and the length of its field is taken from the
string all the same.

What the SDK answers to GET RESPONSE is made a file header of 15 bytes, again in hexadecimal digits.

`simIoConverts_iff` says which requests are carried out as they are meant, and `headerSays_iff`
which headers say what the card said.
-/

namespace SierraSdk

namespace Ril

open Memory

open Sl (denotes)

section Header

def nib2char (c : UInt8) : UInt8 :=
  if c ≤ 0x09 then c + 0x30 else if 0x0A ≤ c ∧ c ≤ 0x0F then c + 0x41 - 0xA else 0

/-- The types of files. -/
def simFileTransparent : UInt8 := 0
def simFileCyclic : UInt8 := 1
def simFileLinearFixed : UInt8 := 2
def simFileDedicated : UInt8 := 3
def simFileMaster : UInt8 := 4

/-- What the SDK says of a file. -/
structure FileAttributes where
  fileSize : UInt16
  fileID : UInt16
  fileType : UInt8
  recordSize : UInt16

/-- A digit of a number. -/
def digitOf (res : UInt16) (shift : UInt16) : UInt8 := nib2char ((res >>> shift) &&& 0x000F).toUInt8

/-- The digits of a byte, at an index and behind it. -/
def setByte (getResponse : List UInt8) (i : ℕ) (chres : UInt8) : List UInt8 :=
  (getResponse.set i (nib2char ((chres >>> 4) &&& 0x0F))).set (i + 1) (nib2char (chres &&& 0x0F))

/-- The four digits of a number. -/
def setShort (getResponse : List UInt8) (i : ℕ) (res : UInt16) : List UInt8 :=
  (((getResponse.set i (digitOf res 12)).set (i + 1) (digitOf res 8)).set (i + 2)
    (digitOf res 4)).set (i + 3) (digitOf res 0)

/-- The type of a file and how it is structured. -/
def setFileType (getResponse : List UInt8) (fileType : UInt8) : List UInt8 :=
  if fileType = simFileTransparent then setByte (setByte getResponse 12 4) 26 0
  else if fileType = simFileLinearFixed then setByte (setByte getResponse 12 4) 26 1
  else if fileType = simFileCyclic then setByte (setByte getResponse 12 4) 26 3
  else if fileType = simFileDedicated then setByte getResponse 12 2
  else if fileType = simFileMaster then setByte getResponse 12 1
  else getResponse

/-- The file has records of a fixed size. -/
def FileAttributes.hasRecords (a : FileAttributes) : Bool :=
  a.fileType = simFileLinearFixed || a.fileType = simFileCyclic

/-- The response to `COMMAND_GET_RESPONSE`; only one byte of the size of a record is put in. -/
def fileHeader (a : FileAttributes) : List UInt8 :=
  let getResponse := List.replicate 30 0x30
  let getResponse := setShort getResponse 4 a.fileSize
  let getResponse := setShort getResponse 8 a.fileID
  let getResponse := setFileType getResponse a.fileType
  if a.hasRecords then
    (getResponse.set 28 (digitOf a.recordSize 4)).set 29 (digitOf a.recordSize 0)
  else getResponse

/-- The response for voice mail files that some firmware does not know,
`000000086FC9040000000001020104` or `000000406FC7040000000001020120`. -/
def dummyHeader (fileid : UInt32) : List UInt8 :=
  if fileid = 28617 then
    [0x30, 0x30, 0x30, 0x30, 0x30, 0x30, 0x30, 0x38, 0x36, 0x46, 0x43, 0x39, 0x30, 0x34, 0x30,
      0x30, 0x30, 0x30, 0x30, 0x30, 0x30, 0x30, 0x30, 0x31, 0x30, 0x32, 0x30, 0x31, 0x30, 0x34]
  else
    [0x30, 0x30, 0x30, 0x30, 0x30, 0x30, 0x34, 0x30, 0x36, 0x46, 0x43, 0x37, 0x30, 0x34, 0x30,
      0x30, 0x30, 0x30, 0x30, 0x30, 0x30, 0x30, 0x30, 0x31, 0x30, 0x32, 0x30, 0x31, 0x32, 0x30]

end Header

section Requests

/-- `MAX_PATH_LENGTH`, `MAX_DESCRIPTION_LENGTH` and `MAX_CONTENT_LENGTH` -/
def maxPathLength : ℕ := 255
def maxDescriptionLength : ℕ := 255
def maxContentLength : ℕ := 1024

/-- The codes of the SDK that are told apart. -/
inductive SdkCode where
  | none
  | simFileNotFound
  | other (code : UInt32)
  deriving DecidableEq

/-- The commands. -/
def simGetResponse : UInt32 := 0xC0
def simReadRecord : UInt32 := 0xB2
def simReadBinary : UInt32 := 0xB0
def simWriteRecord : UInt32 := 0xDC
def simWriteBinary : UInt32 := 0xD6

/-- `RIL_SIM_IO` -/
structure RilSimIo where
  command : UInt32
  fileid : UInt32
  path : Option HexString
  p1 : UInt32
  p3 : UInt32
  data : Option HexString
  pin2 : Option (List UInt8)

/-- `fileInfo` -/
structure FileInfo where
  fileID : UInt16
  pathLen : UInt8
  path : ℕ → UInt16

/-- `writeRecordInfo` and `writetransparentInfo` -/
structure WriteInfo where
  position : UInt16
  dataLen : UInt16
  data : ℕ → UInt8

/-- The requests to the SDK, with the type of the session. -/
inductive UimReq where
  | getFileAttributes (sessionType : UInt8) (fileIndex : FileInfo)
  | readRecord (sessionType : UInt8) (fileIndex : FileInfo) (record length : UInt16)
  | writeRecord (sessionType : UInt8) (fileIndex : FileInfo) (writeRecord : WriteInfo)
  | readTransparent (sessionType : UInt8) (fileIndex : FileInfo) (offset length : UInt16)
  | writeTransparent (sessionType : UInt8) (fileIndex : FileInfo) (writeTransparent : WriteInfo)

/-- What the SDK answers. -/
structure UimResp where
  code : SdkCode
  attributes : FileAttributes
  content : List UInt8

/-- What a request meets: the code for its PIN2, the code and the session type of the card status,
the answers of the SDK, whether the firmware is one that does not know the voice mail files, and
what is on the stack. -/
structure SimIoWorld where
  pin2 : SdkCode
  cardStatus : SdkCode
  sessionType : UInt8
  sdk : UimReq → UimResp
  isSl9090 : Bool
  stack : SdkCode

/-- What is done for a request: the SDK is called, the request is handed on to the AT channel, or it
is answered, with an error or with the response of the SIM. -/
inductive SimIoAction where
  | uim (req : UimReq)
  | requestSimIo
  | error
  | complete (simResponse : List UInt8)

/-- An array of a request, which is zero at first, with a converted string; if there is none the
array is left as it is. `none` if what is behind the array is overwritten. -/
def putConverted {α : Type} (size : ℕ) (zero : α) (converted : Option (List α)) :
    Option (ℕ → α) :=
  match converted with
  | none => some fun _ => zero
  | some xs => if xs.length ≤ size then some (store (fun _ => zero) 0 xs) else none

/-- The index of the file of a request. -/
def fileIndex (pIoArg : RilSimIo) : Option FileInfo :=
  match pIoArg.path with
  | none => some ⟨pIoArg.fileid.toUInt16, 0, fun _ => 0⟩
  | some path =>
      (putConverted maxPathLength 0 (stringToShort path.chars)).map fun words =>
        ⟨pIoArg.fileid.toUInt16, UInt8.ofNat (path.chars.length / 2), words⟩

/-- The data of a request, and where it is written. -/
def writeInfo (pIoArg : RilSimIo) (size : ℕ) : Option WriteInfo :=
  match pIoArg.data with
  | none => some ⟨0, 0, fun _ => 0⟩
  | some data =>
      (putConverted size 0 (stringToBinary data.chars)).map fun bytes =>
        ⟨pIoArg.p1.toUInt16, UInt16.ofNat (data.chars.length / 2), bytes⟩

/-- Call the SDK once the card status is known: the code, what is done, and the response. `none` if
the memory behind a field is overwritten. -/
def callSdk (w : SimIoWorld) (req : Option UimReq) (answer : UimResp → SdkCode × List UInt8) :
    Option (SdkCode × List SimIoAction × List UInt8) :=
  if w.cardStatus ≠ .none then some (w.cardStatus, [], [])
  else req.map fun req => ((answer (w.sdk req)).1, [.uim req], (answer (w.sdk req)).2)

def getFileAttributesQMI (w : SimIoWorld) (pIoArg : RilSimIo) :
    Option (SdkCode × List SimIoAction × List UInt8) :=
  callSdk w ((fileIndex pIoArg).map (.getFileAttributes w.sessionType)) fun resp =>
    if resp.code = .none then (.none, fileHeader resp.attributes)
    else if resp.code ≠ .simFileNotFound ∧
        (pIoArg.fileid = 28615 ∨ pIoArg.fileid = 28617 ∨ pIoArg.fileid = 28439) ∧ w.isSl9090 then
      (.none, dummyHeader pIoArg.fileid)
    else (resp.code, [])

def readRecordQMI (w : SimIoWorld) (pIoArg : RilSimIo) :
    Option (SdkCode × List SimIoAction × List UInt8) :=
  callSdk w ((fileIndex pIoArg).map fun index =>
      .readRecord w.sessionType index pIoArg.p1.toUInt16 pIoArg.p3.toUInt16)
    fun resp => (resp.code, binaryToString resp.content)

def updateRecordQMI (w : SimIoWorld) (pIoArg : RilSimIo) :
    Option (SdkCode × List SimIoAction × List UInt8) :=
  callSdk w ((fileIndex pIoArg).bind fun index =>
      (writeInfo pIoArg maxDescriptionLength).map (.writeRecord w.sessionType index))
    fun resp => (resp.code, [])

def readBinaryQMI (w : SimIoWorld) (pIoArg : RilSimIo) :
    Option (SdkCode × List SimIoAction × List UInt8) :=
  callSdk w ((fileIndex pIoArg).map fun index =>
      .readTransparent w.sessionType index pIoArg.p1.toUInt16 pIoArg.p3.toUInt16)
    fun resp => (resp.code, binaryToString resp.content)

def updateBinaryQMI (w : SimIoWorld) (pIoArg : RilSimIo) :
    Option (SdkCode × List SimIoAction × List UInt8) :=
  callSdk w ((fileIndex pIoArg).bind fun index =>
      (writeInfo pIoArg maxContentLength).map (.writeTransparent w.sessionType index))
    fun resp => (resp.code, [])

/-- The command of a request. For another one the code is the one of the PIN2, or what is on the
stack. -/
def simIoCommand (w : SimIoWorld) (ioargs : RilSimIo) :
    Option (SdkCode × List SimIoAction × List UInt8) :=
  if ioargs.command = simGetResponse then getFileAttributesQMI w ioargs
  else if ioargs.command = simReadRecord then readRecordQMI w ioargs
  else if ioargs.command = simWriteRecord then updateRecordQMI w ioargs
  else if ioargs.command = simReadBinary then readBinaryQMI w ioargs
  else if ioargs.command = simWriteBinary then updateBinaryQMI w ioargs
  else some (if ioargs.pin2.isSome then .none else w.stack, [], [])

/-- How a request ends: it is answered, or handed on. A header begins with two zeros, and so is
never taken for an FCP template. -/
def simIoDone (nRet : SdkCode) (simResponse : List UInt8) : SimIoAction :=
  if nRet = .none then .complete simResponse
  else if nRet = .simFileNotFound then .error
  else .requestSimIo

/-- Carry out a request. -/
def requestSIM_IOQMI (w : SimIoWorld) (ioargs : RilSimIo) : Option (List SimIoAction) :=
  if ioargs.path.isNone then some [.error]
  else if ioargs.pin2.isSome ∧ w.pin2 ≠ .none then some [.error]
  else (simIoCommand w ioargs).map fun r => r.2.1 ++ [simIoDone r.1 r.2.2]

end Requests

section Meaning

/-- The path of a request is that of a string. -/
structure CarriesPath (fileIndex : FileInfo) (path : HexString) : Prop where
  length : 2 * fileIndex.pathLen.toNat = path.chars.length
  elements : ∀ i < path.chars.length / 4, (fileIndex.path i).toNat = denoted 4 path i

structure CarriesData (write : WriteInfo) (data : HexString) : Prop where
  length : 2 * write.dataLen.toNat = data.chars.length
  bytes : ∀ i < data.chars.length / 2, (write.data i).toNat = denoted 2 data i

/-- The path in a request to the SDK, and what is to be written. -/
def UimReq.fileIndex : UimReq → FileInfo
  | .getFileAttributes _ fileIndex | .readRecord _ fileIndex _ _ | .writeRecord _ fileIndex _
  | .readTransparent _ fileIndex _ _ | .writeTransparent _ fileIndex _ => fileIndex

def UimReq.write? : UimReq → Option WriteInfo
  | .writeRecord _ _ write | .writeTransparent _ _ write => some write
  | _ => none

/-- The size of the field for the data of a command, and whether a command has a path. -/
def dataSize (command : UInt32) : Option ℕ :=
  if command = simWriteRecord then some maxDescriptionLength
  else if command = simWriteBinary then some maxContentLength
  else none

def hasPath (command : UInt32) : Bool :=
  command = simGetResponse || command = simReadRecord || command = simWriteRecord ||
    command = simReadBinary || command = simWriteBinary

/-- The strings of a request have the right length and fit their fields; the length of a path is a
byte. -/
structure StringsFit (r : RilSimIo) : Prop where
  path : hasPath r.command = true → ∀ path ∈ r.path,
    path.chars.length % 4 = 0 ∧ path.chars.length / 2 < 256
  data : ∀ size ∈ dataSize r.command, ∀ data ∈ r.data,
    data.chars.length % 2 = 0 ∧ data.chars.length / 2 ≤ size

/-- Nothing is done for a request because its path is missing, its PIN2 is not accepted, or the card
has no such file. -/
def RejectedBefore (w : SimIoWorld) (r : RilSimIo) : Prop :=
  r.path = none ∨ (r.pin2.isSome ∧ w.pin2 ≠ .none) ∨ w.cardStatus = .simFileNotFound

/-- A request to the SDK says what the strings say. -/
structure Carries (r : RilSimIo) (req : UimReq) : Prop where
  path : ∀ path ∈ r.path, CarriesPath req.fileIndex path
  data : ∀ write ∈ req.write?, ∀ data ∈ r.data, CarriesData write data

/-- A request is converted as it is meant: what the SDK is called with says what the strings say;
the SDK is called when nothing is in the way; and if the strings do not fit, nothing is done. -/
structure Converts (w : SimIoWorld) (r : RilSimIo) : Prop where
  exact : ∀ actions req, requestSIM_IOQMI w r = some actions → .uim req ∈ actions → Carries r req
  called : StringsFit r → ¬ RejectedBefore w r → hasPath r.command = true →
    w.cardStatus = .none → ∃ req rest, requestSIM_IOQMI w r = some (.uim req :: rest)
  refused : ¬ StringsFit r → requestSIM_IOQMI w r = some [.error]

/-- A header of 15 bytes says what the card said: the size and the id of the file in two bytes
each, and the size of a record in one. -/
structure HeaderSays (a : FileAttributes) : Prop where
  length : (fileHeader a).length = 2 * 15
  fileSize : denotes 16 digitValue (digitsAt (fileHeader a) 4 4) = a.fileSize.toNat
  fileID : denotes 16 digitValue (digitsAt (fileHeader a) 8 4) = a.fileID.toNat
  recordSize : a.hasRecords = true →
    denotes 16 digitValue (digitsAt (fileHeader a) 28 2) = a.recordSize.toNat

/-- What the strings and the header of SIM I/O should be turned into. -/
structure SimIoConverted (bytes : List UInt8) (a : FileAttributes) (w : SimIoWorld)
    (r : RilSimIo) : Prop where
  inverse : stringToBinary (binaryToString bytes) = some bytes
  header : HeaderSays a
  request : Converts w r

end Meaning

section HeaderValues

theorem digitValue_nib2char {x : UInt8} (h : x.toNat < 16) : digitValue (nib2char x) = x.toNat := by
  have hall : ∀ n < 16, digitValue (nib2char (UInt8.ofNat n)) = n := by decide
  have hx := hall x.toNat h
  rwa [UInt8.ofNat_toNat] at hx

theorem digitValue_digitOf (res : UInt16) (k : ℕ) (hk : k < 16) :
    digitValue (digitOf res (UInt16.ofNat k)) = res.toNat / 2 ^ k % 16 := by
  have hk' : (UInt16.ofNat k).toNat % 16 = k := by
    rw [UInt16.toNat_ofNat']
    omega
  have hnibble : ((res >>> UInt16.ofNat k) &&& 0x000F).toNat = res.toNat / 2 ^ k % 16 := by
    rw [UInt16.toNat_and, UInt16.toNat_shiftRight, hk', Nat.shiftRight_eq_div_pow]
    exact Nat.and_two_pow_sub_one_eq_mod _ 4
  have hbyte : ((res >>> UInt16.ofNat k) &&& 0x000F).toUInt8.toNat = res.toNat / 2 ^ k % 16 := by
    rw [UInt16.toNat_toUInt8, hnibble]
    omega
  rw [digitOf, digitValue_nib2char (by rw [hbyte]; omega), hbyte]

/-- A digit that is put outside of the digits that are read. -/
theorem digitsAt_set_of_disjoint {header : List UInt8} {i n j : ℕ} {c : UInt8}
    (h : j < i ∨ i + n ≤ j) : digitsAt (header.set j c) i n = digitsAt header i n := by
  rw [digitsAt, digitsAt, List.drop_set]
  rcases h with hbefore | hafter
  · rw [if_pos hbefore]
  · have hlength := List.length_take_le n (header.drop i)
    rw [if_neg (by omega), List.take_set, List.set_eq_of_length_le (by omega)]

theorem digitsAt_setByte_of_disjoint {header : List UInt8} {i n j : ℕ} {chres : UInt8}
    (h : j + 1 < i ∨ i + n ≤ j) : digitsAt (setByte header j chres) i n = digitsAt header i n := by
  rw [setByte, digitsAt_set_of_disjoint (by omega), digitsAt_set_of_disjoint (by omega)]

theorem digitsAt_setShort_of_disjoint {header : List UInt8} {i n j : ℕ} {res : UInt16}
    (h : j + 3 < i ∨ i + n ≤ j) : digitsAt (setShort header j res) i n = digitsAt header i n := by
  rw [setShort, digitsAt_set_of_disjoint (by omega), digitsAt_set_of_disjoint (by omega),
    digitsAt_set_of_disjoint (by omega), digitsAt_set_of_disjoint (by omega)]

/-- The type and the structure of a file stand at 12 and at 26. -/
theorem digitsAt_setFileType {header : List UInt8} {i n : ℕ} (fileType : UInt8)
    (htype : 13 < i ∨ i + n ≤ 12) (hstructure : 27 < i ∨ i + n ≤ 26) :
    digitsAt (setFileType header fileType) i n = digitsAt header i n := by
  rw [setFileType]
  split_ifs
  · rw [digitsAt_setByte_of_disjoint hstructure, digitsAt_setByte_of_disjoint htype]
  · rw [digitsAt_setByte_of_disjoint hstructure, digitsAt_setByte_of_disjoint htype]
  · rw [digitsAt_setByte_of_disjoint hstructure, digitsAt_setByte_of_disjoint htype]
  · rw [digitsAt_setByte_of_disjoint htype]
  · rw [digitsAt_setByte_of_disjoint htype]
  · rfl

theorem digitsAt_setShort {header : List UInt8} {i : ℕ} (res : UInt16)
    (h : i + 4 ≤ header.length) :
    digitsAt (setShort header i res) i 4 =
      [digitOf res 12, digitOf res 8, digitOf res 4, digitOf res 0] := by
  obtain ⟨pre, post, rfl, rfl⟩ : ∃ pre post, header = pre ++ post ∧ pre.length = i :=
    ⟨header.take i, header.drop i, (List.take_append_drop i header).symm,
      List.length_take_of_le (by omega)⟩
  rw [List.length_append] at h
  match post with
  | [] | [_] | [_, _] | [_, _, _] => simp at h
  | _ :: _ :: _ :: _ :: post => simp [digitsAt, setShort]

theorem length_fileHeader (a : FileAttributes) : (fileHeader a).length = 30 := by
  rw [fileHeader, setFileType]
  split_ifs <;> simp [setByte, setShort]

/-- The four digits of a number. -/
theorem denotes_digitOf (res : UInt16) :
    denotes 16 digitValue [digitOf res 12, digitOf res 8, digitOf res 4, digitOf res 0] =
      res.toNat := by
  have hres := res.toNat_lt
  have h12 : digitValue (digitOf res 12) = res.toNat / 4096 % 16 :=
    digitValue_digitOf res 12 (by decide)
  have h8 : digitValue (digitOf res 8) = res.toNat / 256 % 16 :=
    digitValue_digitOf res 8 (by decide)
  have h4 : digitValue (digitOf res 4) = res.toNat / 16 % 16 :=
    digitValue_digitOf res 4 (by decide)
  have h0 : digitValue (digitOf res 0) = res.toNat / 1 % 16 :=
    digitValue_digitOf res 0 (by decide)
  rw [denotes_quad, h12, h8, h4, h0]
  omega

theorem denotes_lowDigits (res : UInt16) :
    denotes 16 digitValue [digitOf res 4, digitOf res 0] = res.toNat % 256 := by
  have h4 : digitValue (digitOf res 4) = res.toNat / 16 % 16 :=
    digitValue_digitOf res 4 (by decide)
  have h0 : digitValue (digitOf res 0) = res.toNat / 1 % 16 :=
    digitValue_digitOf res 0 (by decide)
  rw [denotes_pair, h4, h0]
  omega

/-- A field of a header before the size of a record. -/
theorem digitsAt_fileHeader (a : FileAttributes) {i n : ℕ} (h : i + n ≤ 12) :
    digitsAt (fileHeader a) i n =
      digitsAt (setShort (setShort (List.replicate 30 0x30) 4 a.fileSize) 8 a.fileID) i n := by
  rw [fileHeader]
  split_ifs
  · rw [digitsAt_set_of_disjoint (by omega), digitsAt_set_of_disjoint (by omega),
      digitsAt_setFileType _ (by omega) (by omega)]
  · rw [digitsAt_setFileType _ (by omega) (by omega)]

theorem digitsAt_recordSize {header : List UInt8} (c d : UInt8) (h : header.length = 30) :
    digitsAt ((header.set 28 c).set 29 d) 28 2 = [c, d] := by
  obtain ⟨pre, post, rfl, hpre⟩ : ∃ pre post, header = pre ++ post ∧ pre.length = 28 :=
    ⟨header.take 28, header.drop 28, (List.take_append_drop 28 header).symm,
      List.length_take_of_le (by omega)⟩
  rw [List.length_append] at h
  match post with
  | [] | [_] => simp at h; omega
  | _ :: _ :: post => simp [digitsAt, hpre]

theorem headerSays_iff (a : FileAttributes) :
    HeaderSays a ↔ (a.hasRecords = true → a.recordSize.toNat < 256) := by
  have hsize : denotes 16 digitValue (digitsAt (fileHeader a) 4 4) = a.fileSize.toNat := by
    rw [digitsAt_fileHeader a (by decide), digitsAt_setShort_of_disjoint (by decide),
      digitsAt_setShort _ (by decide), denotes_digitOf]
  have hid : denotes 16 digitValue (digitsAt (fileHeader a) 8 4) = a.fileID.toNat := by
    have hlength : (setShort (List.replicate 30 0x30) 4 a.fileSize).length = 30 := by
      simp [setShort]
    rw [digitsAt_fileHeader a (by decide), digitsAt_setShort _ (by omega), denotes_digitOf]
  have hrecord (hrecords : a.hasRecords = true) :
      denotes 16 digitValue (digitsAt (fileHeader a) 28 2) = a.recordSize.toNat % 256 := by
    have hlength : (setFileType (setShort (setShort (List.replicate 30 0x30) 4 a.fileSize) 8
        a.fileID) a.fileType).length = 30 := by
      have h := length_fileHeader a
      rwa [fileHeader, if_pos hrecords, List.length_set, List.length_set] at h
    rw [fileHeader, if_pos hrecords, digitsAt_recordSize _ _ hlength, denotes_lowDigits]
  constructor
  · intro h hrecords
    have hsays := h.recordSize hrecords
    rw [hrecord hrecords] at hsays
    omega
  · intro h
    refine ⟨length_fileHeader a, hsize, hid, fun hrecords => ?_⟩
    rw [hrecord hrecords]
    exact Nat.mod_eq_of_lt (h hrecords)

end HeaderValues

section Calls

variable {w : SimIoWorld} {r : RilSimIo}

/-- A converted string that fits is what its array begins with. -/
theorem putConverted_some {α : Type} {size : ℕ} (zero : α) {xs : List α}
    (h : xs.length ≤ size) :
    ∃ array, putConverted size zero (some xs) = some array ∧
      ∀ i < xs.length, array i = xs.getD i zero := by
  refine ⟨_, if_pos h, fun i hi => ?_⟩
  have hstore := store_add (d := fun _ => zero) (i := 0) hi
  rw [Nat.zero_add] at hstore
  rw [hstore, List.getD_eq_getElem _ _ hi]

theorem fileIndex_spec
    (h : ∀ path ∈ r.path, path.chars.length % 4 = 0 ∧ path.chars.length / 2 < 256) :
    ∃ index, fileIndex r = some index ∧ ∀ path ∈ r.path, CarriesPath index path := by
  cases hpath : r.path with
  | none =>
    refine ⟨⟨r.fileid.toUInt16, 0, fun _ => 0⟩, ?_, fun path hmem => ?_⟩
    · rw [fileIndex, hpath]
    · cases hmem
  | some path =>
    obtain ⟨hfour, hbyte⟩ := h path hpath
    have hconvert : stringToShort path.chars = some (shortQuads path.chars) :=
      if_neg fun hne => hne hfour
    have hlength := length_shortQuads path.chars
    have hfits : (shortQuads path.chars).length ≤ maxPathLength := by
      rw [hlength, maxPathLength]
      omega
    obtain ⟨words, hwords, helements⟩ := putConverted_some 0 hfits
    refine ⟨⟨r.fileid.toUInt16, UInt8.ofNat (path.chars.length / 2), words⟩, ?_,
      fun path' hmem => ?_⟩
    · rw [fileIndex, hpath]
      simp only [hconvert, hwords, Option.map_some]
    · obtain rfl := Option.some.inj hmem
      refine ⟨?_, fun i hi => ?_⟩
      · dsimp only
        rw [UInt8.toNat_ofNat_of_lt' hbyte]
        omega
      · dsimp only
        rw [helements i (by rw [hlength]; exact hi)]
        exact getD_shortQuads path.hex hi

theorem writeInfo_spec {size : ℕ} (hsize : size < 65536)
    (h : ∀ data ∈ r.data, data.chars.length % 2 = 0 ∧ data.chars.length / 2 ≤ size) :
    ∃ write, writeInfo r size = some write ∧ ∀ data ∈ r.data, CarriesData write data := by
  cases hdata : r.data with
  | none =>
    refine ⟨⟨0, 0, fun _ => 0⟩, ?_, fun data hmem => ?_⟩
    · rw [writeInfo, hdata]
    · cases hmem
  | some data =>
    obtain ⟨heven, hfits⟩ := h data hdata
    have hconvert : stringToBinary data.chars = some (bytePairs data.chars) :=
      if_neg (by omega)
    have hlength := length_bytePairs data.chars
    have hlength' : (bytePairs data.chars).length ≤ size := by rwa [hlength]
    obtain ⟨bytes, hbytes, helements⟩ := putConverted_some 0 hlength'
    refine ⟨⟨r.p1.toUInt16, UInt16.ofNat (data.chars.length / 2), bytes⟩, ?_, fun data' hmem => ?_⟩
    · rw [writeInfo, hdata]
      simp only [hconvert, hbytes, Option.map_some]
    · obtain rfl := Option.some.inj hmem
      refine ⟨?_, fun i hi => ?_⟩
      · dsimp only
        rw [UInt16.toNat_ofNat_of_lt' (Nat.lt_of_le_of_lt hfits hsize)]
        omega
      · dsimp only
        rw [helements i (by rw [hlength]; exact hi)]
        exact getD_bytePairs data.hex hi

/-- The commands that the SDK is called for. -/
theorem command_cases {command : UInt32} (h : hasPath command = true) :
    command = simGetResponse ∨ command = simReadRecord ∨ command = simWriteRecord ∨
      command = simReadBinary ∨ command = simWriteBinary := by
  simpa [hasPath, or_assoc] using h

theorem stringsFit_of_not_hasPath (h : ¬ hasPath r.command = true) : StringsFit r where
  path hpath := absurd hpath h
  data size hsize := by
    have hrecord : r.command ≠ simWriteRecord := by
      intro hcommand
      exact h (by rw [hcommand]; rfl)
    have hbinary : r.command ≠ simWriteBinary := by
      intro hcommand
      exact h (by rw [hcommand]; rfl)
    rw [dataSize, if_neg hrecord, if_neg hbinary] at hsize
    cases hsize

theorem simIoCommand_of_not_hasPath (h : ¬ hasPath r.command = true) :
    ∃ code, simIoCommand w r = some (code, [], []) := by
  rw [simIoCommand]
  simp only [hasPath, Bool.or_eq_true, decide_eq_true_eq, not_or] at h
  obtain ⟨⟨⟨⟨hresponse, hread⟩, hwrite⟩, hreadBinary⟩, hwriteBinary⟩ := h
  rw [if_neg hresponse, if_neg hread, if_neg hwrite, if_neg hreadBinary, if_neg hwriteBinary]
  exact ⟨_, rfl⟩

/-- What the SDK is called with is what the strings say, if they fit. -/
theorem simIoCommand_of_hasPath (w : SimIoWorld) (h : hasPath r.command = true) :
    ∃ req answer, simIoCommand w r = callSdk w req answer ∧
      (StringsFit r → ∃ built, req = some built ∧ Carries r built) := by
  have hindex (hfit : StringsFit r) := fileIndex_spec (hfit.path h)
  have hnothing (req : UimReq) (hwrite : req.write? = none) (hcarried : ∀ path ∈ r.path,
      CarriesPath req.fileIndex path) : Carries r req :=
    ⟨hcarried, fun write hmem => by rw [hwrite] at hmem; cases hmem⟩
  rcases command_cases h with hcommand | hcommand | hcommand | hcommand | hcommand
  · have heq : simIoCommand w r = getFileAttributesQMI w r := by
      rw [simIoCommand, if_pos hcommand]
    refine ⟨_, _, heq, fun hfit => ?_⟩
    obtain ⟨index, hindex, hcarried⟩ := hindex hfit
    exact ⟨.getFileAttributes w.sessionType index, by rw [hindex]; rfl,
      hnothing _ rfl hcarried⟩
  · have heq : simIoCommand w r = readRecordQMI w r := by
      rw [simIoCommand, hcommand, if_neg (by decide), if_pos rfl]
    refine ⟨_, _, heq, fun hfit => ?_⟩
    obtain ⟨index, hindex, hcarried⟩ := hindex hfit
    exact ⟨.readRecord w.sessionType index r.p1.toUInt16 r.p3.toUInt16, by rw [hindex]; rfl,
      hnothing _ rfl hcarried⟩
  · have heq : simIoCommand w r = updateRecordQMI w r := by
      rw [simIoCommand, hcommand, if_neg (by decide), if_neg (by decide), if_pos rfl]
    refine ⟨_, _, heq, fun hfit => ?_⟩
    obtain ⟨index, hindex, hcarried⟩ := hindex hfit
    have hdata := hfit.data maxDescriptionLength (by rw [hcommand]; rfl)
    obtain ⟨write, hwrite, hwritten⟩ := writeInfo_spec (by decide) hdata
    refine ⟨.writeRecord w.sessionType index write,
      by rw [hindex, Option.bind_some, hwrite]; rfl, hcarried, fun write' hmem => ?_⟩
    obtain rfl := Option.some.inj hmem
    exact hwritten
  · have heq : simIoCommand w r = readBinaryQMI w r := by
      rw [simIoCommand, hcommand, if_neg (by decide), if_neg (by decide), if_neg (by decide),
        if_pos rfl]
    refine ⟨_, _, heq, fun hfit => ?_⟩
    obtain ⟨index, hindex, hcarried⟩ := hindex hfit
    exact ⟨.readTransparent w.sessionType index r.p1.toUInt16 r.p3.toUInt16,
      by rw [hindex]; rfl, hnothing _ rfl hcarried⟩
  · have heq : simIoCommand w r = updateBinaryQMI w r := by
      rw [simIoCommand, hcommand, if_neg (by decide), if_neg (by decide), if_neg (by decide),
        if_neg (by decide), if_pos rfl]
    refine ⟨_, _, heq, fun hfit => ?_⟩
    obtain ⟨index, hindex, hcarried⟩ := hindex hfit
    have hdata := hfit.data maxContentLength (by rw [hcommand]; rfl)
    obtain ⟨write, hwrite, hwritten⟩ := writeInfo_spec (by decide) hdata
    refine ⟨.writeTransparent w.sessionType index write,
      by rw [hindex, Option.bind_some, hwrite]; rfl, hcarried, fun write' hmem => ?_⟩
    obtain rfl := Option.some.inj hmem
    exact hwritten

theorem simIoDone_ne_uim (nRet : SdkCode) (simResponse : List UInt8) (req : UimReq) :
    simIoDone nRet simResponse ≠ .uim req := by
  rw [simIoDone]
  split_ifs <;> exact fun h => SimIoAction.noConfusion h

/-- A request that is not turned away by its path or its PIN2. -/
theorem requestSIM_IOQMI_of_passed (hpath : r.path ≠ none)
    (hpin : ¬ (r.pin2.isSome ∧ w.pin2 ≠ .none)) :
    requestSIM_IOQMI w r =
      (simIoCommand w r).map fun r => r.2.1 ++ [simIoDone r.1 r.2.2] := by
  rw [requestSIM_IOQMI, if_neg fun h => hpath (Option.isNone_iff_eq_none.mp h), if_neg hpin]

theorem requestSIM_IOQMI_of_turnedAway (h : r.path = none ∨ (r.pin2.isSome ∧ w.pin2 ≠ .none)) :
    requestSIM_IOQMI w r = some [.error] := by
  rw [requestSIM_IOQMI]
  rcases h with hpath | hpin
  · rw [if_pos (Option.isNone_iff_eq_none.mpr hpath)]
  · rw [if_pos hpin, ite_self]

/-- What is done for a request when the card status is not known, and when it is. -/
theorem requestSIM_IOQMI_cases (hpath : r.path ≠ none)
    (hpin : ¬ (r.pin2.isSome ∧ w.pin2 ≠ .none)) (hcommand : hasPath r.command = true) :
    (w.cardStatus ≠ .none → requestSIM_IOQMI w r = some [simIoDone w.cardStatus []]) ∧
      (w.cardStatus = .none → ∃ req : Option UimReq,
        (StringsFit r → ∃ built, req = some built ∧ Carries r built) ∧
        ∃ done : UimReq → SimIoAction, (∀ built req', done built ≠ .uim req') ∧
          requestSIM_IOQMI w r = req.map fun built => [.uim built, done built]) := by
  obtain ⟨req, answer, heq, hreq⟩ := simIoCommand_of_hasPath w hcommand
  rw [requestSIM_IOQMI_of_passed hpath hpin, heq, callSdk]
  constructor
  · intro hcard
    rw [if_pos hcard]
    rfl
  · intro hcard
    rw [if_neg fun h => h hcard]
    refine ⟨req, hreq, fun built => simIoDone (answer (w.sdk built)).1 (answer (w.sdk built)).2,
      fun built req' => simIoDone_ne_uim _ _ req', ?_⟩
    rw [Option.map_map]
    rfl

theorem requestSIM_IOQMI_of_rejected (hcommand : hasPath r.command = true)
    (h : RejectedBefore w r) : requestSIM_IOQMI w r = some [.error] := by
  by_cases hturned : r.path = none ∨ (r.pin2.isSome ∧ w.pin2 ≠ .none)
  · exact requestSIM_IOQMI_of_turnedAway hturned
  · obtain ⟨hpath, hpin⟩ := not_or.mp hturned
    have hcard : w.cardStatus = .simFileNotFound := (h.resolve_left hpath).resolve_left hpin
    have hne : w.cardStatus ≠ .none := by
      rw [hcard]
      exact fun h => SdkCode.noConfusion h
    rw [(requestSIM_IOQMI_cases hpath hpin hcommand).1 hne, simIoDone, if_neg hne, if_pos hcard]

theorem converts_of_stringsFit (hfit : StringsFit r) : Converts w r where
  refused h := absurd hfit h
  called _ hrejected hcommand hcard := by
    have hpath : r.path ≠ none := fun h => hrejected (.inl h)
    have hpin : ¬ (r.pin2.isSome ∧ w.pin2 ≠ .none) := fun h => hrejected (.inr (.inl h))
    obtain ⟨req, hreq, done, -, heq⟩ := (requestSIM_IOQMI_cases hpath hpin hcommand).2 hcard
    obtain ⟨built, rfl, -⟩ := hreq hfit
    exact ⟨built, [done built], heq⟩
  exact actions req heq hmem := by
    by_cases hturned : r.path = none ∨ (r.pin2.isSome ∧ w.pin2 ≠ .none)
    · rw [requestSIM_IOQMI_of_turnedAway hturned] at heq
      obtain rfl := Option.some.inj heq
      cases List.mem_singleton.mp hmem
    · obtain ⟨hpath, hpin⟩ := not_or.mp hturned
      by_cases hcommand : hasPath r.command = true
      · obtain ⟨hunknown, hknown⟩ := requestSIM_IOQMI_cases hpath hpin hcommand
        by_cases hcard : w.cardStatus = .none
        · obtain ⟨built?, hreq, done, hdone, hdoes⟩ := hknown hcard
          obtain ⟨built, rfl, hcarries⟩ := hreq hfit
          obtain rfl := Option.some.inj (hdoes.symm.trans heq)
          rcases List.mem_cons.mp hmem with hhead | htail
          · cases hhead
            exact hcarries
          · exact absurd (List.mem_singleton.mp htail).symm (hdone _ _)
        · obtain rfl := Option.some.inj ((hunknown hcard).symm.trans heq)
          exact absurd (List.mem_singleton.mp hmem).symm (simIoDone_ne_uim _ _ _)
      · obtain ⟨code, hcode⟩ := simIoCommand_of_not_hasPath (w := w) hcommand
        rw [requestSIM_IOQMI_of_passed hpath hpin, hcode] at heq
        obtain rfl := Option.some.inj heq
        exact absurd (List.mem_singleton.mp hmem).symm (simIoDone_ne_uim _ _ _)

theorem simIoConverts_iff (w : SimIoWorld) (r : RilSimIo) :
    Converts w r ↔ StringsFit r ∨ RejectedBefore w r := by
  constructor
  · intro h
    by_contra hneither
    obtain ⟨hfit, hrejected⟩ := not_or.mp hneither
    have hrefused := h.refused hfit
    have hpath : r.path ≠ none := fun hnone => hrejected (.inl hnone)
    have hpin : ¬ (r.pin2.isSome ∧ w.pin2 ≠ .none) := fun hpin => hrejected (.inr (.inl hpin))
    have hcommand : hasPath r.command = true := by
      by_contra hcommand
      exact hfit (stringsFit_of_not_hasPath hcommand)
    obtain ⟨hunknown, hknown⟩ := requestSIM_IOQMI_cases hpath hpin hcommand
    by_cases hcard : w.cardStatus = .none
    · obtain ⟨req, -, done, -, hdoes⟩ := hknown hcard
      rw [hdoes] at hrefused
      cases req with
      | none => cases hrefused
      | some built => cases hrefused
    · have hother : w.cardStatus ≠ .simFileNotFound := fun h => hrejected (.inr (.inr h))
      rw [hunknown hcard, simIoDone, if_neg hcard, if_neg hother] at hrefused
      cases hrefused
  · intro h
    by_cases hfit : StringsFit r
    · exact converts_of_stringsFit hfit
    · have hcommand : hasPath r.command = true := by
        by_contra hcommand
        exact hfit (stringsFit_of_not_hasPath hcommand)
      have herror := requestSIM_IOQMI_of_rejected hcommand (h.resolve_left hfit)
      refine ⟨fun actions req heq hmem => ?_, fun hfits => absurd hfits hfit, fun _ => herror⟩
      obtain rfl := Option.some.inj (herror.symm.trans heq)
      cases List.mem_singleton.mp hmem

/-- Reading bytes back from their digits is always right. The header is if the file has no records
or their size is one byte, and the request is if its strings have the right lengths and fit, or it
is turned away before. -/
theorem simIoConverted_iff (bytes : List UInt8) (a : FileAttributes) (w : SimIoWorld)
    (r : RilSimIo) :
    SimIoConverted bytes a w r ↔
      (a.hasRecords = true → a.recordSize.toNat < 256) ∧ (StringsFit r ∨ RejectedBefore w r) := by
  rw [← headerSays_iff, ← simIoConverts_iff]
  constructor
  · intro h
    exact ⟨h.header, h.request⟩
  · intro h
    exact ⟨stringToBinary_binaryToString bytes, h.1, h.2⟩

/-- A card with a file of records of 300 bytes, which lets everything be written. -/
def openWorld : SimIoWorld where
  pin2 := .none
  cardStatus := .none
  sessionType := 0
  sdk _ := ⟨.none, ⟨3000, 0x6F3C, simFileLinearFixed, 300⟩, []⟩
  isSl9090 := false
  stack := .none

/-- Write three digits to the first record of a file. -/
def writeThreeDigits : RilSimIo where
  command := simWriteRecord
  fileid := 0x6F3C
  path := some ⟨[], List.forall_mem_nil _⟩
  p1 := 1
  p3 := 1
  data := some ⟨[0x41, 0x42, 0x43], isHex_of_all rfl⟩
  pin2 := none

/-- Read a record of a file with a path of six digits. -/
def readSixDigits : RilSimIo where
  command := simReadRecord
  fileid := 0x6F3C
  path := some ⟨[0x37, 0x46, 0x31, 0x30, 0x35, 0x46], isHex_of_all rfl⟩
  p1 := 1
  p3 := 28
  data := none
  pin2 := none

theorem not_rejectedBefore_openWorld {r : RilSimIo} (hpath : r.path ≠ none) (hpin : r.pin2 = none) :
    ¬ RejectedBefore openWorld r := by
  rintro (hnone | ⟨hsome, -⟩ | hcard)
  · exact hpath hnone
  · rw [hpin] at hsome
    exact Bool.noConfusion hsome
  · exact SdkCode.noConfusion hcard

/-- Data of three digits is written as one byte, zero; a path of six digits is three bytes of zeros;
and of the size 300 of a record the header says 44. -/
theorem not_simIoConverted :
    ¬ Converts openWorld writeThreeDigits ∧ ¬ Converts openWorld readSixDigits ∧
      ¬ HeaderSays ⟨3000, 0x6F3C, simFileLinearFixed, 300⟩ := by
  refine ⟨fun h => ?_, fun h => ?_, fun h => ?_⟩
  · have hrejected : ¬ RejectedBefore openWorld writeThreeDigits :=
      not_rejectedBefore_openWorld (Option.some_ne_none _) rfl
    have hfit := ((simIoConverts_iff _ _).mp h).resolve_right hrejected
    exact absurd (hfit.data maxDescriptionLength rfl _ rfl).1 (by decide)
  · have hrejected : ¬ RejectedBefore openWorld readSixDigits :=
      not_rejectedBefore_openWorld (Option.some_ne_none _) rfl
    have hfit := ((simIoConverts_iff _ _).mp h).resolve_right hrejected
    exact absurd (hfit.path rfl _ rfl).1 (by decide)
  · exact absurd ((headerSays_iff _).mp h rfl) (by decide)

end Calls

end Ril

end SierraSdk
