import SierraSdk.Sdk.FirmwareTask
import Mathlib.Algebra.Order.Group.Nat

/-!
# The image that a firmware download sends

`Transfer` reads the outputs of the task: the image that was opened last with its chunk size and
chunk count, and the payloads of the start request and of the continue requests since then. The
start request carries the first chunk. `TransferStep` says what an output may be: the start
request and each continue request carry the next bytes of the image, and the end request comes
when all of it was sent, with its checksum.

`image_transferred` holds for the requests with a chunk size that fits a transmit buffer and a
chunk count that fits its counter (`Admitted`); neither is checked.
-/

namespace SierraSdk

namespace Sdk

open Machine

section Transfer

/-- What the outputs say about the transfer of an image. -/
structure Transfer where
  image : List UInt8
  chunksize : ℕ
  count : ℕ
  start : List (List UInt8)
  conts : List (List UInt8)

/-- The chunks that were sent. -/
def Transfer.chunks (x : Transfer) : List (List UInt8) := x.start ++ x.conts

/-- Read an output. -/
def Transfer.read (x : Transfer) : FwOut → Transfer
  | .imageInit image ammaxchunksize hpchunks2send =>
      ⟨image, ammaxchunksize.toNat, hpchunks2send.toNat, [], []⟩
  | .hpTxPacket msgdesignator _ payload =>
      if msgdesignator = hpDlStrtReq then { x with start := x.start ++ [payload] }
      else if msgdesignator = hpDlContReq then { x with conts := x.conts ++ [payload] }
      else x
  | _ => x

/-- No image. -/
def noTransfer : Transfer := ⟨[], 0, 0, [], []⟩

/-- What a sequence of outputs says. -/
def transfer (out : List FwOut) : Transfer := out.foldl Transfer.read noTransfer

/-- The number of chunks of `size` bytes that `length` bytes take. -/
def chunkCount (length size : ℕ) : ℕ := (length + size - 1) / size

/-- The sum of bytes, modulo `2 ^ 16`. -/
def byteSum (bytes : List UInt8) : UInt16 := UInt16.ofNat (bytes.map UInt8.toNat).sum

/-- A payload that carries the next bytes of the image: some, no more than the chunk size, and no
more than fit a transmit buffer behind the header. -/
structure NextChunk (x : Transfer) (payload : List UInt8) : Prop where
  ne_nil : payload ≠ []
  length_le : payload.length ≤ x.chunksize
  fits : hpHdrLength + payload.length ≤ hdTxBufSize
  next : ∃ rest, x.image = x.chunks.flatten ++ payload ++ rest

/-- The whole image was sent, in a start request and one continue request less than there are
chunks, and `payload` is its checksum. -/
structure Complete (x : Transfer) (payload : List UInt8) : Prop where
  flatten_eq : x.chunks.flatten = x.image
  start_eq : x.start.length = 1
  conts_eq : x.conts.length + 1 = x.count
  payload_eq : payload = piput16 (byteSum x.image)

/-- What an output may be where it stands. -/
def TransferStep (x : Transfer) : FwOut → Prop
  | .imageInit image ammaxchunksize hpchunks2send =>
      ammaxchunksize ≠ 0 ∧
        hpchunks2send.toNat = chunkCount image.length ammaxchunksize.toNat
  | .hpTxPacket msgdesignator _ payload =>
      (msgdesignator = hpDlStrtReq → x.chunks = [] ∧ NextChunk x payload) ∧
        (msgdesignator = hpDlContReq → x.start.length = 1 ∧ NextChunk x payload) ∧
        (msgdesignator = hpDlEndReq → Complete x payload)
  | _ => True

/-- The requests whose image and chunk size fit the counters and buffers. -/
def Admitted (t : Option FwTask) : FwInput → Prop
  | .take os =>
      ∀ s packet rest, t = some ⟨s, .fwdwnreq packet :: rest⟩ →
        ∀ image, os.files (amparsefwdwnrequest packet).amfilename = some image →
          0 < (amparsefwdwnrequest packet).ammaxchunksize.toNat ∧
            hpHdrLength + (amparsefwdwnrequest packet).ammaxchunksize.toNat ≤ hdTxBufSize ∧
            image.length ≤ 65535 * (amparsefwdwnrequest packet).ammaxchunksize.toNat
  | _ => True

end Transfer

section Arithmetic

theorem chunkCount_of_pos {length size : ℕ} (hlength : 0 < length) (hsize : 0 < size) :
    chunkCount length size = (length - 1) / size + 1 := by
  have h : length + size - 1 = length - 1 + size := by omega
  rw [chunkCount, h, Nat.add_div_right _ hsize]

theorem chunkCount_zero {size : ℕ} (hsize : 0 < size) : chunkCount 0 size = 0 :=
  Nat.div_eq_of_lt (by omega)

/-- One chunk less is left after one was taken. -/
theorem chunkCount_sub {length size : ℕ} (hlength : 0 < length) (hsize : 0 < size) :
    chunkCount length size = chunkCount (length - size) size + 1 := by
  rw [chunkCount_of_pos hlength hsize]
  rcases Nat.lt_or_ge size length with h | h
  · have hsub : length - 1 = length - size - 1 + size := by omega
    rw [chunkCount_of_pos (by omega) hsize, hsub, Nat.add_div_right _ hsize]
  · rw [Nat.sub_eq_zero_of_le h, chunkCount_zero hsize, Nat.div_eq_of_lt (by omega)]

theorem chunkCount_le {length size n : ℕ} (hsize : 0 < size) (h : length ≤ n * size) :
    chunkCount length size ≤ n := by
  rw [chunkCount, ← Nat.lt_succ_iff, Nat.div_lt_iff_lt_mul hsize, Nat.succ_mul]
  omega

/-- The chunk count is not truncated. -/
theorem toNat_imageChunks {length : ℕ} {size : UInt32} (hsize : 0 < size.toNat)
    (hfits : hpHdrLength + size.toNat ≤ hdTxBufSize) (hlength : length ≤ 65535 * size.toNat) :
    (imageChunks (UInt32.ofNat length) size).toNat = chunkCount length size.toNat := by
  have hle := chunkCount_le hsize hlength
  rw [hpHdrLength, hdTxBufSize] at hfits
  have hlen : (UInt32.ofNat length).toNat = length :=
    UInt32.toNat_ofNat_of_lt' (by rw [UInt32.size]; omega)
  have hsum : (UInt32.ofNat length + size).toNat = length + size.toNat := by
    rw [UInt32.toNat_add, hlen, Nat.mod_eq_of_lt (by omega)]
  have hone : 1 ≤ UInt32.ofNat length + size := by
    rw [UInt32.le_iff_toNat_le, hsum, UInt32.toNat_one]
    omega
  have hsub : (UInt32.ofNat length + size - 1).toNat = length + size.toNat - 1 := by
    rw [UInt32.toNat_sub_of_le _ _ hone, hsum, UInt32.toNat_one]
  rw [imageChunks, UInt32.toNat_toUInt16, UInt32.toNat_div, hsub, ← chunkCount,
    Nat.mod_eq_of_lt (by omega)]

theorem foldl_checksum (bytes : List UInt8) (sum : UInt16) :
    bytes.foldl (fun sum b => sum + b.toUInt16) sum = sum + byteSum bytes := by
  induction bytes generalizing sum with
  | nil => simp [byteSum]
  | cons b bytes ih =>
      have hb : b.toUInt16 = UInt16.ofNat b.toNat := UInt16.toNat.inj (by simp)
      rw [List.foldl_cons, ih, byteSum, byteSum, List.map_cons, List.sum_cons,
        UInt16.ofNat_add, hb, UInt16.add_assoc]

theorem byteSum_append (bytes bytes' : List UInt8) :
    byteSum (bytes ++ bytes') = byteSum bytes + byteSum bytes' := by
  rw [byteSum, List.map_append, List.sum_append, UInt16.ofNat_add, byteSum, byteSum]

end Arithmetic

section Sending

variable {s s' : HpBlk} {x : Transfer}

/-- The image is sent up to `rest`. -/
structure Sending (s : HpBlk) (x : Transfer) (rest : List UInt8) : Prop where
  hpfp_eq : s.hpfp = some rest
  image_eq : x.image = x.chunks.flatten ++ rest
  checksum_eq : s.hpchecksum = byteSum x.chunks.flatten
  left_eq : s.hpchunks2send.toNat = chunkCount rest.length x.chunksize
  size_eq : s.hpparms.ammaxchunksize.toNat = x.chunksize
  size_pos : 0 < x.chunksize
  fits : hpHdrLength + x.chunksize ≤ hdTxBufSize
  count_eq : x.chunks.length + s.hpchunks2send.toNat = x.count

/-- Nothing was sent of an image that is not empty. -/
def Ready (s : HpBlk) (x : Transfer) : Prop :=
  x.start = [] ∧ x.conts = [] ∧ ∃ rest, Sending s x rest ∧ rest ≠ []

/-- The start request was sent. -/
def Begun (s : HpBlk) (x : Transfer) : Prop :=
  x.start.length = 1 ∧ ∃ rest, Sending s x rest

/-- What the control block and the outputs have to do with each other, by the state. -/
def FwInv (s : HpBlk) (x : Transfer) : Prop :=
  (s.amfwdwnstate = .softReset → Ready s x) ∧
    (s.amfwdwnstate = .startReq ∨ s.amfwdwnstate = .dwn → Begun s x)

/-- The same of a result that is no trap. -/
def FwRel : Option HpBlk → Transfer → Prop
  | none, _ => False
  | some s, x => FwInv s x

/-- A chunk was read into a payload that goes behind the chunks that were sent before. -/
theorem Sending.hpreadchunk (os : OsAnswer) {rest : List UInt8} (h : Sending s x rest)
    (hrest : rest ≠ []) :
    Sdk.hpreadchunk os s = none ∨
      ∃ s' payload, Sdk.hpreadchunk os s = some (s', payload) ∧ NextChunk x payload ∧
        ∀ x' : Transfer, x'.image = x.image → x'.chunksize = x.chunksize →
          x'.count = x.count → x'.chunks = x.chunks ++ [payload] →
          Sending s' x' (rest.drop x.chunksize) := by
  have hlength : 0 < rest.length := List.length_pos_iff.mpr hrest
  rw [Sdk.hpreadchunk]
  simp only [h.hpfp_eq, h.size_eq]
  by_cases hread : os.readok = true
  · rw [if_pos hread]
    have hfits := h.fits
    rw [hpHdrLength, hdTxBufSize] at hfits
    -- a chunk is too short for the length field to lose anything
    have hshort : (rest.take x.chunksize).length % 2 ^ 16 = (rest.take x.chunksize).length := by
      apply Nat.mod_eq_of_lt
      rw [List.length_take]
      omega
    have hsplit : rest = rest.take x.chunksize ++ rest.drop x.chunksize :=
      (List.take_append_drop _ _).symm
    rw [hshort, List.take_length]
    refine Or.inr ⟨_, _, rfl, ⟨?_, ?_, ?_, rest.drop x.chunksize, ?_⟩, ?_⟩
    · rw [ne_eq, List.take_eq_nil_iff, not_or]
      exact ⟨h.size_pos.ne', hrest⟩
    · exact List.length_take_le _ _
    · exact (Nat.add_le_add_left (List.length_take_le _ _) _).trans h.fits
    · rw [List.append_assoc, ← hsplit, ← h.image_eq]
    · intro x' himage hsize hcount hchunks
      have hone : s.hpchunks2send.toNat ≠ 0 := by
        rw [h.left_eq, chunkCount_sub hlength h.size_pos]
        exact Nat.succ_ne_zero _
      have hleft : (s.hpchunks2send - 1).toNat = s.hpchunks2send.toNat - 1 := by
        rw [UInt16.toNat_sub_of_le, UInt16.toNat_one]
        rw [UInt16.le_iff_toNat_le, UInt16.toNat_one]
        omega
      have hflat : x'.chunks.flatten = x.chunks.flatten ++ rest.take x.chunksize := by
        rw [hchunks, List.flatten_append, List.flatten_singleton]
      exact
        { hpfp_eq := rfl
          image_eq := by rw [himage, hflat, List.append_assoc, ← hsplit, ← h.image_eq]
          checksum_eq := by
            rw [hflat, byteSum_append, ← h.checksum_eq]
            exact foldl_checksum _ _
          left_eq := by
            show (s.hpchunks2send - 1).toNat = _
            rw [hleft, h.left_eq, chunkCount_sub hlength h.size_pos, hsize, List.length_drop]
            rfl
          size_eq := h.size_eq.trans hsize.symm
          size_pos := hsize ▸ h.size_pos
          fits := hsize ▸ h.fits
          count_eq := by
            show x'.chunks.length + (s.hpchunks2send - 1).toNat = _
            rw [hleft, hchunks, List.length_append, List.length_singleton, hcount, ← h.count_eq]
            omega }
  · exact Or.inl (if_neg hread)

end Sending

section Tracking

variable {os : OsAnswer} {s s' : HpBlk} {x : Transfer}

theorem Sending.frame {rest : List UInt8} (h : Sending s x rest) (hfp : s'.hpfp = s.hpfp)
    (hsum : s'.hpchecksum = s.hpchecksum) (hleft : s'.hpchunks2send = s.hpchunks2send)
    (hparms : s'.hpparms = s.hpparms) : Sending s' x rest :=
  { h with
    hpfp_eq := hfp.trans h.hpfp_eq
    checksum_eq := hsum.trans h.checksum_eq
    left_eq := hleft ▸ h.left_eq
    size_eq := hparms ▸ h.size_eq
    count_eq := hleft ▸ h.count_eq }

theorem Ready.frame (h : Ready s x) (hfp : s'.hpfp = s.hpfp)
    (hsum : s'.hpchecksum = s.hpchecksum) (hleft : s'.hpchunks2send = s.hpchunks2send)
    (hparms : s'.hpparms = s.hpparms) : Ready s' x := by
  obtain ⟨hstart, hconts, rest, hsend, hrest⟩ := h
  exact ⟨hstart, hconts, rest, hsend.frame hfp hsum hleft hparms, hrest⟩

theorem Begun.frame (h : Begun s x) (hfp : s'.hpfp = s.hpfp)
    (hsum : s'.hpchecksum = s.hpchecksum) (hleft : s'.hpchunks2send = s.hpchunks2send)
    (hparms : s'.hpparms = s.hpparms) : Begun s' x := by
  obtain ⟨hstart, rest, hsend⟩ := h
  exact ⟨hstart, rest, hsend.frame hfp hsum hleft hparms⟩

theorem fwInv_of_state (state : FwState) (hstate : s.amfwdwnstate = state)
    (hreset : state ≠ .softReset) (hstart : state ≠ .startReq) (hdwn : state ≠ .dwn) :
    FwInv s x :=
  ⟨fun h => absurd (hstate.symm.trans h) hreset,
    fun h => h.elim (fun h => absurd (hstate.symm.trans h) hstart)
      fun h => absurd (hstate.symm.trans h) hdwn⟩

/-- The monitor of a transfer. -/
noncomputable def transferMonitor : Transfer → FwOut → Option Transfer :=
  checked Transfer.read TransferStep

/-- Outputs that carry no part of an image. -/
def FwOut.Quiet (o : FwOut) : Prop := ∀ x, transferMonitor x o = some x

theorem quiet_notify (c : Option ℕ) (state : FwState) : (FwOut.fwdwnnotify c state).Quiet :=
  fun _ => checked_of trivial

theorem quiet_resp (c : ℕ) (resultcode : FwResult) (errorstring : List UInt8) :
    (FwOut.fwdwnresp c resultcode errorstring).Quiet := fun _ => checked_of trivial

theorem quiet_tx {msgdesignator : UInt32} (hstart : msgdesignator ≠ hpDlStrtReq)
    (hcont : msgdesignator ≠ hpDlContReq) (hend : msgdesignator ≠ hpDlEndReq)
    (msgparm : UInt8) (payload : List UInt8) :
    (FwOut.hpTxPacket msgdesignator msgparm payload).Quiet := by
  intro x
  have hread : x.read (.hpTxPacket msgdesignator msgparm payload) = x := by
    rw [Transfer.read, if_neg hstart, if_neg hcont]
  refine (checked_of ?_).trans (congrArg some hread)
  exact ⟨fun h => absurd h hstart, fun h => absurd h hcont, fun h => absurd h hend⟩

theorem tracks_quiet {o : FwOut} (ho : o.Quiet) (hs : FwInv s x) :
    Tracks transferMonitor FwRel x (some s, [o]) :=
  tracks_ignored hs fun _ ho' => List.mem_singleton.mp ho' ▸ ho x

theorem tracks_hpamfwdwnresp (resultcode : FwResult) (errorstring : List UInt8) :
    Tracks transferMonitor FwRel x (hpamfwdwnresp resultcode errorstring s) :=
  tracks_quiet (quiet_resp _ _ _)
    (fwInv_of_state .done rfl (by decide) (by decide) (by decide))

/-- Entering a state is reported, which is no part of the transfer. -/
theorem tracks_hpstateenter {newstate : FwState} {f : HpBlk → Option HpBlk × List FwOut}
    (h : Tracks transferMonitor FwRel x (f { s with amfwdwnstate := newstate })) :
    Tracks transferMonitor FwRel x (andThen (hpstateenter newstate s) f) :=
  tracks_append (watch_ignored fun _ ho => List.mem_singleton.mp ho ▸ quiet_notify _ _ x) h

theorem tracks_hpstatefail (newstate : FwState) (errorstring : List UInt8) :
    Tracks transferMonitor FwRel x (hpstatefail newstate errorstring s) :=
  tracks_hpstateenter (tracks_hpamfwdwnresp .aborted errorstring)

theorem tracks_hpsendreset (hstate : s.amfwdwnstate = .softReset) (h : Ready s x) :
    Tracks transferMonitor FwRel x (hpsendreset s) := by
  refine tracks_quiet (quiet_tx (by decide) (by decide) (by decide) _ _) ⟨fun _ => ?_, ?_⟩
  · exact h.frame rfl rfl rfl rfl
  · intro hother
    rcases hother with hother | hother
    · exact absurd (hstate.symm.trans hother) (by decide)
    · exact absurd (hstate.symm.trans hother) (by decide)

/-- An allowed output, and the state that goes with what the monitor has read then. -/
theorem tracks_checked {o : FwOut} (ho : TransferStep x o) (hs : FwInv s (x.read o)) :
    Tracks transferMonitor FwRel x (some s, [o]) :=
  ⟨x.read o, by rw [watch_cons, transferMonitor, checked_of ho]; rfl, hs⟩

theorem fwInv_of_begun (hstate : s.amfwdwnstate = .startReq ∨ s.amfwdwnstate = .dwn)
    (h : Begun s x) : FwInv s x :=
  ⟨fun hreset => hstate.elim (fun h => absurd (h.symm.trans hreset) (by decide))
    fun h => absurd (h.symm.trans hreset) (by decide), fun _ => h⟩

theorem tracks_hpsendstartreq (hstate : s.amfwdwnstate = .startReq) (h : Ready s x) :
    Tracks transferMonitor FwRel x (hpsendstartreq os s) := by
  obtain ⟨hstart, hconts, rest, hsend, hrest⟩ := h
  rw [hpsendstartreq]
  rcases hsend.hpreadchunk os hrest with hnone | ⟨s', payload, hread, hchunk, hnext⟩
  · rw [hnone]
    exact tracks_hpstatefail .startReqErr []
  · rw [hread]
    have hempty : x.chunks = [] := by rw [Transfer.chunks, hstart, hconts, List.append_nil]
    have hx : x.read (.hpTxPacket hpDlStrtReq 0 payload) =
        { x with start := x.start ++ [payload] } := by
      rw [Transfer.read, if_pos rfl]
    refine tracks_checked ⟨fun _ => ⟨hempty, hchunk⟩, fun h => absurd h (by decide),
      fun h => absurd h (by decide)⟩ ?_
    rw [hx]
    have hs' : s'.amfwdwnstate = .startReq := (hpreadchunk_frame hread).1.trans hstate
    have hsend' := hnext { x with start := x.start ++ [payload] } rfl rfl rfl
      (by rw [hempty, Transfer.chunks, hstart, hconts, List.append_nil])
    refine fwInv_of_begun (Or.inl hs') ⟨?_, _, hsend'.frame rfl rfl rfl rfl⟩
    rw [hstart]
    rfl

theorem tracks_hpsendcontreq (hstate : s.amfwdwnstate = .dwn) (h : Begun s x)
    (hleft : s.hpchunks2send ≠ 0) :
    Tracks transferMonitor FwRel x (hpsendcontreq os s) := by
  obtain ⟨hstart, rest, hsend⟩ := h
  have hrest : rest ≠ [] := by
    rintro rfl
    apply hleft
    rw [← UInt16.toNat_inj, hsend.left_eq]
    exact chunkCount_zero hsend.size_pos
  rw [hpsendcontreq]
  rcases hsend.hpreadchunk os hrest with hnone | ⟨s', payload, hread, hchunk, hnext⟩
  · rw [hnone]
    exact tracks_hpstatefail .dwnErr []
  · rw [hread]
    have hx : x.read (.hpTxPacket hpDlContReq 0 payload) =
        { x with conts := x.conts ++ [payload] } := by
      rw [Transfer.read, if_neg (by decide), if_pos rfl]
    refine tracks_checked ⟨fun h => absurd h (by decide), fun _ => ⟨hstart, hchunk⟩,
      fun h => absurd h (by decide)⟩ ?_
    rw [hx]
    have hs' : s'.amfwdwnstate = .dwn := (hpreadchunk_frame hread).1.trans hstate
    refine fwInv_of_begun (Or.inr hs') ⟨hstart, _, hnext _ rfl rfl rfl ?_⟩
    rw [Transfer.chunks, Transfer.chunks, List.append_assoc]

/-- The end request comes when no chunk is left. -/
theorem tracks_hpsendendreq (hstate : s.amfwdwnstate = .chksum) (h : Begun s x)
    (hleft : s.hpchunks2send = 0) :
    Tracks transferMonitor FwRel x (hpsendendreq s) := by
  obtain ⟨hstart, rest, hsend⟩ := h
  have hzero : chunkCount rest.length x.chunksize = 0 := by
    rw [← hsend.left_eq, hleft]
    rfl
  have hrest : rest = [] := by
    by_contra hne
    rw [chunkCount_sub (List.length_pos_iff.mpr hne) hsend.size_pos] at hzero
    exact Nat.succ_ne_zero _ hzero
  have himage : x.chunks.flatten = x.image := by
    rw [hsend.image_eq, hrest, List.append_nil]
  have hcount := hsend.count_eq
  rw [hleft, Transfer.chunks, List.length_append, hstart] at hcount
  have hx : x.read (.hpTxPacket hpDlEndReq 0 (piput16 s.hpchecksum)) = x := by
    rw [Transfer.read, if_neg (by decide), if_neg (by decide)]
  refine tracks_checked ⟨fun h => absurd h (by decide), fun h => absurd h (by decide),
    fun _ => ⟨himage, hstart, ?_, ?_⟩⟩ ?_
  · rw [← hcount, Nat.add_comm]
    rfl
  · rw [hsend.checksum_eq, himage]
  · rw [hx]
    exact fwInv_of_state .chksum hstate (by decide) (by decide) (by decide)

/-- What the monitor has read once an image is open. -/
def openedTransfer (image : List UInt8) (ammaxchunksize : UInt32) : Transfer :=
  ⟨image, ammaxchunksize.toNat,
    (imageChunks (UInt32.ofNat image.length) ammaxchunksize).toNat, [], []⟩

/-- An image that is admitted is ready to be sent. -/
theorem ready_openedTransfer {image : List UInt8} {size : UInt32} (hne : image ≠ [])
    (hpos : 0 < size.toNat) (hfits : hpHdrLength + size.toNat ≤ hdTxBufSize)
    (hlength : image.length ≤ 65535 * size.toNat) (hfp : s.hpfp = some image)
    (hsum : s.hpchecksum = 0)
    (hleft : s.hpchunks2send = imageChunks (UInt32.ofNat image.length) size)
    (hsize : s.hpparms.ammaxchunksize = size) : Ready s (openedTransfer image size) := by
  refine ⟨rfl, rfl, image, ?_, hne⟩
  exact
    { hpfp_eq := hfp
      image_eq := rfl
      checksum_eq := hsum
      left_eq := hleft ▸ toNat_imageChunks hpos hfits hlength
      size_eq := hsize ▸ rfl
      size_pos := hpos
      fits := hfits
      count_eq := by
        rw [hleft]
        exact Nat.zero_add _ }

/-- Opening an image that is admitted. -/
theorem tracks_hpimageinit (hsum : s.hpchecksum = 0)
    (hfile : ∀ image, os.files s.hpparms.amfilename = some image →
      0 < s.hpparms.ammaxchunksize.toNat ∧
        hpHdrLength + s.hpparms.ammaxchunksize.toNat ≤ hdTxBufSize ∧
        image.length ≤ 65535 * s.hpparms.ammaxchunksize.toNat) :
    Tracks transferMonitor FwRel x (hpimageinit os s) := by
  rw [hpimageinit]
  cases himage : os.files s.hpparms.amfilename with
  | none => exact tracks_hpstatefail .initErr []
  | some image =>
      obtain ⟨hpos, hfits, hlength⟩ := hfile image himage
      -- opening is an allowed output, whatever comes after it
      have hopen (hzero : s.hpparms.ammaxchunksize ≠ 0) :
          watch transferMonitor x [.imageInit image s.hpparms.ammaxchunksize
            (imageChunks (UInt32.ofNat image.length) s.hpparms.ammaxchunksize)] =
            some (openedTransfer image s.hpparms.ammaxchunksize) := by
        rw [watch_cons, transferMonitor,
          checked_of ⟨hzero, toNat_imageChunks hpos hfits hlength⟩]
        rfl
      have hne (hempty : UInt32.ofNat image.length ≠ 0) : image ≠ [] := by
        rintro rfl
        exact hempty rfl
      simp only
      split_ifs with hsize hempty hzero happ
      · exact tracks_hpstatefail .initErr []
      · exact tracks_hpstatefail .initErr []
      · rw [hzero] at hpos
        exact absurd hpos (Nat.lt_irrefl 0)
      · refine tracks_append (hopen hzero) (tracks_hpstateenter (tracks_hpsendreset rfl ?_))
        exact ready_openedTransfer (hne hempty) hpos hfits hlength rfl hsum rfl rfl
      · refine tracks_append (hopen hzero) (tracks_hpstateenter (tracks_hpsendstartreq rfl ?_))
        exact ready_openedTransfer (hne hempty) hpos hfits hlength rfl hsum rfl rfl

end Tracking

section Handlers

variable {os : OsAnswer} {s s' : HpBlk} {x : Transfer}

/-- The changes of state that send no part of the image. -/
theorem tracks_hpstateupdate {newstate : FwState}
    (hnew : newstate ∉ [FwState.init, .softReset, .startReq, .dwn, .chksum])
    (errorstring : List UInt8) :
    Tracks transferMonitor FwRel x (hpstateupdate os newstate errorstring s) := by
  refine tracks_hpstateenter ?_
  cases newstate with
  | init => exact absurd hnew (by decide)
  | softReset => exact absurd hnew (by decide)
  | startReq => exact absurd hnew (by decide)
  | dwn => exact absurd hnew (by decide)
  | chksum => exact absurd hnew (by decide)
  | flash =>
      exact tracks_quiet (quiet_tx (by decide) (by decide) (by decide) _ _)
        (fwInv_of_state .flash rfl (by decide) (by decide) (by decide))
  | launchFrag =>
      exact tracks_quiet (quiet_tx (by decide) (by decide) (by decide) _ _)
        (fwInv_of_state .launchFrag rfl (by decide) (by decide) (by decide))
  | launchFragErr =>
      exact tracks_nil
        (fwInv_of_state .launchFragErr rfl (by decide) (by decide) (by decide))
  | reset =>
      exact tracks_nil (fwInv_of_state .reset rfl (by decide) (by decide) (by decide))
  | done => exact tracks_hpamfwdwnresp .success []
  | initErr => exact tracks_hpamfwdwnresp .aborted errorstring
  | softResetErr => exact tracks_hpamfwdwnresp .aborted errorstring
  | startReqErr => exact tracks_hpamfwdwnresp .aborted errorstring
  | fileErr => exact tracks_hpamfwdwnresp .aborted errorstring
  | dwnErr => exact tracks_hpamfwdwnresp .aborted errorstring
  | chksumErr => exact tracks_hpamfwdwnresp .aborted errorstring
  | flashErr => exact tracks_hpamfwdwnresp .aborted errorstring
  | resetErr => exact tracks_hpamfwdwnresp .aborted errorstring

theorem FwInv.frame (h : FwInv s x) (hstate : s'.amfwdwnstate = s.amfwdwnstate)
    (hfp : s'.hpfp = s.hpfp) (hsum : s'.hpchecksum = s.hpchecksum)
    (hleft : s'.hpchunks2send = s.hpchunks2send) (hparms : s'.hpparms = s.hpparms) :
    FwInv s' x := by
  rw [FwInv, hstate]
  exact ⟨fun hreset => (h.1 hreset).frame hfp hsum hleft hparms,
    fun hother => (h.2 hother).frame hfp hsum hleft hparms⟩

/-- After a chunk was accepted the next one is sent, or the end request if there is none. -/
theorem tracks_nextchunk (h : Begun s x) :
    Tracks transferMonitor FwRel x
      (if s.hpchunks2send ≠ 0 then hpstateupdate os .dwn [] (hptimerstop s)
        else hpstateupdate os .chksum [] (hptimerstop s)) := by
  by_cases hleft : s.hpchunks2send = 0
  · rw [if_neg (fun hne => hne hleft)]
    exact tracks_hpstateenter (tracks_hpsendendreq rfl (h.frame rfl rfl rfl rfl) hleft)
  · rw [if_pos hleft]
    exact tracks_hpstateenter (tracks_hpsendcontreq rfl (h.frame rfl rfl rfl rfl) hleft)

theorem tracks_hpstatefwstartreq (hipmsg : HpHipEvt) (hstate : s.amfwdwnstate = .startReq)
    (h : Begun s x) : Tracks transferMonitor FwRel x (hpstatefwstartreq os hipmsg s) := by
  rw [hpstatefwstartreq]
  by_cases hresp : hipmsg.hpphmsgdesignator = hpDlStrtResp
  · rw [if_pos hresp]
    by_cases hparm : hipmsg.hpphmsgparm ≠ hpSuccess
    · rw [if_pos hparm]
      exact tracks_hpstateupdate (by decide) _
    · rw [if_neg hparm]
      exact tracks_nextchunk h
  · rw [if_neg hresp]
    exact tracks_nil (fwInv_of_begun (Or.inl hstate) h)

theorem tracks_hpstatefwdownload (hipmsg : HpHipEvt) (hstate : s.amfwdwnstate = .dwn)
    (h : Begun s x) : Tracks transferMonitor FwRel x (hpstatefwdownload os hipmsg s) := by
  rw [hpstatefwdownload]
  by_cases hresp : hipmsg.hpphmsgdesignator = hpDlContResp
  · rw [if_pos hresp]
    by_cases hparm : hipmsg.hpphmsgparm ≠ hpSuccess
    · rw [if_pos hparm]
      exact tracks_hpstateupdate (by decide) _
    · rw [if_neg hparm]
      exact tracks_nextchunk h
  · rw [if_neg hresp]
    exact tracks_nil (fwInv_of_begun (Or.inr hstate) h)

theorem tracks_hpstatefwchksum (hipmsg : HpHipEvt) (h : FwInv s x) :
    Tracks transferMonitor FwRel x (hpstatefwchksum os hipmsg s) := by
  rw [hpstatefwchksum]
  split_ifs
  · exact tracks_hpstateupdate (by decide) _
  · exact tracks_hpstateupdate (by decide) _
  · refine tracks_andThen (tracks_hpstateupdate (by decide) _) fun s' x' _ => ?_
    exact tracks_hpstateupdate (by decide) _
  · exact tracks_nil h

theorem tracks_hpstatefwflash (hipmsg : HpHipEvt) (h : FwInv s x) :
    Tracks transferMonitor FwRel x (hpstatefwflash os hipmsg s) := by
  rw [hpstatefwflash]
  split_ifs
  · exact tracks_hpstateupdate (by decide) _
  · exact tracks_hpstateupdate (by decide) _
  · exact tracks_nil h

theorem tracks_hpfwdwncbmsg (hipmsg : HpHipEvt) (h : FwInv s x) :
    Tracks transferMonitor FwRel x (hpfwdwncbmsg os hipmsg s) := by
  rw [hpfwdwncbmsg]
  split
  case h_1 hstate => exact tracks_hpstatefwstartreq hipmsg hstate (h.2 (Or.inl hstate))
  case h_2 hstate => exact tracks_hpstatefwdownload hipmsg hstate (h.2 (Or.inr hstate))
  case h_3 => exact tracks_hpstatefwchksum hipmsg h
  case h_4 => exact tracks_hpstatefwflash hipmsg h
  case h_5 => exact tracks_nil h

theorem tracks_hpmodestatechangemsg (online apprunning : Bool) (h : FwInv s x) :
    Tracks transferMonitor FwRel x (hpmodestatechangemsg os online apprunning s) := by
  rw [hpmodestatechangemsg]
  by_cases hdone : s.amfwdwnstate = .done
  · rw [if_pos hdone]
    exact tracks_nil h
  · rw [if_neg hdone]
    by_cases hreset : s.amfwdwnstate = .softReset
    · rw [if_pos hreset, hpstatesoftreset]
      split_ifs
      · exact tracks_hpstateupdate (by decide) _
      · refine tracks_hpstateenter (tracks_hpsendstartreq rfl ?_)
        exact (h.1 hreset).frame rfl rfl rfl rfl
      · exact tracks_nil h
    · rw [if_neg hreset]
      split_ifs
      · exact tracks_hpstateupdate (by decide) _
      · exact tracks_nil h

theorem tracks_hpfwdwntimer (h : FwInv s x) :
    Tracks transferMonitor FwRel x (hpfwdwntimer s) := by
  simp only [hpfwdwntimer]
  split_ifs
  · exact tracks_hpamfwdwnresp .timeout []
  · exact tracks_nil (h.frame rfl rfl rfl rfl rfl)
  · exact tracks_nil h

theorem tracks_hpphdispatch {e : HpphEvent} (he : e.isRequest = false) (h : FwInv s x) :
    Tracks transferMonitor FwRel x (hpphdispatch os e s) := by
  cases e with
  | fwdwnreq packet => exact Bool.noConfusion he
  | fwdwncb hipmsg => exact tracks_hpfwdwncbmsg hipmsg h
  | modemstatecb online apprunning => exact tracks_hpmodestatechangemsg online apprunning h
  | tick => exact tracks_hpfwdwntimer h

/-- A request that is admitted, with no download running. -/
theorem tracks_hpamfwdwnreq {packet : List UInt8} (hdone : s.amfwdwnstate = .done)
    (hsum : s.hpchecksum = 0)
    (hfile : ∀ image, os.files (amparsefwdwnrequest packet).amfilename = some image →
      0 < (amparsefwdwnrequest packet).ammaxchunksize.toNat ∧
        hpHdrLength + (amparsefwdwnrequest packet).ammaxchunksize.toNat ≤ hdTxBufSize ∧
        image.length ≤ 65535 * (amparsefwdwnrequest packet).ammaxchunksize.toNat) :
    Tracks transferMonitor FwRel x (hpamfwdwnreq os packet s) := by
  simp only [hpamfwdwnreq]
  rw [if_neg (fun h => h hdone)]
  exact tracks_hpstateenter (tracks_hpimageinit hsum hfile)

end Handlers

section Runs

/-- What the task and the outputs have to do with each other. -/
def TaskRel : Option FwTask → Transfer → Prop
  | none, _ => False
  | some t, x => Control t ∧ FwInv t.hpgcb x

theorem tracks_fwStep {t : Option FwTask} {x : Transfer} {i : FwInput} (h : TaskRel t x)
    (hi : Admitted t i) : Tracks transferMonitor TaskRel x (fwStep t i) := by
  cases t with
  | none => exact absurd h id
  | some t =>
      obtain ⟨hctl, hinv⟩ := h
      cases i with
      | request c packet =>
          refine tracks_nil ⟨hctl.hpsendfwdwnrr c packet, ?_⟩
          rw [hpsendfwdwnrr]
          split_ifs
          · exact hinv.frame rfl rfl rfl rfl rfl
          · exact hinv
      | hipMessage hipmsg => exact tracks_nil ⟨hctl.post rfl, hinv⟩
      | modemState online apprunning => exact tracks_nil ⟨hctl.post rfl, hinv⟩
      | tickEvent => exact tracks_nil ⟨hctl.post rfl, hinv⟩
      | take os =>
          obtain ⟨s, queue⟩ := t
          cases queue with
          | nil => exact tracks_nil ⟨hctl, hinv⟩
          | cons e rest =>
              have hdispatch : Tracks transferMonitor FwRel x (hpphdispatch os e s) := by
                cases he : e.isRequest with
                | false => exact tracks_hpphdispatch he hinv
                | true =>
                    cases e with
                    | fwdwnreq packet =>
                        obtain ⟨hdone, -, hsum, -⟩ := hctl.request
                        exact tracks_hpamfwdwnreq hdone hsum (hi s packet rest rfl)
                    | fwdwncb hipmsg => exact Bool.noConfusion he
                    | modemstatecb online apprunning => exact Bool.noConfusion he
                    | tick => exact Bool.noConfusion he
              obtain ⟨x', hx', hrel⟩ := hdispatch
              refine ⟨x', hx', ?_⟩
              cases hs' : (hpphdispatch os e s).1 with
              | none =>
                  rw [hs'] at hrel
                  exact absurd hrel id
              | some s' =>
                  rw [hs'] at hrel
                  have hnext : (fwStep (some ⟨s, e :: rest⟩) (.take os)).1 =
                      some ⟨s', rest⟩ := by
                    rw [fwStep, fwTaskStep_take, hs']
                    rfl
                  rw [hnext]
                  exact ⟨control_fwTaskStep hctl hnext, hrel⟩

/-- Whatever requests that are admitted, messages, changes of the device and ticks come in
whatever order: the task never divides by zero, and every output is what the transfer allows at
its place. -/
theorem image_transferred (is : List FwInput) (h : Meets fwStep Admitted fwTaskInit is) :
    after fwStep fwTaskInit is ≠ none ∧
      ∀ pre o post, outputs fwStep fwTaskInit is = pre ++ o :: post →
        TransferStep (transfer pre) o := by
  have hinit : TaskRel fwTaskInit noTransfer :=
    ⟨control_init, fwInv_of_state .done rfl (by decide) (by decide) (by decide)⟩
  obtain ⟨x, hx, hrel⟩ := tracks_run (fun _ _ _ => tracks_fwStep) hinit h
  refine ⟨fun hnone => ?_, (watch_checked hx).2⟩
  rw [hnone] at hrel
  exact hrel

/-- A request for chunks of one byte. -/
def oneByteRequest : List UInt8 := List.replicate 85 0 ++ [1]

/-- The files hold two bytes, and the device is in its boot loader. -/
def twoByteFiles : OsAnswer := ⟨fun _ => some [1, 2], true, true, false⟩

/-- An image of two bytes is sent in chunks of one. -/
def twoByteRun : List FwInput :=
  [.request firstChannel oneByteRequest, .take twoByteFiles,
    .hipMessage ⟨hpDlStrtResp, hpSuccess, []⟩, .take twoByteFiles,
    .hipMessage ⟨hpDlContResp, hpSuccess, []⟩, .take twoByteFiles]

theorem twoByteRun_transferred :
    Complete (transfer (outputs fwStep fwTaskInit twoByteRun).dropLast) [0, 3] := by
  have hmeets : Meets fwStep Admitted fwTaskInit twoByteRun := by
    refine ⟨trivial, ?_, trivial, ?_, trivial, ?_, trivial⟩
    · intro s packet rest ht image himage
      obtain rfl := Option.some.inj himage
      cases ht
      decide
    · intro s packet rest ht
      cases ht
    · intro s packet rest ht
      cases ht
  have hall := (image_transferred twoByteRun hmeets).2
  exact (hall _ (.hpTxPacket hpDlEndReq 0 [0, 3]) [] (by decide)).2.2 rfl

/-- The end request was sent, and the only continue request carried the second of two chunks. -/
theorem not_continueRequests_image :
    FwOut.hpTxPacket hpDlEndReq 0 [0, 3] ∈ outputs fwStep fwTaskInit twoByteRun ∧
      (transfer (outputs fwStep fwTaskInit twoByteRun)).image = [1, 2] ∧
      (transfer (outputs fwStep fwTaskInit twoByteRun)).count = 2 ∧
      (transfer (outputs fwStep fwTaskInit twoByteRun)).conts = [[2]] := by
  decide

end Runs

end Sdk

end SierraSdk
