import Mathlib.Algebra.Group.Nat.Defs
import SierraSdk.Hd.Rx

/-!
# The receiver and the cuts between its calls

`hdRxPacket` keeps the error flag it gives to the user in a local variable. It sets the flag
for a frame that has outgrown the hold buffer and never clears it, so that every later frame
of the same call is delivered with the flag of the first overlong one.

`frameStep` is the receiver with a flag for each frame of its own: the reference that knows
nothing of calls. What one call delivers are the packets of the reference with `sticky`
flags (`hdRxPacket_outputs`). The cuts are invisible exactly when no overlong frame and a
frame after it that is not overlong can end within one chunk (`FlagShared`).
-/

namespace SierraSdk

namespace Hd

/-- What one call receives. Its length is given to `hdRxPacket` in sixteen bits. -/
structure RxChunk where
  datap : List UInt8
  length_lt : datap.length < 2 ^ 16
  deriving DecidableEq

/-- One call of `hdRxPacket`. -/
def hdRxChunk (ctl : HdRxCtlBk) (chunk : RxChunk) : HdRxCtlBk × List RxPacket :=
  hdRxPacket ctl chunk.datap

/-- The stream that the chunks are cut from. -/
def chunkBytes (chunks : List RxChunk) : List UInt8 :=
  (chunks.map RxChunk.datap).flatten

@[simp] theorem chunkBytes_cons (chunk : RxChunk) (chunks : List RxChunk) :
    chunkBytes (chunk :: chunks) = chunk.datap ++ chunkBytes chunks := rfl

theorem chunkBytes_append (chunks chunks' : List RxChunk) :
    chunkBytes (chunks ++ chunks') = chunkBytes chunks ++ chunkBytes chunks' := by
  simp [chunkBytes]

/-- The control block with the received byte stored, before the end of a frame is handled. -/
def stored (ctl : HdRxCtlBk) (b : UInt8) : HdRxCtlBk :=
  holdByte (hdrxdllstate ctl b).1 (hdrxdllstate ctl b).2

/-- The byte is one too many for the hold buffer: the frame is cut off here. -/
def EndsOverlong (ctl : HdRxCtlBk) (b : UInt8) : Prop := Overlong (stored ctl b)

/-- The byte is the closing flag of a frame that fits into the hold buffer. -/
def EndsComplete (ctl : HdRxCtlBk) (b : UInt8) : Prop :=
  (stored ctl b).hdrendframe = true ∧ ¬ Overlong (stored ctl b) ∧ (stored ctl b).hdrdatacount ≠ 0

instance (ctl : HdRxCtlBk) (b : UInt8) : Decidable (EndsOverlong ctl b) :=
  inferInstanceAs (Decidable (Overlong _))

instance (ctl : HdRxCtlBk) (b : UInt8) : Decidable (EndsComplete ctl b) :=
  inferInstanceAs (Decidable (_ ∧ _ ∧ _))

/-- The receiver that gives each packet the flag of its own frame. -/
def frameStep (ctl : HdRxCtlBk) (b : UInt8) : HdRxCtlBk × List RxPacket :=
  if EndsOverlong ctl b then (hdrxreset, [((stored ctl b).hdrHoldBuffer, true)])
  else if EndsComplete ctl b then (hdrxreset, [((stored ctl b).hdrHoldBuffer, false)])
  else if (stored ctl b).hdrendframe then (hdrxreset, [])
  else (stored ctl b, [])

/-- The data count is the number of bytes in the hold buffer, which is within its limit. -/
def InStep (ctl : HdRxCtlBk) : Prop :=
  ctl.hdrdatacount.toNat = ctl.hdrHoldBuffer.length ∧ ctl.hdrHoldBuffer.length ≤ hdMaxMessage

theorem inStep_hdrxreset : InStep hdrxreset := ⟨rfl, Nat.zero_le _⟩

/-- The state machine counts the bytes that it gives as data, and leaves the hold buffer. -/
theorem hdrxdllstate_counts (ctl : HdRxCtlBk) (b : UInt8) :
    (hdrxdllstate ctl b).1.hdrHoldBuffer = ctl.hdrHoldBuffer ∧
      (hdrxdllstate ctl b).1.hdrdatacount =
        if (hdrxdllstate ctl b).1.hdrdatavalid then ctl.hdrdatacount + 1
        else ctl.hdrdatacount := by
  unfold hdrxdllstate
  cases ctl.hdrdllstate with
  | waitForSync => simp only; split_ifs <;> simp_all
  | syncedNoData => simp only; split_ifs <;> simp_all
  | collectData => simp only; split_ifs <;> simp_all
  | escaped => simp only; split_ifs <;> simp_all

/-- A stored byte is counted, and nothing else is. -/
theorem stored_counts (ctl : HdRxCtlBk) (b : UInt8) :
    ((stored ctl b).hdrdatavalid = true ∧
        (stored ctl b).hdrdatacount = ctl.hdrdatacount + 1 ∧
        (stored ctl b).hdrHoldBuffer.length = ctl.hdrHoldBuffer.length + 1) ∨
      ((stored ctl b).hdrdatavalid = false ∧
        (stored ctl b).hdrdatacount = ctl.hdrdatacount ∧
        (stored ctl b).hdrHoldBuffer = ctl.hdrHoldBuffer) := by
  obtain ⟨hhold, hcount⟩ := hdrxdllstate_counts ctl b
  unfold stored holdByte
  by_cases hvalid : (hdrxdllstate ctl b).1.hdrdatavalid = true
  · rw [if_pos hvalid] at hcount
    exact .inl (by simp [hvalid, hcount, hhold])
  · rw [if_neg hvalid] at hcount
    exact .inr (by simp [hvalid, hcount, hhold])

/-- The data count and the length of the hold buffer stay equal when a byte is stored. -/
theorem stored_count_eq {ctl : HdRxCtlBk} (h : InStep ctl) (b : UInt8) :
    (stored ctl b).hdrdatacount.toNat = (stored ctl b).hdrHoldBuffer.length := by
  obtain ⟨hcount, hlen⟩ := h
  rcases stored_counts ctl b with ⟨-, hcount', hhold'⟩ | ⟨-, hcount', hhold'⟩
  · rw [hcount', hhold', toNat_succ_of_le hcount hlen]
  · rw [hcount', hhold', hcount]

theorem stored_count_ne_zero {ctl : HdRxCtlBk} (h : InStep ctl) {b : UInt8}
    (hlong : EndsOverlong ctl b) : (stored ctl b).hdrdatacount ≠ 0 := by
  intro hzero
  have hcount := stored_count_eq h b
  rw [hzero] at hcount
  have hlen : hdMaxMessage < (stored ctl b).hdrHoldBuffer.length := hlong.2
  rw [← hcount] at hlen
  exact Nat.not_lt_zero _ hlen

theorem inStep_frameStep {ctl : HdRxCtlBk} (h : InStep ctl) (b : UInt8) :
    InStep (frameStep ctl b).1 := by
  unfold frameStep
  split_ifs with hlong hcomplete hend
  · exact inStep_hdrxreset
  · exact inStep_hdrxreset
  · exact inStep_hdrxreset
  · refine ⟨stored_count_eq h b, ?_⟩
    rcases stored_counts ctl b with ⟨hvalid, -, -⟩ | ⟨-, -, hhold'⟩
    · exact Nat.le_of_not_lt fun hlen => hlong ⟨hvalid, hlen⟩
    · rw [hhold']
      exact h.2

/-- Flags that stay set from the first packet on that sets one. -/
def sticky : Bool → List RxPacket → List RxPacket
  | _, [] => []
  | flag, p :: ps => (p.1, flag || p.2) :: sticky (flag || p.2) ps

@[simp] theorem sticky_nil (flag : Bool) : sticky flag [] = [] := rfl

@[simp] theorem sticky_cons (flag : Bool) (p : RxPacket) (ps : List RxPacket) :
    sticky flag (p :: ps) = (p.1, flag || p.2) :: sticky (flag || p.2) ps := rfl

theorem sticky_append (flag : Bool) (ps qs : List RxPacket) :
    sticky flag (ps ++ qs) = sticky flag ps ++ sticky (flag || ps.any Prod.snd) qs := by
  induction ps generalizing flag with
  | nil => simp
  | cons p ps ih => simp [ih, Bool.or_assoc]

/-- Once the flag is set, only packets with a flag of their own keep what they have. -/
theorem sticky_true_eq_iff (ps : List RxPacket) :
    sticky true ps = ps ↔ ∀ p ∈ ps, p.2 = true := by
  induction ps with
  | nil => simp
  | cons p ps ih =>
      obtain ⟨packet, flag⟩ := p
      simp [ih]

/-- The flags of a call are those of its frames exactly when no overlong frame stands before
one that is not. -/
theorem sticky_false_eq_iff (ps : List RxPacket) :
    sticky false ps = ps ↔ ps.Pairwise fun p q => p.2 = true → q.2 = true := by
  induction ps with
  | nil => simp
  | cons p ps ih =>
      obtain ⟨packet, flag⟩ := p
      cases flag with
      | false => simp [ih]
      | true =>
          simp only [sticky_cons, Bool.or_true, List.cons.injEq, true_and, sticky_true_eq_iff,
            List.pairwise_cons, forall_const]
          exact ⟨fun h => ⟨h, List.pairwise_iff_forall_sublist.mpr fun hsub _ =>
            h _ (hsub.subset (by simp))⟩, And.left⟩

/-- One byte of a call delivers what the reference delivers, with the flag of the call, and
sets the flag of the call if the frame is overlong. -/
theorem hdRxByte_eq {ctl : HdRxCtlBk} (h : InStep ctl) (flag : Bool) (b : UInt8) :
    hdRxByte (ctl, flag) b =
      (((frameStep ctl b).1, flag || (frameStep ctl b).2.any Prod.snd),
        sticky flag (frameStep ctl b).2) := by
  have hcall : hdRxByte (ctl, flag) b =
      if (stored ctl b).hdrendframe ∨ EndsOverlong ctl b then
        if (stored ctl b).hdrdatacount = 0 then
          ((hdrxreset, flag || decide (EndsOverlong ctl b)), [])
        else
          ((hdrxreset, flag || decide (EndsOverlong ctl b)),
            [((stored ctl b).hdrHoldBuffer, flag || decide (EndsOverlong ctl b))])
      else ((stored ctl b, flag || decide (EndsOverlong ctl b)), []) := rfl
  rw [hcall]
  by_cases hlong : EndsOverlong ctl b
  · have hne := stored_count_ne_zero h hlong
    simp [frameStep, hlong, hne]
  · by_cases hend : (stored ctl b).hdrendframe = true
    · have hnot : ¬ Overlong (stored ctl b) := hlong
      by_cases hzero : (stored ctl b).hdrdatacount = 0
      · simp [frameStep, hlong, EndsComplete, hend, hzero]
      · simp [frameStep, hlong, EndsComplete, hend, hzero, hnot]
    · simp [frameStep, hlong, EndsComplete, hend]

/-- The bytes of a call deliver the packets of the reference with sticky flags. -/
theorem hdRxByte_outputs {ctl : HdRxCtlBk} (h : InStep ctl) (flag : Bool)
    (data : List UInt8) :
    (Machine.after hdRxByte (ctl, flag) data).1 = Machine.after frameStep ctl data ∧
      Machine.outputs hdRxByte (ctl, flag) data =
        sticky flag (Machine.outputs frameStep ctl data) := by
  induction data generalizing ctl flag with
  | nil => exact ⟨rfl, rfl⟩
  | cons b data ih =>
      obtain ⟨hafter, hout⟩ :=
        ih (inStep_frameStep h b) (flag || (frameStep ctl b).2.any Prod.snd)
      rw [Machine.after_cons, Machine.after_cons, Machine.outputs_cons, Machine.outputs_cons,
        hdRxByte_eq h, sticky_append]
      exact ⟨hafter, congrArg _ hout⟩

theorem inStep_after {ctl : HdRxCtlBk} (h : InStep ctl) (data : List UInt8) :
    InStep (Machine.after frameStep ctl data) := by
  induction data generalizing ctl with
  | nil => exact h
  | cons b data ih => exact ih (inStep_frameStep h b)

/-- One call delivers the packets of the reference with sticky flags, and leaves the control
block of the reference. -/
theorem hdRxPacket_outputs {ctl : HdRxCtlBk} (h : InStep ctl) (data : List UInt8) :
    hdRxPacket ctl data =
      (Machine.after frameStep ctl data, sticky false (Machine.outputs frameStep ctl data)) := by
  obtain ⟨hafter, hout⟩ := hdRxByte_outputs h false data
  exact Prod.ext hafter hout

theorem hdRxChunk_after {ctl : HdRxCtlBk} (h : InStep ctl) (chunks : List RxChunk) :
    Machine.after hdRxChunk ctl chunks = Machine.after frameStep ctl (chunkBytes chunks) := by
  induction chunks generalizing ctl with
  | nil => rfl
  | cons chunk chunks ih =>
      have hctl : (hdRxChunk ctl chunk).1 = Machine.after frameStep ctl chunk.datap :=
        congrArg Prod.fst (hdRxPacket_outputs h chunk.datap)
      rw [Machine.after_cons, hctl, ih (inStep_after h chunk.datap), chunkBytes_cons,
        Machine.after_append]

/-- The outputs of a chunk are those of the reference, up to the flags. -/
theorem hdRxChunk_outputs {ctl : HdRxCtlBk} (h : InStep ctl) (chunk : RxChunk)
    (chunks : List RxChunk) :
    Machine.outputs hdRxChunk ctl (chunk :: chunks) =
      sticky false (Machine.outputs frameStep ctl chunk.datap) ++
        Machine.outputs hdRxChunk (Machine.after frameStep ctl chunk.datap) chunks := by
  rw [Machine.outputs_cons, hdRxChunk, hdRxPacket_outputs h]

/-- A frame of the reference has the flag of the byte that it ends with. -/
theorem mem_frameStep {ctl : HdRxCtlBk} {b : UInt8} {p : RxPacket}
    (hp : p ∈ (frameStep ctl b).2) :
    p.2 = true ∧ EndsOverlong ctl b ∨ p.2 = false ∧ EndsComplete ctl b := by
  unfold frameStep at hp
  split_ifs at hp with hlong hcomplete hend
  · rw [List.mem_singleton] at hp
    exact .inl ⟨congrArg Prod.snd hp, hlong⟩
  · rw [List.mem_singleton] at hp
    exact .inr ⟨congrArg Prod.snd hp, hcomplete⟩
  · exact absurd hp List.not_mem_nil
  · exact absurd hp List.not_mem_nil

theorem frameStep_overlong {ctl : HdRxCtlBk} {b : UInt8} (h : EndsOverlong ctl b) :
    frameStep ctl b = (hdrxreset, [((stored ctl b).hdrHoldBuffer, true)]) := if_pos h

theorem frameStep_complete {ctl : HdRxCtlBk} {b : UInt8} (h : EndsComplete ctl b) :
    frameStep ctl b = (hdrxreset, [((stored ctl b).hdrHoldBuffer, false)]) := by
  have hnot : ¬ EndsOverlong ctl b := h.2.1
  rw [frameStep, if_neg hnot, if_pos h]

/-- All frames are overlong if none is complete. -/
theorem frames_overlong_iff (ctl : HdRxCtlBk) (data : List UInt8) :
    (∀ p ∈ Machine.outputs frameStep ctl data, p.2 = true) ↔
      ∀ mid b post, data = mid ++ b :: post →
        ¬ EndsComplete (Machine.after frameStep ctl mid) b := by
  constructor
  · intro hall mid b post hsplit hcomplete
    have hmem : ((stored (Machine.after frameStep ctl mid) b).hdrHoldBuffer, false) ∈
        Machine.outputs frameStep ctl data := by
      rw [Machine.mem_outputs_iff]
      refine ⟨mid, b, post, hsplit, ?_⟩
      rw [frameStep_complete hcomplete]
      exact List.mem_singleton_self _
    exact Bool.false_ne_true (hall _ hmem)
  · intro hnone p hp
    obtain ⟨mid, b, post, hsplit, hmem⟩ := (Machine.mem_outputs_iff frameStep ctl data p).mp hp
    rcases mem_frameStep hmem with ⟨hflag, -⟩ | ⟨-, hcomplete⟩
    · exact hflag
    · exact absurd hcomplete (hnone mid b post hsplit)

/-- An overlong frame ends in the bytes, and after it one that is not overlong. -/
def GoodAfterOverlong (ctl : HdRxCtlBk) (data : List UInt8) : Prop :=
  ∃ pre b mid b' post, data = pre ++ b :: (mid ++ b' :: post) ∧
    EndsOverlong (Machine.after frameStep ctl pre) b ∧
    EndsComplete (Machine.after frameStep ctl (pre ++ b :: mid)) b'

theorem goodAfterOverlong_cons {ctl : HdRxCtlBk} {b : UInt8} {data : List UInt8} :
    GoodAfterOverlong ctl (b :: data) ↔
      (EndsOverlong ctl b ∧ ∃ mid b' post, data = mid ++ b' :: post ∧
        EndsComplete (Machine.after frameStep (frameStep ctl b).1 mid) b') ∨
      GoodAfterOverlong (frameStep ctl b).1 data := by
  constructor
  · rintro ⟨_ | ⟨c, pre⟩, b₁, mid, b', post, hsplit, hlong, hcomplete⟩
    · obtain ⟨rfl, rfl⟩ := List.cons.inj hsplit
      exact .inl ⟨hlong, mid, b', post, rfl, hcomplete⟩
    · obtain ⟨rfl, rfl⟩ := List.cons.inj hsplit
      exact .inr ⟨pre, b₁, mid, b', post, rfl, hlong, hcomplete⟩
  · rintro (⟨hlong, mid, b', post, rfl, hcomplete⟩ |
      ⟨pre, b₁, mid, b', post, rfl, hlong, hcomplete⟩)
    · exact ⟨[], b, mid, b', post, rfl, hlong, hcomplete⟩
    · exact ⟨b :: pre, b₁, mid, b', post, rfl, hlong, hcomplete⟩

/-- The flags of one call are those of its frames exactly when none of them is a good frame
after an overlong one. -/
theorem sticky_frames_iff (ctl : HdRxCtlBk) (data : List UInt8) :
    sticky false (Machine.outputs frameStep ctl data) = Machine.outputs frameStep ctl data ↔
      ¬ GoodAfterOverlong ctl data := by
  rw [sticky_false_eq_iff]
  induction data generalizing ctl with
  | nil =>
      refine iff_of_true List.Pairwise.nil ?_
      rintro ⟨pre, b, mid, b', post, hsplit, -⟩
      exact absurd hsplit (by simp)
  | cons b data ih =>
      rw [goodAfterOverlong_cons, not_or, Machine.outputs_cons, ← ih]
      by_cases hlong : EndsOverlong ctl b
      · have hall := frames_overlong_iff (frameStep ctl b).1 data
        rw [frameStep_overlong hlong] at hall ⊢
        simp only [List.singleton_append, List.pairwise_cons, forall_const, hall, hlong, true_and,
          not_exists, not_and]
      · have hfree : (frameStep ctl b).2.Pairwise (fun p q => p.2 = true → q.2 = true) ∧
            ∀ p ∈ (frameStep ctl b).2, ∀ q ∈ Machine.outputs frameStep (frameStep ctl b).1 data,
              p.2 = true → q.2 = true := by
          have hfalse : ∀ p ∈ (frameStep ctl b).2, p.2 = false := fun p hp =>
            (mem_frameStep hp).elim (fun h => absurd h.2 hlong) And.left
          refine ⟨List.pairwise_of_forall_mem_list fun p hp q _ htrue => ?_,
            fun p hp q _ htrue => ?_⟩ <;>
          · rw [hfalse p hp] at htrue
            exact absurd htrue Bool.false_ne_true
        rw [List.pairwise_append]
        simp only [hfree.1, true_and, hlong, false_and, not_false_iff]
        exact and_iff_left fun p hp q hq => hfree.2 p hp q hq

/-- In a stream, an overlong frame and after it one that is not overlong end within the bytes
of one chunk. -/
def FlagShared (bs : List UInt8) : Prop :=
  ∃ pre b mid b' post, bs = pre ++ b :: (mid ++ b' :: post) ∧ mid.length + 2 < 2 ^ 16 ∧
    EndsOverlong (Machine.after frameStep hdrxreset pre) b ∧
    EndsComplete (Machine.after frameStep hdrxreset (pre ++ b :: mid)) b'

/-- Unless a flag is shared, every way to cut the stream gives what the reference gives. -/
theorem outputs_of_not_flagShared {ctl : HdRxCtlBk} (h : InStep ctl) {chunks : List RxChunk}
    (hfree : ∀ pre chunk post, chunks = pre ++ chunk :: post →
      ¬ GoodAfterOverlong (Machine.after frameStep ctl (chunkBytes pre)) chunk.datap) :
    Machine.outputs hdRxChunk ctl chunks = Machine.outputs frameStep ctl (chunkBytes chunks) := by
  induction chunks generalizing ctl with
  | nil => rfl
  | cons chunk chunks ih =>
      have hhead := (sticky_frames_iff ctl chunk.datap).mpr (hfree [] chunk chunks rfl)
      rw [hdRxChunk_outputs h, hhead, chunkBytes_cons, Machine.outputs_append]
      congr 1
      refine ih (inStep_after h chunk.datap) fun pre chunk' post hsplit => ?_
      have hmem := hfree (chunk :: pre) chunk' post (by rw [hsplit]; rfl)
      rwa [chunkBytes_cons, Machine.after_append] at hmem

/-- The chunks of one byte each. -/
def singles (bs : List UInt8) : List RxChunk :=
  bs.map fun b => ⟨[b], by simp⟩

theorem chunkBytes_singles (bs : List UInt8) : chunkBytes (singles bs) = bs := by
  induction bs with
  | nil => rfl
  | cons b bs ih => exact congrArg (b :: ·) ih

theorem outputs_singles {ctl : HdRxCtlBk} (h : InStep ctl) (bs : List UInt8) :
    Machine.outputs hdRxChunk ctl (singles bs) = Machine.outputs frameStep ctl bs := by
  have hfree : ∀ pre chunk post, singles bs = pre ++ chunk :: post →
      ¬ GoodAfterOverlong (Machine.after frameStep ctl (chunkBytes pre)) chunk.datap := by
    rintro pre chunk post hsplit ⟨x, b, mid, b', y, hdata, -⟩
    have hmem : chunk ∈ singles bs := by simp [hsplit]
    obtain ⟨c, -, rfl⟩ := List.mem_map.mp hmem
    have hlen := congrArg List.length hdata
    simp only [List.length_append, List.length_cons, List.length_nil] at hlen
    omega
  rw [outputs_of_not_flagShared h hfree, chunkBytes_singles]

theorem chunk_independent_iff (bs : List UInt8) :
    (∀ chunks chunks', chunkBytes chunks = bs → chunkBytes chunks' = bs →
      Machine.outputs hdRxChunk hdrxreset chunks = Machine.outputs hdRxChunk hdrxreset chunks') ↔
      ¬ FlagShared bs := by
  constructor
  · rintro hsame ⟨pre, b, mid, b', post, rfl, hlen, hlong, hcomplete⟩
    set ctl := Machine.after frameStep hdrxreset pre with hctl
    have hin : InStep ctl := inStep_after inStep_hdrxreset pre
    let chunk : RxChunk := ⟨b :: (mid ++ [b']), by simpa using hlen⟩
    have hcut := hsame (singles pre ++ chunk :: singles post)
      (singles pre ++ (singles chunk.datap ++ singles post))
      (by simp [chunkBytes_append, chunkBytes_singles, chunk])
      (by simp [chunkBytes_append, chunkBytes_singles, chunk])
    have hafter (bs : List UInt8) {ctl} (h : InStep ctl) :
        Machine.after hdRxChunk ctl (singles bs) = Machine.after frameStep ctl bs := by
      rw [hdRxChunk_after h, chunkBytes_singles]
    rw [Machine.outputs_append, Machine.outputs_append, hafter pre inStep_hdrxreset, ← hctl,
      List.append_cancel_left_eq, hdRxChunk_outputs hin, Machine.outputs_append,
      outputs_singles hin, hafter _ hin, List.append_cancel_right_eq, sticky_frames_iff] at hcut
    refine hcut ⟨[], b, mid, b', [], rfl, hlong, ?_⟩
    rwa [Machine.after_append, ← hctl] at hcomplete
  · intro hfree
    have hreference : ∀ chunks, chunkBytes chunks = bs →
        Machine.outputs hdRxChunk hdrxreset chunks = Machine.outputs frameStep hdrxreset bs := by
      intro chunks hbs
      rw [← hbs]
      refine outputs_of_not_flagShared inStep_hdrxreset ?_
      rintro before chunk after rfl ⟨pre, b, mid, b', post, hdata, hlong, hcomplete⟩
      have hlen : (pre ++ b :: (mid ++ b' :: post)).length < 2 ^ 16 := hdata ▸ chunk.length_lt
      simp only [List.length_append, List.length_cons] at hlen
      refine hfree ⟨chunkBytes before ++ pre, b, mid, b', post ++ chunkBytes after, ?_,
        by omega, ?_, ?_⟩
      · rw [← hbs, chunkBytes_append, chunkBytes_cons, hdata]
        simp
      · rwa [Machine.after_append]
      · rwa [List.append_assoc, Machine.after_append]
    intro chunks chunks' hbs hbs'
    rw [hreference chunks hbs, hreference chunks' hbs']

/-- A frame of 1025 bytes, one too many, and a frame of one byte. -/
theorem not_chunk_independent :
    let long := 0x7e :: List.replicate 1025 0x00
    let good := [0x7e, 0x01, 0x7e]
    ∃ hone hlong hgood,
      Machine.outputs hdRxChunk hdrxreset [⟨long ++ good, hone⟩] =
          [(List.replicate 1025 0x00, true), ([0x01], true)] ∧
        Machine.outputs hdRxChunk hdrxreset [⟨long, hlong⟩, ⟨good, hgood⟩] =
          [(List.replicate 1025 0x00, true), ([0x01], false)] := by
  refine ⟨by decide +kernel, by decide +kernel, by decide, ?_, ?_⟩
  · decide +kernel
  · decide +kernel

end Hd

end SierraSdk
