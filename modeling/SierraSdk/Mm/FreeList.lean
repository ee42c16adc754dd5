import Mathlib.Data.List.Perm.Basic
import Mathlib.Tactic.Ring
import SierraSdk.Library.CircularList
import SierraSdk.Library.Machine

/-!
# The free list of a memory pool

The blocks of a pool lie one behind the other in the memory that `mmpcreate` allocates, each
behind a header. The headers of the free blocks are linked to a circular list, and `mmfreep` is
the last one. Addresses are natural numbers, and the fields of the headers and the control blocks
of the pools are looked up by address; `NULL` is the address `0`, or `none` for `mmfreep`.

`mmpcreate` computes the size of the memory with 32 bits. If it does not fit, the memory that is
allocated is too small and a header is written behind its end, which is a fault here. Otherwise
the free list is a queue in every run (`queues_run`).
-/

namespace SierraSdk

namespace Mm

open Machine

/-- `MMPOOLVALID` and `MMSIGNATURE` -/
def mmpoolvalid : UInt32 := 0xDEADBEEF
def mmsignatureWord : UInt32 := 0xBEEFCAFE

/-- `sizeof( struct mmbufhdr )` -/
def sizeofMmbufhdr : ℕ := 12

/-- `ALIGN4` -/
def align4 : UInt32 := 3

/-- The control block of a pool. -/
structure PoolBlock where
  mmfreep : Option ℕ
  mmnamep : ℕ
  mmvalid : UInt32
  mmnumblocks : UInt32
  mmblocksize : UInt32
  mmfirstp : ℕ
  mmlastp : ℕ

/-- The fields of the headers by the address of the header, and the pools by the address of
their control block. -/
structure MmMemory where
  mmsignature : ℕ → UInt32
  mmnextfreep : ℕ → ℕ
  mmpoolp : ℕ → ℕ
  pools : ℕ → PoolBlock

/-- The reasons to abort, and a header that is not in the memory of the pool. -/
inductive MmFault where
  | badParameter
  | noFreeMemory
  | invalidPool
  | invalidBuffer
  | outOfBounds
  deriving DecidableEq

namespace MmMemory

/-- The free list of a pool is replaced. -/
def setFree (mem : MmMemory) (poolp : ℕ) (next : ℕ → ℕ) (last : Option ℕ) : MmMemory :=
  { mem with
    mmnextfreep := next
    pools := Function.update mem.pools poolp { mem.pools poolp with mmfreep := last } }

/-- `mmlink`, of the free list of a pool. -/
def mmlink (mem : MmMemory) (poolp bufferp : ℕ) : MmMemory :=
  mem.setFree poolp (CircularList.link mem.mmnextfreep (mem.pools poolp).mmfreep bufferp)
    (some bufferp)

/-- `mmunlink`, of the free list of a pool. -/
def mmunlink (mem : MmMemory) (poolp : ℕ) : Option ℕ × MmMemory :=
  match (mem.pools poolp).mmfreep with
  | none => (none, mem)
  | some lastp =>
      let r := CircularList.unlink mem.mmnextfreep lastp
      (some r.1, mem.setFree poolp r.2.1 r.2.2)

/-- The header of a block, which is followed by another one. -/
def formatBlock (mem : MmMemory) (poolp blocksize hdrp : ℕ) : MmMemory :=
  { mem with
    mmsignature := Function.update mem.mmsignature hdrp mmsignatureWord
    mmpoolp := Function.update mem.mmpoolp hdrp poolp
    mmnextfreep := Function.update mem.mmnextfreep hdrp (hdrp + blocksize) }

/-- The loop of `mmpcreate`; the memory of the pool ends at `limit`. -/
def formatBlocks (poolp blocksize limit : ℕ) : ℕ → ℕ → MmMemory → Except MmFault MmMemory
  | 0, _, mem => .ok mem
  | n + 1, hdrp, mem =>
      if hdrp + sizeofMmbufhdr ≤ limit then
        formatBlocks poolp blocksize limit n (hdrp + blocksize)
          (mem.formatBlock poolp blocksize hdrp)
      else .error .outOfBounds

end MmMemory

/-- The size of a block with its header, as it is computed. -/
def blockSize (reqblocksz : UInt32) : UInt32 :=
  ((reqblocksz + align4) &&& ~~~align4) + UInt32.ofNat sizeofMmbufhdr

/-- `mmpcreate`; `memp` is the memory that is allocated. -/
def mmpcreateAt (mem : MmMemory) (poolp pnamep : ℕ) (numblocks reqblocksz : UInt32)
    (memp : ℕ) : Except MmFault MmMemory :=
  if poolp = 0 ∨ pnamep = 0 ∨ numblocks = 0 ∨ reqblocksz = 0 then .error .badParameter
  else
    let blocksize := blockSize reqblocksz
    let poolmax := blocksize * numblocks
    if memp = 0 then .error .noFreeMemory
    else
      match mem.formatBlocks poolp blocksize.toNat (memp + poolmax.toNat) numblocks.toNat memp with
      | .error fault => .error fault
      | .ok mem =>
          let hdrp := memp + (numblocks.toNat - 1) * blocksize.toNat
          .ok { mem with
            mmnextfreep := Function.update mem.mmnextfreep hdrp memp
            pools := Function.update mem.pools poolp
              { mmfreep := some hdrp
                mmnamep := pnamep
                mmvalid := mmpoolvalid
                mmnumblocks := numblocks
                mmblocksize := reqblocksz
                mmfirstp := memp
                mmlastp := hdrp } }

namespace MmMemory

/-- `mmbufget`; the block begins behind its header. -/
def mmbufget (mem : MmMemory) (poolp : ℕ) : Except MmFault (Option ℕ × MmMemory) :=
  if (mem.pools poolp).mmvalid ≠ mmpoolvalid then .error .invalidPool
  else if (mem.pools poolp).mmfreep ≠ none then
    .ok ((mem.mmunlink poolp).1.map (· + sizeofMmbufhdr), (mem.mmunlink poolp).2)
  else .ok (none, mem)

/-- `mmbufrel` -/
def mmbufrel (mem : MmMemory) (bufferp : ℕ) : Except MmFault MmMemory :=
  let bufhdrp := bufferp - sizeofMmbufhdr
  if mem.mmsignature bufhdrp ≠ mmsignatureWord then .error .invalidBuffer
  else if (mem.pools (mem.mmpoolp bufhdrp)).mmvalid ≠ mmpoolvalid then .error .invalidPool
  else .ok (mem.mmlink (mem.mmpoolp bufhdrp) bufhdrp)

end MmMemory

/-- The memory, and the blocks that were handed out and not released. -/
structure PoolRun where
  mem : MmMemory
  outstanding : List ℕ

/-- The calls. -/
inductive PoolOp where
  | mmbufget
  | mmbufrel (bufferp : ℕ)

/-- What a call returns. -/
inductive PoolEvent where
  | got (bufferp : Option ℕ)
  | aborted (fault : MmFault)
  deriving DecidableEq

/-- One call of a user of a pool; an abort ends the process. -/
def poolStep (poolp : ℕ) : Option PoolRun → PoolOp → Option PoolRun × List PoolEvent
  | none, _ => (none, [])
  | some r, .mmbufget =>
      match r.mem.mmbufget poolp with
      | .error fault => (none, [.aborted fault])
      | .ok (bufferp, mem) => (some ⟨mem, r.outstanding ++ bufferp.toList⟩, [.got bufferp])
  | some r, .mmbufrel bufferp =>
      match r.mem.mmbufrel bufferp with
      | .error fault => (none, [.aborted fault])
      | .ok mem => (some ⟨mem, r.outstanding.erase bufferp⟩, [])

/-- Only outstanding blocks are released. -/
def ReleasesOutstanding : Option PoolRun → PoolOp → Prop
  | some r, .mmbufrel bufferp => bufferp ∈ r.outstanding
  | _, _ => True

/-- The blocks that were handed out, in order. -/
def handedOut : List PoolEvent → List ℕ :=
  List.filterMap fun
    | .got bufferp => bufferp
    | .aborted _ => none

/-- The blocks that were released, in order. -/
def released : List PoolOp → List ℕ :=
  List.filterMap fun
    | .mmbufget => none
    | .mmbufrel bufferp => some bufferp

/-- The headers of `n` blocks from an address on. -/
def headers (blocksize : ℕ) : ℕ → ℕ → List ℕ
  | _, 0 => []
  | hdrp, n + 1 => hdrp :: headers blocksize (hdrp + blocksize) n

/-- The blocks behind headers. -/
def buffers (hdrs : List ℕ) : List ℕ := hdrs.map (· + sizeofMmbufhdr)

/-- The free list of a pool of blocks with the headers `hdrs` is a queue: it holds the blocks
that are not outstanding, in the order of their release. -/
structure IsQueue (poolp : ℕ) (hdrs : List ℕ) (r : PoolRun) (out rel free : List ℕ) : Prop where
  list : CircularList.Holds r.mem.mmnextfreep (r.mem.pools poolp).mmfreep free
  each_once : (buffers free ++ r.outstanding).Perm (buffers hdrs)
  nodup : (buffers hdrs).Nodup
  order : buffers hdrs ++ rel = out ++ buffers free

section Headers

variable {blocksize hdrp n : ℕ}

theorem headers_succ (blocksize hdrp n : ℕ) :
    headers blocksize hdrp (n + 1) = headers blocksize hdrp n ++ [hdrp + n * blocksize] := by
  induction n generalizing hdrp with
  | zero => simp [headers]
  | succ n ih =>
      have hpath : hdrp + blocksize + n * blocksize = hdrp + (n + 1) * blocksize := by ring
      rw [headers, ih, hpath]
      rfl

theorem le_of_mem_headers {p : ℕ} (hp : p ∈ headers blocksize hdrp n) : hdrp ≤ p := by
  induction n generalizing hdrp with
  | zero => exact absurd hp List.not_mem_nil
  | succ n ih =>
      rcases List.mem_cons.mp hp with rfl | hp
      · exact Nat.le_refl p
      · exact Nat.le_trans (Nat.le_add_right _ _) (ih hp)

theorem nodup_headers (hpos : 0 < blocksize) : (headers blocksize hdrp n).Nodup := by
  induction n generalizing hdrp with
  | zero => exact List.nodup_nil
  | succ n ih =>
      refine List.nodup_cons.mpr ⟨fun hmem => ?_, ih⟩
      have hle := le_of_mem_headers hmem
      omega

end Headers

section Format

open MmMemory

variable {poolp blocksize limit hdrp n : ℕ} {mem : MmMemory}

/-- The headers are formatted, each with the next one behind it, and nothing else is written. -/
structure Formatted (poolp blocksize : ℕ) (hdrs : List ℕ) (mem mem' : MmMemory) : Prop where
  header : ∀ p ∈ hdrs, mem'.mmsignature p = mmsignatureWord ∧ mem'.mmpoolp p = poolp ∧
    mem'.mmnextfreep p = p + blocksize
  other : ∀ p, p ∉ hdrs → mem'.mmsignature p = mem.mmsignature p ∧
    mem'.mmpoolp p = mem.mmpoolp p ∧ mem'.mmnextfreep p = mem.mmnextfreep p

/-- Blocks that lie in the memory are formatted. -/
theorem formatBlocks_of_le (hsize : sizeofMmbufhdr ≤ blocksize)
    (hlimit : hdrp + n * blocksize ≤ limit) :
    ∃ mem', mem.formatBlocks poolp blocksize limit n hdrp = .ok mem' ∧
      Formatted poolp blocksize (headers blocksize hdrp n) mem mem' := by
  induction n generalizing hdrp mem with
  | zero =>
      exact ⟨mem, rfl, fun p hp => absurd hp List.not_mem_nil, fun p _ => ⟨rfl, rfl, rfl⟩⟩
  | succ n ih =>
      have hpath : hdrp + (n + 1) * blocksize = hdrp + blocksize + n * blocksize := by ring
      rw [hpath] at hlimit
      have hfirst : hdrp + sizeofMmbufhdr ≤ limit := by
        calc hdrp + sizeofMmbufhdr ≤ hdrp + blocksize := Nat.add_le_add_left hsize hdrp
          _ ≤ hdrp + blocksize + n * blocksize := Nat.le_add_right _ _
          _ ≤ limit := hlimit
      obtain ⟨mem', hmem', hformatted⟩ := @ih _ (mem.formatBlock poolp blocksize hdrp) hlimit
      refine ⟨mem', by rw [formatBlocks, if_pos hfirst, hmem'], fun p hp => ?_, fun p hp => ?_⟩
      · by_cases hrest : p ∈ headers blocksize (hdrp + blocksize) n
        · exact hformatted.header p hrest
        · obtain rfl : p = hdrp := (List.mem_cons.mp hp).resolve_right hrest
          obtain ⟨hsig, hpool, hnext⟩ := hformatted.other p hrest
          exact ⟨hsig.trans (Function.update_self ..), hpool.trans (Function.update_self ..),
            hnext.trans (Function.update_self ..)⟩
      · obtain ⟨hne, hrest⟩ := not_or.mp (fun h => hp (List.mem_cons.mpr h))
        obtain ⟨hsig, hpool, hnext⟩ := hformatted.other p hrest
        exact ⟨hsig.trans (Function.update_of_ne hne ..),
          hpool.trans (Function.update_of_ne hne ..),
          hnext.trans (Function.update_of_ne hne ..)⟩

/-- A last block that does not lie in the memory is a fault. -/
theorem formatBlocks_of_lt (hlimit : limit < hdrp + n * blocksize + sizeofMmbufhdr) :
    mem.formatBlocks poolp blocksize limit (n + 1) hdrp = .error .outOfBounds := by
  induction n generalizing hdrp mem with
  | zero =>
      rw [Nat.zero_mul, Nat.add_zero] at hlimit
      rw [formatBlocks, if_neg (Nat.not_le.mpr hlimit)]
  | succ n ih =>
      rw [formatBlocks]
      split_ifs
      · have hpath : hdrp + (n + 1) * blocksize = hdrp + blocksize + n * blocksize := by ring
        exact ih (hpath ▸ hlimit)
      · rfl

/-- Headers that point to the ones behind them are a path. -/
theorem path_headers {next : ℕ → ℕ} {p : ℕ} (hp : next p = hdrp)
    (hnext : ∀ q ∈ headers blocksize hdrp n, next q = q + blocksize) :
    CircularList.Path next p (headers blocksize hdrp n) (hdrp + n * blocksize) := by
  induction n generalizing p hdrp with
  | zero =>
      rw [Nat.zero_mul, Nat.add_zero]
      exact hp
  | succ n ih =>
      have hpath : hdrp + (n + 1) * blocksize = hdrp + blocksize + n * blocksize := by ring
      rw [hpath]
      exact ⟨hp, ih (hnext hdrp (List.mem_cons_self ..)) fun q hq =>
        hnext q (List.mem_cons_of_mem _ hq)⟩

/-- The size of the blocks, before it is cut to 32 bits. -/
def fullSize (reqblocksz : UInt32) : ℕ :=
  ((reqblocksz + align4) &&& ~~~align4).toNat + sizeofMmbufhdr

theorem toNat_blockSize (reqblocksz : UInt32) :
    (blockSize reqblocksz).toNat = fullSize reqblocksz % 2 ^ 32 := by
  rw [blockSize, fullSize, UInt32.toNat_add]
  rfl

/-- Blocks whose size fits in 32 bits lie in the memory that is allocated for them. -/
theorem poolmax_of_lt {numblocks reqblocksz : UInt32} (hnum : 0 < numblocks.toNat)
    (hfits : fullSize reqblocksz * numblocks.toNat < 2 ^ 32) :
    (blockSize reqblocksz).toNat = fullSize reqblocksz ∧
      (blockSize reqblocksz * numblocks).toNat = fullSize reqblocksz * numblocks.toNat := by
  have hle : fullSize reqblocksz ≤ fullSize reqblocksz * numblocks.toNat :=
    Nat.le_mul_of_pos_right _ hnum
  have hsize : (blockSize reqblocksz).toNat = fullSize reqblocksz := by
    rw [toNat_blockSize, Nat.mod_eq_of_lt (Nat.lt_of_le_of_lt hle hfits)]
  refine ⟨hsize, ?_⟩
  rw [UInt32.toNat_mul, hsize, Nat.mod_eq_of_lt hfits]

/-- Of blocks whose size does not fit, the last one begins too late. -/
theorem poolmax_of_ge {n : ℕ} {numblocks reqblocksz : UInt32} (hnum : numblocks.toNat = n + 1)
    (hwrap : 2 ^ 32 ≤ fullSize reqblocksz * numblocks.toNat) :
    (blockSize reqblocksz * numblocks).toNat <
      n * (blockSize reqblocksz).toNat + sizeofMmbufhdr := by
  have hsize := toNat_blockSize reqblocksz
  have hlt := (blockSize reqblocksz).toNat_lt
  rw [UInt32.toNat_mul]
  generalize hbs : (blockSize reqblocksz).toNat = bs at hsize hlt ⊢
  have hsum : bs * numblocks.toNat = n * bs + bs := by
    rw [hnum]
    ring
  by_cases hfull : fullSize reqblocksz < 2 ^ 32
  · rw [Nat.mod_eq_of_lt hfull] at hsize
    rw [← hsize] at hwrap
    have hmod : bs * numblocks.toNat % 2 ^ 32 ≤ bs * numblocks.toNat - 2 ^ 32 := by
      rw [Nat.mod_eq_sub_mod hwrap]
      exact Nat.mod_le _ _
    omega
  · have hsmall : bs < sizeofMmbufhdr := by
      have hhalf := ((reqblocksz + align4) &&& ~~~align4).toNat_lt
      rw [fullSize] at hfull hsize
      rw [Nat.mod_eq_sub_mod (Nat.le_of_not_lt hfull)] at hsize
      have hmod := Nat.mod_le
        (((reqblocksz + align4) &&& ~~~align4).toNat + sizeofMmbufhdr - 2 ^ 32) (2 ^ 32)
      omega
    have hmod := Nat.mod_le (bs * numblocks.toNat) (2 ^ 32)
    omega

end Format

section Steps

open CircularList

variable {poolp : ℕ} {hdrs : List ℕ} {r : PoolRun} {out rel free : List ℕ} {bufferp : ℕ}

/-- The pool is valid, and so are the headers of its blocks. -/
structure Valid (poolp : ℕ) (hdrs : List ℕ) (mem : MmMemory) : Prop where
  pool : (mem.pools poolp).mmvalid = mmpoolvalid
  header : ∀ p ∈ hdrs, mem.mmsignature p = mmsignatureWord ∧ mem.mmpoolp p = poolp

theorem Valid.setFree {mem : MmMemory} (h : Valid poolp hdrs mem) (next : ℕ → ℕ)
    (last : Option ℕ) : Valid poolp hdrs (mem.setFree poolp next last) where
  pool := by
    simp only [MmMemory.setFree, Function.update_self]
    exact h.pool
  header := h.header

@[simp] theorem setFree_mmfreep (mem : MmMemory) (next : ℕ → ℕ) (last : Option ℕ) :
    ((mem.setFree poolp next last).pools poolp).mmfreep = last := by
  simp only [MmMemory.setFree, Function.update_self]

theorem buffers_append (hdrs hdrs' : List ℕ) :
    buffers (hdrs ++ hdrs') = buffers hdrs ++ buffers hdrs' :=
  List.map_append

theorem mem_buffers {p : ℕ} : p + sizeofMmbufhdr ∈ buffers hdrs ↔ p ∈ hdrs :=
  List.mem_map_of_injective fun _ _ h => Nat.add_right_cancel h

/-- The free blocks and the outstanding ones are different. -/
theorem IsQueue.disjoint (h : IsQueue poolp hdrs r out rel free) :
    (buffers free).Disjoint r.outstanding :=
  List.disjoint_of_nodup_append (h.each_once.nodup_iff.mpr h.nodup)

/-- There is no free block if all are outstanding, and no other one. -/
theorem IsQueue.eq_nil_iff (h : IsQueue poolp hdrs r out rel free) :
    free = [] ↔ ∀ b ∈ buffers hdrs, b ∈ r.outstanding := by
  constructor
  · rintro rfl b hb
    exact h.each_once.mem_iff.mpr hb
  · intro hall
    by_contra hne
    obtain ⟨p, free', rfl⟩ := List.exists_cons_of_ne_nil hne
    have hfree : p + sizeofMmbufhdr ∈ buffers (p :: free') := mem_buffers.mpr (List.mem_cons_self ..)
    have hmem := hall _ (h.each_once.mem_iff.mp (List.mem_append_left _ hfree))
    exact h.disjoint hfree hmem

/-- No free block is handed out. -/
theorem IsQueue.mmbufget_nil (h : IsQueue poolp hdrs r out rel [])
    (hvalid : Valid poolp hdrs r.mem) :
    poolStep poolp (some r) .mmbufget = (some ⟨r.mem, r.outstanding⟩, [.got none]) := by
  have hnone := h.list.eq_none_iff.mpr rfl
  simp [poolStep, MmMemory.mmbufget, hvalid.pool, hnone]

/-- The first free block is handed out. -/
theorem IsQueue.mmbufget_cons {p : ℕ} (h : IsQueue poolp hdrs r out rel (p :: free))
    (hvalid : Valid poolp hdrs r.mem) :
    ∃ mem, poolStep poolp (some r) .mmbufget =
        (some ⟨mem, r.outstanding ++ [p + sizeofMmbufhdr]⟩, [.got (some (p + sizeofMmbufhdr))]) ∧
      Valid poolp hdrs mem ∧
        IsQueue poolp hdrs ⟨mem, r.outstanding ++ [p + sizeofMmbufhdr]⟩
          (out ++ [p + sizeofMmbufhdr]) rel free := by
  have hlist := h.list
  cases hlast : (r.mem.pools poolp).mmfreep with
  | none =>
      rw [hlast, holds_none_iff] at hlist
      exact absurd hlist (List.cons_ne_nil p free)
  | some last =>
      rw [hlast] at hlist
      obtain ⟨hfirst, hrest⟩ := hlist.unlink
      refine ⟨r.mem.setFree poolp (unlink r.mem.mmnextfreep last).2.1
        (unlink r.mem.mmnextfreep last).2.2, ?_, hvalid.setFree _ _, ?_, ?_, h.nodup, ?_⟩
      · simp [poolStep, MmMemory.mmbufget, MmMemory.mmunlink, hvalid.pool, hlast, hfirst]
      · rw [setFree_mmfreep]
        exact hrest
      · have hperm : (buffers free ++ (r.outstanding ++ [p + sizeofMmbufhdr])).Perm
            ((p + sizeofMmbufhdr) :: (buffers free ++ r.outstanding)) := by
          rw [← List.append_assoc]
          exact List.perm_append_singleton _ _
        exact hperm.trans h.each_once
      · rw [List.append_assoc]
        exact h.order

/-- An outstanding block is put behind the free ones. -/
theorem IsQueue.mmbufrel (h : IsQueue poolp hdrs r out rel free)
    (hvalid : Valid poolp hdrs r.mem) (hmem : bufferp ∈ r.outstanding) :
    ∃ mem p, poolStep poolp (some r) (.mmbufrel bufferp) =
        (some ⟨mem, r.outstanding.erase bufferp⟩, []) ∧
      Valid poolp hdrs mem ∧
        IsQueue poolp hdrs ⟨mem, r.outstanding.erase bufferp⟩ out (rel ++ [bufferp])
          (free ++ [p]) := by
  have hbuffer : bufferp ∈ buffers hdrs :=
    h.each_once.mem_iff.mp (List.mem_append_right _ hmem)
  obtain ⟨p, hp, rfl⟩ := List.mem_map.mp hbuffer
  have hfree : p ∉ free := fun hp' => h.disjoint (mem_buffers.mpr hp') hmem
  obtain ⟨hsig, hpool⟩ := hvalid.header p hp
  refine ⟨r.mem.mmlink poolp p, p, ?_, hvalid.setFree _ _, ?_, ?_, h.nodup, ?_⟩
  · simp [poolStep, MmMemory.mmbufrel, hsig, hpool, hvalid.pool]
  · rw [MmMemory.mmlink, setFree_mmfreep]
    exact h.list.link hfree
  · have hperm : (buffers free ++ ((p + sizeofMmbufhdr) ::
        r.outstanding.erase (p + sizeofMmbufhdr))).Perm (buffers free ++ r.outstanding) :=
      (List.perm_cons_erase hmem).symm.append_left _
    rw [buffers_append, List.append_assoc]
    exact hperm.trans h.each_once
  · rw [buffers_append, ← List.append_assoc, ← List.append_assoc, h.order]
    rfl

/-- The first free block is handed out, if there is one. -/
theorem IsQueue.mmbufget (h : IsQueue poolp hdrs r out rel free)
    (hvalid : Valid poolp hdrs r.mem) :
    (poolStep poolp (some r) .mmbufget).2 = [.got (buffers free).head?] := by
  cases free with
  | nil => rw [h.mmbufget_nil hvalid]; rfl
  | cons p free =>
      obtain ⟨mem, hstep, -⟩ := h.mmbufget_cons hvalid
      rw [hstep]
      rfl

/-- The free list stays a queue. -/
theorem queues_run (h : IsQueue poolp hdrs r out rel free) (hvalid : Valid poolp hdrs r.mem)
    {ops : List PoolOp} (hmeets : Meets (poolStep poolp) ReleasesOutstanding (some r) ops) :
    ∃ r' free', after (poolStep poolp) (some r) ops = some r' ∧ Valid poolp hdrs r'.mem ∧
      IsQueue poolp hdrs r' (out ++ handedOut (outputs (poolStep poolp) (some r) ops))
        (rel ++ released ops) free' := by
  induction ops generalizing r out rel free with
  | nil =>
      refine ⟨r, free, rfl, hvalid, ?_⟩
      simpa [handedOut, released] using h
  | cons op ops ih =>
      obtain ⟨hop, hmeets⟩ := hmeets
      cases op with
      | mmbufget =>
          cases free with
          | nil =>
              have hstep := h.mmbufget_nil hvalid
              rw [hstep] at hmeets
              obtain ⟨r', free', hafter, hvalid', hqueue⟩ := ih h hvalid hmeets
              rw [after_cons, outputs_cons, hstep]
              exact ⟨r', free', hafter, hvalid', hqueue⟩
          | cons p free =>
              obtain ⟨mem, hstep, hvalid, hnext⟩ := h.mmbufget_cons hvalid
              rw [hstep] at hmeets
              obtain ⟨r', free', hafter, hvalid', hqueue⟩ := ih hnext hvalid hmeets
              rw [after_cons, outputs_cons, hstep]
              refine ⟨r', free', hafter, hvalid', ?_⟩
              rw [List.append_assoc] at hqueue
              exact hqueue
      | mmbufrel bufferp =>
          obtain ⟨mem, p, hstep, hvalid, hnext⟩ := h.mmbufrel hvalid hop
          rw [hstep] at hmeets
          obtain ⟨r', free', hafter, hvalid', hqueue⟩ := ih hnext hvalid hmeets
          rw [after_cons, outputs_cons, hstep]
          refine ⟨r', free', hafter, hvalid', ?_⟩
          rw [List.append_assoc] at hqueue
          exact hqueue

end Steps

section Create

variable {mem : MmMemory} {poolp pnamep memp : ℕ} {numblocks reqblocksz : UInt32}

/-- The headers of the blocks of a pool. -/
def poolHeaders (numblocks reqblocksz : UInt32) (memp : ℕ) : List ℕ :=
  headers (blockSize reqblocksz).toNat memp numblocks.toNat

/-- A pool is created and is a queue in every run: `mmbufget` hands out the block that is free
for longest, and nothing exactly if every block is outstanding. -/
def PoolIsQueue (mem : MmMemory) (poolp pnamep : ℕ) (numblocks reqblocksz : UInt32) (memp : ℕ) :
    Prop :=
  ∃ mem', mmpcreateAt mem poolp pnamep numblocks reqblocksz memp = .ok mem' ∧
    ∀ ops, Meets (poolStep poolp) ReleasesOutstanding (some ⟨mem', []⟩) ops →
      ∃ r free, after (poolStep poolp) (some ⟨mem', []⟩) ops = some r ∧
        IsQueue poolp (poolHeaders numblocks reqblocksz memp) r
          (handedOut (outputs (poolStep poolp) (some ⟨mem', []⟩) ops)) (released ops) free ∧
        (poolStep poolp (some r) .mmbufget).2 = [.got (buffers free).head?] ∧
        ((poolStep poolp (some r) .mmbufget).2 = [.got none] ↔
          ∀ b ∈ buffers (poolHeaders numblocks reqblocksz memp), b ∈ r.outstanding)

/-- A new pool: all blocks are free, in the order of their addresses. -/
theorem mmpcreateAt_of_lt (hpool : poolp ≠ 0) (hname : pnamep ≠ 0) (hnum : numblocks ≠ 0)
    (hsize : reqblocksz ≠ 0) (hmem : memp ≠ 0)
    (hfits : fullSize reqblocksz * numblocks.toNat < 2 ^ 32) :
    ∃ mem', mmpcreateAt mem poolp pnamep numblocks reqblocksz memp = .ok mem' ∧
      Valid poolp (poolHeaders numblocks reqblocksz memp) mem' ∧
      IsQueue poolp (poolHeaders numblocks reqblocksz memp) ⟨mem', []⟩ [] []
        (poolHeaders numblocks reqblocksz memp) := by
  have hpos : 0 < numblocks.toNat :=
    Nat.pos_of_ne_zero fun h => hnum (UInt32.toNat_inj.mp h)
  obtain ⟨hblock, hmax⟩ := poolmax_of_lt hpos hfits
  have hle : sizeofMmbufhdr ≤ (blockSize reqblocksz).toNat := by
    rw [hblock]
    exact Nat.le_add_left _ _
  have hlimit : memp + numblocks.toNat * (blockSize reqblocksz).toNat ≤
      memp + (blockSize reqblocksz * numblocks).toNat := by
    rw [hmax, hblock, Nat.mul_comm]
  obtain ⟨mem', hformat, hformatted⟩ := @formatBlocks_of_le poolp _ _ _ _ mem hle hlimit
  have hargs : ¬ (poolp = 0 ∨ pnamep = 0 ∨ numblocks = 0 ∨ reqblocksz = 0) := by
    simp [hpool, hname, hnum, hsize]
  obtain ⟨n, hn⟩ := Nat.exists_eq_succ_of_ne_zero (Nat.pos_iff_ne_zero.mp hpos)
  have hblockpos : 0 < (blockSize reqblocksz).toNat := Nat.lt_of_lt_of_le (by decide) hle
  have hnodup : (poolHeaders numblocks reqblocksz memp).Nodup := nodup_headers hblockpos
  have hsplit : poolHeaders numblocks reqblocksz memp =
      headers (blockSize reqblocksz).toNat memp n ++
        [memp + n * (blockSize reqblocksz).toNat] := by
    rw [poolHeaders, hn]
    exact headers_succ _ _ _
  rw [mmpcreateAt, if_neg hargs]
  simp only [if_neg hmem, hformat]
  refine ⟨_, rfl, ⟨?_, fun p hp => ?_⟩, ?_, ?_, ?_, ?_⟩
  · simp only [Function.update_self]
  · obtain ⟨hsig, hpoolp, -⟩ := hformatted.header p hp
    exact ⟨hsig, hpoolp⟩
  · simp only [Function.update_self]
    refine ⟨hnodup, headers (blockSize reqblocksz).toNat memp n, ?_, ?_⟩
    · rw [hsplit, hn]
      rfl
    · rw [hn]
      refine path_headers (Function.update_self ..) fun q hq => ?_
      have hne : q ≠ memp + n * (blockSize reqblocksz).toNat := by
        rintro rfl
        rw [hsplit] at hnodup
        exact (List.disjoint_of_nodup_append hnodup) hq (List.mem_singleton_self _)
      rw [Nat.succ_sub_one, Function.update_of_ne hne]
      have hmemq : q ∈ headers (blockSize reqblocksz).toNat memp numblocks.toNat := by
        rw [hn, headers_succ]
        exact List.mem_append_left _ hq
      exact (hformatted.header q hmemq).2.2
  · rw [List.append_nil]
  · exact List.Nodup.map (fun _ _ h => Nat.add_right_cancel h) hnodup
  · rw [List.append_nil, List.nil_append]

/-- A pool that does not fit in 32 bits is not created: a header is not in its memory. -/
theorem mmpcreateAt_of_ge (hpool : poolp ≠ 0) (hname : pnamep ≠ 0) (hnum : numblocks ≠ 0)
    (hsize : reqblocksz ≠ 0) (hmem : memp ≠ 0)
    (hwrap : 2 ^ 32 ≤ fullSize reqblocksz * numblocks.toNat) :
    mmpcreateAt mem poolp pnamep numblocks reqblocksz memp = .error .outOfBounds := by
  have hne : numblocks.toNat ≠ 0 := fun h => hnum (UInt32.toNat_inj.mp h)
  obtain ⟨n, hn⟩ := Nat.exists_eq_succ_of_ne_zero hne
  have hlimit : memp + (blockSize reqblocksz * numblocks).toNat <
      memp + n * (blockSize reqblocksz).toNat + sizeofMmbufhdr := by
    have hlt := poolmax_of_ge hn hwrap
    omega
  have hargs : ¬ (poolp = 0 ∨ pnamep = 0 ∨ numblocks = 0 ∨ reqblocksz = 0) := by
    simp [hpool, hname, hnum, hsize]
  rw [mmpcreateAt, if_neg hargs]
  simp only [if_neg hmem, hn, Nat.succ_eq_add_one, formatBlocks_of_lt hlimit]

/-- A pool is a queue exactly if the size of its memory fits in 32 bits. -/
theorem poolIsQueue_iff (mem : MmMemory) (hpool : poolp ≠ 0) (hname : pnamep ≠ 0)
    (hnum : numblocks ≠ 0) (hsize : reqblocksz ≠ 0) (hmem : memp ≠ 0) :
    PoolIsQueue mem poolp pnamep numblocks reqblocksz memp ↔
      fullSize reqblocksz * numblocks.toNat < 2 ^ 32 := by
  constructor
  · rintro ⟨mem', hcreate, -⟩
    by_contra hwrap
    rw [mmpcreateAt_of_ge hpool hname hnum hsize hmem (Nat.le_of_not_lt hwrap)] at hcreate
    cases hcreate
  · intro hfits
    obtain ⟨mem', hcreate, hvalid, hqueue⟩ :=
      @mmpcreateAt_of_lt mem _ _ _ _ _ hpool hname hnum hsize hmem hfits
    refine ⟨mem', hcreate, fun ops hmeets => ?_⟩
    obtain ⟨r, free, hafter, hvalid', hqueue'⟩ := queues_run hqueue hvalid hmeets
    have hget := hqueue'.mmbufget hvalid'
    refine ⟨r, free, hafter, hqueue', hget, ?_⟩
    rw [← hqueue'.eq_nil_iff, hget]
    simp [buffers]

/-- A memory without pools. -/
def unformatted : MmMemory where
  mmsignature := fun _ => 0
  mmnextfreep := fun _ => 0
  mmpoolp := fun _ => 0
  pools := fun _ => ⟨none, 0, 0, 0, 0, 0, 0⟩

/-- Three blocks of four bytes. -/
theorem poolIsQueue_three : PoolIsQueue unformatted 8 16 3 4 1024 :=
  (poolIsQueue_iff unformatted (by decide) (by decide) (by decide) (by decide) (by decide)).mpr
    (by decide)

/-- The blocks take `2 ^ 32 + 16` bytes, and the memory is of 16 bytes. -/
theorem not_poolIsQueue_wrapped :
    blockSize 4 * 0x10000001 = 16 ∧
      mmpcreateAt unformatted 8 16 0x10000001 4 1024 = .error .outOfBounds ∧
      ¬ PoolIsQueue unformatted 8 16 0x10000001 4 1024 := by
  have hfault : mmpcreateAt unformatted 8 16 0x10000001 4 1024 = .error .outOfBounds :=
    mmpcreateAt_of_ge (by decide) (by decide) (by decide) (by decide) (by decide) (by decide)
  refine ⟨by decide, hfault, ?_⟩
  rintro ⟨mem', hcreate, -⟩
  rw [hfault] at hcreate
  cases hcreate

end Create

end Mm

end SierraSdk
