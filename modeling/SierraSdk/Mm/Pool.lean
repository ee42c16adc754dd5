import Mathlib.Data.List.Basic

/-!
# Fixed-size memory pools

The pools of package mm. The blocks of a pool lie one after the other in memory, each
behind a header that begins with a signature; the free list is a queue. A block is named
by its position in the pool, and its signature by the four bytes it occupies, in the
little-endian order of the targets. The contents of a block belong to its user and are
not kept here.

Bytes written past the end of a block land on the header of the next one. `overrun` says
what becomes of that header; past the last block there is no memory of the pool, and the
result is `none`.
-/

namespace SierraSdk

namespace Mm

/-- `MMSIGNATURE` as it lies in memory. -/
def mmsignature : List UInt8 := [0xfe, 0xca, 0xef, 0xbe]

/-- A pool: the size of the blocks, the signature in each block's header, and the free
blocks, first to be handed out first. -/
structure MmPool where
  mmblocksize : ℕ
  mmsignatures : List (List UInt8)
  mmfree : List ℕ
  deriving DecidableEq

/-- A fresh pool of `numblocks` blocks, of the requested size rounded up to the next
multiple of four. -/
def mmpcreate (numblocks reqblocksz : ℕ) : MmPool where
  mmblocksize := (reqblocksz + 3) / 4 * 4
  mmsignatures := List.replicate numblocks mmsignature
  mmfree := List.range numblocks

/-- Take the first free block; `none` when the pool is empty. -/
def MmPool.mmbufget (pool : MmPool) : Option (ℕ × MmPool) :=
  match pool.mmfree with
  | [] => none
  | blk :: free => some (blk, { pool with mmfree := free })

/-- Put a block back at the end of the free list; `none` is the abort on a block whose
signature is not intact. -/
def MmPool.mmbufrel (pool : MmPool) (blk : ℕ) : Option MmPool :=
  if pool.mmsignatures[blk]? = some mmsignature then
    some { pool with mmfree := pool.mmfree ++ [blk] }
  else none

/-- A signature with the bytes `excess` written over it. -/
def overwritten (excess sig : List UInt8) : List UInt8 :=
  (excess ++ sig.drop excess.length).take sig.length

/-- The pool after `bytes` were written to a block: what does not fit in the block
overwrites the signature behind it, and `none` means that nothing of the pool lies
there. -/
def MmPool.overrun (pool : MmPool) (blk : ℕ) (bytes : List UInt8) : Option MmPool :=
  if bytes.length ≤ pool.mmblocksize then some pool
  else if blk + 1 < pool.mmsignatures.length then
    some { pool with
      mmsignatures := pool.mmsignatures.modify (blk + 1)
        (overwritten (bytes.drop pool.mmblocksize)) }
  else none

/-- Writing to a block leaves its own signature alone. -/
theorem MmPool.overrun_signature {pool pool' : MmPool} {blk : ℕ} {bytes : List UInt8}
    (h : pool.overrun blk bytes = some pool') :
    pool'.mmsignatures[blk]? = pool.mmsignatures[blk]? := by
  rw [overrun] at h
  split_ifs at h
  · rw [Option.some.inj h]
  · rw [← Option.some.inj h]
    exact List.getElem?_modify_ne _ _ (Nat.succ_ne_self blk)

/-- A byte that a signature does not have destroys it. -/
theorem overwritten_ne {excess sig : List UInt8} {b : UInt8} (hb : b ∈ excess)
    (hlen : excess.length ≤ sig.length) (hsig : b ∉ sig) : overwritten excess sig ≠ sig := by
  intro heq
  apply hsig
  rw [← heq, overwritten, List.take_append, List.take_of_length_le hlen]
  exact List.mem_append_left _ hb

/-- A pool with a free block, in which the signatures of the free blocks are intact. -/
structure MmPool.Intact (pool : MmPool) : Prop where
  mmfree_ne : pool.mmfree ≠ []
  signed : ∀ blk ∈ pool.mmfree, pool.mmsignatures[blk]? = some mmsignature

/-- Taking a block, writing what fits to it and putting it back leaves an intact pool. -/
theorem MmPool.Intact.cycle {pool : MmPool} (h : pool.Intact) {bytes : List UInt8}
    (hlen : bytes.length ≤ pool.mmblocksize) {blk : ℕ} {taken : MmPool}
    (hget : pool.mmbufget = some (blk, taken)) :
    ∃ pool', ((taken.overrun blk bytes).bind fun p => p.mmbufrel blk) = some pool' ∧
      pool'.Intact ∧ pool'.mmblocksize = pool.mmblocksize := by
  obtain ⟨first, free, heq⟩ := List.exists_cons_of_ne_nil h.mmfree_ne
  rw [mmbufget, heq] at hget
  obtain ⟨rfl, rfl⟩ := Prod.mk.inj (Option.some.inj hget)
  have hsigned : pool.mmsignatures[first]? = some mmsignature :=
    h.signed first (by rw [heq]; exact List.mem_cons_self ..)
  have hoverrun : MmPool.overrun { pool with mmfree := free } first bytes =
      some { pool with mmfree := free } := if_pos hlen
  rw [hoverrun, Option.bind_some, mmbufrel, if_pos hsigned]
  refine ⟨_, rfl, ⟨by simp, fun blk hblk => ?_⟩, rfl⟩
  rcases List.mem_append.mp hblk with hblk | hblk
  · exact h.signed blk (by rw [heq]; exact List.mem_cons_of_mem _ hblk)
  · rw [List.mem_singleton.mp hblk]
    exact hsigned

end Mm

end SierraSdk
