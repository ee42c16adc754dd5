import Mathlib.Data.List.Basic
import Mathlib.Logic.Function.Basic

/-!
# A heap of blocks

A block has an address of its own, and there is no arithmetic on addresses. `malloc` takes an
address that was never used, so a pointer to a block that was freed stays a pointer to nothing;
`free` and `write` fail there. `freeAll` frees blocks one after the other, which succeeds on
different blocks that are live (`exists_freeAll`).
-/

namespace BlockHeap

variable {β : Type*}

/-- Blocks at the addresses below `next`. -/
structure Heap (β : Type*) where
  block : ℕ → Option β
  next : ℕ
  fresh : ∀ q, next ≤ q → block q = none

namespace Heap

variable {h h' : Heap β} {q : ℕ}

/-- A heap without blocks. -/
def empty : Heap β where
  block := fun _ => none
  next := 0
  fresh := fun _ _ => rfl

/-- There is a block at an address. -/
def Live (h : Heap β) (q : ℕ) : Prop := (h.block q).isSome

instance (h : Heap β) (q : ℕ) : Decidable (h.Live q) := inferInstanceAs (Decidable (_ = true))

theorem Live.lt (hq : h.Live q) : q < h.next := by
  by_contra hge
  rw [Live, h.fresh q (Nat.le_of_not_lt hge)] at hq
  cases hq

theorem live_of_eq_some {b : β} (hq : h.block q = some b) : h.Live q := by
  rw [Live, hq]
  rfl

theorem fresh_malloc (h : Heap β) (b : β) :
    ∀ q, h.next + 1 ≤ q → Function.update h.block h.next (some b) q = none := by
  intro q hq
  rw [Function.update_of_ne (Nat.ne_of_gt hq)]
  exact h.fresh q (Nat.le_of_succ_le hq)

theorem fresh_update (hlive : h.Live q) (b : Option β) :
    ∀ q', h.next ≤ q' → Function.update h.block q b q' = none := by
  intro q' hq'
  rw [Function.update_of_ne (Nat.ne_of_gt (Nat.lt_of_lt_of_le hlive.lt hq'))]
  exact h.fresh q' hq'

/-- A new block. -/
def malloc (h : Heap β) (b : β) : ℕ × Heap β :=
  (h.next,
    { block := Function.update h.block h.next (some b)
      next := h.next + 1
      fresh := fresh_malloc h b })

/-- The block at an address is given back. -/
def free (h : Heap β) (q : ℕ) : Option (Heap β) :=
  if hlive : h.Live q then
    some
      { block := Function.update h.block q none
        next := h.next
        fresh := fresh_update hlive none }
  else none

/-- The block at an address is replaced. -/
def write (h : Heap β) (q : ℕ) (b : β) : Option (Heap β) :=
  if hlive : h.Live q then
    some
      { block := Function.update h.block q (some b)
        next := h.next
        fresh := fresh_update hlive (some b) }
  else none

/-- The blocks at some addresses are given back in turn. -/
def freeAll (h : Heap β) : List ℕ → Option (Heap β)
  | [] => some h
  | q :: qs => (h.free q).bind fun h' => h'.freeAll qs

theorem block_malloc_self (b : β) : (h.malloc b).2.block h.next = some b :=
  Function.update_self ..

theorem block_malloc_of_ne (b : β) (hq : q ≠ h.next) : (h.malloc b).2.block q = h.block q :=
  Function.update_of_ne hq ..

/-- A new block is none of the live ones. -/
theorem block_malloc_of_live (b : β) (hlive : h.Live q) : (h.malloc b).2.block q = h.block q :=
  block_malloc_of_ne b (Nat.ne_of_lt hlive.lt)

theorem live_malloc_iff (b : β) : (h.malloc b).2.Live q ↔ q = h.next ∨ h.Live q := by
  unfold Live
  by_cases hq : q = h.next
  · rw [hq, block_malloc_self]
    simp
  · rw [block_malloc_of_ne b hq]
    simp [hq]

theorem exists_free (hlive : h.Live q) :
    ∃ h', h.free q = some h' ∧ h'.block = Function.update h.block q none ∧ h'.next = h.next :=
  ⟨_, dif_pos hlive, rfl, rfl⟩

theorem exists_write (hlive : h.Live q) (b : β) :
    ∃ h', h.write q b = some h' ∧ h'.block = Function.update h.block q (some b) ∧
      h'.next = h.next :=
  ⟨_, dif_pos hlive, rfl, rfl⟩

/-- Different live blocks are all given back, and the other ones stay. -/
theorem exists_freeAll {qs : List ℕ} (hnodup : qs.Nodup) (hlive : ∀ q ∈ qs, h.Live q) :
    ∃ h', h.freeAll qs = some h' ∧ (∀ q, h'.block q = if q ∈ qs then none else h.block q) ∧
      h'.next = h.next := by
  induction qs generalizing h with
  | nil => exact ⟨h, rfl, fun q => by simp, rfl⟩
  | cons q qs ih =>
      obtain ⟨hq, hnodup⟩ := List.nodup_cons.mp hnodup
      obtain ⟨h₁, hfree, hblock, hnext⟩ := exists_free (hlive q List.mem_cons_self)
      have hlive₁ : ∀ q' ∈ qs, h₁.Live q' := by
        intro q' hq'
        have hne : q' ≠ q := fun heq => hq (heq ▸ hq')
        unfold Live
        rw [hblock, Function.update_of_ne hne]
        exact hlive q' (List.mem_cons_of_mem _ hq')
      obtain ⟨h₂, hall, hblocks, hnext₂⟩ := ih hnodup hlive₁
      refine ⟨h₂, by rw [freeAll, hfree]; exact hall, fun q' => ?_, hnext₂.trans hnext⟩
      rw [hblocks q', hblock]
      by_cases heq : q' = q
      · rw [heq]
        simp [hq]
      · by_cases hmem : q' ∈ qs
        · simp [hmem]
        · simp [hmem, heq]

/-- Every block stays, and there may be more. -/
structure Grows (h h' : Heap β) : Prop where
  next : h.next ≤ h'.next
  block : ∀ q, h.Live q → h'.block q = h.block q

theorem Grows.refl (h : Heap β) : Grows h h := ⟨Nat.le_refl _, fun _ _ => rfl⟩

theorem Grows.live (hgrows : Grows h h') (hlive : h.Live q) : h'.Live q := by
  unfold Live
  rw [hgrows.block q hlive]
  exact hlive

theorem Grows.trans {h'' : Heap β} (h₁ : Grows h h') (h₂ : Grows h' h'') : Grows h h'' :=
  ⟨Nat.le_trans h₁.next h₂.next,
    fun q hq => (h₂.block q (h₁.live hq)).trans (h₁.block q hq)⟩

theorem grows_malloc (h : Heap β) (b : β) : Grows h (h.malloc b).2 :=
  ⟨Nat.le_succ _, fun _ hq => block_malloc_of_live b hq⟩

end Heap

end BlockHeap
