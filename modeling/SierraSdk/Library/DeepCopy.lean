import SierraSdk.Library.BlockHeap
import Mathlib.Data.List.Forall2
import Mathlib.Data.List.Range

/-!
# Deep copies in a heap of blocks

A block holds bytes, or cells: plain numbers, pointers, and what was never written. `Copied` says
that a pointer into one heap leads to the same as a pointer into another one, and lists the blocks
that the second one leads to.

`eachCell` goes over cells of a block and writes cells of another one, or of the same. When the
cells are pointers to bytes, null or not, and each that is not null is replaced by a pointer to a
copy of its bytes, the copies are at the addresses in a row from the next one on (`renamed`,
`eachCell_copies`). `releaseCells` frees what cells point to.
-/

namespace DeepCopy

open BlockHeap

/-- A cell of a block. -/
inductive Cell where
  | undefined
  | plain (n : ℕ)
  | pointer (p : Option ℕ)
  deriving DecidableEq

/-- A block of bytes, or of cells with their size. -/
inductive DataBlock where
  | bytes (content : List UInt8)
  | cells (size : ℕ) (content : List Cell)
  deriving DecidableEq

mutual

/-- A pointer into `h'` leads to blocks like those that a pointer into `h` leads to. -/
inductive Copied (h h' : Heap DataBlock) : Option ℕ → Option ℕ → List ℕ → Prop where
  | null : Copied h h' none none []
  | bytes {p p' : ℕ} {content : List UInt8} (hp : h.block p = some (.bytes content))
      (hp' : h'.block p' = some (.bytes content)) : Copied h h' (some p) (some p') [p']
  | cells {p p' size : ℕ} {cs cs' : List Cell} {qs : List ℕ}
      (hp : h.block p = some (.cells size cs)) (hp' : h'.block p' = some (.cells size cs'))
      (hcells : CopiedCells h h' cs cs' qs) : Copied h h' (some p) (some p') (p' :: qs)

/-- Cells that lead to the same, one by one. -/
inductive CopiedCells (h h' : Heap DataBlock) : List Cell → List Cell → List ℕ → Prop where
  | nil : CopiedCells h h' [] [] []
  | plain (n : ℕ) {cs cs' : List Cell} {qs : List ℕ} (hcells : CopiedCells h h' cs cs' qs) :
      CopiedCells h h' (.plain n :: cs) (.plain n :: cs') qs
  | pointer {p p' : Option ℕ} {cs cs' : List Cell} {qs qs' : List ℕ} (hcell : Copied h h' p p' qs)
      (hcells : CopiedCells h h' cs cs' qs') :
      CopiedCells h h' (.pointer p :: cs) (.pointer p' :: cs') (qs ++ qs')

end

/-- The cell of a block. -/
def cell (h : Heap DataBlock) (q i : ℕ) : Option Cell :=
  match h.block q with
  | some (.cells _ cs) => cs[i]?
  | _ => none

/-- A cell of a block is written. -/
def setCell (h : Heap DataBlock) (q i : ℕ) (c : Cell) : Option (Heap DataBlock) :=
  match h.block q with
  | some (.cells size cs) => if i < cs.length then h.write q (.cells size (cs.set i c)) else none
  | _ => none

/-- What is done with a cell that is read: the cell to write, if there is one. -/
abbrev Action := Heap DataBlock → Cell → Option (Option Cell × Heap DataBlock)

/-- The cells at some indices are read in one block and written in another one. -/
def eachCell (act : Action) (src : Option ℕ) (ret : ℕ) :
    List ℕ → Heap DataBlock → Option (Heap DataBlock)
  | [], h => some h
  | i :: is, h =>
      (src.bind fun src => cell h src i).bind fun c =>
        (act h c).bind fun r =>
          match r.1 with
          | none => eachCell act src ret is r.2
          | some c => (setCell r.2 ret i c).bind fun h => eachCell act src ret is h

/-- What the cells at some indices point to is freed. -/
def releaseCells (p : ℕ) : List ℕ → Heap DataBlock → Option (Heap DataBlock)
  | [], h => some h
  | i :: is, h =>
      match cell h p i with
      | some (.pointer none) => releaseCells p is h
      | some (.pointer (some q)) => (h.free q).bind fun h => releaseCells p is h
      | _ => none

/-- Pointers to new blocks in a row, where pointers are not null. -/
def renamed : ℕ → List (Option ℕ) → List (Option ℕ)
  | _, [] => []
  | next, none :: ps => none :: renamed next ps
  | next, some _ :: ps => some next :: renamed (next + 1) ps

/-- Cells of which some are replaced by pointers. -/
def merge (mid : List Cell) (rs : List (Option ℕ)) : List Cell :=
  List.zipWith (fun c r => r.elim c fun q => .pointer (some q)) mid rs

/-- The action on a pointer to bytes that is a copy of the bytes. -/
structure Copies (act : Action) (Good : List UInt8 → Prop) : Prop where
  null : ∀ h, act h (.pointer none) = some (none, h)
  copy : ∀ h q content, h.block q = some (.bytes content) → Good content →
    act h (.pointer (some q)) =
      some (some (.pointer (some h.next)), (h.malloc (.bytes content)).2)

/-- Pointers that are null or lead to bytes. -/
def LeadToBytes (h : Heap DataBlock) (Good : List UInt8 → Prop) (ps : List (Option ℕ)) : Prop :=
  ∀ q, some q ∈ ps → ∃ content, h.block q = some (.bytes content) ∧ Good content

/-- Two pointers that are null, or lead to the same bytes. -/
def SameBytes (h h' : Heap DataBlock) (p r : Option ℕ) : Prop :=
  (p = none ∧ r = none) ∨ ∃ q q' content, p = some q ∧ r = some q' ∧
    h.block q = some (.bytes content) ∧ h'.block q' = some (.bytes content)

/-- Behind a block at the next address lie copies of the bytes that pointers lead to, and nothing
else is new. -/
structure CopiesOf (h h' : Heap DataBlock) (ps : List (Option ℕ)) : Prop where
  same : List.Forall₂ (SameBytes h h') ps (renamed (h.next + 1) ps)
  kept : ∀ a, a < h.next → h'.block a = h.block a
  next : h'.next = h.next + 1 + ps.countP Option.isSome

section Renamed

variable {next a : ℕ} {ps ps' : List (Option ℕ)}

@[simp] theorem length_renamed (next : ℕ) (ps : List (Option ℕ)) :
    (renamed next ps).length = ps.length := by
  induction ps generalizing next with
  | nil => rfl
  | cons p ps ih =>
      cases p with
      | none => exact congrArg (· + 1) (ih next)
      | some q => exact congrArg (· + 1) (ih (next + 1))

/-- The new pointers lead to addresses in a row. -/
theorem filterMap_renamed (next : ℕ) (ps : List (Option ℕ)) :
    (renamed next ps).filterMap id = List.range' next (ps.countP Option.isSome) := by
  induction ps generalizing next with
  | nil => rfl
  | cons p ps ih =>
      cases p with
      | none =>
          rw [renamed, List.filterMap_cons_none rfl, ih, List.countP_cons_of_neg (by simp)]
      | some q =>
          have hfirst : (some next :: renamed (next + 1) ps).filterMap id =
              next :: (renamed (next + 1) ps).filterMap id := rfl
          rw [renamed, hfirst, ih, List.countP_cons_of_pos (by simp), List.range'_succ]

theorem renamed_append (next : ℕ) (ps ps' : List (Option ℕ)) :
    renamed next (ps ++ ps') =
      renamed next ps ++ renamed (next + ps.countP Option.isSome) ps' := by
  induction ps generalizing next with
  | nil => rfl
  | cons p ps ih =>
      cases p with
      | none =>
          rw [List.cons_append, renamed, renamed, ih, List.countP_cons_of_neg (by simp)]
          rfl
      | some q =>
          rw [List.cons_append, renamed, renamed, ih, List.countP_cons_of_pos (by simp),
            Nat.add_right_comm, Nat.add_assoc]
          rfl

theorem mem_renamed (h : some a ∈ renamed next ps) :
    next ≤ a ∧ a < next + ps.countP Option.isSome := by
  have hmem : a ∈ (renamed next ps).filterMap id := List.mem_filterMap.mpr ⟨some a, h, rfl⟩
  rw [filterMap_renamed, List.mem_range'_1] at hmem
  exact hmem

end Renamed

section Cells

variable {h h' : Heap DataBlock} {q i size : ℕ} {c m : Cell} {cs front rear : List Cell}

theorem cell_eq (hq : h.block q = some (.cells size cs)) : cell h q i = cs[i]? := by
  rw [cell, hq]

theorem cell_append (hq : h.block q = some (.cells size (front ++ c :: rear))) :
    cell h q front.length = some c := by
  rw [cell_eq hq, List.getElem?_append_right (Nat.le_refl _), Nat.sub_self]
  rfl

/-- A cell is written and the other ones stay. -/
theorem exists_setCell (hq : h.block q = some (.cells size (front ++ m :: rear))) (c : Cell) :
    ∃ h', setCell h q front.length c = some h' ∧
      h'.block = Function.update h.block q (some (.cells size (front ++ c :: rear))) ∧
      h'.next = h.next := by
  have hset : (front ++ m :: rear).set front.length c = front ++ c :: rear := by
    rw [List.set_append_right _ _ (Nat.le_refl _), Nat.sub_self]
    rfl
  have hlt : front.length < (front ++ m :: rear).length := by
    rw [List.length_append, List.length_cons]
    omega
  rw [setCell, hq]
  dsimp only
  rw [if_pos hlt, hset]
  exact Heap.exists_write (Heap.live_of_eq_some hq) _

/-- No cell of a copy was never written. -/
theorem CopiedCells.defined {cs cs' : List Cell} {qs : List ℕ} (hc : CopiedCells h h' cs cs' qs) :
    Cell.undefined ∉ cs' := by
  induction cs' generalizing cs qs with
  | nil => exact List.not_mem_nil
  | cons c' cs' ih =>
      cases hc with
      | plain n hcells => simp [ih hcells]
      | pointer hcell hcells => simp [ih hcells]

/-- The blocks that the cells of a copy lead to are among those that are listed. -/
theorem CopiedCells.mem_of_pointer {cs cs' : List Cell} {qs : List ℕ}
    (hc : CopiedCells h h' cs cs' qs) (hmem : .pointer (some q) ∈ cs') : q ∈ qs := by
  induction cs' generalizing cs qs with
  | nil => exact absurd hmem List.not_mem_nil
  | cons c' cs' ih =>
      cases hc with
      | plain n hcells =>
          have hrest : .pointer (some q) ∈ cs' := by simpa using hmem
          exact ih hcells hrest
      | pointer hcell hcells =>
          rcases List.mem_cons.mp hmem with heq | hrest
          · obtain rfl := Cell.pointer.inj heq
            cases hcell with
            | bytes hp hp' => exact List.mem_append_left _ (List.mem_singleton_self q)
            | cells hp hp' hcells' => exact List.mem_append_left _ (List.mem_cons_self ..)
          · exact List.mem_append_right _ (ih hcells hrest)

theorem CopiedCells.append {cs₁ cs₁' cs₂ cs₂' : List Cell} {qs₁ qs₂ : List ℕ}
    (h₁ : CopiedCells h h' cs₁ cs₁' qs₁) (h₂ : CopiedCells h h' cs₂ cs₂' qs₂) :
    CopiedCells h h' (cs₁ ++ cs₂) (cs₁' ++ cs₂') (qs₁ ++ qs₂) := by
  induction cs₁' generalizing cs₁ qs₁ with
  | nil =>
      cases h₁ with
      | nil => exact h₂
  | cons c' cs₁' ih =>
      cases h₁ with
      | plain n hcells => exact .plain n (ih hcells)
      | pointer hcell hcells =>
          rw [List.append_assoc]
          exact .pointer hcell (ih hcells)

/-- Pointers to the same bytes, as cells. -/
theorem copiedCells_of_sameBytes {ps rs : List (Option ℕ)}
    (hsame : List.Forall₂ (SameBytes h h') ps rs) :
    CopiedCells h h' (ps.map .pointer) (rs.map .pointer) (rs.filterMap id) := by
  induction hsame with
  | nil => exact .nil
  | cons hfirst _ ih =>
      rcases hfirst with ⟨rfl, rfl⟩ | ⟨q, q', content, rfl, rfl, hq, hq'⟩
      · exact .pointer .null ih
      · exact .pointer (.bytes hq hq') ih

/-- Cells without pointers to blocks are like themselves. -/
theorem copiedCells_self (hcs : ∀ c ∈ cs, (∃ n, c = .plain n) ∨ c = .pointer none) :
    CopiedCells h h' cs cs [] := by
  induction cs with
  | nil => exact .nil
  | cons c cs ih =>
      obtain ⟨hc, hrest⟩ := List.forall_mem_cons.mp hcs
      rcases hc with ⟨n, rfl⟩ | rfl
      · exact .plain n (ih hrest)
      · exact .pointer .null (ih hrest)

end Cells

section Copies

variable {act : Action} {Good : List UInt8 → Prop} {h h₀ : Heap DataBlock} {src ret size ssize : ℕ}
  {ps : List (Option ℕ)} {mid front rear sfront srear : List Cell}

theorem merge_cons_none (m : Cell) (mid : List Cell) (rs : List (Option ℕ)) :
    merge (m :: mid) (none :: rs) = m :: merge mid rs := rfl

theorem merge_cons_some (m : Cell) (mid : List Cell) (q : ℕ) (rs : List (Option ℕ)) :
    merge (m :: mid) (some q :: rs) = .pointer (some q) :: merge mid rs := rfl

theorem merge_append {mid mid' : List Cell} {rs rs' : List (Option ℕ)}
    (h : mid.length = rs.length) :
    merge (mid ++ mid') (rs ++ rs') = merge mid rs ++ merge mid' rs' :=
  List.zipWith_append h

/-- A pointer was there before, or is one of those that were put there. -/
theorem getElem?_merge {mid : List Cell} {rs : List (Option ℕ)} {i q : ℕ}
    (h : (merge mid rs)[i]? = some (.pointer (some q))) :
    mid[i]? = some (.pointer (some q)) ∨ rs[i]? = some (some q) := by
  obtain ⟨m, r, hm, hr, heq⟩ := List.getElem?_zipWith_eq_some.mp h
  cases r with
  | none => exact .inl (hm.trans (congrArg some heq))
  | some a =>
      obtain rfl := Option.some.inj (Cell.pointer.inj heq)
      exact .inr hr

/-- Pointers that are null stay where they are. -/
theorem merge_map_renamed (next : ℕ) (ps : List (Option ℕ)) :
    merge (ps.map .pointer) (renamed next ps) = (renamed next ps).map .pointer := by
  induction ps generalizing next with
  | nil => rfl
  | cons p ps ih =>
      cases p with
      | none => exact congrArg (_ :: ·) (ih next)
      | some q => exact congrArg (_ :: ·) (ih (next + 1))

theorem merge_replicate (rs : List (Option ℕ)) :
    merge (List.replicate rs.length (.pointer none)) rs = rs.map .pointer := by
  induction rs with
  | nil => rfl
  | cons r rs ih =>
      cases r with
      | none => exact congrArg (_ :: ·) ih
      | some q => exact congrArg (_ :: ·) ih

/-- The bytes of a pointer are copied, and the pointer to the copy is written. -/
theorem exists_writeCopy {m : Cell} (content : List UInt8)
    (hret : h.block ret = some (.cells size (front ++ m :: rear))) :
    ∃ h', setCell (h.malloc (.bytes content)).2 ret front.length (.pointer (some h.next)) =
        some h' ∧
      h'.block ret = some (.cells size (front ++ .pointer (some h.next) :: rear)) ∧
      h'.block h.next = some (.bytes content) ∧
      (∀ a, a < h.next → a ≠ ret → h'.block a = h.block a) ∧ h'.next = h.next + 1 := by
  have hlive : h.Live ret := Heap.live_of_eq_some hret
  have hret' : (h.malloc (.bytes content)).2.block ret =
      some (.cells size (front ++ m :: rear)) := by
    rw [Heap.block_malloc_of_live _ hlive, hret]
  obtain ⟨h', hset, hblock, hnext⟩ := exists_setCell hret' (.pointer (some h.next))
  refine ⟨h', hset, ?_, ?_, fun a ha hne => ?_, hnext⟩
  · rw [hblock, Function.update_self]
  · rw [hblock, Function.update_of_ne (Nat.ne_of_gt hlive.lt), Heap.block_malloc_self]
  · rw [hblock, Function.update_of_ne hne, Heap.block_malloc_of_ne _ (Nat.ne_of_lt ha)]

/-- The loop replaces the pointers that are not null by pointers to copies. The cells are read in
another block, or in the one that is written. -/
theorem eachCell_copies (hact : Copies act Good)
    (hret : h.block ret = some (.cells size (front ++ (mid ++ rear))))
    (hsrc : h.block src = some (.cells ssize (sfront ++ (ps.map .pointer ++ srear))))
    (hmid : mid.length = ps.length) (hfront : sfront.length = front.length)
    (hps : LeadToBytes h₀ Good ps) (hagree : ∀ q, some q ∈ ps → h.block q = h₀.block q) :
    ∃ h', eachCell act (some src) ret (List.range' front.length ps.length) h = some h' ∧
      h'.block ret = some (.cells size (front ++ (merge mid (renamed h.next ps) ++ rear))) ∧
      List.Forall₂ (SameBytes h₀ h') ps (renamed h.next ps) ∧
      (∀ a, a < h.next → a ≠ ret → h'.block a = h.block a) ∧
      h'.next = h.next + ps.countP Option.isSome := by
  induction ps generalizing h mid front sfront with
  | nil =>
      obtain rfl := List.length_eq_zero_iff.mp hmid
      exact ⟨h, rfl, hret, .nil, fun a _ _ => rfl, rfl⟩
  | cons p ps ih =>
      obtain ⟨m, mid, rfl⟩ := List.exists_cons_of_length_eq_add_one hmid
      have hread : cell h src front.length = some (.pointer p) := by
        rw [← hfront]
        exact cell_append hsrc
      have hmid' : mid.length = ps.length := Nat.succ.inj hmid
      have hlen : ∀ c : Cell, front.length + 1 = (front ++ [c]).length := fun c => by
        rw [List.length_append, List.length_singleton]
      have hps' : LeadToBytes h₀ Good ps := fun q hq => hps q (List.mem_cons_of_mem _ hq)
      rw [List.length_cons, List.range'_succ, eachCell, Option.bind_some, hread, Option.bind_some]
      cases p with
      | none =>
          have hret' : h.block ret = some (.cells size ((front ++ [m]) ++ (mid ++ rear))) := by
            rw [hret, List.append_assoc]
            rfl
          have hsrc' : h.block src =
              some (.cells ssize ((sfront ++ [.pointer none]) ++ (ps.map .pointer ++ srear))) := by
            rw [hsrc, List.append_assoc]
            rfl
          obtain ⟨h', hloop, hblock, hsame, hframe, hnext⟩ := ih hret' hsrc' hmid'
            (by rw [List.length_append, List.length_append, hfront]; rfl) hps'
            fun q hq => hagree q (List.mem_cons_of_mem _ hq)
          refine ⟨h', ?_, ?_, .cons (.inl ⟨rfl, rfl⟩) hsame, hframe, ?_⟩
          · rw [hact.null, Option.bind_some, hlen m]
            exact hloop
          · rw [hblock, renamed, merge_cons_none, List.append_assoc]
            rfl
          · rw [hnext, List.countP_cons_of_neg (by simp)]
      | some q =>
          obtain ⟨content, hq₀, hgood⟩ := hps q (List.mem_cons_self ..)
          have hq : h.block q = some (.bytes content) :=
            (hagree q (List.mem_cons_self ..)).trans hq₀
          obtain ⟨h₁, hset, hret₁, hcopy, hkept, hnext₁⟩ := exists_writeCopy content hret
          have hret₁' : h₁.block ret =
              some (.cells size ((front ++ [.pointer (some h.next)]) ++ (mid ++ rear))) := by
            rw [hret₁, List.append_assoc]
            rfl
          -- The cells that are still to be read are as they were, also in the block to write.
          obtain ⟨c, hsrc₁⟩ : ∃ c, h₁.block src =
              some (.cells ssize ((sfront ++ [c]) ++ (ps.map .pointer ++ srear))) := by
            by_cases hsame : src = ret
            · subst hsame
              obtain ⟨hsize, hcells⟩ := DataBlock.cells.inj (Option.some.inj (hsrc.symm.trans hret))
              obtain ⟨rfl, htail⟩ := List.append_inj hcells hfront
              have hrest : ps.map .pointer ++ srear = mid ++ rear := (List.cons.inj htail).2
              exact ⟨_, by rw [hret₁', hrest, hsize]⟩
            · refine ⟨.pointer (some q), ?_⟩
              rw [hkept src (Heap.live_of_eq_some hsrc).lt hsame, hsrc, List.append_assoc]
              rfl
          have hagree₁ : ∀ a, some a ∈ ps → h₁.block a = h₀.block a := by
            intro a ha
            have hblock := hagree a (List.mem_cons_of_mem _ ha)
            obtain ⟨content', ha₀, -⟩ := hps' a ha
            have hlive : h.Live a := Heap.live_of_eq_some (hblock.trans ha₀)
            have hne : a ≠ ret := by
              rintro rfl
              have hclash := hret.symm.trans (hblock.trans ha₀)
              cases hclash
            rw [hkept a hlive.lt hne, hblock]
          obtain ⟨h', hloop, hblock, hsame, hframe, hnext⟩ := ih hret₁' hsrc₁ hmid'
            (by rw [List.length_append, List.length_append, hfront]; rfl) hps' hagree₁
          have hretlt : ret < h.next := (Heap.live_of_eq_some hret).lt
          have hfirst : h'.block h.next = some (.bytes content) := by
            rw [hframe _ (by omega) (Nat.ne_of_gt hretlt), hcopy]
          rw [hnext₁] at hblock hsame hnext hframe
          refine ⟨h', ?_, ?_, .cons (.inr ⟨q, h.next, content, rfl, rfl, hq₀, hfirst⟩) hsame,
            fun a ha hne => ?_, ?_⟩
          · rw [hact.copy h q content hq hgood, Option.bind_some]
            dsimp only
            rw [hset, Option.bind_some, hlen (.pointer (some h.next))]
            exact hloop
          · rw [hblock, renamed, merge_cons_some, List.append_assoc]
            rfl
          · rw [hframe a (Nat.lt_succ_of_lt ha) hne, hkept a ha hne]
          · rw [hnext, List.countP_cons_of_pos (by simp)]
            omega

/-- A new block whose pointers are replaced by pointers to copies. -/
theorem exists_copiesOf (hact : Copies act Good)
    (hsrc : (h.malloc (.cells size (mid ++ rear))).2.block src =
      some (.cells ssize (ps.map .pointer ++ srear)))
    (hmid : mid.length = ps.length) (hps : LeadToBytes h Good ps) :
    ∃ h', eachCell act (some src) h.next (List.range ps.length)
        (h.malloc (.cells size (mid ++ rear))).2 = some h' ∧
      h'.block h.next = some (.cells size (merge mid (renamed (h.next + 1) ps) ++ rear)) ∧
      CopiesOf h h' ps := by
  have hret : (h.malloc (.cells size (mid ++ rear))).2.block h.next =
      some (.cells size ([] ++ (mid ++ rear))) := Heap.block_malloc_self _
  have hsrc' : (h.malloc (.cells size (mid ++ rear))).2.block src =
      some (.cells ssize ([] ++ (ps.map .pointer ++ srear))) := hsrc
  have hagree : ∀ q, some q ∈ ps →
      (h.malloc (.cells size (mid ++ rear))).2.block q = h.block q := by
    intro q hq
    obtain ⟨content, hblock, -⟩ := hps q hq
    exact Heap.block_malloc_of_live _ (Heap.live_of_eq_some hblock)
  obtain ⟨h', hloop, hblock, hsame, hframe, hnext⟩ :=
    eachCell_copies hact hret hsrc' hmid rfl hps hagree
  rw [List.range_eq_range']
  refine ⟨h', hloop, hblock, hsame, fun a ha => ?_, hnext⟩
  rw [hframe a (Nat.lt_succ_of_lt ha) (Nat.ne_of_lt ha)]
  exact Heap.block_malloc_of_ne _ (Nat.ne_of_lt ha)

end Copies

section Release

variable {h h' h'' : Heap DataBlock} {p size : ℕ} {ps rs : List (Option ℕ)} {front rear : List Cell}

/-- The blocks that the cells of a block lead to are freed in turn, when it is none of them. -/
theorem releaseCells_eq (hp : h.block p = some (.cells size (front ++ (rs.map .pointer ++ rear))))
    (hne : some p ∉ rs) :
    releaseCells p (List.range' front.length rs.length) h = h.freeAll (rs.filterMap id) := by
  induction rs generalizing h front with
  | nil => rfl
  | cons r rs ih =>
      have hread : cell h p front.length = some (.pointer r) := cell_append hp
      have hp' : h.block p =
          some (.cells size ((front ++ [.pointer r]) ++ (rs.map .pointer ++ rear))) := by
        rw [hp, List.append_assoc]
        rfl
      have hlen : front.length + 1 = (front ++ [Cell.pointer r]).length := by
        rw [List.length_append, List.length_singleton]
      have hne' : some p ∉ rs := fun hmem => hne (List.mem_cons_of_mem _ hmem)
      rw [List.length_cons, List.range'_succ, releaseCells, hread, hlen]
      cases r with
      | none => exact ih hp' hne'
      | some q =>
          have hfirst : (some q :: rs).filterMap id = q :: rs.filterMap id := rfl
          rw [hfirst, Heap.freeAll]
          dsimp only
          by_cases hlive : h.Live q
          · obtain ⟨h₁, hfree, hblock, -⟩ := Heap.exists_free hlive
            have hpq : p ≠ q := fun heq => hne (heq ▸ List.mem_cons_self ..)
            rw [hfree, Option.bind_some, Option.bind_some]
            exact ih (by rw [hblock, Function.update_of_ne hpq, hp']) hne'
          · rw [Heap.free, dif_neg hlive]
            rfl

theorem live_of_sameBytes (hsame : List.Forall₂ (SameBytes h h') ps rs) {q : ℕ}
    (hq : some q ∈ rs) : h'.Live q := by
  induction hsame with
  | nil => exact absurd hq List.not_mem_nil
  | cons hfirst _ ih =>
      rcases List.mem_cons.mp hq with rfl | hmem
      · rcases hfirst with ⟨-, hnone⟩ | ⟨_, q', content, -, hr, -, hblock⟩
        · exact absurd hnone (Option.some_ne_none q)
        · exact Option.some.inj hr ▸ Heap.live_of_eq_some hblock
      · exact ih hmem

/-- When the copies and the block in front of them are freed, everything is as it was. -/
theorem CopiesOf.exists_release (hcopies : CopiesOf h h' ps)
    (hp : h'.block h.next =
      some (.cells size ((renamed (h.next + 1) ps).map .pointer ++ rear))) :
    ∃ h'', (releaseCells h.next (List.range ps.length) h').bind (fun h' => h'.free h.next) =
      some h'' ∧ h''.block = h.block := by
  have hrs : (renamed (h.next + 1) ps).filterMap id =
      List.range' (h.next + 1) (ps.countP Option.isSome) := filterMap_renamed _ _
  have hne : some h.next ∉ renamed (h.next + 1) ps := fun hmem => by
    have hle := (mem_renamed hmem).1
    omega
  have hp' : h'.block h.next =
      some (.cells size ([] ++ ((renamed (h.next + 1) ps).map .pointer ++ rear))) := hp
  have hloop := releaseCells_eq hp' hne
  rw [List.length_nil, length_renamed, ← List.range_eq_range', hrs] at hloop
  have hlive : ∀ q ∈ List.range' (h.next + 1) (ps.countP Option.isSome), h'.Live q := by
    intro q hq
    rw [← hrs] at hq
    obtain ⟨r, hr, rfl⟩ := List.mem_filterMap.mp hq
    exact live_of_sameBytes hcopies.same hr
  obtain ⟨h₁, hall, hblock, hnext⟩ := Heap.exists_freeAll List.nodup_range' hlive
  have hfree : h₁.Live h.next := by
    unfold Heap.Live
    rw [hblock, if_neg (by simp), hp]
    rfl
  obtain ⟨h₂, hlast, hblock₂, -⟩ := Heap.exists_free hfree
  refine ⟨h₂, by rw [hloop, hall, Option.bind_some, hlast], ?_⟩
  funext a
  rw [hblock₂]
  by_cases ha : a = h.next
  · rw [ha, Function.update_self, h.fresh _ (Nat.le_refl _)]
  · rw [Function.update_of_ne ha, hblock]
    split_ifs with hmem
    · rw [List.mem_range'_1] at hmem
      exact (h.fresh a (by omega)).symm
    · by_cases hlt : a < h.next
      · exact hcopies.kept a hlt
      · rw [List.mem_range'_1] at hmem
        rw [h.fresh a (by omega), h'.fresh a]
        rw [hcopies.next]
        omega

/-- What no cell leads to stays when others are freed. -/
theorem block_of_releaseCells {cs : List Cell} {is : List ℕ} {q : ℕ}
    (hp : h.block p = some (.cells size cs)) (hrun : releaseCells p is h = some h')
    (hself : ∀ i ∈ is, cs[i]? ≠ some (.pointer (some p)))
    (hq : ∀ i ∈ is, cs[i]? ≠ some (.pointer (some q))) : h'.block q = h.block q := by
  induction is generalizing h with
  | nil =>
      obtain rfl := Option.some.inj hrun
      rfl
  | cons i is ih =>
      obtain ⟨hself, hselfs⟩ := List.forall_mem_cons.mp hself
      obtain ⟨hfirst, hrest⟩ := List.forall_mem_cons.mp hq
      rw [releaseCells, cell_eq hp] at hrun
      split at hrun
      · exact ih hp hrun hselfs hrest
      · next a heq =>
          have hpa : p ≠ a := by
            rintro rfl
            exact hself heq
          have hqa : q ≠ a := by
            rintro rfl
            exact hfirst heq
          by_cases hlive : h.Live a
          · obtain ⟨h₁, hfree, hblock, -⟩ := Heap.exists_free hlive
            rw [hfree, Option.bind_some] at hrun
            have hp₁ : h₁.block p = some (.cells size cs) := by
              rw [hblock, Function.update_of_ne hpa, hp]
            rw [ih hp₁ hrun hselfs hrest, hblock, Function.update_of_ne hqa]
          · rw [Heap.free, dif_neg hlive] at hrun
            cases hrun
      · cases hrun

/-- A loop that only writes and allocates frees nothing. -/
theorem live_setCell {q i a : ℕ} {c : Cell} (hset : setCell h q i c = some h') (ha : h.Live a) :
    h'.Live a := by
  unfold setCell at hset
  split at hset
  · next csize cs hq =>
      split_ifs at hset
      obtain ⟨h₁, hwrite, hblock, -⟩ :=
        Heap.exists_write (Heap.live_of_eq_some hq) (.cells csize (cs.set i c))
      obtain rfl := Option.some.inj (hwrite.symm.trans hset)
      unfold Heap.Live
      rw [hblock]
      by_cases haq : a = q
      · rw [haq, Function.update_self]
        rfl
      · rw [Function.update_of_ne haq]
        exact ha
  · cases hset

theorem live_eachCell {act : Action} {src : Option ℕ} {ret a : ℕ} {is : List ℕ}
    (hact : ∀ {h c r}, act h c = some r → h.Live a → r.2.Live a)
    (hrun : eachCell act src ret is h = some h') (ha : h.Live a) : h'.Live a := by
  induction is generalizing h with
  | nil =>
      obtain rfl := Option.some.inj hrun
      exact ha
  | cons i is ih =>
      rw [eachCell] at hrun
      obtain ⟨c, -, hrun⟩ := Option.bind_eq_some_iff.mp hrun
      obtain ⟨r, hr, hrun⟩ := Option.bind_eq_some_iff.mp hrun
      have hlive := hact hr ha
      split at hrun
      · exact ih hrun hlive
      · obtain ⟨h₁, hset, hrun⟩ := Option.bind_eq_some_iff.mp hrun
        exact ih hrun (live_setCell hset hlive)

end Release

end DeepCopy
