import Mathlib.Data.List.Nodup
import Mathlib.Data.List.TakeWhile
import SierraSdk.Ril.Cache

/-!
# The cache is a map

The blocks of the entries are live, and no block belongs to two entries (`CacheInv`). A set
frees the blocks of its entry and takes new ones (`Replaces`), so that it changes what is cached
for its command only. Over a run, a get points to the value last set (`readsLastSet`), as long
as nobody writes where a get points to.
-/

namespace SierraSdk

namespace Ril

open BlockHeap BlockHeap.Heap Machine

section Reading

variable {heap heap' : Heap Block} {p : ℕ}

theorem mem_blocksFrom_self : p ∈ blocksFrom heap p := by
  unfold blocksFrom
  split
  · exact List.mem_append_right _ List.mem_cons_self
  · exact List.mem_cons_self

theorem readBytes_congr (h : heap'.block p = heap.block p) (n : ℕ) :
    readBytes heap' p n = readBytes heap p n := by
  unfold readBytes
  rw [h]

theorem readPointers_congr (h : heap'.block p = heap.block p) (n : ℕ) :
    readPointers heap' p n = readPointers heap p n := by
  unfold readPointers
  rw [h]

theorem readString_congr (h : heap'.block p = heap.block p) :
    readString heap' p = readString heap p := by
  unfold readString
  rw [h]

theorem readStrings_congr {srcs : List (Option ℕ)}
    (h : ∀ q ∈ srcs.filterMap id, heap'.block q = heap.block q) :
    readStrings heap' srcs = readStrings heap srcs := by
  induction srcs with
  | nil => rfl
  | cons src srcs ih =>
      cases src with
      | none =>
          rw [readStrings, readStrings, ih h]
      | some src =>
          have htail := ih fun q hq => h q (List.mem_cons_of_mem _ hq)
          have hhead : readString heap' src = readString heap src :=
            readString_congr (h src List.mem_cons_self)
          rw [readStrings, readStrings, htail, hhead]

theorem mem_blocksFrom_of_mem {content : List (Option ℕ)} {q : ℕ}
    (hblock : heap.block p = some (.pointers content)) (hq : q ∈ content.filterMap id) :
    q ∈ blocksFrom heap p := by
  unfold blocksFrom
  rw [hblock]
  exact List.mem_append_left _ hq

/-- The same blocks have the same pointers. -/
theorem blocksFrom_congr (h : heap'.block p = heap.block p) :
    blocksFrom heap' p = blocksFrom heap p := by
  unfold blocksFrom
  rw [h]

/-- What a pointer means is found in the blocks from it on. -/
theorem valueAt_congr (w : ℕ) (h : ∀ q ∈ blocksFrom heap p, heap'.block q = heap.block q)
    (cmd : RilCommand) (size : ℕ) : valueAt w heap' cmd p size = valueAt w heap cmd p size := by
  have hp := h p mem_blocksFrom_self
  have hstrings : ∀ srcs, readPointers heap p (size / w) = some srcs →
      readStrings heap' srcs = readStrings heap srcs := by
    intro srcs hsrcs
    refine readStrings_congr fun q hq => h q ?_
    unfold readPointers at hsrcs
    split at hsrcs
    · rename_i content hblock
      split_ifs at hsrcs
      obtain rfl := Option.some.inj hsrcs
      have hsub : (content.take (size / w)).Sublist content := List.take_sublist _ _
      exact mem_blocksFrom_of_mem hblock ((hsub.filterMap id).subset hq)
    · cases hsrcs
  have harray : ((readPointers heap' p (size / w)).bind fun srcs =>
        (readStrings heap' srcs).map CacheValue.strings) =
      (readPointers heap p (size / w)).bind fun srcs =>
        (readStrings heap srcs).map CacheValue.strings := by
    rw [readPointers_congr hp]
    cases hsrcs : readPointers heap p (size / w) with
    | none => rfl
    | some srcs => rw [Option.bind_some, Option.bind_some, hstrings srcs hsrcs]
  cases cmd with
  | signalStrength => exact congrArg (Option.map CacheValue.bytes) (readBytes_congr hp size)
  | queryNetworkSelectionMode =>
      exact congrArg (Option.map CacheValue.bytes) (readBytes_congr hp size)
  | getImsi => exact congrArg (Option.map CacheValue.bytes) (readString_congr hp)
  | getImei => exact congrArg (Option.map CacheValue.bytes) (readString_congr hp)
  | getImeisv => exact congrArg (Option.map CacheValue.bytes) (readString_congr hp)
  | basebandVersion => exact congrArg (Option.map CacheValue.bytes) (readString_congr hp)
  | deviceIdentity => exact harray
  | registrationState => exact harray
  | gprsRegistrationState => exact harray
  | operator => exact harray
  | other n => rfl

end Reading

section Copying

variable {heap heap' : Heap Block}

theorem takeWhile_string {s : List UInt8} (hs : 0 ∉ s) :
    (s ++ [0]).takeWhile (· ≠ 0) = s := by
  rw [List.takeWhile_append_of_pos fun a ha => by
    simpa using fun h0 : a = 0 => hs (h0 ▸ ha)]
  simp

/-- A string and the byte that ends it begin the block. -/
theorem take_string {content : List UInt8} (h : 0 ∈ content) :
    content.take ((content.takeWhile (· ≠ 0)).length + 1) = content.takeWhile (· ≠ 0) ++ [0] ∧
      (content.takeWhile (· ≠ 0)).length + 1 ≤ content.length := by
  induction content with
  | nil => cases h
  | cons a content ih =>
      by_cases ha : a = 0
      · rw [ha]
        simp
      · have htail : 0 ∈ content := (List.mem_cons.mp h).resolve_left fun h0 => ha h0.symm
        obtain ⟨htake, hle⟩ := ih htail
        rw [List.takeWhile_cons_of_pos (by simpa using ha)]
        refine ⟨?_, Nat.succ_le_succ hle⟩
        rw [List.length_cons, List.take_succ_cons, htake]
        rfl

/-- A string is read with the byte that ends it. -/
theorem string_of_readString {src : ℕ} {s : List UInt8} (h : readString heap src = some s) :
    strlen heap src = some s.length ∧ readBytes heap src (s.length + 1) = some (s ++ [0]) ∧
      0 ∉ s := by
  unfold readString at h
  split at h
  · rename_i content hblock
    split_ifs at h with hzero
    obtain rfl := Option.some.inj h
    obtain ⟨htake, hle⟩ := take_string hzero
    refine ⟨?_, ?_, ?_⟩
    · unfold strlen
      rw [hblock]
      exact if_pos hzero
    · unfold readBytes
      rw [hblock]
      simp only
      rw [if_pos hle, htake]
    · intro hmem
      simpa using List.mem_takeWhile_imp hmem
  · cases h

theorem copyString_of_readString {src : ℕ} {s : List UInt8} (h : readString heap src = some s) :
    copyString heap src = some (heap.malloc (.bytes (s ++ [0]))) := by
  obtain ⟨hlen, hread, _⟩ := string_of_readString h
  unfold copyString
  rw [hlen, Option.bind_some, hread]
  rfl

theorem readString_of_block {p : ℕ} {s : List UInt8} (hs : 0 ∉ s)
    (h : heap.block p = some (.bytes (s ++ [0]))) : readString heap p = some s := by
  unfold readString
  rw [h]
  simp only
  rw [if_pos (List.mem_append_right _ List.mem_cons_self), takeWhile_string hs]

theorem live_of_readString {p : ℕ} {s : List UInt8} (h : readString heap p = some s) :
    heap.Live p := by
  unfold readString at h
  split at h
  · rename_i content hblock
    exact live_of_eq_some hblock
  · cases h

/-- The pointers of an array whose strings can be read point to live blocks. -/
theorem live_of_readStrings {srcs : List (Option ℕ)} {strings : List (Option (List UInt8))}
    (h : readStrings heap srcs = some strings) : ∀ q ∈ srcs.filterMap id, heap.Live q := by
  induction srcs generalizing strings with
  | nil => exact fun q hq => absurd hq List.not_mem_nil
  | cons src srcs ih =>
      cases src with
      | none =>
          obtain ⟨rest, hrest, _⟩ := Option.map_eq_some_iff.mp h
          exact ih hrest
      | some src =>
          obtain ⟨s, hs, hrest⟩ := Option.bind_eq_some_iff.mp h
          obtain ⟨rest, hrest, _⟩ := Option.map_eq_some_iff.mp hrest
          intro q hq
          rcases List.mem_cons.mp hq with rfl | hq
          · exact live_of_readString hs
          · exact ih hrest q hq

/-- Copied strings: what they are copied to, and the heap with it. -/
structure CopiedStrings (heap : Heap Block) (srcs : List (Option ℕ))
    (strings : List (Option (List UInt8))) (dest : List (Option ℕ)) (heap' : Heap Block) :
    Prop where
  grows : Grows heap heap'
  length : dest.length = srcs.length
  read : readStrings heap' dest = some strings
  nodup : (dest.filterMap id).Nodup
  new : ∀ q ∈ dest.filterMap id, heap.next ≤ q

/-- Strings that can be read are copied to new blocks. -/
theorem exists_copiedStrings {srcs : List (Option ℕ)} {strings : List (Option (List UInt8))}
    (h : readStrings heap srcs = some strings) :
    ∃ dest heap', copyStrings heap srcs = some (dest, heap') ∧
      CopiedStrings heap srcs strings dest heap' := by
  induction srcs generalizing heap strings with
  | nil =>
      cases h
      exact ⟨[], heap, rfl, Grows.refl heap, rfl, rfl, List.nodup_nil,
        fun q hq => absurd hq List.not_mem_nil⟩
  | cons src srcs ih =>
      cases src with
      | none =>
          obtain ⟨rest, hrest, rfl⟩ := Option.map_eq_some_iff.mp h
          obtain ⟨dest, heap', hcopy, hcopied⟩ := ih hrest
          refine ⟨none :: dest, heap', ?_, hcopied.grows, ?_, ?_, hcopied.nodup, hcopied.new⟩
          · rw [copyStrings, hcopy]
            rfl
          · rw [List.length_cons, List.length_cons, hcopied.length]
          · rw [readStrings, hcopied.read]
            rfl
      | some src =>
          obtain ⟨s, hs, hmap⟩ := Option.bind_eq_some_iff.mp h
          obtain ⟨rest, hrest, rfl⟩ := Option.map_eq_some_iff.mp hmap
          have hfirst := copyString_of_readString hs
          obtain ⟨_, _, hzero⟩ := string_of_readString hs
          have hgrows := grows_malloc heap (.bytes (s ++ [0]))
          -- the first copy leaves the strings that are still to be copied
          have hrest' : readStrings (heap.malloc (.bytes (s ++ [0]))).2 srcs = some rest := by
            refine (readStrings_congr fun q hq => ?_).trans hrest
            exact hgrows.block q (live_of_readStrings hrest q hq)
          obtain ⟨dest, heap', hcopy, hcopied⟩ := ih hrest'
          have hnew : ∀ q ∈ dest.filterMap id, heap.next + 1 ≤ q := hcopied.new
          have hblock : heap'.block heap.next = some (.bytes (s ++ [0])) := by
            rw [hcopied.grows.block heap.next ((live_malloc_iff _).mpr (.inl rfl))]
            exact block_malloc_self _
          refine ⟨some heap.next :: dest, heap', ?_, hgrows.trans hcopied.grows, ?_, ?_, ?_, ?_⟩
          · rw [copyStrings, hfirst, Option.bind_some, hcopy]
            rfl
          · rw [List.length_cons, List.length_cons, hcopied.length]
          · rw [readStrings, readString_of_block hzero hblock, hcopied.read]
            rfl
          · refine List.nodup_cons.mpr ⟨fun hmem => ?_, hcopied.nodup⟩
            exact absurd (hnew _ hmem) (Nat.not_succ_le_self _)
          · intro q hq
            rcases List.mem_cons.mp hq with rfl | hq
            · exact Nat.le_refl _
            · exact Nat.le_of_succ_le (hnew q hq)

end Copying

section Invariant

variable {w : ℕ} {c c' : RilCache} {heap : Heap Block} {cmd : RilCommand}

/-- An entry points to a value of its command, and an array is as long as the size says. -/
def EntryInv (w : ℕ) (heap : Heap Block) (cmd : RilCommand) (e : CacheEntry) : Prop :=
  ∀ p, e.responsedatap = some p →
    (valueAt w heap cmd p e.responsesize).isSome ∧
      ∀ content, heap.block p = some (.pointers content) → content.length = e.responsesize / w

/-- The entries have live blocks of their own. -/
structure CacheInv (w : ℕ) (c : RilCache) : Prop where
  entry : ∀ cmd, EntryInv w c.heap cmd (c.entry cmd)
  live : ∀ cmd, ∀ q ∈ c.owned cmd, c.heap.Live q
  nodup : ∀ cmd, (c.owned cmd).Nodup
  disjoint : ∀ cmd cmd', cmd ≠ cmd' → ∀ q ∈ c.owned cmd, q ∉ c.owned cmd'

theorem owned_eq_nil (h : (c.entry cmd).responsedatap = none) : c.owned cmd = [] := by
  unfold RilCache.owned
  rw [h]

theorem owned_eq_blocksFrom {p : ℕ} (h : (c.entry cmd).responsedatap = some p) :
    c.owned cmd = blocksFrom c.heap p := by
  unfold RilCache.owned
  rw [h]

theorem cacheInv_start (w : ℕ) : CacheInv w cacheStart where
  entry := fun _ _ hp => absurd hp (Option.some_ne_none _).symm
  live := fun _ _ hq => absurd hq List.not_mem_nil
  nodup := fun _ => List.nodup_nil
  disjoint := fun _ _ _ _ hq => absurd hq List.not_mem_nil

/-- The same entry with the same blocks has the same blocks. -/
theorem owned_congr (hentry : c'.entry cmd = c.entry cmd)
    (hblock : ∀ q ∈ c.owned cmd, c'.heap.block q = c.heap.block q) :
    c'.owned cmd = c.owned cmd := by
  unfold RilCache.owned at hblock ⊢
  rw [hentry]
  cases hp : (c.entry cmd).responsedatap with
  | none => rfl
  | some p =>
      rw [hp] at hblock
      exact blocksFrom_congr (hblock p mem_blocksFrom_self)

theorem entryInv_congr (hentry : c'.entry cmd = c.entry cmd)
    (hblock : ∀ q ∈ c.owned cmd, c'.heap.block q = c.heap.block q)
    (hinv : EntryInv w c.heap cmd (c.entry cmd)) : EntryInv w c'.heap cmd (c'.entry cmd) := by
  intro p hp
  rw [hentry] at hp ⊢
  rw [owned_eq_blocksFrom hp] at hblock
  obtain ⟨hvalue, hlength⟩ := hinv p hp
  rw [valueAt_congr w hblock, hblock p mem_blocksFrom_self]
  exact ⟨hvalue, hlength⟩

/-- The same entry with the same blocks has the same contents. -/
theorem contents_congr (hentry : c'.entry cmd = c.entry cmd)
    (hblock : ∀ q ∈ c.owned cmd, c'.heap.block q = c.heap.block q) :
    contents w c'.heap cmd (swiril_cache_get c' cmd) =
      contents w c.heap cmd (swiril_cache_get c cmd) := by
  unfold swiril_cache_get swiril_cache_findentry
  split_ifs
  · simp only
    rw [hentry]
    unfold contents
    simp only
    cases hp : (c.entry cmd).responsedatap with
    | none => rfl
    | some p =>
        rw [owned_eq_blocksFrom hp] at hblock
        rw [Option.bind_some, Option.bind_some, valueAt_congr w hblock]
  · rfl

/-- Clients that leave the blocks of the cache alone leave the cache alone. -/
theorem cacheInv_frame (hinv : CacheInv w c) (hentry : c'.entry = c.entry)
    (hblock : ∀ cmd, ∀ q ∈ c.owned cmd, c'.heap.block q = c.heap.block q) : CacheInv w c' := by
  have howned : ∀ cmd, c'.owned cmd = c.owned cmd := fun cmd =>
    owned_congr (congrFun hentry cmd) (hblock cmd)
  constructor
  · intro cmd
    exact entryInv_congr (congrFun hentry cmd) (hblock cmd) (hinv.entry cmd)
  · intro cmd q hq
    rw [howned cmd] at hq
    unfold Live
    rw [hblock cmd q hq]
    exact hinv.live cmd q hq
  · intro cmd
    rw [howned cmd]
    exact hinv.nodup cmd
  · intro cmd cmd' hne
    rw [howned cmd, howned cmd']
    exact hinv.disjoint cmd cmd' hne

/-- What a set does: the blocks of its entry make place for new ones, which hold the value. -/
structure Replaces (w : ℕ) (c : RilCache) (cmd : RilCommand) (value : Option (CacheValue × ℕ))
    (c' : RilCache) : Prop where
  other : ∀ cmd', cmd' ≠ cmd → c'.entry cmd' = c.entry cmd'
  kept : ∀ q, c.heap.Live q → q ∉ c.owned cmd → c'.heap.block q = c.heap.block q
  new : ∀ q ∈ c'.owned cmd, c.heap.next ≤ q ∧ c'.heap.Live q
  nodup : (c'.owned cmd).Nodup
  entry : EntryInv w c'.heap cmd (c'.entry cmd)
  value : contents w c'.heap cmd (swiril_cache_get c' cmd) = value

/-- The blocks of the other entries are still there. -/
theorem Replaces.block_other {value : Option (CacheValue × ℕ)} (hinv : CacheInv w c)
    (h : Replaces w c cmd value c') {cmd' : RilCommand} (hne : cmd' ≠ cmd) :
    ∀ q ∈ c.owned cmd', c'.heap.block q = c.heap.block q :=
  fun q hq => h.kept q (hinv.live cmd' q hq) (hinv.disjoint cmd' cmd hne q hq)

theorem Replaces.owned_other {value : Option (CacheValue × ℕ)} (hinv : CacheInv w c)
    (h : Replaces w c cmd value c') {cmd' : RilCommand} (hne : cmd' ≠ cmd) :
    c'.owned cmd' = c.owned cmd' :=
  owned_congr (h.other cmd' hne) (h.block_other hinv hne)

theorem Replaces.inv {value : Option (CacheValue × ℕ)} (hinv : CacheInv w c)
    (h : Replaces w c cmd value c') : CacheInv w c' := by
  -- a new block lies behind all the old ones
  have hapart : ∀ cmd', cmd' ≠ cmd → ∀ q ∈ c'.owned cmd, q ∉ c.owned cmd' := by
    intro cmd' _ q hq hq'
    exact absurd (hinv.live cmd' q hq').lt (Nat.not_lt_of_le (h.new q hq).1)
  constructor
  · intro cmd'
    by_cases hcmd : cmd' = cmd
    · rw [hcmd]
      exact h.entry
    · exact entryInv_congr (h.other cmd' hcmd) (h.block_other hinv hcmd) (hinv.entry cmd')
  · intro cmd' q hq
    by_cases hcmd : cmd' = cmd
    · rw [hcmd] at hq
      exact (h.new q hq).2
    · rw [h.owned_other hinv hcmd] at hq
      unfold Live
      rw [h.block_other hinv hcmd q hq]
      exact hinv.live cmd' q hq
  · intro cmd'
    by_cases hcmd : cmd' = cmd
    · rw [hcmd]
      exact h.nodup
    · rw [h.owned_other hinv hcmd]
      exact hinv.nodup cmd'
  · intro cmd₁ cmd₂ hne q hq₁ hq₂
    by_cases h₁ : cmd₁ = cmd
    · rw [h₁] at hq₁ hne
      rw [h.owned_other hinv hne.symm] at hq₂
      exact hapart cmd₂ hne.symm q hq₁ hq₂
    · rw [h.owned_other hinv h₁] at hq₁
      by_cases h₂ : cmd₂ = cmd
      · rw [h₂] at hq₂
        exact hapart cmd₁ h₁ q hq₂ hq₁
      · rw [h.owned_other hinv h₂] at hq₂
        exact hinv.disjoint cmd₁ cmd₂ hne q hq₁ hq₂

/-- A set changes what is cached for its command only. -/
theorem Replaces.contents_other {value : Option (CacheValue × ℕ)} (hinv : CacheInv w c)
    (h : Replaces w c cmd value c') {cmd' : RilCommand} (hne : cmd' ≠ cmd) :
    contents w c'.heap cmd' (swiril_cache_get c' cmd') =
      contents w c.heap cmd' (swiril_cache_get c cmd') :=
  contents_congr (h.other cmd' hne) (h.block_other hinv hne)

end Invariant

section Sets

variable {w : ℕ} {c c' : RilCache} {heap heap' : Heap Block} {cmd : RilCommand}

/-- The blocks of an entry were given back. -/
structure Freed (c : RilCache) (cmd : RilCommand) (heap : Heap Block) : Prop where
  block : ∀ q, heap.block q = if q ∈ c.owned cmd then none else c.heap.block q
  next : heap.next = c.heap.next

theorem Freed.block_of_not_mem (h : Freed c cmd heap) {q : ℕ} (hq : q ∉ c.owned cmd) :
    heap.block q = c.heap.block q := by
  rw [h.block q, if_neg hq]

/-- Different owned blocks are given back. -/
theorem exists_freed (hinv : CacheInv w c) {qs : List ℕ} (hqs : qs = c.owned cmd) :
    ∃ heap, c.heap.freeAll qs = some heap ∧ Freed c cmd heap := by
  rw [hqs]
  obtain ⟨heap, hfree, hblock, hnext⟩ := exists_freeAll (hinv.nodup cmd) (hinv.live cmd)
  exact ⟨heap, hfree, hblock, hnext⟩

/-- What was kept when the blocks were given back is kept behind new blocks. -/
theorem Freed.kept (hfreed : Freed c cmd heap) (hgrows : Grows heap heap') :
    ∀ q, c.heap.Live q → q ∉ c.owned cmd → heap'.block q = c.heap.block q := by
  intro q hlive hq
  have hblock := hfreed.block_of_not_mem hq
  rw [← hblock]
  refine hgrows.block q ?_
  unfold Live
  rw [hblock]
  exact hlive

theorem setEntry_other (e : CacheEntry) {cmd' : RilCommand} (hne : cmd' ≠ cmd) :
    (c.setEntry heap cmd e).entry cmd' = c.entry cmd' :=
  Function.update_of_ne hne ..

theorem setEntry_self (e : CacheEntry) : (c.setEntry heap cmd e).entry cmd = e :=
  Function.update_self ..

/-- An entry without data after its blocks were given back. -/
theorem replaces_clear (hfreed : Freed c cmd heap) {e : CacheEntry}
    (hnone : e.responsedatap = none) : Replaces w c cmd none (c.setEntry heap cmd e) := by
  have hentry : ((c.setEntry heap cmd e).entry cmd).responsedatap = none := by
    rw [setEntry_self]
    exact hnone
  have howned := owned_eq_nil hentry
  constructor
  · exact fun cmd' hne => setEntry_other e hne
  · exact hfreed.kept (Grows.refl heap)
  · intro q hq
    rw [howned] at hq
    cases hq
  · rw [howned]
    exact List.nodup_nil
  · intro p hp
    rw [hentry] at hp
    cases hp
  · unfold swiril_cache_get swiril_cache_findentry contents
    split_ifs
    · simp only
      rw [hentry]
      rfl
    · rfl

/-- An entry with new blocks after its old ones were given back. -/
theorem replaces_store (hfreed : Freed c cmd heap) (hgrows : Grows heap heap')
    (hcmd : cmd ∈ swiril_cache_table) {p size : ℕ} {value : CacheValue}
    (hvalue : valueAt w heap' cmd p size = some value)
    (hlength : ∀ content, heap'.block p = some (.pointers content) → content.length = size / w)
    (hnew : ∀ q ∈ blocksFrom heap' p, heap.next ≤ q ∧ heap'.Live q)
    (hnodup : (blocksFrom heap' p).Nodup) :
    Replaces w c cmd (some (value, size))
      (c.setEntry heap' cmd { responsedatap := some p, responsesize := size }) := by
  have hentry :
      (c.setEntry heap' cmd { responsedatap := some p, responsesize := size }).entry cmd =
        { responsedatap := some p, responsesize := size } := setEntry_self _
  have howned : (c.setEntry heap' cmd { responsedatap := some p, responsesize := size }).owned cmd =
      blocksFrom heap' p := owned_eq_blocksFrom (by rw [hentry])
  constructor
  · exact fun cmd' hne => setEntry_other _ hne
  · exact hfreed.kept hgrows
  · intro q hq
    rw [howned] at hq
    rw [← hfreed.next]
    exact hnew q hq
  · rw [howned]
    exact hnodup
  · intro p' hp'
    rw [hentry] at hp' ⊢
    obtain rfl := Option.some.inj hp'
    exact ⟨Option.isSome_iff_exists.mpr ⟨value, hvalue⟩, hlength⟩
  · unfold swiril_cache_get swiril_cache_findentry contents
    rw [if_pos hcmd]
    simp only
    rw [hentry]
    simp only [Option.bind_some]
    rw [show valueAt w (c.setEntry heap' cmd _).heap cmd p size = some value from hvalue]
    rfl

/-- Values of a command lie in one block. -/
def OneBlock (w : ℕ) (cmd : RilCommand) : Prop :=
  ∀ heap p size, (valueAt w heap cmd p size).isSome → blocksFrom heap p = [p]

theorem oneBlock_of_bytes (h : ∀ heap p size, valueAt w heap cmd p size =
    (readBytes heap p size).map .bytes) : OneBlock w cmd := by
  intro heap p size hsome
  rw [h, Option.isSome_map] at hsome
  unfold readBytes at hsome
  split at hsome
  · rename_i content hblock
    unfold blocksFrom
    rw [hblock]
  · cases hsome

theorem oneBlock_of_string (h : ∀ heap p size, valueAt w heap cmd p size =
    (readString heap p).map .bytes) : OneBlock w cmd := by
  intro heap p size hsome
  rw [h, Option.isSome_map] at hsome
  unfold readString at hsome
  split at hsome
  · rename_i content hblock
    unfold blocksFrom
    rw [hblock]
  · cases hsome

theorem exists_freed_oneBlock (hinv : CacheInv w c) (hone : OneBlock w cmd) :
    ∃ heap, c.heap.freeAll (c.entry cmd).responsedatap.toList = some heap ∧ Freed c cmd heap := by
  refine exists_freed hinv ?_
  cases hp : (c.entry cmd).responsedatap with
  | none => exact (owned_eq_nil hp).symm
  | some p =>
      rw [owned_eq_blocksFrom hp, hone _ _ _ (hinv.entry cmd p hp).1]
      rfl

theorem exists_clear_singlevalue (hinv : CacheInv w c) (hone : OneBlock w cmd) (size n : ℕ) :
    ∃ c', swiril_cache_singlevalueset c cmd none size n = some c' ∧ Replaces w c cmd none c' := by
  obtain ⟨heap, hfree, hfreed⟩ := exists_freed_oneBlock hinv hone
  refine ⟨c.setEntry heap cmd noEntry, ?_, replaces_clear hfreed rfl⟩
  unfold swiril_cache_singlevalueset
  rw [hfree]
  rfl

/-- The bytes that are read are cached in a block of their own. -/
theorem exists_set_singlevalue (hinv : CacheInv w c) (hone : OneBlock w cmd)
    (hcmd : cmd ∈ swiril_cache_table) {p size n : ℕ} {content : List UInt8} {value : CacheValue}
    (hread : readBytes c.heap p n = some content) (hout : p ∉ c.owned cmd)
    (hvalue : ∀ heap q, heap.block q = some (.bytes content) →
      valueAt w heap cmd q size = some value) :
    ∃ c', swiril_cache_singlevalueset c cmd (some p) size n = some c' ∧
      Replaces w c cmd (some (value, size)) c' := by
  obtain ⟨heap, hfree, hfreed⟩ := exists_freed_oneBlock hinv hone
  have hread' : readBytes heap p n = some content :=
    (readBytes_congr (hfreed.block_of_not_mem hout) n).trans hread
  have hblock := block_malloc_self (h := heap) (.bytes content)
  have hblocks : blocksFrom (heap.malloc (.bytes content)).2 heap.next = [heap.next] := by
    unfold blocksFrom
    rw [hblock]
  refine ⟨_, ?_, replaces_store hfreed (grows_malloc heap (.bytes content)) hcmd
    (hvalue _ _ hblock) ?_ ?_ ?_⟩
  · unfold swiril_cache_singlevalueset
    rw [hfree, Option.bind_some]
    simp only
    rw [hread']
    rfl
  · intro pointers hpointers
    rw [hblock] at hpointers
    cases hpointers
  · intro q hq
    rw [hblocks] at hq
    obtain rfl := List.mem_singleton.mp hq
    exact ⟨Nat.le_refl _, live_of_eq_some hblock⟩
  · rw [hblocks]
    exact List.nodup_singleton _

/-- Values of a command are arrays of strings. -/
def Strings (w : ℕ) (cmd : RilCommand) : Prop :=
  ∀ heap p size, valueAt w heap cmd p size =
    (readPointers heap p (size / w)).bind fun srcs => (readStrings heap srcs).map .strings

/-- The array of an entry is read whole. -/
theorem exists_pointers (hinv : CacheInv w c) (hstrings : Strings w cmd) {p : ℕ}
    (hp : (c.entry cmd).responsedatap = some p) :
    ∃ content, c.heap.block p = some (.pointers content) ∧
      readPointers c.heap p ((c.entry cmd).responsesize / w) = some content := by
  obtain ⟨hsome, hlength⟩ := hinv.entry cmd p hp
  rw [hstrings, Option.isSome_iff_exists] at hsome
  obtain ⟨value, hvalue⟩ := hsome
  obtain ⟨srcs, hsrcs, _⟩ := Option.bind_eq_some_iff.mp hvalue
  unfold readPointers at hsrcs
  split at hsrcs
  · rename_i content hblock
    refine ⟨content, hblock, ?_⟩
    unfold readPointers
    rw [hblock]
    simp only
    rw [← hlength content hblock, if_pos (Nat.le_refl _), List.take_length]
  · cases hsrcs

theorem exists_freed_strings (hinv : CacheInv w c) (hstrings : Strings w cmd) :
    ∃ heap, freeStringArray w c.heap (c.entry cmd) = some heap ∧ Freed c cmd heap := by
  unfold freeStringArray
  cases hp : (c.entry cmd).responsedatap with
  | none =>
      have hnil : [] = c.owned cmd := (owned_eq_nil hp).symm
      exact exists_freed hinv hnil
  | some p =>
      obtain ⟨content, hblock, hread⟩ := exists_pointers hinv hstrings hp
      simp only
      rw [hread, Option.bind_some]
      refine exists_freed hinv ?_
      rw [owned_eq_blocksFrom hp]
      unfold blocksFrom
      rw [hblock]

theorem exists_clear_stringArray (hinv : CacheInv w c) (hstrings : Strings w cmd) (size : ℕ) :
    ∃ c', stringArraySet w c cmd none size = some c' ∧ Replaces w c cmd none c' := by
  obtain ⟨heap, hfree, hfreed⟩ := exists_freed_strings hinv hstrings
  refine ⟨_, ?_, replaces_clear hfreed
    (e := if (c.entry cmd).responsedatap.isSome then noEntry else c.entry cmd) ?_⟩
  · unfold stringArraySet
    rw [hfree]
    rfl
  · cases hp : (c.entry cmd).responsedatap with
    | none => exact hp
    | some p => rfl

/-- The strings of an array are cached in blocks of their own, and an array of pointers to
them. -/
theorem exists_set_stringArray (hinv : CacheInv w c) (hstrings : Strings w cmd)
    (hcmd : cmd ∈ swiril_cache_table) {p size : ℕ} {value : CacheValue}
    (hvalue : valueAt w c.heap cmd p size = some value)
    (hout : ∀ q ∈ blocksFrom c.heap p, q ∉ c.owned cmd) :
    ∃ c', stringArraySet w c cmd (some p) size = some c' ∧
      Replaces w c cmd (some (value, size)) c' := by
  obtain ⟨heap, hfree, hfreed⟩ := exists_freed_strings hinv hstrings
  -- the client's array and strings are there after the old ones were given back
  have hvalue' : valueAt w heap cmd p size = some value :=
    (valueAt_congr w (fun q hq => hfreed.block_of_not_mem (hout q hq)) cmd size).trans hvalue
  rw [hstrings] at hvalue'
  obtain ⟨srcs, hsrcs, hmap⟩ := Option.bind_eq_some_iff.mp hvalue'
  obtain ⟨strings, hread, rfl⟩ := Option.map_eq_some_iff.mp hmap
  obtain ⟨dest, heap₁, hcopy, hcopied⟩ := exists_copiedStrings hread
  have hgrows := grows_malloc heap₁ (.pointers dest)
  have hblock := block_malloc_self (h := heap₁) (.pointers dest)
  have hdest : ∀ q ∈ dest.filterMap id, heap₁.Live q := live_of_readStrings hcopied.read
  have hlength : dest.length = size / w := by
    rw [hcopied.length]
    unfold readPointers at hsrcs
    split at hsrcs
    · split_ifs at hsrcs with hle
      rw [← Option.some.inj hsrcs, List.length_take, Nat.min_eq_left hle]
    · cases hsrcs
  have hblocks : blocksFrom (heap₁.malloc (.pointers dest)).2 heap₁.next =
      dest.filterMap id ++ [heap₁.next] := by
    unfold blocksFrom
    rw [hblock]
  refine ⟨_, ?_, replaces_store hfreed (hcopied.grows.trans hgrows) hcmd (p := heap₁.next) ?_ ?_ ?_ ?_⟩
  · unfold stringArraySet
    rw [hfree, Option.bind_some]
    simp only
    rw [hsrcs, Option.bind_some, hcopy]
    rfl
  · have hall : readPointers (heap₁.malloc (.pointers dest)).2 heap₁.next (size / w) =
        some dest := by
      unfold readPointers
      rw [hblock]
      simp only
      rw [← hlength, if_pos (Nat.le_refl _), List.take_length]
    have hsame : readStrings (heap₁.malloc (.pointers dest)).2 dest = readStrings heap₁ dest :=
      readStrings_congr fun q hq => hgrows.block q (hdest q hq)
    rw [hstrings, hall, Option.bind_some, hsame, hcopied.read]
    rfl
  · intro content hcontent
    rw [hblock] at hcontent
    cases hcontent
    exact hlength
  · intro q hq
    rw [hblocks] at hq
    rcases List.mem_append.mp hq with hq | hq
    · exact ⟨hcopied.new q hq, hgrows.live (hdest q hq)⟩
    · rw [List.mem_singleton.mp hq]
      exact ⟨hcopied.grows.next, live_of_eq_some hblock⟩
  · rw [hblocks]
    refine List.nodup_append.mpr ⟨hcopied.nodup, List.nodup_singleton _, ?_⟩
    intro q hq q' hq' heq
    rw [heq, List.mem_singleton.mp hq'] at hq
    exact absurd (hdest _ hq).lt (Nat.lt_irrefl _)

/-- An entry is cleared by a set of nothing. -/
theorem exists_clear (hinv : CacheInv w c) (hcmd : cmd ∈ swiril_cache_table) (size : ℕ) :
    ∃ c', swiril_cache_set w c cmd none size = some c' ∧ Replaces w c cmd none c' := by
  have hbytes : OneBlock w cmd → ∀ size n, ∃ c',
      swiril_cache_singlevalueset c cmd none size n = some c' ∧ Replaces w c cmd none c' :=
    exists_clear_singlevalue hinv
  cases cmd with
  | signalStrength => exact hbytes (oneBlock_of_bytes fun _ _ _ => rfl) size size
  | queryNetworkSelectionMode => exact hbytes (oneBlock_of_bytes fun _ _ _ => rfl) size size
  | getImsi => exact hbytes (oneBlock_of_string fun _ _ _ => rfl) size 0
  | getImei => exact hbytes (oneBlock_of_string fun _ _ _ => rfl) size 0
  | getImeisv => exact hbytes (oneBlock_of_string fun _ _ _ => rfl) size 0
  | basebandVersion => exact hbytes (oneBlock_of_string fun _ _ _ => rfl) size 0
  | deviceIdentity => exact exists_clear_stringArray hinv (fun _ _ _ => rfl) size
  | registrationState => exact exists_clear_stringArray hinv (fun _ _ _ => rfl) size
  | gprsRegistrationState => exact exists_clear_stringArray hinv (fun _ _ _ => rfl) size
  | operator => exact exists_clear_stringArray hinv (fun _ _ _ => rfl) size
  | other n => exact absurd hcmd (by simp [swiril_cache_table])

theorem exists_set_bytes (hinv : CacheInv w c) (hcmd : cmd ∈ swiril_cache_table)
    (hbytes : ∀ heap p size, valueAt w heap cmd p size = (readBytes heap p size).map .bytes)
    {p size : ℕ} {value : CacheValue} (hvalue : valueAt w c.heap cmd p size = some value)
    (hout : p ∉ c.owned cmd) :
    ∃ c', swiril_cache_singlevalueset c cmd (some p) size size = some c' ∧
      Replaces w c cmd (some (value, size)) c' := by
  rw [hbytes] at hvalue
  obtain ⟨content, hread, rfl⟩ := Option.map_eq_some_iff.mp hvalue
  have hlength : content.length = size := by
    unfold readBytes at hread
    split at hread
    · split_ifs at hread with hle
      rw [← Option.some.inj hread, List.length_take, Nat.min_eq_left hle]
    · cases hread
  refine exists_set_singlevalue hinv (oneBlock_of_bytes hbytes) hcmd hread hout ?_
  intro heap q hblock
  rw [hbytes]
  unfold readBytes
  rw [hblock]
  simp only
  rw [if_pos (Nat.le_of_eq hlength.symm), ← hlength, List.take_length]
  rfl

theorem exists_set_string (hinv : CacheInv w c) (hcmd : cmd ∈ swiril_cache_table)
    (hstring : ∀ heap p size, valueAt w heap cmd p size = (readString heap p).map .bytes)
    {p size : ℕ} {value : CacheValue} (hvalue : valueAt w c.heap cmd p size = some value)
    (hout : p ∉ c.owned cmd) :
    ∃ c', ((strlen c.heap p).bind fun n =>
        swiril_cache_singlevalueset c cmd (some p) size (n + 1)) = some c' ∧
      Replaces w c cmd (some (value, size)) c' := by
  rw [hstring] at hvalue
  obtain ⟨s, hs, rfl⟩ := Option.map_eq_some_iff.mp hvalue
  obtain ⟨hlen, hread, hzero⟩ := string_of_readString hs
  rw [hlen, Option.bind_some]
  refine exists_set_singlevalue hinv (oneBlock_of_string hstring) hcmd hread hout ?_
  intro heap q hblock
  rw [hstring, readString_of_block hzero hblock]
  rfl

/-- A set caches the value that the pointer has. -/
theorem exists_set (hinv : CacheInv w c) (hcmd : cmd ∈ swiril_cache_table) {p size : ℕ}
    {value : CacheValue} (hvalue : valueAt w c.heap cmd p size = some value)
    (hout : ∀ q ∈ blocksFrom c.heap p, c.Outside q) :
    ∃ c', swiril_cache_set w c cmd (some p) size = some c' ∧
      Replaces w c cmd (some (value, size)) c' := by
  have hp : p ∉ c.owned cmd := hout p mem_blocksFrom_self cmd
  have hall : ∀ q ∈ blocksFrom c.heap p, q ∉ c.owned cmd := fun q hq => hout q hq cmd
  cases cmd with
  | signalStrength => exact exists_set_bytes hinv hcmd (fun _ _ _ => rfl) hvalue hp
  | queryNetworkSelectionMode => exact exists_set_bytes hinv hcmd (fun _ _ _ => rfl) hvalue hp
  | getImsi => exact exists_set_string hinv hcmd (fun _ _ _ => rfl) hvalue hp
  | getImei => exact exists_set_string hinv hcmd (fun _ _ _ => rfl) hvalue hp
  | getImeisv => exact exists_set_string hinv hcmd (fun _ _ _ => rfl) hvalue hp
  | basebandVersion => exact exists_set_string hinv hcmd (fun _ _ _ => rfl) hvalue hp
  | deviceIdentity => exact exists_set_stringArray hinv (fun _ _ _ => rfl) hcmd hvalue hall
  | registrationState => exact exists_set_stringArray hinv (fun _ _ _ => rfl) hcmd hvalue hall
  | gprsRegistrationState => exact exists_set_stringArray hinv (fun _ _ _ => rfl) hcmd hvalue hall
  | operator => exact exists_set_stringArray hinv (fun _ _ _ => rfl) hcmd hvalue hall
  | other n => exact absurd hcmd (by simp [swiril_cache_table])

end Sets

section Runs

variable {w : ℕ} {c : RilCache}

/-- A command that is not in the table has no entry, and a set leaves everything. -/
theorem set_of_not_mem {cmd : RilCommand} (hcmd : cmd ∉ swiril_cache_table) (p : Option ℕ)
    (size : ℕ) : swiril_cache_set w c cmd p size = some c := by
  cases cmd with
  | other n => rfl
  | _ => exact absurd (by decide) hcmd

theorem valueAt_of_not_mem {cmd : RilCommand} (hcmd : cmd ∉ swiril_cache_table)
    (heap : Heap Block) (p size : ℕ) : valueAt w heap cmd p size = none := by
  cases cmd with
  | other n => rfl
  | _ => exact absurd (by decide) hcmd

theorem contents_of_not_mem {cmd : RilCommand} (hcmd : cmd ∉ swiril_cache_table) :
    contents w c.heap cmd (swiril_cache_get c cmd) = none := by
  unfold swiril_cache_get swiril_cache_findentry
  rw [if_neg hcmd]
  rfl

theorem apply_clear (cmd : RilCommand) (value : Option (CacheValue × ℕ))
    (cmds : List RilCommand) :
    MapOp.apply cmd value (.clear cmds) = if cmd ∈ cmds then none else value := rfl

/-- Clearing some entries empties those and leaves the others. -/
theorem exists_clearEntries (hinv : CacheInv w c) {cmds : List RilCommand}
    (hcmds : ∀ cmd ∈ cmds, cmd ∈ swiril_cache_table) :
    ∃ c', clearEntries w c cmds = some c' ∧ CacheInv w c' ∧
      ∀ cmd, contents w c'.heap cmd (swiril_cache_get c' cmd) =
        MapOp.apply cmd (contents w c.heap cmd (swiril_cache_get c cmd)) (.clear cmds) := by
  induction cmds generalizing c with
  | nil => exact ⟨c, rfl, hinv, fun cmd => by rw [apply_clear, if_neg List.not_mem_nil]⟩
  | cons cmd₁ cmds ih =>
      obtain ⟨c₁, hset, hreplaces⟩ := exists_clear hinv (hcmds cmd₁ List.mem_cons_self) 0
      obtain ⟨c', hclear, hinv', hcontents⟩ := ih (hreplaces.inv hinv) fun cmd hcmd =>
        hcmds cmd (List.mem_cons_of_mem _ hcmd)
      refine ⟨c', by rw [clearEntries, hset]; exact hclear, hinv', fun cmd => ?_⟩
      rw [hcontents cmd, apply_clear, apply_clear]
      by_cases heq : cmd = cmd₁
      · rw [heq, hreplaces.value, if_pos List.mem_cons_self, ite_self]
      · rw [hreplaces.contents_other hinv heq]
        simp [heq]

/-- What one operation of the clients does to the values that are cached. -/
theorem exists_cacheOp (hinv : CacheInv w c) {op : CacheOp}
    (hclient : ClientMemory w false (some c) op) :
    ∃ c', cacheOp w c op = some c' ∧ CacheInv w c' ∧
      ∀ cmd, contents w c'.heap cmd (swiril_cache_get c' cmd) =
        MapOp.apply cmd (contents w c.heap cmd (swiril_cache_get c cmd)) (op.meaning w c) := by
  have hguard := hclient c rfl
  -- a heap that has the blocks of the cache leaves all that is cached
  have hframe : ∀ heap : Heap Block,
      (∀ cmd, ∀ q ∈ c.owned cmd, heap.block q = c.heap.block q) →
        CacheInv w { c with heap := heap } ∧
          ∀ cmd, contents w heap cmd (swiril_cache_get { c with heap := heap } cmd) =
            contents w c.heap cmd (swiril_cache_get c cmd) := by
    intro heap hblock
    refine ⟨cacheInv_frame hinv rfl hblock, fun cmd => ?_⟩
    have hsame : ({ c with heap := heap } : RilCache).entry cmd = c.entry cmd := rfl
    exact contents_congr hsame (hblock cmd)
  -- a block outside of the cache may change
  have hchanged : ∀ (heap : Heap Block) (p : ℕ) (b : Option Block), c.Outside p →
      heap.block = Function.update c.heap.block p b →
        ∀ cmd, ∀ q ∈ c.owned cmd, heap.block q = c.heap.block q := by
    intro heap p b hout hblock cmd q hq
    rw [hblock, Function.update_of_ne]
    exact fun heq => hout cmd (heq ▸ hq)
  cases op with
  | malloc content =>
      refine ⟨_, rfl, hframe _ fun cmd q hq => ?_⟩
      exact block_malloc_of_live content (hinv.live cmd q hq)
  | write p content =>
      obtain ⟨hlive, hout⟩ := hguard
      obtain ⟨heap, hwrite, hblock, _⟩ := exists_write hlive content
      refine ⟨{ c with heap := heap }, by rw [cacheOp, hwrite]; rfl, hframe heap ?_⟩
      exact hchanged heap p _ (hout.resolve_left Bool.false_ne_true) hblock
  | free p =>
      obtain ⟨hlive, hout⟩ := hguard
      obtain ⟨heap, hfree, hblock, _⟩ := exists_free hlive
      refine ⟨{ c with heap := heap }, by rw [cacheOp, hfree]; rfl, hframe heap ?_⟩
      exact hchanged heap p _ hout hblock
  | set cmd₁ p size =>
      by_cases hcmd : cmd₁ ∈ swiril_cache_table
      · -- the entry is replaced, and the others stay
        have hset : ∀ value c', Replaces w c cmd₁ value c' →
            ∀ cmd, contents w c'.heap cmd (swiril_cache_get c' cmd) =
              if cmd₁ = cmd then value else contents w c.heap cmd (swiril_cache_get c cmd) := by
          intro value c' hreplaces cmd
          by_cases heq : cmd₁ = cmd
          · rw [if_pos heq, ← heq, hreplaces.value]
          · rw [if_neg heq]
            exact hreplaces.contents_other hinv (Ne.symm heq)
        cases p with
        | none =>
            obtain ⟨c', hc', hreplaces⟩ := exists_clear hinv hcmd size
            refine ⟨c', hc', hreplaces.inv hinv, fun cmd => ?_⟩
            rw [hset none c' hreplaces cmd]
            simp [CacheOp.meaning, MapOp.apply, eq_comm]
        | some p =>
            obtain ⟨hsome, hout⟩ := hguard hcmd
            obtain ⟨value, hvalue⟩ := Option.isSome_iff_exists.mp hsome
            have hown := hout.resolve_left Bool.false_ne_true
            obtain ⟨c', hc', hreplaces⟩ := exists_set hinv hcmd hvalue hown
            refine ⟨c', hc', hreplaces.inv hinv, fun cmd => ?_⟩
            rw [hset _ c' hreplaces cmd, CacheOp.meaning, hvalue]
            rfl
      · refine ⟨c, set_of_not_mem hcmd p size, hinv, fun cmd => ?_⟩
        cases p with
        | none =>
            rw [CacheOp.meaning, apply_clear]
            by_cases heq : cmd = cmd₁
            · rw [heq, contents_of_not_mem hcmd, ite_self]
            · simp [heq]
        | some p =>
            rw [CacheOp.meaning, valueAt_of_not_mem hcmd]
            rfl
  | get cmd₁ => exact ⟨c, rfl, hinv, fun cmd => rfl⟩
  | clearalldata => exact exists_clearEntries hinv fun cmd hcmd => hcmd
  | clearnetworkdata =>
      have hgroup : swiril_cache_table.takeWhile (· ≠ .getImsi) = networkGroup := by decide
      have hsub : ∀ cmd ∈ networkGroup, cmd ∈ swiril_cache_table := by decide
      obtain ⟨c', hclear, hinv', hcontents⟩ := exists_clearEntries hinv hsub
      refine ⟨c', ?_, hinv', hcontents⟩
      rw [cacheOp, swiril_cache_clearnetworkdata, hgroup]
      exact hclear

/-- The entries keep the values that the operations of a run mean. -/
theorem exists_after (hinv : CacheInv w c) {ops : List CacheOp}
    (hclient : Meets (cacheStep w) (ClientMemory w false) (some c) ops) :
    ∃ c', after (cacheStep w) (some c) ops = some c' ∧ CacheInv w c' ∧
      ∀ cmd, contents w c'.heap cmd (swiril_cache_get c' cmd) =
        (meanings w (some c) ops).foldl (MapOp.apply cmd)
          (contents w c.heap cmd (swiril_cache_get c cmd)) := by
  induction ops generalizing c with
  | nil => exact ⟨c, rfl, hinv, fun _ => rfl⟩
  | cons op ops ih =>
      obtain ⟨hfirst, hrest⟩ := hclient
      obtain ⟨c₁, hop, hinv₁, hcontents₁⟩ := exists_cacheOp hinv hfirst
      have hstep : (cacheStep w (some c) op).1 = some c₁ := hop
      rw [hstep] at hrest
      obtain ⟨c', hafter, hinv', hcontents⟩ := ih hinv₁ hrest
      refine ⟨c', ?_, hinv', fun cmd => ?_⟩
      · rw [after_cons, hstep]
        exact hafter
      · rw [hcontents cmd, hcontents₁ cmd, meanings, hop, List.foldl_cons]

/-- A get that does not miss has contents. -/
theorem get_eq_none_iff (hinv : CacheInv w c) (cmd : RilCommand) :
    (swiril_cache_get c cmd).1 = none ↔
      contents w c.heap cmd (swiril_cache_get c cmd) = none := by
  unfold swiril_cache_get swiril_cache_findentry
  split_ifs with hcmd
  · simp only
    cases hp : (c.entry cmd).responsedatap with
    | none => exact ⟨fun _ => rfl, fun _ => rfl⟩
    | some p =>
        obtain ⟨value, hvalue⟩ := Option.isSome_iff_exists.mp (hinv.entry cmd p hp).1
        simp [contents, hvalue]
  · exact ⟨fun _ => rfl, fun _ => rfl⟩

/-- While clients write to memory of their own only, a get points to the value last set. -/
theorem readsLastSet (w : ℕ) (ops : List CacheOp)
    (hclient : Meets (cacheStep w) (ClientMemory w false) (some cacheStart) ops) :
    ReadsLastSet w ops := by
  obtain ⟨c, hafter, hinv, hcontents⟩ := exists_after (cacheInv_start w) hclient
  have hstart : ∀ cmd, contents w cacheStart.heap cmd (swiril_cache_get cacheStart cmd) = none := by
    intro cmd
    exact (get_eq_none_iff (cacheInv_start w) cmd).mp (by
      unfold swiril_cache_get swiril_cache_findentry
      split_ifs <;> rfl)
  refine ⟨c, hafter, fun cmd => ?_⟩
  have hlookup : contents w c.heap cmd (swiril_cache_get c cmd) =
      lookup (meanings w (some cacheStart) ops) cmd := by
    rw [hcontents cmd, hstart cmd]
    rfl
  exact ⟨hlookup, by rw [get_eq_none_iff hinv cmd, hlookup]⟩

theorem outside_of_noEntry (h : ∀ cmd, c.entry cmd = noEntry) (q : ℕ) : c.Outside q := by
  intro cmd
  rw [owned_eq_nil (by rw [h cmd]; rfl)]
  exact List.not_mem_nil

/-- A string is set, changed by its setter, and the network group is cleared. -/
theorem readsLastSet_changed_after_set :
    ReadsLastSet 4 [.malloc (.bytes [49, 0]), .set .getImsi (some 0) 4, .write 0 (.bytes [50, 0]),
      .clearnetworkdata, .get .getImsi] := by
  refine readsLastSet 4 _ ⟨?_, ?_, ?_, ?_, ?_, trivial⟩
  · exact fun _ _ => trivial
  · rintro c ⟨⟩ _
    exact ⟨by decide, .inr fun q _ => outside_of_noEntry (fun _ => rfl) q⟩
  · rintro c ⟨⟩
    refine ⟨by decide, .inr fun cmd => ?_⟩
    cases cmd with
    | getImsi => decide
    | _ => exact List.not_mem_nil
  · exact fun _ _ => trivial
  · exact fun _ _ => trivial

/-- A string is set; then it is changed where a get points to, or that is set once more. -/
theorem not_readsLastSet_via_get :
    (Meets (cacheStep 4) (ClientMemory 4 true) (some cacheStart)
        [.malloc (.bytes [49, 0]), .set .getImsi (some 0) 4, .write 1 (.bytes [50, 0])] ∧
      ¬ ReadsLastSet 4
        [.malloc (.bytes [49, 0]), .set .getImsi (some 0) 4, .write 1 (.bytes [50, 0])]) ∧
    Meets (cacheStep 4) (ClientMemory 4 true) (some cacheStart)
        [.malloc (.bytes [49, 0]), .set .getImsi (some 0) 4, .set .getImsi (some 1) 4] ∧
      ¬ ReadsLastSet 4
        [.malloc (.bytes [49, 0]), .set .getImsi (some 0) 4, .set .getImsi (some 1) 4] := by
  refine ⟨⟨⟨fun _ _ => trivial, ?_, ?_, trivial⟩, ?_⟩, ⟨fun _ _ => trivial, ?_, ?_, trivial⟩, ?_⟩
  · rintro c ⟨⟩ _
    exact ⟨by decide, .inl rfl⟩
  · rintro c ⟨⟩
    exact ⟨by decide, .inl rfl⟩
  · rintro ⟨c, hafter, hcontents⟩
    obtain rfl := Option.some.inj hafter
    exact absurd (hcontents .getImsi).1 (by decide)
  · rintro c ⟨⟩ _
    exact ⟨by decide, .inl rfl⟩
  · rintro c ⟨⟩ _
    exact ⟨by decide, .inl rfl⟩
  · -- the string is freed before it is read
    rintro ⟨c, hafter, _⟩
    cases hafter

end Runs

end Ril

end SierraSdk
