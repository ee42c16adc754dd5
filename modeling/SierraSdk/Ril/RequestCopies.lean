import SierraSdk.Library.DeepCopy

/-!
# The copies of request data

`dupRequestData` copies the data of a request with the function that the command table has for it,
and `freeRequestData` gives back what was copied. A copy is of use if it leads to the same as the
data, through new blocks only, and if exactly these are given back (`Duplicates`).

The data is a string, bytes, an array of pointers to strings or to cell broadcast configurations,
or a structure. Of the structures that are copied by their fields, the cells of the strings that
are copied come first, in the order of the source, and the other fields behind them.

The command table and the structures come with the platform: what a request is copied with, and
the sizes, are parameters.
-/

namespace SierraSdk

namespace Ril

namespace RequestCopies

open BlockHeap DeepCopy

/-- The functions of the command table, under one name for those that are defined as another. -/
inductive DispatchFunction where
  | dispatchRaw
  | dispatchString
  | dispatchStrings
  | dispatchVoid
  | dispatchCallForward
  | dispatchDial
  | dispatchSimIo
  | dispatchSmsWrite
  | dispatchGsmBrSmsCnf
  | dispatchImsSms
  | dispatchSetInitialAttachApn
  | dispatchCarrierRestrictions
  | dummyDispatch
  deriving DecidableEq

/-- The sizes of a pointer and of the structures, and whether the RIL version is at least 12. A
cell broadcast configuration is larger than a pointer. -/
structure Platform where
  pointerSize : ℕ
  configInfoSize : ℕ
  imsMessageSize : ℕ
  cdmaMessageSize : ℕ
  restrictionsSize : ℕ
  carrierSize : ℕ
  version12 : Bool
  pointerSize_pos : 0 < pointerSize
  pointerSize_lt : pointerSize < configInfoSize

/-- A block of bytes is read, or a whole block of cells. -/
def readBlock (h : Heap DataBlock) (p datalen : ℕ) : Option DataBlock :=
  match h.block p with
  | some (.bytes content) =>
      if datalen ≤ content.length then some (.bytes (content.take datalen)) else none
  | some (.cells size cs) => if datalen = size then some (.cells size cs) else none
  | none => none

/-- A pointer that a function returns, and the heap. -/
abbrev Copy := Option ℕ × Heap DataBlock

/-- The block is allocated before it is known whether there is data. -/
def dispatchRaw (h : Heap DataBlock) (data : Option ℕ) (datalen : ℕ) : Option Copy :=
  match data with
  | none => some (none, (h.malloc (.cells datalen [])).2)
  | some p => (readBlock h p datalen).map fun b => (some h.next, (h.malloc b).2)

/-- A string is the block of its bytes. -/
def strdup (h : Heap DataBlock) (q : ℕ) : Option (ℕ × Heap DataBlock) :=
  match h.block q with
  | some (.bytes content) => some (h.malloc (.bytes content))
  | _ => none

/-- A string is copied if the pointer to it is not null. -/
def dupString : Action
  | h, .pointer none => some (none, h)
  | h, .pointer (some q) => (strdup h q).map fun r => (some (.pointer (some r.1)), r.2)
  | _, _ => none

def dupConfigInfo (pf : Platform) : Action
  | h, .pointer none => some (none, h)
  | h, .pointer (some q) =>
      (dispatchRaw h (some q) pf.configInfoSize).map fun r => (some (.pointer r.1), r.2)
  | _, _ => none

/-- A field of a carrier; its strings are copied without a check. -/
def dupCarrierField : Action
  | h, .plain n => some (some (.plain n), h)
  | h, .pointer (some q) => (strdup h q).map fun r => (some (.pointer (some r.1)), r.2)
  | _, _ => none

/-- A structure, and then the strings of so many fields. -/
def dispatchFields (fields : ℕ) (h : Heap DataBlock) (data : Option ℕ) (datalen : ℕ) :
    Option Copy :=
  (dispatchRaw h data datalen).bind fun r =>
    match r.1 with
    | none => none
    | some ret =>
        (eachCell dupString (some ret) ret (List.range fields) r.2).map fun h => (some ret, h)

def dispatchCallForward := dispatchFields 1
def dispatchDial := dispatchFields 1
def dispatchSimIo (pf : Platform) := dispatchFields (if pf.version12 then 4 else 3)
def dispatchSmsWrite := dispatchFields 2

/-- The only one of these that looks whether there is a copy. -/
def dispatchSetInitialAttachApn (h : Heap DataBlock) (data : Option ℕ) (datalen : ℕ) :
    Option Copy :=
  (dispatchRaw h data datalen).bind fun r =>
    match r.1 with
    | none => some (none, r.2)
    | some ret => (eachCell dupString (some ret) ret (List.range 4) r.2).map fun h => (some ret, h)

def dispatchString (pf : Platform) (h : Heap DataBlock) (data : Option ℕ) (datalen : ℕ) :
    Option Copy :=
  if datalen ≠ pf.pointerSize then none
  else
    match data with
    | some p => (strdup h p).map fun r => (some r.1, r.2)
    | none => some (none, h)

/-- The pointers are cleared before the loop. -/
def dispatchStrings (pf : Platform) (h : Heap DataBlock) (data : Option ℕ) (datalen : ℕ) :
    Option Copy :=
  let strCount := datalen / pf.pointerSize
  if datalen % pf.pointerSize ≠ 0 then none
  else
    let r := h.malloc (.cells (strCount * pf.pointerSize) (List.replicate strCount (.pointer none)))
    (eachCell dupString data r.1 (List.range strCount) r.2).map fun h => (some r.1, h)

/-- Only the first pointer is cleared before the loop; without pointers this is a write behind the
block. -/
def dispatchGsmBrSmsCnf (pf : Platform) (h : Heap DataBlock) (data : Option ℕ) (datalen : ℕ) :
    Option Copy :=
  match datalen / pf.pointerSize with
  | 0 => none
  | count + 1 =>
      let r := h.malloc (.cells ((count + 1) * pf.pointerSize)
        (.pointer none :: List.replicate count .undefined))
      (eachCell (dupConfigInfo pf) data r.1 (List.range (count + 1)) r.2).map fun h => (some r.1, h)

/-- The length of the strings' pointers is what is left of the length of the data behind the sizes
of the technology, the retry flag and the message reference. -/
def dispatchImsSms (pf : Platform) (h : Heap DataBlock) (data : Option ℕ) (datalen : ℕ) :
    Option Copy :=
  match data.bind h.block with
  | some (.cells _ [.plain tech, .plain retry, .plain messageRef, .pointer message]) =>
      let r := h.malloc (.cells pf.imsMessageSize
        [.plain tech, .plain retry, .plain messageRef, .undefined])
      if tech = 1 then
        (dispatchStrings pf r.2 message (datalen - 4 - 1 - 4)).bind fun m =>
          (setCell m.2 r.1 3 (.pointer m.1)).map fun h => (some r.1, h)
      else if tech = 2 then
        message.bind fun q =>
          (readBlock r.2 q pf.cdmaMessageSize).bind fun b =>
            (setCell (r.2.malloc b).2 r.1 3 (.pointer (some (r.2.malloc b).1))).map
              fun h => (some r.1, h)
      else some (some r.1, r.2)
  | _ => none

/-- The carriers of one list, each with `mcc`, `mnc`, `match_type` and `match_data`. -/
def dupCarriers (pf : Platform) (h : Heap DataBlock) (src : Option ℕ) (count : ℕ) :
    Option (ℕ × Heap DataBlock) :=
  let r := h.malloc (.cells (count * pf.carrierSize) (List.replicate (4 * count) .undefined))
  (eachCell dupCarrierField src r.1 (List.range (4 * count)) r.2).map fun h => (r.1, h)

def dispatchCarrierRestrictions (pf : Platform) (h : Heap DataBlock) (data : Option ℕ) :
    Option Copy :=
  match data.bind h.block with
  | some (.cells _ [.plain allowed, .plain excluded, .pointer allowedp, .pointer excludedp]) =>
      let r := h.malloc (.cells pf.restrictionsSize
        [.plain allowed, .plain excluded, .undefined, .undefined])
      (dupCarriers pf r.2 allowedp allowed).bind fun a =>
        (setCell a.2 r.1 2 (.pointer (some a.1))).bind fun h =>
          (dupCarriers pf h excludedp excluded).bind fun e =>
            (setCell e.2 r.1 3 (.pointer (some e.1))).map fun h => (some r.1, h)
  | _ => none

/-- What a function of the table does. -/
def DispatchFunction.run (pf : Platform) (h : Heap DataBlock) (data : Option ℕ) (datalen : ℕ) :
    DispatchFunction → Option Copy
  | .dispatchRaw => RequestCopies.dispatchRaw h data datalen
  | .dispatchString => RequestCopies.dispatchString pf h data datalen
  | .dispatchStrings => RequestCopies.dispatchStrings pf h data datalen
  | .dispatchVoid => some (none, h)
  | .dispatchCallForward => RequestCopies.dispatchCallForward h data datalen
  | .dispatchDial => RequestCopies.dispatchDial h data datalen
  | .dispatchSimIo => RequestCopies.dispatchSimIo pf h data datalen
  | .dispatchSmsWrite => RequestCopies.dispatchSmsWrite h data datalen
  | .dispatchGsmBrSmsCnf => RequestCopies.dispatchGsmBrSmsCnf pf h data datalen
  | .dispatchImsSms => RequestCopies.dispatchImsSms pf h data datalen
  | .dispatchSetInitialAttachApn => RequestCopies.dispatchSetInitialAttachApn h data datalen
  | .dispatchCarrierRestrictions => RequestCopies.dispatchCarrierRestrictions pf h data
  | .dummyDispatch => some (none, h)

def dupRequestData (pf : Platform) (commandInfo : ℕ → DispatchFunction) (requestId : ℕ)
    (h : Heap DataBlock) (data : Option ℕ) (datalen : ℕ) : Option Copy :=
  (commandInfo requestId).run pf h data datalen

/-- A structure is freed behind the strings of so many fields. -/
def freeFields (fields : ℕ) (h : Heap DataBlock) (data : Option ℕ) : Option (Heap DataBlock) :=
  data.bind fun p => (releaseCells p (List.range fields) h).bind fun h => h.free p

/-- An array is freed behind what its pointers lead to. -/
def freePointers (count : ℕ) (h : Heap DataBlock) (data : Option ℕ) : Option (Heap DataBlock) :=
  match data with
  | none => if count = 0 then some h else none
  | some p => (releaseCells p (List.range count) h).bind fun h => h.free p

def freeStrings (pf : Platform) (h : Heap DataBlock) (data : Option ℕ) (datalen : ℕ) :=
  freePointers (datalen / pf.pointerSize) h data

/-- The length of the pointers is divided by the size of what they lead to. -/
def freeGsmBrSmsCnf (pf : Platform) (h : Heap DataBlock) (data : Option ℕ) (datalen : ℕ) :=
  freePointers (datalen / pf.configInfoSize) h data

def freeCallForward := freeFields 1
def freeDial := freeFields 1
def freeSimIo (pf : Platform) := freeFields (if pf.version12 then 4 else 3)
def freeSmsWrite := freeFields 2
def freeSetInitialAttachApn := freeFields 4

/-- The branches for the functions of the table; some have none. -/
def DispatchFunction.release (pf : Platform) (h : Heap DataBlock) (data : Option ℕ) (datalen : ℕ) :
    DispatchFunction → Option (Heap DataBlock)
  | .dispatchRaw | .dispatchString => h.freeAll data.toList
  | .dispatchStrings => freeStrings pf h data datalen
  | .dispatchSimIo => freeSimIo pf h data
  | .dispatchDial => freeDial h data
  | .dispatchVoid => some h
  | .dispatchCallForward => freeCallForward h data
  | .dispatchSmsWrite => freeSmsWrite h data
  | .dispatchGsmBrSmsCnf => freeGsmBrSmsCnf pf h data datalen
  | .dispatchSetInitialAttachApn => freeSetInitialAttachApn h data
  | .dispatchImsSms | .dispatchCarrierRestrictions | .dummyDispatch => some h

def freeRequestData (pf : Platform) (commandInfo : ℕ → DispatchFunction) (requestId : ℕ)
    (h : Heap DataBlock) (data : Option ℕ) (datalen : ℕ) : Option (Heap DataBlock) :=
  (commandInfo requestId).release pf h data datalen

/-- The number of fields whose strings are copied with a structure. -/
def DispatchFunction.fields (pf : Platform) : DispatchFunction → Option ℕ
  | .dispatchCallForward | .dispatchDial => some 1
  | .dispatchSmsWrite => some 2
  | .dispatchSimIo => some (if pf.version12 then 4 else 3)
  | .dispatchSetInitialAttachApn => some 4
  | _ => none

/-- The data that a request which is copied with a function comes with, if there is data: bytes;
the bytes of a string; an array of pointers, of which some may be null; a structure with the
strings in front. -/
def Payload (pf : Platform) (f : DispatchFunction) (h : Heap DataBlock) (p datalen : ℕ) : Prop :=
  match f with
  | .dispatchRaw => ∃ content, h.block p = some (.bytes content) ∧ content.length = datalen
  | .dispatchString => (∃ content, h.block p = some (.bytes content)) ∧ datalen = pf.pointerSize
  | .dispatchStrings =>
      ∃ ps : List (Option ℕ), datalen = ps.length * pf.pointerSize ∧
        h.block p = some (.cells datalen (ps.map .pointer)) ∧ LeadToBytes h (fun _ => True) ps
  | .dispatchGsmBrSmsCnf =>
      ∃ ps : List (Option ℕ), datalen = ps.length * pf.pointerSize ∧
        h.block p = some (.cells datalen (ps.map .pointer)) ∧
        LeadToBytes h (fun content => content.length = pf.configInfoSize) ps
  | .dispatchCallForward | .dispatchDial | .dispatchSimIo | .dispatchSmsWrite
  | .dispatchSetInitialAttachApn =>
      ∃ (ps : List (Option ℕ)) (rest : List Cell), f.fields pf = some ps.length ∧
        h.block p = some (.cells datalen (ps.map .pointer ++ rest)) ∧
        LeadToBytes h (fun _ => True) ps ∧
        ∀ c ∈ rest, c ≠ .undefined ∧ ∀ q, c = .pointer (some q) → h.Live q
  | _ => True

/-- The data of a request is well-formed; the length of a string is given without data as well,
and that of strings is zero then. -/
def WellFormed (pf : Platform) (f : DispatchFunction) (h : Heap DataBlock) (data : Option ℕ)
    (datalen : ℕ) : Prop :=
  match data with
  | some p => Payload pf f h p datalen
  | none => f = .dispatchString → datalen = pf.pointerSize

/-- The copy leads to the same as the data, through different new blocks, and when it is freed
everything is as it was. -/
def Duplicated (h : Heap DataBlock) (data : Option ℕ) (copy : Option Copy)
    (free : Heap DataBlock → Option ℕ → Option (Heap DataBlock)) : Prop :=
  ∃ ret h' qs h'', copy = some (ret, h') ∧ Copied h h' data ret qs ∧ qs.Nodup ∧
    (∀ q ∈ qs, h.next ≤ q) ∧ free h' ret = some h'' ∧ h''.block = h.block

/-- The data of a request is copied, and the copy freed with the same length. -/
def Duplicates (pf : Platform) (commandInfo : ℕ → DispatchFunction) (requestId : ℕ)
    (h : Heap DataBlock) (data : Option ℕ) (datalen : ℕ) : Prop :=
  Duplicated h data (dupRequestData pf commandInfo requestId h data datalen)
    fun h' ret => freeRequestData pf commandInfo requestId h' ret datalen

/-- There is data, of a kind that is copied as a whole: strings, bytes, a structure in which no
other field is a pointer that is not null, or a cell broadcast configuration with one pointer,
which is null. For a string that is missing, and for the functions that copy nothing, there is no
data. -/
def Copyable (pf : Platform) (f : DispatchFunction) (h : Heap DataBlock) (data : Option ℕ) : Prop :=
  match f with
  | .dispatchString => True
  | .dispatchVoid | .dummyDispatch => data = none
  | .dispatchRaw | .dispatchStrings => data ≠ none
  | .dispatchGsmBrSmsCnf =>
      ∃ p size, data = some p ∧ h.block p = some (.cells size [.pointer none])
  | .dispatchImsSms | .dispatchCarrierRestrictions => False
  | .dispatchCallForward | .dispatchDial | .dispatchSimIo | .dispatchSmsWrite
  | .dispatchSetInitialAttachApn =>
      ∃ p size cs fields, data = some p ∧ h.block p = some (.cells size cs) ∧
        f.fields pf = some fields ∧ ∀ c ∈ cs.drop fields, ∀ q, c ≠ .pointer (some q)

section Actions

variable {pf : Platform}

theorem copies_dupString : Copies dupString fun _ => True where
  null _ := rfl
  copy h q content hq _ := by
    rw [dupString, strdup, hq]
    rfl

theorem copies_dupConfigInfo (pf : Platform) :
    Copies (dupConfigInfo pf) fun content => content.length = pf.configInfoSize where
  null _ := rfl
  copy h q content hq hlen := by
    have hread : readBlock h q pf.configInfoSize = some (.bytes content) := by
      rw [readBlock, hq]
      dsimp only
      rw [if_pos (Nat.le_of_eq hlen.symm), ← hlen, List.take_length]
    rw [dupConfigInfo, dispatchRaw, hread]
    rfl

end Actions

section Whole

variable {h h' : Heap DataBlock} {ps : List (Option ℕ)} {p size datalen : ℕ} {rest : List Cell}
  {free : Heap DataBlock → Option ℕ → Option (Heap DataBlock)}

/-- A block of bytes is copied by one block, and freed by freeing it. -/
theorem duplicated_bytes {content : List UInt8} (hp : h.block p = some (.bytes content)) :
    Duplicated h (some p) (some (some h.next, (h.malloc (.bytes content)).2))
      fun h' ret => h'.freeAll ret.toList := by
  have hnew : (h.malloc (.bytes content)).2.block h.next = some (.bytes content) :=
    Heap.block_malloc_self _
  obtain ⟨h'', hfree, hblock, -⟩ := Heap.exists_free (Heap.live_of_eq_some hnew)
  refine ⟨some h.next, _, [h.next], h'', rfl, .bytes hp hnew, by simp, by simp, ?_, ?_⟩
  · dsimp only
    rw [Option.toList_some, Heap.freeAll, hfree]
    rfl
  · funext a
    rw [hblock]
    by_cases ha : a = h.next
    · rw [ha, Function.update_self, h.fresh _ (Nat.le_refl _)]
    · rw [Function.update_of_ne ha, Heap.block_malloc_of_ne _ ha]

/-- A block whose pointers in front were copied, with no other pointers behind them. -/
theorem duplicated_cells (hcopies : CopiesOf h h' ps)
    (hp : h.block p = some (.cells size (ps.map .pointer ++ rest)))
    (hret : h'.block h.next =
      some (.cells size ((renamed (h.next + 1) ps).map .pointer ++ rest)))
    (hrest : ∀ c ∈ rest, (∃ n, c = .plain n) ∨ c = .pointer none)
    (hfree : free h' (some h.next) =
      (releaseCells h.next (List.range ps.length) h').bind fun h' => h'.free h.next) :
    Duplicated h (some p) (some (some h.next, h')) free := by
  have hqs := filterMap_renamed (h.next + 1) ps
  obtain ⟨h'', hrelease, hblock⟩ := hcopies.exists_release hret
  refine ⟨some h.next, h', _, h'', rfl, .cells hp hret
    ((copiedCells_of_sameBytes hcopies.same).append (copiedCells_self hrest)), ?_, ?_,
    hfree.trans hrelease, hblock⟩
  · rw [List.append_nil, hqs, List.nodup_cons]
    exact ⟨by simp, List.nodup_range'⟩
  · intro q hq
    rw [List.append_nil, hqs, List.mem_cons, List.mem_range'_1] at hq
    omega

/-- The strings of a structure's fields are copied in the structure's copy. -/
theorem exists_dispatchFields
    (hp : h.block p = some (.cells datalen (ps.map .pointer ++ rest)))
    (hps : LeadToBytes h (fun _ => True) ps) :
    ∃ h', dispatchFields ps.length h (some p) datalen = some (some h.next, h') ∧
      h'.block h.next =
        some (.cells datalen ((renamed (h.next + 1) ps).map .pointer ++ rest)) ∧
      CopiesOf h h' ps := by
  have hraw : dispatchRaw h (some p) datalen =
      some (some h.next, (h.malloc (.cells datalen (ps.map .pointer ++ rest))).2) := by
    rw [dispatchRaw, readBlock, hp]
    dsimp only
    rw [if_pos rfl]
    rfl
  have hsrc : (h.malloc (.cells datalen (ps.map .pointer ++ rest))).2.block h.next =
      some (.cells datalen (ps.map .pointer ++ rest)) := Heap.block_malloc_self _
  obtain ⟨h', hloop, hblock, hcopies⟩ :=
    exists_copiesOf copies_dupString hsrc (List.length_map _) hps
  rw [merge_map_renamed] at hblock
  refine ⟨h', ?_, hblock, hcopies⟩
  rw [dispatchFields, hraw, Option.bind_some]
  dsimp only
  rw [hloop]
  rfl

/-- The strings of an array are copied. -/
theorem exists_dispatchStrings (pf : Platform)
    (hlen : datalen = ps.length * pf.pointerSize)
    (hp : h.block p = some (.cells datalen (ps.map .pointer)))
    (hps : LeadToBytes h (fun _ => True) ps) :
    ∃ h', dispatchStrings pf h (some p) datalen = some (some h.next, h') ∧
      h'.block h.next =
        some (.cells datalen ((renamed (h.next + 1) ps).map .pointer ++ [])) ∧
      CopiesOf h h' ps := by
  have hcount : datalen / pf.pointerSize = ps.length := by
    rw [hlen, Nat.mul_div_cancel _ pf.pointerSize_pos]
  have hmod : datalen % pf.pointerSize = 0 := by
    rw [hlen, Nat.mul_mod_left]
  have hsrc : (h.malloc (.cells datalen (List.replicate ps.length (.pointer none) ++ []))).2.block
      p = some (.cells datalen (ps.map .pointer ++ [])) := by
    rw [Heap.block_malloc_of_live _ (Heap.live_of_eq_some hp), hp, List.append_nil]
  obtain ⟨h', hloop, hblock, hcopies⟩ :=
    exists_copiesOf copies_dupString hsrc List.length_replicate hps
  refine ⟨h', ?_, ?_, hcopies⟩
  · rw [List.append_nil] at hloop
    rw [dispatchStrings, hcount, if_neg (not_not_intro hmod), ← hlen]
    exact congrArg (Option.map fun h' => (some h.next, h')) hloop
  · have hmerge := merge_replicate (renamed (h.next + 1) ps)
    rw [length_renamed] at hmerge
    rw [hblock, hmerge]

/-- The configurations of an array are copied; only the first cell was cleared. -/
theorem exists_dispatchGsmBrSmsCnf (pf : Platform) (ps : List (Option ℕ)) (r : Option ℕ)
    (hlen : datalen = (ps ++ [r]).length * pf.pointerSize)
    (hp : h.block p = some (.cells datalen ((ps ++ [r]).map .pointer)))
    (hps : LeadToBytes h (fun content => content.length = pf.configInfoSize) (ps ++ [r])) :
    ∃ h', dispatchGsmBrSmsCnf pf h (some p) datalen = some (some h.next, h') ∧
      h'.block h.next = some (.cells datalen
        (merge (.pointer none :: List.replicate ps.length .undefined)
          (renamed (h.next + 1) (ps ++ [r])) ++ [])) ∧
      CopiesOf h h' (ps ++ [r]) := by
  have hlength : (ps ++ [r]).length = ps.length + 1 := by simp
  have hcount : datalen / pf.pointerSize = ps.length + 1 := by
    rw [hlen, Nat.mul_div_cancel _ pf.pointerSize_pos, hlength]
  have hsrc : (h.malloc (.cells datalen
      (.pointer none :: List.replicate ps.length .undefined ++ []))).2.block p =
      some (.cells datalen ((ps ++ [r]).map .pointer ++ [])) := by
    rw [Heap.block_malloc_of_live _ (Heap.live_of_eq_some hp), hp, List.append_nil]
  obtain ⟨h', hloop, hblock, hcopies⟩ :=
    exists_copiesOf (copies_dupConfigInfo pf) hsrc (by simp) hps
  refine ⟨h', ?_, hblock, hcopies⟩
  have hsize : (ps.length + 1) * pf.pointerSize = datalen := by
    rw [hlen, hlength]
  rw [List.append_nil, hlength] at hloop
  rw [dispatchGsmBrSmsCnf, hcount]
  dsimp only
  rw [hsize]
  exact congrArg (Option.map fun h' => (some h.next, h')) hloop

/-- Only what is missing is copied by a null pointer, and then there is nothing new. -/
theorem Duplicated.of_none {copy : Option Copy} (hd : Duplicated h none copy free) :
    ∃ h', copy = some (none, h') ∧ ∃ h'', free h' none = some h'' ∧ h''.block = h.block := by
  obtain ⟨ret, h', qs, h'', hcopy, hcopied, -, -, hfree, hblock⟩ := hd
  cases hcopied
  exact ⟨h', hcopy, h'', hfree, hblock⟩

/-- What is not freed was not copied. -/
theorem not_duplicated_of_live {data : Option ℕ} {copy : Option Copy}
    (hlive : ∀ r, copy = some r → r.2.Live h.next) :
    ¬ Duplicated h data copy fun h' _ => some h' := by
  rintro ⟨ret, h', qs, h'', hcopy, -, -, -, hfree, hblock⟩
  obtain rfl := Option.some.inj hfree
  have hnew := hlive _ hcopy
  dsimp only at hnew
  rw [Heap.Live, hblock, h.fresh _ (Nat.le_refl _)] at hnew
  cases hnew

/-- A pointer that was copied as it was does not lead to a new block. -/
theorem not_duplicated_fields (hp : h.block p = some (.cells size (ps.map .pointer ++ rest)))
    (hret : h'.block h.next =
      some (.cells size ((renamed (h.next + 1) ps).map .pointer ++ rest)))
    {q : ℕ} (hq : .pointer (some q) ∈ rest) (hlive : h.Live q) :
    ¬ Duplicated h (some p) (some (some h.next, h')) free := by
  rintro ⟨ret, h₁, qs, h'', hcopy, hcopied, -, hfresh, -, -⟩
  obtain ⟨rfl, rfl⟩ := Prod.mk.inj (Option.some.inj hcopy)
  cases hcopied with
  | bytes hp₁ hp₁' => cases hp.symm.trans hp₁
  | cells hp₁ hp₁' hcells =>
      obtain ⟨-, rfl⟩ := DataBlock.cells.inj (Option.some.inj (hret.symm.trans hp₁'))
      have hmem := hcells.mem_of_pointer (List.mem_append_right _ hq)
      exact absurd hlive.lt (Nat.not_lt.mpr (hfresh q (List.mem_cons_of_mem _ hmem)))

/-- A last configuration that is there is not freed. -/
theorem not_duplicated_last {pf : Platform} {q : ℕ}
    (hlen : datalen = (ps ++ [some q]).length * pf.pointerSize)
    (hret : h'.block h.next = some (.cells datalen
      (merge (.pointer none :: List.replicate ps.length .undefined)
        (renamed (h.next + 1) (ps ++ [some q])) ++ [])))
    (hcopies : CopiesOf h h' (ps ++ [some q])) :
    ¬ Duplicated h (some p) (some (some h.next, h'))
      fun h' ret => freeGsmBrSmsCnf pf h' ret datalen := by
  rintro ⟨ret, h₁, qs, h'', hcopy, -, -, -, hfree, hblock⟩
  obtain ⟨rfl, rfl⟩ := Prod.mk.inj (Option.some.inj hcopy)
  have hcount : datalen / pf.configInfoSize ≤ ps.length := by
    refine Nat.le_of_lt_succ (Nat.div_lt_of_lt_mul ?_)
    rw [hlen, List.length_append, Nat.mul_comm]
    exact Nat.mul_lt_mul_of_pos_right pf.pointerSize_lt (Nat.succ_pos _)
  -- The last copy is at an address of its own, and the loop ends in front of its pointer.
  have hlast : some (h.next + 1 + ps.countP Option.isSome) ∈
      renamed (h.next + 1) (ps ++ [some q]) := by
    rw [renamed_append]
    exact List.mem_append_right _ (List.mem_singleton_self _)
  have hothers : ∀ i ∈ List.range (datalen / pf.configInfoSize), ∀ a,
      (merge (.pointer none :: List.replicate ps.length .undefined)
        (renamed (h.next + 1) (ps ++ [some q])) ++ [])[i]? = some (.pointer (some a)) →
      h.next + 1 ≤ a ∧ a < h.next + 1 + ps.countP Option.isSome := by
    intro i hi a ha
    rw [List.append_nil] at ha
    have hlt : i < (renamed (h.next + 1) ps).length := by
      rw [length_renamed]
      exact Nat.lt_of_lt_of_le (List.mem_range.mp hi) hcount
    rcases getElem?_merge ha with hmid | hrs
    · have hmem := List.mem_of_getElem? hmid
      simp at hmem
    · rw [renamed_append, List.getElem?_append_left hlt] at hrs
      exact mem_renamed (List.mem_of_getElem? hrs)
  have hrun : (releaseCells h.next (List.range (datalen / pf.configInfoSize)) h').bind
      (fun h' => h'.free h.next) = some h'' := hfree
  obtain ⟨h₂, hrelease, hlastfree⟩ := Option.bind_eq_some_iff.mp hrun
  have hkept := block_of_releaseCells hret hrelease
    (fun i hi heq => Nat.not_succ_le_self _ (hothers i hi _ heq).1)
    (fun i hi heq => Nat.lt_irrefl _ (hothers i hi _ heq).2)
  have hlive := live_of_sameBytes hcopies.same hlast
  have hgone : h''.block (h.next + 1 + ps.countP Option.isSome) = none := by
    rw [hblock, h.fresh _ (by omega)]
  by_cases hnew : h₂.Live h.next
  · obtain ⟨h₃, hfree₃, hblock₃, -⟩ := Heap.exists_free hnew
    obtain rfl := Option.some.inj (hfree₃.symm.trans hlastfree)
    rw [hblock₃, Function.update_of_ne (by omega), hkept] at hgone
    rw [Heap.Live, hgone] at hlive
    cases hlive
  · rw [Heap.free, dif_neg hnew] at hlastfree
    cases hlastfree

/-- A last configuration that is missing, but not the first one, is a pointer that was never
written. -/
theorem undefined_mem_merge (next : ℕ) {ps : List (Option ℕ)} (hps : ps ≠ []) :
    Cell.undefined ∈ merge (.pointer none :: List.replicate ps.length .undefined)
      (renamed next (ps ++ [none])) := by
  obtain ⟨n, hn⟩ := Nat.exists_eq_add_one_of_ne_zero (mt List.length_eq_zero_iff.mp hps)
  have hmid : Cell.pointer none :: List.replicate ps.length .undefined =
      (Cell.pointer none :: List.replicate n .undefined) ++ [.undefined] := by
    rw [hn, List.replicate_succ']
    rfl
  rw [hmid, renamed_append, merge_append (by simp [hn])]
  exact List.mem_append_right _ (List.mem_singleton_self _)

/-- The configurations are copied and freed only if there is one, and it is missing. -/
theorem duplicated_gsmBrSmsCnf_iff {pf : Platform}
    (hlen : datalen = ps.length * pf.pointerSize)
    (hp : h.block p = some (.cells datalen (ps.map .pointer)))
    (hps : LeadToBytes h (fun content => content.length = pf.configInfoSize) ps) :
    Duplicated h (some p) (dispatchGsmBrSmsCnf pf h (some p) datalen)
        (fun h' ret => freeGsmBrSmsCnf pf h' ret datalen) ↔ ps = [none] := by
  constructor
  · intro hd
    obtain rfl | ⟨front, r, rfl⟩ := List.eq_nil_or_concat' ps
    · have hrun : dispatchGsmBrSmsCnf pf h (some p) datalen = none := by
        rw [dispatchGsmBrSmsCnf, hlen, List.length_nil, Nat.zero_mul, Nat.zero_div]
      obtain ⟨ret, h', qs, h'', hcopy, -⟩ := hd
      exact absurd (hrun.symm.trans hcopy).symm (Option.some_ne_none _)
    · obtain ⟨h', hrun, hret, hcopies⟩ := exists_dispatchGsmBrSmsCnf pf front r hlen hp hps
      rw [hrun] at hd
      cases r with
      | some q => exact absurd hd (not_duplicated_last hlen hret hcopies)
      | none =>
          by_contra hne
          have hfront : front ≠ [] := by
            rintro rfl
            exact hne rfl
          obtain ⟨ret, h₁, qs, h'', hcopy, hcopied, -⟩ := hd
          obtain ⟨rfl, rfl⟩ := Prod.mk.inj (Option.some.inj hcopy)
          cases hcopied with
          | bytes hp₁ hp₁' => cases hp.symm.trans hp₁
          | cells hp₁ hp₁' hcells =>
              obtain ⟨-, rfl⟩ := DataBlock.cells.inj (Option.some.inj (hret.symm.trans hp₁'))
              exact hcells.defined
                (List.mem_append_left _ (undefined_mem_merge (h.next + 1) hfront))
  · rintro rfl
    obtain ⟨h', hrun, hret, hcopies⟩ := exists_dispatchGsmBrSmsCnf pf [] none hlen hp hps
    have hcopies' : CopiesOf h h' [none] := hcopies
    have hp' : h.block p = some (.cells datalen ([none].map .pointer ++ [])) := hp
    have hcount : datalen / pf.configInfoSize = 0 := by
      refine Nat.div_eq_of_lt ?_
      rw [hlen]
      simpa using pf.pointerSize_lt
    rw [hrun]
    refine duplicated_cells hcopies' hp' hret (List.forall_mem_nil _) ?_
    have hone : releaseCells h.next (List.range 1) h' = some h' := by
      have hcell : cell h' h.next 0 = some (.pointer none) := cell_eq hret
      rw [show List.range 1 = [0] from rfl, releaseCells, hcell]
      rfl
    rw [freeGsmBrSmsCnf, hcount, freePointers, List.length_singleton, hone]
    rfl

end Whole

section Fields

variable {pf : Platform} {f : DispatchFunction} {fields : ℕ} {h : Heap DataBlock} {p datalen : ℕ}
  {ps : List (Option ℕ)} {rest : List Cell}

theorem dispatchSetInitialAttachApn_some (h : Heap DataBlock) (p datalen : ℕ) :
    dispatchSetInitialAttachApn h (some p) datalen = dispatchFields 4 h (some p) datalen := by
  rw [dispatchSetInitialAttachApn, dispatchFields, dispatchRaw]
  cases readBlock h p datalen with
  | none => rfl
  | some b => rfl

/-- The functions that copy a structure with the strings of its fields, if there is one. -/
theorem run_eq_dispatchFields (hfields : f.fields pf = some fields) :
    f.run pf h (some p) datalen = dispatchFields fields h (some p) datalen := by
  cases f with
  | dispatchSetInitialAttachApn =>
      cases hfields
      exact dispatchSetInitialAttachApn_some h p datalen
  | dispatchCallForward | dispatchDial | dispatchSimIo | dispatchSmsWrite =>
      cases hfields
      rfl
  | _ => cases hfields

theorem release_eq_freeFields {data : Option ℕ} (hfields : f.fields pf = some fields) :
    f.release pf h data datalen = freeFields fields h data := by
  cases f with
  | dispatchSetInitialAttachApn | dispatchCallForward | dispatchDial | dispatchSimIo
  | dispatchSmsWrite =>
      cases hfields
      rfl
  | _ => cases hfields

/-- Without a structure a field is accessed, in the copy or when it is freed. -/
theorem not_duplicated_fields_none (hfields : f.fields pf = some fields) :
    ¬ Duplicated h none (f.run pf h none datalen) fun h' ret => f.release pf h' ret datalen := by
  intro hd
  obtain ⟨h', -, h'', hfree, -⟩ := hd.of_none
  rw [release_eq_freeFields hfields] at hfree
  cases hfree

theorem duplicated_fields_iff (hfields : f.fields pf = some ps.length)
    (hp : h.block p = some (.cells datalen (ps.map .pointer ++ rest)))
    (hps : LeadToBytes h (fun _ => True) ps)
    (hrest : ∀ c ∈ rest, c ≠ .undefined ∧ ∀ q, c = .pointer (some q) → h.Live q) :
    Duplicated h (some p) (f.run pf h (some p) datalen)
        (fun h' ret => f.release pf h' ret datalen) ↔
      ∀ c ∈ rest, ∀ q, c ≠ .pointer (some q) := by
  obtain ⟨h', hrun, hret, hcopies⟩ := exists_dispatchFields hp hps
  rw [run_eq_dispatchFields hfields, hrun]
  constructor
  · rintro hd c hc q rfl
    exact not_duplicated_fields hp hret hc ((hrest _ hc).2 q rfl) hd
  · intro hnone
    refine duplicated_cells hcopies hp hret (fun c hc => ?_) ?_
    · cases c with
      | undefined => exact absurd rfl (hrest _ hc).1
      | plain n => exact .inl ⟨n, rfl⟩
      | pointer r =>
          cases r with
          | none => exact .inr rfl
          | some q => exact absurd rfl (hnone _ hc q)
    · exact release_eq_freeFields hfields

/-- The condition on a structure, said of the cells behind the strings. -/
theorem copyable_fields_iff (hfields : f.fields pf = some ps.length)
    (hp : h.block p = some (.cells datalen (ps.map .pointer ++ rest))) :
    (∃ p' size cs fields, some p = some p' ∧ h.block p' = some (.cells size cs) ∧
        f.fields pf = some fields ∧ ∀ c ∈ cs.drop fields, ∀ q, c ≠ .pointer (some q)) ↔
      ∀ c ∈ rest, ∀ q, c ≠ .pointer (some q) := by
  have hdrop : (ps.map Cell.pointer ++ rest).drop ps.length = rest :=
    List.drop_left' (List.length_map _)
  constructor
  · rintro ⟨p', size, cs, fields, heq, hblock, hfields', hnone⟩
    obtain rfl := Option.some.inj heq
    obtain ⟨-, rfl⟩ := DataBlock.cells.inj (Option.some.inj (hp.symm.trans hblock))
    obtain rfl := Option.some.inj (hfields.symm.trans hfields')
    rwa [hdrop] at hnone
  · intro hnone
    exact ⟨p, datalen, _, _, rfl, hp, hfields, by rwa [hdrop]⟩

end Fields

section Requests

variable {pf : Platform} {h : Heap DataBlock} {data : Option ℕ} {datalen : ℕ}

theorem duplicated_raw_iff (hdata : WellFormed pf .dispatchRaw h data datalen) :
    Duplicated h data (dispatchRaw h data datalen) (fun h' ret => h'.freeAll ret.toList) ↔
      data ≠ none := by
  cases data with
  | none =>
      refine iff_of_false (fun hd => ?_) (not_not_intro rfl)
      obtain ⟨h', hcopy, h'', hfree, hblock⟩ := hd.of_none
      obtain ⟨-, rfl⟩ := Prod.mk.inj (Option.some.inj hcopy)
      obtain rfl := Option.some.inj hfree
      have hnew := congrFun hblock h.next
      rw [Heap.block_malloc_self, h.fresh _ (Nat.le_refl _)] at hnew
      cases hnew
  | some p =>
      obtain ⟨content, hp, hlen⟩ := hdata
      have hraw : dispatchRaw h (some p) datalen =
          some (some h.next, (h.malloc (.bytes content)).2) := by
        rw [dispatchRaw, readBlock, hp]
        dsimp only
        rw [if_pos (Nat.le_of_eq hlen.symm), ← hlen, List.take_length]
        rfl
      rw [hraw]
      exact iff_of_true (duplicated_bytes hp) (Option.some_ne_none p)

theorem duplicated_string (hdata : WellFormed pf .dispatchString h data datalen) :
    Duplicated h data (dispatchString pf h data datalen)
      fun h' ret => h'.freeAll ret.toList := by
  cases data with
  | none =>
      have hlen : datalen = pf.pointerSize := hdata rfl
      rw [dispatchString, if_neg (not_not_intro hlen)]
      exact ⟨none, h, [], h, rfl, .null, List.nodup_nil, List.forall_mem_nil _, rfl, rfl⟩
  | some p =>
      obtain ⟨⟨content, hp⟩, hlen⟩ := hdata
      rw [dispatchString, if_neg (not_not_intro hlen), strdup, hp]
      exact duplicated_bytes hp

theorem duplicated_strings_iff (hdata : WellFormed pf .dispatchStrings h data datalen) :
    Duplicated h data (dispatchStrings pf h data datalen)
        (fun h' ret => freeStrings pf h' ret datalen) ↔ data ≠ none := by
  cases data with
  | none =>
      refine iff_of_false (fun hd => ?_) (not_not_intro rfl)
      obtain ⟨h', hcopy, -⟩ := hd.of_none
      rw [dispatchStrings] at hcopy
      split_ifs at hcopy
      obtain ⟨h₁, -, heq⟩ := Option.map_eq_some_iff.mp hcopy
      cases heq
  | some p =>
      obtain ⟨ps, hlen, hp, hps⟩ := hdata
      obtain ⟨h', hrun, hret, hcopies⟩ := exists_dispatchStrings pf hlen hp hps
      have hcount : datalen / pf.pointerSize = ps.length := by
        rw [hlen, Nat.mul_div_cancel _ pf.pointerSize_pos]
      rw [hrun]
      refine iff_of_true (duplicated_cells hcopies ?_ hret (List.forall_mem_nil _) ?_)
        (Option.some_ne_none p)
      · rw [List.append_nil, hp]
      · rw [freeStrings, hcount]
        rfl

/-- Where nothing is copied, nothing may be there. -/
theorem duplicated_nothing_iff :
    Duplicated h data (some (none, h)) (fun h' _ => some h') ↔ data = none := by
  constructor
  · rintro ⟨ret, h', qs, h'', hcopy, hcopied, -⟩
    obtain ⟨rfl, rfl⟩ := Prod.mk.inj (Option.some.inj hcopy)
    cases hcopied
    rfl
  · rintro rfl
    exact ⟨none, h, [], h, rfl, .null, List.nodup_nil, List.forall_mem_nil _, rfl, rfl⟩

theorem duplicated_gsm_iff (hdata : WellFormed pf .dispatchGsmBrSmsCnf h data datalen) :
    Duplicated h data (dispatchGsmBrSmsCnf pf h data datalen)
        (fun h' ret => freeGsmBrSmsCnf pf h' ret datalen) ↔
      ∃ p size, data = some p ∧ h.block p = some (.cells size [.pointer none]) := by
  cases data with
  | none =>
      refine iff_of_false (fun hd => ?_) ?_
      · obtain ⟨h', hcopy, -⟩ := hd.of_none
        rw [dispatchGsmBrSmsCnf] at hcopy
        split at hcopy
        · cases hcopy
        · obtain ⟨h₁, -, heq⟩ := Option.map_eq_some_iff.mp hcopy
          cases heq
      · rintro ⟨p, size, hnone, -⟩
        cases hnone
  | some p =>
      obtain ⟨ps, hlen, hp, hps⟩ := hdata
      rw [duplicated_gsmBrSmsCnf_iff hlen hp hps]
      constructor
      · rintro rfl
        exact ⟨p, datalen, rfl, hp⟩
      · rintro ⟨p', size, heq, hblock⟩
        obtain rfl := Option.some.inj heq
        obtain ⟨-, hcells⟩ := DataBlock.cells.inj (Option.some.inj (hp.symm.trans hblock))
        cases ps with
        | nil => cases hcells
        | cons r ps =>
            obtain ⟨hr, hps'⟩ := List.cons.inj hcells
            obtain rfl := List.map_eq_nil_iff.mp hps'
            rw [Cell.pointer.inj hr]

theorem live_strdup {q a : ℕ} {r : ℕ × Heap DataBlock} (hrun : strdup h q = some r)
    (ha : h.Live a) : r.2.Live a := by
  rw [strdup] at hrun
  split at hrun
  · obtain rfl := Option.some.inj hrun
    exact (Heap.live_malloc_iff _).mpr (.inr ha)
  · cases hrun

theorem live_dupString {c : Cell} {r : Option Cell × Heap DataBlock} {a : ℕ}
    (hrun : dupString h c = some r) (ha : h.Live a) : r.2.Live a := by
  rw [dupString.eq_def] at hrun
  split at hrun
  · obtain rfl := Option.some.inj hrun
    exact ha
  · obtain ⟨s, hs, rfl⟩ := Option.map_eq_some_iff.mp hrun
    exact live_strdup hs ha
  · cases hrun

theorem live_dupCarrierField {c : Cell} {r : Option Cell × Heap DataBlock} {a : ℕ}
    (hrun : dupCarrierField h c = some r) (ha : h.Live a) : r.2.Live a := by
  rw [dupCarrierField.eq_def] at hrun
  split at hrun
  · obtain rfl := Option.some.inj hrun
    exact ha
  · obtain ⟨s, hs, rfl⟩ := Option.map_eq_some_iff.mp hrun
    exact live_strdup hs ha
  · cases hrun

theorem live_dispatchStrings {r : Copy} {a : ℕ} (hrun : dispatchStrings pf h data datalen = some r)
    (ha : h.Live a) : r.2.Live a := by
  rw [dispatchStrings] at hrun
  split_ifs at hrun
  obtain ⟨h', hloop, rfl⟩ := Option.map_eq_some_iff.mp hrun
  exact live_eachCell live_dupString hloop ((Heap.live_malloc_iff _).mpr (.inr ha))

theorem live_dupCarriers {r : ℕ × Heap DataBlock} {a count : ℕ}
    (hrun : dupCarriers pf h data count = some r) (ha : h.Live a) : r.2.Live a := by
  obtain ⟨h', hloop, rfl⟩ := Option.map_eq_some_iff.mp hrun
  exact live_eachCell live_dupCarrierField hloop ((Heap.live_malloc_iff _).mpr (.inr ha))

theorem live_dispatchImsSms {r : Copy} (hrun : dispatchImsSms pf h data datalen = some r) :
    r.2.Live h.next := by
  have hnew : ∀ b, (h.malloc b).2.Live h.next := fun b => (Heap.live_malloc_iff b).mpr (.inl rfl)
  rw [dispatchImsSms] at hrun
  split at hrun
  · dsimp only at hrun
    split_ifs at hrun
    · obtain ⟨m, hm, hrun⟩ := Option.bind_eq_some_iff.mp hrun
      obtain ⟨h', hset, rfl⟩ := Option.map_eq_some_iff.mp hrun
      exact live_setCell hset (live_dispatchStrings hm (hnew _))
    · obtain ⟨q, -, hrun⟩ := Option.bind_eq_some_iff.mp hrun
      obtain ⟨b, -, hrun⟩ := Option.bind_eq_some_iff.mp hrun
      obtain ⟨h', hset, rfl⟩ := Option.map_eq_some_iff.mp hrun
      exact live_setCell hset ((Heap.live_malloc_iff b).mpr (.inr (hnew _)))
    · obtain rfl := Option.some.inj hrun
      exact hnew _
  · cases hrun

theorem live_dispatchCarrierRestrictions {r : Copy}
    (hrun : dispatchCarrierRestrictions pf h data = some r) : r.2.Live h.next := by
  have hnew : ∀ b, (h.malloc b).2.Live h.next := fun b => (Heap.live_malloc_iff b).mpr (.inl rfl)
  rw [dispatchCarrierRestrictions] at hrun
  split at hrun
  · obtain ⟨a, ha, hrun⟩ := Option.bind_eq_some_iff.mp hrun
    obtain ⟨h₁, hset₁, hrun⟩ := Option.bind_eq_some_iff.mp hrun
    obtain ⟨e, he, hrun⟩ := Option.bind_eq_some_iff.mp hrun
    obtain ⟨h₂, hset₂, rfl⟩ := Option.map_eq_some_iff.mp hrun
    have hlive₁ := live_setCell hset₁ (live_dupCarriers ha (hnew _))
    exact live_setCell hset₂ (live_dupCarriers he hlive₁)
  · cases hrun

/-- What a function of the table copies, and what is freed for it. -/
theorem duplicated_iff (f : DispatchFunction) (hdata : WellFormed pf f h data datalen) :
    Duplicated h data (f.run pf h data datalen) (fun h' ret => f.release pf h' ret datalen) ↔
      Copyable pf f h data := by
  cases f with
  | dispatchRaw => exact duplicated_raw_iff hdata
  | dispatchString => exact iff_of_true (duplicated_string hdata) trivial
  | dispatchStrings => exact duplicated_strings_iff hdata
  | dispatchVoid | dummyDispatch => exact duplicated_nothing_iff
  | dispatchGsmBrSmsCnf => exact duplicated_gsm_iff hdata
  | dispatchImsSms =>
      exact iff_of_false (not_duplicated_of_live fun r hr => live_dispatchImsSms hr) id
  | dispatchCarrierRestrictions =>
      exact iff_of_false
        (not_duplicated_of_live fun r hr => live_dispatchCarrierRestrictions hr) id
  | dispatchCallForward | dispatchDial | dispatchSimIo | dispatchSmsWrite
  | dispatchSetInitialAttachApn =>
      cases data with
      | none =>
          refine iff_of_false (not_duplicated_fields_none rfl) ?_
          rintro ⟨p, size, cs, fields, hnone, -⟩
          cases hnone
      | some p =>
          obtain ⟨ps, rest, hfields, hp, hps, hrest⟩ := hdata
          exact (duplicated_fields_iff hfields hp hps hrest).trans
            (copyable_fields_iff hfields hp).symm

/-- A request's data is copied and given back exactly when it is of a kind that is copied as a
whole. -/
theorem duplicates_iff (pf : Platform) (commandInfo : ℕ → DispatchFunction) (requestId : ℕ)
    (h : Heap DataBlock) (data : Option ℕ) (datalen : ℕ)
    (hdata : WellFormed pf (commandInfo requestId) h data datalen) :
    Duplicates pf commandInfo requestId h data datalen ↔
      Copyable pf (commandInfo requestId) h data :=
  duplicated_iff (commandInfo requestId) hdata

end Requests

/-- The sizes on a machine of 32 bits. -/
def platform32 : Platform where
  pointerSize := 4
  configInfoSize := 20
  imsMessageSize := 16
  cdmaMessageSize := 348
  restrictionsSize := 16
  carrierSize := 16
  version12 := true
  pointerSize_pos := Nat.succ_pos 3
  pointerSize_lt := Nat.lt_add_of_pos_right (Nat.succ_pos 15)

/-- A cell broadcast configuration, and an array with a pointer to it. -/
def oneConfigInfo : Heap DataBlock :=
  ((Heap.empty.malloc (.bytes (List.replicate 20 0))).2.malloc (.cells 4 [.pointer (some 0)])).2

/-- A string, and an array of pointers of which one leads to it. -/
def twoStrings : Heap DataBlock :=
  ((Heap.empty.malloc (.bytes [0x61, 0x70, 0x6e])).2.malloc
    (.cells 8 [.pointer (some 0), .pointer none])).2

theorem duplicates_twoStrings :
    Duplicates platform32 (fun _ => .dispatchStrings) 0 twoStrings (some 1) 8 := by
  have hdata : WellFormed platform32 .dispatchStrings twoStrings (some 1) 8 := by
    refine ⟨[some 0, none], rfl, rfl, fun q hq => ?_⟩
    obtain rfl : q = 0 := by simpa using hq
    exact ⟨_, rfl, trivial⟩
  exact (duplicates_iff platform32 (fun _ => .dispatchStrings) 0 twoStrings (some 1) 8 hdata).mpr
    (Option.some_ne_none 1)

/-- The copy of a single configuration is not freed. -/
theorem not_duplicates_oneConfigInfo :
    WellFormed platform32 .dispatchGsmBrSmsCnf oneConfigInfo (some 1) 4 ∧
      ¬ Duplicates platform32 (fun _ => .dispatchGsmBrSmsCnf) 0 oneConfigInfo (some 1) 4 := by
  have hdata : WellFormed platform32 .dispatchGsmBrSmsCnf oneConfigInfo (some 1) 4 := by
    refine ⟨[some 0], rfl, rfl, fun q hq => ?_⟩
    obtain rfl : q = 0 := by simpa using hq
    exact ⟨_, rfl, rfl⟩
  refine ⟨hdata, fun hd => ?_⟩
  obtain ⟨p, size, heq, hblock⟩ := (duplicated_iff .dispatchGsmBrSmsCnf hdata).mp hd
  obtain rfl := Option.some.inj heq
  cases hblock

end RequestCopies

end Ril

end SierraSdk
