import SierraSdk.Library.BlockHeap
import SierraSdk.Library.Machine

/-!
# The cache of responses

The cache keeps the responses to some RIL commands in memory of its own: plain data, a string,
or an array of pointers to strings, which may be null. A client hands `swiril_cache_set` a
pointer to its data, and is handed the pointer to the cached data by `swiril_cache_get`.

Memory is a heap of blocks of bytes or of pointers. An access to what is not there makes a step
fail. `w` is the size of a pointer. `valueAt` reads what a pointer given for a command means, and
`lookup` is the value last set for a command in a sequence of sets and clears.
-/

namespace SierraSdk

namespace Ril

open BlockHeap Machine

inductive RilCommand where
  | registrationState
  | gprsRegistrationState
  | signalStrength
  | operator
  | queryNetworkSelectionMode
  | getImsi
  | deviceIdentity
  | getImei
  | getImeisv
  | basebandVersion
  | other (n : ℕ)
  deriving DecidableEq

/-- The commands in the order of the table. -/
def swiril_cache_table : List RilCommand :=
  [.registrationState, .gprsRegistrationState, .signalStrength, .operator,
    .queryNetworkSelectionMode, .getImsi, .deviceIdentity, .getImei, .getImeisv, .basebandVersion]

/-- What a block of memory holds. -/
inductive Block where
  | bytes (content : List UInt8)
  | pointers (content : List (Option ℕ))

structure CacheEntry where
  responsedatap : Option ℕ
  responsesize : ℕ

def noEntry : CacheEntry where
  responsedatap := none
  responsesize := 0

/-- The memory and the entries of the table. -/
structure RilCache where
  heap : Heap Block
  entry : RilCommand → CacheEntry

def cacheStart : RilCache where
  heap := Heap.empty
  entry := fun _ => noEntry

section Memory

/-- Read bytes of a block. -/
def readBytes (heap : Heap Block) (p n : ℕ) : Option (List UInt8) :=
  match heap.block p with
  | some (.bytes content) => if n ≤ content.length then some (content.take n) else none
  | _ => none

/-- The length of the string in a block. -/
def strlen (heap : Heap Block) (p : ℕ) : Option ℕ :=
  match heap.block p with
  | some (.bytes content) =>
      if 0 ∈ content then some (content.takeWhile (· ≠ 0)).length else none
  | _ => none

/-- Read pointers of a block. -/
def readPointers (heap : Heap Block) (p n : ℕ) : Option (List (Option ℕ)) :=
  match heap.block p with
  | some (.pointers content) => if n ≤ content.length then some (content.take n) else none
  | _ => none

/-- Copy the string in a block with the byte that ends it. -/
def copyString (heap : Heap Block) (src : ℕ) : Option (ℕ × Heap Block) :=
  (strlen heap src).bind fun n =>
    (readBytes heap src (n + 1)).map fun content => heap.malloc (.bytes content)

/-- Copy strings, where there are any. -/
def copyStrings (heap : Heap Block) : List (Option ℕ) → Option (List (Option ℕ) × Heap Block)
  | [] => some ([], heap)
  | none :: srcs => (copyStrings heap srcs).map fun r => (none :: r.1, r.2)
  | some src :: srcs =>
      (copyString heap src).bind fun s =>
        (copyStrings s.2 srcs).map fun r => (some s.1 :: r.1, r.2)

end Memory

namespace RilCache

def setEntry (c : RilCache) (heap : Heap Block) (cmd : RilCommand) (e : CacheEntry) : RilCache where
  heap := heap
  entry := Function.update c.entry cmd e

end RilCache

def swiril_cache_findentry (c : RilCache) (cmd : RilCommand) : Option CacheEntry :=
  if cmd ∈ swiril_cache_table then some (c.entry cmd) else none

/-- The pointer to what is cached, and its size. -/
def swiril_cache_get (c : RilCache) (cmd : RilCommand) : Option ℕ × ℕ :=
  match swiril_cache_findentry c cmd with
  | some e => (e.responsedatap, e.responsesize)
  | none => (none, 0)

/-- One block of data is cached in the place of what was cached before. -/
def swiril_cache_singlevalueset (c : RilCache) (cmd : RilCommand) (responsedatap : Option ℕ)
    (responsesize datasize : ℕ) : Option RilCache :=
  (c.heap.freeAll (c.entry cmd).responsedatap.toList).bind fun heap =>
    match responsedatap with
    | none => some (c.setEntry heap cmd noEntry)
    | some p =>
        (readBytes heap p datasize).map fun content =>
          c.setEntry (heap.malloc (.bytes content)).2 cmd
            { responsedatap := some (heap.malloc (.bytes content)).1
              responsesize := responsesize }

/-- The strings of an array that is cached are given back, and then the array. -/
def freeStringArray (w : ℕ) (heap : Heap Block) (e : CacheEntry) : Option (Heap Block) :=
  match e.responsedatap with
  | none => some heap
  | some p =>
      (readPointers heap p (e.responsesize / w)).bind fun strings =>
        heap.freeAll (strings.filterMap id ++ [p])

/-- An array of strings is cached. The array is allocated behind the strings here. -/
def stringArraySet (w : ℕ) (c : RilCache) (cmd : RilCommand) (responsedatap : Option ℕ)
    (responsesize : ℕ) : Option RilCache :=
  (freeStringArray w c.heap (c.entry cmd)).bind fun heap =>
    match responsedatap with
    | none =>
        some (c.setEntry heap cmd
          (if (c.entry cmd).responsedatap.isSome then noEntry else c.entry cmd))
    | some p =>
        (readPointers heap p (responsesize / w)).bind fun srcs =>
          (copyStrings heap srcs).map fun r =>
            c.setEntry (r.2.malloc (.pointers r.1)).2 cmd
              { responsedatap := some (r.2.malloc (.pointers r.1)).1
                responsesize := responsesize }

def swiril_cache_set (w : ℕ) (c : RilCache) (cmd : RilCommand) (responsedatap : Option ℕ)
    (responsesize : ℕ) : Option RilCache :=
  match cmd with
  | .signalStrength | .queryNetworkSelectionMode =>
      swiril_cache_singlevalueset c cmd responsedatap responsesize responsesize
  | .getImsi | .getImei | .getImeisv | .basebandVersion =>
      match responsedatap with
      | none => swiril_cache_singlevalueset c cmd none responsesize 0
      | some p =>
          (strlen c.heap p).bind fun n =>
            swiril_cache_singlevalueset c cmd (some p) responsesize (n + 1)
  | .deviceIdentity | .registrationState | .gprsRegistrationState | .operator =>
      stringArraySet w c cmd responsedatap responsesize
  | .other _ => some c

/-- Clear the entries for some commands. -/
def clearEntries (w : ℕ) (c : RilCache) : List RilCommand → Option RilCache
  | [] => some c
  | cmd :: cmds => (swiril_cache_set w c cmd none 0).bind fun c' => clearEntries w c' cmds

def swiril_cache_clearalldata (w : ℕ) (c : RilCache) : Option RilCache :=
  clearEntries w c swiril_cache_table

/-- The first command of the device group ends the network group. -/
def swiril_cache_clearnetworkdata (w : ℕ) (c : RilCache) : Option RilCache :=
  clearEntries w c (swiril_cache_table.takeWhile (· ≠ .getImsi))

/-- What clients do: they allocate, change and free memory, and call the functions of the
cache. -/
inductive CacheOp where
  | malloc (content : Block)
  | write (p : ℕ) (content : Block)
  | free (p : ℕ)
  | set (cmd : RilCommand) (responsedatap : Option ℕ) (responsesize : ℕ)
  | get (cmd : RilCommand)
  | clearalldata
  | clearnetworkdata

/-- The state after an operation, unless memory is accessed that is not there. -/
def cacheOp (w : ℕ) (c : RilCache) : CacheOp → Option RilCache
  | .malloc content => some { c with heap := (c.heap.malloc content).2 }
  | .write p content => (c.heap.write p content).map fun heap => { c with heap := heap }
  | .free p => (c.heap.free p).map fun heap => { c with heap := heap }
  | .set cmd responsedatap responsesize => swiril_cache_set w c cmd responsedatap responsesize
  | .get _ => some c
  | .clearalldata => swiril_cache_clearalldata w c
  | .clearnetworkdata => swiril_cache_clearnetworkdata w c

/-- The operations as a machine that answers a get. -/
def cacheStep (w : ℕ) (c : Option RilCache) (op : CacheOp) :
    Option RilCache × List (Option ℕ × ℕ) :=
  (c.bind fun c => cacheOp w c op,
    match c, op with
    | some c, .get cmd => [swiril_cache_get c cmd]
    | _, _ => [])

section Values

/-- Data or a string, or strings some of which may be missing. -/
inductive CacheValue where
  | bytes (content : List UInt8)
  | strings (content : List (Option (List UInt8)))
  deriving DecidableEq

/-- The string in a block, without the byte that ends it. -/
def readString (heap : Heap Block) (p : ℕ) : Option (List UInt8) :=
  match heap.block p with
  | some (.bytes content) => if 0 ∈ content then some (content.takeWhile (· ≠ 0)) else none
  | _ => none

def readStrings (heap : Heap Block) : List (Option ℕ) → Option (List (Option (List UInt8)))
  | [] => some []
  | none :: srcs => (readStrings heap srcs).map fun r => none :: r
  | some src :: srcs =>
      (readString heap src).bind fun s => (readStrings heap srcs).map fun r => some s :: r

/-- What a pointer and a size mean for a command. -/
def valueAt (w : ℕ) (heap : Heap Block) (cmd : RilCommand) (p size : ℕ) : Option CacheValue :=
  match cmd with
  | .signalStrength | .queryNetworkSelectionMode => (readBytes heap p size).map .bytes
  | .getImsi | .getImei | .getImeisv | .basebandVersion => (readString heap p).map .bytes
  | .deviceIdentity | .registrationState | .gprsRegistrationState | .operator =>
      (readPointers heap p (size / w)).bind fun srcs => (readStrings heap srcs).map .strings
  | .other _ => none

/-- What the answer to a get means: a value with its size, or a miss. -/
def contents (w : ℕ) (heap : Heap Block) (cmd : RilCommand) (r : Option ℕ × ℕ) :
    Option (CacheValue × ℕ) :=
  r.1.bind fun p => (valueAt w heap cmd p r.2).map fun value => (value, r.2)

/-- What an operation means for the values that are cached. -/
inductive MapOp where
  | set (cmd : RilCommand) (value : CacheValue × ℕ)
  | clear (cmds : List RilCommand)
  | skip

/-- The commands of the network group. -/
def networkGroup : List RilCommand :=
  [.registrationState, .gprsRegistrationState, .signalStrength, .operator,
    .queryNetworkSelectionMode]

/-- A set means the value that the client's pointer has at that time. -/
def CacheOp.meaning (w : ℕ) (c : RilCache) : CacheOp → MapOp
  | .set cmd (some p) size =>
      match valueAt w c.heap cmd p size with
      | some value => .set cmd (value, size)
      | none => .skip
  | .set cmd none _ => .clear [cmd]
  | .clearalldata => .clear swiril_cache_table
  | .clearnetworkdata => .clear networkGroup
  | _ => .skip

/-- The meanings of the operations of a run. -/
def meanings (w : ℕ) : Option RilCache → List CacheOp → List MapOp
  | some c, op :: ops => op.meaning w c :: meanings w (cacheOp w c op) ops
  | _, _ => []

/-- What is cached for a command after an operation. -/
def MapOp.apply (cmd : RilCommand) (value : Option (CacheValue × ℕ)) :
    MapOp → Option (CacheValue × ℕ)
  | .set cmd' value' => if cmd' = cmd then some value' else value
  | .clear cmds => if cmd ∈ cmds then none else value
  | .skip => value

/-- The value last set for a command, since it was last cleared. -/
def lookup (ops : List MapOp) (cmd : RilCommand) : Option (CacheValue × ℕ) :=
  ops.foldl (MapOp.apply cmd) none

end Values

section Ownership

/-- A block, and the blocks that it points to in front of it. -/
def blocksFrom (heap : Heap Block) (p : ℕ) : List ℕ :=
  match heap.block p with
  | some (.pointers content) => content.filterMap id ++ [p]
  | _ => [p]

namespace RilCache

/-- The blocks of the entry for a command. -/
def owned (c : RilCache) (cmd : RilCommand) : List ℕ :=
  match (c.entry cmd).responsedatap with
  | none => []
  | some p => blocksFrom c.heap p

/-- The block is not one of the cache. -/
def Outside (c : RilCache) (p : ℕ) : Prop := ∀ cmd, p ∉ c.owned cmd

end RilCache

/-- Clients change and free memory that is there, and hand over data of their own that has the
form that the command asks for. With `viaGet` they may also write where a get points to, and
hand that over. -/
def ClientMemory (w : ℕ) (viaGet : Bool) (c : Option RilCache) (op : CacheOp) : Prop :=
  ∀ c', c = some c' →
    match op with
    | .write p _ => c'.heap.Live p ∧ (viaGet = true ∨ c'.Outside p)
    | .free p => c'.heap.Live p ∧ c'.Outside p
    | .set cmd (some p) size =>
        cmd ∈ swiril_cache_table →
          (valueAt w c'.heap cmd p size).isSome ∧
            (viaGet = true ∨ ∀ q ∈ blocksFrom c'.heap p, c'.Outside q)
    | _ => True

/-- After a run, what a get points to is the value that was last set. -/
def ReadsLastSet (w : ℕ) (ops : List CacheOp) : Prop :=
  ∃ c, after (cacheStep w) (some cacheStart) ops = some c ∧
    ∀ cmd,
      contents w c.heap cmd (swiril_cache_get c cmd) = lookup (meanings w (some cacheStart) ops) cmd ∧
      ((swiril_cache_get c cmd).1 = none ↔ lookup (meanings w (some cacheStart) ops) cmd = none)

end Ownership

end Ril

end SierraSdk
