import SierraSdk.Qa.Listing

/-!
# Network scans and message lists

A network scan has a list of networks, each with a name, and one of radio access technologies; the
number of entries that a caller has for them is a byte. A list of messages may have more entries than
a byte can number.

A name of 255 characters fills the array for it, and the NUL that ends it is written behind that
array. `unpacksLists_iff` says that such a name, a list of more than 256 messages, and a list that
does not end in its TLV are all that goes wrong.
-/

namespace SierraSdk

namespace Am

/-- `eQCWWAN_ERR_INVALID_ARG` -/
def EQCWWANError.invalidArg : EQCWWANError := 4

end Am

namespace Qa

open Am Memory Qm Reading

section Networks

/-- `MAX_DESCRIPTION_LENGTH` -/
def maxDescriptionLength : ℕ := 255

/-- `QMI_NAS_NETSTATUS_MASK`, and where the parts of a network status begin. -/
def qmiNasNetstatusMask : UInt8 := 0x03
def roamingIndex : UInt8 := 2
def forbiddenIndex : UInt8 := 4
def preferredIndex : UInt8 := 6

/-- `QmiNas3GppNetworkInfo` and `SlqsNas3GppNetworkInfo`. The description is the bytes from its array
on; the array has `maxDescriptionLength` of them. -/
structure NetworkInfo where
  MCC : UInt16
  MNC : UInt16
  InUse : UInt32
  Roaming : UInt32
  Forbidden : UInt32
  Preferred : UInt32
  Description : ℕ → UInt8

def NetworkInfo.setStatus (lNetworkStatus : UInt8) (e : NetworkInfo) : NetworkInfo :=
  { e with
    InUse := (lNetworkStatus &&& qmiNasNetstatusMask).toUInt32
    Roaming := ((lNetworkStatus >>> roamingIndex) &&& qmiNasNetstatusMask).toUInt32
    Forbidden := ((lNetworkStatus >>> forbiddenIndex) &&& qmiNasNetstatusMask).toUInt32
    Preferred := ((lNetworkStatus >>> preferredIndex) &&& qmiNasNetstatusMask).toUInt32 }

/-- The characters that are left of a name, and the NUL behind them. -/
def readName : ℕ → ℕ → Reader QmTBuffer NetworkInfo
  | 0, lDescIdx, tbuf, e =>
      (true, tbuf, { e with Description := Function.update e.Description lDescIdx 0 })
  | n + 1, lDescIdx, tbuf, e =>
      match GetByte tbuf with
      | none => (false, tbuf, e)
      | some (c, tbuf) =>
          readName n (lDescIdx + 1) tbuf
            { e with Description := Function.update e.Description lDescIdx c }

/-- The length of a name, and the name. -/
def readDescription : Reader QmTBuffer NetworkInfo := fun tbuf e =>
  match GetByte tbuf with
  | none => (false, tbuf, e)
  | some (lNtwkDesclen, tbuf) => readName lNtwkDesclen.toNat 0 tbuf e

/-- An entry of the array of networks. -/
def readNetworkInfo : Reader QmTBuffer NetworkInfo :=
  andThen (getInto GetWord fun v e => { e with MCC := v })
    (andThen (getInto GetWord fun v e => { e with MNC := v })
      (andThen (getInto GetByte NetworkInfo.setStatus) readDescription))

/-- A name of a network: its length is a byte. -/
structure NetworkName where
  chars : List UInt8
  short : chars.length < 256

/-- A network of a TLV. -/
structure NetworkRecord where
  mcc : UInt16
  mnc : UInt16
  status : UInt8
  name : NetworkName

def NetworkName.enc (name : NetworkName) : List UInt8 :=
  UInt8.ofNat name.chars.length :: name.chars

def NetworkRecord.enc (r : NetworkRecord) : List UInt8 :=
  piput16 r.mcc ++ (piput16 r.mnc ++ ([r.status] ++ r.name.enc))

def NetworkName.put (name : NetworkName) (e : NetworkInfo) : NetworkInfo :=
  { e with Description := store e.Description 0 (name.chars ++ [0]) }

def NetworkRecord.put (r : NetworkRecord) (e : NetworkInfo) : NetworkInfo :=
  r.name.put (NetworkInfo.setStatus r.status { e with MCC := r.mcc, MNC := r.mnc })

/-- The bytes behind the array of the description are the same. -/
def NetworkInfo.Kept (e e' : NetworkInfo) : Prop :=
  ∀ i, maxDescriptionLength ≤ i → e'.Description i = e.Description i

/-- An entry has what a record says, and its description ends with a NUL inside its array. -/
structure NetworkInfo.Holds (e : NetworkInfo) (r : NetworkRecord) : Prop where
  mcc : e.MCC = r.mcc
  mnc : e.MNC = r.mnc
  status : NetworkInfo.setStatus r.status e = e
  name : load e.Description 0 r.name.chars.length = r.name.chars
  terminated : ∃ i < maxDescriptionLength, e.Description i = 0

/-- What is left of a name is read where it is, and up to where it ends. -/
theorem readName_eq (n k : ℕ) (tbuf : QmTBuffer) (e : NetworkInfo) :
    (n ≤ (left tbuf).length →
      ∃ tbuf', left tbuf' = (left tbuf).drop n ∧ readName n k tbuf e = (true, tbuf',
        { e with Description := store e.Description k ((left tbuf).take n ++ [0]) })) ∧
    ((left tbuf).length < n → ∃ tbuf' e', (∀ i, k + n ≤ i → e'.Description i = e.Description i) ∧
      readName n k tbuf e = (false, tbuf', e')) := by
  induction n generalizing k tbuf e with
  | zero =>
      refine ⟨fun _ => ⟨tbuf, rfl, ?_⟩, fun h => absurd h (Nat.not_lt_zero _)⟩
      rw [readName, List.take_zero, List.nil_append, store_singleton]
  | succ n ih =>
      rcases hleft : left tbuf with _ | ⟨c, cs⟩
      · refine ⟨fun h => absurd h (Nat.not_succ_le_zero n), fun _ => ⟨tbuf, e, fun _ _ => rfl, ?_⟩⟩
        have hmissing : ∀ b rest, left tbuf ≠ [b] ++ rest := by
          intro b rest h
          exact absurd (hleft.symm.trans h) (List.cons_ne_nil b rest).symm
        rw [readName, gets_GetByte.missing tbuf hmissing]
      · obtain ⟨tbuf₁, hrest, hget⟩ := gets_GetByte.got tbuf c cs hleft
        obtain ⟨hthere, hmissing⟩ := ih (k + 1) tbuf₁
          { e with Description := Function.update e.Description k c }
        rw [hrest] at hthere hmissing
        have hread : readName (n + 1) k tbuf e = readName n (k + 1) tbuf₁
            { e with Description := Function.update e.Description k c } := by
          rw [readName, hget]
        rw [hread]
        constructor
        · intro h
          obtain ⟨tbuf', hdrop, heq⟩ := hthere (Nat.le_of_succ_le_succ h)
          refine ⟨tbuf', hdrop, ?_⟩
          have happend := store_append e.Description k [c] (cs.take n ++ [0])
          rw [store_singleton] at happend
          rw [heq]
          exact congrArg (fun d => (true, tbuf', { e with Description := d })) happend
        · intro h
          obtain ⟨tbuf', e', hkept, heq⟩ := hmissing (Nat.lt_of_succ_lt_succ h)
          refine ⟨tbuf', e', fun i hi => ?_, heq⟩
          have hne : i ≠ k := by omega
          rw [hkept i (by omega)]
          exact Function.update_of_ne hne c e.Description

theorem NetworkName.toNat_length (name : NetworkName) :
    (UInt8.ofNat name.chars.length).toNat = name.chars.length := by
  rw [UInt8.toNat_ofNat']
  exact Nat.mod_eq_of_lt name.short

theorem kept_refl (e : NetworkInfo) : e.Kept e := fun _ _ => rfl

/-- A description is read as a name. -/
theorem reads_readDescription :
    Reads left NetworkName.enc NetworkName.put NetworkInfo.Kept readDescription where
  prefixFree := by
    rintro ⟨chars, hshort⟩ ⟨chars', hshort'⟩ xs xs' heq
    obtain ⟨hlength, hrest⟩ := List.cons.inj heq
    have hnat := congrArg UInt8.toNat hlength
    rw [NetworkName.toNat_length ⟨chars, hshort⟩, NetworkName.toNat_length ⟨chars', hshort'⟩] at hnat
    obtain ⟨rfl, hend⟩ := List.append_inj hrest hnat
    exact ⟨rfl, hend⟩
  got tbuf e name rest hleft := by
    obtain ⟨tbuf₁, hleft₁, hget⟩ := gets_GetByte.got tbuf _ (name.chars ++ rest) hleft
    obtain ⟨hthere, -⟩ := readName_eq name.chars.length 0 tbuf₁ e
    rw [hleft₁] at hthere
    obtain ⟨tbuf', hrest, heq⟩ :=
      hthere (by rw [List.length_append]; exact Nat.le_add_right _ _)
    rw [List.drop_left] at hrest
    refine ⟨tbuf', hrest, ?_⟩
    rw [readDescription, hget]
    dsimp only
    rw [name.toNat_length, heq, List.take_left]
    rfl
  missing tbuf e hmissing := by
    rcases there_or_missing (fun b : UInt8 => [b]) (left tbuf) with ⟨b, rest, hleft⟩ | hnone
    · obtain ⟨tbuf₁, hleft₁, hget⟩ := gets_GetByte.got tbuf b rest hleft
      have hshort : rest.length < b.toNat := by
        by_contra hle
        have hle : b.toNat ≤ rest.length := Nat.le_of_not_lt hle
        have hlength : (rest.take b.toNat).length = b.toNat := List.length_take_of_le hle
        have hbyte : (rest.take b.toNat).length < 256 := by
          rw [hlength]
          exact b.toNat_lt
        refine hmissing ⟨rest.take b.toNat, hbyte⟩ (rest.drop b.toNat) ?_
        change left tbuf = UInt8.ofNat (rest.take b.toNat).length ::
          (rest.take b.toNat ++ rest.drop b.toNat)
        rw [hleft, hlength, UInt8.ofNat_toNat, List.take_append_drop]
        rfl
      obtain ⟨-, hstop⟩ := readName_eq b.toNat 0 tbuf₁ e
      rw [hleft₁] at hstop
      obtain ⟨tbuf', e', hkept, heq⟩ := hstop hshort
      refine ⟨tbuf', e', fun i hi => hkept i ?_, by rw [readDescription, hget]; exact heq⟩
      have hbyte : b.toNat < 256 := b.toNat_lt
      rw [maxDescriptionLength] at hi
      omega
    · exact ⟨tbuf, e, kept_refl e, by rw [readDescription, gets_GetByte.missing tbuf hnone]⟩

/-- The parts of a record in a row. -/
def NetworkRecord.parts (r : NetworkRecord) : UInt16 × UInt16 × UInt8 × NetworkName :=
  (r.mcc, r.mnc, r.status, r.name)

theorem reads_readNetworkInfo :
    Reads left NetworkRecord.enc NetworkRecord.put NetworkInfo.Kept readNetworkInfo := by
  have hparts : Function.Injective NetworkRecord.parts := by
    rintro ⟨mcc, mnc, status, name⟩ ⟨mcc', mnc', status', name'⟩ h
    cases h
    rfl
  have hall : Function.Surjective NetworkRecord.parts := fun ⟨mcc, mnc, status, name⟩ =>
    ⟨⟨mcc, mnc, status, name⟩, rfl⟩
  have hstatus := (gets_GetByte.reads NetworkInfo.setStatus kept_refl).andThen
    reads_readDescription fun _ _ _ h => h
  have hmnc := (gets_GetWord.reads (fun v e => { e with MNC := v }) kept_refl).andThen
    hstatus fun _ _ _ h => h
  have hmcc := (gets_GetWord.reads (fun v e => { e with MCC := v }) kept_refl).andThen
    hmnc fun _ _ _ h => h
  exact hmcc.comap hparts hall

/-- A name that is shorter than its array is put inside it, and one that is as long is not. -/
theorem short_name_iff (r : NetworkRecord) :
    r.name.chars.length < maxDescriptionLength ↔ ∀ e : NetworkInfo, e.Kept (r.put e) := by
  have hput : ∀ e : NetworkInfo, (r.put e).Description =
      store e.Description 0 (r.name.chars ++ [0]) := fun _ => rfl
  constructor
  · intro h e i hi
    rw [hput]
    exact store_of_ge (by rw [List.length_append, List.length_singleton]; omega)
  · intro h
    by_contra hlong
    have hlength : r.name.chars.length = maxDescriptionLength := by
      have hshort := r.name.short
      rw [maxDescriptionLength] at hlong ⊢
      omega
    have hbehind := h ⟨0, 0, 0, 0, 0, 0, fun _ => 1⟩ maxDescriptionLength (Nat.le_refl _)
    have hnul : store (fun _ => (1 : UInt8)) 0 (r.name.chars ++ [0]) r.name.chars.length = 0 := by
      have happend := store_append (fun _ => (1 : UInt8)) 0 r.name.chars [0]
      rw [← happend, Nat.zero_add, store_at]
    rw [hput, ← hlength, hnul] at hbehind
    exact absurd (congrArg UInt8.toNat hbehind) Nat.zero_ne_one

theorem holds_put (r : NetworkRecord) (hshort : r.name.chars.length < maxDescriptionLength)
    (e : NetworkInfo) : (r.put e).Holds r where
  mcc := rfl
  mnc := rfl
  status := rfl
  name := by
    have hload := load_store e.Description 0 (r.name.chars ++ [0])
    have htake := take_load (store e.Description 0 (r.name.chars ++ [0])) 0
      (show r.name.chars.length ≤ (r.name.chars ++ [0]).length from by simp)
    rw [hload, List.take_left] at htake
    exact htake.symm
  terminated := by
    refine ⟨r.name.chars.length, hshort, ?_⟩
    change store e.Description 0 (r.name.chars ++ [0]) _ = 0
    rw [← store_append, Nat.zero_add, store_at]

/-- Some entry does not have what a record says. -/
theorem exists_ne_word (v : UInt16) : ∃ w : UInt16, w ≠ v := by
  by_cases h : v = 0
  · exact ⟨1, by rw [h]; decide⟩
  · exact ⟨0, fun heq => h heq.symm⟩

theorem network_not_holds (r : NetworkRecord) : ∃ e : NetworkInfo, ¬ e.Holds r := by
  obtain ⟨w, hw⟩ := exists_ne_word r.mcc
  exact ⟨⟨w, 0, 0, 0, 0, 0, fun _ => 0⟩, fun h => hw h.mcc⟩

/-- The list of networks: the count is a word, and the caller has a byte for it. -/
def networkTlv : ListTlv UInt16 UInt8 NetworkInfo where
  getCount := GetWord
  toNat := UInt16.toNat
  capacity := UInt8.toNat
  store := UInt16.toUInt8
  read := readNetworkInfo

theorem toUInt8_of_le {n : UInt16} {size : UInt8} (h : n.toNat ≤ size.toNat) :
    n.toUInt8.toNat = n.toNat := by
  rw [UInt16.toNat_toUInt8]
  exact Nat.mod_eq_of_lt (Nat.lt_of_le_of_lt h size.toNat_lt)

def networkLayout : ListLayout networkTlv NetworkRecord where
  countEnc := piput16
  enc := NetworkRecord.enc
  put := NetworkRecord.put
  kept := NetworkInfo.Kept
  Holds := NetworkInfo.Holds
  short r := r.name.chars.length < maxDescriptionLength
  gets := gets_GetWord
  reads := reads_readNetworkInfo
  capacity_store _ _ h := toUInt8_of_le h
  kept_refl := kept_refl
  kept_trans _ _ _ h h' i hi := (h' i hi).trans (h i hi)
  short_iff := short_name_iff
  holds_put := holds_put
  exists_not_holds := network_not_holds
  few := .inl fun size => Nat.le_of_lt size.toNat_lt

end Networks

section Technologies

/-- `SlqsNas3GppNetworkRAT`, an entry and a record of a TLV. -/
structure SlqsNas3GppNetworkRAT where
  MCC : UInt16
  MNC : UInt16
  RAT : UInt8

/-- An entry of the array of radio access technologies. -/
def readNetworkRAT : Reader QmTBuffer SlqsNas3GppNetworkRAT :=
  andThen (getInto GetWord fun v e => { e with MCC := v })
    (andThen (getInto GetWord fun v e => { e with MNC := v })
      (getInto GetByte fun v e => { e with RAT := v }))

def SlqsNas3GppNetworkRAT.enc (r : SlqsNas3GppNetworkRAT) : List UInt8 :=
  piput16 r.MCC ++ (piput16 r.MNC ++ [r.RAT])

def SlqsNas3GppNetworkRAT.parts (r : SlqsNas3GppNetworkRAT) : UInt16 × UInt16 × UInt8 :=
  (r.MCC, r.MNC, r.RAT)

theorem reads_readNetworkRAT :
    Reads left SlqsNas3GppNetworkRAT.enc (fun r _ => r) (fun _ _ => True) readNetworkRAT := by
  have hparts : Function.Injective SlqsNas3GppNetworkRAT.parts := by
    rintro ⟨mcc, mnc, rat⟩ ⟨mcc', mnc', rat'⟩ h
    cases h
    rfl
  have hall : Function.Surjective SlqsNas3GppNetworkRAT.parts := fun ⟨mcc, mnc, rat⟩ =>
    ⟨⟨mcc, mnc, rat⟩, rfl⟩
  have hrat : Reads left (fun b : UInt8 => [b])
      (fun v (e : SlqsNas3GppNetworkRAT) => { e with RAT := v }) (fun _ _ => True) _ :=
    gets_GetByte.reads _ fun _ => trivial
  have hmnc := (gets_GetWord.reads (fun v (e : SlqsNas3GppNetworkRAT) => { e with MNC := v })
    fun _ => trivial).andThen hrat fun _ _ _ h => h
  have hmcc := (gets_GetWord.reads (fun v (e : SlqsNas3GppNetworkRAT) => { e with MCC := v })
    fun _ => trivial).andThen hmnc fun _ _ _ h => h
  exact hmcc.comap hparts hall

/-- The list of radio access technologies: the count is a word, and the caller has a byte for it. -/
def technologyTlv : ListTlv UInt16 UInt8 SlqsNas3GppNetworkRAT where
  getCount := GetWord
  toNat := UInt16.toNat
  capacity := UInt8.toNat
  store := UInt16.toUInt8
  read := readNetworkRAT

def technologyLayout : ListLayout technologyTlv SlqsNas3GppNetworkRAT where
  countEnc := piput16
  enc := SlqsNas3GppNetworkRAT.enc
  put r _ := r
  kept _ _ := True
  Holds e r := e = r
  short _ := True
  gets := gets_GetWord
  reads := reads_readNetworkRAT
  capacity_store _ _ h := toUInt8_of_le h
  kept_refl _ := trivial
  kept_trans _ _ _ _ _ := trivial
  short_iff _ := ⟨fun _ _ => trivial, fun _ => trivial⟩
  holds_put _ _ _ := rfl
  exists_not_holds r := by
    obtain ⟨w, hw⟩ := exists_ne_word r.MCC
    exact ⟨⟨w, 0, 0⟩, fun h => hw (congrArg SlqsNas3GppNetworkRAT.MCC h)⟩
  few := .inr fun _ => trivial

end Technologies

section Messages

/-- An entry of the array of messages. -/
structure QmiSmsMessageList where
  messageIndex : UInt32
  messageTag : UInt32

/-- A message of a TLV, whose tag is a byte. -/
structure MessageRecord where
  messageIndex : UInt32
  lByte : UInt8

def readMessage : Reader QmTBuffer QmiSmsMessageList :=
  andThen (getInto GetLong fun v e => { e with messageIndex := v })
    (getInto GetByte fun v e => { e with messageTag := v.toUInt32 })

def MessageRecord.enc (r : MessageRecord) : List UInt8 := piput32 r.messageIndex ++ [r.lByte]

def MessageRecord.entry (r : MessageRecord) : QmiSmsMessageList :=
  ⟨r.messageIndex, r.lByte.toUInt32⟩

def MessageRecord.parts (r : MessageRecord) : UInt32 × UInt8 := (r.messageIndex, r.lByte)

theorem reads_readMessage :
    Reads left MessageRecord.enc (fun r _ => r.entry) (fun _ _ => True) readMessage := by
  have hparts : Function.Injective MessageRecord.parts := by
    rintro ⟨index, tag⟩ ⟨index', tag'⟩ h
    cases h
    rfl
  have hall : Function.Surjective MessageRecord.parts := fun ⟨index, tag⟩ => ⟨⟨index, tag⟩, rfl⟩
  have htag : Reads left (fun b : UInt8 => [b])
      (fun v (e : QmiSmsMessageList) => { e with messageTag := v.toUInt32 }) (fun _ _ => True) _ :=
    gets_GetByte.reads _ fun _ => trivial
  have hindex := (gets_GetLong.reads
    (fun v (e : QmiSmsMessageList) => { e with messageIndex := v })
    fun _ => trivial).andThen htag fun _ _ _ h => h
  have hpairs := hindex.comap hparts hall
  unfold MessageRecord.enc
  exact hpairs

/-- The list of messages: the count has 32 bits, at the caller as well. -/
def messageTlv : ListTlv UInt32 UInt32 QmiSmsMessageList where
  getCount := GetLong
  toNat := UInt32.toNat
  capacity := UInt32.toNat
  store := id
  read := readMessage

def messageLayout : ListLayout messageTlv MessageRecord where
  countEnc := piput32
  enc := MessageRecord.enc
  put r _ := r.entry
  kept _ _ := True
  Holds e r := e = r.entry
  short _ := True
  gets := gets_GetLong
  reads := reads_readMessage
  capacity_store _ _ _ := rfl
  kept_refl _ := trivial
  kept_trans _ _ _ _ _ := trivial
  short_iff _ := ⟨fun _ _ => trivial, fun _ => trivial⟩
  holds_put _ _ _ := rfl
  exists_not_holds r := by
    by_cases h : r.messageIndex = 0
    · exact ⟨⟨1, 0⟩, fun heq => by
        have hindex := congrArg QmiSmsMessageList.messageIndex heq
        exact absurd (hindex.trans h) (by decide)⟩
    · exact ⟨⟨0, 0⟩, fun heq => h (congrArg QmiSmsMessageList.messageIndex heq).symm⟩
  few := .inr fun _ => trivial

end Messages

section Unpackers

/-- What the caller gives for a scan; a pointer may be missing. -/
structure QmiNasPerformNetworkScanResp where
  pInstanceSize : Option UInt8
  pInstances : Option (ℕ → NetworkInfo)

/-- `slqsNetworkScanInfo` -/
structure SlqsNetworkScanInfo where
  pNetworkInfoInstances : Option UInt8
  pNetworkInfo : Option (ℕ → NetworkInfo)
  pRATInstances : Option UInt8
  pRATInfo : Option (ℕ → SlqsNas3GppNetworkRAT)

structure QmiSmsListMessagesResp where
  pMessageListSize : Option UInt32
  pMessageList : Option (ℕ → QmiSmsMessageList)

/-- `NO_NW_INSTANCE` -/
def noNwInstance : UInt8 := 0

def UnpackTlv3GppNetworkInformation (tbuf : QmTBuffer) (lResp : QmiNasPerformNetworkScanResp) :
    EQCWWANError × QmTBuffer × QmiNasPerformNetworkScanResp :=
  match lResp.pInstanceSize, lResp.pInstances with
  | some size, some instances =>
      let r := networkTlv.unpack tbuf size instances
      (r.1, r.2.1, ⟨some r.2.2.1, some r.2.2.2⟩)
  | _, _ => (EQCWWANError.none, tbuf, lResp)

/-- A list without networks sets the number of technologies to zero as well. -/
def UnpackTlv3GppNetworkInfo (tbuf : QmTBuffer) (lResp : SlqsNetworkScanInfo) :
    EQCWWANError × QmTBuffer × SlqsNetworkScanInfo :=
  match lResp.pNetworkInfoInstances, lResp.pNetworkInfo with
  | some size, some instances =>
      let r := networkTlv.unpack tbuf size instances
      let pRATInstances :=
        if r.1 = EQCWWANError.none ∧ r.2.2.1 = noNwInstance then
          lResp.pRATInstances.map fun _ => noNwInstance
        else lResp.pRATInstances
      (r.1, r.2.1, ⟨some r.2.2.1, some r.2.2.2, pRATInstances, lResp.pRATInfo⟩)
  | _, _ => (EQCWWANError.invalidArg, tbuf, lResp)

def UnpackTlv3GppNetworkRATInfo (tbuf : QmTBuffer) (lResp : SlqsNetworkScanInfo) :
    EQCWWANError × QmTBuffer × SlqsNetworkScanInfo :=
  match lResp.pRATInstances, lResp.pRATInfo with
  | some size, some instances =>
      let r := technologyTlv.unpack tbuf size instances
      (r.1, r.2.1, { lResp with pRATInstances := some r.2.2.1, pRATInfo := some r.2.2.2 })
  | _, _ => (EQCWWANError.none, tbuf, lResp)

def UnpackTlvMessagesList (tbuf : QmTBuffer) (lResp : QmiSmsListMessagesResp) :
    EQCWWANError × QmTBuffer × QmiSmsListMessagesResp :=
  match lResp.pMessageListSize, lResp.pMessageList with
  | some size, some messages =>
      let r := messageTlv.unpack tbuf size messages
      (r.1, r.2.1, ⟨some r.2.2.1, some r.2.2.2⟩)
  | _, _ => (EQCWWANError.none, tbuf, lResp)

/-- What the caller gives, made of the number of entries, the entries and the rest. -/
def scanResp (_ : Unit) (size : UInt8) (instances : ℕ → NetworkInfo) :
    QmiNasPerformNetworkScanResp := ⟨some size, some instances⟩
def networkResp (rat : Option UInt8 × Option (ℕ → SlqsNas3GppNetworkRAT)) (size : UInt8)
    (instances : ℕ → NetworkInfo) : SlqsNetworkScanInfo := ⟨some size, some instances, rat.1, rat.2⟩
def technologyResp (network : Option UInt8 × Option (ℕ → NetworkInfo)) (size : UInt8)
    (instances : ℕ → SlqsNas3GppNetworkRAT) : SlqsNetworkScanInfo :=
  ⟨network.1, network.2, some size, some instances⟩
def messagesResp (_ : Unit) (size : UInt32) (messages : ℕ → QmiSmsMessageList) :
    QmiSmsListMessagesResp := ⟨some size, some messages⟩

instance : Nonempty NetworkInfo := ⟨⟨0, 0, 0, 0, 0, 0, fun _ => 0⟩⟩

instance : Nonempty SlqsNas3GppNetworkRAT := ⟨⟨0, 0, 0⟩⟩

instance : Nonempty QmiSmsMessageList := ⟨⟨0, 0⟩⟩

variable (tbuf : QmTBuffer) (tlvLen : ℕ)

theorem unpacksScan_iff (size : UInt8) :
    UnpacksList networkLayout ((left tbuf).take tlvLen) size scanResp
      (UnpackTlv3GppNetworkInformation tbuf) ↔ ListFits networkLayout tbuf tlvLen size := by
  refine unpacksList_iff networkLayout tbuf tlvLen size (fun _ s a _ s' a' h => ?_)
    fun t entries => ⟨t, rfl, fun _ => rfl⟩
  cases h
  exact ⟨rfl, rfl⟩

theorem unpacksNetworks_iff (size : UInt8) :
    UnpacksList networkLayout ((left tbuf).take tlvLen) size networkResp
      (UnpackTlv3GppNetworkInfo tbuf) ↔ ListFits networkLayout tbuf tlvLen size := by
  refine unpacksList_iff networkLayout tbuf tlvLen size (fun t s a t' s' a' h => ?_)
    fun t entries => ⟨(_, t.2), rfl, fun hcode => ?_⟩
  · obtain ⟨hsize, hentries, -⟩ := SlqsNetworkScanInfo.mk.inj h
    exact ⟨Option.some.inj hsize, Option.some.inj hentries⟩
  · exact Prod.ext (if_neg fun h => hcode h.1) rfl

theorem unpacksTechnologies_iff (size : UInt8) :
    UnpacksList technologyLayout ((left tbuf).take tlvLen) size technologyResp
      (UnpackTlv3GppNetworkRATInfo tbuf) ↔ ListFits technologyLayout tbuf tlvLen size := by
  refine unpacksList_iff technologyLayout tbuf tlvLen size (fun t s a t' s' a' h => ?_)
    fun t entries => ⟨t, rfl, fun _ => rfl⟩
  obtain ⟨-, -, hsize, hentries⟩ := SlqsNetworkScanInfo.mk.inj h
  exact ⟨Option.some.inj hsize, Option.some.inj hentries⟩

theorem unpacksMessages_iff (size : UInt32) :
    UnpacksList messageLayout ((left tbuf).take tlvLen) size messagesResp
      (UnpackTlvMessagesList tbuf) ↔ ListFits messageLayout tbuf tlvLen size := by
  refine unpacksList_iff messageLayout tbuf tlvLen size (fun _ s a _ s' a' h => ?_)
    fun t entries => ⟨t, rfl, fun _ => rfl⟩
  cases h
  exact ⟨rfl, rfl⟩

/-- Each of the four lists is unpacked as it is to be exactly when it fits. -/
theorem unpacksLists_iff (size : UInt8) (listSize : UInt32) :
    (UnpacksList networkLayout ((left tbuf).take tlvLen) size scanResp
        (UnpackTlv3GppNetworkInformation tbuf) ↔ ListFits networkLayout tbuf tlvLen size) ∧
      (UnpacksList networkLayout ((left tbuf).take tlvLen) size networkResp
        (UnpackTlv3GppNetworkInfo tbuf) ↔ ListFits networkLayout tbuf tlvLen size) ∧
      (UnpacksList technologyLayout ((left tbuf).take tlvLen) size technologyResp
        (UnpackTlv3GppNetworkRATInfo tbuf) ↔ ListFits technologyLayout tbuf tlvLen size) ∧
      (UnpacksList messageLayout ((left tbuf).take tlvLen) listSize messagesResp
        (UnpackTlvMessagesList tbuf) ↔ ListFits messageLayout tbuf tlvLen listSize) :=
  ⟨unpacksScan_iff tbuf tlvLen size, unpacksNetworks_iff tbuf tlvLen size,
    unpacksTechnologies_iff tbuf tlvLen size, unpacksMessages_iff tbuf tlvLen listSize⟩

/-- A message that holds some bytes, with the cursor at the first of them. -/
def messageOf (bytes : List UInt8) : QmTBuffer := window (ofList 0 bytes) bytes.length 0

theorem left_messageOf (bytes : List UInt8) : left (messageOf bytes) = bytes := by
  have hload := load_ofList (0 : UInt8) [] bytes []
  rw [List.append_nil] at hload
  exact hload

/-- A network with a name of 255 characters. -/
def longName : NetworkRecord :=
  ⟨310, 410, 0, List.replicate 255 65, Nat.lt_succ_of_le (Nat.le_of_eq List.length_replicate)⟩

def longNameBytes : List UInt8 := piput16 1 ++ ([longName].flatMap NetworkRecord.enc ++ [])

/-- 257 messages. -/
def manyMessages : List MessageRecord := List.replicate 257 ⟨0, 0⟩

def manyMessagesBytes : List UInt8 :=
  piput32 257 ++ (manyMessages.flatMap MessageRecord.enc ++ [])

/-- One technology, which lies behind a TLV of two bytes. -/
def technologyBytes : List UInt8 :=
  piput16 1 ++ ([(⟨310, 410, 4⟩ : SlqsNas3GppNetworkRAT)].flatMap SlqsNas3GppNetworkRAT.enc ++ [])

/-- A name fills its array, there are more messages than a byte can number, or a list does not end in
its TLV. -/
theorem not_unpacksLists :
    ¬ UnpacksList networkLayout ((left (messageOf longNameBytes)).take 263) 1 scanResp
        (UnpackTlv3GppNetworkInformation (messageOf longNameBytes)) ∧
      ¬ UnpacksList messageLayout ((left (messageOf manyMessagesBytes)).take 1289) 300 messagesResp
        (UnpackTlvMessagesList (messageOf manyMessagesBytes)) ∧
      ¬ UnpacksList technologyLayout ((left (messageOf technologyBytes)).take 2) 1 technologyResp
        (UnpackTlv3GppNetworkRATInfo (messageOf technologyBytes)) := by
  rw [unpacksScan_iff, unpacksMessages_iff, unpacksTechnologies_iff]
  refine ⟨fun h => ?_, fun h => ?_, fun h => ?_⟩
  · obtain ⟨hshort, -⟩ := h 1 [longName] [] (left_messageOf _) (Nat.le_refl 1) (Nat.le_refl 1)
    have hlong : (List.replicate 255 (65 : UInt8)).length < 255 :=
      hshort longName (List.mem_singleton_self _)
    rw [List.length_replicate] at hlong
    exact Nat.lt_irrefl 255 hlong
  · have hlength : manyMessages.length = 257 := List.length_replicate
    obtain ⟨-, hall⟩ := h 257 manyMessages [] (left_messageOf _) (Nat.le_of_eq hlength)
      (Nat.le_of_ble_eq_true rfl)
    have hfew := (hall hlength).1
    rw [hlength] at hfew
    exact absurd hfew (by decide)
  · obtain ⟨-, hall⟩ := h 1 [⟨310, 410, 4⟩] [] (left_messageOf _) (Nat.le_refl 1) (Nat.le_refl 1)
    exact absurd (hall rfl).2 (by decide)

end Unpackers

end Qa

end SierraSdk
