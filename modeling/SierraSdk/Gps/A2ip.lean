import Mathlib.Data.List.Forall2
import Mathlib.Tactic.Ring
import SierraSdk.Gps.Decimal

/-!
# An IP address from its text

`swigps_a2ip` scans a string for the groups of digits between its dots, and makes an address of
their numbers. The two arrays of the scan hold the start of a group and, when it has ended, its
size. A group can be empty, which the function's comment does not allow.
-/

namespace SierraSdk

namespace Gps

section Code

/-- `MAXIPDOTS` -/
def maxIpDots : ℕ := 3

/-- `MAXOCTETSIZE` -/
def maxOctetSize : ℕ := 3

/-- `SWIGPS_LE` -/
def swigpsLe : ℤ := 0

/-- `SWIGPS_BE` -/
def swigpsBe : ℤ := 1

/-- The variables of the scan. The offset of a group stands for the pointer to it. -/
structure Scan where
  i : ℕ
  dotcount : ℕ
  index : ℕ
  octetsize : ℕ → ℕ
  octet : ℕ → ℕ
  ipvalid : Bool

def Scan.init : Scan where
  i := 0
  dotcount := 0
  index := 0
  octetsize := fun _ => 0
  octet := fun _ => 0
  ipvalid := true

/-- A dot ends a group, and the next one begins behind it. -/
def Scan.dot (s : Scan) : Scan :=
  { s with
    i := s.i + 1
    dotcount := s.dotcount + 1
    index := s.index + 1
    octetsize := Function.update (Function.update s.octetsize s.index
      (s.i - s.octetsize s.index)) (s.index + 1) (s.i + 1)
    octet := Function.update s.octet (s.index + 1) (s.i + 1) }

/-- The loop of the scan. -/
def scanFrom : List UInt8 → Scan → Scan
  | [], s => s
  | c :: cs, s =>
      if isDigit c || c = 46 then
        if c = 46 then
          if maxIpDots < s.dotcount + 1 then
            { s with dotcount := s.dotcount + 1, ipvalid := false }
          else scanFrom cs s.dot
        else scanFrom cs { s with i := s.i + 1 }
      else { s with ipvalid := false }

/-- The last group ends where the scan does. -/
def Scan.finish (s : Scan) : Scan :=
  { s with octetsize := Function.update s.octetsize s.index (s.i - s.octetsize s.index) }

/-- What the scan sees: the length of the string is kept in an `int`. -/
def scanned (stringp : List UInt8) : List UInt8 := stringp.take (wrap stringp.length).toNat

/-- The number of a group with its multiplier, from the last digit on. -/
def octetDigit (cs : List UInt8) : ℤ × ℤ :=
  cs.foldr (fun c acc => (acc.1 + (c.toNat - 48) * acc.2, acc.2 * 10)) (0, 1)

/-- The loop over the groups that adds up both addresses, in unsigned integers. -/
def octetsFrom (stringp : List UInt8) (s : Scan) : List ℕ → ℤ × ℤ → Option (ℤ × ℤ)
  | [], ipaddr => some ipaddr
  | index :: rest, ipaddr =>
      if maxOctetSize < s.octetsize index then none
      else
        let digit := (octetDigit ((stringp.drop (s.octet index)).take (s.octetsize index))).1
        if 255 < digit then none
        else
          octetsFrom stringp s rest
            ((ipaddr.1 + digit <<< (8 * index)) % 2 ^ 32,
              (ipaddr.2 + digit <<< (24 - 8 * index)) % 2 ^ 32)

/-- `swigps_a2ip`, with its result and what it leaves in the output. -/
def swigpsA2ip (endianness : ℤ) (stringp : Option (List UInt8)) (ipaddrp : ℤ) : ℤ × ℤ :=
  match stringp with
  | none => (-1, ipaddrp)
  | some stringp =>
      let s := (scanFrom (scanned stringp) Scan.init).finish
      if s.ipvalid && s.dotcount = maxIpDots then
        match octetsFrom stringp s [0, 1, 2, 3] (0, 0) with
        | none => (-1, ipaddrp)
        | some ipaddr =>
            if endianness = swigpsLe then (0, ipaddr.2)
            else if endianness = swigpsBe then (0, ipaddr.1)
            else (0, ipaddrp)
      else (-1, ipaddrp)

end Code

section Quads

/-- The orders that an address can be asked for. -/
inductive ByteOrder
  | littleEndian
  | bigEndian
  deriving DecidableEq

def ByteOrder.endianness : ByteOrder → ℤ
  | .littleEndian => swigpsLe
  | .bigEndian => swigpsBe

/-- The number whose bytes are the octets, the lowest one first in big endian order: this is their
order in the memory of the host. -/
def ByteOrder.address (order : ByteOrder) (octets : List ℕ) : ℕ :=
  let bytes := match order with
    | .littleEndian => octets.reverse
    | .bigEndian => octets
  bytes.foldr (fun octet rest => octet + 256 * rest) 0

/-- A group of one to three digits is an octet. -/
def GivesOctet (group : List UInt8) (octet : ℕ) : Prop :=
  group.length ≤ 3 ∧ decimal group = some octet ∧ octet ≤ 255

/-- A dotted quad with its octets. -/
def GivesQuad (stringp : List UInt8) (octets : List ℕ) : Prop :=
  ∃ groups, groups.length = 4 ∧ stringp = List.intercalate [46] groups ∧
    List.Forall₂ GivesOctet groups octets

/-- The address is taken exactly from the dotted quads, and the output is left alone otherwise. -/
structure Converts (order : ByteOrder) (stringp : List UInt8) (ipaddrp : ℤ) : Prop where
  accepted_iff : (swigpsA2ip order.endianness (some stringp) ipaddrp).1 = 0 ↔
    ∃ octets, GivesQuad stringp octets
  written : (swigpsA2ip order.endianness (some stringp) ipaddrp).1 = 0 →
    ∃ octets, GivesQuad stringp octets ∧
      (swigpsA2ip order.endianness (some stringp) ipaddrp).2 = order.address octets
  rejected : (swigpsA2ip order.endianness (some stringp) ipaddrp).1 ≠ 0 →
    swigpsA2ip order.endianness (some stringp) ipaddrp = (-1, ipaddrp)

/-- A group that is an octet or empty. -/
def LooseOctet (group : List UInt8) : Prop := group = [] ∨ ∃ octet, GivesOctet group octet

/-- The groups of four that the scan sees are not empty and are the whole string. -/
def ExactQuad (stringp : List UInt8) : Prop :=
  ∀ groups, groups.length = 4 → (∀ group ∈ groups, LooseOctet group) →
    scanned stringp = List.intercalate [46] groups → [] ∉ groups ∧ stringp.length < 2 ^ 31

end Quads

section Scan

variable {s : Scan}

theorem Scan.ipvalid_finish (s : Scan) : s.finish.ipvalid = s.ipvalid := rfl

theorem Scan.dotcount_finish (s : Scan) : s.finish.dotcount = s.dotcount := rfl

theorem digit_ne_dot {c : UInt8} (h : isDigit c) : c ≠ 46 := by
  rintro rfl
  exact absurd h (by decide)

/-- Digits are passed over. -/
def Scan.pass (s : Scan) (count : ℕ) : Scan := { s with i := s.i + count }

theorem scanFrom_digits {group : List UInt8} (h : group.all isDigit) (rest : List UInt8)
    (s : Scan) : scanFrom (group ++ rest) s = scanFrom rest (s.pass group.length) := by
  induction group generalizing s with
  | nil => rfl
  | cons c cs ih =>
      obtain ⟨hc, hcs⟩ := (Bool.and_eq_true _ _).mp (List.all_cons ▸ h)
      rw [List.cons_append, scanFrom, if_pos (by rw [hc]; rfl), if_neg (digit_ne_dot hc), ih hcs,
        List.length_cons, Scan.pass, Scan.pass]
      dsimp only
      rw [Nat.add_assoc, Nat.add_comm 1]

/-- A group is passed over together with the dot behind it. -/
theorem scanFrom_group {group : List UInt8} (h : group.all isDigit) (hcount : s.dotcount < 3)
    (rest : List UInt8) :
    scanFrom (group ++ 46 :: rest) s = scanFrom rest (s.pass group.length).dot := by
  have hdot : (isDigit 46 || decide ((46 : UInt8) = 46)) = true := by decide
  have hfew : ¬maxIpDots < (s.pass group.length).dotcount + 1 := Nat.not_lt.mpr hcount
  rw [scanFrom_digits h, scanFrom, if_pos hdot, if_pos rfl, if_neg hfew]

/-- What a scan finds valid are groups of digits with dots between them. -/
theorem groups_of_scanFrom {cs : List UInt8} (h : (scanFrom cs s).ipvalid = true) :
    ∃ group groups, cs = List.intercalate [46] (group :: groups) ∧
      (∀ g ∈ group :: groups, g.all isDigit) ∧
      (scanFrom cs s).dotcount = s.dotcount + groups.length := by
  induction cs generalizing s with
  | nil => exact ⟨[], [], rfl, by simp, rfl⟩
  | cons c cs ih =>
      rw [scanFrom] at h ⊢
      split_ifs at h with hc hdot hmany
      · obtain ⟨group, groups, hcs, hdigits, hcount⟩ := ih h
        rw [if_pos hc, if_pos hdot, if_neg hmany]
        refine ⟨[], group :: groups, ?_, ?_, ?_⟩
        · rw [hcs, hdot]; rfl
        · exact List.forall_mem_cons.mpr ⟨rfl, hdigits⟩
        · have hnext : s.dot.dotcount = s.dotcount + 1 := rfl
          rw [hcount, List.length_cons, hnext]
          omega
      · obtain ⟨group, groups, hcs, hdigits, hcount⟩ := ih h
        rw [if_pos hc, if_neg hdot]
        refine ⟨c :: group, groups, ?_, ?_, hcount⟩
        · rw [hcs]
          cases groups <;> rfl
        · obtain ⟨hgroup, hgroups⟩ := List.forall_mem_cons.mp hdigits
          have hdigit : isDigit c := by simpa [hdot] using hc
          exact List.forall_mem_cons.mpr ⟨by rw [List.all_cons, hdigit, hgroup]; rfl, hgroups⟩

/-- The scan of four groups records where they start and how long they are. -/
theorem finish_scanFrom {a b c d : List UInt8} (ha : a.all isDigit) (hb : b.all isDigit)
    (hc : c.all isDigit) (hd : d.all isDigit) :
    let s := (scanFrom (a ++ 46 :: (b ++ 46 :: (c ++ 46 :: d))) Scan.init).finish
    s.ipvalid = true ∧ s.dotcount = 3 ∧
      (s.octetsize 0 = a.length ∧ s.octetsize 1 = b.length ∧ s.octetsize 2 = c.length ∧
        s.octetsize 3 = d.length) ∧
      (s.octet 0 = 0 ∧ s.octet 1 = a.length + 1 ∧ s.octet 2 = a.length + 1 + (b.length + 1) ∧
        s.octet 3 = a.length + 1 + (b.length + 1) + (c.length + 1)) := by
  have hlast := scanFrom_digits hd []
  rw [List.append_nil] at hlast
  rw [scanFrom_group ha (by decide : 0 < 3), scanFrom_group hb (by decide : 1 < 3),
    scanFrom_group hc (by decide : 2 < 3), hlast, scanFrom]
  refine ⟨rfl, rfl, ⟨?_, ?_, ?_, ?_⟩, ?_, ?_, ?_, ?_⟩ <;>
    simp [Scan.finish, Scan.dot, Scan.pass, Scan.init, Function.update] <;> omega

end Scan

section Octets

theorem octetDigit_eq {group : List UInt8} (h : group.all isDigit) :
    (octetDigit group).2 = 10 ^ group.length ∧ ∀ n : ℕ,
      ((group.foldl (fun n c => n * 10 + (c.toNat - 48)) n : ℕ) : ℤ) =
        n * 10 ^ group.length + (octetDigit group).1 := by
  induction group with
  | nil => exact ⟨rfl, fun n => by simp [octetDigit]⟩
  | cons c cs ih =>
      obtain ⟨hc, hcs⟩ := (Bool.and_eq_true _ _).mp (List.all_cons ▸ h)
      obtain ⟨hpow, hfold⟩ := ih hcs
      have hlow := (isDigit_toNat hc).1
      have hone : (octetDigit (c :: cs)).1 =
          (octetDigit cs).1 + (c.toNat - 48) * (octetDigit cs).2 := rfl
      have htwo : (octetDigit (c :: cs)).2 = (octetDigit cs).2 * 10 := rfl
      refine ⟨by rw [htwo, hpow, List.length_cons, pow_succ], fun n => ?_⟩
      have hcast : ((n * 10 + (c.toNat - 48) : ℕ) : ℤ) = (n : ℤ) * 10 + (c.toNat - 48) := by omega
      rw [List.foldl_cons, hfold, hone, hpow, hcast, List.length_cons, pow_succ]
      ring

/-- The number of a group is the one that its digits stand for. -/
theorem octetDigit_of_decimal {group : List UInt8} {n : ℕ} (h : decimal group = some n) :
    (octetDigit group).1 = n := by
  rw [decimal] at h
  split_ifs at h with hd
  obtain rfl := Option.some.inj h
  have hfold := (octetDigit_eq hd.2).2 0
  rw [hfold]
  simp

/-- A group of digits passes the checks if and only if it is an octet or empty. -/
theorem looseOctet_iff {group : List UInt8} (h : group.all isDigit) :
    LooseOctet group ↔ group.length ≤ 3 ∧ (octetDigit group).1 ≤ 255 := by
  by_cases hempty : group = []
  · subst hempty
    exact iff_of_true (.inl rfl) (by decide)
  · have hnumber := decimal_of_digits hempty h
    rw [octetDigit_of_decimal hnumber]
    constructor
    · rintro (hnil | ⟨octet, hlen, hoctet, hle⟩)
      · exact absurd hnil hempty
      · rw [Option.some.inj (hnumber.symm.trans hoctet)]
        exact ⟨hlen, by omega⟩
    · rintro ⟨hlen, hle⟩
      exact .inr ⟨_, hlen, hnumber, by omega⟩

theorem octetDigit_nonneg {group : List UInt8} (h : group.all isDigit) :
    0 ≤ (octetDigit group).1 := by
  have hfold := (octetDigit_eq h).2 0
  simp only [Nat.cast_zero, zero_mul, zero_add] at hfold
  rw [← hfold]
  exact Int.natCast_nonneg _

/-- One round of the loop over the groups. -/
theorem octetsFrom_cons_iff {stringp group : List UInt8} {s : Scan} {index : ℕ} {rest : List ℕ}
    {ipaddr result : ℤ × ℤ} (hsize : s.octetsize index = group.length)
    (hgroup : (stringp.drop (s.octet index)).take group.length = group) (h : group.all isDigit) :
    octetsFrom stringp s (index :: rest) ipaddr = some result ↔
      LooseOctet group ∧
        octetsFrom stringp s rest
          ((ipaddr.1 + (octetDigit group).1 <<< (8 * index)) % 2 ^ 32,
            (ipaddr.2 + (octetDigit group).1 <<< (24 - 8 * index)) % 2 ^ 32) = some result := by
  rw [octetsFrom, hsize, hgroup, looseOctet_iff h]
  by_cases hlen : maxOctetSize < group.length
  · rw [if_pos hlen]
    exact iff_of_false (by simp) fun hboth => absurd hboth.1.1 (Nat.not_le.mpr hlen)
  · rw [if_neg hlen]
    dsimp only
    by_cases hle : 255 < (octetDigit group).1
    · rw [if_pos hle]
      exact iff_of_false (by simp) fun hboth => absurd hboth.1.2 (Int.not_le.mpr hle)
    · rw [if_neg hle, and_iff_right ⟨Nat.not_lt.mp hlen, Int.not_lt.mp hle⟩]

end Octets

section Results

variable {stringp : List UInt8}

/-- The groups of a valid scan are converted if they are octets or empty. -/
theorem octetsFrom_scan_iff {a b c d : List UInt8} (ha : a.all isDigit) (hb : b.all isDigit)
    (hc : c.all isDigit) (hd : d.all isDigit) (tail : List UInt8) (result : ℤ × ℤ) :
    octetsFrom (a ++ 46 :: (b ++ 46 :: (c ++ 46 :: (d ++ tail))))
        (scanFrom (a ++ 46 :: (b ++ 46 :: (c ++ 46 :: d))) Scan.init).finish [0, 1, 2, 3] (0, 0) =
        some result ↔
      (LooseOctet a ∧ LooseOctet b ∧ LooseOctet c ∧ LooseOctet d) ∧
        result.1 = (octetDigit a).1 + 2 ^ 8 * (octetDigit b).1 + 2 ^ 16 * (octetDigit c).1 +
          2 ^ 24 * (octetDigit d).1 ∧
        result.2 = (octetDigit d).1 + 2 ^ 8 * (octetDigit c).1 + 2 ^ 16 * (octetDigit b).1 +
          2 ^ 24 * (octetDigit a).1 := by
  obtain ⟨_, _, ⟨ha1, hb1, hc1, hd1⟩, ha2, hb2, hc2, hd2⟩ := finish_scanFrom ha hb hc hd
  have hdrop : ∀ (g rest : List UInt8), (g ++ 46 :: rest).drop (g.length + 1) = rest := by
    intro g rest
    rw [← List.drop_drop, List.drop_left, List.drop_one, List.tail_cons]
  have hthird : (a ++ 46 :: (b ++ 46 :: (c ++ 46 :: (d ++ tail)))).drop
      (a.length + 1 + (b.length + 1)) = c ++ 46 :: (d ++ tail) := by
    rw [← List.drop_drop, hdrop, hdrop]
  have hfourth : (a ++ 46 :: (b ++ 46 :: (c ++ 46 :: (d ++ tail)))).drop
      (a.length + 1 + (b.length + 1) + (c.length + 1)) = d ++ tail :=
    List.drop_drop.symm.trans (by rw [hthird, hdrop])
  have htake : ∀ g rest : List UInt8, (g ++ rest).take g.length = g := fun g rest => List.take_left
  rw [octetsFrom_cons_iff ha1 (by rw [ha2]; exact htake _ _) ha,
    octetsFrom_cons_iff hb1 (by rw [hb2, hdrop]; exact htake _ _) hb,
    octetsFrom_cons_iff hc1 (by rw [hc2, hthird]; exact htake _ _) hc,
    octetsFrom_cons_iff hd1 (by rw [hd2, hfourth]; exact htake _ _) hd, octetsFrom]
  have ha' := octetDigit_nonneg ha
  have hb' := octetDigit_nonneg hb
  have hc' := octetDigit_nonneg hc
  have hd' := octetDigit_nonneg hd
  simp only [Int.shiftLeft_eq, Option.some.injEq, Prod.ext_iff]
  rw [looseOctet_iff ha, looseOctet_iff hb, looseOctet_iff hc, looseOctet_iff hd]
  constructor
  · rintro ⟨hla, hlb, hlc, hld, h1, h2⟩
    refine ⟨⟨hla, hlb, hlc, hld⟩, ?_, ?_⟩ <;> omega
  · rintro ⟨⟨hla, hlb, hlc, hld⟩, h1, h2⟩
    refine ⟨hla, hlb, hlc, hld, ?_, ?_⟩ <;> omega

theorem LooseOctet.digits {group : List UInt8} (h : LooseOctet group) : group.all isDigit := by
  rcases h with rfl | ⟨octet, _, hoctet, _⟩
  · rfl
  · rw [decimal] at hoctet
    split_ifs at hoctet with hd
    exact hd.2

/-- The four groups of a list, as the scan meets them. -/
theorem exists_four {groups : List (List UInt8)} (h : groups.length = 4) :
    ∃ a b c d, groups = [a, b, c, d] ∧
      List.intercalate [46] groups = a ++ 46 :: (b ++ 46 :: (c ++ 46 :: d)) := by
  match groups, h with
  | [a, b, c, d], _ => exact ⟨a, b, c, d, rfl, by simp [List.intercalate, List.intersperse]⟩

/-- The sum of the numbers of four groups, in a byte order. -/
def groupsAddress (order : ByteOrder) (groups : List (List UInt8)) : ℤ :=
  let bytes := match order with
    | .littleEndian => groups.reverse
    | .bigEndian => groups
  bytes.foldr (fun group rest => (octetDigit group).1 + 256 * rest) 0

/-- What the scan sees are four groups that are octets or empty. -/
def LooseQuad (stringp : List UInt8) (groups : List (List UInt8)) : Prop :=
  groups.length = 4 ∧ (∀ group ∈ groups, LooseOctet group) ∧
    scanned stringp = List.intercalate [46] groups

/-- The function accepts what the scan sees as four groups that are octets or empty. -/
theorem swigpsA2ip_of_looseQuad (order : ByteOrder) (ipaddrp : ℤ) {groups : List (List UInt8)}
    (h : LooseQuad stringp groups) :
    swigpsA2ip order.endianness (some stringp) ipaddrp = (0, groupsAddress order groups) := by
  obtain ⟨hlen, hloose, hscanned⟩ := h
  obtain ⟨a, b, c, d, rfl, hjoin⟩ := exists_four hlen
  obtain ⟨ha, hb, hc, hd⟩ : LooseOctet a ∧ LooseOctet b ∧ LooseOctet c ∧ LooseOctet d := by
    simpa using hloose
  obtain ⟨hvalid, hcount, _⟩ := finish_scanFrom ha.digits hb.digits hc.digits hd.digits
  have hwhole : stringp = a ++ 46 :: (b ++ 46 :: (c ++ 46 ::
      (d ++ stringp.drop (wrap stringp.length).toNat))) := by
    have hsplit := (List.take_append_drop (wrap stringp.length).toNat stringp).symm
    rw [← scanned, hscanned, hjoin] at hsplit
    simpa using hsplit
  have hoctets := (octetsFrom_scan_iff ha.digits hb.digits hc.digits hd.digits
    (stringp.drop (wrap stringp.length).toNat)
    ((octetDigit a).1 + 2 ^ 8 * (octetDigit b).1 + 2 ^ 16 * (octetDigit c).1 +
        2 ^ 24 * (octetDigit d).1,
      (octetDigit d).1 + 2 ^ 8 * (octetDigit c).1 + 2 ^ 16 * (octetDigit b).1 +
        2 ^ 24 * (octetDigit a).1)).mpr ⟨⟨ha, hb, hc, hd⟩, rfl, rfl⟩
  rw [← hwhole] at hoctets
  rw [swigpsA2ip, hscanned, hjoin, hvalid, hcount, hoctets]
  cases order <;> simp [ByteOrder.endianness, swigpsLe, swigpsBe, groupsAddress, maxIpDots] <;> ring

/-- The function rejects everything else, and leaves the output alone. -/
theorem swigpsA2ip_of_not_looseQuad (endianness ipaddrp : ℤ)
    (h : ∀ groups, ¬LooseQuad stringp groups) :
    swigpsA2ip endianness (some stringp) ipaddrp = (-1, ipaddrp) := by
  rw [swigpsA2ip]
  by_cases hvalid : ((scanFrom (scanned stringp) Scan.init).finish.ipvalid &&
      decide ((scanFrom (scanned stringp) Scan.init).finish.dotcount = maxIpDots)) = true
  · rw [if_pos hvalid]
    obtain ⟨hip, hdots⟩ := (Bool.and_eq_true _ _).mp hvalid
    rw [Scan.ipvalid_finish] at hip
    rw [Scan.dotcount_finish] at hdots
    obtain ⟨group, groups, hscanned, hdigits, hcount⟩ := groups_of_scanFrom hip
    have hthree : groups.length = 3 := by
      have hdots' := of_decide_eq_true hdots
      rw [maxIpDots] at hdots'
      have hzero : Scan.init.dotcount = 0 := rfl
      omega
    have hfour : (group :: groups).length = 4 := congrArg (· + 1) hthree
    obtain ⟨a, b, c, d, heq, hjoin⟩ := exists_four hfour
    rw [heq] at hdigits
    obtain ⟨ha, hb, hc, hd⟩ : a.all isDigit ∧ b.all isDigit ∧ c.all isDigit ∧ d.all isDigit := by
      simpa using hdigits
    cases hresult : octetsFrom stringp (scanFrom (scanned stringp) Scan.init).finish [0, 1, 2, 3]
        (0, 0) with
    | none => rfl
    | some result =>
        have hsplit := (List.take_append_drop (wrap stringp.length).toNat stringp).symm
        rw [← scanned, hscanned, hjoin, List.append_assoc, List.cons_append, List.append_assoc,
          List.cons_append, List.append_assoc, List.cons_append] at hsplit
        rw [hscanned, hjoin, hsplit] at hresult
        obtain ⟨⟨hla, hlb, hlc, hld⟩, _⟩ := (octetsFrom_scan_iff ha hb hc hd _ _).mp hresult
        refine absurd ⟨hfour, ?_, hscanned⟩ (h (group :: groups))
        rw [heq]
        simp only [List.forall_mem_cons]
        exact ⟨hla, hlb, hlc, hld, List.forall_mem_nil _⟩
  · exact if_neg hvalid

/-- Below the largest `int` the scan sees the whole string. -/
theorem scanned_eq (h : stringp.length < 2 ^ 31) : scanned stringp = stringp := by
  have hlen : wrap stringp.length = stringp.length := Int.bmod_eq_of_le (by omega) (by omega)
  rw [scanned, hlen, Int.toNat_natCast, List.take_length]

theorem GivesOctet.ne_nil {group : List UInt8} {octet : ℕ} (h : GivesOctet group octet) :
    group ≠ [] := by
  rintro rfl
  exact Option.some_ne_none _ h.2.1.symm

theorem exists_octet {groups : List (List UInt8)} {octets : List ℕ}
    (h : List.Forall₂ GivesOctet groups octets) : ∀ group ∈ groups, ∃ octet, GivesOctet group octet := by
  induction h with
  | nil => exact fun group hgroup => absurd hgroup List.not_mem_nil
  | cons hg _ ih => exact List.forall_mem_cons.mpr ⟨⟨_, hg⟩, ih⟩

/-- A dotted quad is what the scan sees of it. -/
theorem looseQuad_of_gives {groups : List (List UInt8)} {octets : List ℕ}
    (hlen : groups.length = 4) (hjoin : stringp = List.intercalate [46] groups)
    (h : List.Forall₂ GivesOctet groups octets) :
    stringp.length < 2 ^ 31 ∧ LooseQuad stringp groups := by
  have hgroups := exists_octet h
  have hshort : stringp.length < 2 ^ 31 := by
    obtain ⟨a, b, c, d, rfl, hjoin'⟩ := exists_four hlen
    obtain ⟨⟨_, ha, _⟩, ⟨_, hb, _⟩, ⟨_, hc, _⟩, ⟨_, hd, _⟩⟩ :
        (∃ n, GivesOctet a n) ∧ (∃ n, GivesOctet b n) ∧ (∃ n, GivesOctet c n) ∧
          ∃ n, GivesOctet d n := by
      simpa using hgroups
    rw [hjoin, hjoin']
    simp only [List.length_append, List.length_cons]
    omega
  exact ⟨hshort, hlen, fun group hgroup => .inr (hgroups group hgroup),
    (scanned_eq hshort).trans hjoin⟩

/-- The octets of groups make their address. -/
theorem groupsAddress_eq (order : ByteOrder) {groups : List (List UInt8)} {octets : List ℕ}
    (h : List.Forall₂ GivesOctet groups octets) :
    groupsAddress order groups = order.address octets := by
  have hsum : ∀ {gs : List (List UInt8)} {os : List ℕ}, List.Forall₂ GivesOctet gs os →
      gs.foldr (fun group rest => (octetDigit group).1 + 256 * rest) 0 =
        ((os.foldr (fun octet rest => octet + 256 * rest) 0 : ℕ) : ℤ) := by
    intro gs os hos
    induction hos with
    | nil => rfl
    | cons hg _ ih =>
        rw [List.foldr_cons, List.foldr_cons, ih, octetDigit_of_decimal hg.2.1]
        push_cast
        rfl
  cases order with
  | littleEndian => exact hsum (List.forall₂_reverse_iff.mpr h)
  | bigEndian => exact hsum h

/-- The groups of a string are determined by it. -/
theorem groups_unique {groups groups' : List (List UInt8)} (h : groups.length = 4)
    (hgroups : ∀ group ∈ groups, LooseOctet group) (h' : groups'.length = 4)
    (hgroups' : ∀ group ∈ groups', LooseOctet group)
    (heq : List.intercalate [46] groups = List.intercalate [46] groups') : groups = groups' := by
  have hdot : ∀ {gs : List (List UInt8)}, (∀ group ∈ gs, LooseOctet group) →
      ∀ group ∈ gs, 46 ∉ group := by
    intro gs hgs group hgroup hmem
    exact digit_ne_dot (List.all_eq_true.mp (hgs group hgroup).digits 46 hmem) rfl
  have hne : ∀ {gs : List (List UInt8)}, gs.length = 4 → gs ≠ [] := by
    rintro _ hlen rfl
    cases hlen
  rw [← List.splitOn_intercalate 46 (hdot hgroups) (hne h), heq,
    List.splitOn_intercalate 46 (hdot hgroups') (hne h')]

end Results

/-- An address is converted as asked for if and only if the groups that the scan sees, where they
pass its checks, are not empty and are the whole string. -/
theorem converts_iff (order : ByteOrder) (stringp : List UInt8) (ipaddrp : ℤ) :
    Converts order stringp ipaddrp ↔ ExactQuad stringp := by
  constructor
  · intro h groups hlen hloose hscanned
    have haccepted : (swigpsA2ip order.endianness (some stringp) ipaddrp).1 = 0 := by
      rw [swigpsA2ip_of_looseQuad order ipaddrp ⟨hlen, hloose, hscanned⟩]
    obtain ⟨octets, groups', hlen', hjoin, hoctets⟩ := h.accepted_iff.mp haccepted
    obtain ⟨hshort, _, hloose', hscanned'⟩ := looseQuad_of_gives hlen' hjoin hoctets
    obtain rfl := groups_unique hlen hloose hlen' hloose' (hscanned.symm.trans hscanned')
    refine ⟨fun hmem => ?_, hshort⟩
    obtain ⟨octet, hoctet⟩ := exists_octet hoctets [] hmem
    exact hoctet.ne_nil rfl
  · intro h
    by_cases hloose : ∃ groups, LooseQuad stringp groups
    · obtain ⟨groups, hquad⟩ := hloose
      obtain ⟨hnonempty, hshort⟩ := h groups hquad.1 hquad.2.1 hquad.2.2
      have hoctets : List.Forall₂ GivesOctet groups
          (groups.map fun group => (decimal group).getD 0) := by
        rw [List.forall₂_map_right_iff, List.forall₂_same]
        intro group hgroup
        rcases hquad.2.1 group hgroup with rfl | ⟨octet, hoctet⟩
        · exact absurd hgroup hnonempty
        · rw [hoctet.2.1]
          exact hoctet
      have hgives : GivesQuad stringp (groups.map fun group => (decimal group).getD 0) :=
        ⟨groups, hquad.1, (scanned_eq hshort).symm.trans hquad.2.2, hoctets⟩
      have hresult := swigpsA2ip_of_looseQuad order ipaddrp hquad
      exact ⟨iff_of_true (by rw [hresult]) ⟨_, hgives⟩,
        fun _ => ⟨_, hgives, by rw [hresult]; exact groupsAddress_eq order hoctets⟩,
        fun hne => absurd (by rw [hresult]) hne⟩
    · have hresult := swigpsA2ip_of_not_looseQuad order.endianness ipaddrp
        fun groups hquad => hloose ⟨groups, hquad⟩
      have hnone : ¬∃ octets, GivesQuad stringp octets := by
        rintro ⟨octets, groups, hlen, hjoin, hoctets⟩
        exact hloose ⟨groups, (looseQuad_of_gives hlen hjoin hoctets).2⟩
      have hne : (swigpsA2ip order.endianness (some stringp) ipaddrp).1 ≠ 0 := by
        rw [hresult]
        exact (by decide : (-1 : ℤ) ≠ 0)
      exact ⟨iff_of_false hne hnone, fun h0 => absurd h0 hne, fun _ => hresult⟩

/-- A group is empty. -/
theorem not_converts_emptyGroup : ¬Converts .bigEndian (ascii "1..2.3") 0 := by
  intro h
  obtain ⟨octets, groups, hlen, hjoin, hoctets⟩ := h.accepted_iff.mp (by decide +kernel)
  have hloose := (looseQuad_of_gives hlen hjoin hoctets).2
  have hempty : [] ∈ groups := by
    have hsplit : List.intercalate [46] [[49], [], [50], [51]] = List.intercalate [46] groups :=
      (by decide : List.intercalate [46] [[49], [], [50], [51]] = ascii "1..2.3").trans hjoin
    rw [← groups_unique (by decide) ?_ hlen hloose.2.1 hsplit]
    · decide
    · simp only [List.forall_mem_cons]
      exact ⟨.inr ⟨1, by decide, by decide, by decide⟩, .inl rfl,
        .inr ⟨2, by decide, by decide, by decide⟩, .inr ⟨3, by decide, by decide, by decide⟩,
        List.forall_mem_nil _⟩
  obtain ⟨octet, hoctet⟩ := exists_octet hoctets [] hempty
  exact hoctet.ne_nil rfl

end Gps

end SierraSdk
