import Mathlib.Data.List.Flatten
import Mathlib.Data.List.ReduceOption
import SierraSdk.Ril.EmergencyNumbers

/-!
# The list of emergency numbers

The numbers of the SIM come through in order if each entry is closed: an entry of a transparent
file is, if it has less than five digits, and an entry of a record, if padding follows it. The
list that is merged with the property must end within its hundred bytes, and the numbers behind
the first thirty-two must be among them (`handles_iff`).
-/

namespace SierraSdk

namespace Ril

namespace Ecc

open Pieces

section Statements

/-- The reader of a file terminates in the list, with the numbers of the file in order, and the
numbers that are there after the property has been merged are left once each. -/
structure Handles (file : EccFile) (propValue : List UInt8) : Prop where
  read : ∃ written, file.read = some written ∧ written.length ≤ eccListBufferSize ∧
    pieces isDelimiter written = file.numbers
  attenuated : ∃ written, file.read = some written ∧
    (merge written propValue).length ≤ eccListBufferSize ∧
    ecclistAttenuate (merge written propValue) =
      some (List.intercalate [eccListAddComma]
        (file.numbers ++ pieces isDelimiter propValue).eraseDups)

/-- The entry has a number that fills its third byte. -/
def Entry.Long (e : Entry) : Prop := 5 ≤ e.digits.length

instance (e : Entry) : Decidable e.Long := inferInstanceAs (Decidable (_ ≤ _))

/-- Long entries of a transparent file have no numbers behind them, and the entries behind the
length that is kept in 16 bits have none. Long entries of records have padding behind them. -/
def EccFile.Closed : EccFile → Prop
  | .transparent entries =>
      entries.Pairwise (fun e e' => e.Long → e'.digits = []) ∧
        ∀ e ∈ entries.drop (entries.length * 6 % 2 ^ 16 / 6), e.digits = []
  | .records list =>
      ∀ record ∈ list, record.entry.Long → record.rest.take 2 = [padding, padding]

/-- The room of a number in the list, with its comma. A long entry of a transparent file has
none. -/
def EccFile.size : EccFile → ℕ
  | .transparent entries =>
      (entries.map fun e =>
        if e.digits = [] ∨ e.Long then e.digits.length else e.digits.length + 1).sum
  | .records list =>
      (list.map fun record =>
        if record.entry.digits = [] then 0 else record.entry.digits.length + 1).sum

/-- The room of the numbers together with the property. -/
def mergedSize (file : EccFile) (propValue : List UInt8) : ℕ :=
  if propValue = [] then file.size
  else if file.size = 0 then propValue.length
  else file.size + 1 + propValue.length

/-- The entries are closed, the list has room for them and for its end, and the numbers behind the
first thirty-two are among them. -/
structure Holds (file : EccFile) (propValue : List UInt8) : Prop where
  closed : file.Closed
  size_lt : mergedSize file propValue < eccListBufferSize
  repeated : ∀ number ∈ (file.numbers ++ pieces isDelimiter propValue).drop 32,
    number ∈ (file.numbers ++ pieces isDelimiter propValue).take 32

end Statements

section Characters

theorem ne_padding {c : UInt8} (h : IsDigit c) : c ≠ padding := by
  rintro rfl
  exact absurd h (by unfold IsDigit; decide)

/-- Decimal digits. -/
theorem isDigit_of_all {cs : List UInt8} (h : cs.all (fun c => 0x30 ≤ c && c ≤ 0x39) = true) :
    ∀ c ∈ cs, IsDigit c := by
  intro c hc
  have hdigit := List.all_eq_true.mp h c hc
  rw [Bool.and_eq_true, decide_eq_true_eq, decide_eq_true_eq] at hdigit
  exact .inl hdigit

theorem isDelimiter_digit {c : UInt8} (h : IsDigit c ∨ c = padding) : isDelimiter c = false := by
  rcases h with h | rfl
  · rw [isDelimiter, Bool.or_eq_false_iff]
    constructor <;> refine decide_eq_false ?_ <;> rintro rfl <;>
      exact absurd h (by unfold IsDigit; decide)
  · rfl

theorem isDelimiter_comma : isDelimiter eccListAddComma = true := rfl

theorem Entry.forall_isDelimiter (e : Entry) : ∀ c ∈ e.digits, isDelimiter c = false :=
  fun c hc => isDelimiter_digit (.inl (e.isDigit c hc))

theorem Entry.length_encode (e : Entry) : e.encode.length = 6 := by
  obtain ⟨digits, hlen, _⟩ := e
  rcases digits with _ | ⟨a, _ | ⟨b, _ | ⟨c, _ | ⟨d, _ | ⟨f, _ | ⟨g, _ | ⟨i, l⟩⟩⟩⟩⟩⟩⟩
  case cons.cons.cons.cons.cons.cons.cons =>
    simp only [List.length_cons] at hlen
    omega
  all_goals rfl

end Characters

section Entries

/-- What is written for an entry of a transparent file. -/
def Entry.written (e : Entry) : List UInt8 :=
  if e.digits = [] ∨ e.Long then e.digits else e.digits ++ [eccListAddComma]

theorem decodeEntry_encode (e : Entry) (rest : List UInt8) :
    decodeEntry 3 (e.encode ++ rest) false = e.written := by
  obtain ⟨digits, hlen, hdigits⟩ := e
  have hne : ∀ c ∈ digits, c ≠ padding := fun c hc => ne_padding (hdigits c hc)
  rcases digits with _ | ⟨a, _ | ⟨b, _ | ⟨c, _ | ⟨d, _ | ⟨f, _ | ⟨g, _ | ⟨i, l⟩⟩⟩⟩⟩⟩⟩
  case cons.cons.cons.cons.cons.cons.cons =>
    simp only [List.length_cons] at hlen
    omega
  all_goals
    simp_all [Entry.encode, swapPairs, decodeEntry, pairDigits, Entry.written, Entry.Long,
      endOfEntry, List.replicate]

/-- The entry of a record is read like one of a transparent file if padding is met in it, and the
record is read on otherwise. -/
theorem decodeRecord_encode (e : Entry) (rest : List UInt8) :
    decodeRecord (e.encode ++ rest) false =
      if e.Long then (decodeRecord rest true).map (e.digits ++ ·) else some e.written := by
  obtain ⟨digits, hlen, hdigits⟩ := e
  have hne : ∀ c ∈ digits, c ≠ padding := fun c hc => ne_padding (hdigits c hc)
  rcases digits with _ | ⟨a, _ | ⟨b, _ | ⟨c, _ | ⟨d, _ | ⟨f, _ | ⟨g, _ | ⟨i, l⟩⟩⟩⟩⟩⟩⟩
  case cons.cons.cons.cons.cons.cons.cons =>
    simp only [List.length_cons] at hlen
    omega
  all_goals
    simp_all [Entry.encode, swapPairs, decodeRecord, pairDigits, Entry.written, Entry.Long,
      endOfEntry, List.replicate]
  all_goals rfl

/-- The entries of a transparent file are read one after another. -/
theorem decodeEntries_eq (n : ℕ) (entries : List Entry) (h : n ≤ entries.length) :
    decodeEntries n (entries.flatMap Entry.encode) = (entries.take n).flatMap Entry.written := by
  induction n generalizing entries with
  | zero => rfl
  | succ n ih =>
      match entries, h with
      | e :: entries, h =>
          rw [decodeEntries, List.flatMap_cons, decodeEntry_encode, List.drop_left' e.length_encode,
            ih entries (Nat.le_of_succ_le_succ h), List.take_succ_cons, List.flatMap_cons]

/-- The numbers of entries. -/
def numbers (entries : List Entry) : List (List UInt8) :=
  (entries.map Entry.digits).filter fun number => !number.isEmpty

theorem numbers_cons (e : Entry) (entries : List Entry) :
    numbers (e :: entries) = if e.digits = [] then numbers entries
      else e.digits :: numbers entries := by
  rw [numbers, List.map_cons, List.filter_cons]
  cases e.digits <;> rfl

theorem numbers_eq_nil_iff {entries : List Entry} :
    numbers entries = [] ↔ ∀ e ∈ entries, e.digits = [] := by
  simp [numbers]

theorem numbers_append (entries entries' : List Entry) :
    numbers (entries ++ entries') = numbers entries ++ numbers entries' := by
  simp [numbers]

/-- What is written for entries begins with the digit of a number, if there is one. -/
theorem written_of_numbers {entries : List Entry} (h : numbers entries ≠ []) :
    ∃ c l, entries.flatMap Entry.written = c :: l ∧ isDelimiter c = false := by
  induction entries with
  | nil => exact absurd rfl h
  | cons e entries ih =>
      rw [numbers_cons] at h
      rw [List.flatMap_cons, Entry.written]
      split_ifs at h with hempty
      · obtain ⟨c, l, hl, hc⟩ := ih h
        exact ⟨c, l, by rw [if_pos (.inl hempty), hempty, List.nil_append, hl], hc⟩
      · obtain ⟨c, digits, hdigits⟩ := List.exists_cons_of_ne_nil hempty
        have hc := e.forall_isDelimiter c (by rw [hdigits]; exact List.mem_cons_self)
        by_cases hlong : e.Long
        · exact ⟨c, _, by rw [if_pos (.inr hlong), hdigits, List.cons_append], hc⟩
        · exact ⟨c, _, by
            rw [if_neg (not_or.mpr ⟨hempty, hlong⟩), hdigits, List.cons_append, List.cons_append],
            hc⟩

/-- The pieces that entries leave are their numbers if and only if no long entry has a number behind
it. -/
theorem pieces_written_iff (entries : List Entry) :
    pieces isDelimiter (entries.flatMap Entry.written) = numbers entries ↔
      entries.Pairwise fun e e' => e.Long → e'.digits = [] := by
  induction entries with
  | nil => exact iff_of_true rfl List.Pairwise.nil
  | cons e entries ih =>
      rw [List.flatMap_cons, numbers_cons, List.pairwise_cons, Entry.written]
      by_cases hempty : e.digits = []
      · have hshort : ¬e.Long := by
          rw [Entry.Long, hempty]
          decide
        rw [if_pos (.inl hempty), if_pos hempty, hempty, List.nil_append, ih]
        exact (and_iff_right fun _ _ hlong => absurd hlong hshort).symm
      · have hword : IsWord isDelimiter e.digits := ⟨hempty, e.forall_isDelimiter⟩
        rw [if_neg hempty]
        by_cases hlong : e.Long
        · rw [if_pos (.inr hlong)]
          by_cases hnone : numbers entries = []
          · have hall := numbers_eq_nil_iff.mp hnone
            have hnil : entries.flatMap Entry.written = [] := by
              rw [List.flatMap_eq_nil_iff]
              intro e' he'
              rw [Entry.written, hall e' he', if_pos (.inl rfl)]
            rw [hnone, hnil, List.append_nil, pieces_word hword]
            refine iff_of_true rfl ⟨fun e' he' _ => hall e' he', ih.mp ?_⟩
            rw [hnil, hnone]
            rfl
          · obtain ⟨c, l, hl, hc⟩ := written_of_numbers hnone
            obtain ⟨rest, ws, hfirst⟩ := head_pieces_append e.forall_isDelimiter hc l
            rw [hl, hfirst]
            refine iff_of_false (fun heq => ?_) fun hclosed =>
              hnone (numbers_eq_nil_iff.mpr fun e' he' => hclosed.1 e' he' hlong)
            have hlen := congrArg List.length (List.cons.inj heq).1
            simp at hlen
        · rw [if_neg (not_or.mpr ⟨hempty, hlong⟩), List.append_assoc, List.singleton_append,
            pieces_word_append hword isDelimiter_comma, List.cons.injEq, and_iff_right rfl, ih]
          exact (and_iff_right fun _ _ h => absurd h hlong).symm

/-- Entries leave at most as many pieces as they have numbers. -/
theorem length_pieces_written_le (entries : List Entry) :
    (pieces isDelimiter (entries.flatMap Entry.written)).length ≤ (numbers entries).length := by
  induction entries with
  | nil => exact Nat.le_refl _
  | cons e entries ih =>
      have happend := length_pieces_append_le (p := isDelimiter) e.written
        (entries.flatMap Entry.written)
      have hone : (pieces isDelimiter e.written).length ≤ if e.digits = [] then 0 else 1 := by
        rw [Entry.written]
        by_cases hempty : e.digits = []
        · rw [if_pos (.inl hempty), if_pos hempty, hempty]
          exact Nat.le_refl _
        · rw [if_neg hempty]
          have hword := length_pieces_of_forall_le e.forall_isDelimiter
          split_ifs
          · exact hword
          · rw [pieces_concat _ isDelimiter_comma]
            exact hword
      rw [List.flatMap_cons, numbers_cons]
      split_ifs at hone ⊢
      · omega
      · rw [List.length_cons]
        omega

end Entries

section Transparent

variable (entries : List Entry)

/-- The entries that the length in 16 bits leaves. -/
theorem read_transparent :
    EccFile.read (.transparent entries) =
      some ((entries.take (entries.length * 6 % 2 ^ 16 / 6)).flatMap Entry.written) := by
  have hlen : (entries.flatMap Entry.encode).length = entries.length * 6 := by
    simp [List.length_flatMap, Entry.length_encode]
  have hle : entries.length * 6 % 2 ^ 16 / 6 ≤ entries.length := by omega
  rw [EccFile.read, readSIMECCBinaryQMI, hlen]
  exact congrArg some (decodeEntries_eq _ _ hle)

/-- A transparent file leaves the pieces of its numbers if and only if it is closed. -/
theorem pieces_transparent_iff :
    pieces isDelimiter
        ((entries.take (entries.length * 6 % 2 ^ 16 / 6)).flatMap Entry.written) =
        EccFile.numbers (.transparent entries) ↔
      EccFile.Closed (.transparent entries) := by
  have hsplit := numbers_append (entries.take (entries.length * 6 % 2 ^ 16 / 6))
    (entries.drop (entries.length * 6 % 2 ^ 16 / 6))
  rw [List.take_append_drop] at hsplit
  have hnumbers : EccFile.numbers (.transparent entries) = numbers entries := rfl
  rw [hnumbers, EccFile.Closed, ← numbers_eq_nil_iff]
  constructor
  · intro h
    have hle := length_pieces_written_le (entries.take (entries.length * 6 % 2 ^ 16 / 6))
    rw [h, hsplit, List.length_append] at hle
    have hnil : numbers (entries.drop (entries.length * 6 % 2 ^ 16 / 6)) = [] :=
      List.length_eq_zero_iff.mp (by omega)
    rw [hsplit, hnil, List.append_nil, pieces_written_iff] at h
    refine ⟨?_, hnil⟩
    rw [← List.take_append_drop (entries.length * 6 % 2 ^ 16 / 6) entries, List.pairwise_append]
    have hempty := numbers_eq_nil_iff.mp hnil
    exact ⟨h, List.pairwise_of_forall_mem_list fun _ _ e he _ => hempty e he,
      fun _ _ e he _ => hempty e he⟩
  · rintro ⟨hpairs, hnil⟩
    rw [hsplit, hnil, List.append_nil, pieces_written_iff]
    exact hpairs.sublist (List.take_sublist _ _)

/-- The entries that are written are as long as the file says. -/
theorem length_written_transparent (h : EccFile.Closed (.transparent entries)) :
    ((entries.take (entries.length * 6 % 2 ^ 16 / 6)).flatMap Entry.written).length =
      EccFile.size (.transparent entries) := by
  have hlen : ∀ es : List Entry, (es.flatMap Entry.written).length =
      (es.map fun e =>
        if e.digits = [] ∨ e.Long then e.digits.length else e.digits.length + 1).sum := by
    intro es
    rw [List.length_flatMap]
    refine congrArg List.sum (List.map_congr_left fun e _ => ?_)
    rw [Entry.written]
    split_ifs <;> simp
  have hnil : (entries.drop (entries.length * 6 % 2 ^ 16 / 6)).flatMap Entry.written = [] := by
    rw [List.flatMap_eq_nil_iff]
    intro e he
    rw [Entry.written, h.2 e he, if_pos (.inl rfl)]
  rw [EccFile.size, ← hlen, ← List.append_nil (List.flatMap _ (List.take _ _)), ← hnil,
    ← List.flatMap_append, List.take_append_drop]

end Transparent

section Records

/-- A record that is read on leaves characters and a comma, and no characters if padding is met at
once. -/
theorem decodeRecord_some {p w : List UInt8} (hp : ∀ c ∈ p, IsDigit c ∨ c = padding)
    (h : decodeRecord p true = some w) :
    ∃ extra, w = extra ++ [eccListAddComma] ∧ (∀ c ∈ extra, isDelimiter c = false) ∧
      (extra = [] ↔ p.take 2 = [padding, padding]) := by
  match p, hp with
  | [], _ => cases h
  | [_], _ => cases h
  | high :: low :: p, hp =>
      obtain ⟨hhigh, hlow, hrest⟩ : (IsDigit high ∨ high = padding) ∧
          (IsDigit low ∨ low = padding) ∧ ∀ c ∈ p, IsDigit c ∨ c = padding := by
        simpa using hp
      rw [decodeRecord] at h
      split_ifs at h with hpad
      · refine ⟨[], (Option.some.inj h).symm, List.forall_mem_nil _, iff_of_true rfl ?_⟩
        rw [hpad.1, hpad.2]
        rfl
      · obtain ⟨w', hw', rfl⟩ := Option.map_eq_some_iff.mp h
        obtain ⟨extra, rfl, hextra, _⟩ := decodeRecord_some hrest hw'
        refine ⟨pairDigits high low ++ extra, (List.append_assoc _ _ _).symm, ?_, ?_⟩
        · intro c hc
          rcases List.mem_append.mp hc with hc | hc
          · refine isDelimiter_digit ?_
            rw [pairDigits] at hc
            split_ifs at hc
            · rcases List.mem_pair.mp hc with rfl | rfl
              · exact hlow
              · exact hhigh
            · rwa [List.mem_singleton.mp hc]
          · exact hextra c hc
        · refine iff_of_false (fun hnil => ?_) fun htake => hpad ?_
          · rw [pairDigits] at hnil
            split_ifs at hnil <;> simp at hnil
          · simpa using htake

/-- What is written for a record that is closed. -/
def Record.written (r : Record) : List UInt8 :=
  if r.entry.digits = [] then [] else r.entry.digits ++ [eccListAddComma]

/-- A record is closed. -/
def Record.Closed (r : Record) : Prop := r.entry.Long → r.rest.take 2 = [padding, padding]

theorem decodeRecord_of_closed {r : Record} (h : r.Closed) :
    decodeRecord (r.entry.encode ++ r.rest) false = some r.written := by
  rw [decodeRecord_encode, Record.written]
  by_cases hlong : r.entry.Long
  · have hne : r.entry.digits ≠ [] := by
      intro hnil
      rw [Entry.Long, hnil] at hlong
      exact absurd hlong (by decide)
    have hpad : decodeRecord r.rest true = some [eccListAddComma] := by
      have htake := h hlong
      match hr : r.rest, htake with
      | high :: low :: rest, htake =>
          simp only [List.take_succ_cons, List.take_zero, List.cons.injEq, and_true] at htake
          rw [decodeRecord, if_pos htake]
          rfl
    rw [if_pos hlong, if_neg hne, hpad]
    rfl
  · rw [if_neg hlong, Entry.written]
    by_cases hnil : r.entry.digits = []
    · rw [if_pos (.inl hnil), if_pos hnil, hnil]
    · rw [if_neg (not_or.mpr ⟨hnil, hlong⟩), if_neg hnil]

/-- Another record leaves no text, or a longer number. -/
theorem decodeRecord_of_not_closed {r : Record} (h : ¬r.Closed) {w : List UInt8}
    (hw : decodeRecord (r.entry.encode ++ r.rest) false = some w) :
    ∃ extra, extra ≠ [] ∧ (∀ c ∈ extra, isDelimiter c = false) ∧
      w = r.entry.digits ++ extra ++ [eccListAddComma] := by
  rw [Record.Closed, Classical.not_imp] at h
  obtain ⟨hlong, hpad⟩ := h
  rw [decodeRecord_encode, if_pos hlong] at hw
  obtain ⟨w', hw', rfl⟩ := Option.map_eq_some_iff.mp hw
  obtain ⟨extra, rfl, hextra, hnil⟩ := decodeRecord_some r.isHex hw'
  exact ⟨extra, mt hnil.mp hpad, hextra, (List.append_assoc _ _ _).symm⟩

theorem read_records_of_closed {list : List Record} (h : ∀ r ∈ list, r.Closed) :
    EccFile.read (.records list) = some (list.flatMap Record.written) := by
  rw [EccFile.read]
  induction list with
  | nil => rfl
  | cons r list ih =>
      obtain ⟨hr, hlist⟩ := List.forall_mem_cons.mp h
      rw [List.map_cons, readSIMECCRecordsQMI, decodeRecord_of_closed hr, Option.bind_some,
        ih hlist]
      rfl

/-- The pieces of records are their numbers only if they are closed. -/
theorem closed_of_pieces {list : List Record} {w : List UInt8}
    (hw : EccFile.read (.records list) = some w)
    (h : pieces isDelimiter w = numbers (list.map Record.entry)) : ∀ r ∈ list, r.Closed := by
  rw [EccFile.read] at hw
  induction list generalizing w with
  | nil => exact List.forall_mem_nil _
  | cons r list ih =>
      rw [List.map_cons, readSIMECCRecordsQMI] at hw
      obtain ⟨first, hfirst, hmap⟩ := Option.bind_eq_some_iff.mp hw
      obtain ⟨rest, hrest, rfl⟩ := Option.map_eq_some_iff.mp hmap
      rw [List.map_cons, numbers_cons] at h
      refine List.forall_mem_cons.mpr ?_
      by_cases hclosed : r.Closed
      · obtain rfl := Option.some.inj ((decodeRecord_of_closed hclosed).symm.trans hfirst)
        refine ⟨hclosed, ih hrest ?_⟩
        rw [Record.written] at h
        by_cases hempty : r.entry.digits = []
        · rwa [if_pos hempty, if_pos hempty, List.nil_append] at h
        · rw [if_neg hempty, if_neg hempty, List.append_assoc, List.singleton_append,
            pieces_word_append ⟨hempty, r.entry.forall_isDelimiter⟩ isDelimiter_comma] at h
          exact (List.cons.inj h).2
      · obtain ⟨extra, hne, hextra, rfl⟩ := decodeRecord_of_not_closed hclosed hfirst
        have hlong : r.entry.Long := (Classical.not_imp.mp hclosed).1
        have hempty : r.entry.digits ≠ [] := by
          intro hnil
          rw [Entry.Long, hnil] at hlong
          exact absurd hlong (by decide)
        have hword : IsWord isDelimiter (r.entry.digits ++ extra) :=
          ⟨List.append_ne_nil_of_left_ne_nil hempty _, fun c hc =>
            (List.mem_append.mp hc).elim (r.entry.forall_isDelimiter c) (hextra c)⟩
        rw [if_neg hempty, List.append_assoc, List.singleton_append,
          pieces_word_append hword isDelimiter_comma] at h
        exact absurd (List.append_right_eq_self.mp (List.cons.inj h).1) hne

/-- The pieces of closed records are their numbers. -/
theorem pieces_of_closed (list : List Record) :
    pieces isDelimiter (list.flatMap Record.written) = numbers (list.map Record.entry) := by
  induction list with
  | nil => rfl
  | cons r list ih =>
      rw [List.flatMap_cons, List.map_cons, numbers_cons, Record.written]
      split_ifs with hempty
      · exact ih
      · rw [List.append_assoc, List.singleton_append,
          pieces_word_append ⟨hempty, r.entry.forall_isDelimiter⟩ isDelimiter_comma, ih]

theorem length_written_records (list : List Record) :
    (list.flatMap Record.written).length = EccFile.size (.records list) := by
  rw [List.length_flatMap, EccFile.size]
  refine congrArg List.sum (List.map_congr_left fun r _ => ?_)
  rw [Record.written]
  split_ifs <;> simp

end Records

section Files

variable {file : EccFile} {propValue : List UInt8}

/-- The reader of a closed file leaves the pieces of its numbers, in the room that they have. -/
theorem read_of_closed (h : file.Closed) :
    ∃ written, file.read = some written ∧ written.length = file.size ∧
      pieces isDelimiter written = file.numbers := by
  match file with
  | .transparent entries =>
      exact ⟨_, read_transparent entries, length_written_transparent entries h,
        (pieces_transparent_iff entries).mpr h⟩
  | .records list =>
      exact ⟨_, read_records_of_closed h, length_written_records list, pieces_of_closed list⟩

theorem closed_of_read {written : List UInt8} (hread : file.read = some written)
    (h : pieces isDelimiter written = file.numbers) : file.Closed := by
  match file with
  | .transparent entries =>
      obtain rfl := Option.some.inj ((read_transparent entries).symm.trans hread)
      exact (pieces_transparent_iff entries).mp h
  | .records list => exact closed_of_pieces hread h

/-- The pieces of the merged list. -/
theorem pieces_merge (written propValue : List UInt8) :
    pieces isDelimiter (merge written propValue) =
      pieces isDelimiter written ++ pieces isDelimiter propValue := by
  rw [merge]
  split_ifs with hprop hwritten
  · rw [hprop, pieces_nil, List.append_nil]
  · rw [hwritten, pieces_nil, List.nil_append]
  · exact pieces_append_cons _ _ isDelimiter_comma

theorem length_merge {written : List UInt8} (h : written.length = file.size) :
    (merge written propValue).length = mergedSize file propValue := by
  rw [merge, mergedSize, ← h]
  by_cases hprop : propValue = []
  · rw [if_pos hprop, if_pos hprop]
  · rw [if_neg hprop, if_neg hprop]
    by_cases hwritten : written = []
    · rw [if_pos hwritten, if_pos (List.length_eq_zero_iff.mpr hwritten)]
    · rw [if_neg hwritten, if_neg (mt List.length_eq_zero_iff.mp hwritten), List.length_append,
        List.length_cons]
      omega

end Files

section Attenuation

/-- The inner loop leaves the other numbers. -/
theorem reduceOption_freeEqual (number : List UInt8) (rest : List (Option (List UInt8))) :
    (freeEqual (some number) rest).reduceOption =
      rest.reduceOption.filter fun other => !other == number := by
  induction rest with
  | nil => rfl
  | cons other rest ih =>
      have hcons : freeEqual (some number) (other :: rest) =
          (if other = some number then none else other) :: freeEqual (some number) rest := by
        rw [freeEqual, List.map_cons]
        cases other with
        | none => rfl
        | some other =>
            by_cases heq : number = other
            · simp [freeEqual, heq]
            · simp [freeEqual, heq, Ne.symm heq]
      rw [hcons]
      cases other with
      | none => rw [if_neg (by simp), List.reduceOption_cons_of_none, ih]; rfl
      | some other =>
          rw [List.reduceOption_cons_of_some, List.filter_cons]
          by_cases heq : other = number
          · rw [if_pos (congrArg some heq), List.reduceOption_cons_of_none, ih, heq, beq_self_eq_true]
            rfl
          · rw [if_neg fun h => heq (Option.some.inj h), List.reduceOption_cons_of_some, ih,
              beq_false_of_ne heq]
            rfl

/-- The loops leave the first one of equal numbers. -/
theorem reduceOption_freeDuplicates (elms : List (Option (List UInt8))) :
    (freeDuplicates elms).reduceOption = elms.reduceOption.eraseDups := by
  induction elms using freeDuplicates.induct with
  | case1 => rw [freeDuplicates]; rfl
  | case2 elm rest ih =>
      rw [freeDuplicates]
      cases elm with
      | none =>
          have hsame : freeEqual none rest = rest := by
            rw [freeEqual]
            exact (List.map_congr_left fun _ _ => if_neg Bool.false_ne_true).trans (List.map_id _)
          rw [hsame] at ih ⊢
          rw [List.reduceOption_cons_of_none, List.reduceOption_cons_of_none, ih]
      | some number =>
          rw [List.reduceOption_cons_of_some, List.reduceOption_cons_of_some, ih,
            reduceOption_freeEqual, List.eraseDups_cons]

/-- Numbers with a comma behind each, without the last one. -/
theorem dropLast_commas (ws : List (List UInt8)) :
    (ws.flatMap fun w => w ++ [eccListAddComma]).dropLast =
      List.intercalate [eccListAddComma] ws := by
  induction ws with
  | nil => rfl
  | cons w ws ih =>
      cases ws with
      | nil => simp
      | cons w' ws =>
          rw [List.flatMap_cons, List.intercalate_cons_cons, ← ih,
            List.dropLast_append_of_ne_nil]
          rw [List.flatMap_cons, List.append_assoc]
          exact List.append_ne_nil_of_right_ne_nil _ (List.cons_ne_nil _ _)

theorem flatMap_copyBack (elms : List (Option (List UInt8))) :
    elms.flatMap copyBack = elms.reduceOption.flatMap fun w => w ++ [eccListAddComma] := by
  induction elms with
  | nil => rfl
  | cons elm elms ih =>
      cases elm with
      | none => rw [List.flatMap_cons, List.reduceOption_cons_of_none, ← ih]; rfl
      | some w => rw [List.flatMap_cons, List.reduceOption_cons_of_some, List.flatMap_cons, ih]; rfl

/-- What is left of a list once each has no new elements. -/
theorem eraseDups_sublist {α : Type*} [BEq α] (l : List α) : l.eraseDups.Sublist l := by
  induction hn : l.length using Nat.strongRecOn generalizing l with
  | ind n ih =>
      match l with
      | [] => exact List.Sublist.refl _
      | a :: l =>
          rw [List.eraseDups_cons]
          have hlt : (l.filter fun b => !b == a).length < n := by
            rw [← hn, List.length_cons]
            exact Nat.lt_succ_of_le (List.length_filter_le _ _)
          exact ((ih _ hlt _ rfl).trans List.filter_sublist).cons_cons a

/-- The numbers behind the first ones can be left out if and only if they are among them. -/
theorem eraseDups_take_iff {α : Type*} [BEq α] [LawfulBEq α] (l : List α) (n : ℕ) :
    (l.take n).eraseDups = l.eraseDups ↔ ∀ x ∈ l.drop n, x ∈ l.take n := by
  constructor
  · intro h x hx
    rw [← List.mem_eraseDups, h, List.mem_eraseDups]
    exact List.mem_of_mem_drop hx
  · intro h
    have hnone : (l.drop n).removeAll (l.take n) = [] :=
      List.filter_eq_nil_iff.mpr fun x hx => by simpa using h x hx
    have hsplit : (l.take n ++ l.drop n).eraseDups = (l.take n).eraseDups := by
      rw [List.eraseDups_append, hnone, List.eraseDups_nil, List.append_nil]
    rw [← hsplit, List.take_append_drop]

/-- Attenuation leaves the first thirty-two numbers once each, if the list has room for its end. -/
theorem ecclistAttenuate_eq {list : List UInt8} (h : list.length < eccListBufferSize) :
    ecclistAttenuate list = some (List.intercalate [eccListAddComma]
      ((pieces isDelimiter list).take 32).eraseDups) := by
  have hsublist : ((pieces isDelimiter list).take 32).eraseDups.Sublist (pieces isDelimiter list) :=
    (eraseDups_sublist _).trans (List.take_sublist _ _)
  have hroom : ((((pieces isDelimiter list).take 32).eraseDups).flatMap
      fun w => w ++ [eccListAddComma]).length ≤ list.length + 1 := by
    have hle := (hsublist.flatMap fun w => w ++ [eccListAddComma]).length_le
    have hsum : ((pieces isDelimiter list).flatMap fun w => w ++ [eccListAddComma]).length =
        ((pieces isDelimiter list).map fun w => w.length + 1).sum := by
      simp [List.length_flatMap]
    have hpieces := sum_length_pieces isDelimiter list
    omega
  rw [ecclistAttenuate, if_neg (Nat.not_le.mpr h)]
  dsimp only
  have hsome : (((pieces isDelimiter list).take 32).map some).reduceOption =
      (pieces isDelimiter list).take 32 := by
    simp [List.reduceOption]
  rw [flatMap_copyBack, reduceOption_freeDuplicates, hsome, if_neg (by omega), dropLast_commas]

end Attenuation

/-- The list of emergency numbers is read and attenuated as it should be if and only if the entries
are closed, the list has room, and no number is cut off. -/
theorem handles_iff (file : EccFile) (propValue : List UInt8) :
    Handles file propValue ↔ Holds file propValue := by
  have hwords : ∀ written, pieces isDelimiter written = file.numbers →
      pieces isDelimiter (merge written propValue) =
        file.numbers ++ pieces isDelimiter propValue := by
    intro written hwritten
    rw [pieces_merge, hwritten]
  constructor
  · rintro ⟨⟨written, hread, _, hpieces⟩, written', hread', _, hattenuated⟩
    obtain rfl := Option.some.inj (hread.symm.trans hread')
    have hclosed := closed_of_read hread hpieces
    obtain ⟨written', hread', hlen, _⟩ := read_of_closed hclosed
    obtain rfl := Option.some.inj (hread.symm.trans hread')
    have hroom : (merge written propValue).length < eccListBufferSize := by
      by_contra hfull
      rw [ecclistAttenuate, if_pos (Nat.not_lt.mp hfull)] at hattenuated
      exact Option.some_ne_none _ hattenuated.symm
    rw [ecclistAttenuate_eq hroom, hwords written hpieces, Option.some.injEq] at hattenuated
    refine ⟨hclosed, length_merge hlen ▸ hroom, (eraseDups_take_iff _ 32).mp ?_⟩
    have hisWord : ∀ l : List (List UInt8), l.Sublist (file.numbers ++ pieces isDelimiter propValue) →
        ∀ w ∈ l, IsWord isDelimiter w := by
      intro l hl w hw
      rw [← hwords written hpieces] at hl
      exact isWord_of_mem (hl.subset hw)
    have hpiecesEq := congrArg (pieces isDelimiter) hattenuated
    rwa [pieces_intercalate (hisWord _ ((eraseDups_sublist _).trans (List.take_sublist _ _)))
        isDelimiter_comma,
      pieces_intercalate (hisWord _ (eraseDups_sublist _)) isDelimiter_comma] at hpiecesEq
  · rintro ⟨hclosed, hsize, hrepeated⟩
    obtain ⟨written, hread, hlen, hpieces⟩ := read_of_closed hclosed
    have hroom : (merge written propValue).length < eccListBufferSize := by
      rw [length_merge hlen]
      exact hsize
    have hle : written.length ≤ (merge written propValue).length := by
      rw [merge]
      split_ifs with hprop hnil
      · exact Nat.le_refl _
      · rw [hnil]
        exact Nat.zero_le _
      · rw [List.length_append]
        exact Nat.le_add_right _ _
    refine ⟨⟨written, hread, by omega, hpieces⟩, written, hread, by omega, ?_⟩
    rw [ecclistAttenuate_eq hroom, hwords written hpieces, (eraseDups_take_iff _ 32).mpr hrepeated]

/-- The six digits of a number run into the next number. -/
theorem not_handles_sixDigits :
    ¬Handles (.transparent [⟨[49, 50, 51, 52, 53, 54], Nat.le_refl 6, isDigit_of_all rfl⟩,
      ⟨[57, 49, 49], Nat.le_add_right 3 3, isDigit_of_all rfl⟩]) [] := by
  rintro ⟨⟨written, hread, _, hpieces⟩, _⟩
  obtain rfl := Option.some.inj hread
  exact absurd hpieces (by decide +kernel)

end Ecc

end Ril

end SierraSdk
