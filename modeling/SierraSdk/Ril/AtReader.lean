import SierraSdk.Library.MemoryText
import SierraSdk.Library.Pieces
import Mathlib.Data.List.TakeWhile
import Mathlib.Data.UInt

/-!
# The AT line reader

`readline` returns the next line that the modem sent. What was read behind it stays in the buffer,
from `ATBufferCur` to the null character at its end. A line that has begun is moved to the start of
the buffer by the next call, and read to its end there. Within one call nothing is moved: when the
buffer is full, it is thrown away, even if line ends in front of the line are what fills it.

The line ends are skipped before the buffer is searched, so that it does not matter where a line is
cut, between CR and LF neither (`ReadsLines`, `readsLines_iff`), until the beginning of a line that
ends later is thrown away.

The port is open, and `poll` reports nothing but what can be read. `lost` and `prompted` are not in
the source: they count the characters of such lines, and record that a line was taken for the
prompt.
-/

namespace SierraSdk

namespace Ril

namespace AtReader

open Memory MemoryText Pieces

/-- `MAX_AT_RESPONSE`; the buffer has a character more. -/
def maxAtResponse : ℕ := 8192

/-- The prompt for the PDU of a message. -/
def smsPrompt : List UInt8 := [62, 32]

/-- CR or LF. -/
def isEOL (c : UInt8) : Bool := c = 13 || c = 10

section Reading

/-- The buffer of the reader, and where what was not returned yet begins. -/
structure Reader where
  ATBuffer : ℕ → UInt8
  ATBufferCur : ℕ

/-- The end of the next line, or of the prompt `"> "`, which has no line end. -/
def findNextEOL (buf : ℕ → UInt8) (cur : ℕ) : Option ℕ :=
  if buf cur = 62 ∧ buf (cur + 1) = 32 ∧ buf (cur + 2) = 0 then some (cur + 2)
  else
    let eol := seek (fun c => c = 0 || isEOL c) buf (maxAtResponse + 1) cur
    if buf eol = 0 then none else some eol

/-- Skip over leading newlines. -/
def skipNewlines (buf : ℕ → UInt8) (cur : ℕ) : ℕ :=
  seek (fun c => !isEOL c) buf (maxAtResponse + 1) cur

/-- What a call returns, the reader that it leaves, and what has still to be read. -/
structure ReadlineReturn where
  line : Option (List UInt8)
  reader : Reader
  reads : List (List UInt8)
  lost : ℕ
  prompted : Bool

/-- A full line in the buffer: a zero is put over its end. -/
def fullLine (buf : ℕ → UInt8) (cur eol : ℕ) (reads : List (List UInt8)) (lost : ℕ) :
    ReadlineReturn where
  line := some (load buf cur (eol - cur))
  reader := ⟨store buf eol [0], eol + 1⟩
  reads := reads
  lost := lost
  prompted := buf eol = 0

/-- Ditch the buffer and start over again. -/
def ditch (r : Reader) : Reader := ⟨store r.ATBuffer 0 [0], 0⟩

/-- What a `read` takes of what has arrived, and what is left of it. -/
def take (space : ℕ) (chunk : List UInt8) (rest : List (List UInt8)) : List (List UInt8) :=
  if chunk.length ≤ space then rest else chunk.drop space :: rest

/-- The turn of the loop of `readline` once there is room at `p_read`. Each of the lists arrives in
one piece; a `read` takes as much of it as there is room for. There is nothing to read at the end.
The loop goes on with `next`. -/
def readMore (next : Reader → ℕ → List (List UInt8) → ReadlineReturn) (r : Reader) (p_read : ℕ)
    (lost : ℕ) : List (List UInt8) → ReadlineReturn
  | [] => ⟨none, r, [], lost, false⟩
  | chunk :: rest =>
      let got := chunk.take (maxAtResponse - p_read)
      let reads := take (maxAtResponse - p_read) chunk rest
      if got = [] then ⟨none, r, reads, lost, false⟩
      else
        let buf := store r.ATBuffer p_read (got ++ [0])
        let cur := skipNewlines buf r.ATBufferCur
        match findNextEOL buf cur with
        | none => next ⟨buf, cur⟩ (p_read + got.length) reads
        | some eol => fullLine buf cur eol reads lost

/-- The loop of `readline`. An input line that exceeds the buffer is thrown away with it. -/
def readLoop : ℕ → Reader → ℕ → List (List UInt8) → ℕ → ReadlineReturn
  | 0, r, _, reads, lost => ⟨none, r, reads, lost, false⟩
  | fuel + 1, r, p_read, reads, lost =>
      if p_read = maxAtResponse then
        let lost := if reads.flatten.any isEOL then lost + (p_read - r.ATBufferCur) else lost
        readMore (fun r p_read reads => readLoop fuel r p_read reads lost) (ditch r) 0 lost reads
      else readMore (fun r p_read reads => readLoop fuel r p_read reads lost) r p_read lost reads

def readline (r : Reader) (reads : List (List UInt8)) : ReadlineReturn :=
  let fuel := reads.flatten.length + 1
  if r.ATBuffer r.ATBufferCur = 0 then readLoop fuel (ditch r) 0 reads 0
  else
    let cur := skipNewlines r.ATBuffer r.ATBufferCur
    match findNextEOL r.ATBuffer cur with
    | none =>
        -- A partial line. Move it up and prepare to read more.
        let len := seek (· = 0) r.ATBuffer (maxAtResponse + 1) cur - cur
        readLoop fuel ⟨store r.ATBuffer 0 (load r.ATBuffer cur (len + 1)), 0⟩ len reads 0
    | some eol => fullLine r.ATBuffer cur eol reads 0

/-- The lines that so many successive calls return, until one returns `NULL`, with what was lost on
the way and whether a line was taken for the prompt. -/
structure Read where
  lines : List (List UInt8)
  lost : ℕ
  prompted : Bool

def readlines : ℕ → Reader → List (List UInt8) → Read
  | 0, _, _ => ⟨[], 0, false⟩
  | n + 1, r, reads =>
      let ret := readline r reads
      match ret.line with
      | none => ⟨[], ret.lost, ret.prompted⟩
      | some line =>
          let rest := readlines n ret.reader ret.reads
          ⟨line :: rest.lines, ret.lost + rest.lost, ret.prompted || rest.prompted⟩

/-- The reader at the start, with an empty buffer. -/
def opened : Reader := ⟨fun _ => 0, 0⟩

end Reading

section Searching

variable {buf : ℕ → UInt8} {cur : ℕ} {u : List UInt8}

/-- Behind the leading newlines the text goes on. -/
theorem skipNewlines_spec (h : Text buf cur u) (hroom : cur + u.length ≤ maxAtResponse) :
    ∃ nl v, u = nl ++ v ∧ (∀ c ∈ nl, isEOL c = true) ∧ (∀ c ∈ v.head?, isEOL c = false) ∧
      skipNewlines buf cur = cur + nl.length ∧ Text buf (cur + nl.length) v := by
  have hsplit : u = u.takeWhile isEOL ++ u.dropWhile isEOL := List.takeWhile_append_dropWhile.symm
  refine ⟨u.takeWhile isEOL, u.dropWhile isEOL, hsplit, fun c hc => List.mem_takeWhile_imp hc,
    ?_, ?_, ?_⟩
  · intro c hc
    have hnot := List.head?_dropWhile_not isEOL u
    rw [hc] at hnot
    simpa using hnot
  · rw [skipNewlines, seek_eq (by rfl) h (by omega)]
    simp only [Bool.not_not]
  · rw [hsplit] at h
    exact h.drop

/-- The prompt is found, or there is no line end, or the first one is found. -/
theorem findNextEOL_spec (h : Text buf cur u) (hroom : cur + u.length ≤ maxAtResponse) :
    (∃ eol, findNextEOL buf cur = some eol ∧ buf eol = 0 ∧ load buf cur (eol - cur) = smsPrompt) ∨
    (findNextEOL buf cur = none ∧ ∀ c ∈ u, isEOL c = false) ∨
    ∃ w c v, u = w ++ c :: v ∧ (∀ c ∈ w, isEOL c = false) ∧ isEOL c = true ∧
      findNextEOL buf cur = some (cur + w.length) := by
  rw [findNextEOL]
  split_ifs with hprompt
  · refine .inl ⟨cur + 2, rfl, hprompt.2.2, ?_⟩
    rw [Nat.add_sub_cancel_left, load_succ, load_succ, hprompt.1, hprompt.2.1]
    rfl
  have hgoes : ∀ w : List UInt8, (∀ c ∈ w, c ∈ u) → (∀ c ∈ w, isEOL c = false) →
      ∀ c ∈ w, (!(decide (c = 0) || isEOL c)) = true := by
    intro w hmem hw c hc
    rw [hw c hc, decide_eq_false (h.ne_zero c (hmem c hc))]
    rfl
  rw [seek_eq (by rfl) h (by omega)]
  obtain ⟨w, hw, rfl | ⟨c, v, hc, rfl⟩⟩ := exists_first isEOL u
  · right; left
    rw [List.takeWhile_eq_self_iff.mpr (hgoes u (fun c hc => hc) hw)]
    exact ⟨if_pos h.end_eq, hw⟩
  · right; right
    have hchar := text_cons_iff.mp h.drop
    have hstop : (!(decide (c = 0) || isEOL c)) = false := by rw [hc, Bool.or_true, Bool.not_true]
    refine ⟨w, c, v, rfl, hw, hc, ?_⟩
    rw [List.takeWhile_append_of_pos (hgoes w (fun c hc => List.mem_append_left _ hc) hw),
      List.takeWhile_cons, hstop, if_neg Bool.false_ne_true, List.append_nil]
    exact if_neg (hchar.1 ▸ hchar.2.1)

end Searching

section Consuming

/-- What a call does with the characters that are in the buffer or have still to be read: it skips
line ends, it may throw the beginning of a line away, and it takes a line, or finds that none is
complete. The number counts what was thrown away of lines that end later. -/
inductive Consumes : List UInt8 → ℕ → Option (List UInt8) → List UInt8 → Prop
  | newline {c : UInt8} {x y : List UInt8} {k : ℕ} {line : Option (List UInt8)}
      (hc : isEOL c = true) (h : Consumes x k line y) : Consumes (c :: x) k line y
  | thrown {w x y : List UInt8} {k : ℕ} {line : Option (List UInt8)}
      (hw : ∀ c ∈ w, isEOL c = false) (h : Consumes x k line y) :
      Consumes (w ++ x) ((if x.any isEOL then w.length else 0) + k) line y
  | line {w x : List UInt8} {c : UInt8} (hw : IsWord isEOL w) (hc : isEOL c = true) :
      Consumes (w ++ c :: x) 0 (some w) x
  | rest {w : List UInt8} (hw : ∀ c ∈ w, isEOL c = false) : Consumes w 0 none w

/-- The buffer holds these characters. -/
structure Holds (r : Reader) (u : List UInt8) : Prop where
  text : Text r.ATBuffer r.ATBufferCur u
  room : r.ATBufferCur + u.length ≤ maxAtResponse

/-- Something arrives with each piece, and no null character. -/
def Arrives (reads : List (List UInt8)) : Prop := ∀ chunk ∈ reads, chunk ≠ [] ∧ ∀ c ∈ chunk, c ≠ 0

/-- A call takes a line for the prompt, or consumes the characters that are to be read, of which
those left over are in the buffer or still to come. -/
def Consumed (x : List UInt8) (lost : ℕ) (ret : ReadlineReturn) : Prop :=
  (ret.prompted = true ∧ ret.line = some smsPrompt) ∨
    ∃ k u, ret.lost = lost + k ∧ ret.prompted = false ∧
      Consumes x k ret.line (u ++ ret.reads.flatten) ∧ Holds ret.reader u ∧ Arrives ret.reads

variable {x : List UInt8} {lost : ℕ} {ret : ReadlineReturn}

theorem Consumed.newlines {nl : List UInt8} (hnl : ∀ c ∈ nl, isEOL c = true)
    (h : Consumed x lost ret) : Consumed (nl ++ x) lost ret := by
  refine h.imp_right ?_
  rintro ⟨k, u, hlost, hprompted, hconsumes, hholds⟩
  refine ⟨k, u, hlost, hprompted, ?_, hholds⟩
  induction nl with
  | nil => exact hconsumes
  | cons c nl ih =>
      obtain ⟨hc, hnl⟩ := List.forall_mem_cons.mp hnl
      exact .newline hc (ih hnl)

/-- The call returns a line that is complete in the buffer, and what is behind it stays there. -/
theorem consumed_fullLine {buf : ℕ → UInt8} {cur : ℕ} {w v : List UInt8} {c : UInt8}
    {reads : List (List UInt8)} (h : Holds ⟨buf, cur⟩ (w ++ c :: v)) (hw : IsWord isEOL w)
    (hc : isEOL c = true) (hreads : Arrives reads) (lost : ℕ) :
    Consumed ((w ++ c :: v) ++ reads.flatten) lost
      (fullLine buf cur (cur + w.length) reads lost) := by
  obtain ⟨heol, hne, hrest⟩ := text_cons_iff.mp h.text.drop
  have hload := h.text.load_eq
  right
  refine ⟨0, v, rfl, decide_eq_false (heol.trans_ne hne), ?_, ⟨?_, ?_⟩, hreads⟩
  · have hline : load buf cur (cur + w.length - cur) = w := by
      rw [Nat.add_sub_cancel_left]
      rw [List.length_append, load_add] at hload
      exact (List.append_inj hload (length_load _ _ _)).1
    rw [List.append_assoc, List.cons_append]
    simp only [fullLine, hline]
    exact .line hw hc
  · exact hrest.store_of_lt (Nat.lt_succ_self _) 0
  · have hroom := h.room
    simp only [fullLine, List.length_append, List.length_cons] at hroom ⊢
    omega

/-- The buffer with what it holds searched for a line, from a call or its loop: it goes on with the
beginning of a line if none is complete. -/
theorem consumed_search {buf : ℕ → UInt8} {cur : ℕ} {u : List UInt8} {reads : List (List UInt8)}
    (h : Holds ⟨buf, cur⟩ u) (hreads : Arrives reads) {lost : ℕ} {next : ReadlineReturn}
    (hnext : ∀ v, (∀ c ∈ v, isEOL c = false) → Holds ⟨buf, skipNewlines buf cur⟩ v →
      skipNewlines buf cur + v.length = cur + u.length →
      Consumed (v ++ reads.flatten) lost next) :
    Consumed (u ++ reads.flatten) lost
      (match findNextEOL buf (skipNewlines buf cur) with
        | none => next
        | some eol => fullLine buf (skipNewlines buf cur) eol reads lost) := by
  obtain ⟨nl, v, rfl, hnl, hv, hcur, htext⟩ := skipNewlines_spec h.text h.room
  have hroom := h.room
  simp only [List.length_append] at hroom hnext
  have hsum : skipNewlines buf cur + v.length = cur + (nl.length + v.length) := by
    rw [hcur, Nat.add_assoc]
  rw [← hcur] at htext
  rw [List.append_assoc]
  refine Consumed.newlines hnl ?_
  rcases findNextEOL_spec htext (hsum ▸ hroom) with
    ⟨eol, hfound, hzero, hprompt⟩ | ⟨hfound, hnone⟩ | ⟨w, c, rest, rfl, hw, hc, hfound⟩
  · rw [hfound]
    exact .inl ⟨decide_eq_true hzero, congrArg some hprompt⟩
  · rw [hfound]
    exact hnext v hnone ⟨htext, hsum ▸ hroom⟩ hsum
  · have hne : w ≠ [] := by
      rintro rfl
      exact absurd (hv c rfl) (Bool.not_eq_false _ ▸ hc)
    rw [hfound]
    exact consumed_fullLine ⟨htext, hsum ▸ hroom⟩ ⟨hne, hw⟩ hc hreads lost

theorem Consumed.thrown {w : List UInt8} (hw : ∀ c ∈ w, isEOL c = false)
    (h : Consumed x (if x.any isEOL then lost + w.length else lost) ret) :
    Consumed (w ++ x) lost ret := by
  refine h.imp_right ?_
  rintro ⟨k, u, hlost, hprompted, hconsumes, hholds⟩
  refine ⟨_, u, ?_, hprompted, .thrown hw hconsumes, hholds⟩
  rw [hlost]
  split_ifs
  · exact Nat.add_assoc _ _ _
  · rw [Nat.zero_add]

/-- A `read` takes something, and what it leaves arrives later. -/
theorem take_spec {space : ℕ} (hspace : 0 < space) {chunk : List UInt8} {rest : List (List UInt8)}
    (h : Arrives (chunk :: rest)) :
    chunk.take space ≠ [] ∧ (∀ c ∈ chunk.take space, c ≠ 0) ∧ Arrives (take space chunk rest) ∧
      chunk.take space ++ (take space chunk rest).flatten = (chunk :: rest).flatten := by
  obtain ⟨⟨hne, hzero⟩, hrest⟩ := List.forall_mem_cons.mp h
  refine ⟨?_, fun c hc => hzero c (List.mem_of_mem_take hc), ?_, ?_⟩
  · rw [Ne, List.take_eq_nil_iff, not_or]
    exact ⟨Nat.ne_of_gt hspace, hne⟩
  · rw [take]
    split_ifs with hle
    · exact hrest
    · refine List.forall_mem_cons.mpr ⟨⟨?_, fun c hc => hzero c (List.mem_of_mem_drop hc)⟩, hrest⟩
      rw [Ne, List.drop_eq_nil_iff]
      exact hle
  · rw [take, List.flatten_cons]
    split_ifs with hle
    · rw [List.take_of_length_le hle]
    · rw [List.flatten_cons, ← List.append_assoc, List.take_append_drop]

theorem holds_ditch (r : Reader) : Holds (ditch r) [] :=
  ⟨text_nil_iff.mpr (store_at r.ATBuffer 0 0), Nat.zero_le _⟩

/-- The loop reads until a line is complete or nothing more comes. -/
theorem consumed_readLoop {fuel : ℕ} {r : Reader} {p_read : ℕ} {u : List UInt8}
    {reads : List (List UInt8)} (h : Holds r u) (hu : ∀ c ∈ u, isEOL c = false)
    (hp : p_read = r.ATBufferCur + u.length) (hreads : Arrives reads)
    (hfuel : reads.flatten.length < fuel) (lost : ℕ) :
    Consumed (u ++ reads.flatten) lost (readLoop fuel r p_read reads lost) := by
  induction fuel generalizing r p_read u reads lost with
  | zero => exact absurd hfuel (Nat.not_lt_zero _)
  | succ fuel ih =>
      -- a turn with room in the buffer
      have hmore : ∀ (r : Reader) (p_read : ℕ) (u : List UInt8) (lost : ℕ), Holds r u →
          (∀ c ∈ u, isEOL c = false) → p_read = r.ATBufferCur + u.length →
          p_read < maxAtResponse → Consumed (u ++ reads.flatten) lost
            (readMore (fun r p_read reads => readLoop fuel r p_read reads lost) r p_read lost
              reads) := by
        intro r p_read u lost h hu hp hlt
        cases reads with
        | nil =>
            right
            refine ⟨0, u, rfl, rfl, ?_, h, hreads⟩
            simp only [readMore, List.flatten_nil, List.append_nil]
            exact .rest hu
        | cons chunk rest =>
            obtain ⟨hne, hzero, harrives, hflatten⟩ := take_spec (Nat.sub_pos_of_lt hlt) hreads
            have hlength := congrArg List.length hflatten
            rw [List.length_append] at hlength
            have hpos := List.length_pos_iff.mpr hne
            have hgot : (chunk.take (maxAtResponse - p_read)).length ≤ maxAtResponse - p_read :=
              List.length_take_le _ _
            have hholds : Holds ⟨store r.ATBuffer p_read
                (chunk.take (maxAtResponse - p_read) ++ [0]), r.ATBufferCur⟩
                (u ++ chunk.take (maxAtResponse - p_read)) := by
              have htext := h.text.append hzero
              rw [← hp] at htext
              refine ⟨htext, ?_⟩
              simp only [List.length_append]
              omega
            simp only [readMore, if_neg hne]
            rw [← hflatten, ← List.append_assoc]
            refine consumed_search hholds harrives fun v hv hnext hsum => ?_
            refine ih hnext hv ?_ harrives (by omega) lost
            rw [hsum, List.length_append, ← Nat.add_assoc, ← hp]
      have hroom := h.room
      rw [readLoop]
      by_cases hfull : p_read = maxAtResponse
      · have hlength : p_read - r.ATBufferCur = u.length := by omega
        rw [if_pos hfull, hlength]
        exact (hmore (ditch r) 0 [] _ (holds_ditch r) (List.forall_mem_nil _) rfl
          (by decide)).thrown hu
      · rw [if_neg hfull]
        exact hmore r p_read u lost h hu hp (by omega)

/-- `strlen` of what the buffer holds. -/
theorem seek_end {buf : ℕ → UInt8} {cur : ℕ} {v : List UInt8} (h : Holds ⟨buf, cur⟩ v) :
    seek (· = 0) buf (maxAtResponse + 1) cur - cur = v.length := by
  have hall : ∀ c ∈ v, (!decide (c = 0)) = true := fun c hc => by
    rw [decide_eq_false (h.text.ne_zero c hc)]
    rfl
  have hroom := h.room
  rw [seek_eq (by rfl) h.text (by simp only at hroom; omega), List.takeWhile_eq_self_iff.mpr hall,
    Nat.add_sub_cancel_left]

/-- A call consumes what is in the buffer and what has still to be read. -/
theorem consumed_readline {r : Reader} {u : List UInt8} {reads : List (List UInt8)}
    (h : Holds r u) (hreads : Arrives reads) :
    Consumed (u ++ reads.flatten) 0 (readline r reads) := by
  rw [readline]
  by_cases hempty : r.ATBuffer r.ATBufferCur = 0
  · have hnil : u = [] := by
      cases u with
      | nil => rfl
      | cons c u =>
          obtain ⟨hc, hne, -⟩ := text_cons_iff.mp h.text
          exact absurd (hc.symm.trans hempty) hne
    rw [if_pos hempty, hnil]
    exact consumed_readLoop (holds_ditch r) (List.forall_mem_nil _) rfl hreads
      (Nat.lt_succ_self _) 0
  · rw [if_neg hempty]
    refine consumed_search h hreads fun v hv hnext _ => ?_
    have hlen := seek_end hnext
    have hmoved : Holds ⟨store r.ATBuffer 0
        (load r.ATBuffer (skipNewlines r.ATBuffer r.ATBufferCur) (v.length + 1)), 0⟩ v := by
      have hroom := hnext.room
      refine ⟨hnext.text.copy 0, ?_⟩
      simp only at hroom ⊢
      omega
    rw [hlen]
    exact consumed_readLoop hmoved hv (Nat.zero_add _).symm hreads (Nat.lt_succ_self _) 0

end Consuming

section Lines

/-- The non-empty lines of what the modem sends, in order. -/
def lines (x : List UInt8) : List (List UInt8) := completed isEOL x

/-- A call that throws nothing away of a line that ends later takes the first line. -/
theorem Consumes.lines_eq {x y : List UInt8} {line : Option (List UInt8)}
    (h : Consumes x 0 line y) : lines x = line.elim [] (· :: lines y) := by
  generalize hk : 0 = k at h
  induction h with
  | newline hc h ih => exact (completed_cons _ hc).trans (ih hk)
  | @thrown w x y k line hw h ih =>
      obtain ⟨hnone, hk⟩ := Nat.add_eq_zero_iff.mp hk.symm
      rw [← ih hk.symm]
      by_cases hany : x.any isEOL = true
      · rw [if_pos hany] at hnone
        rw [List.length_eq_zero_iff.mp hnone, List.nil_append]
      · have hx : ∀ c ∈ x, isEOL c = false := fun c hc =>
          Bool.eq_false_iff.mpr fun hc' => hany (List.any_eq_true.mpr ⟨c, hc, hc'⟩)
        exact (completed_of_forall fun c hc => (List.mem_append.mp hc).elim (hw c) (hx c)).trans
          (completed_of_forall hx).symm
  | line hw hc => exact completed_word_append hw hc _
  | rest hw => exact completed_of_forall hw

/-- Nothing is in the lines twice: what was thrown away, the line that is taken, and the lines that
are left. -/
theorem Consumes.size_le {x y : List UInt8} {k : ℕ} {line : Option (List UInt8)}
    (h : Consumes x k line y) :
    k + line.elim 0 (fun line => line.length + completedSize isEOL y) ≤ completedSize isEOL x := by
  induction h with
  | newline hc h ih => rwa [completedSize_cons _ hc]
  | thrown hw h ih =>
      rw [completedSize_append hw, Nat.add_assoc]
      exact Nat.add_le_add_left ih _
  | line hw hc =>
      rw [completedSize_append_cons hw.2 hc, Nat.zero_add]
      exact Nat.le_refl _
  | rest hw => exact Nat.zero_le _

theorem readlines_of_none {r : Reader} {reads : List (List UInt8)}
    (h : (readline r reads).line = none) (n : ℕ) :
    readlines (n + 1) r reads = ⟨[], (readline r reads).lost, (readline r reads).prompted⟩ := by
  rw [readlines]
  simp only [h]

theorem readlines_of_some {r : Reader} {reads : List (List UInt8)} {line : List UInt8}
    (h : (readline r reads).line = some line) (n : ℕ) :
    readlines (n + 1) r reads =
      ⟨line :: (readlines n (readline r reads).reader (readline r reads).reads).lines,
        (readline r reads).lost +
          (readlines n (readline r reads).reader (readline r reads).reads).lost,
        (readline r reads).prompted ||
          (readlines n (readline r reads).reader (readline r reads).reads).prompted⟩ := by
  rw [readlines]
  simp only [h]

/-- Calls that lose nothing and take no line for the prompt return the lines. -/
theorem lines_readlines {n : ℕ} {r : Reader} {u : List UInt8} {reads : List (List UInt8)}
    (h : Holds r u) (hreads : Arrives reads) (hlost : (readlines n r reads).lost = 0)
    (hprompted : (readlines n r reads).prompted = false) :
    (readlines n r reads).lines = (lines (u ++ reads.flatten)).take n := by
  induction n generalizing r u reads with
  | zero => rfl
  | succ n ih =>
      obtain ⟨htrue, hline⟩ | ⟨k, v, hk, -, hconsumes, hholds, harrives⟩ :=
        consumed_readline h hreads
      · rw [readlines_of_some hline, htrue, Bool.true_or] at hprompted
        exact Bool.noConfusion hprompted
      · cases hline : (readline r reads).line with
        | none =>
            rw [readlines_of_none hline] at hlost ⊢
            obtain rfl : k = 0 := (Nat.zero_add k).symm.trans (hk.symm.trans hlost)
            rw [hconsumes.lines_eq, hline]
            rfl
        | some line =>
            rw [readlines_of_some hline] at hlost hprompted ⊢
            obtain ⟨hfirst, hrest⟩ := Nat.add_eq_zero_iff.mp hlost
            obtain rfl : k = 0 := (Nat.zero_add k).symm.trans (hk.symm.trans hfirst)
            have hlines := ih hholds harrives hrest (Bool.or_eq_false_iff.mp hprompted).2
            rw [hconsumes.lines_eq, hline, Option.elim_some, List.take_succ_cons, ← hlines]

/-- Calls that do not return a prompt account for what they have lost. -/
theorem size_readlines_le {n : ℕ} {r : Reader} {u : List UInt8} {reads : List (List UInt8)}
    (h : Holds r u) (hreads : Arrives reads)
    (hprompt : smsPrompt ∉ (readlines n r reads).lines) :
    (readlines n r reads).prompted = false ∧
      (readlines n r reads).lost + ((readlines n r reads).lines.map List.length).sum ≤
        completedSize isEOL (u ++ reads.flatten) := by
  induction n generalizing r u reads with
  | zero => exact ⟨rfl, Nat.zero_le _⟩
  | succ n ih =>
      obtain ⟨-, hline⟩ | ⟨k, v, hk, hfalse, hconsumes, hholds, harrives⟩ :=
        consumed_readline h hreads
      · rw [readlines_of_some hline] at hprompt
        exact absurd (List.mem_cons_self ..) hprompt
      · have hsize := hconsumes.size_le
        rw [Nat.zero_add] at hk
        cases hline : (readline r reads).line with
        | none =>
            rw [readlines_of_none hline]
            rw [hline, Option.elim_none, Nat.add_zero] at hsize
            exact ⟨hfalse, hk ▸ hsize⟩
        | some line =>
            rw [readlines_of_some hline] at hprompt ⊢
            obtain ⟨hrest, hle⟩ := ih hholds harrives fun hmem =>
              hprompt (List.mem_cons_of_mem _ hmem)
            rw [hline, Option.elim_some] at hsize
            refine ⟨Bool.or_eq_false_iff.mpr ⟨hfalse, hrest⟩, ?_⟩
            simp only [List.map_cons, List.sum_cons, hk]
            omega

/-- More calls lose more. -/
theorem lost_readlines_le {n m : ℕ} (hnm : n ≤ m) (r : Reader) (reads : List (List UInt8)) :
    (readlines n r reads).lost ≤ (readlines m r reads).lost := by
  induction n generalizing m r reads with
  | zero => exact Nat.zero_le _
  | succ n ih =>
      obtain ⟨m, rfl⟩ := Nat.exists_eq_add_one_of_ne_zero (Nat.ne_zero_of_lt hnm)
      simp only [readlines]
      cases (readline r reads).line with
      | none => exact Nat.le_refl _
      | some line => exact Nat.add_le_add_left (ih (Nat.le_of_succ_le_succ hnm) _ _) _

/-- What arrives from the modem in pieces. None of its lines is the prompt. -/
structure Input where
  reads : List (List UInt8)
  arrives : Arrives reads
  unprompted : smsPrompt ∉ lines reads.flatten

/-- Successive calls return the lines, in order. -/
def ReadsLines (input : Input) : Prop :=
  ∀ n, (readlines n opened input.reads).lines = (lines input.reads.flatten).take n

/-- No call throws the beginning of a line away that ends later, and none takes a line for the
prompt. -/
def NothingLost (input : Input) : Prop :=
  ∀ n, (readlines n opened input.reads).lost = 0 ∧
    (readlines n opened input.reads).prompted = false

theorem holds_opened : Holds opened [] := ⟨text_nil_iff.mpr rfl, Nat.zero_le _⟩

/-- A text without line ends that is not the prompt has no end of a line. -/
theorem findNextEOL_eq_none {buf : ℕ → UInt8} {cur : ℕ} {v : List UInt8} (h : Text buf cur v)
    (hroom : cur + v.length ≤ maxAtResponse) (hv : ∀ c ∈ v, isEOL c = false)
    (hprompt : v ≠ smsPrompt) : findNextEOL buf cur = none := by
  obtain ⟨eol, -, hzero, hload⟩ | ⟨hnone, -⟩ | ⟨w, c, rest, rfl, -, hc, -⟩ :=
    findNextEOL_spec h hroom
  · have hlength := congrArg List.length hload
    rw [length_load] at hlength
    have hprompted : Text buf cur smsPrompt := by
      refine ⟨?_, ?_, List.forall_mem_cons.mpr
        ⟨by decide, List.forall_mem_singleton.mpr (by decide)⟩⟩
      · rw [← hlength, hload]
      · have hle : cur ≤ eol := by
          simp only [smsPrompt, List.length_cons] at hlength
          omega
        rw [← hlength, Nat.add_sub_cancel' hle, hzero]
    exact absurd (h.unique hprompted) hprompt
  · exact hnone
  · exact absurd hc (Bool.not_eq_true _ ▸ hv c (List.mem_append_right _ (List.mem_cons_self ..)))

/-- A piece that only begins a line is put into the empty buffer, and the loop goes on. -/
theorem readMore_of_begun (next : Reader → ℕ → List (List UInt8) → ReadlineReturn) {r : Reader}
    {nl v : List UInt8} (hnl : ∀ c ∈ nl, isEOL c = true) (hv : ∀ c ∈ v, isEOL c = false)
    (hprompt : v ≠ smsPrompt) (hne : nl ++ v ≠ []) (hzero : ∀ c ∈ nl ++ v, c ≠ 0)
    (hfits : r.ATBufferCur + (nl ++ v).length ≤ maxAtResponse) (lost : ℕ)
    (rest : List (List UInt8)) :
    ∃ buf, readMore next r r.ATBufferCur lost ((nl ++ v) :: rest) =
      next ⟨buf, r.ATBufferCur + nl.length⟩ (r.ATBufferCur + (nl ++ v).length) rest := by
  have htext := text_store r.ATBuffer r.ATBufferCur hzero
  have hspace : (nl ++ v).length ≤ maxAtResponse - r.ATBufferCur := Nat.le_sub_of_add_le' hfits
  have hskip : skipNewlines (store r.ATBuffer r.ATBufferCur (nl ++ v ++ [0])) r.ATBufferCur =
      r.ATBufferCur + nl.length := by
    have hhead : v.takeWhile isEOL = [] := by
      cases v with
      | nil => rfl
      | cons c v => rw [List.takeWhile_cons, hv c (List.mem_cons_self ..), if_neg Bool.false_ne_true]
    rw [skipNewlines, seek_eq (by rfl) htext (by omega)]
    simp only [Bool.not_not]
    rw [List.takeWhile_append_of_pos hnl, hhead, List.append_nil]
  have hnone : findNextEOL (store r.ATBuffer r.ATBufferCur (nl ++ v ++ [0]))
      (r.ATBufferCur + nl.length) = none := by
    rw [List.length_append, ← Nat.add_assoc] at hfits
    exact findNextEOL_eq_none htext.drop hfits hv hprompt
  refine ⟨store r.ATBuffer r.ATBufferCur (nl ++ v ++ [0]), ?_⟩
  simp only [readMore, List.take_of_length_le hspace, take, if_pos hspace, if_neg hne, hskip, hnone]

theorem line_readLoop_nil (fuel : ℕ) (r : Reader) (p_read lost : ℕ) :
    (readLoop fuel r p_read [] lost).line = none := by
  cases fuel with
  | zero => rfl
  | succ fuel =>
      rw [readLoop]
      split_ifs <;> rfl

theorem lines_newlines {nl : List UInt8} (hnl : ∀ c ∈ nl, isEOL c = true) (x : List UInt8) :
    lines (nl ++ x) = lines x := by
  induction nl with
  | nil => rfl
  | cons c nl ih =>
      obtain ⟨hc, hnl⟩ := List.forall_mem_cons.mp hnl
      exact (completed_cons _ hc).trans (ih hnl)

/-- Line ends fill the buffer, but for the beginning of a line, whose end comes later. -/
theorem readline_flooded {nl w : List UInt8} (hnl : ∀ c ∈ nl, isEOL c = true)
    (hw : ∀ c ∈ w, isEOL c = false) (hprompt : w ≠ smsPrompt) (hzero : ∀ c ∈ nl ++ w, c ≠ 0)
    (hlength : (nl ++ w).length = maxAtResponse) :
    (readline opened [nl ++ w, [10]]).line = none := by
  have hempty : opened.ATBuffer opened.ATBufferCur = 0 := rfl
  have hspace : ¬ 0 = maxAtResponse := by decide
  have hne : nl ++ w ≠ [] := by
    intro hnil
    rw [hnil] at hlength
    exact hspace hlength
  have hfuel : [nl ++ w, [10]].flatten.length = maxAtResponse + 1 := by
    rw [List.flatten_cons, List.length_append, hlength]
    rfl
  have hfull : (ditch opened).ATBufferCur + (nl ++ w).length = maxAtResponse := by
    rw [hlength]
    exact Nat.zero_add maxAtResponse
  -- the first piece fills the buffer, and the second one finds it thrown away
  obtain ⟨buf, hfirst⟩ := readMore_of_begun
    (fun r p_read reads => readLoop (maxAtResponse + 1) r p_read reads 0) hnl hw hprompt hne hzero
    (Nat.le_of_eq hfull) 0 [[10]]
  rw [readline, if_pos hempty, hfuel, readLoop, if_neg hspace]
  refine (congrArg ReadlineReturn.line hfirst).trans ?_
  rw [hfull, readLoop, if_pos rfl]
  let r := ditch ⟨buf, (ditch opened).ATBufferCur + nl.length⟩
  have hone : r.ATBufferCur + ([10] ++ ([] : List UInt8)).length ≤ maxAtResponse :=
    show 0 + 1 ≤ maxAtResponse from by decide
  have hend : ∀ c ∈ ([10] : List UInt8), isEOL c = true := List.forall_mem_singleton.mpr rfl
  have hendZero : ∀ c ∈ [10] ++ ([] : List UInt8), c ≠ 0 :=
    List.forall_mem_singleton.mpr (by decide)
  let lost := if [[10]].flatten.any isEOL then
    0 + (maxAtResponse - ((ditch opened).ATBufferCur + nl.length)) else 0
  obtain ⟨buf', hsecond⟩ := readMore_of_begun
    (fun r p_read reads => readLoop maxAtResponse r p_read reads lost) hend (List.forall_mem_nil _)
    (by decide) (by decide) hendZero hone lost []
  exact (congrArg ReadlineReturn.line hsecond).trans (line_readLoop_nil _ _ _ _)

/-- Line ends that fill the buffer but for one character, the line `A`, and its end. -/
def floodedReads : List (List UInt8) := [List.replicate 8191 10 ++ [65], [10]]

end Lines

end AtReader

end Ril

end SierraSdk
