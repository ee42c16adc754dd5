import Mathlib.Data.List.Basic
import Mathlib.Data.Nat.Basic
import SierraSdk.Library.Machine

/-!
# Byte stuffing and deframing

A framing alphabet has a flag that begins and ends a frame, an escape, and a mask that
takes either of the two to an ordinary symbol and back. `stuff` replaces a flag or an
escape in the data by the escape and the masked symbol, so that no flag remains; `decode`
undoes it one symbol at a time and fails on an escape that is followed by a flag or by
another escape.

The deframer hunts for a flag, decodes what follows it, and hands over the decoded symbols
at the next flag, or as soon as there are more than `limit` of them. After an illegal
escape, and after each packet, it hunts for a flag again. Its state is determined by the
symbols since the flag that opened the current frame (`Framed`), so a packet is always the
decoding of its own frame (`feed_own`).
-/

namespace Framing

variable {α : Type*}

/-- A framing alphabet. The mask is an involution and takes the two special symbols out
of the special symbols. -/
structure Alphabet (α : Type*) where
  flag : α
  esc : α
  mask : α → α
  mask_mask : ∀ b, mask (mask b) = b
  flag_ne_esc : flag ≠ esc
  mask_flag_ordinary : mask flag ≠ flag ∧ mask flag ≠ esc
  mask_esc_ordinary : mask esc ≠ flag ∧ mask esc ≠ esc

namespace Alphabet

variable (a : Alphabet α)

/-- The flag and the escape are the special symbols. -/
def Special (b : α) : Prop := b = a.flag ∨ b = a.esc

instance [DecidableEq α] (b : α) : Decidable (a.Special b) :=
  inferInstanceAs (Decidable (_ ∨ _))

theorem mask_not_special {b : α} (h : a.Special b) : ¬ a.Special (a.mask b) := by
  rcases h with rfl | rfl
  · exact fun h => h.elim a.mask_flag_ordinary.1 a.mask_flag_ordinary.2
  · exact fun h => h.elim a.mask_esc_ordinary.1 a.mask_esc_ordinary.2

end Alphabet

section Stuffing

variable [DecidableEq α] (a : Alphabet α)

/-- A special symbol becomes the escape and the masked symbol. -/
def stuffOne (b : α) : List α :=
  if a.Special b then [a.esc, a.mask b] else [b]

/-- The stuffed form of a list of symbols. -/
def stuff (bs : List α) : List α := bs.flatMap (stuffOne a)

/-- The flag, the stuffed symbols, and the flag. -/
def frame (bs : List α) : List α := a.flag :: stuff a bs ++ [a.flag]

@[simp] theorem stuff_nil : stuff a [] = [] := rfl

@[simp] theorem stuff_cons (b : α) (bs : List α) :
    stuff a (b :: bs) = stuffOne a b ++ stuff a bs := rfl

theorem stuffOne_of_special {b : α} (h : a.Special b) :
    stuffOne a b = [a.esc, a.mask b] := if_pos h

theorem stuffOne_of_not_special {b : α} (h : ¬ a.Special b) : stuffOne a b = [b] := if_neg h

theorem flag_notMem_stuffOne (b : α) : a.flag ∉ stuffOne a b := by
  by_cases h : a.Special b
  · rw [stuffOne_of_special a h]
    have hmask : ¬ a.Special (a.mask b) := a.mask_not_special h
    intro hmem
    rcases List.mem_cons.mp hmem with h | h
    · exact a.flag_ne_esc h
    · exact hmask (.inl (List.mem_singleton.mp h).symm)
  · rw [stuffOne_of_not_special a h, List.mem_singleton]
    exact fun hb => h (.inl hb.symm)

/-- Stuffed symbols contain no flag. -/
theorem flag_notMem_stuff (bs : List α) : a.flag ∉ stuff a bs := by
  simp only [stuff, List.mem_flatMap, not_exists, not_and]
  exact fun b _ => flag_notMem_stuffOne a b

/-- Stuffing adds one symbol for every special one. -/
theorem length_stuff (bs : List α) :
    (stuff a bs).length = bs.length + bs.countP (fun b => a.Special b) := by
  induction bs with
  | nil => rfl
  | cons b bs ih =>
      rw [stuff_cons, List.length_append, ih, List.countP_cons, List.length_cons]
      by_cases h : a.Special b
      · rw [stuffOne_of_special a h]
        simp [h]
        omega
      · rw [stuffOne_of_not_special a h]
        simp [h]
        omega

theorem length_frame (bs : List α) :
    (frame a bs).length = bs.length + bs.countP (fun b => a.Special b) + 2 := by
  rw [frame, List.length_append, List.length_cons, length_stuff, List.length_singleton]

theorem length_frame_le (bs : List α) : (frame a bs).length ≤ 2 * bs.length + 2 := by
  have hcount : bs.countP (fun b => a.Special b) ≤ bs.length := List.countP_le_length
  rw [length_frame]
  omega

end Stuffing

section Decoding

variable [DecidableEq α] (a : Alphabet α)

/-- A partly decoded frame: the decoded symbols, and whether the last symbol was an
escape. -/
structure Partial (α : Type*) where
  out : List α
  escaped : Bool
  deriving DecidableEq

/-- Nothing decoded yet. -/
def Partial.empty : Partial α := ⟨[], false⟩

/-- Decode one more symbol; a special symbol after an escape is illegal. -/
def absorb (p : Partial α) (b : α) : Option (Partial α) :=
  if p.escaped then
    if a.Special b then none else some ⟨p.out ++ [a.mask b], false⟩
  else if b = a.esc then some ⟨p.out, true⟩
  else some ⟨p.out ++ [b], false⟩

/-- Decode the symbols one at a time. -/
def decode : Partial α → List α → Option (Partial α)
  | p, [] => some p
  | p, b :: bs => (absorb a p b).bind fun q => decode q bs

@[simp] theorem decode_nil (p : Partial α) : decode a p [] = some p := rfl

theorem decode_cons (p : Partial α) (b : α) (bs : List α) :
    decode a p (b :: bs) = (absorb a p b).bind fun q => decode a q bs := rfl

theorem decode_append (p : Partial α) (bs cs : List α) :
    decode a p (bs ++ cs) = (decode a p bs).bind fun q => decode a q cs := by
  induction bs generalizing p with
  | nil => rfl
  | cons b bs ih =>
      rw [List.cons_append, decode_cons, decode_cons]
      cases absorb a p b with
      | none => rfl
      | some q => exact ih q

theorem decode_concat (p : Partial α) (bs : List α) (b : α) :
    decode a p (bs ++ [b]) = (decode a p bs).bind fun q => absorb a q b := by
  rw [decode_append]
  congr 1
  funext q
  rw [decode_cons]
  cases absorb a q b <;> rfl

theorem decode_stuffOne (out : List α) (b : α) :
    decode a ⟨out, false⟩ (stuffOne a b) = some ⟨out ++ [b], false⟩ := by
  by_cases h : a.Special b
  · have hmask : ¬ a.Special (a.mask b) := a.mask_not_special h
    simp [stuffOne_of_special a h, decode, absorb, hmask, a.mask_mask]
  · have hesc : b ≠ a.esc := fun hb => h (.inr hb)
    simp [stuffOne_of_not_special a h, decode, absorb, hesc]

/-- Decoding undoes stuffing. -/
theorem decode_stuff (out bs : List α) :
    decode a ⟨out, false⟩ (stuff a bs) = some ⟨out ++ bs, false⟩ := by
  induction bs generalizing out with
  | nil => simp
  | cons b bs ih =>
      rw [stuff_cons, decode_append, decode_stuffOne, Option.bind_some, ih, List.append_assoc,
        List.singleton_append]

/-- Decoding lengthens the decoded symbols by at most one for each symbol read. -/
theorem length_absorb_le {p q : Partial α} {b : α} (h : absorb a p b = some q) :
    p.out.length ≤ q.out.length ∧ q.out.length ≤ p.out.length + 1 := by
  unfold absorb at h
  split_ifs at h
  · obtain rfl := Option.some.inj h
    simp
  · obtain rfl := Option.some.inj h
    simp
  · obtain rfl := Option.some.inj h
    simp

theorem length_le_of_decode {p q : Partial α} {bs : List α} (h : decode a p bs = some q) :
    p.out.length ≤ q.out.length := by
  induction bs generalizing p with
  | nil =>
      obtain rfl := Option.some.inj h
      exact le_rfl
  | cons b bs ih =>
      rw [decode_cons, Option.bind_eq_some_iff] at h
      obtain ⟨r, hr, hq⟩ := h
      exact Nat.le_trans (length_absorb_le a hr).1 (ih hq)

/-- A step that lengthens the decoded symbols does not end in an escape. -/
theorem not_escaped_of_length_lt {p q : Partial α} {b : α} (h : absorb a p b = some q)
    (hlt : p.out.length < q.out.length) : q.escaped = false := by
  unfold absorb at h
  split_ifs at h
  · obtain rfl := Option.some.inj h
    rfl
  · obtain rfl := Option.some.inj h
    exact absurd hlt (lt_irrefl _)
  · obtain rfl := Option.some.inj h
    rfl

end Decoding

section Deframing

variable [DecidableEq α] (a : Alphabet α) (limit : ℕ)

/-- A deframer hunts for a flag, or has met one and collects the frame it opens. -/
inductive Deframer (α : Type*) where
  | hunting
  | collecting (p : Partial α)
  deriving DecidableEq

/-- Read one symbol. A flag hands over what was collected, unless it is empty; more than
`limit` decoded symbols are handed over at once. -/
def feed : Deframer α → α → Deframer α × List (List α)
  | .hunting, b =>
      if b = a.flag then (.collecting .empty, []) else (.hunting, [])
  | .collecting p, b =>
      if b = a.flag then
        if p.escaped then (.hunting, [])
        else if p.out = [] then (.collecting .empty, [])
        else (.hunting, [p.out])
      else
        match absorb a p b with
        | none => (.hunting, [])
        | some q => if limit < q.out.length then (.hunting, [q.out]) else (.collecting q, [])

/-- What the state says about the symbols read so far: the frame being collected was
opened by the last flag, and the collected symbols are its decoding. -/
def Framed : Deframer α → List α → Prop
  | .hunting, _ => True
  | .collecting p, s =>
      ∃ pre body, s = pre ++ a.flag :: body ∧ a.flag ∉ body ∧
        decode a .empty body = some p ∧ p.out.length ≤ limit

/-- The packet handed over at the symbol `b` after the symbols `s` is the decoding of the
symbols since the last flag of `s`: all of them if `b` is the closing flag, and otherwise
the first of them that exceed the limit. -/
def Own (s : List α) (b : α) (pkt : List α) : Prop :=
  ∃ pre body, s = pre ++ a.flag :: body ∧ a.flag ∉ body ∧
    (b = a.flag ∧ decode a .empty body = some ⟨pkt, false⟩ ∨
      b ≠ a.flag ∧ decode a .empty (body ++ [b]) = some ⟨pkt, false⟩ ∧ limit < pkt.length)

variable {a limit}

omit [DecidableEq α] in
/-- The symbols since the last flag are determined by the symbols read. -/
theorem since_flag_unique {pre pre' body body' : List α} (hbody : a.flag ∉ body)
    (hbody' : a.flag ∉ body') (h : pre ++ a.flag :: body = pre' ++ a.flag :: body') :
    body = body' := by
  rcases List.append_eq_append_iff.mp h with ⟨as, -, h⟩ | ⟨as, -, h⟩
  · cases as with
    | nil => exact (List.cons.inj h).2
    | cons c as =>
        rw [List.cons_append] at h
        rw [(List.cons.inj h).2] at hbody
        exact absurd (List.mem_append_right as List.mem_cons_self) hbody
  · cases as with
    | nil => exact (List.cons.inj h).2.symm
    | cons c as =>
        rw [List.cons_append] at h
        rw [(List.cons.inj h).2] at hbody'
        exact absurd (List.mem_append_right as List.mem_cons_self) hbody'

/-- The flag at the end of the symbols read opens an empty frame. -/
theorem framed_opened (s : List α) :
    Framed a limit (.collecting .empty) (s ++ [a.flag]) :=
  ⟨s, [], rfl, List.not_mem_nil, rfl, Nat.zero_le _⟩

/-- One symbol keeps the relation between the state and the symbols read. -/
theorem framed_feed {d : Deframer α} {s : List α} (h : Framed a limit d s) (b : α) :
    Framed a limit (feed a limit d b).1 (s ++ [b]) := by
  cases d with
  | hunting =>
      by_cases hb : b = a.flag
      · subst hb
        simpa [feed] using framed_opened s
      · simp [feed, hb, Framed]
  | collecting p =>
      obtain ⟨pre, body, rfl, hbody, hdec, hlen⟩ := h
      by_cases hb : b = a.flag
      · subst hb
        simp only [feed, if_true]
        split_ifs
        · trivial
        · exact framed_opened _
        · trivial
      · simp only [feed, if_neg hb]
        cases habs : absorb a p b with
        | none => trivial
        | some q =>
            dsimp only
            split_ifs with hlim
            · trivial
            · refine ⟨pre, body ++ [b], by simp, ?_, ?_, Nat.le_of_not_lt hlim⟩
              · simp [hbody, Ne.symm hb]
              · rw [decode_concat, hdec]
                exact habs

theorem framed_after {d : Deframer α} {s : List α} (h : Framed a limit d s) (bs : List α) :
    Framed a limit (Machine.after (feed a limit) d bs) (s ++ bs) := by
  induction bs generalizing d s with
  | nil => simpa using h
  | cons b bs ih =>
      have hnext := ih (framed_feed h b)
      rwa [List.append_assoc, List.singleton_append] at hnext

/-- Every packet is the decoding of its own frame. -/
theorem feed_own {d : Deframer α} {s : List α} (h : Framed a limit d s) {b : α}
    {pkt : List α} (hpkt : pkt ∈ (feed a limit d b).2) : Own a limit s b pkt := by
  cases d with
  | hunting =>
      by_cases hb : b = a.flag <;> simp [feed, hb] at hpkt
  | collecting p =>
      obtain ⟨pre, body, rfl, hbody, hdec, hlen⟩ := h
      refine ⟨pre, body, rfl, hbody, ?_⟩
      by_cases hb : b = a.flag
      · simp only [feed, if_pos hb] at hpkt
        split_ifs at hpkt with hesc hout
        · exact absurd hpkt List.not_mem_nil
        · exact absurd hpkt List.not_mem_nil
        · obtain rfl := List.mem_singleton.mp hpkt
          refine .inl ⟨hb, ?_⟩
          rw [hdec]
          simp only [Bool.not_eq_true] at hesc
          rw [← hesc]
      · simp only [feed, if_neg hb] at hpkt
        cases habs : absorb a p b with
        | none => simp [habs] at hpkt
        | some q =>
            simp only [habs] at hpkt
            split_ifs at hpkt with hlim
            · obtain rfl := List.mem_singleton.mp hpkt
              have hesc : q.escaped = false :=
                not_escaped_of_length_lt a habs (Nat.lt_of_le_of_lt hlen hlim)
              refine .inr ⟨hb, ?_, hlim⟩
              rw [decode_concat, hdec, Option.bind_some, habs, ← hesc]
            · exact absurd hpkt List.not_mem_nil

/-- No special symbol follows an escape. -/
def Legal (a : Alphabet α) : Deframer α → α → Prop
  | .hunting, _ => True
  | .collecting p, b => p.escaped = true → ¬ a.Special b

/-- A packet whose frame is known is the decoding of that frame. -/
theorem Own.decode_eq {pre body pkt : List α} {b : α} (hbody : a.flag ∉ body)
    (h : Own a limit (pre ++ a.flag :: body) b pkt) :
    decode a .empty (if b = a.flag then body else body ++ [b]) = some ⟨pkt, false⟩ := by
  obtain ⟨pre', body', hsplit, hbody', hdec⟩ := h
  obtain rfl := since_flag_unique hbody hbody' hsplit
  rcases hdec with ⟨hb, hdec⟩ | ⟨hb, hdec, -⟩
  · rw [if_pos hb, hdec]
  · rw [if_neg hb, hdec]

/-- Symbols that decode and do not exceed the limit are collected without an output. -/
theorem collect_body {p q : Partial α} {body : List α} (hbody : a.flag ∉ body)
    (hdec : decode a p body = some q) (hlen : q.out.length ≤ limit) :
    Machine.after (feed a limit) (.collecting p) body = .collecting q ∧
      Machine.outputs (feed a limit) (.collecting p) body = [] ∧
      Machine.Meets (feed a limit) (Legal a) (.collecting p) body := by
  induction body generalizing p with
  | nil =>
      obtain rfl := Option.some.inj hdec
      exact ⟨rfl, rfl, trivial⟩
  | cons b body ih =>
      rw [List.mem_cons, not_or] at hbody
      rw [decode_cons, Option.bind_eq_some_iff] at hdec
      obtain ⟨r, hr, hq⟩ := hdec
      have hrlen : ¬ limit < r.out.length :=
        Nat.not_lt.mpr (Nat.le_trans (length_le_of_decode a hq) hlen)
      have hstep : feed a limit (.collecting p) b = (.collecting r, []) := by
        simp [feed, Ne.symm hbody.1, hr, hrlen]
      have hlegal : Legal a (.collecting p) b := by
        intro hesc hb
        simp [absorb, hesc, hb] at hr
      obtain ⟨hafter, hout, hmeets⟩ := ih hbody.2 hq
      rw [Machine.after_cons, Machine.outputs_cons, Machine.meets_cons, hstep]
      exact ⟨hafter, hout, hlegal, hmeets⟩

/-- A whole frame takes a hunting deframer back to hunting, hands over the framed symbols
and is legal throughout. -/
theorem deframe_frame {bs : List α} (hne : bs ≠ []) (hlen : bs.length ≤ limit) :
    Machine.after (feed a limit) .hunting (frame a bs) = .hunting ∧
      Machine.outputs (feed a limit) .hunting (frame a bs) = [bs] ∧
      Machine.Meets (feed a limit) (Legal a) .hunting (frame a bs) := by
  have hopen : feed a limit .hunting a.flag = (.collecting .empty, []) := by simp [feed]
  have hclose : feed a limit (.collecting ⟨bs, false⟩) a.flag = (.hunting, [bs]) := by
    simp [feed, hne]
  have hdec : decode a .empty (stuff a bs) = some ⟨bs, false⟩ := decode_stuff a [] bs
  obtain ⟨hafter, hout, hmeets⟩ := collect_body (flag_notMem_stuff a bs) hdec hlen
  have hframe : frame a bs = a.flag :: (stuff a bs ++ [a.flag]) := rfl
  rw [hframe, Machine.after_cons, Machine.outputs_cons, Machine.meets_cons, hopen]
  rw [Machine.after_concat, Machine.outputs_concat, Machine.meets_append, hafter, hout, hclose]
  exact ⟨rfl, rfl, trivial, hmeets, by simp [Legal]⟩

/-- Frames one after the other hand over their symbols in order. -/
theorem deframe_frames {pkts : List (List α)}
    (h : ∀ bs ∈ pkts, bs ≠ [] ∧ bs.length ≤ limit) :
    Machine.after (feed a limit) .hunting (pkts.flatMap (frame a)) = .hunting ∧
      Machine.outputs (feed a limit) .hunting (pkts.flatMap (frame a)) = pkts ∧
      Machine.Meets (feed a limit) (Legal a) .hunting (pkts.flatMap (frame a)) := by
  induction pkts with
  | nil => exact ⟨rfl, rfl, trivial⟩
  | cons bs pkts ih =>
      obtain ⟨hne, hlen⟩ := h bs List.mem_cons_self
      obtain ⟨hafter, hout, hmeets⟩ := @deframe_frame _ _ a _ _ hne hlen
      obtain ⟨hafter', hout', hmeets'⟩ := ih fun cs hcs => h cs (List.mem_cons_of_mem bs hcs)
      rw [List.flatMap_cons, Machine.after_append, Machine.outputs_append,
        Machine.meets_append, hafter, hout]
      exact ⟨hafter', by rw [hout', List.singleton_append], hmeets, hmeets'⟩

end Deframing

end Framing
