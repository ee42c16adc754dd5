import Mathlib.Data.List.Basic
import Mathlib.Logic.Function.Basic

/-!
# Reading records into a store

A reader reads a value at a cursor and puts it in a store. If the value is not there in full it
stops, and may have put a part of it in the store. `Reads` says which encoding of the values is read,
how the store is written, and what is kept of it in any case.

`fill` reads a number of records into an array. The records that are there and those that are missing
are determined by what is left at the cursor (`fill_spec`, `flatMap_unique`).
-/

namespace Reading

variable {α β ε ρ ρ' : Type*}

/-- Whether everything was there, the cursor, and the store. -/
abbrev Reader (β ε : Type*) := β → ε → Bool × β × ε

/-- A value that is put in the store when it is there. -/
def getInto (get : β → Option (ρ × β)) (put : ρ → ε → ε) : Reader β ε := fun b e =>
  match get b with
  | none => (false, b, e)
  | some (r, b) => (true, b, put r e)

/-- Two readers in a row, the second of which is left out when the first one stops. -/
def andThen (read read' : Reader β ε) : Reader β ε := fun b e =>
  match read b e with
  | (false, b, e) => (false, b, e)
  | (true, b, e) => read' b e

/-- Read `n` records from record `k` on, each into the entry of an array at its position. -/
def fill (pos : ℕ → ℕ) (read : Reader β ε) : ℕ → ℕ → β → (ℕ → ε) → Bool × β × (ℕ → ε)
  | 0, _, b, a => (true, b, a)
  | n + 1, k, b, a =>
      match read b (a (pos k)) with
      | (false, b, e) => (false, b, Function.update a (pos k) e)
      | (true, b, e) => fill pos read n (k + 1) b (Function.update a (pos k) e)

/-- The array with records put in it from record `k` on. -/
def filled (pos : ℕ → ℕ) (put : ρ → ε → ε) : List ρ → ℕ → (ℕ → ε) → ℕ → ε
  | [], _, a => a
  | r :: rs, k, a => filled pos put rs (k + 1) (Function.update a (pos k) (put r (a (pos k))))

/-- No code begins with another one. -/
def PrefixFree (enc : ρ → List α) : Prop :=
  ∀ r r' xs xs', enc r ++ xs = enc r' ++ xs' → r = r' ∧ xs = xs'

/-- The values of an encoding are got at the cursor. -/
structure Gets (left : β → List α) (enc : ρ → List α) (get : β → Option (ρ × β)) : Prop where
  prefixFree : PrefixFree enc
  got : ∀ b r rest, left b = enc r ++ rest → ∃ b', left b' = rest ∧ get b = some (r, b')
  missing : ∀ b, (∀ r rest, left b ≠ enc r ++ rest) → get b = none

/-- The values of an encoding are read at the cursor and put in the store, and something is kept of
the store when a value is missing. -/
structure Reads (left : β → List α) (enc : ρ → List α) (put : ρ → ε → ε) (kept : ε → ε → Prop)
    (read : Reader β ε) : Prop where
  prefixFree : PrefixFree enc
  got : ∀ b e r rest, left b = enc r ++ rest →
    ∃ b', left b' = rest ∧ read b e = (true, b', put r e)
  missing : ∀ b e, (∀ r rest, left b ≠ enc r ++ rest) →
    ∃ b' e', kept e e' ∧ read b e = (false, b', e')

section Readers

variable {left : β → List α} {enc : ρ → List α} {enc' : ρ' → List α} {put : ρ → ε → ε}
  {put' : ρ' → ε → ε} {kept : ε → ε → Prop} {read read' : Reader β ε}

/-- A value is at the cursor, or it is missing. -/
theorem there_or_missing (enc : ρ → List α) (xs : List α) :
    (∃ r rest, xs = enc r ++ rest) ∨ ∀ r rest, xs ≠ enc r ++ rest := by
  by_cases h : ∃ r rest, xs = enc r ++ rest
  · exact .inl h
  · exact .inr fun r rest hxs => h ⟨r, rest, hxs⟩

theorem Gets.reads {get : β → Option (ρ × β)} (h : Gets left enc get) (put : ρ → ε → ε)
    (hrefl : ∀ e, kept e e) : Reads left enc put kept (getInto get put) where
  prefixFree := h.prefixFree
  got b e r rest hleft := by
    obtain ⟨b', hrest, hget⟩ := h.got b r rest hleft
    exact ⟨b', hrest, by rw [getInto, hget]⟩
  missing b e hmissing := ⟨b, e, hrefl e, by rw [getInto, h.missing b hmissing]⟩

theorem PrefixFree.append (h : PrefixFree enc) (h' : PrefixFree enc') :
    PrefixFree fun r : ρ × ρ' => enc r.1 ++ enc' r.2 := by
  rintro ⟨r, r'⟩ ⟨s, s'⟩ xs xs' heq
  simp only [List.append_assoc] at heq
  obtain ⟨rfl, hrest⟩ := h _ _ _ _ heq
  obtain ⟨rfl, hend⟩ := h' _ _ _ _ hrest
  exact ⟨rfl, hend⟩

/-- Two readers in a row read pairs. -/
theorem Reads.andThen (h : Reads left enc put kept read) (h' : Reads left enc' put' kept read')
    (hput : ∀ r e e', kept (put r e) e' → kept e e') :
    Reads left (fun r : ρ × ρ' => enc r.1 ++ enc' r.2) (fun r e => put' r.2 (put r.1 e)) kept
      (andThen read read') where
  prefixFree := h.prefixFree.append h'.prefixFree
  got b e r rest hleft := by
    rw [List.append_assoc] at hleft
    obtain ⟨b₁, hleft₁, hread⟩ := h.got b e r.1 _ hleft
    obtain ⟨b₂, hleft₂, hread'⟩ := h'.got b₁ (put r.1 e) r.2 rest hleft₁
    exact ⟨b₂, hleft₂, by rw [Reading.andThen, hread]; exact hread'⟩
  missing b e hmissing := by
    rcases there_or_missing enc (left b) with ⟨r, rest, hleft⟩ | hfirst
    · obtain ⟨b₁, hleft₁, hread⟩ := h.got b e r rest hleft
      have hsecond : ∀ r' rest', left b₁ ≠ enc' r' ++ rest' := by
        intro r' rest' heq
        refine hmissing (r, r') rest' ?_
        rw [hleft, ← hleft₁, heq, List.append_assoc]
      obtain ⟨b₂, e', hkept, hread'⟩ := h'.missing b₁ (put r e) hsecond
      exact ⟨b₂, e', hput r e e' hkept, by rw [Reading.andThen, hread]; exact hread'⟩
    · obtain ⟨b', e', hkept, hread⟩ := h.missing b e hfirst
      exact ⟨b', e', hkept, by rw [Reading.andThen, hread]⟩

/-- Values that stand for others. -/
theorem Reads.comap {f : ρ' → ρ} (h : Reads left enc put kept read) (hinj : Function.Injective f)
    (hsurj : Function.Surjective f) :
    Reads left (fun r => enc (f r)) (fun r => put (f r)) kept read where
  prefixFree r r' xs xs' heq := by
    obtain ⟨hsame, hrest⟩ := h.prefixFree _ _ _ _ heq
    exact ⟨hinj hsame, hrest⟩
  got b e r rest hleft := h.got b e (f r) rest hleft
  missing b e hmissing := by
    refine h.missing b e fun r rest hleft => ?_
    obtain ⟨r', rfl⟩ := hsurj r
    exact hmissing r' rest hleft

end Readers

section Records

variable {left : β → List α} {enc : ρ → List α} {put : ρ → ε → ε} {kept : ε → ε → Prop}
  {read : Reader β ε} {pos : ℕ → ℕ}

/-- The records that are there up to a number of them are put in the array; if there are less, what
is read of the next one is put in the array as well. -/
theorem fill_spec (h : Reads left enc put kept read) (pos : ℕ → ℕ) (n k : ℕ) (b : β)
    (a : ℕ → ε) :
    ∃ rs rest, left b = rs.flatMap enc ++ rest ∧
      ((rs.length = n ∧
          ∃ b', fill pos read n k b a = (true, b', filled pos put rs k a)) ∨
        (rs.length < n ∧ (∀ r rest', rest ≠ enc r ++ rest') ∧
          ∃ b' e', kept (filled pos put rs k a (pos (k + rs.length))) e' ∧
            fill pos read n k b a = (false, b',
              Function.update (filled pos put rs k a) (pos (k + rs.length)) e'))) := by
  induction n generalizing k b a with
  | zero => exact ⟨[], left b, rfl, .inl ⟨rfl, b, rfl⟩⟩
  | succ n ih =>
      rcases there_or_missing enc (left b) with ⟨r, rest, hleft⟩ | hmissing
      · obtain ⟨b₁, hleft₁, hread⟩ := h.got b (a (pos k)) r rest hleft
        have hfill : fill pos read (n + 1) k b a =
            fill pos read n (k + 1) b₁ (Function.update a (pos k) (put r (a (pos k)))) := by
          rw [fill, hread]
        obtain ⟨rs, rest', hrest, hend⟩ :=
          ih (k + 1) b₁ (Function.update a (pos k) (put r (a (pos k))))
        have hall : left b = (r :: rs).flatMap enc ++ rest' := by
          rw [hleft, ← hleft₁, hrest, List.flatMap_cons, List.append_assoc]
        have hnext : k + (r :: rs).length = k + 1 + rs.length := by
          rw [List.length_cons, Nat.add_assoc, Nat.add_comm 1]
        refine ⟨r :: rs, rest', hall, ?_⟩
        rw [hfill, hnext, List.length_cons, Nat.add_right_cancel_iff, Nat.add_lt_add_iff_right]
        exact hend
      · obtain ⟨b', e', hkept, hread⟩ := h.missing b (a (pos k)) hmissing
        refine ⟨[], left b, rfl, .inr ⟨Nat.succ_pos n, hmissing, b', e', hkept, ?_⟩⟩
        rw [fill, hread]
        rfl

/-- An entry at no record's position is left alone. -/
theorem filled_of_ne {rs : List ρ} {k : ℕ} {a : ℕ → ε} {i : ℕ}
    (h : ∀ j < rs.length, pos (k + j) ≠ i) : filled pos put rs k a i = a i := by
  induction rs generalizing k a with
  | nil => rfl
  | cons r rs ih =>
      have hlater : ∀ j < rs.length, pos (k + 1 + j) ≠ i := by
        intro j hj
        have hnext := h (j + 1) (Nat.succ_lt_succ hj)
        rwa [Nat.add_comm j, ← Nat.add_assoc] at hnext
      rw [filled, ih hlater]
      exact Function.update_of_ne (h 0 (Nat.succ_pos _)).symm _ _

/-- Records that have positions of their own. -/
theorem filled_at {m : ℕ} (hpos : ∀ i < m, pos i = i) {rs : List ρ} {k : ℕ} {a : ℕ → ε}
    (hm : k + rs.length ≤ m) {j : ℕ} (hj : j < rs.length) :
    filled pos put rs k a (k + j) = put rs[j] (a (k + j)) := by
  induction rs generalizing k a j with
  | nil => exact absurd hj (Nat.not_lt_zero j)
  | cons r rs ih =>
      rw [List.length_cons] at hm hj
      have hk : pos k = k := hpos k (by omega)
      cases j with
      | zero =>
          have hlater : ∀ j < rs.length, pos (k + 1 + j) ≠ k := by
            intro j hj
            rw [hpos _ (by omega)]
            omega
          change filled pos put rs (k + 1) _ k = put r (a k)
          rw [filled_of_ne hlater, hk, Function.update_self]
      | succ j =>
          have hshift : k + (j + 1) = k + 1 + j := by omega
          have hne : k + 1 + j ≠ k := by omega
          rw [filled, hshift, ih (by omega) (by omega), hk, Function.update_of_ne hne]
          rfl

/-- What each record keeps of an entry, all of them keep. -/
theorem filled_kept (hrefl : ∀ e, kept e e) (htrans : ∀ e e' e'', kept e e' → kept e' e'' → kept e e'')
    {rs : List ρ} (hput : ∀ r ∈ rs, ∀ e, kept e (put r e)) (k : ℕ) (a : ℕ → ε) (i : ℕ) :
    kept (a i) (filled pos put rs k a i) := by
  induction rs generalizing k a with
  | nil => exact hrefl (a i)
  | cons r rs ih =>
      obtain ⟨hr, hrs⟩ := List.forall_mem_cons.mp hput
      refine htrans _ _ _ ?_ (ih hrs (k + 1) (Function.update a (pos k) (put r (a (pos k)))))
      by_cases hi : i = pos k
      · rw [hi, Function.update_self]
        exact hr _
      · rw [Function.update_of_ne hi]
        exact hrefl (a i)

/-- As many records as others are the same ones. -/
theorem flatMap_unique (h : PrefixFree enc) {rs rs' : List ρ} {xs xs' : List α}
    (hlength : rs.length = rs'.length)
    (heq : rs.flatMap enc ++ xs = rs'.flatMap enc ++ xs') : rs = rs' ∧ xs = xs' := by
  induction rs generalizing rs' with
  | nil =>
      obtain rfl := List.length_eq_zero_iff.mp hlength.symm
      exact ⟨rfl, heq⟩
  | cons r rs ih =>
      cases rs' with
      | nil => exact absurd hlength (Nat.succ_ne_zero _)
      | cons r' rs' =>
          rw [List.flatMap_cons, List.flatMap_cons, List.append_assoc, List.append_assoc] at heq
          obtain ⟨rfl, hrest⟩ := h _ _ _ _ heq
          obtain ⟨rfl, hend⟩ := ih (Nat.succ.inj hlength) hrest
          exact ⟨rfl, hend⟩

/-- Fewer records than others are the first ones of them. -/
theorem flatMap_first_of_le (h : PrefixFree enc) {rs rs' : List ρ} {xs xs' : List α}
    (hle : rs'.length ≤ rs.length)
    (heq : rs.flatMap enc ++ xs = rs'.flatMap enc ++ xs') : rs' <+: rs := by
  have hsplit : rs.flatMap enc ++ xs =
      (rs.take rs'.length).flatMap enc ++ ((rs.drop rs'.length).flatMap enc ++ xs) := by
    rw [← List.append_assoc, ← List.flatMap_append, List.take_append_drop]
  have hlength : (rs.take rs'.length).length = rs'.length := List.length_take_of_le hle
  have hsame := (flatMap_unique h hlength (hsplit.symm.trans heq)).1
  rw [← hsame]
  exact List.take_prefix _ _

/-- The records up to a missing one are all there are. -/
theorem flatMap_first (h : PrefixFree enc) {rs rs' : List ρ} {xs xs' : List α}
    (hmissing : ∀ r rest, xs ≠ enc r ++ rest)
    (heq : rs.flatMap enc ++ xs = rs'.flatMap enc ++ xs') : rs' <+: rs := by
  induction rs generalizing rs' with
  | nil =>
      cases rs' with
      | nil => exact List.prefix_refl []
      | cons r' rs' =>
          rw [List.flatMap_nil, List.nil_append, List.flatMap_cons, List.append_assoc] at heq
          exact absurd heq (hmissing r' _)
  | cons r rs ih =>
      cases rs' with
      | nil => exact List.nil_prefix
      | cons r' rs' =>
          rw [List.flatMap_cons, List.flatMap_cons, List.append_assoc, List.append_assoc] at heq
          obtain ⟨rfl, hrest⟩ := h _ _ _ _ heq
          exact List.cons_prefix_cons.mpr ⟨rfl, ih hrest⟩

end Records

end Reading
