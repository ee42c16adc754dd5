import Mathlib.Data.List.Basic

/-!
# Texts with a maximum length

A text is written one element at a time, and after each the length is compared with a maximum, which
includes the place of a terminator: `put` ends the writing when just this place is left. The test is
for equality, and so a text that is already too long is never full; a maximum of zero is no bound at
all.

A writer that is `Bounded` writes, where there is room, what it writes without a bound, up to the
maximum (`Bounded.cut`). Writers that are bounded can be put one behind the other
(`Bounded.andThen`).
-/

namespace BoundedText

variable {α ε : Type*}

/-- Why the writing ends early: the text is full, or something else. -/
inductive Stop (α ε : Type*) where
  | full (text : List α)
  | failed (why : ε)

/-- A text, or why its writing ended. -/
abbrev Written (α ε : Type*) := Except (Stop α ε) (List α)

/-- Compare the length with the maximum. -/
def checked (maxlen : ℕ) (text : List α) : Written α ε :=
  if text.length + 1 = maxlen then .error (.full text) else .ok text

/-- Write one element. -/
def put (maxlen : ℕ) (text : List α) (c : α) : Written α ε := checked maxlen (text ++ [c])

/-- Go on with a text if its writing has not ended. -/
def andThen (w : Written α ε) (f : List α → Written α ε) : Written α ε :=
  match w with
  | .ok text => f text
  | .error e => .error e

/-- Write some elements. -/
def puts (maxlen : ℕ) (text : List α) : List α → Written α ε
  | [] => .ok text
  | c :: cs => andThen (put maxlen text c) fun text => puts maxlen text cs

/-- There is room for one element more. -/
def Room (maxlen : ℕ) (text : List α) : Prop := text.length + 1 < maxlen

instance (maxlen : ℕ) (text : List α) : Decidable (Room maxlen text) := Nat.decLt _ _

/-- A text up to the maximum: it is full if there is no room behind it. -/
def upTo (maxlen : ℕ) (text : List α) : Written α ε :=
  if Room maxlen text then .ok text else .error (.full (text.take (maxlen - 1)))

/-- A writer that does not stop without a maximum does the same with one, up to the maximum, and
adds to the text. Where a text is too long a maximum makes no difference, and without one no text is
ever full. -/
structure Bounded (F : ℕ → List α → Written α ε) : Prop where
  cut : ∀ {maxlen text text'}, Room maxlen text → F 0 text = .ok text' →
    F maxlen text = upTo maxlen text'
  adds : ∀ {text text'}, F 0 text = .ok text' → text <+: text'
  tooLong : ∀ {maxlen text}, maxlen ≤ text.length → F maxlen text = F 0 text
  endless : ∀ text text', F 0 text ≠ .error (.full text')

section Writers

variable {maxlen : ℕ} {text : List α}

theorem checked_zero (text : List α) : checked (ε := ε) 0 text = .ok text :=
  if_neg (Nat.succ_ne_zero _)

@[simp] theorem andThen_ok (text : List α) (f : List α → Written α ε) :
    andThen (.ok text) f = f text := rfl

@[simp] theorem andThen_error (e : Stop α ε) (f : List α → Written α ε) :
    andThen (.error e) f = .error e := rfl

theorem andThen_eq_ok {w : Written α ε} {f : List α → Written α ε} {text : List α}
    (h : andThen w f = .ok text) : ∃ t, w = .ok t ∧ f t = .ok text := by
  cases w with
  | ok t => exact ⟨t, rfl, h⟩
  | error e => cases h

/-- Without a maximum everything is written. -/
theorem puts_zero (text cs : List α) : puts (ε := ε) 0 text cs = .ok (text ++ cs) := by
  induction cs generalizing text with
  | nil => rw [puts, List.append_nil]
  | cons c cs ih =>
    have hput : put (ε := ε) 0 text c = .ok (text ++ [c]) := checked_zero _
    rw [puts, hput]
    exact (ih (text ++ [c])).trans (by rw [List.append_assoc, List.singleton_append])

/-- A text that is already too long is never full. -/
theorem puts_of_le {cs : List α} (h : maxlen ≤ text.length + 1) :
    puts (ε := ε) maxlen text cs = .ok (text ++ cs) := by
  induction cs generalizing text with
  | nil => rw [puts, List.append_nil]
  | cons c cs ih =>
    have hlength : (text ++ [c]).length = text.length + 1 := List.length_append
    have hput : put (ε := ε) maxlen text c = .ok (text ++ [c]) := if_neg (by omega)
    rw [puts, hput]
    exact (ih (by omega)).trans (by rw [List.append_assoc, List.singleton_append])

theorem upTo_of_full (h : text.length + 1 = maxlen) :
    upTo (ε := ε) maxlen text = .error (.full text) := by
  have hroom : ¬ Room maxlen text := by
    rw [Room]
    omega
  rw [upTo, if_neg hroom, List.take_of_length_le (by omega)]

/-- What stands behind a full text is not written. -/
theorem upTo_of_not_room {text' : List α} (h : ¬ Room maxlen text) (hadds : text <+: text') :
    upTo (ε := ε) maxlen text' = upTo maxlen text := by
  obtain ⟨rest, rfl⟩ := hadds
  rw [Room, Nat.not_lt] at h
  have hroom' : ¬ Room maxlen (text ++ rest) := by
    rw [Room, List.length_append]
    omega
  have hroom : ¬ Room maxlen text := by
    rw [Room]
    omega
  rw [upTo, upTo, if_neg hroom', if_neg hroom, List.take_append_of_le_length (by omega)]

end Writers

section Bounds

variable {F G : ℕ → List α → Written α ε}

theorem bounded_ok : Bounded (α := α) (ε := ε) fun _ text => .ok text where
  cut hroom h := by
    cases h
    exact (if_pos hroom).symm
  adds h := by
    cases h
    exact List.prefix_rfl
  tooLong _ := rfl
  endless _ _ h := by cases h

/-- A writer that always fails. -/
theorem bounded_failed (why : ε) :
    Bounded (α := α) (ε := ε) fun _ _ => .error (.failed why) where
  cut _ h := by cases h
  adds h := by cases h
  tooLong _ := rfl
  endless _ _ h := by cases h

/-- One element, or none, that is written before the length is compared. -/
theorem bounded_checked {cs : List α} (h : cs.length ≤ 1) :
    Bounded (α := α) (ε := ε) fun maxlen text => checked maxlen (text ++ cs) where
  cut {maxlen text text'} hroom htext := by
    rw [checked_zero] at htext
    cases htext
    rw [Room] at hroom
    have hlength : (text ++ cs).length = text.length + cs.length := List.length_append
    by_cases hfull : (text ++ cs).length + 1 = maxlen
    · rw [upTo_of_full hfull]
      exact if_pos hfull
    · have hroom' : Room maxlen (text ++ cs) := by
        rw [Room]
        omega
      rw [upTo, if_pos hroom']
      exact if_neg hfull
  adds htext := by
    rw [checked_zero] at htext
    cases htext
    exact List.prefix_append _ _
  tooLong {maxlen text} hlong := by
    have hlength : (text ++ cs).length = text.length + cs.length := List.length_append
    rw [checked_zero]
    exact if_neg (by omega)
  endless text text' h := by
    rw [checked_zero] at h
    cases h

theorem Bounded.andThen (hF : Bounded F) (hG : Bounded G) :
    Bounded fun maxlen text => andThen (F maxlen text) (G maxlen) where
  cut {maxlen text text'} hroom h := by
    obtain ⟨t, hfirst, hsecond⟩ := andThen_eq_ok h
    rw [hF.cut hroom hfirst]
    by_cases hmore : Room maxlen t
    · rw [upTo, if_pos hmore]
      exact hG.cut hmore hsecond
    · rw [upTo_of_not_room hmore (hG.adds hsecond), upTo, if_neg hmore]
      rfl
  adds h := by
    obtain ⟨t, hfirst, hsecond⟩ := andThen_eq_ok h
    exact (hF.adds hfirst).trans (hG.adds hsecond)
  tooLong {maxlen text} hlong := by
    rw [hF.tooLong hlong]
    cases hfirst : F 0 text with
    | error e => rfl
    | ok t => exact hG.tooLong (Nat.le_trans hlong (hF.adds hfirst).length_le)
  endless text text' h := by
    cases hfirst : F 0 text with
    | error e =>
      rw [hfirst, andThen_error] at h
      exact hF.endless text text' (hfirst.trans h)
    | ok t =>
      rw [hfirst, andThen_ok] at h
      exact hG.endless t text' h

theorem Bounded.ite {p : Prop} [Decidable p] (hF : Bounded F) (hG : Bounded G) :
    Bounded fun maxlen text => if p then F maxlen text else G maxlen text := by
  by_cases hp : p
  · simpa only [if_pos hp] using hF
  · simpa only [if_neg hp] using hG

theorem bounded_put (c : α) : Bounded (α := α) (ε := ε) fun maxlen text => put maxlen text c :=
  bounded_checked (Nat.le_refl 1)

theorem bounded_puts (cs : List α) :
    Bounded (α := α) (ε := ε) fun maxlen text => puts maxlen text cs := by
  induction cs with
  | nil => exact bounded_ok
  | cons c cs ih => exact (bounded_put c).andThen ih

end Bounds

end BoundedText
