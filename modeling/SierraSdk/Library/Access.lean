import Mathlib.Data.List.Basic

/-!
# Accesses to arrays

An access names an object, the number of its elements and the element that is read or written. A
`Traced` computation lists its accesses, and has a value if it returns.

A computation with loops that might not end is given for each number of rounds that they may
take. It is `Safe` if some number is enough for it to return, and if for none of them it accesses
an element that is not there.
-/

namespace Accesses

variable {Object α β : Type}

/-- One element, and how many there are. -/
structure Access (Object : Type) where
  object : Object
  size : ℕ
  index : ℕ

def Access.InBounds (a : Access Object) : Prop := a.index < a.size

instance (a : Access Object) : Decidable a.InBounds := inferInstanceAs (Decidable (_ < _))

/-- All elements of a list of accesses are there. -/
def AllInBounds (accesses : List (Access Object)) : Prop := ∀ a ∈ accesses, a.InBounds

instance (accesses : List (Access Object)) : Decidable (AllInBounds accesses) :=
  inferInstanceAs (Decidable (∀ a ∈ accesses, a.InBounds))

/-- Elements one after the other. -/
def span (object : Object) (size first n : ℕ) : List (Access Object) :=
  (List.range n).map fun k => ⟨object, size, first + k⟩

section Lists

theorem allInBounds_append (xs ys : List (Access Object)) :
    AllInBounds (xs ++ ys) ↔ AllInBounds xs ∧ AllInBounds ys :=
  List.forall_mem_append

theorem allInBounds_nil : AllInBounds ([] : List (Access Object)) :=
  fun _ h => absurd h List.not_mem_nil

theorem allInBounds_flatMap_range (n : ℕ) (f : ℕ → List (Access Object)) :
    AllInBounds ((List.range n).flatMap f) ↔ ∀ i < n, AllInBounds (f i) := by
  constructor
  · intro h i hi a ha
    exact h a (List.mem_flatMap.mpr ⟨i, List.mem_range.mpr hi, ha⟩)
  · intro h a ha
    obtain ⟨i, hi, ha⟩ := List.mem_flatMap.mp ha
    exact h i (List.mem_range.mp hi) a ha

theorem allInBounds_span (object : Object) (size first n : ℕ) :
    AllInBounds (span object size first n) ↔ n = 0 ∨ first + n ≤ size := by
  have hall : AllInBounds (span object size first n) ↔ ∀ k < n, first + k < size := by
    constructor
    · intro h k hk
      exact h ⟨object, size, first + k⟩ (List.mem_map.mpr ⟨k, List.mem_range.mpr hk, rfl⟩)
    · intro h a ha
      obtain ⟨k, hk, rfl⟩ := List.mem_map.mp ha
      exact h k (List.mem_range.mp hk)
  rw [hall]
  constructor
  · intro h
    rcases Nat.eq_zero_or_pos n with hzero | hpos
    · exact .inl hzero
    · have hlast := h (n - 1) (Nat.sub_one_lt_of_lt hpos)
      omega
  · intro h k hk
    omega

end Lists

/-- The accesses of a computation, and its value if it returns. -/
structure Traced (Object α : Type) where
  accesses : List (Access Object)
  value : Option α

namespace Traced

/-- One computation after the other; the second begins if the first returns. -/
def bind (x : Traced Object α) (f : α → Traced Object β) : Traced Object β where
  accesses := x.accesses ++ x.value.elim [] fun a => (f a).accesses
  value := x.value.bind fun a => (f a).value

instance : Monad (Traced Object) where
  pure a := ⟨[], some a⟩
  bind := bind

/-- Accesses alone. -/
def log (accesses : List (Access Object)) : Traced Object Unit := ⟨accesses, some ()⟩

theorem value_bind (x : Traced Object α) (f : α → Traced Object β) :
    (x >>= f).value = x.value.bind fun a => (f a).value := rfl

theorem bind_of_value {x : Traced Object α} {a : α} (h : x.value = some a)
    (f : α → Traced Object β) :
    x >>= f = ⟨x.accesses ++ (f a).accesses, (f a).value⟩ := by
  change bind x f = _
  rw [bind, h]
  rfl

end Traced

/-- The computation returns, and accesses nothing that is not there, however many rounds it is
given. -/
def Safe (x : ℕ → Traced Object α) : Prop :=
  (∃ rounds, (x rounds).value.isSome) ∧ ∀ rounds, AllInBounds (x rounds).accesses

section Safe

variable {x : ℕ → Traced Object α}

theorem safe_const {t : Traced Object α} (h : t.value.isSome) :
    Safe (fun _ => t) ↔ AllInBounds t.accesses :=
  ⟨fun hsafe => hsafe.2 0, fun hall => ⟨⟨0, h⟩, fun _ => hall⟩⟩

/-- A computation behind one without loops. -/
theorem safe_bind {t : Traced Object β} {b : β} (h : t.value = some b)
    (f : ℕ → β → Traced Object α) :
    Safe (fun rounds => t >>= f rounds) ↔
      AllInBounds t.accesses ∧ Safe fun rounds => f rounds b := by
  simp only [Safe, Traced.bind_of_value h, allInBounds_append]
  constructor
  · rintro ⟨hvalue, hall⟩
    exact ⟨(hall 0).1, hvalue, fun rounds => (hall rounds).2⟩
  · rintro ⟨hfirst, hvalue, hall⟩
    exact ⟨hvalue, fun rounds => ⟨hfirst, hall rounds⟩⟩

/-- A value that is computed at the end. -/
theorem safe_map (g : α → β) : Safe (fun rounds => x rounds >>= fun a => pure (g a)) ↔ Safe x := by
  have hvalue : ∀ rounds, (x rounds >>= fun a => (pure (g a) : Traced Object β)).value =
      (x rounds).value.map g := by
    intro rounds
    change (Traced.bind _ _).value = _
    rw [Traced.bind]
    cases (x rounds).value <;> rfl
  have haccesses : ∀ rounds, (x rounds >>= fun a => (pure (g a) : Traced Object β)).accesses =
      (x rounds).accesses := by
    intro rounds
    change (Traced.bind _ _).accesses = _
    rw [Traced.bind]
    cases (x rounds).value <;> exact List.append_nil _
  simp only [Safe, hvalue, haccesses, Option.isSome_map]

end Safe

end Accesses
