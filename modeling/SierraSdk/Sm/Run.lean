import Mathlib.Algebra.Group.Nat.Defs
import Mathlib.Data.List.Basic

/-!
# The state machine package

A state machine has a transition table and an action table, each a matrix of states by events
that is stored row by row. `smrun` advances it by one event: the transition table gives the
next state, unless it holds one of the two markers, and the action that the action table has
for the state that is left is called.

The event is compared with the number of events, which it may equal, and the state is not
compared with anything, so that the tables can be read outside of their rows. They are read
inside if the state is one of the rows and the event one of the columns (`SmT.inside`).
-/

namespace SierraSdk

namespace Sm

/-- `sm_t`, with tables for actions `α` and user data `δ`. An entry of the action table may be
`NULL`. -/
structure SmT (α δ : Type*) where
  state : ℕ
  evnum : ℕ
  sat : List (Option α)
  stt : List ℕ
  stIgnore : ℕ
  stInvld : ℕ
  udata : δ

variable {α δ : Type*}

/-- Where the tables have the entry for the current state and an event. -/
def SmT.index (sm : SmT α δ) (ev : ℕ) : ℕ := sm.state * sm.evnum + ev

/-- Both tables are read inside. -/
def SmT.Inside (sm : SmT α δ) (ev : ℕ) : Prop :=
  sm.index ev < sm.stt.length ∧ sm.index ev < sm.sat.length

instance (sm : SmT α δ) (ev : ℕ) : Decidable (sm.Inside ev) :=
  inferInstanceAs (Decidable (_ ∧ _))

/-- The state machine after an event, and the action that is called with the user data;
`none` if a table is read outside. -/
def smrun (sm : SmT α δ) (ev : ℕ) : Option (SmT α δ × Option (α × δ)) :=
  if sm.evnum < ev then some (sm, none)
  else
    match sm.stt[sm.index ev]? with
    | none => none
    | some nextstate =>
        if nextstate = sm.stInvld then some (sm, none)
        else if nextstate = sm.stIgnore then some (sm, none)
        else
          match sm.sat[sm.index ev]? with
          | none => none
          | some action =>
              some ({ sm with state := nextstate }, action.map fun act => (act, sm.udata))

/-- The entry of a row and a column is inside a matrix. -/
theorem index_lt {state rows ev evnum : ℕ} (hstate : state < rows) (hev : ev < evnum) :
    state * evnum + ev < rows * evnum :=
  calc
    state * evnum + ev < state * evnum + evnum := Nat.add_lt_add_left hev _
    _ = (state + 1) * evnum := (Nat.succ_mul state evnum).symm
    _ ≤ rows * evnum := Nat.mul_le_mul_right evnum hstate

/-- The tables are read inside for a state of the rows and an event of the columns. -/
theorem SmT.inside {sm : SmT α δ} {rows ev : ℕ} (hstt : sm.stt.length = rows * sm.evnum)
    (hsat : sm.sat.length = rows * sm.evnum) (hstate : sm.state < rows) (hev : ev < sm.evnum) :
    sm.Inside ev := by
  have hlt : sm.index ev < rows * sm.evnum := index_lt hstate hev
  exact ⟨hstt ▸ hlt, hsat ▸ hlt⟩

section Run

variable {sm : SmT α δ} {ev nextstate : ℕ}

theorem smrun_marker (hev : ev ≤ sm.evnum) (hstt : sm.stt[sm.index ev]? = some nextstate)
    (hmarker : nextstate = sm.stInvld ∨ nextstate = sm.stIgnore) :
    smrun sm ev = some (sm, none) := by
  rw [smrun, if_neg (Nat.not_lt.mpr hev)]
  simp only [hstt]
  rcases hmarker with hmarker | hmarker
  · rw [if_pos hmarker]
  · rw [if_pos hmarker, ite_self]

theorem smrun_transition {action : Option α} (hev : ev ≤ sm.evnum)
    (hstt : sm.stt[sm.index ev]? = some nextstate)
    (hsat : sm.sat[sm.index ev]? = some action)
    (hmarker : ¬ (nextstate = sm.stInvld ∨ nextstate = sm.stIgnore)) :
    smrun sm ev =
      some ({ sm with state := nextstate }, action.map fun act => (act, sm.udata)) := by
  obtain ⟨hinvld, hignore⟩ := not_or.mp hmarker
  rw [smrun, if_neg (Nat.not_lt.mpr hev)]
  simp only [hstt, hsat]
  rw [if_neg hinvld, if_neg hignore]

/-- What an event can do: the machine stays as it is, or it takes the next state of the table
and the action of the state it leaves is called. -/
theorem smrun_cases {sm' : SmT α δ} {call : Option (α × δ)} (h : smrun sm ev = some (sm', call)) :
    (sm' = sm ∧ call = none) ∨
      ∃ nextstate action, sm.stt[sm.index ev]? = some nextstate ∧
        sm.sat[sm.index ev]? = some action ∧ nextstate ≠ sm.stInvld ∧ nextstate ≠ sm.stIgnore ∧
        sm' = { sm with state := nextstate } ∧ call = action.map fun act => (act, sm.udata) := by
  by_cases hev : sm.evnum < ev
  · rw [smrun, if_pos hev] at h
    obtain ⟨rfl, rfl⟩ := Prod.mk.inj (Option.some.inj h)
    exact .inl ⟨rfl, rfl⟩
  · have hle := Nat.le_of_not_lt hev
    cases hstt : sm.stt[sm.index ev]? with
    | none =>
        rw [smrun, if_neg hev] at h
        simp only [hstt] at h
        exact absurd h (Option.some_ne_none _).symm
    | some nextstate =>
        by_cases hmarker : nextstate = sm.stInvld ∨ nextstate = sm.stIgnore
        · rw [smrun_marker hle hstt hmarker] at h
          obtain ⟨rfl, rfl⟩ := Prod.mk.inj (Option.some.inj h)
          exact .inl ⟨rfl, rfl⟩
        · cases hsat : sm.sat[sm.index ev]? with
          | none =>
              obtain ⟨hinvld, hignore⟩ := not_or.mp hmarker
              rw [smrun, if_neg hev] at h
              simp only [hstt, hsat] at h
              rw [if_neg hinvld, if_neg hignore] at h
              exact absurd h (Option.some_ne_none _).symm
          | some action =>
              rw [smrun_transition hle hstt hsat hmarker] at h
              obtain ⟨rfl, rfl⟩ := Prod.mk.inj (Option.some.inj h)
              obtain ⟨hinvld, hignore⟩ := not_or.mp hmarker
              exact .inr ⟨nextstate, action, rfl, rfl, hinvld, hignore, rfl, rfl⟩

end Run

end Sm

end SierraSdk
