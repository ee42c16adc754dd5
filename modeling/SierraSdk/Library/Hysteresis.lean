import Mathlib.Order.Lattice

/-!
# Two marks and a level

A regulator is switched on when a level is above the high one of two marks, and off again when the
level is at the low mark or below it: `wanted` says what it should do at a level, given whether it
is on.

Another one remembers the previous level instead of whether it is on: `byEdges` switches on at a
level above the high mark after one that was not, and off at a level that is the low mark after one
above it. It does what is wanted if no level between the marks is left upwards while it is on, no
level is below the low mark while it is on, and none is the low mark after one above it while it is
off (`byEdges_eq_wanted_on_iff`, `byEdges_eq_wanted_off_iff`).
-/

namespace Hysteresis

variable {α : Type*} [LinearOrder α]

/-- A high mark and a low one. -/
structure Marks (α : Type*) [LinearOrder α] where
  hi : α
  lo : α
  le : lo ≤ hi

/-- What a regulator that is on or off should do at a level: switch on or off, or nothing. -/
def wanted (m : Marks α) (on : Bool) (level : α) : Option Bool :=
  if on = false ∧ m.hi < level then some true
  else if on = true ∧ level ≤ m.lo then some false
  else none

/-- What a regulator does that compares a level with the one before it. -/
def byEdges (m : Marks α) (last level : α) : Option Bool :=
  if last ≤ m.hi ∧ m.hi < level then some true
  else if m.lo < last ∧ level = m.lo then some false
  else none

section Edges

variable {m : Marks α} {last level : α}

/-- Off, after a level that is not above the high mark. -/
theorem byEdges_eq_wanted_off_iff (hlast : last ≤ m.hi) :
    byEdges m last level = wanted m false level ↔ ¬ (m.lo < last ∧ level = m.lo) := by
  have hoff : ¬ (false = true ∧ level ≤ m.lo) := fun h => Bool.noConfusion h.1
  rw [byEdges, wanted]
  by_cases hhigh : m.hi < level
  · rw [if_pos ⟨hlast, hhigh⟩, if_pos ⟨rfl, hhigh⟩]
    refine iff_of_true rfl ?_
    rintro ⟨-, rfl⟩
    exact not_lt_of_ge m.le hhigh
  · have hrise : ¬ (last ≤ m.hi ∧ m.hi < level) := fun h => hhigh h.2
    have hon : ¬ (false = false ∧ m.hi < level) := fun h => hhigh h.2
    rw [if_neg hrise, if_neg hon, if_neg hoff]
    by_cases hlow : m.lo < last ∧ level = m.lo
    · rw [if_pos hlow]
      exact iff_of_false (Option.some_ne_none _) fun h => h hlow
    · rw [if_neg hlow]
      exact iff_of_true rfl hlow

/-- On, after a level above the low mark. -/
theorem byEdges_eq_wanted_on_iff (hlast : m.lo < last) :
    byEdges m last level = wanted m true level ↔
      ¬ (last ≤ m.hi ∧ m.hi < level) ∧ m.lo ≤ level := by
  have hon : ¬ (true = false ∧ m.hi < level) := fun h => Bool.noConfusion h.1
  rw [byEdges, wanted, if_neg hon]
  by_cases hrise : last ≤ m.hi ∧ m.hi < level
  · have hhigh : ¬ (true = true ∧ level ≤ m.lo) :=
      fun h => not_le_of_gt (lt_of_le_of_lt m.le hrise.2) h.2
    rw [if_pos hrise, if_neg hhigh]
    exact iff_of_false (Option.some_ne_none _) fun h => h.1 hrise
  · rw [if_neg hrise]
    rcases lt_trichotomy level m.lo with hbelow | hlow | habove
    · have hmark : ¬ (m.lo < last ∧ level = m.lo) := fun h => ne_of_lt hbelow h.2
      rw [if_neg hmark, if_pos ⟨rfl, le_of_lt hbelow⟩]
      exact iff_of_false (Option.some_ne_none _).symm fun h => not_lt_of_ge h.2 hbelow
    · rw [if_pos ⟨hlast, hlow⟩, if_pos ⟨rfl, le_of_eq hlow⟩]
      exact iff_of_true rfl ⟨hrise, ge_of_eq hlow⟩
    · have hmark : ¬ (m.lo < last ∧ level = m.lo) := fun h => ne_of_gt habove h.2
      have hdrained : ¬ (true = true ∧ level ≤ m.lo) := fun h => not_lt_of_ge h.2 habove
      rw [if_neg hmark, if_neg hdrained]
      exact iff_of_true rfl ⟨hrise, le_of_lt habove⟩

/-- Where the highest level there is and the low mark make no difference as the previous level, none
does, and nothing is done. -/
theorem byEdges_constant {top : α} (htop : level ≤ top)
    (hsame : byEdges m top level = byEdges m m.lo level) :
    level ≤ m.hi ∧ (level = m.lo → m.lo = top) := by
  have hlevel : level ≤ m.hi := by
    by_contra hhigh
    have hhigh : m.hi < level := lt_of_not_ge hhigh
    have hfall : ¬ (top ≤ m.hi ∧ m.hi < level) :=
      fun h => not_lt_of_ge (le_trans htop h.1) hhigh
    have hmark : ¬ (m.lo < top ∧ level = m.lo) := fun h => not_lt_of_ge m.le (h.2 ▸ hhigh)
    rw [byEdges, byEdges, if_neg hfall, if_neg hmark, if_pos ⟨m.le, hhigh⟩] at hsame
    exact Option.some_ne_none _ hsame.symm
  refine ⟨hlevel, ?_⟩
  rintro rfl
  have hrise : ∀ last, ¬ (last ≤ m.hi ∧ m.hi < m.lo) := fun last h => not_lt_of_ge hlevel h.2
  have hstill : ¬ (m.lo < m.lo ∧ m.lo = m.lo) := fun h => lt_irrefl _ h.1
  rw [byEdges, byEdges, if_neg (hrise _), if_neg (hrise _), if_neg hstill] at hsame
  by_contra hne
  rw [if_pos ⟨lt_of_le_of_ne htop hne, rfl⟩] at hsame
  exact Option.some_ne_none _ hsame

theorem byEdges_eq_none {top : α} (hhigh : level ≤ m.hi) (hlow : level = m.lo → m.lo = top)
    (hlast : last ≤ top) : byEdges m last level = none := by
  have hrise : ¬ (last ≤ m.hi ∧ m.hi < level) := fun h => not_lt_of_ge hhigh h.2
  have hmark : ¬ (m.lo < last ∧ level = m.lo) := by
    rintro ⟨habove, heq⟩
    exact not_lt_of_ge hlast (hlow heq ▸ habove)
  rw [byEdges, if_neg hrise, if_neg hmark]

theorem wanted_eq_none_iff {on : Bool} :
    wanted m on level = none ↔
      (on = false → level ≤ m.hi) ∧ (on = true → m.lo < level) := by
  cases on with
  | false => simp [wanted]
  | true => simp [wanted]

end Edges

section Alternation

variable {m : Marks α} {on : Bool} {level : α}

/-- Whether a regulator is on after it did something, or nothing. -/
def switched (on : Bool) (did : Option Bool) : Bool := did.getD on

theorem getLastD_toList (on : Bool) (did : Option Bool) :
    did.toList.getLastD on = switched on did := by
  cases did with
  | none => rfl
  | some b => rfl

/-- What is done switches each time. -/
def Alternates : Bool → List Bool → Prop
  | _, [] => True
  | on, b :: bs => b = !on ∧ Alternates b bs

theorem alternates_append (on : Bool) (bs cs : List Bool) :
    Alternates on (bs ++ cs) ↔ Alternates on bs ∧ Alternates (bs.getLastD on) cs := by
  induction bs generalizing on with
  | nil => exact (and_iff_right trivial).symm
  | cons b bs ih =>
      rw [List.cons_append, Alternates, ih, Alternates, and_assoc, List.getLastD_cons]

/-- What is wanted switches. -/
theorem alternates_wanted (m : Marks α) (on : Bool) (level : α) :
    Alternates on (wanted m on level).toList := by
  rw [wanted]
  split_ifs with hon hoff
  · exact ⟨by rw [hon.1]; rfl, trivial⟩
  · exact ⟨by rw [hoff.1]; rfl, trivial⟩
  · trivial

/-- After a level at the low mark or below it the regulator is off. -/
theorem switched_wanted_of_le (hlow : level ≤ m.lo) : switched on (wanted m on level) = false := by
  have hhigh : ¬ (on = false ∧ m.hi < level) := fun h => not_lt_of_ge (le_trans hlow m.le) h.2
  rw [wanted, if_neg hhigh]
  split_ifs with hoff
  · rfl
  · cases on with
    | false => rfl
    | true => exact absurd ⟨rfl, hlow⟩ hoff

/-- A regulator that did what is wanted does nothing more at the same level. -/
theorem stays_of_wanted (m : Marks α) (on : Bool) (level : α) :
    let now := switched on (wanted m on level)
    (now = false → level ≤ m.hi) ∧ (now = true → m.lo < level) := by
  rw [wanted]
  split_ifs with hon hoff
  · exact ⟨fun h => Bool.noConfusion h, fun _ => lt_of_le_of_lt m.le hon.2⟩
  · exact ⟨fun _ => le_trans hoff.2 m.le, fun h => Bool.noConfusion h⟩
  · exact ⟨fun h => le_of_not_gt fun hhigh => hon ⟨h, hhigh⟩,
      fun h => lt_of_not_ge fun hlow => hoff ⟨h, hlow⟩⟩

end Alternation

end Hysteresis
