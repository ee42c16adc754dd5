import SierraSdk.Library.Machine

/-!
# Facilities that serve one request at a time

A `Facility` says how a service with a timeout is read off a machine: which request is outstanding,
how many ticks are left for it, and what the outputs tell a requester. `Serves` is what a step has
to do with it.

Where every step does, the timer runs as long as a request is outstanding, and a request that is
accepted is told of its end once, by an answer or by the last tick (`served_of_meets`). As the ticks
run out, a request cannot be outstanding for ever (`endsIn_of_ticks`).
-/

namespace Facilities

open Machine

variable {σ ι ο ρ : Type*}

/-- The outstanding request of a facility and the ticks that are left for it, the ticks that it
starts with, the request that an input makes and that is accepted when none is outstanding, the
inputs that answer a request, and those that are ticks. Of outputs it is known whether they tell
nobody of an end, and whether they tell a requester nothing, or once that its request has ended. -/
structure Facility (σ ι ο ρ : Type*) where
  outstanding : σ → Option ρ
  timer : σ → ℕ
  limit : ℕ
  accepts : σ → ι → Option ρ
  answers : ι → Prop
  ticks : ι → Bool
  silent : List ο → Prop
  untold : ρ → List ο → Prop
  told : ρ → List ο → Prop

namespace Facility

variable (F : Facility σ ι ο ρ) (step : σ → ι → σ × List ο)

/-- A request stays outstanding in a step, with a tick less if the step is one. -/
structure Continues (r : ρ) (s : σ) (i : ι) : Prop where
  outstanding : F.outstanding (step s i).1 = some r
  timer : F.timer (step s i).1 = F.timer s - (F.ticks i).toNat
  untold : F.untold r (step s i).2

/-- A request ends with a step, which is an answer or the last tick, and its requester is told. -/
structure Ends (r : ρ) (s : σ) (i : ι) : Prop where
  cause : F.answers i ∨ F.ticks i = true ∧ F.timer s = 1
  idle : F.outstanding (step s i).1 = none
  told : F.told r (step s i).2

/-- What a step does with the facility: a request that is accepted becomes the outstanding one, or
its requester is told of its end at once. -/
structure Serves (s : σ) (i : ι) : Prop where
  timed : F.outstanding (step s i).1 ≠ none → 0 < F.timer (step s i).1
  idle : F.outstanding s = none → F.accepts s i = none →
    F.outstanding (step s i).1 = none ∧ F.silent (step s i).2
  accepted : ∀ r, F.outstanding s = none → F.accepts s i = some r →
    (F.outstanding (step s i).1 = some r ∧ F.timer (step s i).1 = F.limit ∧
        F.untold r (step s i).2) ∨
      (F.outstanding (step s i).1 = none ∧ F.told r (step s i).2)
  waits : ∀ r, F.outstanding s = some r → F.Continues step r s i ∨ F.Ends step r s i

/-- A request stays outstanding during a run. -/
def Waits (r : ρ) (s : σ) (is : List ι) : Prop := Meets step (F.Continues step r) s is

/-- A request is outstanding until it ends with a step of the run. -/
def EndsIn (r : ρ) (s : σ) (is : List ι) : Prop :=
  ∃ pre i post, is = pre ++ i :: post ∧ F.Waits step r s pre ∧ F.Ends step r (after step s pre) i

/-- In a run the timer runs when a request is outstanding, and each accepted request is told of its
end at once, or at a later step, or there were not enough ticks yet. -/
structure Served (s : σ) (is : List ι) : Prop where
  timed : ∀ pre post, is = pre ++ post → F.outstanding (after step s pre) ≠ none →
    0 < F.timer (after step s pre)
  once : ∀ pre i post r, is = pre ++ i :: post → F.outstanding (after step s pre) = none →
    F.accepts (after step s pre) i = some r →
      let t := step (after step s pre) i
      (F.outstanding t.1 = none ∧ F.told r t.2) ∨
        (F.outstanding t.1 = some r ∧ F.untold r t.2 ∧
          (F.EndsIn step r t.1 post ∨
            F.Waits step r t.1 post ∧ post.countP F.ticks < F.limit))

variable {F step} {s : σ} {r : ρ} {i : ι} {is : List ι}

section Steps

/-! What a step has to be shown to do, by the outstanding request in front of it. -/

theorem serves_of_idle (hs : F.outstanding s = none) (haccepts : F.accepts s i = none)
    (hidle : F.outstanding (step s i).1 = none) (hsilent : F.silent (step s i).2) :
    F.Serves step s i where
  timed hbusy := absurd hidle hbusy
  idle _ _ := ⟨hidle, hsilent⟩
  accepted r _ hr := absurd (haccepts.symm.trans hr) (Option.some_ne_none r).symm
  waits r hr := absurd (hs.symm.trans hr) (Option.some_ne_none r).symm

theorem serves_of_accepted (hs : F.outstanding s = none) (haccepts : F.accepts s i = some r)
    (hr : F.outstanding (step s i).1 = some r) (htimer : F.timer (step s i).1 = F.limit)
    (hlimit : 0 < F.limit) (huntold : F.untold r (step s i).2) : F.Serves step s i where
  timed _ := Nat.lt_of_lt_of_eq hlimit htimer.symm
  idle _ hnone := absurd (haccepts.symm.trans hnone) (Option.some_ne_none r)
  accepted r' _ hr' := by
    obtain rfl := Option.some.inj (haccepts.symm.trans hr')
    exact .inl ⟨hr, htimer, huntold⟩
  waits r hr := absurd (hs.symm.trans hr) (Option.some_ne_none r).symm

theorem serves_of_atOnce (hs : F.outstanding s = none) (haccepts : F.accepts s i = some r)
    (hidle : F.outstanding (step s i).1 = none) (htold : F.told r (step s i).2) :
    F.Serves step s i where
  timed hbusy := absurd hidle hbusy
  idle _ hnone := absurd (haccepts.symm.trans hnone) (Option.some_ne_none r)
  accepted r' _ hr' := by
    obtain rfl := Option.some.inj (haccepts.symm.trans hr')
    exact .inr ⟨hidle, htold⟩
  waits r hr := absurd (hs.symm.trans hr) (Option.some_ne_none r).symm

theorem serves_of_continues (hs : F.outstanding s = some r) (h : F.Continues step r s i)
    (hpos : 0 < F.timer (step s i).1) : F.Serves step s i where
  timed _ := hpos
  idle hnone := absurd (hs.symm.trans hnone) (Option.some_ne_none r)
  accepted _ hnone := absurd (hs.symm.trans hnone) (Option.some_ne_none r)
  waits r' hr' := by
    obtain rfl := Option.some.inj (hs.symm.trans hr')
    exact .inl h

theorem serves_of_ends (hs : F.outstanding s = some r) (h : F.Ends step r s i) :
    F.Serves step s i where
  timed hbusy := absurd h.idle hbusy
  idle hnone := absurd (hs.symm.trans hnone) (Option.some_ne_none r)
  accepted _ hnone := absurd (hs.symm.trans hnone) (Option.some_ne_none r)
  waits r' hr' := by
    obtain rfl := Option.some.inj (hs.symm.trans hr')
    exact .inr h

/-- A step that has nothing to do with the facility. -/
theorem serves_of_frame (haccepts : F.accepts s i = none) (hticks : F.ticks i = false)
    (houtstanding : F.outstanding (step s i).1 = F.outstanding s)
    (htimer : F.timer (step s i).1 = F.timer s) (hpos : F.outstanding s ≠ none → 0 < F.timer s)
    (hsilent : F.silent (step s i).2) (huntold : ∀ r, F.untold r (step s i).2) :
    F.Serves step s i := by
  cases hs : F.outstanding s with
  | none => exact serves_of_idle hs haccepts (houtstanding.trans hs) hsilent
  | some r =>
      have hrunning : 0 < F.timer s := hpos (hs ▸ Option.some_ne_none r)
      refine serves_of_continues hs ⟨houtstanding.trans hs, ?_, huntold r⟩
        (Nat.lt_of_lt_of_eq hrunning htimer.symm)
      rw [htimer, hticks]
      rfl

end Steps

/-- A request that waits longer than one step. -/
theorem EndsIn.cons (hfirst : F.Continues step r s i)
    (h : F.EndsIn step r (step s i).1 is) : F.EndsIn step r s (i :: is) := by
  obtain ⟨pre, j, post, rfl, hpre, hends⟩ := h
  exact ⟨i :: pre, j, post, rfl, ⟨hfirst, hpre⟩, hends⟩

theorem waits_or_endsIn (h : Meets step (F.Serves step) s is) (hr : F.outstanding s = some r) :
    F.Waits step r s is ∨ F.EndsIn step r s is := by
  induction is generalizing s with
  | nil => exact .inl meets_nil
  | cons i is ih =>
      rcases h.1.waits r hr with hfirst | hends
      · rcases ih h.2 hfirst.outstanding with hwaits | hends
        · exact .inl ⟨hfirst, hwaits⟩
        · exact .inr (hends.cons hfirst)
      · exact .inr ⟨[], i, is, rfl, meets_nil, hends⟩

/-- While a request waits, every tick counts. -/
theorem Waits.countP_lt (hwaits : F.Waits step r s is) (h : Meets step (F.Serves step) s is)
    (hpos : 0 < F.timer s) : is.countP F.ticks < F.timer s := by
  induction is generalizing s with
  | nil => exact hpos
  | cons i is ih =>
      obtain ⟨hfirst, hrest⟩ := hwaits
      have hnext : 0 < F.timer (step s i).1 := by
        apply h.1.timed
        rw [hfirst.outstanding]
        exact Option.some_ne_none r
      have hcount := ih hrest h.2 hnext
      rw [hfirst.timer] at hcount
      rw [List.countP_cons]
      cases htick : F.ticks i with
      | false =>
          rw [htick] at hcount
          exact hcount
      | true =>
          rw [htick] at hcount
          exact Nat.add_lt_of_lt_sub hcount

/-- A request ends at the latest with the last of its ticks. -/
theorem endsIn_of_ticks (h : Meets step (F.Serves step) s is) (hr : F.outstanding s = some r)
    (hpos : 0 < F.timer s) (hticks : F.timer s ≤ is.countP F.ticks) : F.EndsIn step r s is := by
  rcases waits_or_endsIn h hr with hwaits | hends
  · exact absurd (hwaits.countP_lt h hpos) (Nat.not_lt_of_le hticks)
  · exact hends

/-- A run whose steps serve the facility. -/
theorem served_of_meets (hs : F.outstanding s = none) (h : Meets step (F.Serves step) s is) :
    F.Served step s is := by
  have htimed : ∀ pre post, is = pre ++ post → F.outstanding (after step s pre) ≠ none →
      0 < F.timer (after step s pre) := by
    intro pre post hsplit hbusy
    rcases List.eq_nil_or_concat pre with rfl | ⟨init, i, rfl⟩
    · exact absurd hs hbusy
    · rw [List.concat_eq_append, after_concat] at hbusy ⊢
      refine (meets_iff.mp h init i post ?_).timed hbusy
      rw [hsplit, List.concat_eq_append, List.append_assoc, List.singleton_append]
  refine ⟨htimed, fun pre i post r hsplit hidle haccepts => ?_⟩
  rw [hsplit, meets_append, meets_cons] at h
  obtain ⟨-, hstep, hpost⟩ := h
  rcases hstep.accepted r hidle haccepts with ⟨hr, hlimit, huntold⟩ | hatonce
  · refine .inr ⟨hr, huntold, ?_⟩
    have hpos : 0 < F.timer (step (after step s pre) i).1 := by
      apply hstep.timed
      rw [hr]
      exact Option.some_ne_none r
    rcases waits_or_endsIn hpost hr with hwaits | hends
    · exact .inr ⟨hwaits, hlimit ▸ hwaits.countP_lt hpost hpos⟩
    · exact .inl hends
  · exact .inl hatonce

end Facility

end Facilities
