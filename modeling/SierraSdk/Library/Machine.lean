import Mathlib.Data.List.Basic

/-!
# Machines that answer inputs with outputs

A machine is a step function `step : σ → ι → σ × List ο`: one input takes the state to
the next one and emits a list of outputs. `after step s is` is the state that the inputs
`is` lead to from `s`, and `outputs step s is` is everything emitted on the way.

`Meets step G s is` says that every step of the run satisfies the guard `G`, which reads
the state before the step and the input. Invariants and simulations are stated for runs
that meet a guard; the guard `fun _ _ => True` gives the unguarded form. `meets_iff` reads
a guarded run as a statement about every prefix, and `not_meets_iff` finds the first step
that breaks the guard.
-/

namespace Machine

variable {σ τ ι ο : Type*}

/-- The state after the inputs `is`. -/
def after (step : σ → ι → σ × List ο) : σ → List ι → σ
  | s, [] => s
  | s, i :: is => after step (step s i).1 is

/-- The outputs of the inputs `is`, in order. -/
def outputs (step : σ → ι → σ × List ο) : σ → List ι → List ο
  | _, [] => []
  | s, i :: is => (step s i).2 ++ outputs step (step s i).1 is

/-- Every step of the run satisfies the guard. -/
def Meets (step : σ → ι → σ × List ο) (G : σ → ι → Prop) : σ → List ι → Prop
  | _, [] => True
  | s, i :: is => G s i ∧ Meets step G (step s i).1 is

instance instDecidableMeets (step : σ → ι → σ × List ο) (G : σ → ι → Prop)
    [∀ s i, Decidable (G s i)] : ∀ s is, Decidable (Meets step G s is)
  | _, [] => inferInstanceAs (Decidable True)
  | s, i :: is =>
      haveI : Decidable (Meets step G (step s i).1 is) :=
        instDecidableMeets step G (step s i).1 is
      inferInstanceAs (Decidable (G s i ∧ Meets step G (step s i).1 is))

/-- Two actions in a row, each of which may stop the machine; the second is not done if the
first stopped it. -/
def andThen (r : Option σ × List ο) (f : σ → Option σ × List ο) : Option σ × List ο :=
  match r with
  | (none, out) => (none, out)
  | (some s, out) => ((f s).1, out ++ (f s).2)

/-- Two actions in a row that did not stop the machine. -/
theorem andThen_some {r : Option σ × List ο} {f : σ → Option σ × List ο} {t : σ}
    (h : (andThen r f).1 = some t) :
    ∃ s, r.1 = some s ∧ (f s).1 = some t ∧ (andThen r f).2 = r.2 ++ (f s).2 := by
  obtain ⟨_ | s, out⟩ := r
  · exact absurd h (Option.some_ne_none t).symm
  · exact ⟨s, rfl, h, rfl⟩

/-- What each action keeps, a row of actions that did not stop the machine keeps. -/
theorem foldlM_invariant {f : σ → ο → Option σ} {P : σ → Prop}
    (hf : ∀ s o t, P s → f s o = some t → P t) {s t : σ} (hs : P s) {os : List ο}
    (h : os.foldlM f s = some t) : P t := by
  induction os generalizing s with
  | nil => exact Option.some.inj h ▸ hs
  | cons o os ih =>
      obtain ⟨u, hu, hrest⟩ := Option.bind_eq_some_iff.mp h
      exact ih (hf s o u hs hu) hrest

/-- Where an action either overwrites what `read` reads or leaves it alone, it reads the last value
written after a row of actions, and what it read before if nothing was written. -/
theorem foldlM_lastEffect {f : σ → ο → Option σ} (read : σ → τ) {effect : ο → Option τ}
    (hf : ∀ s o t, f s o = some t → read t = (effect o).getD (read s)) {s t : σ} {os : List ο}
    (h : os.foldlM f s = some t) :
    read t = (os.reverse.findSome? effect).getD (read s) := by
  induction os generalizing s with
  | nil => exact Option.some.inj h ▸ rfl
  | cons o os ih =>
      obtain ⟨u, hu, hrest⟩ := Option.bind_eq_some_iff.mp h
      rw [ih hrest, hf s o u hu, List.reverse_cons, List.findSome?_append]
      cases os.reverse.findSome? effect with
      | none => simp
      | some b => rfl

section Append

variable (step : σ → ι → σ × List ο) (s : σ)

@[simp] theorem after_nil : after step s [] = s := rfl

@[simp] theorem outputs_nil : outputs step s [] = [] := rfl

@[simp] theorem after_cons (i : ι) (is : List ι) :
    after step s (i :: is) = after step (step s i).1 is := rfl

@[simp] theorem outputs_cons (i : ι) (is : List ι) :
    outputs step s (i :: is) = (step s i).2 ++ outputs step (step s i).1 is := rfl

theorem after_append (is js : List ι) :
    after step s (is ++ js) = after step (after step s is) js := by
  induction is generalizing s with
  | nil => rfl
  | cons i is ih => exact ih (step s i).1

theorem outputs_append (is js : List ι) :
    outputs step s (is ++ js) =
      outputs step s is ++ outputs step (after step s is) js := by
  induction is generalizing s with
  | nil => rfl
  | cons i is ih =>
      rw [List.cons_append, outputs_cons, outputs_cons, ih, after_cons, List.append_assoc]

theorem after_concat (is : List ι) (i : ι) :
    after step s (is ++ [i]) = (step (after step s is) i).1 := by
  rw [after_append, after_cons, after_nil]

theorem outputs_concat (is : List ι) (i : ι) :
    outputs step s (is ++ [i]) = outputs step s is ++ (step (after step s is) i).2 := by
  rw [outputs_append, outputs_cons, outputs_nil, List.append_nil]

/-- An output of a run is the output of one of its steps. -/
theorem mem_outputs_iff (is : List ι) (o : ο) :
    o ∈ outputs step s is ↔
      ∃ pre i post, is = pre ++ i :: post ∧ o ∈ (step (after step s pre) i).2 := by
  induction is generalizing s with
  | nil => simp
  | cons i is ih =>
      rw [outputs_cons, List.mem_append, ih]
      constructor
      · rintro (h | ⟨pre, j, post, rfl, h⟩)
        · exact ⟨[], i, is, rfl, h⟩
        · exact ⟨i :: pre, j, post, rfl, h⟩
      · rintro ⟨pre, j, post, hsplit, h⟩
        cases pre with
        | nil =>
            obtain ⟨rfl, rfl⟩ := List.cons.inj hsplit
            exact .inl h
        | cons k pre =>
            obtain ⟨rfl, rfl⟩ := List.cons.inj hsplit
            exact .inr ⟨pre, j, post, rfl, h⟩

end Append

section Guards

variable {step : σ → ι → σ × List ο} {G : σ → ι → Prop} {s : σ}

@[simp] theorem meets_nil : Meets step G s [] := trivial

@[simp] theorem meets_cons {i : ι} {is : List ι} :
    Meets step G s (i :: is) ↔ G s i ∧ Meets step G (step s i).1 is := Iff.rfl

theorem meets_append {is js : List ι} :
    Meets step G s (is ++ js) ↔
      Meets step G s is ∧ Meets step G (after step s is) js := by
  induction is generalizing s with
  | nil => simp
  | cons i is ih => rw [List.cons_append, meets_cons, meets_cons, ih, after_cons, and_assoc]

/-- A run meets the guard when each of its steps does. -/
theorem meets_iff {is : List ι} :
    Meets step G s is ↔
      ∀ pre i post, is = pre ++ i :: post → G (after step s pre) i := by
  induction is generalizing s with
  | nil => simp
  | cons i is ih =>
      rw [meets_cons, ih]
      constructor
      · rintro ⟨hi, his⟩ pre j post hsplit
        cases pre with
        | nil =>
            obtain ⟨rfl, rfl⟩ := List.cons.inj hsplit
            exact hi
        | cons k pre =>
            obtain ⟨rfl, rfl⟩ := List.cons.inj hsplit
            exact his pre j post rfl
      · intro h
        refine ⟨h [] i is rfl, fun pre j post hsplit => ?_⟩
        exact h (i :: pre) j post (by rw [hsplit]; rfl)

/-- A run that does not meet the guard has a first step that breaks it. -/
theorem not_meets_iff {is : List ι} :
    ¬ Meets step G s is ↔
      ∃ pre i post, is = pre ++ i :: post ∧ Meets step G s pre ∧
        ¬ G (after step s pre) i := by
  classical
  constructor
  · intro h
    induction is generalizing s with
    | nil => exact absurd meets_nil h
    | cons i is ih =>
        by_cases hi : G s i
        · obtain ⟨pre, j, post, rfl, hpre, hj⟩ := ih fun his => h ⟨hi, his⟩
          exact ⟨i :: pre, j, post, rfl, ⟨hi, hpre⟩, hj⟩
        · exact ⟨[], i, is, rfl, trivial, hi⟩
  · rintro ⟨pre, i, post, rfl, _, hi⟩ h
    exact hi (meets_iff.mp h pre i post rfl)

theorem Meets.mono {G' : σ → ι → Prop} (hG : ∀ s i, G s i → G' s i) {is : List ι}
    (h : Meets step G s is) : Meets step G' s is := by
  rw [meets_iff] at h ⊢
  exact fun pre i post hsplit => hG _ _ (h pre i post hsplit)

/-- What every guarded step from an invariant state guarantees of itself holds of every
step of a guarded run. -/
theorem meets_of_invariant {I : σ → Prop} {P : σ → ι → Prop}
    (hstep : ∀ s i, I s → G s i → I (step s i).1) (hP : ∀ s i, I s → G s i → P s i)
    (hs : I s) {is : List ι} (h : Meets step G s is) : Meets step P s is := by
  induction is generalizing s with
  | nil => trivial
  | cons i is ih => exact ⟨hP s i hs h.1, ih (hstep s i hs h.1) h.2⟩

/-- A machine that follows another one step by step, emitting the same outputs, emits the
same outputs over a run. The guard is a condition on the steps of the first machine. -/
theorem simulation {step' : τ → ι → τ × List ο} {R : σ → τ → Prop}
    (hstep : ∀ s t i, R s t → G s i →
      R (step s i).1 (step' t i).1 ∧ (step s i).2 = (step' t i).2)
    {t : τ} (hst : R s t) {is : List ι} (h : Meets step G s is) :
    R (after step s is) (after step' t is) ∧ outputs step s is = outputs step' t is := by
  induction is generalizing s t with
  | nil => exact ⟨hst, rfl⟩
  | cons i is ih =>
      obtain ⟨hR, hout⟩ := hstep s t i hst h.1
      obtain ⟨hR', hout'⟩ := ih hR h.2
      exact ⟨hR', by rw [outputs_cons, outputs_cons, hout, hout']⟩

/-- A guarded run of a machine that is followed step by step meets, on the side of the
follower, what the guard implies there. -/
theorem meets_of_simulation {step' : τ → ι → τ × List ο} {R : σ → τ → Prop}
    {G' : τ → ι → Prop}
    (hstep : ∀ s t i, R s t → G s i → R (step s i).1 (step' t i).1)
    (hG : ∀ s t i, R s t → G s i → G' t i)
    {t : τ} (hst : R s t) {is : List ι} (h : Meets step G s is) : Meets step' G' t is := by
  induction is generalizing s t with
  | nil => trivial
  | cons i is ih => exact ⟨hG s t i hst h.1, ih (hstep s t i hst h.1) h.2⟩

theorem Meets.and {G' : σ → ι → Prop} {is : List ι} (h : Meets step G s is)
    (h' : Meets step G' s is) : Meets step (fun s i => G s i ∧ G' s i) s is := by
  rw [meets_iff] at h h' ⊢
  intro pre i post hsplit
  exact ⟨h pre i post hsplit, h' pre i post hsplit⟩

/-- What all outputs of a run satisfy, the outputs of each step satisfy. -/
theorem meets_of_outputs {P : ο → Prop} {is : List ι} (h : ∀ o ∈ outputs step s is, P o) :
    Meets step (fun s i => ∀ o ∈ (step s i).2, P o) s is := by
  rw [meets_iff]
  intro pre i post hsplit o ho
  exact h o ((mem_outputs_iff step s is o).mpr ⟨pre, i, post, hsplit, ho⟩)

/-- A state that no input leaves and that answers nothing. -/
theorem idle (h : ∀ i, step s i = (s, [])) (is : List ι) :
    after step s is = s ∧ outputs step s is = [] := by
  induction is with
  | nil => exact ⟨rfl, rfl⟩
  | cons i is ih =>
      rw [after_cons, outputs_cons, h i]
      exact ih

/-- What every step from an invariant state guarantees of its outputs holds of all outputs of
a run. -/
theorem invariant_outputs {I : σ → Prop} {P : ο → Prop}
    (hstep : ∀ s i, I s → I (step s i).1 ∧ ∀ o ∈ (step s i).2, P o) (hs : I s) (is : List ι) :
    I (after step s is) ∧ ∀ o ∈ outputs step s is, P o := by
  induction is generalizing s with
  | nil => exact ⟨hs, fun o ho => absurd ho List.not_mem_nil⟩
  | cons i is ih =>
      obtain ⟨hnext, hout⟩ := hstep s i hs
      obtain ⟨hend, hrest⟩ := ih hnext
      refine ⟨hend, fun o ho => ?_⟩
      rw [outputs_cons] at ho
      rcases List.mem_append.mp ho with ho | ho
      · exact hout o ho
      · exact hrest o ho

end Guards

end Machine
