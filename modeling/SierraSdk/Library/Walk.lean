import Mathlib.Data.List.Basic

/-!
# Walks over a list of cells

A walker is at a non-empty list of cells that it has not read yet. A step changes its state and
leaves fewer cells, or fails. `visits` are the steps of a walk, each with the cells it began at,
the state it left and the cells it left, and `run` is the state at the end of a walk, and
whether the walk got there without a failure.

A walker over items that are encoded one after the other visits them as their encoding says,
`inOrder`, exactly if each of its steps takes one item (`visits_eq_inOrder_iff`).
-/

namespace Walk

variable {α σ : Type*}

/-- A step, and that it leaves fewer cells. -/
structure Walker (α σ : Type*) where
  step : List α → σ → σ × Option (List α)
  shorter : ∀ {xs ys s}, xs ≠ [] → (step xs s).2 = some ys → ys.length < xs.length

/-- A step as it is seen: the cells it began at, and its result. -/
abbrev Visit (α σ : Type*) := List α × σ × Option (List α)

/-- The steps of a walk. -/
def visits (W : Walker α σ) (xs : List α) (s : σ) : List (Visit α σ) :=
  if _hne : xs = [] then []
  else
    match _hstep : W.step xs s with
    | (s', none) => [(xs, s', none)]
    | (s', some ys) => (xs, s', some ys) :: visits W ys s'
termination_by xs.length
decreasing_by exact W.shorter _hne (congrArg Prod.snd _hstep)

/-- The state that steps lead to, and whether none of them failed. -/
def ended (s : σ) : List (Visit α σ) → σ × Bool
  | [] => (s, true)
  | (_, s', none) :: _ => (s', false)
  | (_, s', some _) :: vs => ended s' vs

/-- The end of a walk. -/
def run (W : Walker α σ) (xs : List α) (s : σ) : σ × Bool := ended s (visits W xs s)

section Steps

variable {W : Walker α σ} {xs ys : List α} {s s' : σ}

@[simp] theorem visits_nil : visits W [] s = [] := by
  rw [visits, dif_pos rfl]

theorem visits_of_some (hne : xs ≠ []) (h : W.step xs s = (s', some ys)) :
    visits W xs s = (xs, s', some ys) :: visits W ys s' := by
  rw [visits, dif_neg hne]
  split
  · rename_i hstep
    rw [h] at hstep
    exact absurd (congrArg Prod.snd hstep) (Option.some_ne_none ys)
  · rename_i hstep
    rw [h] at hstep
    obtain ⟨rfl, hys⟩ := Prod.mk.inj hstep
    obtain rfl := Option.some.inj hys
    rfl

theorem visits_of_none (hne : xs ≠ []) (h : W.step xs s = (s', none)) :
    visits W xs s = [(xs, s', none)] := by
  rw [visits, dif_neg hne]
  split
  · rename_i hstep
    rw [h] at hstep
    obtain ⟨rfl, -⟩ := Prod.mk.inj hstep
    rfl
  · rename_i hstep
    rw [h] at hstep
    exact absurd (congrArg Prod.snd hstep).symm (Option.some_ne_none _)

/-- The first step of a walk. -/
theorem head_visits (hne : xs ≠ []) : ∃ vs, visits W xs s = (xs, W.step xs s) :: vs := by
  cases hstep : W.step xs s with
  | mk s' next =>
      cases next with
      | none => exact ⟨[], visits_of_none hne hstep⟩
      | some ys => exact ⟨visits W ys s', visits_of_some hne hstep⟩

/-- A step begins at no more cells than the walk. -/
theorem length_le_of_mem_visits {v : Visit α σ} (h : v ∈ visits W xs s) :
    v.1.length ≤ xs.length := by
  induction hlength : xs.length using Nat.strongRecOn generalizing xs s with
  | ind length ih =>
      by_cases hne : xs = []
      · rw [hne, visits_nil] at h
        cases h
      cases hstep : W.step xs s with
      | mk s' next =>
          cases next with
          | none =>
              rw [visits_of_none hne hstep, List.mem_singleton] at h
              rw [h]
              exact Nat.le_of_eq hlength
          | some ys =>
              have hshorter := W.shorter hne (congrArg Prod.snd hstep)
              rw [visits_of_some hne hstep] at h
              rcases List.mem_cons.mp h with rfl | hlater
              · exact Nat.le_of_eq hlength
              · have hle := ih ys.length (hlength ▸ hshorter) hlater rfl
                omega

/-- A step that does not fail is followed by the rest of the walk. -/
theorem run_of_some (hne : xs ≠ []) (h : W.step xs s = (s', some ys)) :
    run W xs s = run W ys s' := by
  rw [run, visits_of_some hne h, ended, run]

theorem run_of_none (hne : xs ≠ []) (h : W.step xs s = (s', none)) : run W xs s = (s', false) := by
  rw [run, visits_of_none hne h, ended]

/-- Two walkers that go the same way and keep their states related end alike, and related. -/
theorem run_related {τ : Type*} {W' : Walker α τ} {R : σ → τ → Prop}
    (hstep : ∀ xs s t, R s t →
      R (W.step xs s).1 (W'.step xs t).1 ∧ (W.step xs s).2 = (W'.step xs t).2)
    {t : τ} (h : R s t) : R (run W xs s).1 (run W' xs t).1 ∧ (run W xs s).2 = (run W' xs t).2 := by
  induction hlength : xs.length using Nat.strongRecOn generalizing xs s t with
  | ind length ih =>
      by_cases hne : xs = []
      · subst hne
        simp only [run, visits_nil, ended]
        exact ⟨h, trivial⟩
      obtain ⟨hnext, hgo⟩ := hstep xs s t h
      cases hs : W.step xs s with
      | mk s' next =>
          cases ht : W'.step xs t with
          | mk t' next' =>
              rw [hs, ht] at hnext hgo
              obtain rfl : next = next' := hgo
              cases next with
              | none =>
                  rw [run_of_none hne hs, run_of_none hne ht]
                  exact ⟨hnext, rfl⟩
              | some ys =>
                  rw [run_of_some hne hs, run_of_some hne ht]
                  exact ih ys.length (hlength ▸ W.shorter hne (congrArg Prod.snd hs)) hnext rfl

end Steps

/-- A walk over the first cells of a walk, and the rest of it. -/
theorem walk_induction {W : Walker α σ} {P : List α → σ → Prop} (hnil : ∀ s, P [] s)
    (hstop : ∀ xs s s', xs ≠ [] → W.step xs s = (s', none) → P xs s)
    (hgo : ∀ xs s s' ys, xs ≠ [] → W.step xs s = (s', some ys) → P ys s' → P xs s)
    (xs : List α) (s : σ) : P xs s := by
  induction hlength : xs.length using Nat.strongRecOn generalizing xs s with
  | ind length ih =>
      by_cases hne : xs = []
      · exact hne ▸ hnil s
      cases hs : W.step xs s with
      | mk s' next =>
          cases next with
          | none => exact hstop xs s s' hne hs
          | some ys =>
              have hshorter := W.shorter hne (congrArg Prod.snd hs)
              exact hgo xs s s' ys hne hs (ih ys.length (hlength ▸ hshorter) ys s' rfl)

section Fields

variable {W : Walker α σ} {γ : Type*} {f : σ → γ} {p : List α → Prop}

/-- What only steps from certain cells change, a walk without such steps keeps. -/
theorem run_keeps (hkeep : ∀ xs s, ¬ p xs → f (W.step xs s).1 = f s) {xs : List α} {s : σ}
    (h : ∀ v ∈ visits W xs s, ¬ p v.1) : f (run W xs s).1 = f s := by
  induction xs, s using walk_induction (W := W) with
  | hnil s => rw [run, visits_nil, ended]
  | hstop xs s s' hne hs =>
      rw [visits_of_none hne hs] at h
      rw [run_of_none hne hs, ← hkeep xs s (h _ (List.mem_singleton_self _)), hs]
  | hgo xs s s' ys hne hs ih =>
      rw [visits_of_some hne hs] at h
      rw [run_of_some hne hs, ih fun v hv => h v (List.mem_cons_of_mem _ hv),
        ← hkeep xs s (h _ List.mem_cons_self), hs]

variable (hnext : ∀ xs s t, (W.step xs s).2 = (W.step xs t).2)

include hnext

/-- A walker whose way does not depend on its state begins its steps at the same cells. -/
theorem map_fst_visits (xs : List α) (s t : σ) :
    (visits W xs s).map Prod.fst = (visits W xs t).map Prod.fst := by
  induction xs, s using walk_induction (W := W) generalizing t with
  | hnil s => rw [visits_nil, visits_nil]
  | hstop xs s s' hne hs =>
      have hend : (W.step xs s).2 = none := by rw [hs]
      have ht : W.step xs t = ((W.step xs t).1, none) :=
        Prod.ext rfl ((hnext xs t s).trans hend)
      rw [visits_of_none hne hs, visits_of_none hne ht]
      rfl
  | hgo xs s s' ys hne hs ih =>
      have hend : (W.step xs s).2 = some ys := by rw [hs]
      have ht : W.step xs t = ((W.step xs t).1, some ys) :=
        Prod.ext rfl ((hnext xs t s).trans hend)
      rw [visits_of_some hne hs, visits_of_some hne ht, List.map_cons, List.map_cons,
        ih (W.step xs t).1]

/-- What such steps set, whatever the state was, is the same after any walk with such a step. -/
theorem run_sets (hkeep : ∀ xs s, ¬ p xs → f (W.step xs s).1 = f s)
    (hset : ∀ xs s t, p xs → f (W.step xs s).1 = f (W.step xs t).1) {xs : List α} {s : σ}
    (h : ∃ v ∈ visits W xs s, p v.1) (t : σ) : f (run W xs s).1 = f (run W xs t).1 := by
  have hrelated : ∀ xs s t, f s = f t → f (run W xs s).1 = f (run W xs t).1 := by
    intro xs s t hst
    refine (run_related (R := fun s t => f s = f t) (fun xs s t hst => ⟨?_, hnext xs s t⟩) hst).1
    by_cases hp : p xs
    · exact hset xs s t hp
    · rw [hkeep xs s hp, hkeep xs t hp, hst]
  induction xs, s using walk_induction (W := W) generalizing t with
  | hnil s =>
      obtain ⟨v, hv, -⟩ := h
      rw [visits_nil] at hv
      cases hv
  | hstop xs s s' hne hs =>
      obtain ⟨v, hv, hp⟩ := h
      rw [visits_of_none hne hs, List.mem_singleton] at hv
      have hend : (W.step xs s).2 = none := by rw [hs]
      have ht : W.step xs t = ((W.step xs t).1, none) :=
        Prod.ext rfl ((hnext xs t s).trans hend)
      have hs1 : (W.step xs s).1 = s' := by rw [hs]
      rw [run_of_none hne hs, run_of_none hne ht, ← hs1]
      rw [hv] at hp
      exact hset xs s t hp
  | hgo xs s s' ys hne hs ih =>
      obtain ⟨v, hv, hp⟩ := h
      rw [visits_of_some hne hs] at hv
      have hend : (W.step xs s).2 = some ys := by rw [hs]
      have ht : W.step xs t = ((W.step xs t).1, some ys) :=
        Prod.ext rfl ((hnext xs t s).trans hend)
      rw [run_of_some hne hs, run_of_some hne ht]
      rcases List.mem_cons.mp hv with rfl | hlater
      · have hs1 : (W.step xs s).1 = s' := by rw [hs]
        apply hrelated
        rw [← hs1]
        exact hset xs s t hp
      · exact ih ⟨v, hlater, hp⟩ (W.step xs t).1

end Fields

/-- The cells that a walk begins its steps at, another walk comes to as well if it goes on
wherever the first one does. -/
theorem visited_of_visited {τ : Type*} {W : Walker α σ} {V : Walker α τ}
    (hgo : ∀ xs ys s t, (W.step xs s).2 = some ys → (V.step xs t).2 = some ys)
    (xs : List α) (s : σ) (t : τ) :
    ∀ v ∈ visits W xs s, ∃ w ∈ visits V xs t, w.1 = v.1 := by
  induction xs, s using walk_induction (W := W) generalizing t with
  | hnil s =>
      rw [visits_nil]
      exact fun v hv => absurd hv List.not_mem_nil
  | hstop xs s s' hne hs =>
      intro v hv
      obtain ⟨vs, hvs⟩ := head_visits (W := V) (s := t) hne
      rw [visits_of_none hne hs, List.mem_singleton] at hv
      exact ⟨_, hvs ▸ List.mem_cons_self, by rw [hv]⟩
  | hgo xs s s' ys hne hs ih =>
      have hend : (W.step xs s).2 = some ys := by rw [hs]
      have ht : V.step xs t = ((V.step xs t).1, some ys) := Prod.ext rfl (hgo xs ys s t hend)
      rw [visits_of_some hne hs, visits_of_some hne ht]
      intro v hv
      rcases List.mem_cons.mp hv with rfl | hlater
      · exact ⟨_, List.mem_cons_self, rfl⟩
      · obtain ⟨w, hw, hcells⟩ := ih (V.step xs t).1 v hlater
        exact ⟨w, List.mem_cons_of_mem _ hw, hcells⟩

section Items

variable {β : Type*} {enc : β → List α} {put : β → σ → σ}

/-- The visits that items ask for: each is taken as a whole, by `put`. -/
def inOrder (enc : β → List α) (put : β → σ → σ) : List β → σ → List (Visit α σ)
  | [], _ => []
  | b :: bs, s =>
      ((b :: bs).flatMap enc, put b s, some (bs.flatMap enc)) :: inOrder enc put bs (put b s)

/-- The state after all items are taken. -/
def putAll (put : β → σ → σ) (bs : List β) (s : σ) : σ := bs.foldl (fun s b => put b s) s

theorem ended_inOrder (bs : List β) (s : σ) :
    ended s (inOrder enc put bs s) = (putAll put bs s, true) := by
  induction bs generalizing s with
  | nil => rfl
  | cons b bs ih => exact ih (put b s)

variable {W : Walker α σ} (henc : ∀ b, enc b ≠ [])

include henc

/-- A walker that takes an item exactly if it is `Ok` goes over the items in order exactly if
all are. -/
theorem visits_eq_inOrder_iff {Ok : β → Prop}
    (hstep : ∀ b rest s, W.step (enc b ++ rest) s = (put b s, some rest) ↔ Ok b)
    (bs : List β) (s : σ) :
    visits W (bs.flatMap enc) s = inOrder enc put bs s ↔ ∀ b ∈ bs, Ok b := by
  induction bs generalizing s with
  | nil => simp [inOrder]
  | cons b bs ih =>
      have hne : (b :: bs).flatMap enc ≠ [] := by
        rw [List.flatMap_cons]
        exact fun hnil => henc b (List.append_eq_nil_iff.mp hnil).1
      rw [List.forall_mem_cons, ← ih (put b s)]
      constructor
      · intro h
        obtain ⟨vs, hvs⟩ := head_visits (W := W) (s := s) hne
        rw [hvs, inOrder] at h
        have htake : W.step ((b :: bs).flatMap enc) s = (put b s, some (bs.flatMap enc)) :=
          (Prod.mk.inj (List.cons.inj h).1).2
        refine ⟨(hstep b (bs.flatMap enc) s).mp htake, ?_⟩
        rw [visits_of_some hne htake] at hvs
        rw [(List.cons.inj hvs).2]
        exact (List.cons.inj h).2
      · rintro ⟨hok, htail⟩
        have htake : W.step ((b :: bs).flatMap enc) s = (put b s, some (bs.flatMap enc)) :=
          (hstep b (bs.flatMap enc) s).mpr hok
        rw [visits_of_some hne htake, htail]
        rfl

end Items

end Walk
