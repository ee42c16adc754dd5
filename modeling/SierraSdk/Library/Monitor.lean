import SierraSdk.Library.Machine

/-!
# Monitors over the outputs of a machine

A monitor `mon : μ → ο → Option μ` reads outputs one at a time and keeps a state of its own;
`none` is a violation. `watch mon m os` is its state after the outputs `os`, if none of them
violated it.

`Tracks mon R m r` says that the monitor, started in `m`, reads the outputs of the result `r`
without a violation, and that its state then stands in the relation `R` to the state of `r`.
When every step from related states tracks, every run does (`tracks_run`). A monitor that only
collects outputs never violates anything (`tracks_collect_iff`).

`Along f P m os` is a property of outputs that is read with a record `f` of those before them. Where
such a property is assumed of the outputs of a run, another one is guaranteed if each step
guarantees it (`along_run`).
-/

namespace Machine

variable {σ ι ο μ α : Type*}

/-- The state of a monitor after the outputs `os`, `none` after a violation. -/
def watch (mon : μ → ο → Option μ) : μ → List ο → Option μ
  | m, [] => some m
  | m, o :: os => (mon m o).bind fun m => watch mon m os

/-- The outputs of `r` are accepted from `m`, and lead to a state related to that of `r`. -/
def Tracks (mon : μ → ο → Option μ) (R : σ → μ → Prop) (m : μ) (r : σ × List ο) : Prop :=
  ∃ m', watch mon m r.2 = some m' ∧ R r.1 m'

variable {mon : μ → ο → Option μ} {R : σ → μ → Prop}

@[simp] theorem watch_nil (m : μ) : watch mon m [] = some m := rfl

@[simp] theorem watch_cons (m : μ) (o : ο) (os : List ο) :
    watch mon m (o :: os) = (mon m o).bind fun m => watch mon m os := rfl

theorem watch_append (m : μ) (os os' : List ο) :
    watch mon m (os ++ os') = (watch mon m os).bind fun m => watch mon m os' := by
  induction os generalizing m with
  | nil => rfl
  | cons o os ih => simp only [List.cons_append, watch_cons, Option.bind_assoc, ih]

/-- Outputs that a monitor does not react to leave its state. -/
theorem watch_ignored {m : μ} {os : List ο} (h : ∀ o ∈ os, mon m o = some m) :
    watch mon m os = some m := by
  induction os with
  | nil => rfl
  | cons o os ih =>
      rw [watch_cons, h o (List.mem_cons_self ..), Option.bind_some]
      exact ih fun o' ho' => h o' (List.mem_cons_of_mem _ ho')

theorem tracks_nil {m : μ} {s : σ} (h : R s m) : Tracks mon R m (s, []) := ⟨m, rfl, h⟩

/-- Outputs that the monitor does not react to. -/
theorem tracks_ignored {m : μ} {s : σ} {os : List ο} (hs : R s m)
    (hos : ∀ o ∈ os, mon m o = some m) : Tracks mon R m (s, os) :=
  ⟨m, watch_ignored hos, hs⟩

theorem tracks_append {m m' : μ} {s : σ} {os os' : List ο} (hos : watch mon m os = some m')
    (h : Tracks mon R m' (s, os')) : Tracks mon R m (s, os ++ os') := by
  obtain ⟨m'', hm'', hR⟩ := h
  refine ⟨m'', ?_, hR⟩
  rw [watch_append, hos]
  exact hm''

/-- The state and the relation may be replaced. -/
theorem Tracks.imp {R' : σ → μ → Prop} {m : μ} {s s' : σ} {os : List ο}
    (h : Tracks mon R m (s, os)) (hR : ∀ m', R s m' → R' s' m') : Tracks mon R' m (s', os) := by
  obtain ⟨m', hm', hs⟩ := h
  exact ⟨m', hm', hR m' hs⟩

/-- Outputs at the end that the monitor does not react to. -/
theorem Tracks.append_ignored {m : μ} {s : σ} {os os' : List ο} (h : Tracks mon R m (s, os))
    (hos' : ∀ m, ∀ o ∈ os', mon m o = some m) : Tracks mon R m (s, os ++ os') := by
  obtain ⟨m', hm', hs⟩ := h
  exact tracks_append hm' (tracks_ignored hs (hos' m'))

/-- Two actions in a row track, if the first does and the second does after it. -/
theorem tracks_andThen_of_eq {R : Option σ → μ → Prop} {m : μ} {r : Option σ × List ο}
    {f : σ → Option σ × List ο} (hr : Tracks mon R m r)
    (hf : ∀ s m, r.1 = some s → R (some s) m → Tracks mon R m (f s)) :
    Tracks mon R m (andThen r f) := by
  obtain ⟨_ | s, out⟩ := r
  · exact hr
  · obtain ⟨m', hm', hR⟩ := hr
    exact tracks_append hm' (hf s m' rfl hR)

theorem tracks_andThen {R : Option σ → μ → Prop} {m : μ} {r : Option σ × List ο}
    {f : σ → Option σ × List ο} (hr : Tracks mon R m r)
    (hf : ∀ s m, R (some s) m → Tracks mon R m (f s)) : Tracks mon R m (andThen r f) :=
  tracks_andThen_of_eq hr fun s m _ hs => hf s m hs

/-- The monitor that collects a part of what it reads. -/
def collect (f : ο → Option α) (as : List α) (o : ο) : Option (List α) :=
  some (as ++ (f o).toList)

theorem watch_collect (f : ο → Option α) (as : List α) (os : List ο) :
    watch (collect f) as os = some (as ++ os.filterMap f) := by
  induction os generalizing as with
  | nil => simp
  | cons o os ih =>
      rw [watch_cons, collect, Option.bind_some, ih, List.append_assoc]
      cases ho : f o with
      | none => rw [List.filterMap_cons_none ho, Option.toList_none, List.nil_append]
      | some a => rw [List.filterMap_cons_some ho, Option.toList_some, List.singleton_append]

/-- Tracking with a collecting monitor is about what has been collected. -/
theorem tracks_collect_iff {f : ο → Option α} {R : σ → List α → Prop} {as : List α}
    {r : σ × List ο} :
    Tracks (collect f) R as r ↔ R r.1 (as ++ r.2.filterMap f) := by
  simp only [Tracks, watch_collect, Option.some.injEq, exists_eq_left']

/-- Outputs of which nothing is collected. -/
theorem tracks_uncollected {f : ο → Option α} {R : σ → List α → Prop} {as : List α} {s : σ}
    {os : List ο} (h : R s as) (hos : ∀ o ∈ os, f o = none) :
    Tracks (collect f) R as (s, os) :=
  tracks_ignored h fun o ho => by rw [collect, hos o ho, Option.toList_none, List.append_nil]

open Classical in
/-- The monitor that reads outputs by `f` and accepts those that `P` allows. -/
noncomputable def checked (f : μ → ο → μ) (P : μ → ο → Prop) (m : μ) (o : ο) : Option μ :=
  if P m o then some (f m o) else none

theorem checked_of {f : μ → ο → μ} {P : μ → ο → Prop} {m : μ} {o : ο} (h : P m o) :
    checked f P m o = some (f m o) := if_pos h

/-- A checking monitor accepts outputs that are all allowed where they stand. -/
theorem watch_checked {f : μ → ο → μ} {P : μ → ο → Prop} {m m' : μ} {os : List ο}
    (h : watch (checked f P) m os = some m') :
    m' = os.foldl f m ∧
      ∀ pre o post, os = pre ++ o :: post → P (pre.foldl f m) o := by
  induction os generalizing m with
  | nil =>
      refine ⟨(Option.some.inj h).symm, fun pre o post hsplit => ?_⟩
      exact absurd (congrArg List.length hsplit) (by simp)
  | cons o os ih =>
      obtain ⟨m₁, hm₁, hrest⟩ := Option.bind_eq_some_iff.mp h
      rw [checked, Option.ite_none_right_eq_some] at hm₁
      obtain ⟨hP, hf⟩ := hm₁
      obtain rfl := Option.some.inj hf
      obtain ⟨hend, hall⟩ := ih hrest
      refine ⟨hend, fun pre o' post hsplit => ?_⟩
      cases pre with
      | nil =>
          obtain ⟨rfl, -⟩ := List.cons.inj hsplit
          exact hP
      | cons o₁ pre =>
          obtain ⟨rfl, rfl⟩ := List.cons.inj hsplit
          exact hall pre o' post rfl

/-- Guarded steps that track make a run that tracks. -/
theorem tracks_run {step : σ → ι → σ × List ο} {G : σ → ι → Prop}
    (hstep : ∀ s i m, R s m → G s i → Tracks mon R m (step s i))
    {s : σ} {m : μ} (hs : R s m) {is : List ι} (h : Meets step G s is) :
    Tracks mon R m (after step s is, outputs step s is) := by
  induction is generalizing s m with
  | nil => exact tracks_nil hs
  | cons i is ih =>
      obtain ⟨m', hm', hR⟩ := hstep s i m hs h.1
      exact tracks_append hm' (ih hR h.2)

/-! ### Properties along the outputs -/

/-- Every output has the property, read with the record of the outputs before it. -/
def Along (f : μ → ο → μ) (P : μ → ο → Prop) : μ → List ο → Prop
  | _, [] => True
  | m, o :: os => P m o ∧ Along f P (f m o) os

section Along

variable {f : μ → ο → μ} {P A : μ → ο → Prop}

@[simp] theorem along_nil (m : μ) : Along f P m [] := trivial

@[simp] theorem along_cons {m : μ} {o : ο} {os : List ο} :
    Along f P m (o :: os) ↔ P m o ∧ Along f P (f m o) os := Iff.rfl

theorem along_append {m : μ} {os os' : List ο} :
    Along f P m (os ++ os') ↔ Along f P m os ∧ Along f P (os.foldl f m) os' := by
  induction os generalizing m with
  | nil => simp
  | cons o os ih =>
      rw [List.cons_append, along_cons, along_cons, ih, and_assoc]
      rfl

/-- Steps that guarantee a property where another one is assumed make a run that does. -/
theorem along_run {step : σ → ι → σ × List ο} {G : σ → ι → Prop}
    (hstep : ∀ s i m, R s m → G s i → Along f A m (step s i).2 →
      Along f P m (step s i).2 ∧ R (step s i).1 ((step s i).2.foldl f m))
    {s : σ} {m : μ} (hs : R s m) {is : List ι} (h : Meets step G s is)
    (hA : Along f A m (outputs step s is)) :
    Along f P m (outputs step s is) ∧
      R (after step s is) ((outputs step s is).foldl f m) := by
  induction is generalizing s m with
  | nil => exact ⟨along_nil m, hs⟩
  | cons i is ih =>
      rw [outputs_cons, along_append] at hA
      obtain ⟨hhere, hnext⟩ := hstep s i m hs h.1 hA.1
      obtain ⟨hrest, hend⟩ := ih hnext h.2 hA.2
      rw [outputs_cons, along_append, after_cons, List.foldl_append]
      exact ⟨⟨hhere, hrest⟩, hend⟩

theorem along_of_forall (h : ∀ m o, P m o) {m : μ} {os : List ο} : Along f P m os := by
  induction os generalizing m with
  | nil => trivial
  | cons o os ih => exact ⟨h m o, ih⟩

/-- Steps that guarantee a property make a run that does. -/
theorem along_invariant {step : σ → ι → σ × List ο}
    (hstep : ∀ s i m, R s m →
      Along f P m (step s i).2 ∧ R (step s i).1 ((step s i).2.foldl f m))
    {s : σ} {m : μ} (hs : R s m) (is : List ι) :
    Along f P m (outputs step s is) ∧
      R (after step s is) ((outputs step s is).foldl f m) :=
  along_run (G := fun _ _ => True) (A := fun _ _ => True) (fun s i m h _ _ => hstep s i m h) hs
    (meets_iff.mpr fun _ _ _ _ => trivial) (along_of_forall fun _ _ => trivial)

end Along

end Machine
