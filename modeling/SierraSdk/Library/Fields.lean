import Mathlib.Data.List.GetD
import Mathlib.Data.List.TakeDrop
import SierraSdk.Library.Walk

/-!
# Fields in a list of bytes

A field is an identifier, and for most identifiers a length and a value behind it. What a reader
does with a field is the layout of its identifier: `fixed` values are read whatever the length
says, but it goes on only if the length is right; `copied` values are read by their length;
`skipped` values are not read.

`Fits layout bytes r` says that all the bytes that a reader asks for are there. `r` are the
copied fields, or `none` if the reader stops. A walker that follows a layout asks for no byte
that is not there exactly if the bytes fit it (`inside_iff_fits`), and it finds the last copied
field of an identifier (`run_of_fits`).
-/

namespace Fields

open Walk

/-- What a reader does with the length and the value of a field. -/
inductive Layout where
  /-- The value of `n` bytes is read; it goes on if the length is `n`, and the first byte is
  known. -/
  | fixed (n : ℕ) (known : UInt8 → Prop)
  /-- It goes on behind `n` bytes that are not read, if the length is `n`. -/
  | passed (n : ℕ)
  | copied
  | skipped
  /-- It goes on behind the identifier. -/
  | mark
  | unknown

/-- A field that was copied: its identifier and its value. -/
abbrev Field := UInt8 × List UInt8

/-- The bytes that are asked for are there. -/
inductive Fits (layout : UInt8 → Layout) : List UInt8 → Option (List Field) → Prop
  | nil : Fits layout [] (some [])
  | fixed {id len : UInt8} {n : ℕ} {known : UInt8 → Prop} {value rest : List UInt8}
      {r : Option (List Field)} (hlayout : layout id = .fixed n known)
      (hvalue : value.length = n) (hlen : len.toNat = n)
      (hknown : known ((value ++ rest).headD 0)) (hrest : Fits layout rest r) :
      Fits layout (id :: len :: (value ++ rest)) r
  | refused {id len : UInt8} {n : ℕ} {known : UInt8 → Prop} {value rest : List UInt8}
      (hlayout : layout id = .fixed n known) (hvalue : value.length = n)
      (hnot : ¬ (len.toNat = n ∧ known ((value ++ rest).headD 0))) :
      Fits layout (id :: len :: (value ++ rest)) none
  | passed {id len : UInt8} {n : ℕ} {rest : List UInt8} {r : Option (List Field)}
      (hlayout : layout id = .passed n) (hlen : len.toNat = n)
      (hrest : Fits layout (rest.drop n) r) : Fits layout (id :: len :: rest) r
  | notPassed {id len : UInt8} {n : ℕ} {rest : List UInt8} (hlayout : layout id = .passed n)
      (hlen : len.toNat ≠ n) : Fits layout (id :: len :: rest) none
  | copied {id len : UInt8} {value rest : List UInt8} {r : Option (List Field)}
      (hlayout : layout id = .copied) (hvalue : value.length = len.toNat)
      (hrest : Fits layout rest r) :
      Fits layout (id :: len :: (value ++ rest)) (r.map fun fields => (id, value) :: fields)
  | skipped {id len : UInt8} {rest : List UInt8} {r : Option (List Field)}
      (hlayout : layout id = .skipped) (hrest : Fits layout (rest.drop len.toNat) r) :
      Fits layout (id :: len :: rest) r
  | mark {id : UInt8} {rest : List UInt8} {r : Option (List Field)} (hlayout : layout id = .mark)
      (hrest : Fits layout rest r) : Fits layout (id :: rest) r
  | unknown {id : UInt8} {rest : List UInt8} (hlayout : layout id = .unknown) :
      Fits layout (id :: rest) none

/-- The value of the last field with an identifier, or what was there before. -/
def lastValue (id : UInt8) : List Field → Option (List UInt8) → Option (List UInt8)
  | [], value => value
  | field :: fields, value => lastValue id fields (if field.1 = id then some field.2 else value)

section Layouts

/-- The length of a field. -/
def lengthOf (bytes : List UInt8) : ℕ := (bytes.getD 1 0).toNat

/-- The number of bytes, from the identifier on, that a layout asks for. -/
def Layout.asks (bytes : List UInt8) : Layout → ℕ
  | .fixed n _ => 2 + n
  | .passed _ => 2
  | .copied => 2 + lengthOf bytes
  | .skipped => 2
  | .mark => 1
  | .unknown => 1

/-- Where a layout goes on. -/
def Layout.Next (bytes : List UInt8) (next : Option (List UInt8)) : Layout → Prop
  | .fixed n known =>
      (lengthOf bytes = n ∧ known ((bytes.drop 2).headD 0) →
          next = some ((bytes.drop 2).drop n)) ∧
        (¬ (lengthOf bytes = n ∧ known ((bytes.drop 2).headD 0)) → next = none)
  | .passed n =>
      (lengthOf bytes = n → next = some ((bytes.drop 2).drop n)) ∧
        (lengthOf bytes ≠ n → next = none)
  | .copied => next = some ((bytes.drop 2).drop (lengthOf bytes))
  | .skipped => next = some ((bytes.drop 2).drop (lengthOf bytes))
  | .mark => next = some (bytes.drop 1)
  | .unknown => next = none

/-- The field that a layout copies. -/
def Layout.copies (bytes : List UInt8) : Layout → Option (List UInt8)
  | .copied => some ((bytes.drop 2).takeD (lengthOf bytes) 0)
  | _ => none

end Layouts

/-- The length cell, if it and `n` cells behind it are there. -/
theorem exists_length_cell {id : UInt8} {tail : List UInt8} {n : ℕ}
    (h : 2 + n ≤ (id :: tail).length) : ∃ len data, tail = len :: data ∧ n ≤ data.length := by
  rw [List.length_cons] at h
  cases tail with
  | nil =>
      rw [List.length_nil] at h
      omega
  | cons len data =>
      rw [List.length_cons] at h
      exact ⟨len, data, rfl, by omega⟩

theorem exists_value {data : List UInt8} {n : ℕ} (h : n ≤ data.length) :
    ∃ value rest, data = value ++ rest ∧ value.length = n :=
  ⟨data.take n, data.drop n, (List.take_append_drop n data).symm, List.length_take_of_le h⟩

/-- A walker that does with each field what the layout of its identifier says. `reads` are the
bytes that a step reads, and `found` is the copied value of an identifier. -/
structure Follows {σ : Type*} (layout : UInt8 → Layout) (W : Walker UInt8 σ)
    (reads : List UInt8 → ℕ) (found : UInt8 → σ → Option (List UInt8)) : Prop where
  reads : ∀ bytes, bytes ≠ [] → reads bytes = (layout (bytes.headD 0)).asks bytes
  next : ∀ bytes s, bytes ≠ [] → (layout (bytes.headD 0)).Next bytes (W.step bytes s).2
  found : ∀ bytes s i, bytes ≠ [] → found i (W.step bytes s).1 =
    if i = bytes.headD 0 then ((layout (bytes.headD 0)).copies bytes).or (found i s)
    else found i s

/-- No step of a walk asks for bytes that are not there. -/
def Inside {σ : Type*} (reads : List UInt8 → ℕ) (vs : List (Visit UInt8 σ)) : Prop :=
  ∀ v ∈ vs, reads v.1 ≤ v.1.length

section Walks

variable {σ : Type*} {layout : UInt8 → Layout} {W : Walker UInt8 σ} {reads : List UInt8 → ℕ}
  {found : UInt8 → σ → Option (List UInt8)} {xs ys : List UInt8} {s : σ}

theorem visits_of_next (hne : xs ≠ []) (hnext : (W.step xs s).2 = some ys) :
    visits W xs s = (xs, W.step xs s) :: visits W ys (W.step xs s).1 := by
  have hstep : W.step xs s = ((W.step xs s).1, some ys) := by rw [← hnext]
  rw [visits_of_some hne hstep, ← hnext]

theorem visits_of_stop (hne : xs ≠ []) (hnext : (W.step xs s).2 = none) :
    visits W xs s = [(xs, W.step xs s)] := by
  have hstep : W.step xs s = ((W.step xs s).1, none) := by rw [← hnext]
  rw [visits_of_none hne hstep, ← hnext]

theorem inside_of_next (hne : xs ≠ []) (hnext : (W.step xs s).2 = some ys) :
    Inside reads (visits W xs s) ↔
      reads xs ≤ xs.length ∧ Inside reads (visits W ys (W.step xs s).1) := by
  rw [Inside, visits_of_next hne hnext, List.forall_mem_cons]
  rfl

theorem inside_of_stop (hne : xs ≠ []) (hnext : (W.step xs s).2 = none) :
    Inside reads (visits W xs s) ↔ reads xs ≤ xs.length := by
  rw [Inside, visits_of_stop hne hnext, List.forall_mem_singleton]

/-- The end of a walk that finds fields: each is there unless a later one replaced it. -/
def Outcome (found : UInt8 → σ → Option (List UInt8)) (s : σ) (end' : σ × Bool) :
    Option (List Field) → Prop
  | none => end'.2 = false
  | some fields => end'.2 = true ∧ ∀ i, found i end'.1 = lastValue i fields (found i s)

theorem Outcome.of_same {s' : σ} {end' : σ × Bool} {r : Option (List Field)}
    (h : Outcome found s' end' r) (hfound : ∀ i, found i s' = found i s) :
    Outcome found s end' r := by
  cases r with
  | none => exact h
  | some fields => exact ⟨h.1, fun i => (h.2 i).trans (by rw [hfound i])⟩

theorem Outcome.of_copied {s' : σ} {end' : σ × Bool} {r : Option (List Field)} {field : Field}
    (h : Outcome found s' end' r)
    (hfound : ∀ i, found i s' = if field.1 = i then some field.2 else found i s) :
    Outcome found s end' (r.map fun fields => field :: fields) := by
  cases r with
  | none => exact h
  | some fields => exact ⟨h.1, fun i => (h.2 i).trans (by rw [hfound i]; rfl)⟩

theorem run_of_stop (hne : xs ≠ []) (hnext : (W.step xs s).2 = none) :
    (run W xs s).2 = false := by
  have hstep : W.step xs s = ((W.step xs s).1, none) := by rw [← hnext]
  rw [run, visits_of_none hne hstep]
  rfl

theorem run_of_next (hne : xs ≠ []) (hnext : (W.step xs s).2 = some ys) :
    run W xs s = run W ys (W.step xs s).1 := by
  have hstep : W.step xs s = ((W.step xs s).1, some ys) := by rw [← hnext]
  exact run_of_some hne hstep

theorem Follows.reads_cons (hfollows : Follows layout W reads found) (id : UInt8)
    (tail : List UInt8) : reads (id :: tail) = (layout id).asks (id :: tail) :=
  hfollows.reads (id :: tail) (List.cons_ne_nil _ _)

theorem Follows.next_cons (hfollows : Follows layout W reads found) (id : UInt8)
    (tail : List UInt8) (s : σ) : (layout id).Next (id :: tail) (W.step (id :: tail) s).2 :=
  hfollows.next (id :: tail) s (List.cons_ne_nil _ _)

theorem Follows.found_cons (hfollows : Follows layout W reads found) (id : UInt8)
    (tail : List UInt8) (s : σ) (i : UInt8) : found i (W.step (id :: tail) s).1 =
      if i = id then ((layout id).copies (id :: tail)).or (found i s) else found i s :=
  hfollows.found (id :: tail) s i (List.cons_ne_nil _ _)

variable (hfollows : Follows layout W reads found)

include hfollows

/-- A step over a field that is not copied. -/
theorem found_of_copies_none {id : UInt8} {tail : List UInt8}
    (hcopies : (layout id).copies (id :: tail) = none) (i : UInt8) :
    found i (W.step (id :: tail) s).1 = found i s := by
  rw [hfollows.found_cons, hcopies, Option.none_or, ite_self]

/-- A walk over bytes that fit reads nothing else, and finds what they say. -/
theorem walk_of_fits {r : Option (List Field)} (h : Fits layout xs r) (s : σ) :
    Inside reads (visits W xs s) ∧ Outcome found s (run W xs s) r := by
  induction h generalizing s with
  | nil =>
      rw [run, visits_nil]
      exact ⟨fun v hv => absurd hv List.not_mem_nil, rfl, fun i => rfl⟩
  | @fixed id len n known value rest r hlayout hvalue hlen hknown hrest ih =>
      have hcells : reads (id :: len :: (value ++ rest)) ≤ (id :: len :: (value ++ rest)).length := by
        rw [hfollows.reads_cons, hlayout, Layout.asks]
        simp
        omega
      have hnext := hfollows.next_cons id (len :: (value ++ rest)) s
      rw [hlayout] at hnext
      have hgo : (W.step (id :: len :: (value ++ rest)) s).2 = some rest :=
        (hnext.1 ⟨hlen, hknown⟩).trans (by rw [← hvalue]; exact congrArg some List.drop_left)
      rw [inside_of_next (List.cons_ne_nil _ _) hgo, run_of_next (List.cons_ne_nil _ _) hgo]
      obtain ⟨hinside, hout⟩ := ih (W.step (id :: len :: (value ++ rest)) s).1
      exact ⟨⟨hcells, hinside⟩,
        hout.of_same (found_of_copies_none hfollows (by rw [hlayout]; rfl))⟩
  | @refused id len n known value rest hlayout hvalue hnot =>
      have hnext := hfollows.next_cons id (len :: (value ++ rest)) s
      rw [hlayout] at hnext
      have hstop := hnext.2 hnot
      rw [inside_of_stop (List.cons_ne_nil _ _) hstop, hfollows.reads_cons, hlayout, Layout.asks]
      refine ⟨?_, run_of_stop (List.cons_ne_nil _ _) hstop⟩
      simp
      omega
  | @passed id len n rest r hlayout hlen hrest ih =>
      have hnext := hfollows.next_cons id (len :: rest) s
      rw [hlayout] at hnext
      have hgo := hnext.1 hlen
      rw [inside_of_next (List.cons_ne_nil _ _) hgo, run_of_next (List.cons_ne_nil _ _) hgo]
      obtain ⟨hinside, hout⟩ := ih (W.step (id :: len :: rest) s).1
      refine ⟨⟨?_, hinside⟩,
        hout.of_same (found_of_copies_none hfollows (by rw [hlayout]; rfl))⟩
      rw [hfollows.reads_cons, hlayout, Layout.asks]
      simp
  | @notPassed id len n rest hlayout hlen =>
      have hnext := hfollows.next_cons id (len :: rest) s
      rw [hlayout] at hnext
      have hstop := hnext.2 hlen
      rw [inside_of_stop (List.cons_ne_nil _ _) hstop, hfollows.reads_cons, hlayout, Layout.asks]
      refine ⟨?_, run_of_stop (List.cons_ne_nil _ _) hstop⟩
      simp
  | @copied id len value rest r hlayout hvalue hrest ih =>
      have hcells : reads (id :: len :: (value ++ rest)) ≤ (id :: len :: (value ++ rest)).length := by
        rw [hfollows.reads_cons, hlayout, Layout.asks, lengthOf]
        simp
        omega
      have hnext := hfollows.next_cons id (len :: (value ++ rest)) s
      rw [hlayout] at hnext
      have hgo : (W.step (id :: len :: (value ++ rest)) s).2 = some rest :=
        hnext.trans (congrArg some (by
          change (value ++ rest).drop len.toNat = rest
          rw [← hvalue, List.drop_left]))
      rw [inside_of_next (List.cons_ne_nil _ _) hgo, run_of_next (List.cons_ne_nil _ _) hgo]
      obtain ⟨hinside, hout⟩ := ih (W.step (id :: len :: (value ++ rest)) s).1
      refine ⟨⟨hcells, hinside⟩, hout.of_copied fun i => ?_⟩
      have htake : (value ++ rest).takeD len.toNat 0 = value := by
        rw [List.takeD_eq_take _ (by simp [hvalue]), ← hvalue, List.take_left]
      have hcopies : (layout id).copies (id :: len :: (value ++ rest)) = some value := by
        rw [hlayout]
        exact congrArg some htake
      rw [hfollows.found_cons, hcopies, Option.some_or]
      exact if_congr eq_comm rfl rfl
  | @skipped id len rest r hlayout hrest ih =>
      have hgo := hfollows.next_cons id (len :: rest) s
      rw [hlayout] at hgo
      rw [inside_of_next (List.cons_ne_nil _ _) hgo, run_of_next (List.cons_ne_nil _ _) hgo]
      obtain ⟨hinside, hout⟩ := ih (W.step (id :: len :: rest) s).1
      refine ⟨⟨?_, hinside⟩,
        hout.of_same (found_of_copies_none hfollows (by rw [hlayout]; rfl))⟩
      rw [hfollows.reads_cons, hlayout, Layout.asks]
      simp
  | @mark id rest r hlayout hrest ih =>
      have hgo := hfollows.next_cons id rest s
      rw [hlayout] at hgo
      rw [inside_of_next (List.cons_ne_nil _ _) hgo, run_of_next (List.cons_ne_nil _ _) hgo]
      obtain ⟨hinside, hout⟩ := ih (W.step (id :: rest) s).1
      refine ⟨⟨?_, hinside⟩,
        hout.of_same (found_of_copies_none hfollows (by rw [hlayout]; rfl))⟩
      rw [hfollows.reads_cons, hlayout, Layout.asks]
      simp
  | @unknown id rest hlayout =>
      have hstop := hfollows.next_cons id rest s
      rw [hlayout] at hstop
      rw [inside_of_stop (List.cons_ne_nil _ _) hstop, hfollows.reads_cons, hlayout, Layout.asks]
      refine ⟨?_, run_of_stop (List.cons_ne_nil _ _) hstop⟩
      simp

/-- Bytes of which a walk asks for nothing that is not there fit the layout. -/
theorem exists_fits (h : Inside reads (visits W xs s)) : ∃ r, Fits layout xs r := by
  induction hlength : xs.length using Nat.strongRecOn generalizing xs s with
  | ind length ih =>
      cases xs with
      | nil => exact ⟨some [], .nil⟩
      | cons id tail =>
          have hnext := hfollows.next_cons id tail s
          have hreads := hfollows.reads_cons id tail
          -- what is left after the step fits
          have hgoes : ∀ ys, (W.step (id :: tail) s).2 = some ys →
              reads (id :: tail) ≤ (id :: tail).length ∧ ∃ r, Fits layout ys r := by
            intro ys hys
            obtain ⟨hcells, hinside⟩ := (inside_of_next (List.cons_ne_nil _ _) hys).mp h
            have hshorter := W.shorter (List.cons_ne_nil _ _) hys
            exact ⟨hcells, ih ys.length (hlength ▸ hshorter) hinside rfl⟩
          have hcells : reads (id :: tail) ≤ (id :: tail).length := by
            cases hys : (W.step (id :: tail) s).2 with
            | none => exact (inside_of_stop (List.cons_ne_nil _ _) hys).mp h
            | some ys => exact (hgoes ys hys).1
          rw [hreads] at hcells
          cases hlayout : layout id with
          | fixed n known =>
              rw [hlayout] at hnext hcells
              obtain ⟨len, data, rfl, hdata⟩ := exists_length_cell hcells
              obtain ⟨value, rest, rfl, hvalue⟩ := exists_value hdata
              by_cases hgood : len.toNat = n ∧ known ((value ++ rest).headD 0)
              · obtain ⟨_, r, hr⟩ := hgoes _ (hnext.1 hgood)
                have hdrop : ((id :: len :: (value ++ rest)).drop 2).drop n = rest := by
                  rw [← hvalue]
                  exact List.drop_left
                rw [hdrop] at hr
                exact ⟨r, .fixed hlayout hvalue hgood.1 hgood.2 hr⟩
              · exact ⟨none, .refused hlayout hvalue hgood⟩
          | passed n =>
              rw [hlayout] at hnext hcells
              obtain ⟨len, data, rfl, -⟩ := exists_length_cell (n := 0) hcells
              by_cases hgood : len.toNat = n
              · obtain ⟨_, r, hr⟩ := hgoes _ (hnext.1 hgood)
                exact ⟨r, .passed hlayout hgood hr⟩
              · exact ⟨none, .notPassed hlayout hgood⟩
          | copied =>
              rw [hlayout] at hnext hcells
              obtain ⟨len, data, rfl, hdata⟩ := exists_length_cell hcells
              obtain ⟨value, rest, rfl, hvalue⟩ :
                  ∃ value rest, data = value ++ rest ∧ value.length = len.toNat := exists_value hdata
              obtain ⟨_, r, hr⟩ := hgoes _ hnext
              have hdrop : ((id :: len :: (value ++ rest)).drop 2).drop
                  (lengthOf (id :: len :: (value ++ rest))) = rest := by
                change (value ++ rest).drop len.toNat = rest
                rw [← hvalue, List.drop_left]
              rw [hdrop] at hr
              exact ⟨_, .copied hlayout hvalue hr⟩
          | skipped =>
              rw [hlayout] at hnext hcells
              obtain ⟨len, data, rfl, -⟩ := exists_length_cell (n := 0) hcells
              obtain ⟨_, r, hr⟩ := hgoes _ hnext
              exact ⟨r, .skipped hlayout hr⟩
          | mark =>
              rw [hlayout] at hnext
              obtain ⟨_, r, hr⟩ := hgoes _ hnext
              exact ⟨r, .mark hlayout hr⟩
          | unknown => exact ⟨none, .unknown hlayout⟩

theorem inside_iff_fits (s : σ) :
    Inside reads (visits W xs s) ↔ ∃ r, Fits layout xs r := by
  constructor
  · exact exists_fits hfollows
  · rintro ⟨r, hr⟩
    exact (walk_of_fits hfollows hr s).1

end Walks

end Fields
