import SierraSdk.Gps.Nmea

/-!
# The satellite list has no bound

`InBounds` says of a step that no more satellites are recorded than the list has places for, that
every element of the list that is accessed is that of a recorded satellite, and that every shift
is by less than the width of the mask. A GSV sentence looks at the total it was told and not at
the capacity, a GSA sentence looks at the total and not at what was recorded, and the numbers of
satellites are not compared with the width of the mask.

So a run is in bounds exactly if all its steps are `Fitting` (`meets_inBounds_iff`): a GSV sentence
finds room for four more satellites or an announced total within the capacity, and a GSA sentence
finds that all announced satellites are recorded, or has only numbers up to the width of the mask.
-/

namespace SierraSdk

namespace Gps

open Machine

/-- What is used is there, with so many satellites recorded. -/
def Use.Ok (recorded : ℕ) : Use → Prop
  | .list index => index < recorded
  | .shift amount => amount < maskWidth

instance instDecidableUseOk (recorded : ℕ) : (u : Use) → Decidable (u.Ok recorded)
  | .list _ => inferInstanceAs (Decidable (_ < _))
  | .shift _ => inferInstanceAs (Decidable (_ < _))

/-- What a step does is in bounds. -/
def InBounds (build : Build) (r : NmeaReader) (e : NmeaInput) : Prop :=
  (nmeaStep build r e).1.numSvs ≤ maxSvs build ∧
    ∀ u ∈ (nmeaStep build r e).2, u.Ok (nmeaStep build r e).1.numSvs

instance (build : Build) (r : NmeaReader) (e : NmeaInput) : Decidable (InBounds build r e) :=
  inferInstanceAs (Decidable (_ ∧ _))

/-- A GSV sentence finds room for all satellites that it may have, or a total that the list has
room for. -/
def GsvFits (build : Build) (r : NmeaReader) (tokens : List Token) : Prop :=
  0 < noSatellites tokens →
    foundSvs r tokens + 4 ≤ maxSvs build ∨ announcedSvs r tokens ≤ maxSvs build

/-- A GSA sentence names no satellite, or one looks for them among those that are recorded; or their
numbers are bits of the mask. -/
def GsaFits (build : Build) (r : NmeaReader) (tokens : List Token) : Prop :=
  hasFix tokens = true → ∀ prn ∈ usedPrns tokens,
    if build = .newUsedInFixMask then prn ≤ maskWidth else r.totalSatellites ≤ r.numSvs

/-- The sentence that a character completes. -/
def completed (r : NmeaReader) (c : UInt8) : Option (List UInt8) :=
  if r.overflow = false ∧ r.inBuf.length < nmeaMaxSize ∧ c = 10 then some (r.inBuf ++ [c]) else none

/-- A sentence of the list that is completed fits. -/
def Fitting (build : Build) (r : NmeaReader) : NmeaInput → Prop
  | .init => True
  | .addc c => ∀ buf ∈ completed r c,
      (sentenceKind build buf = .gsv → GsvFits build r (nmeaTokenizerInit buf)) ∧
        (sentenceKind build buf = .gsa → GsaFits build r (nmeaTokenizerInit buf))

section Gsv

variable {build : Build} {r : NmeaReader} {tokens : List Token}

theorem numSvs_gsvLoop (rounds i : ℕ) (r : NmeaReader) :
    (gsvLoop tokens rounds i r).1.numSvs =
      r.numSvs + min rounds (r.totalSatellites - r.numSvs).toNat := by
  induction rounds generalizing i r with
  | zero => rw [gsvLoop, Nat.zero_min, Nat.add_zero]
  | succ rounds ih =>
      rw [gsvLoop]
      split_ifs with hmore
      · simp only [ih]
        omega
      · have hnone : (r.totalSatellites - r.numSvs).toNat = 0 := by omega
        rw [hnone, Nat.min_zero, Nat.add_zero]

/-- A satellite that is put in the list is recorded. -/
theorem uses_gsvLoop (rounds i : ℕ) (r : NmeaReader) :
    ∀ u ∈ (gsvLoop tokens rounds i r).2, u.Ok (gsvLoop tokens rounds i r).1.numSvs := by
  induction rounds generalizing i r with
  | zero => exact fun u hu => absurd hu List.not_mem_nil
  | succ rounds ih =>
      intro u hu
      rw [gsvLoop] at hu ⊢
      split_ifs at hu ⊢ with hmore
      · rcases List.mem_cons.mp hu with rfl | hu
        · simp only [Use.Ok, numSvs_gsvLoop]
          omega
        · exact ih _ _ u hu
      · exact absurd hu List.not_mem_nil

/-- A GSV sentence is in bounds exactly if it fits. -/
theorem parseGsv_iff (hroom : r.numSvs ≤ maxSvs build) :
    ((parseGsv r tokens).1.numSvs ≤ maxSvs build ∧
        ∀ u ∈ (parseGsv r tokens).2, u.Ok (parseGsv r tokens).1.numSvs) ↔
      GsvFits build r tokens := by
  have hfound : foundSvs r tokens ≤ maxSvs build := by
    unfold foundSvs
    split_ifs
    · exact Nat.zero_le _
    · exact hroom
  by_cases hany : 0 < noSatellites tokens
  · have hrun : (parseGsv r tokens).1.numSvs =
        (gsvLoop tokens 4 0 (beginGsv r tokens)).1.numSvs ∧
        (parseGsv r tokens).2 = (gsvLoop tokens 4 0 (beginGsv r tokens)).2 := by
      unfold parseGsv
      rw [if_pos hany]
      split_ifs <;> exact ⟨rfl, rfl⟩
    have huses := @uses_gsvLoop tokens 4 0 (beginGsv r tokens)
    have hcount : (gsvLoop tokens 4 0 (beginGsv r tokens)).1.numSvs = foundSvs r tokens +
        min 4 (announcedSvs r tokens - foundSvs r tokens).toNat := numSvs_gsvLoop 4 0 _
    rw [hrun.1, hrun.2, GsvFits]
    constructor
    · intro h _
      have hle := h.1
      omega
    · intro h
      refine ⟨?_, huses⟩
      have hfits := h hany
      omega
  · have hsame : parseGsv r tokens = (r, []) := by rw [parseGsv, if_neg hany]
    rw [hsame]
    exact ⟨fun _ hpos => absurd hpos hany, fun _ => ⟨hroom, fun u hu => absurd hu List.not_mem_nil⟩⟩

end Gsv

section Gsa

variable {build : Build} {r : NmeaReader} {prn : ℤ} {m : ℕ}

theorem counts_markEntry (j : ℕ) : (markEntry build prn r j).1.numSvs = r.numSvs ∧
    (markEntry build prn r j).1.totalSatellites = r.totalSatellites := by
  unfold markEntry
  split_ifs
  · cases build <;> exact ⟨rfl, rfl⟩
  · exact ⟨rfl, rfl⟩

theorem counts_markEntries (js : List ℕ) : (markEntries build prn r js).1.numSvs = r.numSvs ∧
    (markEntries build prn r js).1.totalSatellites = r.totalSatellites := by
  induction js generalizing r with
  | nil => exact ⟨rfl, rfl⟩
  | cons j js ih =>
      rw [markEntries]
      exact ⟨ih.1.trans (counts_markEntry j).1, ih.2.trans (counts_markEntry j).2⟩

theorem counts_markUsed (prn : ℤ) : (markUsed build r prn).1.numSvs = r.numSvs ∧
    (markUsed build r prn).1.totalSatellites = r.totalSatellites := by
  unfold markUsed
  split_ifs
  · exact ⟨rfl, rfl⟩
  · exact counts_markEntries _

theorem counts_markAllUsed (prns : List ℤ) : (markAllUsed build r prns).1.numSvs = r.numSvs ∧
    (markAllUsed build r prns).1.totalSatellites = r.totalSatellites := by
  induction prns generalizing r with
  | nil => exact ⟨rfl, rfl⟩
  | cons prn prns ih =>
      rw [markAllUsed]
      exact ⟨ih.1.trans (counts_markUsed prn).1, ih.2.trans (counts_markUsed prn).2⟩

/-- A satellite is looked at in bounds exactly if it is recorded; the shift is then in bounds, as
the mask is as wide as the list is long. -/
theorem uses_markEntry_iff (hm : m ≤ maxSvs build) (j : ℕ) :
    (∀ u ∈ (markEntry build prn r j).2, u.Ok m) ↔ j < m := by
  unfold markEntry
  split_ifs
  · cases build with
    | gnssSupport => exact List.forall_mem_singleton
    | newUsedInFixMask =>
        exact ⟨fun h => h _ List.mem_cons_self, fun h => List.forall_mem_cons.mpr
          ⟨h, List.forall_mem_singleton.mpr (Nat.lt_of_lt_of_le h hm)⟩⟩
    | usedInFixMask =>
        exact ⟨fun h => h _ List.mem_cons_self, fun h => List.forall_mem_cons.mpr
          ⟨h, List.forall_mem_singleton.mpr (Nat.lt_of_lt_of_le h hm)⟩⟩
  · exact List.forall_mem_singleton

theorem uses_markEntries_iff (hm : m ≤ maxSvs build) (js : List ℕ) :
    (∀ u ∈ (markEntries build prn r js).2, u.Ok m) ↔ ∀ j ∈ js, j < m := by
  induction js generalizing r with
  | nil =>
      exact ⟨fun _ j hj => absurd hj List.not_mem_nil, fun _ u hu => absurd hu List.not_mem_nil⟩
  | cons j js ih => rw [markEntries, List.forall_mem_append, uses_markEntry_iff hm, ih,
      List.forall_mem_cons]

/-- A positive number is looked up, or is a bit of the mask, in bounds. -/
theorem uses_markUsed_iff (hm : m ≤ maxSvs build) (hprn : 0 < prn) :
    (∀ u ∈ (markUsed build r prn).2, u.Ok m) ↔
      if build = .newUsedInFixMask then prn ≤ maskWidth else r.totalSatellites ≤ m := by
  unfold markUsed
  split_ifs
  · rw [List.forall_mem_singleton, Use.Ok]
    omega
  · rw [uses_markEntries_iff hm]
    constructor
    · intro h
      by_contra hmore
      have hlast := h m (List.mem_range.mpr (by omega))
      exact absurd hlast (Nat.lt_irrefl m)
    · intro h j hj
      have hlt := List.mem_range.mp hj
      omega

theorem uses_markAllUsed_iff (hm : m ≤ maxSvs build) {prns : List ℤ}
    (hprns : ∀ prn ∈ prns, 0 < prn) :
    (∀ u ∈ (markAllUsed build r prns).2, u.Ok m) ↔ ∀ prn ∈ prns,
      if build = .newUsedInFixMask then prn ≤ maskWidth else r.totalSatellites ≤ m := by
  induction prns generalizing r with
  | nil =>
      exact ⟨fun _ j hj => absurd hj List.not_mem_nil, fun _ u hu => absurd hu List.not_mem_nil⟩
  | cons prn prns ih =>
      rw [markAllUsed, List.forall_mem_append, uses_markUsed_iff hm (hprns _ List.mem_cons_self),
        ih fun p hp => hprns p (List.mem_cons_of_mem _ hp), (counts_markUsed prn).2,
        List.forall_mem_cons]

theorem usedPrns_pos {tokens : List Token} : ∀ prn ∈ usedPrns tokens, 0 < prn := by
  intro prn hprn
  exact of_decide_eq_true (List.mem_filter.mp hprn).2

/-- A GSA sentence is in bounds exactly if it fits. -/
theorem parseGsa_iff {tokens : List Token} (hroom : r.numSvs ≤ maxSvs build) :
    ((parseGsa build r tokens).1.numSvs ≤ maxSvs build ∧
        ∀ u ∈ (parseGsa build r tokens).2, u.Ok (parseGsa build r tokens).1.numSvs) ↔
      GsaFits build r tokens := by
  obtain ⟨s, hnum, htotal, hrun⟩ : ∃ s : NmeaReader, s.numSvs = r.numSvs ∧
      s.totalSatellites = r.totalSatellites ∧ parseGsa build r tokens =
        ({ (if hasFix tokens then markAllUsed build s (usedPrns tokens) else (s, [])).1 with
            svStatusChanged := true },
          (if hasFix tokens then markAllUsed build s (usedPrns tokens) else (s, [])).2) := by
    refine ⟨if build = .gnssSupport then r else { r with usedInFixMask := 0 }, ?_, ?_, rfl⟩
    · split_ifs <;> rfl
    · split_ifs <;> rfl
  rw [hrun, GsaFits]
  by_cases hfix : hasFix tokens = true
  · have hsame := (@counts_markAllUsed build s (usedPrns tokens)).1.trans hnum
    simp only [hfix, if_true, hsame, true_implies, hroom, true_and]
    rw [uses_markAllUsed_iff hroom usedPrns_pos, htotal]
  · rw [if_neg hfix]
    exact ⟨fun _ h => absurd h hfix,
      fun _ => ⟨hnum.symm ▸ hroom, fun u hu => absurd hu List.not_mem_nil⟩⟩

end Gsa

section Runs

variable {build : Build} {r : NmeaReader}

/-- A sentence is parsed in bounds exactly if it fits. -/
theorem nmeaReaderParse_iff (hroom : r.numSvs ≤ maxSvs build) :
    ((nmeaReaderParse build r).1.numSvs ≤ maxSvs build ∧
        ∀ u ∈ (nmeaReaderParse build r).2, u.Ok (nmeaReaderParse build r).1.numSvs) ↔
      (sentenceKind build r.inBuf = .gsv → GsvFits build r (nmeaTokenizerInit r.inBuf)) ∧
        (sentenceKind build r.inBuf = .gsa → GsaFits build r (nmeaTokenizerInit r.inBuf)) := by
  unfold nmeaReaderParse
  cases hkind : sentenceKind build r.inBuf with
  | gsv => simp only [parseGsv_iff hroom, reduceCtorEq, true_implies, false_implies, and_true]
  | gsa => simp only [parseGsa_iff hroom, reduceCtorEq, true_implies, false_implies, true_and]
  | rmc => simpa using hroom
  | other => simpa using hroom

/-- A step is in bounds exactly if it fits, if the list is not overfull before. -/
theorem inBounds_iff (hroom : r.numSvs ≤ maxSvs build) (e : NmeaInput) :
    InBounds build r e ↔ Fitting build r e := by
  have hidle : ∀ s : NmeaReader, s.numSvs ≤ maxSvs build →
      (s.numSvs ≤ maxSvs build ∧ ∀ u ∈ ([] : List Use), u.Ok s.numSvs) :=
    fun s hs => ⟨hs, fun u hu => absurd hu List.not_mem_nil⟩
  cases e with
  | init => exact ⟨fun _ => trivial, fun _ => hidle _ (Nat.zero_le _)⟩
  | addc c =>
      have hskip : ∀ s : NmeaReader, s.numSvs ≤ maxSvs build →
          nmeaReaderAddc build r c = (s, []) → completed r c = none →
          (InBounds build r (.addc c) ↔ Fitting build r (.addc c)) := by
        intro s hs hrun hnone
        rw [InBounds, Fitting, nmeaStep, hrun, hnone]
        exact ⟨fun _ _ hbuf => absurd hbuf.symm (Option.some_ne_none _), fun _ => hidle s hs⟩
      by_cases hoverflow : r.overflow = true
      · exact hskip { r with overflow := c ≠ 10 } hroom (if_pos hoverflow)
          (if_neg fun h => Bool.noConfusion (hoverflow.symm.trans h.1))
      · by_cases hlength : nmeaMaxSize ≤ r.inBuf.length
        · exact hskip { r with overflow := true, inBuf := [] } hroom
            ((if_neg hoverflow).trans (if_pos hlength))
            (if_neg fun h => absurd h.2.1 (Nat.not_lt.mpr hlength))
        · by_cases hc : c = 10
          · have hrun : nmeaReaderAddc build r c =
                ({ (nmeaReaderParse build { r with inBuf := r.inBuf ++ [c] }).1 with inBuf := [] },
                  (nmeaReaderParse build { r with inBuf := r.inBuf ++ [c] }).2) :=
              (if_neg hoverflow).trans ((if_neg hlength).trans (if_pos hc))
            have hcompleted : completed r c = some (r.inBuf ++ [c]) :=
              if_pos ⟨Bool.eq_false_iff.mpr hoverflow, Nat.lt_of_not_le hlength, hc⟩
            have hparse := @nmeaReaderParse_iff build { r with inBuf := r.inBuf ++ [c] } hroom
            rw [InBounds, Fitting, nmeaStep, hrun, hcompleted]
            exact hparse.trans ⟨fun h buf hbuf => Option.some.inj hbuf ▸ h, fun h => h _ rfl⟩
          · exact hskip { r with inBuf := r.inBuf ++ [c] } hroom
              ((if_neg hoverflow).trans ((if_neg hlength).trans (if_neg hc)))
              (if_neg fun h => hc h.2.2)

/-- A run is in bounds exactly if all its steps fit. -/
theorem meets_inBounds_iff (build : Build) (events : List NmeaInput) :
    Meets (nmeaStep build) (InBounds build) .init events ↔
      Meets (nmeaStep build) (Fitting build) .init events := by
  have hinit : NmeaReader.init.numSvs ≤ maxSvs build := Nat.zero_le _
  constructor
  · exact meets_of_invariant (I := fun r => r.numSvs ≤ maxSvs build) (fun _ _ _ h => h.1)
      (fun _ e hroom h => (inBounds_iff hroom e).mp h) hinit
  · exact meets_of_invariant (I := fun r => r.numSvs ≤ maxSvs build)
      (fun _ e hroom h => ((inBounds_iff hroom e).mpr h).1)
      (fun _ e hroom h => (inBounds_iff hroom e).mpr h) hinit

set_option maxRecDepth 20000 in
/-- Of a group of two GSV sentences only the first one has arrived when a GSA sentence looks for its
satellites among all eight that were announced. -/
theorem not_inBounds_incomplete :
    ¬ Meets (nmeaStep .usedInFixMask) (InBounds .usedInFixMask) .init
      ((ascii "$GPGSV,2,1,08,01,40,083,46,02,17,308,41,12,07,344,39,14,22,228,45*75\r\n" ++
        ascii "$GPGSA,A,3,01,02,12,14,,,,,,,,,2.5,1.3,2.1*39\r\n").map .addc) := by
  decide

end Runs

end Gps

end SierraSdk
