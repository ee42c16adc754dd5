import SierraSdk.Library.Hysteresis
import SierraSdk.Qm.Task
import Mathlib.Data.List.Induction

/-!
# The length of the transmit queue

A set-net-change request gives two marks and a period. While the period is not zero a thread reads
the length of the transmit queue, and throttles the application or lifts the throttle by comparing a
length with the one before it (`Hysteresis.byEdges`).

What the marks are for is `Hysteresis.wanted`. The thread has its own copy of the marks, made when it
starts, and its first previous length is what is on its stack; it does not know whether the
application is throttled. `regulates_iff` says which lengths it gets right.
-/

namespace SierraSdk

namespace Qm

open Machine Hysteresis

section Definitions

/-- The marks of a request. -/
structure QlenMarks where
  hiMark : UInt32
  loMark : UInt32
  le : loMark.toNat ≤ hiMark.toNat

def QlenMarks.toMarks (m : QlenMarks) : Marks ℕ where
  hi := m.hiMark.toNat
  lo := m.loMark.toNat
  le := m.le

/-- The previous length: what was on the stack of the thread, or what it read. -/
inductive LastQlen where
  | stack (value : UInt32)
  | read (qlen : UInt32)

def LastQlen.value : LastQlen → UInt32
  | .stack value => value
  | .read qlen => qlen

/-- The local variables of `qlenTask`. -/
structure QlenThread where
  marks : QlenMarks
  last_qlen : LastQlen

/-- The marks, the period and the thread of an instance, and what the application was told last. -/
structure QlenTcb where
  marks : QlenMarks
  qlenPeriod : UInt32
  thread : Option QlenThread
  throttled : Bool

def qlenInit : QlenTcb where
  marks := ⟨0, 0, Nat.le_refl _⟩
  qlenPeriod := 0
  thread := none
  throttled := false

/-- A request, with what will be on the stack of the thread if one is started, or a length that the
thread reads. -/
inductive QlenEvent where
  | setNetChange (marks : QlenMarks) (period stack : UInt32)
  | sample (qlen : UInt32)

/-- A thread is started if there was none, and it ends at once if the period is still zero. One that
runs is waited for when the period becomes zero, and keeps its own marks otherwise. -/
def setNetChange (s : QlenTcb) (marks : QlenMarks) (period stack : UInt32) : QlenTcb :=
  if s.qlenPeriod = 0 then
    { s with
      marks := marks
      qlenPeriod := period
      thread := if period = 0 then none else some ⟨marks, .stack stack⟩ }
  else if period = 0 then { s with marks := marks, qlenPeriod := period, thread := none }
  else { s with marks := marks, qlenPeriod := period }

/-- What a length read after another one makes the thread tell the application: that it is
throttled, or that it is not any more. -/
def isThrottle (m : QlenMarks) (last_qlen qlen : UInt32) : Option Bool :=
  if last_qlen ≤ m.hiMark ∧ qlen > m.hiMark then some true
  else if last_qlen > m.loMark ∧ qlen = m.loMark then some false
  else none

/-- A request, or a round of the loop of `qlenTask`. What the thread tells is sent to the QM task. -/
def qlenStep (s : QlenTcb) : QlenEvent → QlenTcb × List QmEvent
  | .setNetChange marks period stack => (setNetChange s marks period stack, [])
  | .sample qlen =>
      match s.thread with
      | none => (s, [])
      | some t =>
          let told := isThrottle t.marks t.last_qlen.value qlen
          ({ s with
            thread := some { t with last_qlen := .read qlen }
            throttled := switched s.throttled told },
            (told.map (.net qlen)).toList)

/-- What the application is told by an event of the QM task. -/
def notification : QmEvent → Option Bool
  | .net _ isThrottle => some isThrottle
  | _ => none

/-- The marks of the last request. -/
def requestedMarks (events : List QlenEvent) : QlenMarks :=
  events.foldl (fun marks event => match event with
    | .setNetChange marks' _ _ => marks'
    | .sample _ => marks) qlenInit.marks

/-- The queue is regulated in a run. The application is throttled and let go in turn, which is done
exactly when it is wanted with the marks of the last request, so that it is not throttled once the
queue is drained; and what was on the stack of a thread makes no difference. -/
structure Regulates (events : List QlenEvent) : Prop where
  alternates : Alternates false ((outputs qlenStep qlenInit events).filterMap notification)
  used : ∀ pre qlen post, events = pre ++ .sample qlen :: post →
    ∀ t, (after qlenStep qlenInit pre).thread = some t → t.marks = requestedMarks pre
  exact : ∀ pre qlen post, events = pre ++ .sample qlen :: post →
    let s := after qlenStep qlenInit pre
    s.thread ≠ none → (qlenStep s (.sample qlen)).2 =
      ((wanted (requestedMarks pre).toMarks s.throttled qlen.toNat).map (.net qlen)).toList
  drained : ∀ pre qlen post, events = pre ++ .sample qlen :: post →
    let s := after qlenStep qlenInit pre
    s.thread ≠ none → qlen ≤ (requestedMarks pre).loMark →
      (qlenStep s (.sample qlen)).1.throttled = false
  initialised : ∀ pre qlen post, events = pre ++ .sample qlen :: post →
    ∀ marks value, (after qlenStep qlenInit pre).thread = some ⟨marks, .stack value⟩ →
      ∀ value', isThrottle marks value' qlen = isThrottle marks value qlen

/-- The first length of a thread is not above the high mark. It is above the low mark if the
application is throttled, and at the low mark only if no length is above that. -/
def FirstFits (m : QlenMarks) (throttled : Bool) (qlen : UInt32) : Prop :=
  qlen ≤ m.hiMark ∧ (qlen = m.loMark → m.loMark.toNat = 2 ^ 32 - 1) ∧
    (throttled = true → m.loMark < qlen)

/-- While the application is throttled, the length does not rise above the high mark again after
being below it, and does not fall below the low mark without being at it. While it is not, the
length does not fall to the low mark. -/
def NextFits (m : QlenMarks) (throttled : Bool) (last qlen : UInt32) : Prop :=
  (throttled = false → ¬ (m.loMark < last ∧ qlen = m.loMark)) ∧
    (throttled = true → ¬ (last ≤ m.hiMark ∧ m.hiMark < qlen) ∧ m.loMark ≤ qlen)

/-- A length fits the previous one. -/
def LastQlen.Fits (m : QlenMarks) (throttled : Bool) (qlen : UInt32) : LastQlen → Prop
  | .stack _ => FirstFits m throttled qlen
  | .read last => NextFits m throttled last qlen

/-- A length is read by a thread that has the marks of the last request, and it fits. -/
def Regular (s : QlenTcb) : QlenEvent → Prop
  | .setNetChange .. => True
  | .sample qlen => ∀ t, s.thread = some t →
      t.marks = s.marks ∧ t.last_qlen.Fits t.marks s.throttled qlen

end Definitions

section Lengths

variable {m : QlenMarks} {last qlen : UInt32} {throttled : Bool}

theorem isThrottle_eq (m : QlenMarks) (last qlen : UInt32) :
    isThrottle m last qlen = byEdges m.toMarks last.toNat qlen.toNat := by
  rw [isThrottle, byEdges]
  refine if_congr (and_congr UInt32.le_iff_toNat_le UInt32.lt_iff_toNat_lt) rfl ?_
  exact if_congr (and_congr UInt32.lt_iff_toNat_lt UInt32.toNat_inj.symm) rfl rfl

theorem toNat_le_top (n : UInt32) : n.toNat ≤ 2 ^ 32 - 1 := Nat.le_sub_one_of_lt n.toNat_lt

/-- What a thread does first is what is wanted whatever was on its stack. -/
theorem firstFits_iff (value : UInt32) : FirstFits m throttled qlen ↔
    isThrottle m value qlen = wanted m.toMarks throttled qlen.toNat ∧
      ∀ value', isThrottle m value' qlen = isThrottle m value qlen := by
  have hnone : qlen ≤ m.hiMark → (qlen = m.loMark → m.loMark.toNat = 2 ^ 32 - 1) →
      ∀ v, isThrottle m v qlen = none := by
    intro hhigh hlow v
    rw [isThrottle_eq]
    refine byEdges_eq_none (UInt32.le_iff_toNat_le.mp hhigh) (fun h => ?_) (toNat_le_top v)
    exact hlow (UInt32.toNat_inj.mp h)
  constructor
  · rintro ⟨hhigh, hlow, hthrottled⟩
    refine ⟨?_, fun v => (hnone hhigh hlow v).trans (hnone hhigh hlow value).symm⟩
    rw [hnone hhigh hlow value, eq_comm, wanted_eq_none_iff]
    exact ⟨fun _ => UInt32.le_iff_toNat_le.mp hhigh,
      fun h => UInt32.lt_iff_toNat_lt.mp (hthrottled h)⟩
  · rintro ⟨hwanted, hsame⟩
    have htop : isThrottle m 0xFFFFFFFF qlen = isThrottle m m.loMark qlen :=
      (hsame _).trans (hsame _).symm
    rw [isThrottle_eq, isThrottle_eq] at htop
    obtain ⟨hhigh, hlow⟩ := byEdges_constant (toNat_le_top qlen) htop
    have hhigh : qlen ≤ m.hiMark := UInt32.le_iff_toNat_le.mpr hhigh
    have hlow : qlen = m.loMark → m.loMark.toNat = 2 ^ 32 - 1 := fun h => hlow (congrArg _ h)
    rw [hnone hhigh hlow value, eq_comm, wanted_eq_none_iff] at hwanted
    exact ⟨hhigh, hlow, fun h => UInt32.lt_iff_toNat_lt.mpr (hwanted.2 h)⟩

/-- What a thread does after a length is what is wanted if that length left the application as it
is. -/
theorem nextFits_iff (hoff : throttled = false → last ≤ m.hiMark)
    (hon : throttled = true → m.loMark < last) : NextFits m throttled last qlen ↔
      isThrottle m last qlen = wanted m.toMarks throttled qlen.toNat := by
  rw [isThrottle_eq, NextFits]
  cases throttled with
  | false =>
      rw [byEdges_eq_wanted_off_iff (UInt32.le_iff_toNat_le.mp (hoff rfl))]
      simp [QlenMarks.toMarks, UInt32.lt_iff_toNat_lt, ← UInt32.toNat_inj]
  | true =>
      rw [byEdges_eq_wanted_on_iff (UInt32.lt_iff_toNat_lt.mp (hon rfl))]
      simp [QlenMarks.toMarks, UInt32.lt_iff_toNat_lt, UInt32.le_iff_toNat_le]

end Lengths

section Runs

variable {s : QlenTcb} {events : List QlenEvent}

/-- A length that a thread has read left the application as it is. -/
structure QlenInv (s : QlenTcb) : Prop where
  last : ∀ marks last, s.thread = some ⟨marks, .read last⟩ →
    (s.throttled = false → last ≤ marks.hiMark) ∧ (s.throttled = true → marks.loMark < last)

theorem qlenInv_init : QlenInv qlenInit where
  last _ _ h := absurd h (Option.some_ne_none _).symm

/-- What a thread that has the marks of the last request does with a length that fits. -/
theorem fits_iff (h : QlenInv s) {t : QlenThread} (ht : s.thread = some t) {qlen : UInt32} :
    t.last_qlen.Fits t.marks s.throttled qlen ↔
      isThrottle t.marks t.last_qlen.value qlen =
          wanted t.marks.toMarks s.throttled qlen.toNat ∧
        ∀ value, t.last_qlen = .stack value →
          ∀ value', isThrottle t.marks value' qlen = isThrottle t.marks value qlen := by
  obtain ⟨marks, last⟩ := t
  cases last with
  | stack value =>
      rw [LastQlen.Fits, LastQlen.value, firstFits_iff value]
      refine and_congr_right fun _ => ⟨fun hsame value' heq => ?_, fun hsame => hsame value rfl⟩
      cases heq
      exact hsame
  | read last =>
      obtain ⟨hoff, hon⟩ := h.last marks last ht
      rw [LastQlen.Fits, LastQlen.value, nextFits_iff hoff hon]
      exact (and_iff_left fun value heq => LastQlen.noConfusion heq).symm

/-- After what is wanted is done, the length leaves the application as it is. -/
theorem wanted_switched {m : QlenMarks} {throttled : Bool} {qlen : UInt32} :
    let after := switched throttled (wanted m.toMarks throttled qlen.toNat)
    (after = false → qlen ≤ m.hiMark) ∧ (after = true → m.loMark < qlen) := by
  rw [UInt32.le_iff_toNat_le, UInt32.lt_iff_toNat_lt]
  exact stays_of_wanted m.toMarks throttled qlen.toNat

theorem qlenStep_sample {t : QlenThread} (ht : s.thread = some t) (qlen : UInt32) :
    qlenStep s (.sample qlen) =
      ({ s with
        thread := some { t with last_qlen := .read qlen }
        throttled := switched s.throttled (isThrottle t.marks t.last_qlen.value qlen) },
        ((isThrottle t.marks t.last_qlen.value qlen).map (.net qlen)).toList) := by
  rw [qlenStep, ht]

theorem qlenStep_sample_idle (hnone : s.thread = none) (qlen : UInt32) :
    qlenStep s (.sample qlen) = (s, []) := by
  rw [qlenStep, hnone]

/-- A thread that runs after a request has read no length yet, or ran before with the same marks. -/
theorem thread_setNetChange {marks : QlenMarks} {period stack : UInt32} {t : QlenThread}
    (ht : (setNetChange s marks period stack).thread = some t) :
    t = ⟨marks, .stack stack⟩ ∨ s.thread = some t := by
  rw [setNetChange] at ht
  by_cases hidle : s.qlenPeriod = 0
  · rw [if_pos hidle] at ht
    dsimp only at ht
    split_ifs at ht
    exact .inl (Option.some.inj ht).symm
  · rw [if_neg hidle] at ht
    split_ifs at ht
    exact .inr ht

theorem throttled_setNetChange (marks : QlenMarks) (period stack : UInt32) :
    (setNetChange s marks period stack).throttled = s.throttled := by
  rw [setNetChange]
  split_ifs <;> rfl

theorem marks_setNetChange (marks : QlenMarks) (period stack : UInt32) :
    (setNetChange s marks period stack).marks = marks := by
  rw [setNetChange]
  split_ifs <;> rfl

theorem qlenInv_step (h : QlenInv s) {event : QlenEvent} (hregular : Regular s event) :
    QlenInv (qlenStep s event).1 := by
  cases event with
  | setNetChange marks period stack =>
      refine ⟨fun marks' last hlast => ?_⟩
      rw [qlenStep, throttled_setNetChange]
      rcases thread_setNetChange hlast with hnew | hold
      · exact LastQlen.noConfusion (congrArg QlenThread.last_qlen hnew)
      · exact h.last marks' last hold
  | sample qlen =>
      cases ht : s.thread with
      | none =>
          rw [qlenStep_sample_idle ht]
          exact h
      | some t =>
          have hwanted := ((fits_iff h ht).mp (hregular t ht).2).1
          rw [qlenStep_sample ht, hwanted]
          refine ⟨fun marks last hlast => ?_⟩
          obtain ⟨rfl, hread⟩ := QlenThread.mk.inj (Option.some.inj hlast)
          cases hread
          exact wanted_switched

theorem qlenInv_run (h : QlenInv s) (hregular : Meets qlenStep Regular s events) :
    QlenInv (after qlenStep s events) := by
  induction events generalizing s with
  | nil => exact h
  | cons event events ih => exact ih (qlenInv_step h hregular.1) hregular.2

theorem filterMap_notification (qlen : UInt32) (told : Option Bool) :
    (told.map (QmEvent.net qlen)).toList.filterMap notification = told.toList := by
  cases told with
  | none => rfl
  | some b => rfl

/-- What is told in a step goes on alternating. -/
theorem alternates_step (h : QlenInv s) {event : QlenEvent} (hregular : Regular s event) :
    Alternates s.throttled ((qlenStep s event).2.filterMap notification) ∧
      ((qlenStep s event).2.filterMap notification).getLastD s.throttled =
        (qlenStep s event).1.throttled := by
  cases event with
  | setNetChange marks period stack =>
      exact ⟨trivial, (throttled_setNetChange marks period stack).symm⟩
  | sample qlen =>
      cases ht : s.thread with
      | none =>
          rw [qlenStep_sample_idle ht]
          exact ⟨trivial, rfl⟩
      | some t =>
          have hwanted := ((fits_iff h ht).mp (hregular t ht).2).1
          rw [qlenStep_sample ht, filterMap_notification, getLastD_toList, hwanted]
          exact ⟨alternates_wanted _ _ _, rfl⟩

theorem alternates_run (h : QlenInv s) (hregular : Meets qlenStep Regular s events) :
    Alternates s.throttled ((outputs qlenStep s events).filterMap notification) := by
  induction events generalizing s with
  | nil => trivial
  | cons event events ih =>
      obtain ⟨halternates, hlast⟩ := alternates_step h hregular.1
      rw [outputs_cons, List.filterMap_append, alternates_append, hlast]
      exact ⟨halternates, ih (qlenInv_step h hregular.1) hregular.2⟩

/-- The marks of the control block are those of the last request. -/
theorem marks_after (events : List QlenEvent) :
    (after qlenStep qlenInit events).marks = requestedMarks events := by
  induction events using List.reverseRecOn with
  | nil => rfl
  | append_singleton events event ih =>
      rw [after_concat, requestedMarks, List.foldl_concat]
      cases event with
      | setNetChange marks period stack => exact marks_setNetChange marks period stack
      | sample qlen =>
          cases ht : (after qlenStep qlenInit events).thread with
          | none =>
              rw [qlenStep_sample_idle ht]
              exact ih
          | some t =>
              rw [qlenStep_sample ht]
              exact ih

/-- A run in which the queue was regulated up to a length and is regulated at it: the length is
regular. -/
theorem regular_of_regulates (h : Regulates events) {pre post : List QlenEvent} {event : QlenEvent}
    (hsplit : events = pre ++ event :: post) (hpre : Meets qlenStep Regular qlenInit pre) :
    Regular (after qlenStep qlenInit pre) event := by
  cases event with
  | setNetChange marks period stack => trivial
  | sample qlen =>
      intro t ht
      have hmarks := h.used pre qlen post hsplit t ht
      have hexact := h.exact pre qlen post hsplit (ht ▸ Option.some_ne_none t)
      rw [marks_after]
      refine ⟨hmarks, (fits_iff (qlenInv_run qlenInv_init hpre) ht).mpr ⟨?_, ?_⟩⟩
      · rw [qlenStep_sample ht, ← hmarks] at hexact
        have htold := congrArg (fun sent => (sent.filterMap notification).head?) hexact
        dsimp only at htold
        rwa [filterMap_notification, filterMap_notification, Option.head?_toList,
          Option.head?_toList] at htold
      · intro value hvalue
        obtain ⟨marks, last⟩ := t
        cases hvalue
        exact h.initialised pre qlen post hsplit marks value ht

/-- The queue is regulated in a run exactly when all lengths are regular. -/
theorem regulates_iff (events : List QlenEvent) :
    Regulates events ↔ Meets qlenStep Regular qlenInit events := by
  constructor
  · intro h
    by_contra hregular
    obtain ⟨pre, event, post, hsplit, hpre, hfail⟩ := not_meets_iff.mp hregular
    exact hfail (regular_of_regulates h hsplit hpre)
  · intro h
    have hbefore : ∀ pre qlen post, events = pre ++ .sample qlen :: post →
        QlenInv (after qlenStep qlenInit pre) ∧
          Regular (after qlenStep qlenInit pre) (.sample qlen) := by
      rintro pre qlen post rfl
      rw [meets_append, meets_cons] at h
      exact ⟨qlenInv_run qlenInv_init h.1, h.2.1⟩
    have htold : ∀ pre qlen post, events = pre ++ .sample qlen :: post →
        ∀ t, (after qlenStep qlenInit pre).thread = some t →
          t.marks = requestedMarks pre ∧ isThrottle t.marks t.last_qlen.value qlen =
            wanted (requestedMarks pre).toMarks (after qlenStep qlenInit pre).throttled
              qlen.toNat := by
      intro pre qlen post hsplit t ht
      obtain ⟨hinv, hregular⟩ := hbefore pre qlen post hsplit
      obtain ⟨hmarks, hfits⟩ := hregular t ht
      rw [marks_after] at hmarks
      exact ⟨hmarks, hmarks ▸ ((fits_iff hinv ht).mp hfits).1⟩
    refine ⟨alternates_run qlenInv_init h, fun pre qlen post hsplit t ht => ?_,
      fun pre qlen post hsplit hs => ?_, fun pre qlen post hsplit hs hlow => ?_,
      fun pre qlen post hsplit marks value ht => ?_⟩
    · exact (htold pre qlen post hsplit t ht).1
    · obtain ⟨t, ht⟩ := Option.ne_none_iff_exists'.mp hs
      rw [qlenStep_sample ht, (htold pre qlen post hsplit t ht).2]
    · obtain ⟨t, ht⟩ := Option.ne_none_iff_exists'.mp hs
      rw [qlenStep_sample ht, (htold pre qlen post hsplit t ht).2]
      exact switched_wanted_of_le (UInt32.le_iff_toNat_le.mp hlow)
    · obtain ⟨hinv, hregular⟩ := hbefore pre qlen post hsplit
      exact ((fits_iff hinv ht).mp (hregular _ ht).2).2 value rfl

/-- The high mark is ten and the low one two. -/
def tenTwo : QlenMarks := ⟨10, 2, Nat.le_of_ble_eq_true rfl⟩

/-- The length falls from above the high mark to one below the low one. -/
def drainedAtOnce : List QlenEvent :=
  [.setNetChange tenTwo 1 0, .sample 5, .sample 12, .sample 1]

/-- The length rises above the high mark again before it is at the low one. -/
def risesAgain : List QlenEvent :=
  [.setNetChange tenTwo 1 0, .sample 5, .sample 12, .sample 5, .sample 12]

/-- The marks are changed while the thread runs. -/
def changedMarks : List QlenEvent :=
  [.setNetChange tenTwo 1 0, .setNetChange ⟨20, 2, Nat.le_of_ble_eq_true rfl⟩ 1 0, .sample 5]

/-- The first length is above the high mark. -/
def startsHigh : List QlenEvent := [.setNetChange tenTwo 1 0, .sample 12]

/-- The application stays throttled, is throttled twice, the old marks are used, or what is on the
stack decides. -/
theorem not_regulates : ¬ Regulates drainedAtOnce ∧ ¬ Regulates risesAgain ∧
    ¬ Regulates changedMarks ∧ ¬ Regulates startsHigh := by
  refine ⟨fun h => ?_, fun h => ?_, fun h => ?_, fun h => ?_⟩
  · have hlet := h.drained (drainedAtOnce.take 3) 1 [] rfl (Option.some_ne_none _) (by decide)
    exact Bool.noConfusion hlet
  · exact Bool.noConfusion h.alternates.2.1
  · have hmarks := h.used (changedMarks.take 2) 5 [] rfl _ rfl
    exact absurd (congrArg QlenMarks.hiMark hmarks) (by decide)
  · have hsame := h.initialised (startsHigh.take 1) 12 [] rfl tenTwo 0 rfl 11
    exact absurd hsame (by decide)

end Runs

end Qm

end SierraSdk
