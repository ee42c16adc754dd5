import Mathlib.Data.List.Infix
import Mathlib.Logic.Relation

/-!
# Stop and wait

A dispatcher takes the requests of its clients and passes them on, one at a time. Requests reach it
through an inbox, and wait in its queue while it is busy. Whoever answers a request also tells the
dispatcher, through the same inbox, and this makes it go on.

A `Ledger` is what there is to know about that, and `Move` is what can happen. The dispatcher does
not look at who was answered, so that an answer to no one, or no answer at all, would upset it: in
a `Balanced` ledger the answers are the requests in their order, up to the one that is owed.
-/

namespace StopAndWait

variable {κ : Type*}

/-- The flag of the dispatcher, the messages of answers in its inbox, whom an answer is owed to,
the requests in the queue and in the inbox, and who has asked, was passed on and was answered
ever. -/
structure Ledger (κ : Type*) where
  busy : Bool
  sent : ℕ
  owed : List κ
  held : List κ
  inbox : List κ
  asked : List κ
  passed : List κ
  answered : List κ

/-- A request comes, one that is owed an answer gets it, the dispatcher takes the message of an
answer or a request from its inbox, and it passes the first request of its queue on. -/
inductive Move : Ledger κ → Ledger κ → Prop where
  | ask (l : Ledger κ) (c : κ) :
      Move l { l with inbox := l.inbox ++ [c], asked := l.asked ++ [c] }
  | answer {l : Ledger κ} {c : κ} {owed : List κ} (howed : l.owed = c :: owed) :
      Move l { l with owed := owed, sent := l.sent + 1, answered := l.answered ++ [c] }
  | clear {l : Ledger κ} {n : ℕ} (hsent : l.sent = n + 1) :
      Move l { l with sent := n, busy := false }
  | hold {l : Ledger κ} {c : κ} {inbox : List κ} (hinbox : l.inbox = c :: inbox) :
      Move l { l with inbox := inbox, held := l.held ++ [c] }
  | pass {l : Ledger κ} {c : κ} {held : List κ} (hidle : l.busy = false)
      (hheld : l.held = c :: held) :
      Move l { l with
        busy := true
        held := held
        owed := l.owed ++ [c]
        passed := l.passed ++ [c] }

/-- Any number of moves. -/
def Moves : Ledger κ → Ledger κ → Prop := Relation.ReflTransGen Move

/-- Who was passed on was answered or is owed an answer, who has asked was passed on or waits, and
a busy dispatcher is owed one answer or has one message of an answer. -/
structure Balanced (l : Ledger κ) : Prop where
  passed : l.passed = l.answered ++ l.owed
  asked : l.asked = l.passed ++ l.held ++ l.inbox
  once : l.owed.length + l.sent = l.busy.toNat

namespace Balanced

variable {l l' : Ledger κ}

/-- At most one answer is owed. -/
theorem length_owed_le (h : Balanced l) : l.owed.length ≤ 1 := by
  have honce := h.once
  have hbusy := l.busy.toNat_le
  omega

/-- Nothing that can happen upsets a balanced ledger. -/
theorem move (h : Balanced l) (hmove : Move l l') : Balanced l' := by
  have honce := h.once
  cases hmove with
  | ask c =>
      refine ⟨h.passed, ?_, honce⟩
      rw [← List.append_assoc, ← h.asked]
  | answer howed =>
      have hpassed := h.passed
      rw [howed] at hpassed honce
      refine ⟨?_, h.asked, ?_⟩
      · rw [hpassed, List.append_assoc, List.singleton_append]
      · rw [← honce, List.length_cons, Nat.add_right_comm, Nat.add_assoc]
  | clear hsent =>
      have hbusy := l.busy.toNat_le
      refine ⟨h.passed, h.asked, ?_⟩
      simp only [Bool.toNat_false]
      omega
  | hold hinbox =>
      refine ⟨h.passed, ?_, honce⟩
      rw [h.asked, hinbox, List.append_assoc, List.append_assoc, List.append_assoc,
        List.singleton_append]
  | pass hidle hheld =>
      rw [hidle, Bool.toNat_false, Nat.add_eq_zero_iff] at honce
      refine ⟨?_, ?_, ?_⟩
      · rw [h.passed, List.append_assoc]
      · rw [h.asked, hheld, List.append_assoc l.passed, List.append_assoc l.passed,
          List.append_assoc l.passed, List.singleton_append]
      · rw [List.length_append, honce.1, honce.2]
        rfl

theorem moves (h : Balanced l) (hmoves : Moves l l') : Balanced l' := by
  induction hmoves with
  | refl => exact h
  | tail _ hmove ih => exact ih.move hmove

/-- The answers are the first of the requests that were passed on, and these the first of those
that came. -/
theorem answered_isPrefix (h : Balanced l) : l.answered <+: l.passed := ⟨l.owed, h.passed.symm⟩

theorem passed_isPrefix (h : Balanced l) : l.passed <+: l.asked := by
  refine ⟨l.held ++ l.inbox, ?_⟩
  rw [h.asked, List.append_assoc]

/-- At most one request that was passed on is not answered. -/
theorem length_passed_le (h : Balanced l) : l.passed.length ≤ l.answered.length + 1 := by
  rw [h.passed, List.length_append]
  exact Nat.add_le_add_left h.length_owed_le _

/-- A dispatcher that is not busy is owed no answer. -/
theorem owed_eq_nil (h : Balanced l) (hidle : l.busy = false) : l.owed = [] := by
  have honce := h.once
  rw [hidle, Bool.toNat_false] at honce
  exact List.length_eq_zero_iff.mp (Nat.eq_zero_of_add_eq_zero_right honce)

/-- When the dispatcher is not busy and no request waits, all have been answered. -/
theorem answered_eq_asked (h : Balanced l) (hidle : l.busy = false) (hheld : l.held = [])
    (hinbox : l.inbox = []) : l.answered = l.asked := by
  rw [h.asked, h.passed, h.owed_eq_nil hidle, hheld, hinbox, List.append_nil, List.append_nil,
    List.append_nil]

/-- A busy dispatcher is owed an answer, or has the message of one. -/
theorem owed_or_sent (h : Balanced l) (hbusy : l.busy = true) : l.owed ≠ [] ∨ l.sent ≠ 0 := by
  have honce := h.once
  rw [hbusy, Bool.toNat_true] at honce
  by_contra! hnone
  rw [hnone.1, hnone.2, List.length_nil] at honce
  exact Nat.zero_ne_one honce

end Balanced

/-- The ledger of a dispatcher that nothing has reached. -/
theorem balanced_init : Balanced (⟨false, 0, [], [], [], [], [], []⟩ : Ledger κ) := ⟨rfl, rfl, rfl⟩

/-- Any number of answers. -/
theorem moves_answers (answers : List κ) {l : Ledger κ} {owed : List κ}
    (howed : l.owed = answers ++ owed) :
    Moves l { l with
      owed := owed
      sent := l.sent + answers.length
      answered := l.answered ++ answers } := by
  induction answers generalizing l with
  | nil =>
      rw [List.append_nil, ← List.nil_append owed, ← howed]
      exact .refl
  | cons c answers ih =>
      refine .head (.answer howed) ?_
      have hrest := ih (l := { l with
        owed := answers ++ owed
        sent := l.sent + 1
        answered := l.answered ++ [c] }) rfl
      rw [List.append_assoc, List.singleton_append, Nat.add_right_comm] at hrest
      exact hrest

end StopAndWait
