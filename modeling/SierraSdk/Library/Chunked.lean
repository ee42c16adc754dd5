import Mathlib.Data.List.Basic

/-!
# A stream that is read in pieces

Of a stream, each read finds a number of symbols ready, and takes those of them that it wants.
What is written to the stream in one piece may be read in several, and the other way round.

`Fills` says that reads which find so many symbols are just enough for what is wanted, and
`Prompt` that messages with a header of a fixed size arrive one after the other, each header in
one read and each body in a limited number of reads.
-/

namespace Chunked

variable {α : Type*}

/-- The symbols that were not read yet, and how many each further read finds ready. -/
structure Stream (α : Type*) where
  symbols : List α
  ready : List ℕ

/-- One read that wants so many symbols. Nothing is read when nothing will be ready. -/
def Stream.read (want : ℕ) (s : Stream α) : Option (List α × Stream α) :=
  s.ready.head?.map fun n =>
    (s.symbols.take (min want n), ⟨s.symbols.drop (min want n), s.ready.tail⟩)

/-- Reads that find so many symbols are just enough for what is wanted. -/
def Fills : ℕ → List ℕ → Prop
  | want, [] => want = 0
  | want, n :: ns => 0 < want ∧ Fills (want - n) ns

/-- Messages with bodies of these lengths arrive: a read finds each header whole, and at most
`limit` reads find the body. -/
inductive Prompt (header limit : ℕ) : List ℕ → List ℕ → Prop
  | nil (ready : List ℕ) : Prompt header limit [] ready
  | cons {n length : ℕ} {ns lengths ready : List ℕ} (hheader : header ≤ n)
      (hbody : Fills length ns) (hlimit : ns.length ≤ limit)
      (hrest : Prompt header limit lengths ready) :
      Prompt header limit (length :: lengths) (n :: (ns ++ ready))

variable {xs ys : List α} {ready : List ℕ}

theorem read_cons (want n : ℕ) :
    Stream.read want ⟨xs, n :: ready⟩ =
      some (xs.take (min want n), ⟨xs.drop (min want n), ready⟩) := rfl

/-- A read that finds enough takes all that it wants. -/
theorem read_append {want n : ℕ} (hlength : xs.length = want) (hn : want ≤ n) :
    Stream.read want ⟨xs ++ ys, n :: ready⟩ = some (xs, ⟨ys, ready⟩) := by
  rw [read_cons, Nat.min_eq_left hn, List.take_left' hlength, List.drop_left' hlength]

end Chunked
