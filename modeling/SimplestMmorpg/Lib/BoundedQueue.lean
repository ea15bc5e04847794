/-
First-in-first-out queues with a capacity.

A `Queue` carries the bound on its length, so a queue that is too long cannot
be built: a write that does not fit is refused whole. `Op` and `Answer` are the
vocabulary of a machine that is used as a queue; `step` and `answer` say what
the queue itself does with an operation and what the caller gets to see.

Two deterministic machines are compared by what their callers see. When a
relation between their states survives every step and makes the answers equal,
the answers of two whole runs are equal (`simulation`).

Nothing here is about any program.
-/
import SimplestMmorpg.Lib.Transition

set_option autoImplicit false

namespace BoundedQueue

open Transition

/-! ## Machines that answer -/

section Machines

variable {σ τ ε β : Type*} {step : σ → ε → σ} {step' : τ → ε → τ} {answer : σ → ε → β}
  {answer' : τ → ε → β} {C : σ → ε → Prop} {R : σ → τ → Prop} {s : σ} {t : τ} {es : List ε}

/-- What the caller sees along a run. -/
def answers (step : σ → ε → σ) (answer : σ → ε → β) : σ → List ε → List β
  | _, [] => []
  | s, e :: es => answer s e :: answers step answer (step s e) es

/-- **Simulation.** States that answer alike and stay related answer alike for a
whole run. -/
theorem simulation
    (hR : ∀ s t e, R s t → C s e → R (step s e) (step' t e) ∧ answer s e = answer' t e)
    (hst : R s t) (hC : Along step C s es) :
    R (run step s es) (run step' t es) ∧
      answers step answer s es = answers step' answer' t es := by
  induction es generalizing s t with
  | nil => exact ⟨hst, rfl⟩
  | cons e es ih =>
      obtain ⟨hnext, hans⟩ := hR s t e hst hC.1
      obtain ⟨hend, hrest⟩ := ih hnext hC.2
      refine ⟨hend, ?_⟩
      rw [answers, answers, hans, hrest]

end Machines

/-! ## The queue -/

/-- The unread symbols, oldest first. -/
@[ext]
structure Queue (α : Type*) (cap : ℕ) where
  items : List α
  length_le : items.length ≤ cap

/-- What a queue is asked to do. -/
inductive Op (α : Type*) where
  | write (xs : List α)
  | peek (n : ℕ)
  | pop (n : ℕ)

/-- What the caller is told. -/
inductive Answer (α : Type*) where
  | done
  | read (xs : List α)
  | refused

variable {α : Type*} {cap : ℕ}

namespace Queue

def empty : Queue α cap := ⟨[], Nat.zero_le _⟩

variable (q : Queue α cap)

/-- The symbols are appended when they all fit. -/
def write (xs : List α) : Queue α cap :=
  if h : (q.items ++ xs).length ≤ cap then ⟨q.items ++ xs, h⟩ else q

/-- The oldest `n` symbols. -/
def peek (n : ℕ) : Option (List α) :=
  if n ≤ q.items.length then some (q.items.take n) else none

/-- The queue without its oldest `n` symbols. -/
def pop (n : ℕ) : Option (Queue α cap) :=
  if n ≤ q.items.length then
    some ⟨q.items.drop n, by rw [List.length_drop]; exact Nat.le_trans (Nat.sub_le _ _) q.length_le⟩
  else none

/-- One operation; a refused one changes nothing. -/
def step : Op α → Queue α cap
  | .write xs => q.write xs
  | .peek _ => q
  | .pop n => (q.pop n).getD q

def answer : Op α → Answer α
  | .write xs => if (q.items ++ xs).length ≤ cap then .done else .refused
  | .peek n => (q.peek n).elim .refused .read
  | .pop n => (q.pop n).elim .refused fun _ => .done

variable {q} {n : ℕ} {xs : List α}

theorem items_write (h : (q.items ++ xs).length ≤ cap) : (q.write xs).items = q.items ++ xs := by
  rw [write, dif_pos h]

theorem peek_of_le (h : n ≤ q.items.length) : q.peek n = some (q.items.take n) := if_pos h

theorem peek_of_lt (h : q.items.length < n) : q.peek n = none := if_neg (Nat.not_le.mpr h)

theorem pop_of_le (h : n ≤ q.items.length) : ∃ q', q.pop n = some q' ∧
    q'.items = q.items.drop n :=
  ⟨_, if_pos h, rfl⟩

theorem pop_of_lt (h : q.items.length < n) : q.pop n = none := if_neg (Nat.not_le.mpr h)

end Queue

end BoundedQueue
