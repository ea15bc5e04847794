/-
Loops with an early exit, as fuel-indexed functions.

A body takes a state either to a next state or to a result. `iterate` runs it
with a bound on the number of rounds, so it is an ordinary structural
recursion that evaluates on a concrete state; `Returns` and `Diverges` are the
two things one wants to say about it without the bound. A body is a function,
so the result is unique (`Returns.unique`) and a loop that keeps to a set of
states it never leaves has none (`diverges_of_invariant`).

Nothing here is about any program.
-/
import Mathlib.Order.WellFounded

set_option autoImplicit false

namespace Loop

variable {σ ρ : Type*}

/-- What one round of a loop body does: go on from a new state, or leave. -/
inductive Round (σ ρ : Type*) where
  | next (s : σ)
  | done (r : ρ)

/-- At most `fuel` rounds of `body`; `none` when they do not suffice. -/
def iterate (body : σ → Round σ ρ) : ℕ → σ → Option ρ
  | 0, _ => none
  | fuel + 1, s =>
    match body s with
    | .next s' => iterate body fuel s'
    | .done r => some r

/-- The loop leaves after finitely many rounds, with result `r`. -/
def Returns (body : σ → Round σ ρ) (s : σ) (r : ρ) : Prop :=
  ∃ fuel, iterate body fuel s = some r

/-- No number of rounds makes the loop leave. -/
def Diverges (body : σ → Round σ ρ) (s : σ) : Prop :=
  ∀ fuel, iterate body fuel s = none

/-- The states the loop goes through. -/
inductive Visits (body : σ → Round σ ρ) (s : σ) : σ → Prop where
  | start : Visits body s s
  | next {t t' : σ} : Visits body s t → body t = .next t' → Visits body s t'

variable {body : σ → Round σ ρ} {s s' : σ} {r r' : ρ}

theorem returns_done (h : body s = .done r) : Returns body s r :=
  ⟨1, by simp only [iterate, h]⟩

/-- A round that goes on neither adds a result nor loses one. -/
theorem returns_next (h : body s = .next s') : Returns body s r ↔ Returns body s' r := by
  constructor
  · rintro ⟨fuel, hf⟩
    cases fuel with
    | zero => simp [iterate] at hf
    | succ n => exact ⟨n, by simpa only [iterate, h] using hf⟩
  · rintro ⟨fuel, hf⟩
    exact ⟨fuel + 1, by simpa only [iterate, h] using hf⟩

theorem Visits.head {t : σ} (h : body s = .next s') (ht : Visits body s' t) :
    Visits body s t := by
  induction ht with
  | start => exact .next .start h
  | next _ hn ih => exact .next ih hn

/-- What holds at the start and survives every round holds of every state the
loop goes through. -/
theorem Visits.invariant {I : σ → Prop} (hI : ∀ t t', I t → body t = .next t' → I t') (hs : I s)
    {t : σ} (h : Visits body s t) : I t := by
  induction h with
  | start => exact hs
  | next _ hn ih => exact hI _ _ ih hn

/-- A loop that leaves does so from a state it goes through. -/
theorem Visits.of_iterate {fuel : ℕ} (h : iterate body fuel s = some r) :
    ∃ t, Visits body s t ∧ body t = .done r := by
  induction fuel generalizing s with
  | zero => exact absurd h (Option.some_ne_none r).symm
  | succ n ih =>
      rw [iterate] at h
      cases hb : body s with
      | next s' =>
          rw [hb] at h
          obtain ⟨t, ht, hd⟩ := ih h
          exact ⟨t, ht.head hb, hd⟩
      | done r' =>
          rw [hb] at h
          exact ⟨s, .start, hb.trans (congrArg Round.done (Option.some.inj h))⟩

theorem iterate_succ {fuel : ℕ} :
    iterate body fuel s = some r → iterate body (fuel + 1) s = some r := by
  induction fuel generalizing s with
  | zero => intro h; simp [iterate] at h
  | succ n ih =>
      intro h
      rw [iterate] at h ⊢
      split at h
      · exact ih h
      · exact h

theorem iterate_mono {m n : ℕ} (hmn : m ≤ n) (h : iterate body m s = some r) :
    iterate body n s = some r := by
  induction n, hmn using Nat.le_induction with
  | base => exact h
  | succ n _ ih => exact iterate_succ ih

theorem Returns.unique (h : Returns body s r) (h' : Returns body s r') : r = r' := by
  obtain ⟨m, hm⟩ := h
  obtain ⟨n, hn⟩ := h'
  have h1 := iterate_mono (Nat.le_max_left m n) hm
  have h2 := iterate_mono (Nat.le_max_right m n) hn
  exact Option.some.inj (h1.symm.trans h2)

theorem Diverges.not_returns (h : Diverges body s) : ¬ Returns body s r := by
  rintro ⟨fuel, hf⟩
  rw [h fuel] at hf
  exact Option.some_ne_none _ hf.symm

/-- A set of states the body only moves around in is never left. -/
theorem diverges_of_invariant {I : σ → Prop} (hI : ∀ t, I t → ∃ t', body t = .next t' ∧ I t')
    (hs : I s) : Diverges body s := by
  intro fuel
  induction fuel generalizing s with
  | zero => rfl
  | succ n ih =>
      obtain ⟨t', ht, hI'⟩ := hI s hs
      simp only [iterate, ht]
      exact ih hI'

end Loop
