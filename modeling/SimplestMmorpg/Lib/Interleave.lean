/-
Threads over a shared state.

A thread is a local state, and one atomic step of it reads and writes the
shared state. A run of the threads is any list of thread numbers: each entry is
one step of that thread, so every interleaving is a run. What is shown of all
of them counts threads: a step changes one thread, and a count by at most one.

Nothing here is about any program.
-/
import SimplestMmorpg.Lib.Transition
import Mathlib.Data.List.Basic
import Mathlib.Logic.Function.Iterate

set_option autoImplicit false

namespace Interleave

open Transition

variable {σ τ : Type*}

/-- The shared state and the threads. -/
structure Config (σ τ : Type*) where
  shared : σ
  threads : List τ

/-- One atomic step of a thread; a number that no thread has does nothing. -/
def step (act : σ → τ → σ × τ) (c : Config σ τ) (i : ℕ) : Config σ τ :=
  match c.threads[i]? with
  | none => c
  | some t => ⟨(act c.shared t).1, c.threads.set i (act c.shared t).2⟩

/-- How many threads are like this. -/
def count (p : τ → Bool) (c : Config σ τ) : ℕ := c.threads.countP p

/-- How many threads but this one are. -/
def others (p : τ → Bool) (c : Config σ τ) (i : ℕ) : ℕ := (c.threads.eraseIdx i).countP p

variable {act : σ → τ → σ × τ} {c : Config σ τ} {i : ℕ} {t : τ} {p : τ → Bool}

theorem step_none (h : c.threads[i]? = none) : step act c i = c := by
  rw [step, h]

theorem step_some (h : c.threads[i]? = some t) :
    step act c i = ⟨(act c.shared t).1, c.threads.set i (act c.shared t).2⟩ := by
  rw [step, h]

theorem shared_step (h : c.threads[i]? = some t) :
    (step act c i).shared = (act c.shared t).1 := by
  rw [step_some h]

/-! ## Counting -/

theorem count_eq (h : c.threads[i]? = some t) (p : τ → Bool) :
    count p c = others p c i + if p t then 1 else 0 := by
  rw [count, (perm_eraseIdx h).countP_eq, List.countP_cons, others]

theorem count_step (h : c.threads[i]? = some t) (p : τ → Bool) :
    count p (step act c i) = others p c i + if p (act c.shared t).2 then 1 else 0 := by
  obtain ⟨hi, -⟩ := List.getElem?_eq_some_iff.mp h
  have hget : (c.threads.set i (act c.shared t).2)[i]? = some (act c.shared t).2 := by
    rw [List.getElem?_set_self hi]
  rw [step_some h, count, (perm_eraseIdx hget).countP_eq, List.countP_cons,
    List.eraseIdx_set_eq, others]

theorem count_eq_zero (h : ∀ t ∈ c.threads, p t = false) : count p c = 0 := by
  apply List.countP_eq_zero.mpr
  intro t ht
  rw [h t ht]
  exact Bool.false_ne_true

/-! ## A thread by itself -/

/-- A run of one thread, step by step. -/
theorem run_alone (act : σ → τ → σ × τ) (s : σ) (t : τ) (n : ℕ) :
    run (step act) ⟨s, [t]⟩ (List.replicate n 0) =
      let out := (fun x : σ × τ => act x.1 x.2)^[n] (s, t)
      ⟨out.1, [out.2]⟩ := by
  induction n generalizing s t with
  | zero => rfl
  | succ n ih =>
      rw [List.replicate_succ, run_cons, Function.iterate_succ_apply]
      exact ih (act s t).1 (act s t).2

/-- A thread by itself gets from one state to another. -/
def Goes (act : σ → τ → σ × τ) (x y : σ × τ) : Prop :=
  ∃ n, (fun x : σ × τ => act x.1 x.2)^[n] x = y

namespace Goes

variable {x y z : σ × τ}

theorem refl (x : σ × τ) : Goes act x x := ⟨0, rfl⟩

theorem trans (h : Goes act x y) (h' : Goes act y z) : Goes act x z := by
  obtain ⟨n, rfl⟩ := h
  obtain ⟨m, rfl⟩ := h'
  exact ⟨m + n, Function.iterate_add_apply _ m n x⟩

/-- One step, and then the rest. -/
theorem head (h : Goes act (act x.1 x.2) y) : Goes act x y := trans ⟨1, rfl⟩ h

/-- A thread that takes one or more steps for each step of another gets where that
one gets. -/
theorem simulate {σ' τ' : Type*} {act' : σ' → τ' → σ' × τ'} {R : σ × τ → σ' × τ' → Prop}
    (hR : ∀ x x', R x x' → ∃ y', Goes act' x' y' ∧ R (act x.1 x.2) y') {x' : σ' × τ'}
    (h : Goes act x y) (hx : R x x') : ∃ y', Goes act' x' y' ∧ R y y' := by
  obtain ⟨n, rfl⟩ := h
  induction n generalizing x x' with
  | zero => exact ⟨x', refl x', hx⟩
  | succ n ih =>
      obtain ⟨y', hgo, hy⟩ := hR x x' hx
      obtain ⟨z', hgo', hz⟩ := ih hy
      exact ⟨z', hgo.trans hgo', hz⟩

/-- A thread inside another one. -/
theorem map {τ' : Type*} {b : σ → τ' → σ × τ'} (f : τ → τ')
    (hf : ∀ s t, Goes b (s, f t) ((act s t).1, f (act s t).2)) {s s' : σ} {t t' : τ}
    (h : Goes act (s, t) (s', t')) : Goes b (s, f t) (s', f t') := by
  obtain ⟨z, hgo, rfl⟩ := simulate (R := fun x y => y = (x.1, f x.2))
    (fun x y hxy => ⟨_, hxy ▸ hf x.1 x.2, rfl⟩) h rfl
  exact hgo

end Goes

/-! ## What threads hold -/

theorem getElem?_step {a : σ → τ → σ × τ} (h : c.threads[i]? = some t) (j : ℕ) :
    (step a c i).threads[j]? = if j = i then some (a c.shared t).2 else c.threads[j]? := by
  obtain ⟨hi, -⟩ := List.getElem?_eq_some_iff.mp h
  rw [step_some h, List.getElem?_set]
  by_cases hji : j = i
  · rw [if_pos hji.symm, if_pos hji, if_pos hi]
  · rw [if_neg (Ne.symm hji), if_neg hji]

/-- Every thread fits the shared state. -/
def Each (F : σ → τ → Prop) (c : Config σ τ) : Prop :=
  ∀ (i : ℕ) (t : τ), c.threads[i]? = some t → F c.shared t

/-- No two threads hold the same. -/
def Exclusive {α : Type*} (holds : τ → Option α) (c : Config σ τ) : Prop :=
  ∀ (i j : ℕ) (t u : τ) (a : α), i ≠ j → c.threads[i]? = some t → c.threads[j]? = some u →
    holds t = some a → holds u ≠ some a

theorem Each.step {F : σ → τ → Prop} (hF : Each F c) (h : c.threads[i]? = some t)
    (hown : F (act c.shared t).1 (act c.shared t).2)
    (hothers : ∀ j u, j ≠ i → c.threads[j]? = some u → F c.shared u → F (act c.shared t).1 u) :
    Each F (step act c i) := by
  intro j u hu
  rw [shared_step h]
  rw [getElem?_step h] at hu
  split at hu
  · exact Option.some.inj hu ▸ hown
  · next hji => exact hothers j u hji hu (hF j u hu)

/-- What the thread that steps holds afterwards, it held before or nobody else does. -/
theorem Exclusive.step {α : Type*} {holds : τ → Option α} (hE : Exclusive holds c)
    (h : c.threads[i]? = some t)
    (hgain : ∀ a, holds (act c.shared t).2 = some a → holds t = some a ∨
      ∀ j u, j ≠ i → c.threads[j]? = some u → holds u ≠ some a) :
    Exclusive holds (step act c i) := by
  -- seen from the thread that steps
  have hone : ∀ j u a, j ≠ i → c.threads[j]? = some u → holds (act c.shared t).2 = some a →
      holds u ≠ some a := by
    intro j u a hji hu ha
    rcases hgain a ha with hold | hnew
    · exact hE i j t u a (Ne.symm hji) h hu hold
    · exact hnew j u hji hu
  intro j k u v a hjk hu hv ha
  rw [getElem?_step h] at hu hv
  split at hu
  · next hji =>
      have hki : k ≠ i := fun hki => hjk (hji.trans hki.symm)
      rw [if_neg hki] at hv
      exact hone k v a hki hv (Option.some.inj hu ▸ ha)
  · next hji =>
      split at hv
      · intro hb
        rw [← Option.some.inj hv] at hb
        exact hone j u a hji hu hb ha
      · exact hE j k u v a hjk hu hv ha

theorem each_of_forall {F : σ → τ → Prop} (h : ∀ t ∈ c.threads, F c.shared t) : Each F c :=
  fun _ t ht => h t (List.mem_of_getElem? ht)

theorem exclusive_of_none {α : Type*} {holds : τ → Option α} (h : ∀ t ∈ c.threads, holds t = none) :
    Exclusive holds c := by
  intro i j t u a _ ht _ ha
  rw [h t (List.mem_of_getElem? ht)] at ha
  exact absurd ha (by simp)

end Interleave
