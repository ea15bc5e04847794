/-
A record that is read field by field while it changes.

A reader takes one field after the other, and the record may change between two
reads. What is collected in the end is one of the states that the record went
through if no change tears it: at each change, either all fields taken so far
still have their values after it, or none of the fields still to take is
changed. Then there is at any time one state that has both the values taken and
the values still to be taken.

Nothing here is about any program.
-/
import Mathlib.Data.Fintype.Basic

set_option autoImplicit false

namespace Collect

variable {ρ ι β : Type*} (get : ι → ρ → β)

/-- The values taken, `got`, and the values still to be taken from `now` are those of
one of the states `seen`. -/
def OfInstant (todo : List ι) (got now : ρ) (seen : List ρ) : Prop :=
  ∃ q ∈ seen, (∀ i, i ∉ todo → get i got = get i q) ∧ ∀ i ∈ todo, get i now = get i q

/-- A change that does not tear what is collected. -/
def Whole (todo : List ι) (got now next : ρ) : Prop :=
  (∀ i, i ∉ todo → get i got = get i next) ∨ ∀ i ∈ todo, get i next = get i now

instance [Fintype ι] [DecidableEq ι] [DecidableEq β] (todo : List ι) (got now next : ρ) :
    Decidable (Whole get todo got now next) := by
  unfold Whole
  infer_instance

variable {get} {todo : List ι} {got got' now next : ρ} {seen : List ρ} {i : ι}

namespace OfInstant

/-- Nothing is taken yet. -/
theorem start (h : ∀ i, i ∈ todo) : OfInstant get todo got now [now] :=
  ⟨now, List.mem_singleton_self now, fun i hi => absurd (h i) hi, fun _ _ => rfl⟩

/-- **A change** that tears nothing. -/
theorem change (h : OfInstant get todo got now seen) (hw : Whole get todo got now next) :
    OfInstant get todo got next (seen ++ [next]) := by
  rcases hw with htaken | hleft
  · -- what was taken is still right: the state after the change will do
    exact ⟨next, List.mem_append_right seen (List.mem_singleton_self next), htaken, fun _ _ => rfl⟩
  · -- what is left was not touched: the old state will do
    obtain ⟨q, hq, hgot, hnow⟩ := h
    refine ⟨q, List.mem_append_left [next] hq, hgot, ?_⟩
    intro i hi
    rw [hleft i hi, hnow i hi]

/-- **A read** of the next field. -/
theorem read (h : OfInstant get (i :: todo) got now seen) (hi : get i got' = get i now)
    (hrest : ∀ j, j ≠ i → get j got' = get j got) : OfInstant get todo got' now seen := by
  obtain ⟨q, hq, hgot, hnow⟩ := h
  refine ⟨q, hq, ?_, fun j hj => hnow j (List.mem_cons_of_mem i hj)⟩
  intro j hj
  by_cases hji : j = i
  · rw [hji, hi, hnow i List.mem_cons_self]
  · rw [hrest j hji]
    apply hgot
    simp [hji, hj]

/-- **Everything is taken**: it is one of the states. -/
theorem finish (h : OfInstant get [] got now seen)
    (hext : ∀ a b : ρ, (∀ i, get i a = get i b) → a = b) : got ∈ seen := by
  obtain ⟨q, hq, hgot, -⟩ := h
  rw [hext got q fun i => hgot i List.not_mem_nil]
  exact hq

end OfInstant

end Collect
