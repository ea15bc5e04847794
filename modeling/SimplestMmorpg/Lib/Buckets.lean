/-
Elements put into buckets by a key, one after the other.

Each bucket ends up with the elements of its key in their order; and the buckets
one after the other, each key once, have the elements there were, in another
order.

Nothing here is about any program.
-/
import Mathlib.Data.List.Perm.Basic
import Mathlib.Logic.Function.Basic

set_option autoImplicit false

namespace Buckets

variable {α β κ : Type*} [DecidableEq κ] (key : α → κ) (val : α → β)

/-- What an element is worth goes to the end of the bucket of its key. -/
def put (buckets : κ → List β) (a : α) : κ → List β :=
  Function.update buckets (key a) (buckets (key a) ++ [val a])

/-- What a bucket has after all elements have been put. -/
theorem foldl_put (l : List α) (buckets : κ → List β) (k : κ) :
    l.foldl (put key val) buckets k = buckets k ++ (l.filter fun a => key a = k).map val := by
  induction l generalizing buckets with
  | nil => exact (List.append_nil _).symm
  | cons a l ih =>
      rw [List.foldl_cons, ih, put, Function.update_apply]
      by_cases hk : key a = k
      · rw [if_pos hk.symm, List.filter_cons_of_pos (by simpa using hk), hk, List.append_assoc,
          List.singleton_append, List.map_cons]
      · rw [if_neg fun h => hk h.symm, List.filter_cons_of_neg (by simpa using hk)]

variable {key}

/-- **The buckets one after the other are the elements.** -/
theorem flatMap_filter_perm {keys : List κ} (hnodup : keys.Nodup) {l : List α}
    (hkeys : ∀ a ∈ l, key a ∈ keys) :
    (keys.flatMap fun k => l.filter fun a => key a = k).Perm l := by
  induction keys generalizing l with
  | nil =>
      cases l with
      | nil => exact .refl _
      | cons a l => exact absurd (hkeys a (List.mem_cons_self ..)) List.not_mem_nil
  | cons k keys ih =>
      obtain ⟨hk, hnodup⟩ := List.nodup_cons.mp hnodup
      have hrest : ∀ a ∈ l.filter fun a => !decide (key a = k), key a ∈ keys := by
        intro a ha
        obtain ⟨ha, hne⟩ := List.mem_filter.mp ha
        rcases List.mem_cons.mp (hkeys a ha) with heq | hmem
        · exact absurd heq (by simpa using hne)
        · exact hmem
      -- the other buckets are those of the elements with another key
      have hothers : (keys.flatMap fun j => l.filter fun a => key a = j) =
          keys.flatMap fun j => (l.filter fun a => !decide (key a = k)).filter fun a =>
            key a = j := by
        refine List.flatMap_congr fun j hj => ?_
        rw [List.filter_filter]
        refine List.filter_congr fun a _ => ?_
        have hne : j ≠ k := fun h => hk (h ▸ hj)
        by_cases haj : key a = j
        · simp [haj, hne]
        · simp [haj]
      rw [List.flatMap_cons, hothers]
      exact ((ih hnodup hrest).append_left _).trans (List.filter_append_perm _ _)

end Buckets
