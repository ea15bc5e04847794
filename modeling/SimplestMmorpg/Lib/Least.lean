/-
Two ways of looking for a least element.

`inRounds` looks through one round of candidates after the other and takes the
first that will do. When the rounds are the candidates by increasing key, what
it takes has the least key, whatever the order inside a round.

`running` walks a list once and keeps the best so far, replacing it only by
something strictly better. What is left is a least candidate of the whole list,
again in whatever order the list is walked.

Nothing here is about any program.
-/
import Mathlib.Data.List.Induction
import Mathlib.Order.Lattice

set_option autoImplicit false

namespace Least

variable {α β ι κ : Type*}

/-! ## In rounds -/

/-- The first that will do, in rounds `0` to `n`. -/
def inRounds (rounds : ℕ → List α) (f : α → Option β) (n : ℕ) : Option β :=
  ((List.range (n + 1)).flatMap rounds).findSome? f

variable {rounds : ℕ → List α} {f : α → Option β} {n : ℕ} {b : β}

theorem inRounds_eq_none_iff :
    inRounds rounds f n = none ↔ ∀ r ≤ n, ∀ a ∈ rounds r, f a = none := by
  simp only [inRounds, List.findSome?_eq_none_iff, List.mem_flatMap, List.mem_range,
    Nat.lt_succ_iff]
  exact ⟨fun h r hr a ha => h a ⟨r, hr, ha⟩, fun h a ⟨r, hr, ha⟩ => h r hr a ha⟩

/-- **The first round that has one**: no earlier round has any. -/
theorem inRounds_eq_some (h : inRounds rounds f n = some b) :
    ∃ r ≤ n, (∃ a ∈ rounds r, f a = some b) ∧ ∀ r' < r, ∀ a ∈ rounds r', f a = none := by
  induction n with
  | zero =>
      obtain ⟨a, ha, hb⟩ := List.exists_of_findSome?_eq_some h
      obtain ⟨r, hr, har⟩ := List.mem_flatMap.mp ha
      obtain rfl : r = 0 := Nat.lt_one_iff.mp (List.mem_range.mp hr)
      exact ⟨0, Nat.le_refl 0, ⟨a, har, hb⟩, fun r' hr' => absurd hr' (Nat.not_lt_zero r')⟩
  | succ n ih =>
      have hsplit : inRounds rounds f (n + 1) =
          (inRounds rounds f n).or ((rounds (n + 1)).findSome? f) := by
        rw [inRounds, List.range_succ, List.flatMap_append, List.findSome?_append,
          List.flatMap_singleton, inRounds]
      rw [hsplit] at h
      cases hearly : inRounds rounds f n with
      | some b' =>
          rw [hearly, Option.some_or] at h
          obtain ⟨r, hr, hfound, hbefore⟩ := ih (hearly.trans h)
          exact ⟨r, Nat.le_succ_of_le hr, hfound, hbefore⟩
      | none =>
          -- the last round is reached only when the others have none
          rw [hearly, Option.none_or] at h
          refine ⟨n + 1, Nat.le_refl _, List.exists_of_findSome?_eq_some h, ?_⟩
          intro r' hr'
          exact inRounds_eq_none_iff.mp hearly r' (Nat.lt_succ_iff.mp hr')

/-! ## A running minimum -/

section Running

variable [LinearOrder κ]

/-- The better of what is kept and a candidate; the old one stays in a tie. -/
def better (best : Option (β × κ)) : Option (β × κ) → Option (β × κ)
  | none => best
  | some (b, k) =>
    match best with
    | none => some (b, k)
    | some (_, least) => if k < least then some (b, k) else best

/-- What is kept is one of the candidates, and none of them is smaller. -/
structure Kept (candidate : ι → Option (β × κ)) (walked : List ι) (best : Option (β × κ)) :
    Prop where
  none_iff : best = none ↔ ∀ i ∈ walked, candidate i = none
  mem : ∀ b, best = some b → ∃ i ∈ walked, candidate i = some b
  least : ∀ b, best = some b → ∀ i ∈ walked, ∀ c, candidate i = some c → b.2 ≤ c.2

variable {candidate : ι → Option (β × κ)} {walked : List ι} {best : Option (β × κ)}

theorem kept_nil : Kept candidate [] none where
  none_iff := by simp
  mem b h := absurd h (by simp)
  least b h := absurd h (by simp)

/-- **One more candidate.** -/
theorem Kept.next (h : Kept candidate walked best) (i : ι) :
    Kept candidate (walked ++ [i]) (better best (candidate i)) := by
  cases hi : candidate i with
  | none =>
      refine ⟨?_, fun b hb => ?_, fun b hb j hj c hc => ?_⟩
      · rw [better, h.none_iff, List.forall_mem_append, List.forall_mem_singleton, hi]
        exact (and_iff_left rfl).symm
      · obtain ⟨j, hj, hjb⟩ := h.mem b hb
        exact ⟨j, List.mem_append_left [i] hj, hjb⟩
      · rcases List.mem_append.mp hj with hj | hj
        · exact h.least b hb j hj c hc
        · rw [List.mem_singleton.mp hj, hi] at hc
          exact absurd hc (by simp)
  | some new =>
      have hself : ∃ j ∈ walked ++ [i], candidate j = some new :=
        ⟨i, List.mem_append_right walked (List.mem_singleton_self i), hi⟩
      have hnot : ∀ b : Option (β × κ), b.isSome →
          (b = none ↔ ∀ j ∈ walked ++ [i], candidate j = none) := by
        intro b hb
        refine ⟨fun hnone => ?_, fun hall => ?_⟩
        · rw [hnone] at hb
          exact absurd hb (by simp)
        · obtain ⟨j, hj, hjnew⟩ := hself
          rw [hall j hj] at hjnew
          exact absurd hjnew (by simp)
      -- a bound for the candidates walked and for the new one is one for all
      have hall : ∀ k, k ≤ new.2 → (∀ j ∈ walked, ∀ c, candidate j = some c → k ≤ c.2) →
          ∀ j ∈ walked ++ [i], ∀ c, candidate j = some c → k ≤ c.2 := by
        intro k hk hold j hj c hc
        rcases List.mem_append.mp hj with hj | hj
        · exact hold j hj c hc
        · rw [List.mem_singleton.mp hj, hi] at hc
          exact Option.some.inj hc ▸ hk
      cases best with
      | none =>
          refine ⟨hnot _ rfl, fun b hb => ?_, fun b hb => ?_⟩
          · exact Option.some.inj hb ▸ hself
          · obtain rfl := Option.some.inj hb
            refine hall new.2 le_rfl fun j hj c hc => ?_
            rw [h.none_iff.mp rfl j hj] at hc
            exact absurd hc (by simp)
      | some old =>
          have hold := h.least old rfl
          by_cases hlt : new.2 < old.2
          · have hbetter : better (some old) (some new) = some new := if_pos hlt
            rw [hbetter]
            refine ⟨hnot _ rfl, fun b hb => ?_, fun b hb => ?_⟩
            · exact Option.some.inj hb ▸ hself
            · obtain rfl := Option.some.inj hb
              exact hall new.2 le_rfl fun j hj c hc => hlt.le.trans (hold j hj c hc)
          · have hbetter : better (some old) (some new) = some old := if_neg hlt
            rw [hbetter]
            refine ⟨hnot _ rfl, fun b hb => ?_, fun b hb => ?_⟩
            · obtain ⟨j, hj, hjb⟩ := h.mem b hb
              exact ⟨j, List.mem_append_left [i] hj, hjb⟩
            · obtain rfl := Option.some.inj hb
              exact hall old.2 (not_lt.mp hlt) hold

/-- The best of the candidates of a list. -/
def running (candidate : ι → Option (β × κ)) (l : List ι) : Option (β × κ) :=
  l.foldl (fun best i => better best (candidate i)) none

/-- **A running minimum is a minimum.** -/
theorem kept_running (candidate : ι → Option (β × κ)) (l : List ι) :
    Kept candidate l (running candidate l) := by
  induction l using List.reverseRecOn with
  | nil => exact kept_nil
  | append_singleton l i ih =>
      rw [running, List.foldl_append]
      exact ih.next i

end Running

end Least
