/-
A gate with a cooldown.

Requests come at times, and some of them are hindered by other things. The gate
lets an unhindered request through when at least `d` has passed since the last
one it let through, and remembers the time (`passed`). Whatever the requests,
those that pass are at least `d` apart, so that a window of time holds a bounded
number of them. And if the requests come in order, no selection of unhindered
requests that are `d` apart is longer than what passes: to be greedy costs
nothing.

Nothing here is about any program.
-/
import Mathlib.Data.List.Basic
import Mathlib.Order.Basic

set_option autoImplicit false

namespace Cooldown

variable {d last lo hi : ℕ} {reqs more : List (ℕ × Bool)} {ts sel : List ℕ} {t : ℕ}

/-- The times of the requests that pass, when the last one before them passed
at `last`. -/
def passed (d : ℕ) : ℕ → List (ℕ × Bool) → List ℕ
  | _, [] => []
  | last, (t, free) :: reqs =>
    if free = true ∧ d ≤ t - last then t :: passed d t reqs else passed d last reqs

/-- The times of the requests that nothing hinders. -/
def unhindered (reqs : List (ℕ × Bool)) : List ℕ := (reqs.filter (·.2)).map (·.1)

/-- Each time is at least `d` after the ones before it. -/
def Spaced (d : ℕ) (ts : List ℕ) : Prop := ts.Pairwise fun a b => a + d ≤ b

/-- **What passes is spaced**, and after the last one before it. -/
theorem spaced_passed (hd : 0 < d) (last : ℕ) (reqs : List (ℕ × Bool)) :
    (∀ t ∈ passed d last reqs, last + d ≤ t) ∧ Spaced d (passed d last reqs) := by
  induction reqs generalizing last with
  | nil => exact ⟨fun t ht => absurd ht List.not_mem_nil, List.Pairwise.nil⟩
  | cons req reqs ih =>
      obtain ⟨t, free⟩ := req
      unfold passed
      split
      · next hpass =>
          obtain ⟨hafter, hspaced⟩ := ih t
          have ht : last + d ≤ t := by omega
          refine ⟨fun u hu => ?_, List.pairwise_cons.mpr ⟨hafter, hspaced⟩⟩
          rcases List.mem_cons.mp hu with rfl | hu
          · exact ht
          · have := hafter u hu
            omega
      · exact ih last

/-- **A window holds few spaced times.** -/
theorem length_le_of_spaced (hd : 0 < d) (h : Spaced d ts) (hin : ∀ t ∈ ts, lo ≤ t ∧ t ≤ hi) :
    ts.length ≤ (hi - lo) / d + 1 := by
  induction ts generalizing lo with
  | nil => exact Nat.zero_le _
  | cons t ts ih =>
      obtain ⟨hafter, hrest⟩ := List.pairwise_cons.mp h
      obtain ⟨⟨hlo, -⟩, hall⟩ := List.forall_mem_cons.mp hin
      cases hts : ts with
      | nil => exact Nat.le_add_left 1 _
      | cons u us =>
          -- another one comes `d` later, so the window is longer than that
          have hu : u ∈ ts := by rw [hts]; exact List.mem_cons_self
          have hfit : lo + d ≤ hi := by
            have := hafter u hu
            have := (hall u hu).2
            omega
          have hall' : ∀ v ∈ ts, lo + d ≤ v ∧ v ≤ hi := by
            intro v hv
            have := hafter v hv
            exact ⟨by omega, (hall v hv).2⟩
          have hlen := ih hrest hall'
          have hdiv : (hi - lo) / d = (hi - (lo + d)) / d + 1 := by
            rw [Nat.div_eq_sub_div hd (by omega)]
            congr 2
            omega
          rw [← hts, List.length_cons, hdiv]
          omega

/-- Times of a window that passed. -/
theorem length_window_le (hd : 0 < d) (last lo hi : ℕ) (reqs : List (ℕ × Bool)) :
    ((passed d last reqs).filter fun t => lo ≤ t ∧ t ≤ hi).length ≤ (hi - lo) / d + 1 := by
  refine length_le_of_spaced hd ((spaced_passed hd last reqs).2.sublist List.filter_sublist) ?_
  intro t ht
  simpa using (List.mem_filter.mp ht).2

/-- **No spaced selection is longer than what passes**, if the requests come in
order. -/
theorem length_le_passed (hsorted : (reqs.map (·.1)).Pairwise (· ≤ ·))
    (hsel : sel.Sublist (unhindered reqs)) (hspaced : Spaced d sel)
    (hafter : ∀ t ∈ sel, last + d ≤ t) : sel.length ≤ (passed d last reqs).length := by
  induction reqs generalizing last sel with
  | nil =>
      have hnil : sel = [] := List.sublist_nil.mp hsel
      rw [hnil]
      exact Nat.zero_le _
  | cons req reqs ih =>
      obtain ⟨t, free⟩ := req
      obtain ⟨hlater, hrest⟩ := List.pairwise_cons.mp hsorted
      cases free with
      | false =>
          have hsel' : sel.Sublist (unhindered reqs) := by simpa [unhindered] using hsel
          have hpass : passed d last ((t, false) :: reqs) = passed d last reqs := if_neg (by simp)
          rw [hpass]
          exact ih hrest hsel' hspaced hafter
      | true =>
          have hhead : unhindered ((t, true) :: reqs) = t :: unhindered reqs := by simp [unhindered]
          rw [hhead] at hsel
          by_cases hgate : d ≤ t - last
          · -- it passes: whichever the selection has first is not before it
            have hpass : passed d last ((t, true) :: reqs) = t :: passed d t reqs :=
              if_pos ⟨rfl, hgate⟩
            rw [hpass, List.length_cons]
            cases sel with
            | nil => exact Nat.zero_le _
            | cons u us =>
                obtain ⟨hus, husp⟩ := List.pairwise_cons.mp hspaced
                have htu : t ≤ u := by
                  rcases List.mem_cons.mp (hsel.subset List.mem_cons_self) with rfl | hu
                  · exact Nat.le_refl _
                  · obtain ⟨r, hr, rfl⟩ := List.mem_map.mp hu
                    exact hlater r.1 (List.mem_map_of_mem (List.mem_filter.mp hr).1)
                have husel : us.Sublist (unhindered reqs) := hsel.of_cons_cons
                have hnext : ∀ v ∈ us, t + d ≤ v := by
                  intro v hv
                  have := hus v hv
                  omega
                have hlen := ih hrest husel husp hnext
                rw [List.length_cons]
                omega
          · -- it is refused, and too early for the selection as well
            have hpass : passed d last ((t, true) :: reqs) = passed d last reqs :=
              if_neg fun h => hgate h.2
            rw [hpass]
            cases hsel with
            | cons _ hsel => exact ih hrest hsel hspaced hafter
            | cons_cons _ hsel =>
                have := hafter t List.mem_cons_self
                omega

end Cooldown
