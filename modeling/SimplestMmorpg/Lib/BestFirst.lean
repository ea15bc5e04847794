/-
Best-first search with a consistent heuristic, seen from its two sets: the
entries that wait, each a vertex and a cost, and the vertices that are closed
at a cost.

A `Route` lists the vertices after the start, so its cost is its length.
`Frontier` is what the search keeps: a closed cost is no greater than any
route's, and an edge that leaves the closed vertices ends in a waiting entry
that is cheap enough. The order in which entries are taken out comes in once:
`Frontier.final_of_best` asks for an entry with no better one, so it does not
matter how ties are broken, how often a vertex waits, or when entries of closed
vertices are thrown away.

Nothing here is about any program.
-/
import Mathlib.Data.List.Basic
import Mathlib.Data.List.Chain
import Mathlib.Data.List.Nodup
import Mathlib.Tactic.Common

set_option autoImplicit false

namespace BestFirst

variable {V : Type*}

/-- The vertices after `s` on a way from `s` to the last argument. -/
inductive Route (Adj : V → V → Prop) (s : V) : List V → V → Prop where
  | nil : Route Adj s [] s
  | step {l : List V} {u v : V} : Route Adj s l u → Adj u v → Route Adj s (l ++ [v]) v

/-- The heuristic falls by at most one along an edge. -/
def Consistent (Adj : V → V → Prop) (h : V → ℕ) : Prop := ∀ u v, Adj u v → h u ≤ h v + 1

variable {Adj : V → V → Prop} {s u v : V} {l : List V}

namespace Route

theorem last_eq (hr : Route Adj s l v) : l.getLast?.getD s = v := by
  cases hr with
  | nil => rfl
  | step _ _ => simp

/-- A route is a chain from the start. -/
theorem isChain (hr : Route Adj s l v) : List.IsChain Adj (s :: l) := by
  induction hr with
  | nil => exact .singleton s
  | @step l u v hl huv ih =>
      rw [← List.cons_append]
      refine List.isChain_append.mpr ⟨ih, .singleton v, ?_⟩
      intro x hx y hy
      obtain rfl : v = y := by simpa using hy
      -- the vertex before the new one is the end of the shorter route
      have hu : x = u := by
        rw [← hl.last_eq]
        simpa [List.getLast?_cons, eq_comm] using hx
      rwa [hu]

/-- A chain from the start is a route to its last vertex. -/
theorem of_isChain (h : List.IsChain Adj (s :: l)) : Route Adj s l (l.getLast?.getD s) := by
  induction l using List.reverseRecOn with
  | nil => exact .nil
  | append_singleton l v ih =>
      rw [← List.cons_append, List.isChain_append] at h
      obtain ⟨hl, -, hlast⟩ := h
      have hv : Adj (l.getLast?.getD s) v := hlast _ (by simp [List.getLast?_cons]) v (by simp)
      simpa using (ih hl).step hv

/-- An edge leads to every vertex of a route. -/
theorem exists_adj (hr : Route Adj s l v) (hu : u ∈ l) : ∃ w, Adj w u := by
  induction hr with
  | nil => exact absurd hu List.not_mem_nil
  | @step l w v _ hwv ih =>
      rcases List.mem_append.mp hu with hu | hu
      · exact ih hu
      · exact ⟨w, List.mem_singleton.mp hu ▸ hwv⟩

/-- A vertex of a route is reached by a route that is no longer. -/
theorem exists_prefix (hr : Route Adj s l v) (hu : u ∈ s :: l) :
    ∃ l', Route Adj s l' u ∧ l'.length ≤ l.length := by
  induction hr with
  | nil =>
      obtain rfl := List.mem_singleton.mp hu
      exact ⟨[], .nil, le_rfl⟩
  | @step l w v hl hwv ih =>
      rw [← List.cons_append, List.mem_append, List.mem_singleton] at hu
      rcases hu with hu | rfl
      · obtain ⟨l', h', hle⟩ := ih hu
        exact ⟨l', h', hle.trans (by simp)⟩
      · exact ⟨l ++ [u], hl.step hwv, le_rfl⟩

/-- **A shortest route visits no vertex twice**, the start included. -/
theorem nodup_of_shortest (hr : Route Adj s l v)
    (hmin : ∀ l', Route Adj s l' v → l.length ≤ l'.length) : (s :: l).Nodup := by
  induction hr with
  | nil => exact List.nodup_singleton s
  | @step l u v hl huv ih =>
      -- a shorter way to the vertex before the last would give a shorter way to the last
      have hprev : ∀ l', Route Adj s l' u → l.length ≤ l'.length := by
        intro l' hl'
        have hlen := hmin _ (hl'.step huv)
        simp only [List.length_append, List.length_singleton] at hlen
        omega
      have hnew : v ∉ s :: l := by
        intro hv
        obtain ⟨l', h', hle⟩ := hl.exists_prefix hv
        have hlen := hmin l' h'
        simp only [List.length_append, List.length_singleton] at hlen
        omega
      rw [← List.cons_append]
      exact List.nodup_append.mpr ⟨ih hprev, List.nodup_singleton v, by
        rintro a ha b hb rfl
        exact hnew (List.mem_singleton.mp hb ▸ ha)⟩

end Route

/-- What the search keeps of its waiting entries and its closed vertices. -/
structure Frontier (Adj : V → V → Prop) (s : V) (opened closed : V → ℕ → Prop) : Prop where
  final : ∀ v n l, closed v n → Route Adj s l v → n ≤ l.length
  border : ∀ u v n, closed u n → Adj u v →
    (∃ m, closed v m) ∨ ∃ m, m ≤ n + 1 ∧ opened v m
  root : (∃ n, closed s n) ∨ opened s 0

namespace Frontier

variable {opened opened' closed : V → ℕ → Prop}

theorem start (Adj : V → V → Prop) (s : V) :
    Frontier Adj s (fun v n => v = s ∧ n = 0) fun _ _ => False where
  final _ _ _ h := h.elim
  border _ _ _ h := h.elim
  root := .inr ⟨rfl, rfl⟩

/-- On the way to a vertex that is not closed there waits an entry that is no
worse than the way. -/
theorem ahead (hF : Frontier Adj s opened closed) {h : V → ℕ} (hc : Consistent Adj h)
    (hr : Route Adj s l v) (hv : ∀ n, ¬ closed v n) :
    ∃ u m, opened u m ∧ (∀ n, ¬ closed u n) ∧ m + h u ≤ l.length + h v := by
  induction hr with
  | nil =>
      have hroot := hF.root.resolve_left fun ⟨n, hn⟩ => hv n hn
      exact ⟨s, 0, hroot, hv, le_rfl⟩
  | @step l u v hl huv ih =>
      rw [List.length_append, List.length_singleton]
      by_cases hu : ∃ n, closed u n
      · -- the route leaves the closed vertices here
        obtain ⟨n, hn⟩ := hu
        obtain ⟨m, hm, ho⟩ := (hF.border u v n hn huv).resolve_left fun ⟨m, hm⟩ => hv m hm
        have hfin := hF.final u n l hn hl
        exact ⟨v, m, ho, hv, by omega⟩
      · obtain ⟨w, m, ho, hw, hle⟩ := ih fun n hn => hu ⟨n, hn⟩
        have hstep := hc u v huv
        exact ⟨w, m, ho, hw, by omega⟩

/-- **A best waiting entry of a vertex that is not closed has a final cost**:
no route is shorter. -/
theorem final_of_best (hF : Frontier Adj s opened closed) {h : V → ℕ} (hc : Consistent Adj h)
    {n : ℕ} (hbest : ∀ u m, opened u m → n + h v ≤ m + h u) (hv : ∀ n, ¬ closed v n)
    (hr : Route Adj s l v) : n ≤ l.length := by
  obtain ⟨u, m, ho, -, hle⟩ := hF.ahead hc hr hv
  have := hbest u m ho
  omega

/-- With nothing left to wait, everything within reach is closed. -/
theorem closed_of_exhausted (hF : Frontier Adj s opened closed) (ho : ∀ u m, ¬ opened u m)
    (hr : Route Adj s l v) : ∃ n, closed v n := by
  by_contra hv
  have hzero : Consistent Adj fun _ => 0 := fun _ _ _ => Nat.zero_le _
  obtain ⟨u, m, hum, -⟩ := hF.ahead hzero hr fun n hn => hv ⟨n, hn⟩
  exact ho u m hum

/-- Entries of closed vertices can be thrown away. -/
theorem discard (hF : Frontier Adj s opened closed)
    (hkeep : ∀ u m, opened u m → opened' u m ∨ ∃ n, closed u n) :
    Frontier Adj s opened' closed where
  final := hF.final
  border u v n hu huv := by
    rcases hF.border u v n hu huv with hv | ⟨m, hm, ho⟩
    · exact .inl hv
    · exact (hkeep v m ho).symm.imp_right fun ho' => ⟨m, hm, ho'⟩
  root := hF.root.elim .inl fun ho => (hkeep s 0 ho).symm

/-- **Expanding a vertex at its final cost**: it is closed, and its neighbours
wait unless they are closed. -/
theorem expand (hF : Frontier Adj s opened closed) {n : ℕ}
    (hfin : ∀ l, Route Adj s l v → n ≤ l.length)
    (hkeep : ∀ u m, opened u m → opened' u m ∨ u = v)
    (hpush : ∀ w, Adj v w → w = v ∨ (∃ m, closed w m) ∨ opened' w (n + 1)) :
    Frontier Adj s opened' fun u m => closed u m ∨ u = v ∧ m = n where
  final u m l hu hr := by
    rcases hu with hu | ⟨rfl, rfl⟩
    · exact hF.final u m l hu hr
    · exact hfin l hr
  border u w m hu huw := by
    rcases hu with hu | ⟨rfl, rfl⟩
    · rcases hF.border u w m hu huw with ⟨k, hk⟩ | ⟨k, hk, ho⟩
      · exact .inl ⟨k, .inl hk⟩
      · rcases hkeep w k ho with ho' | rfl
        · exact .inr ⟨k, hk, ho'⟩
        · exact .inl ⟨n, .inr ⟨rfl, rfl⟩⟩
    · rcases hpush w huw with rfl | ⟨k, hk⟩ | ho
      · exact .inl ⟨m, .inr ⟨rfl, rfl⟩⟩
      · exact .inl ⟨k, .inl hk⟩
      · exact .inr ⟨m + 1, le_rfl, ho⟩
  root := by
    rcases hF.root with ⟨k, hk⟩ | ho
    · exact .inl ⟨k, .inl hk⟩
    · rcases hkeep s 0 ho with ho' | rfl
      · exact .inr ho'
      · exact .inl ⟨n, .inr ⟨rfl, rfl⟩⟩

end Frontier

end BestFirst
