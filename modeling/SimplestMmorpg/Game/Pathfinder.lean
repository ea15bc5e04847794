/-
`Server/Game/Pathfinder`: A* over the four neighbours, with a budget of
expanded nodes.

`std::priority_queue` leaves open which of several best nodes `top()` is, so
the queue is a list of what it holds and `OpenList.pop` is any way of taking a
best one out.

The search is a loop body for `Loop.iterate`. `search_returns` shows that the
bound `findPath` gives it is always enough: every round takes a node from the
queue, and only the `maxNodes` rounds that expand one put nodes in.
-/
import SimplestMmorpg.Common.Map
import SimplestMmorpg.Lib.Loop

set_option autoImplicit false

namespace Mmorpg.Pathfinder

open Loop

structure Node where
  pos : Position
  g : Int
  f : Int
  parentIdx : Int
  deriving DecidableEq, Repr

/-- `NodeCmp`: `a` comes after `b`. -/
def nodeCmp (a b : Node) : Bool :=
  if a.f ≠ b.f then decide (b.f < a.f) else decide (a.g < b.g)

/-- `Encode`, in `uint32_t` arithmetic. -/
def encode (p : Position) : Int := toUInt32 (toUInt32 p.y * mapWidth + toUInt32 p.x)

def manhattan (p q : Position) : Int := (p.x - q.x).natAbs + (p.y - q.y).natAbs

/-- A `priority_queue`: some node that comes after no other is taken out. -/
structure OpenList where
  pop : List Node → Option (Node × List Node)
  pop_nil : pop [] = none
  pop_perm : ∀ l n rest, pop l = some (n, rest) → l.Perm (n :: rest)
  pop_best : ∀ l n rest, pop l = some (n, rest) → ∀ m ∈ rest, nodeCmp n m = false
  pop_cons : ∀ l, l ≠ [] → (pop l).isSome

/-- The first of the best nodes of a list, and the others. -/
def selectBest : Node → List Node → Node × List Node
  | n, [] => (n, [])
  | n, m :: rest =>
    if nodeCmp n m then ((selectBest m rest).1, n :: (selectBest m rest).2)
    else ((selectBest n rest).1, m :: (selectBest n rest).2)

theorem selectBest_perm (n : Node) (l : List Node) :
    (n :: l).Perm ((selectBest n l).1 :: (selectBest n l).2) := by
  induction l generalizing n with
  | nil => exact List.Perm.refl _
  | cons m rest ih =>
      rw [selectBest]
      split
      · exact ((ih m).cons n).trans (List.Perm.swap _ _ _)
      · exact (List.Perm.swap m n rest).trans
          (((ih n).cons m).trans (List.Perm.swap _ _ _))

/-- `NodeCmp` compares by one key, so a best node of a part that is no worse
than another node is no worse than the nodes that one is no worse than. -/
theorem selectBest_best (n : Node) (l : List Node) :
    ∀ m ∈ n :: l, nodeCmp (selectBest n l).1 m = false := by
  induction l generalizing n with
  | nil => simp [selectBest, nodeCmp]
  | cons m rest ih =>
      rw [selectBest]
      split
      · next hnm =>
          have hm := ih m m List.mem_cons_self
          have hn : nodeCmp (selectBest m rest).1 n = false := by
            unfold nodeCmp at *
            grind
          exact List.forall_mem_cons.mpr ⟨hn, ih m⟩
      · next hnm =>
          have hn := ih n n List.mem_cons_self
          have hm : nodeCmp (selectBest n rest).1 m = false := by
            unfold nodeCmp at *
            grind
          have hrest := (List.forall_mem_cons.mp (ih n)).2
          exact List.forall_mem_cons.mpr ⟨hn, List.forall_mem_cons.mpr ⟨hm, hrest⟩⟩

/-- The queue that takes the first of the best nodes. -/
def OpenList.firstBest : OpenList where
  pop
    | [] => none
    | n :: rest => some (selectBest n rest)
  pop_nil := rfl
  pop_perm l n rest h := by
    cases l with
    | nil => exact absurd h (by simp)
    | cons m tail =>
        obtain ⟨h1, h2⟩ := Prod.mk.inj (Option.some.inj h)
        rw [← h1, ← h2]
        exact selectBest_perm m tail
  pop_best l n rest h := by
    cases l with
    | nil => exact absurd h (by simp)
    | cons m tail =>
        obtain ⟨h1, h2⟩ := Prod.mk.inj (Option.some.inj h)
        rw [← h1, ← h2]
        intro k hk
        exact selectBest_best m tail k
          ((selectBest_perm m tail).mem_iff.mpr (List.mem_cons_of_mem _ hk))
  pop_cons l h := by
    cases l with
    | nil => exact absurd rfl h
    | cons m tail => rfl

/-- The locals of `FindPath`. -/
structure Search where
  nodes : List Node
  openList : List Node
  closed : List Int
  nodesProcessed : ℕ

/-- Follow the parents from a node to the start, which is node 0. The indices
go down, so as many rounds as there are nodes are enough. -/
def backtrack (nodes : List Node) : ℕ → Int → List Position
  | 0, _ => []
  | fuel + 1, idx =>
    if idx ≠ -1 ∧ idx ≠ 0 then
      match nodes[idx.toNat]? with
      | none => []
      | some n => n.pos :: backtrack nodes fuel n.parentIdx
    else []

/-- The index of a node that was just expanded, looked for from the back; it is
appended when it is not there. -/
def currentIdx (nodes : List Node) (current : Node) : List Node × Int :=
  match (nodes.zipIdx.reverse).find? fun e => e.1.pos = current.pos ∧ e.1.g = current.g with
  | some e => (nodes, e.2)
  | none => (nodes ++ [current], nodes.length)

/-- The neighbours pushed when a node is expanded. -/
def neighbours (map : Map) (goal : Position) (closed : List Int) (current : Node) (idx : Int) :
    List Node :=
  directions.filterMap fun d =>
    let n : Position := ⟨toInt16 (current.pos.x + d.1), toInt16 (current.pos.y + d.2)⟩
    if ¬ map.isWalkable n.x n.y then none
    else if encode n ∈ closed then none
    else some ⟨n, current.g + 1, current.g + 1 + manhattan n goal, idx⟩

variable (queue : OpenList) (map : Map) (goal : Position) (maxNodes : ℕ)

/-- One round of the loop. -/
def searchRound (s : Search) : Round Search (List Position) :=
  if s.nodesProcessed < maxNodes then
    match queue.pop s.openList with
    | none => .done []
    | some (current, rest) =>
      if encode current.pos ∈ s.closed then .next { s with openList := rest }
      else
        let closed := encode current.pos :: s.closed
        if current.pos = goal then
          let nodes := s.nodes ++ [current]
          .done (backtrack nodes (nodes.length + 1) s.nodes.length).reverse
        else
          let (nodes, idx) := currentIdx s.nodes current
          .next ⟨nodes, rest ++ neighbours map goal closed current idx, closed,
            s.nodesProcessed + 1⟩
  else .done []

/-- `FindPath`. -/
def findPath (start : Position) : List Position :=
  if ¬ map.isWalkable goal.x goal.y then []
  else if start = goal then []
  else
    let startNode : Node := ⟨start, 0, manhattan start goal, -1⟩
    (iterate (searchRound queue map goal maxNodes) (5 * maxNodes + 2)
      ⟨[startNode], [startNode], [], 0⟩).getD []

/-! ## The bound is enough -/

variable {queue map goal maxNodes}

theorem length_neighbours (map : Map) (goal : Position) (closed : List Int) (current : Node) (idx : Int) :
    (neighbours map goal closed current idx).length ≤ 4 :=
  List.length_filterMap_le _ _

/-- How many rounds are left at most. -/
def remaining (maxNodes : ℕ) (s : Search) : ℕ :=
  s.openList.length + 5 * (maxNodes - s.nodesProcessed)

/-- A round that goes on has fewer rounds left. -/
theorem remaining_lt {s s' : Search} (h : searchRound queue map goal maxNodes s = .next s') :
    remaining maxNodes s' < remaining maxNodes s := by
  unfold searchRound at h
  split at h
  · next hlt =>
      split at h
      · exact absurd h (by simp)
      · next current rest hpop =>
          have hlen := (queue.pop_perm _ _ _ hpop).length_eq
          rw [List.length_cons] at hlen
          split at h
          · rw [Round.next.injEq] at h
            subst h
            simp only [remaining]
            omega
          · dsimp only at h
            split at h
            · exact absurd h (by simp)
            · rw [Round.next.injEq] at h
              subst h
              have hn := length_neighbours map goal
                (encode current.pos :: s.closed) current (currentIdx s.nodes current).2
              simp only [remaining, List.length_append]
              omega
  · exact absurd h (by simp)

theorem iterate_isSome {fuel : ℕ} {s : Search} (h : remaining maxNodes s < fuel) :
    (iterate (searchRound queue map goal maxNodes) fuel s).isSome := by
  induction fuel generalizing s with
  | zero => omega
  | succ n ih =>
      rw [iterate]
      cases hr : searchRound queue map goal maxNodes s with
      | next s' =>
          have hlt := remaining_lt hr
          exact ih (by omega)
      | done r => rfl

/-- **The search leaves its loop within the bound**, so `findPath` is the
result of the loop of the source. -/
theorem search_returns (start : Node) :
    (iterate (searchRound queue map goal maxNodes) (5 * maxNodes + 2)
      ⟨[start], [start], [], 0⟩).isSome :=
  iterate_isSome (by simp only [remaining, List.length_singleton]; omega)

end Mmorpg.Pathfinder
