/-
What `Pathfinder::FindPath` returns: a shortest path, or the reason why there
is none.

Two things are kept from round to round. `Grown` is about the array `nodes`
and the parent indices: every node but the first hangs below an earlier one, a
step of one tile away, so following the parents gives a route whose length is
the `g` of the node it started from. `Searched` is about the order: the queue
and the closed tiles are a `Frontier` of best-first search with the Manhattan
distance as its heuristic.

The backward search for the index of the node being expanded may find any node
with the same tile and the same `g`; both invariants only need that much. The
start need not be walkable, and a goal that is not on the map is not walkable.
-/
import SimplestMmorpg.Game.Pathfinder
import SimplestMmorpg.Lib.BestFirst

set_option autoImplicit false

namespace Mmorpg.Pathfinder

open Loop BestFirst

/-! ## Steps and paths -/

/-- One step to a walkable tile beside. -/
def Steps (map : Map) (p q : Position) : Prop :=
  manhattan p q = 1 ∧ map.isWalkable q.x q.y = true

/-- A walkable 4-connected path, without its start. -/
structure IsPath (map : Map) (start goal : Position) (path : List Position) : Prop where
  chain : List.IsChain (fun p q => manhattan p q = 1) (start :: path)
  walkable : ∀ p ∈ path, map.isWalkable p.x p.y = true
  ends : path.getLast? = some goal

variable {map : Map} {start goal p q : Position} {path : List Position}

theorem manhattan_self (p : Position) : manhattan p p = 0 := by
  simp [manhattan]

theorem manhattan_nonneg (p q : Position) : 0 ≤ manhattan p q := by
  unfold manhattan
  omega

theorem manhattan_eq_zero : manhattan p q = 0 ↔ p = q := by
  obtain ⟨px, py⟩ := p
  obtain ⟨qx, qy⟩ := q
  simp only [manhattan, Position.mk.injEq]
  omega

theorem manhattan_triangle (p q r : Position) :
    manhattan p r ≤ manhattan p q + manhattan q r := by
  unfold manhattan
  omega

theorem Steps.inMap (h : Steps map p q) : InMap q := map.inMap_of_isWalkable h.2

theorem isPath_iff_route :
    IsPath map start goal path ↔ path ≠ [] ∧ Route (Steps map) start path goal := by
  constructor
  · intro h
    have hne : path ≠ [] := by
      rintro rfl
      exact absurd h.ends (by simp)
    have hc : List.IsChain (Steps map) (start :: path) :=
      h.chain.imp_of_mem_tail_imp fun p q _ hq hpq => ⟨hpq, h.walkable q hq⟩
    have hr := Route.of_isChain hc
    rw [h.ends, Option.getD_some] at hr
    exact ⟨hne, hr⟩
  · rintro ⟨hne, hr⟩
    refine ⟨hr.isChain.imp fun _ _ h => h.1, ?_, ?_⟩
    · intro p hp
      obtain ⟨q, hq⟩ := hr.exists_adj hp
      exact hq.2
    · have hlast := hr.last_eq
      rw [List.getLast?_eq_some_getLast hne] at hlast ⊢
      exact congrArg some hlast

/-- The heuristic of the search is consistent. -/
theorem consistent_manhattan (map : Map) (goal : Position) :
    Consistent (Steps map) fun p => (manhattan p goal).toNat := by
  intro p q h
  have hpq := h.1
  have htri := manhattan_triangle p q goal
  have hnn := manhattan_nonneg q goal
  dsimp only
  omega

/-- A route is no shorter than the Manhattan distance it bridges. -/
theorem manhattan_le_length (h : Route (Steps map) start path p) :
    manhattan start p ≤ path.length := by
  -- one step more takes the end of the route one tile further at most
  induction h with
  | nil => exact (manhattan_self start).le
  | @step l p q _ hpq ih =>
      have htri := manhattan_triangle start p q
      have hone := hpq.1
      rw [List.length_append, List.length_singleton]
      omega

theorem inMap_of_route (hs : InMap start) (h : Route (Steps map) start path p) : InMap p := by
  cases h with
  | nil => exact hs
  | step _ h => exact h.inMap

/-- On the map the arithmetic of the key does not wrap. -/
theorem encode_of_inMap (hp : InMap p) : encode p = p.y * 2000 + p.x := by
  obtain ⟨hx, hx', hy, hy'⟩ := hp
  simp only [mapWidth, mapHeight] at hx' hy'
  have hux : toUInt32 p.x = p.x := Int.emod_eq_of_lt hx (by omega)
  have huy : toUInt32 p.y = p.y := Int.emod_eq_of_lt hy (by omega)
  rw [encode, hux, huy]
  exact Int.emod_eq_of_lt (by simp only [mapWidth]; omega) (by simp only [mapWidth]; omega)

/-- The keys of different tiles of the map are different. -/
theorem encode_inj (hp : InMap p) (hq : InMap q) : encode p = encode q ↔ p = q := by
  refine ⟨fun h => ?_, fun h => by rw [h]⟩
  rw [encode_of_inMap hp, encode_of_inMap hq] at h
  obtain ⟨px, py⟩ := p
  obtain ⟨qx, qy⟩ := q
  -- two numbers below 2000 are the digits of the key in base 2000
  simp only [InMap, mapWidth, mapHeight, Position.mk.injEq] at *
  omega

/-- Beside a tile of the map lie the four tiles that `DX` and `DY` lead to. -/
theorem manhattan_eq_one (hp : InMap p) : manhattan p q = 1 ↔
    ∃ d ∈ directions, q = ⟨toInt16 (p.x + d.1), toInt16 (p.y + d.2)⟩ := by
  obtain ⟨px, py⟩ := p
  obtain ⟨qx, qy⟩ := q
  simp only [InMap, mapWidth, mapHeight] at hp
  -- no coordinate beside the map leaves the range of `int16_t`
  simp only [manhattan, directions, List.mem_cons, List.not_mem_nil, or_false, exists_eq_or_imp,
    exists_eq_left, Position.mk.injEq, toInt16]
  omega

/-! ## One round -/

variable {queue : OpenList} {maxNodes : ℕ} {s s' : Search} {n m : Node}

theorem nodeCmp_eq_false : nodeCmp n m = false ↔ n.f < m.f ∨ n.f = m.f ∧ m.g ≤ n.g := by
  unfold nodeCmp
  split <;> simp only [decide_eq_false_iff_not] <;> omega

/-- What `top` and `pop` do: one of the best nodes leaves the queue. -/
theorem OpenList.mem_pop {l rest : List Node} (h : queue.pop l = some (n, rest)) (m : Node) :
    m ∈ l ↔ m = n ∨ m ∈ rest := by
  rw [(queue.pop_perm l n rest h).mem_iff, List.mem_cons]

theorem OpenList.pop_le {l rest : List Node} (h : queue.pop l = some (n, rest)) (hm : m ∈ l) :
    n.f < m.f ∨ n.f = m.f ∧ m.g ≤ n.g := by
  rcases (OpenList.mem_pop h m).mp hm with rfl | hm
  · exact .inr ⟨rfl, le_rfl⟩
  · exact nodeCmp_eq_false.mp (queue.pop_best l n rest h m hm)

/-- The state after `current` was expanded. -/
def expanded (map : Map) (goal : Position) (s : Search) (current : Node) (rest : List Node) :
    Search :=
  ⟨(currentIdx s.nodes current).1,
    rest ++ neighbours map goal (encode current.pos :: s.closed) current
      (currentIdx s.nodes current).2,
    encode current.pos :: s.closed, s.nodesProcessed + 1⟩

/-- A round that goes on either drops a node whose tile is closed or expands
one whose tile is not. -/
theorem searchRound_next (h : searchRound queue map goal maxNodes s = .next s') :
    s.nodesProcessed < maxNodes ∧ ∃ current rest, queue.pop s.openList = some (current, rest) ∧
      (encode current.pos ∈ s.closed ∧ s' = { s with openList := rest } ∨
        encode current.pos ∉ s.closed ∧ current.pos ≠ goal ∧
          s' = expanded map goal s current rest) := by
  unfold searchRound at h
  split at h
  · next hlt =>
      split at h
      · exact absurd h (by simp)
      · next current rest hpop =>
          refine ⟨hlt, current, rest, hpop, ?_⟩
          split at h
          · next hmem => exact .inl ⟨hmem, (Round.next.inj h).symm⟩
          · next hmem =>
              dsimp only at h
              split at h
              · exact absurd h (by simp)
              · next hgoal => exact .inr ⟨hmem, hgoal, (Round.next.inj h).symm⟩
  · exact absurd h (by simp)

/-- A round that leaves has used up the budget, or has an empty queue, or has
reached the goal. -/
theorem searchRound_done {r : List Position}
    (h : searchRound queue map goal maxNodes s = .done r) :
    maxNodes ≤ s.nodesProcessed ∧ r = [] ∨ s.openList = [] ∧ r = [] ∨
      ∃ current rest, queue.pop s.openList = some (current, rest) ∧
        encode current.pos ∉ s.closed ∧ current.pos = goal ∧
        r = (backtrack (s.nodes ++ [current]) (s.nodes.length + 2) s.nodes.length).reverse := by
  unfold searchRound at h
  split at h
  · split at h
    · next hpop =>
        refine .inr (.inl ⟨?_, (Round.done.inj h).symm⟩)
        -- a queue that is not empty has a top
        by_contra hne
        have hsome := queue.pop_cons _ hne
        rw [hpop] at hsome
        exact absurd hsome (by simp)
    · next current rest hpop =>
        split at h
        · exact absurd h (by simp)
        · next hmem =>
            dsimp only at h
            split at h
            · next hgoal =>
                refine .inr (.inr ⟨current, rest, hpop, hmem, hgoal, ?_⟩)
                rw [← Round.done.inj h, List.length_append, List.length_singleton]
            · exact absurd h (by simp)
  · next hlt => exact .inl ⟨Nat.not_lt.mp hlt, (Round.done.inj h).symm⟩

theorem mem_neighbours {closed : List Int} {idx : Int} (hp : InMap n.pos) :
    m ∈ neighbours map goal closed n idx ↔ ∃ q, Steps map n.pos q ∧ encode q ∉ closed ∧
      m = ⟨q, n.g + 1, n.g + 1 + manhattan q goal, idx⟩ := by
  simp only [neighbours, List.mem_filterMap, Steps, manhattan_eq_one hp]
  constructor
  · rintro ⟨d, hd, h⟩
    split at h
    · exact absurd h (by simp)
    · next hw =>
        split at h
        · exact absurd h (by simp)
        · next hc =>
            exact ⟨_, ⟨⟨d, hd, rfl⟩, by simpa using hw⟩, hc, (Option.some.inj h).symm⟩
  · rintro ⟨q, ⟨⟨d, hd, rfl⟩, hw⟩, hc, rfl⟩
    refine ⟨d, hd, ?_⟩
    rw [if_neg (not_not.mpr hw), if_neg hc]

/-! ## The nodes and their parents -/

/-- `n` was pushed when one of the nodes was expanded. -/
def Below (map : Map) (nodes : List Node) (n : Node) : Prop :=
  ∃ (j : ℕ) (m : Node), nodes[j]? = some m ∧ n.parentIdx = j ∧ n.g = m.g + 1 ∧
    Steps map m.pos n.pos

/-- `n` is the start node, or was pushed when one of the nodes was expanded. -/
def Rooted (map : Map) (start : Position) (nodes : List Node) (n : Node) : Prop :=
  n.pos = start ∧ n.g = 0 ∨ Below map nodes n

/-- The first node is the start; the others hang below earlier ones. -/
structure Tree (map : Map) (start : Position) (nodes : List Node) : Prop where
  root : ∃ n, nodes[0]? = some n ∧ n.pos = start ∧ n.g = 0
  below : ∀ i n, nodes[i]? = some n → 0 < i → Below map (nodes.take i) n

/-- `nodes` and the queue, as far as paths are concerned. -/
structure Grown (map : Map) (start goal : Position) (s : Search) : Prop where
  tree : Tree map start s.nodes
  rooted : ∀ n ∈ s.openList, Rooted map start s.nodes n
  f_eq : ∀ n ∈ s.openList, n.f = n.g + manhattan n.pos goal

variable {nodes : List Node}

theorem Rooted.append (h : Rooted map start nodes n) (l : List Node) :
    Rooted map start (nodes ++ l) n := by
  rcases h with h | ⟨j, m, hj, h⟩
  · exact .inl h
  · refine .inr ⟨j, m, ?_, h⟩
    rw [List.getElem?_append_left (List.getElem?_eq_some_iff.mp hj).1]
    exact hj

theorem Tree.append (h : Tree map start nodes) (hn : Below map nodes n) :
    Tree map start (nodes ++ [n]) := by
  obtain ⟨r, hr, hr'⟩ := h.root
  have hpos := (List.getElem?_eq_some_iff.mp hr).1
  refine ⟨⟨r, by rw [List.getElem?_append_left hpos]; exact hr, hr'⟩, fun i m hi hi0 => ?_⟩
  -- the old nodes keep their places; the new one is the last
  rcases Nat.lt_or_ge i nodes.length with hlt | hge
  · rw [List.getElem?_append_left hlt] at hi
    rw [List.take_append_of_le_length hlt.le]
    exact h.below i m hi hi0
  · rw [List.getElem?_append_right hge, List.getElem?_singleton] at hi
    split at hi
    · obtain rfl := Option.some.inj hi
      rw [show i = nodes.length by omega, List.take_left]
      exact hn
    · exact absurd hi (by simp)

/-- The index that is found, or made, is that of a node with the tile and the
cost of the node being expanded. -/
theorem currentIdx_spec (nodes : List Node) (current : Node) :
    (∃ (i : ℕ) (n : Node), nodes[i]? = some n ∧ n.pos = current.pos ∧ n.g = current.g ∧
        currentIdx nodes current = (nodes, (i : Int))) ∨
      (∀ n ∈ nodes, ¬ (n.pos = current.pos ∧ n.g = current.g)) ∧
        currentIdx nodes current = (nodes ++ [current], (nodes.length : Int)) := by
  unfold currentIdx
  split
  · next e he =>
      have hmem := List.mem_reverse.mp (List.mem_of_find?_eq_some he)
      have hp : e.1.pos = current.pos ∧ e.1.g = current.g := by
        simpa only [decide_eq_true_eq] using List.find?_some he
      exact .inl ⟨e.2, e.1, List.mem_zipIdx_iff_getElem?.mp hmem, hp.1, hp.2, rfl⟩
  · next hnone =>
      refine .inr ⟨fun n hn hp => ?_, rfl⟩
      obtain ⟨i, hi⟩ := List.mem_iff_getElem?.mp hn
      have hmem : (n, i) ∈ nodes.zipIdx.reverse :=
        List.mem_reverse.mpr (List.mem_zipIdx_iff_getElem?.mpr hi)
      exact List.find?_eq_none.mp hnone _ hmem (decide_eq_true hp)

/-- Following the parents gives a route from the start, backwards. -/
theorem Tree.backtrack (h : Tree map start nodes) {i fuel : ℕ} (hi : nodes[i]? = some n)
    (hfuel : i < fuel) : Route (Steps map) start (backtrack nodes fuel i).reverse n.pos ∧
      ((Pathfinder.backtrack nodes fuel i).length : Int) = n.g := by
  -- the parent index gets smaller, so the fuel outlasts the walk to the root
  induction fuel generalizing i n with
  | zero => omega
  | succ fuel ih =>
      rw [Pathfinder.backtrack]
      rcases Nat.eq_zero_or_pos i with rfl | hpos
      · obtain ⟨r, hr, hr1, hr2⟩ := h.root
        obtain rfl := Option.some.inj (hi.symm.trans hr)
        rw [if_neg (by omega), hr1, hr2]
        exact ⟨.nil, rfl⟩
      · -- the parent stands earlier in `nodes`
        obtain ⟨j, m, hj, hparent, hg, hstep⟩ := h.below i n hi hpos
        have hji : j < i := by
          have := (List.getElem?_eq_some_iff.mp hj).1
          rw [List.length_take] at this
          omega
        rw [List.getElem?_take_of_lt hji] at hj
        obtain ⟨hroute, hlen⟩ := ih hj (by omega)
        rw [if_pos (by omega), Int.toNat_natCast, hi]
        simp only [hparent, List.reverse_cons, List.length_cons]
        exact ⟨hroute.step hstep, by push_cast; omega⟩

/-- What a node in the queue stands for. -/
theorem Grown.route (h : Grown map start goal s) (hn : n ∈ s.openList) :
    ∃ l, Route (Steps map) start l n.pos ∧ (l.length : Int) = n.g := by
  rcases h.rooted n hn with ⟨rfl, hg⟩ | ⟨j, m, hj, -, hg, hstep⟩
  · exact ⟨[], .nil, hg.symm⟩
  · obtain ⟨hroute, hlen⟩ := h.tree.backtrack hj (Nat.lt_succ_self j)
    refine ⟨_, hroute.step hstep, ?_⟩
    rw [List.length_append, List.length_reverse, List.length_singleton]
    push_cast
    omega

/-- The state before the first round. -/
def initial (start goal : Position) : Search :=
  ⟨[⟨start, 0, manhattan start goal, -1⟩], [⟨start, 0, manhattan start goal, -1⟩], [], 0⟩

theorem grown_initial (map : Map) (start goal : Position) :
    Grown map start goal (initial start goal) where
  tree := by
    refine ⟨⟨_, rfl, rfl, rfl⟩, fun i n hi hpos => ?_⟩
    have := (List.getElem?_eq_some_iff.mp hi).1
    simp only [initial, List.length_singleton] at this
    omega
  rooted n hn := by
    obtain rfl := List.mem_singleton.mp hn
    exact .inl ⟨rfl, rfl⟩
  f_eq n hn := by
    obtain rfl := List.mem_singleton.mp hn
    exact (Int.zero_add _).symm

theorem Grown.next (h : Grown map start goal s) (hs : InMap start)
    (hnext : searchRound queue map goal maxNodes s = .next s') : Grown map start goal s' := by
  obtain ⟨-, current, rest, hpop, ⟨-, rfl⟩ | ⟨-, -, rfl⟩⟩ := searchRound_next hnext
  · -- the tile is closed: one node less in the queue
    have hsub : ∀ n ∈ rest, n ∈ s.openList := fun n hn => (OpenList.mem_pop hpop n).mpr (.inr hn)
    exact ⟨h.tree, fun n hn => h.rooted n (hsub n hn), fun n hn => h.f_eq n (hsub n hn)⟩
  · have hcur : current ∈ s.openList := (OpenList.mem_pop hpop current).mpr (.inl rfl)
    obtain ⟨l, hroute, -⟩ := h.route hcur
    have hmap := inMap_of_route hs hroute
    -- the nodes after the search for the index, and the node that has the index
    obtain ⟨hold, htree, i, m, hm, hmp, hmg, hidx⟩ :
        (∃ l, (currentIdx s.nodes current).1 = s.nodes ++ l) ∧
        Tree map start (currentIdx s.nodes current).1 ∧
        ∃ (i : ℕ) (m : Node), (currentIdx s.nodes current).1[i]? = some m ∧
          m.pos = current.pos ∧ m.g = current.g ∧ (currentIdx s.nodes current).2 = i := by
      rcases currentIdx_spec s.nodes current with ⟨i, m, hm, hmp, hmg, he⟩ | ⟨hno, he⟩
      · rw [he]
        exact ⟨⟨[], (List.append_nil _).symm⟩, h.tree, i, m, hm, hmp, hmg, rfl⟩
      · rw [he]
        refine ⟨⟨_, rfl⟩, ?_, s.nodes.length, current, by simp, rfl, rfl, rfl⟩
        rcases h.rooted current hcur with ⟨hp, hg⟩ | hb
        · -- the start node is among the nodes from the beginning
          obtain ⟨r, hr, hr1, hr2⟩ := h.tree.root
          exact absurd ⟨hr1.trans hp.symm, hr2.trans hg.symm⟩ (hno r (List.mem_of_getElem? hr))
        · exact h.tree.append hb
    obtain ⟨extra, hextra⟩ := hold
    refine ⟨htree, fun n hn => ?_, fun n hn => ?_⟩
    · rcases List.mem_append.mp hn with hn | hn
      · have hr := h.rooted n ((OpenList.mem_pop hpop n).mpr (.inr hn))
        have happ := hr.append extra
        rwa [← hextra] at happ
      · -- a node that was pushed has the index for a parent
        obtain ⟨q, hq, -, rfl⟩ := (mem_neighbours hmap).mp hn
        exact .inr ⟨i, m, hm, hidx, by rw [hmg], hmp ▸ hq⟩
    · rcases List.mem_append.mp hn with hn | hn
      · exact h.f_eq n ((OpenList.mem_pop hpop n).mpr (.inr hn))
      · obtain ⟨q, -, -, rfl⟩ := (mem_neighbours hmap).mp hn
        rfl

/-- **The path that is returned leads to the goal**, and its length is the `g`
of the node that was taken out. -/
theorem Grown.returned (h : Grown map start goal s) (hn : n ∈ s.openList) (hne : n.pos ≠ start) :
    Route (Steps map) start
        (backtrack (s.nodes ++ [n]) (s.nodes.length + 2) s.nodes.length).reverse n.pos ∧
      ((backtrack (s.nodes ++ [n]) (s.nodes.length + 2) s.nodes.length).length : Int) = n.g := by
  -- the node that is appended at the end is not the root, as it is elsewhere
  have hb : Below map s.nodes n := (h.rooted n hn).resolve_left fun hr => hne hr.1
  exact (h.tree.append hb).backtrack (by simp) (by omega)

/-! ## The order of the search -/

/-- The entries that wait in the queue, as tiles and costs. -/
def waiting (l : List Node) (p : Position) (k : ℕ) : Prop :=
  ∃ n ∈ l, n.pos = p ∧ n.g = (k : Int)

/-- The queue and the closed tiles, with the cost at which each was closed. -/
structure Searched (map : Map) (start goal : Position) (closed : Position → ℕ → Prop)
    (s : Search) : Prop where
  grown : Grown map start goal s
  frontier : Frontier (Steps map) start (waiting s.openList) closed
  keys : ∀ p, InMap p → (encode p ∈ s.closed ↔ ∃ k, closed p k)
  unreached : ∀ k, ¬ closed goal k
  nodup : s.closed.Nodup
  processed : s.closed.length = s.nodesProcessed

variable {closed : Position → ℕ → Prop}

theorem searched_initial (map : Map) (start goal : Position) :
    Searched map start goal (fun _ _ => False) (initial start goal) where
  grown := grown_initial map start goal
  frontier := (Frontier.start (Steps map) start).discard fun p k hk => .inl
    ⟨_, List.mem_singleton_self _, hk.1.symm, by simp [hk.2]⟩
  keys p _ := by simp [initial]
  unreached _ h := h
  nodup := List.nodup_nil
  processed := rfl

theorem Searched.inMap (h : Searched map start goal closed s) (hs : InMap start)
    (hn : n ∈ s.openList) : InMap n.pos := by
  obtain ⟨l, hroute, -⟩ := h.grown.route hn
  exact inMap_of_route hs hroute

/-- **The node that is taken out has a final cost** if its tile is not closed
yet: no walkable path to its tile is shorter. -/
theorem Searched.final (h : Searched map start goal closed s) (hs : InMap start)
    {rest : List Node} (hpop : queue.pop s.openList = some (n, rest))
    (hn : encode n.pos ∉ s.closed) {l : List Position}
    (hl : Route (Steps map) start l n.pos) : n.g ≤ l.length := by
  have hmem : n ∈ s.openList := (OpenList.mem_pop hpop n).mpr (.inl rfl)
  obtain ⟨l₀, -, hlen⟩ := h.grown.route hmem
  -- the key stands for the tile
  have hopen : ∀ k, ¬ closed n.pos k := fun k hk =>
    hn ((h.keys n.pos (h.inMap hs hmem)).mpr ⟨k, hk⟩)
  have hle : l₀.length ≤ l.length := by
    refine h.frontier.final_of_best (consistent_manhattan map goal) ?_ hopen hl
    rintro p k ⟨m, hm, rfl, hk⟩
    -- `top()` compares the sums that the search stored in the nodes
    have hf : n.f ≤ m.f := (OpenList.pop_le hpop hm).elim le_of_lt fun he => he.1.le
    rw [h.grown.f_eq n hmem, h.grown.f_eq m hm] at hf
    have hnn := manhattan_nonneg n.pos goal
    omega
  omega

theorem Searched.next (h : Searched map start goal closed s) (hs : InMap start)
    (hnext : searchRound queue map goal maxNodes s = .next s') :
    ∃ closed', Searched map start goal closed' s' := by
  have hgrown := h.grown.next hs hnext
  obtain ⟨-, current, rest, hpop, ⟨hin, rfl⟩ | ⟨hnin, hgoal, rfl⟩⟩ := searchRound_next hnext
  · -- the tile is closed: what leaves the queue is a duplicate
    have hcur := h.inMap hs ((OpenList.mem_pop hpop current).mpr (.inl rfl))
    refine ⟨closed, hgrown, h.frontier.discard ?_, h.keys, h.unreached, h.nodup, h.processed⟩
    rintro p k ⟨n, hn, rfl, hk⟩
    rcases (OpenList.mem_pop hpop n).mp hn with rfl | hn
    · exact .inr ((h.keys _ hcur).mp hin)
    · exact .inl ⟨n, hn, rfl, hk⟩
  · have hmem : current ∈ s.openList := (OpenList.mem_pop hpop current).mpr (.inl rfl)
    have hcur := h.inMap hs hmem
    obtain ⟨l₀, hl₀, hlen⟩ := h.grown.route hmem
    -- the tile is closed at the length of the route its node stands for
    refine ⟨fun p k => closed p k ∨ p = current.pos ∧ k = l₀.length, hgrown, ?_, ?_, ?_, ?_, ?_⟩
    · -- the frontier: the cost is final, the queue keeps the rest, the neighbours are in
      refine h.frontier.expand (fun l hl => ?_) ?_ ?_
      · have := h.final hs hpop hnin hl
        omega
      · rintro p k ⟨n, hn, rfl, hk⟩
        rcases (OpenList.mem_pop hpop n).mp hn with rfl | hn
        · exact .inr rfl
        · exact .inl ⟨n, List.mem_append_left _ hn, rfl, hk⟩
      · intro q hq
        by_cases hqc : encode q ∈ encode current.pos :: s.closed
        · rcases List.mem_cons.mp hqc with hqc | hqc
          · exact .inl ((encode_inj hq.inMap hcur).mp hqc)
          · exact .inr (.inl ((h.keys q hq.inMap).mp hqc))
        · refine .inr (.inr ⟨_, List.mem_append_right _
            ((mem_neighbours hcur).mpr ⟨q, hq, hqc, rfl⟩), rfl, ?_⟩)
          push_cast
          omega
    · -- the keys: one key more, and it is of this tile alone
      intro p hp
      simp only [expanded, List.mem_cons, encode_inj hp hcur, h.keys p hp]
      constructor
      · rintro (rfl | ⟨k, hk⟩)
        · exact ⟨_, .inr ⟨rfl, rfl⟩⟩
        · exact ⟨k, .inl hk⟩
      · rintro ⟨k, hk | ⟨rfl, -⟩⟩
        · exact .inr ⟨k, hk⟩
        · exact .inl rfl
    · -- the goal is not expanded
      rintro k (hk | ⟨hk, -⟩)
      · exact h.unreached k hk
      · exact hgoal hk.symm
    · exact List.nodup_cons.mpr ⟨hnin, h.nodup⟩
    · simp only [expanded, List.length_cons, h.processed]

theorem searched_of_visits (hs : InMap start)
    (hv : Visits (searchRound queue map goal maxNodes) (initial start goal) s) :
    ∃ closed, Searched map start goal closed s :=
  hv.invariant (I := fun s => ∃ closed, Searched map start goal closed s)
    (fun _ _ ⟨_, h⟩ hnext => h.next hs hnext) ⟨_, searched_initial map start goal⟩

/-! ## The result -/

/-- The search expanded `maxNodes` tiles. -/
def OutOfBudget (queue : OpenList) (map : Map) (start goal : Position) (maxNodes : ℕ) : Prop :=
  ∃ s, Visits (searchRound queue map goal maxNodes) (initial start goal) s ∧
    s.nodesProcessed = maxNodes ∧ s.closed.Nodup ∧ s.closed.length = maxNodes

/-- What `findPath` returns once the two tests at its head are passed: the
result of the round that leaves the loop. -/
theorem findPath_returns (hw : map.isWalkable goal.x goal.y = true) (hne : start ≠ goal) :
    ∃ s, Visits (searchRound queue map goal maxNodes) (initial start goal) s ∧
      searchRound queue map goal maxNodes s = .done (findPath queue map goal maxNodes start) := by
  -- a round that goes on takes a node out, and there are at most `4 * maxNodes + 1` of them
  have hsome : (iterate (searchRound queue map goal maxNodes) (5 * maxNodes + 2)
      (initial start goal)).isSome := search_returns ⟨start, 0, manhattan start goal, -1⟩
  obtain ⟨r, hr⟩ := Option.isSome_iff_exists.mp hsome
  have hfind : findPath queue map goal maxNodes start = r := by
    rw [findPath, if_neg (not_not.mpr hw), if_neg hne]
    exact congrArg (Option.getD · []) hr
  rw [hfind]
  exact Visits.of_iterate hr

theorem processed_le
    (hv : Visits (searchRound queue map goal maxNodes) (initial start goal) s) :
    s.nodesProcessed ≤ maxNodes := by
  refine hv.invariant (I := fun s => s.nodesProcessed ≤ maxNodes) (fun t t' ht hnext => ?_)
    (Nat.zero_le _)
  obtain ⟨hlt, _, _, _, ⟨-, rfl⟩ | ⟨-, -, rfl⟩⟩ := searchRound_next hnext
  · exact ht
  · exact hlt

/-- A search that leaves its loop has a shortest path, or has spent its budget,
or has seen every tile within reach. -/
theorem Searched.done (h : Searched map start goal closed s) (hs : InMap start)
    (hne : start ≠ goal) {r : List Position}
    (hdone : searchRound queue map goal maxNodes s = .done r) :
    maxNodes ≤ s.nodesProcessed ∧ r = [] ∨ (∀ l, ¬ Route (Steps map) start l goal) ∧ r = [] ∨
      r ≠ [] ∧ Route (Steps map) start r goal ∧
        ∀ l, Route (Steps map) start l goal → r.length ≤ l.length := by
  obtain ⟨hbudget, rfl⟩ | ⟨hempty, rfl⟩ | ⟨current, rest, hpop, hnin, rfl, rfl⟩ :=
    searchRound_done hdone
  · exact .inl ⟨hbudget, rfl⟩
  · -- with an empty queue all that is within reach is closed, the goal among it
    refine .inr (.inl ⟨fun l hl => ?_, rfl⟩)
    obtain ⟨k, hk⟩ := h.frontier.closed_of_exhausted (fun p k ⟨n, hn, _⟩ => by
      rw [hempty] at hn
      exact absurd hn List.not_mem_nil) hl
    exact h.unreached k hk
  · have hmem : current ∈ s.openList := (OpenList.mem_pop hpop current).mpr (.inl rfl)
    obtain ⟨hroute, hlen⟩ := h.grown.returned hmem hne.symm
    refine .inr (.inr ⟨?_, hroute, fun l hl => ?_⟩)
    · intro hnil
      rw [hnil] at hroute
      exact hne (by simpa using hroute.last_eq)
    · have hfin := h.final hs hpop hnin hl
      rw [List.length_reverse]
      omega

/-- How a search ends that is not refused at once: without a path, and a reason,
or with a shortest one. -/
theorem findPath_ends (queue : OpenList) (maxNodes : ℕ) (hs : InMap start)
    (hw : map.isWalkable goal.x goal.y = true) (hne : start ≠ goal) :
    (findPath queue map goal maxNodes start = [] ∧
      (OutOfBudget queue map start goal maxNodes ∨ ∀ l, ¬ Route (Steps map) start l goal)) ∨
    (findPath queue map goal maxNodes start ≠ [] ∧
      Route (Steps map) start (findPath queue map goal maxNodes start) goal ∧
        ∀ l, Route (Steps map) start l goal →
          (findPath queue map goal maxNodes start).length ≤ l.length) := by
  -- the state in which the loop is left
  obtain ⟨s, hv, hdone⟩ := findPath_returns hw hne
  obtain ⟨closed, hS⟩ := searched_of_visits hs hv
  rcases hS.done hs hne hdone with ⟨hbudget, hr⟩ | ⟨hnone, hr⟩ | hfound
  · have heq : s.nodesProcessed = maxNodes := le_antisymm (processed_le hv) hbudget
    exact .inl ⟨hr, .inl ⟨s, hv, heq, hS.nodup, hS.processed.trans heq⟩⟩
  · exact .inl ⟨hr, .inr hnone⟩
  · exact .inr hfound

/-- What is returned is a route to a goal that is walkable and not the start. -/
theorem findPath_route (hs : InMap start) (h : findPath queue map goal maxNodes start ≠ []) :
    Route (Steps map) start (findPath queue map goal maxNodes start) goal ∧
      ∀ l, Route (Steps map) start l goal →
        (findPath queue map goal maxNodes start).length ≤ l.length := by
  by_cases hw : map.isWalkable goal.x goal.y = true
  swap
  · exact absurd (by rw [findPath, if_pos hw]) h
  by_cases hne : start = goal
  · exact absurd (by rw [findPath, if_neg (not_not.mpr hw), if_pos hne]) h
  rcases findPath_ends queue maxNodes hs hw hne with ⟨hnil, -⟩ | ⟨-, hroute⟩
  · exact absurd hnil h
  · exact hroute

/-- **A path is a shortest walkable path without a tile twice; no path has a
reason**: the goal is blocked, or is the start, or `maxNodes` tiles were
expanded, or there is no way. -/
theorem findPath_shortest_or_none (queue : OpenList) (map : Map) (start goal : Position)
    (maxNodes : ℕ) (hs : InMap start) :
    (findPath queue map goal maxNodes start ≠ [] →
      IsPath map start goal (findPath queue map goal maxNodes start) ∧
      (findPath queue map goal maxNodes start).Nodup ∧
      ∀ path, IsPath map start goal path →
        (findPath queue map goal maxNodes start).length ≤ path.length) ∧
    (findPath queue map goal maxNodes start = [] →
      map.isWalkable goal.x goal.y = false ∨ start = goal ∨
      OutOfBudget queue map start goal maxNodes ∨ ¬ ∃ path, IsPath map start goal path) := by
  constructor
  · intro h
    obtain ⟨hroute, hmin⟩ := findPath_route hs h
    refine ⟨isPath_iff_route.mpr ⟨h, hroute⟩, ?_, fun path hp => ?_⟩
    · exact (List.nodup_cons.mp (hroute.nodup_of_shortest hmin)).2
    · exact hmin path (isPath_iff_route.mp hp).2
  · intro hnil
    by_cases hw : map.isWalkable goal.x goal.y = true
    swap
    · exact .inl (by simpa using hw)
    by_cases hne : start = goal
    · exact .inr (.inl hne)
    rcases findPath_ends queue maxNodes hs hw hne with
      ⟨-, hbudget | hnone⟩ | ⟨hr, -⟩
    · exact .inr (.inr (.inl hbudget))
    · refine .inr (.inr (.inr ?_))
      rintro ⟨path, hp⟩
      exact hnone path (isPath_iff_route.mp hp).2
    · exact absurd hnil hr

/-- The first tile of a path lies beside the start. -/
theorem beside_of_head_findPath (hs : InMap start)
    (h : (findPath queue map goal maxNodes start).head? = some p) : manhattan start p = 1 := by
  cases hpath : findPath queue map goal maxNodes start with
  | nil =>
      rw [hpath] at h
      exact absurd h (by simp)
  | cons q rest =>
      rw [hpath] at h
      obtain rfl := Option.some.inj h
      have hne : findPath queue map goal maxNodes start ≠ [] := by
        rw [hpath]
        exact List.cons_ne_nil _ _
      obtain ⟨hroute, -⟩ := findPath_route hs hne
      rw [hpath] at hroute
      exact (List.isChain_cons_cons.mp hroute.isChain).1.1

/-- Two to the right and one down on a map without obstacles; and to a tile with
a tree on it. -/
theorem findPath_shortest_or_none_open :
    (findPath .firstBest ⟨fun _ => 0⟩ ⟨2, 1⟩ 25 ⟨0, 0⟩ = [⟨0, 1⟩, ⟨1, 1⟩, ⟨2, 1⟩] ∧
      IsPath ⟨fun _ => 0⟩ ⟨0, 0⟩ ⟨2, 1⟩ [⟨0, 1⟩, ⟨1, 1⟩, ⟨2, 1⟩] ∧
      ∀ path, IsPath ⟨fun _ => 0⟩ ⟨0, 0⟩ ⟨2, 1⟩ path → 3 ≤ path.length) ∧
    let tree : Map := ⟨fun i => if i = tileIndex ⟨2, 1⟩ then 1 else 0⟩
    findPath .firstBest tree ⟨2, 1⟩ 25 ⟨0, 0⟩ = [] ∧
      (tree.isWalkable 2 1 = false ∨ (⟨0, 0⟩ : Position) = ⟨2, 1⟩ ∨
        OutOfBudget .firstBest tree ⟨0, 0⟩ ⟨2, 1⟩ 25 ∨ ¬ ∃ path, IsPath tree ⟨0, 0⟩ ⟨2, 1⟩ path) := by
  have hrun : findPath .firstBest ⟨fun _ => 0⟩ ⟨2, 1⟩ 25 ⟨0, 0⟩ = [⟨0, 1⟩, ⟨1, 1⟩, ⟨2, 1⟩] := by
    decide +kernel
  have h := (findPath_shortest_or_none .firstBest ⟨fun _ => 0⟩ ⟨0, 0⟩ ⟨2, 1⟩ 25 (by decide)).1
    (by rw [hrun]; simp)
  rw [hrun] at h
  refine ⟨⟨hrun, h.1, h.2.2⟩, ?_⟩
  intro tree
  have hnone : findPath .firstBest tree ⟨2, 1⟩ 25 ⟨0, 0⟩ = [] := by decide +kernel
  exact ⟨hnone, (findPath_shortest_or_none .firstBest tree ⟨0, 0⟩ ⟨2, 1⟩ 25 (by decide)).2 hnone⟩

end Mmorpg.Pathfinder
