/-
`FindPath` on open ground: when every tile of the rectangle between start and
goal is walkable, the search expands one tile for each tile of the way.

Every node in the queue has an `f` of at least the Manhattan distance, and
those with just that `f` lie in the rectangle. Of these `NodeCmp` prefers the
larger `g`, so the node that is taken out is always the deepest one, one step
nearer to the goal than the one before (`OnTheWay.popped`). Which of several
such nodes the queue gives does not matter, and what lies outside the rectangle
is pushed but never taken out.
-/
import SimplestMmorpg.Game.FindPath

set_option autoImplicit false

namespace Mmorpg.Pathfinder

open Loop BestFirst

/-- The axis-aligned rectangle spanned by two tiles. -/
def InRectangle (a b p : Position) : Prop :=
  min a.x b.x ≤ p.x ∧ p.x ≤ max a.x b.x ∧ min a.y b.y ≤ p.y ∧ p.y ≤ max a.y b.y

variable {map : Map} {start goal p : Position} {queue : OpenList} {maxNodes : ℕ}
  {s s' : Search} {n : Node}

/-- A tile that is no detour lies in the rectangle. -/
theorem inRectangle_of_manhattan
    (h : manhattan start p + manhattan p goal ≤ manhattan start goal) :
    InRectangle start goal p := by
  unfold InRectangle
  unfold manhattan at h
  omega

/-- From a tile of the rectangle one of its neighbours in the rectangle is
nearer to the goal. -/
theorem exists_nearer (h : InRectangle start goal p) (hne : p ≠ goal) :
    ∃ q, manhattan p q = 1 ∧ InRectangle start goal q ∧
      manhattan q goal + 1 = manhattan p goal := by
  obtain ⟨px, py⟩ := p
  obtain ⟨gx, gy⟩ := goal
  simp only [InRectangle, manhattan, ne_eq, Position.mk.injEq] at h hne ⊢
  -- along a row first, and along the column once the row is right
  rcases lt_trichotomy px gx with hx | rfl | hx
  · exact ⟨⟨px + 1, py⟩, by dsimp only; omega, by dsimp only; omega, by dsimp only; omega⟩
  · rcases lt_or_gt_of_ne fun hy => hne ⟨rfl, hy⟩ with hy | hy
    · exact ⟨⟨px, py + 1⟩, by dsimp only; omega, by dsimp only; omega, by dsimp only; omega⟩
    · exact ⟨⟨px, py - 1⟩, by dsimp only; omega, by dsimp only; omega, by dsimp only; omega⟩
  · exact ⟨⟨px - 1, py⟩, by dsimp only; omega, by dsimp only; omega, by dsimp only; omega⟩

/-- After `k` rounds the deepest nodes are `k` steps from the start, one of
them no detour, and the closed tiles are those that were passed. -/
structure OnTheWay (start goal : Position) (s : Search) : Prop where
  short : (s.nodesProcessed : Int) ≤ manhattan start goal
  depth : ∀ n ∈ s.openList, n.g ≤ s.nodesProcessed
  front : ∃ n ∈ s.openList, n.g = s.nodesProcessed ∧ n.f = manhattan start goal
  behind : ∀ k ∈ s.closed, ∃ p, InMap p ∧ encode p = k ∧
    manhattan start goal < s.nodesProcessed + manhattan p goal

theorem onTheWay_initial (start goal : Position) : OnTheWay start goal (initial start goal) where
  short := manhattan_nonneg start goal
  depth n hn := by
    obtain rfl := List.mem_singleton.mp hn
    exact le_rfl
  front := ⟨_, List.mem_singleton_self _, rfl, rfl⟩
  behind _ h := absurd h List.not_mem_nil

/-- **Whatever node is taken out, it is a deepest one and no detour**, and its
tile was not passed before. -/
theorem OnTheWay.popped (h : OnTheWay start goal s) (hG : Grown map start goal s)
    (hs : InMap start) {rest : List Node} (hpop : queue.pop s.openList = some (n, rest)) :
    n.g = s.nodesProcessed ∧ InMap n.pos ∧ InRectangle start goal n.pos ∧
      manhattan n.pos goal = manhattan start goal - s.nodesProcessed ∧
      encode n.pos ∉ s.closed := by
  have hmem : n ∈ s.openList := (OpenList.mem_pop hpop n).mpr (.inl rfl)
  obtain ⟨l, hroute, hlen⟩ := hG.route hmem
  have hmap := inMap_of_route hs hroute
  have hfar := manhattan_le_length hroute
  have htri := manhattan_triangle start n.pos goal
  have hf := hG.f_eq n hmem
  have hdeep := h.depth n hmem
  -- the node in front is in the queue, so the best one is no worse
  obtain ⟨m, hm, hmg, hmf⟩ := h.front
  have hbest := OpenList.pop_le hpop hm
  have hg : n.g = s.nodesProcessed := by omega
  have hgoal : manhattan n.pos goal = manhattan start goal - s.nodesProcessed := by omega
  refine ⟨hg, hmap, inRectangle_of_manhattan (by omega), hgoal, fun hin => ?_⟩
  obtain ⟨p, hp, hkey, hlt⟩ := h.behind _ hin
  obtain rfl := (encode_inj hp hmap).mp hkey
  omega

theorem OnTheWay.next (h : OnTheWay start goal s) (hG : Grown map start goal s)
    (hs : InMap start)
    (hrect : ∀ p, InRectangle start goal p → map.isWalkable p.x p.y = true)
    (hnext : searchRound queue map goal maxNodes s = .next s') : OnTheWay start goal s' := by
  obtain ⟨-, current, rest, hpop, ⟨hin, rfl⟩ | ⟨-, hne, rfl⟩⟩ := searchRound_next hnext
  · obtain ⟨-, -, -, -, hnin⟩ := h.popped hG hs hpop
    -- a dropped node would be on a closed tile, and those are further from the goal
    exact absurd hin hnin
  · obtain ⟨hg, hmap, hcur, hgoal, -⟩ := h.popped hG hs hpop
    have hpos : manhattan current.pos goal ≠ 0 := fun h0 => hne (manhattan_eq_zero.mp h0)
    have hnn := manhattan_nonneg current.pos goal
    have hprocessed : ((expanded map goal s current rest).nodesProcessed : Int)
        = s.nodesProcessed + 1 := rfl
    have hbehind : ∀ k ∈ (expanded map goal s current rest).closed, ∃ p, InMap p ∧
        encode p = k ∧ manhattan start goal < s.nodesProcessed + 1 + manhattan p goal := by
      intro k hk
      -- the tile that was expanded is now one step behind
      rcases List.mem_cons.mp hk with rfl | hk
      · exact ⟨current.pos, hmap, rfl, by omega⟩
      · obtain ⟨p, hp, hkey, hlt⟩ := h.behind k hk
        exact ⟨p, hp, hkey, by omega⟩
    refine ⟨by omega, fun n hn => ?_, ?_, hbehind⟩
    · rw [hprocessed]
      rcases List.mem_append.mp hn with hn | hn
      · have := h.depth n ((OpenList.mem_pop hpop n).mpr (.inr hn))
        omega
      · obtain ⟨q, -, -, rfl⟩ := (mem_neighbours hmap).mp hn
        exact (congrArg (· + 1) hg).le
    · -- the neighbour towards the goal is pushed, as no closed tile is that near
      obtain ⟨q, hq, hqrect, hqgoal⟩ := exists_nearer hcur hne
      have hstep : Steps map current.pos q := ⟨hq, hrect q hqrect⟩
      -- equal keys are equal tiles
      have hfresh : encode q ∉ encode current.pos :: s.closed := by
        intro hk
        obtain ⟨p, hp, hkey, hlt⟩ := hbehind _ hk
        obtain rfl := (encode_inj hp hstep.inMap).mp hkey
        omega
      refine ⟨_, List.mem_append_right _ ((mem_neighbours hmap).mpr ⟨q, hstep, hfresh, rfl⟩),
        ?_, ?_⟩
      · rw [hprocessed, hg]
      · dsimp only
        omega

/-- **The budget is enough on open ground**: a path of one tile for each unit
of the Manhattan distance, whatever lies outside the rectangle and whatever the
queue does among equals. -/
theorem findPath_openGround (queue : OpenList) (map : Map) (start goal : Position)
    (maxNodes : ℕ) (hpos : 1 ≤ manhattan start goal) (hbudget : manhattan start goal < maxNodes)
    (hrect : ∀ p, InRectangle start goal p → map.isWalkable p.x p.y = true) :
    IsPath map start goal (findPath queue map goal maxNodes start) ∧
      ((findPath queue map goal maxNodes start).length : Int) = manhattan start goal := by
  have hs : InMap start := map.inMap_of_isWalkable
    (hrect start (by unfold InRectangle; omega))
  have hw : map.isWalkable goal.x goal.y = true := hrect goal (by unfold InRectangle; omega)
  have hne : start ≠ goal := fun he => by
    rw [manhattan_eq_zero.mpr he] at hpos
    omega
  obtain ⟨s, hv, hdone⟩ := @findPath_returns map start goal queue maxNodes hw hne
  obtain ⟨hG, hO⟩ : Grown map start goal s ∧ OnTheWay start goal s :=
    hv.invariant (I := fun s => Grown map start goal s ∧ OnTheWay start goal s)
      (fun _ _ h hnext => ⟨h.1.next hs hnext, h.2.next h.1 hs hrect hnext⟩)
      ⟨grown_initial map start goal, onTheWay_initial start goal⟩
  obtain ⟨hspent, -⟩ | ⟨hempty, -⟩ | ⟨current, rest, hpop, -, hgoal, hr⟩ := searchRound_done hdone
  · -- the budget: as many rounds as `maxNodes` would have gone past the goal
    have := hO.short
    omega
  · -- the queue: the node in front is in it
    obtain ⟨n, hn, -⟩ := hO.front
    rw [hempty] at hn
    exact absurd hn List.not_mem_nil
  · -- the goal: its `g` is the distance
    have hmem : current ∈ s.openList := (OpenList.mem_pop hpop current).mpr (.inl rfl)
    obtain ⟨hroute, hlen⟩ := hG.returned hmem fun he => hne (he.symm.trans hgoal)
    obtain ⟨hg, -, -, hfar, -⟩ := hO.popped hG hs hpop
    rw [hgoal, manhattan_self] at hfar
    rw [hgoal] at hroute
    have hlength : ((findPath queue map goal maxNodes start).length : Int)
        = manhattan start goal := by
      rw [hr, List.length_reverse, hlen, hg]
      omega
    refine ⟨isPath_iff_route.mpr ⟨fun hnil => ?_, by rw [hr]; exact hroute⟩, hlength⟩
    rw [hnil, List.length_nil] at hlength
    omega

/-- A map whose only walkable tiles are those of one rectangle. -/
def court : Map := ⟨fun i => if i % 2000 < 4 ∧ i / 2000 < 3 then 0 else 1⟩

theorem findPath_openGround_court :
    IsPath court ⟨3, 0⟩ ⟨0, 2⟩ (findPath .firstBest court ⟨0, 2⟩ 25 ⟨3, 0⟩) ∧
      ((findPath .firstBest court ⟨0, 2⟩ 25 ⟨3, 0⟩).length : Int) = 5 := by
  refine findPath_openGround .firstBest court ⟨3, 0⟩ ⟨0, 2⟩ 25 (by decide) (by decide) ?_
  -- the rectangle has the columns 0 to 3 and the rows 0 to 2
  rintro ⟨x, y⟩ h
  simp only [InRectangle] at h
  have htile : tileIndex ⟨x, y⟩ % 2000 < 4 ∧ tileIndex ⟨x, y⟩ / 2000 < 3 := by
    simp only [tileIndex, mapWidth]
    omega
  unfold Map.isWalkable
  rw [if_neg (by simp only [mapWidth, mapHeight]; omega)]
  dsimp only [court]
  rw [if_pos htile]
  rfl

end Mmorpg.Pathfinder
