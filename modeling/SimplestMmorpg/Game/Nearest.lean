/-
The nearest free tile, and the nearest player.

`TryClaimNearby` looks at one square after the other. `ring radius` is exactly
the set of offsets at Chebyshev distance `radius`, so the first tile that can be
claimed is a nearest one. The sums are narrowed to `int16_t`, and a sum that is
out of range is narrowed to a number that is no coordinate of the map: what is
looked at and walkable is the tile that was meant.

`FindNearestPlayerInRange` keeps a running minimum over the ids of a range
query. A query misses nobody within a sector's width and names nobody twice,
and `HALF_AGRO` is less than that.
-/
import SimplestMmorpg.Game.MoveRequest
import SimplestMmorpg.Lib.Least

set_option autoImplicit false

namespace Mmorpg

open World (distMax)

namespace SectorManager

variable {sm sm' : SectorManager} {id : ObjectID} {c p q : Position} {map : Map} {radius : ℕ}
  {d : Int × Int}

/-! ## The nearest free tile -/

/-- A coordinate of the source. -/
def IsInt16 (v : Int) : Prop := -32768 ≤ v ∧ v < 32768

/-- A tile that can be claimed. -/
def Free (sm : SectorManager) (map : Map) (q : Position) : Prop :=
  map.isWalkable q.x q.y = true ∧ sm.getOccupant q = invalidId

theorem Free.inMap (h : sm.Free map q) : InMap q := map.inMap_of_isWalkable h.1

/-- One round looks at the border of a square, and at all of it. -/
theorem mem_ring_iff : d ∈ ring radius ↔ max d.1.natAbs d.2.natAbs = radius := by
  constructor
  · intro h
    have hle := mem_ring h
    obtain ⟨dy, hdy, hd⟩ := List.mem_flatMap.mp h
    obtain ⟨dx, hdx, rfl⟩ := List.mem_map.mp hd
    have hskip := of_decide_eq_true (List.mem_filter.mp hdx).2
    dsimp only at hle ⊢
    omega
  · intro h
    refine List.mem_flatMap.mpr ⟨d.2, mem_span.mpr (by omega), ?_⟩
    refine List.mem_map.mpr ⟨d.1, ?_, rfl⟩
    refine List.mem_filter.mpr ⟨mem_span.mpr (by omega), decide_eq_true ?_⟩
    omega

/-- **No wrapped coordinate is a tile.** -/
theorem offset_of_inMap (hx : IsInt16 c.x) (hy : IsInt16 c.y) (h1 : d.1.natAbs ≤ 20)
    (h2 : d.2.natAbs ≤ 20) (hin : InMap (offset c d)) :
    offset c d = ⟨c.x + d.1, c.y + d.2⟩ := by
  obtain ⟨hx1, hx2⟩ := hx
  obtain ⟨hy1, hy2⟩ := hy
  simp only [InMap, offset, toInt16, mapWidth, mapHeight, Position.mk.injEq] at *
  omega

/-- The tiles of the map that are looked at in one round. -/
theorem exists_offset_iff (hx : IsInt16 c.x) (hy : IsInt16 c.y) (hr : radius ≤ 20) (hin : InMap q) :
    (∃ d ∈ ring radius, offset c d = q) ↔ distMax q c = radius := by
  constructor
  · rintro ⟨d, hd, rfl⟩
    rw [mem_ring_iff] at hd
    rw [offset_of_inMap hx hy (by omega) (by omega) hin, distMax]
    dsimp only
    omega
  · intro hdist
    refine ⟨(q.x - c.x, q.y - c.y), mem_ring_iff.mpr hdist, ?_⟩
    have hsize : (mapWidth : Int) = 2000 ∧ (mapHeight : Int) = 2000 := ⟨rfl, rfl⟩
    obtain ⟨hx1, hx2, hy1, hy2⟩ := hin
    unfold offset
    rw [show c.x + (q.x - c.x) = q.x by omega, show c.y + (q.y - c.y) = q.y by omega,
      toInt16_of_range (by omega) (by omega), toInt16_of_range (by omega) (by omega)]

/-- What is tried at an offset. -/
def claimAt (sm : SectorManager) (id : ObjectID) (c : Position) (map : Map) (d : Int × Int) :
    Option (SectorManager × Position) :=
  let p := offset c d
  if map.isWalkable p.x p.y then (sm.tryClaim p id).map fun sm' => (sm', p) else none

theorem claimAt_eq_none_iff : sm.claimAt id c map d = none ↔ ¬ sm.Free map (offset c d) := by
  unfold claimAt Free
  dsimp only
  split
  · next hw =>
      rw [Option.map_eq_none_iff, tryClaim_eq_none_iff (map.inMap_of_isWalkable hw)]
      exact ⟨fun h hfree => h hfree.2, fun h hfree => h ⟨hw, hfree⟩⟩
  · next hw => exact ⟨fun _ hfree => hw hfree.1, fun _ => rfl⟩

/-- A claim writes the one tile. -/
theorem claimAt_eq_some (h : sm.claimAt id c map d = some (sm', q)) :
    q = offset c d ∧ sm.Free map q ∧ sm' = sm.setTile q id := by
  unfold claimAt at h
  dsimp only at h
  split at h
  · next hw =>
      obtain ⟨sm'', hclaim, heq⟩ := Option.map_eq_some_iff.mp h
      obtain ⟨rfl, rfl⟩ := Prod.mk.inj heq
      obtain ⟨-, hfree, hset⟩ := tryClaim_eq_some hclaim
      exact ⟨rfl, ⟨hw, hfree⟩, hset⟩
  · exact absurd h (by simp)

theorem tryClaimNearby_eq_inRounds (sm : SectorManager) (id : ObjectID) (c : Position)
    (maxRadius : ℕ) (map : Map) :
    sm.tryClaimNearby id c maxRadius map = Least.inRounds ring (sm.claimAt id c map) maxRadius :=
  rfl

/-- The tiles and the sectors when `TryClaimNearby` has returned. -/
def afterClaimNearby (sm : SectorManager) (id : ObjectID) (c : Position) (maxRadius : ℕ)
    (map : Map) : SectorManager :=
  (sm.tryClaimNearby id c maxRadius map).elim sm (·.1)

/-- **`TryClaimNearby` claims a nearest free tile.** -/
structure ClaimsNearest (sm : SectorManager) (id : ObjectID) (c : Position) (map : Map) : Prop where
  found_iff : (sm.tryClaimNearby id c 20 map).isSome ↔ ∃ q, sm.Free map q ∧ distMax q c ≤ 20
  nearest : ∀ sm' p, sm.tryClaimNearby id c 20 map = some (sm', p) →
    sm.Free map p ∧ distMax p c ≤ 20 ∧ ∀ q, sm.Free map q → distMax p c ≤ distMax q c
  claimed : ∀ sm' p, sm.tryClaimNearby id c 20 map = some (sm', p) →
    sm'.getOccupant p = id ∧ ∀ q, q ≠ p → sm'.getOccupant q = sm.getOccupant q
  refused : sm.tryClaimNearby id c 20 map = none →
    ∀ q, (sm.afterClaimNearby id c 20 map).getOccupant q = sm.getOccupant q
  sectors : (sm.afterClaimNearby id c 20 map).sectors = sm.sectors

/-- **The search finds a nearest tile**, if there is one within reach. -/
theorem tryClaimNearby_nearest (hx : IsInt16 c.x) (hy : IsInt16 c.y)
    (h : sm.tryClaimNearby id c 20 map = some (sm', p)) :
    sm.Free map p ∧ distMax p c ≤ 20 ∧ (∀ q, sm.Free map q → distMax p c ≤ distMax q c) ∧
      sm' = sm.setTile p id := by
  rw [tryClaimNearby_eq_inRounds] at h
  obtain ⟨radius, hr, ⟨d, hd, hclaim⟩, hbefore⟩ := Least.inRounds_eq_some h
  obtain ⟨hp, hfree, hset⟩ := claimAt_eq_some hclaim
  have hdist : distMax p c = radius :=
    (exists_offset_iff hx hy hr hfree.inMap).mp ⟨d, hd, hp.symm⟩
  refine ⟨hfree, hdist ▸ hr, fun q hq => ?_, hset⟩
  by_contra hlt
  -- a nearer free tile is looked at in an earlier round
  have hround : distMax q c < radius := by omega
  obtain ⟨d', hd', rfl⟩ := (exists_offset_iff hx hy (by omega) hq.inMap).mpr rfl
  exact claimAt_eq_none_iff.mp (hbefore _ hround d' hd') hq

theorem tryClaimNearby_eq_none (hx : IsInt16 c.x) (hy : IsInt16 c.y) :
    sm.tryClaimNearby id c 20 map = none ↔ ∀ q, sm.Free map q → ¬ distMax q c ≤ 20 := by
  rw [tryClaimNearby_eq_inRounds, Least.inRounds_eq_none_iff]
  constructor
  · intro h q hq hdist
    obtain ⟨d, hd, rfl⟩ := (exists_offset_iff hx hy hdist hq.inMap).mpr rfl
    exact claimAt_eq_none_iff.mp (h _ hdist d hd) hq
  · intro h radius hr d hd
    refine claimAt_eq_none_iff.mpr fun hq => h _ hq ?_
    rw [(exists_offset_iff hx hy hr hq.inMap).mp ⟨d, hd, rfl⟩]
    exact hr

/-- **Placement finds the nearest free tile**: for every map, every occupancy and every centre. -/
theorem tryClaimNearby_claimsNearest (sm : SectorManager) (id : ObjectID) (c : Position)
    (map : Map) (hx : IsInt16 c.x) (hy : IsInt16 c.y) : ClaimsNearest sm id c map where
  found_iff := by
    rw [Option.isSome_iff_ne_none, ne_eq, tryClaimNearby_eq_none hx hy]
    push Not
    rfl
  nearest sm' p h := by
    obtain ⟨hfree, hdist, hleast, -⟩ := tryClaimNearby_nearest hx hy h
    exact ⟨hfree, hdist, hleast⟩
  claimed sm' p h := by
    obtain ⟨hfree, -, -, rfl⟩ := tryClaimNearby_nearest hx hy h
    refine ⟨?_, fun q hq => ?_⟩
    · rw [getOccupant_setTile hfree.inMap, if_pos rfl]
    · rw [getOccupant_setTile hfree.inMap, if_neg hq]
  refused h q := by
    rw [afterClaimNearby, h]
    rfl
  sectors := by
    unfold afterClaimNearby
    cases h : sm.tryClaimNearby id c 20 map with
    | none => rfl
    | some r =>
        have hsome : sm.tryClaimNearby id c 20 map = some (r.1, r.2) := h
        obtain ⟨-, -, -, hset⟩ := tryClaimNearby_nearest hx hy hsome
        change r.1.sectors = sm.sectors
        rw [hset]
        rfl

/-- Beyond the left border of the map. -/
theorem tryClaimNearby_claimsNearest_beyond :
    ClaimsNearest (init.setTile ⟨0, 7⟩ 5) 6 ⟨-20, 7⟩ ⟨fun _ => 0⟩ :=
  tryClaimNearby_claimsNearest (init.setTile ⟨0, 7⟩ 5) 6 ⟨-20, 7⟩ ⟨fun _ => 0⟩
    ⟨by decide, by decide⟩ ⟨by decide, by decide⟩

example : ((init.setTile ⟨0, 7⟩ 5).tryClaimNearby 6 ⟨-3, 7⟩ 20 ⟨fun _ => 0⟩).map (·.2) =
    some ⟨0, 4⟩ := by decide +kernel

/-! ## Range queries

A sector is an `unordered_set`; the lists that stand for them have no element twice. -/

/-- No sector holds an id twice. -/
def Sets (sm : SectorManager) : Prop := ∀ z, (sm.sectors z).Nodup

theorem sets_init : init.Sets := fun _ => List.nodup_nil

theorem Sets.sectorInsert (h : sm.Sets) (c : SectorCoord) (id : ObjectID) :
    (sm.sectorInsert c id).Sets := by
  intro z
  simp only [SectorManager.sectorInsert, getSector]
  by_cases hz : z = sectorIndex c
  · rw [hz, Function.update_self]
    exact (h _).insert
  · rw [Function.update_of_ne hz]
    exact h z

theorem Sets.sectorErase (h : sm.Sets) (c : SectorCoord) (id : ObjectID) :
    (sm.sectorErase c id).Sets := by
  intro z
  simp only [SectorManager.sectorErase, getSector]
  by_cases hz : z = sectorIndex c
  · rw [hz, Function.update_self]
    exact (h _).filter _
  · rw [Function.update_of_ne hz]
    exact h z

theorem Sets.addObject (h : sm.Sets) (hadd : sm.addObject id c map = some (sm', q)) :
    sm'.Sets := by
  unfold SectorManager.addObject at hadd
  split at hadd
  · exact absurd hadd (by simp)
  · next sm₁ out hnear =>
      obtain ⟨rfl, rfl⟩ := Prod.mk.inj (Option.some.inj hadd)
      obtain ⟨hclaim, -⟩ := tryClaimNearby_eq_some hnear
      obtain ⟨-, -, rfl⟩ := tryClaim_eq_some hclaim
      have hset : Sets (sm.setTile out id) := h
      exact hset.sectorInsert _ id

theorem sectors_release (sm : SectorManager) (p : Position) (id : ObjectID) :
    (sm.release p id).sectors = sm.sectors := by
  unfold release
  split
  · rfl
  · rfl

theorem Sets.release (h : sm.Sets) (p : Position) (id : ObjectID) : (sm.release p id).Sets := by
  intro z
  rw [sectors_release]
  exact h z

theorem Sets.removeObject (h : sm.Sets) (id : ObjectID) (p : Position) :
    (sm.removeObject id p).Sets :=
  (h.release p id).sectorErase _ id

theorem Sets.tryMoveObject (h : sm.Sets) (hmove : sm.tryMoveObject id p q = some sm') :
    sm'.Sets := by
  unfold SectorManager.tryMoveObject at hmove
  split at hmove
  · exact Option.some.inj hmove ▸ h
  · split at hmove
    · exact absurd hmove (by simp)
    · next sm₁ hclaim =>
        obtain ⟨-, -, rfl⟩ := tryClaim_eq_some hclaim
        rw [← Option.some.inj hmove, moveObject]
        have hset : Sets (sm.setTile q id) := h
        have hrel := hset.release p id
        split
        · exact hrel
        · exact (hrel.sectorErase _ id).sectorInsert _ id

theorem nodup_nearbySectors (p : Position) : (nearbySectors p).Nodup := by
  refine List.Nodup.filter _ ?_
  -- nine different offsets from one sector
  have hoffsets : (([-1, 0, 1] : List Int).flatMap fun dy =>
      ([-1, 0, 1] : List Int).map fun dx => (dx, dy)).Nodup := by decide
  refine List.Nodup.map (f := fun d : Int × Int =>
    (⟨(getSectorCoord p).sx + d.1, (getSectorCoord p).sy + d.2⟩ : SectorCoord)) ?_ hoffsets
  intro a b hab
  rw [SectorCoord.mk.injEq] at hab
  exact Prod.ext (by omega) (by omega)

/-- **A query names nobody twice**: no sector is looked at twice, and nobody is in two. -/
theorem nodup_getNearbyObjects {place : SpatialIndex.Placement ObjectID Position}
    (h : sm.SectorsAgree place) (hsets : sm.Sets) {iter : List ObjectID → List ObjectID}
    (hiter : ∀ l, (iter l).Perm l) (p : Position) : (sm.getNearbyObjects iter p).Nodup := by
  refine List.nodup_flatMap.mpr ⟨fun z _ => ((hiter _).nodup_iff).mpr (hsets _), ?_⟩
  refine (nodup_nearbySectors p).imp_of_mem ?_
  intro a b ha hb hne i hia hib
  have hra : a.InRange := by simpa using (List.mem_filter.mp ha).2
  have hrb : b.InRange := by simpa using (List.mem_filter.mp hb).2
  obtain ⟨q, hq, hza⟩ := (h _ i).mp ((hiter _).mem_iff.mp hia)
  obtain ⟨q', hq', hzb⟩ := (h _ i).mp ((hiter _).mem_iff.mp hib)
  obtain rfl := Option.some.inj (hq.symm.trans hq')
  exact hne ((sectorIndex_inj hra hrb).mp (hza.symm.trans hzb))

end SectorManager

namespace World

variable {w : World} {env : Env} {id : ObjectID} {p q : Position} {player : Player} {range : Int}

/-- The square of the distance. -/
def distSq (p q : Position) : Int := (p.x - q.x) * (p.x - q.x) + (p.y - q.y) * (p.y - q.y)

/-- A living player of the table within the range. -/
def InReach (w : World) (p : Position) (range : Int) (player : Player) : Prop :=
  w.getPlayer player.id = some player ∧ player.isDead = false ∧ (distMax player.pos p : Int) ≤ range

/-- What the loop makes of an id, before it compares. -/
def candidate (w : World) (p : Position) (range : Int) (id : ObjectID) : Option (Player × Int) :=
  if ¬ isPlayerId id then none
  else
    (w.getPlayer id).bind fun player =>
      if player.isDead then none
      else if range < distMax player.pos p then none
      else some (player, distSq player.pos p)

/-- The loop is a running minimum. -/
theorem nearerPlayer_eq (w : World) (p : Position) (range : Int) (best : Option (Player × Int))
    (id : ObjectID) : w.nearerPlayer p range best id = Least.better best (w.candidate p range id) := by
  unfold nearerPlayer candidate
  split
  · rfl
  · cases w.getPlayer id with
    | none => rfl
    | some player =>
        dsimp only [Option.bind_some]
        split
        · rfl
        · split
          · rfl
          · cases best <;> rfl

theorem candidate_eq_some {r : Player × Int} (h : w.candidate p range id = some r) :
    w.InReach p range r.1 ∧ r.2 = distSq r.1.pos p := by
  unfold candidate at h
  split at h
  · exact absurd h (by simp)
  · obtain ⟨player, hp, hcand⟩ := Option.bind_eq_some_iff.mp h
    split at hcand
    · exact absurd hcand (by simp)
    · next halive =>
        split at hcand
        · exact absurd hcand (by simp)
        · next hnear =>
            rw [← Option.some.inj hcand]
            refine ⟨⟨?_, by simpa using halive, not_lt.mp hnear⟩, rfl⟩
            rw [getPlayer_id hp]
            exact hp

/-- Whoever is in reach is a candidate under its id. -/
theorem candidate_of_inReach (h : Sectored w) (hr : w.InReach p range player) :
    w.candidate p range player.id = some (player, distSq player.pos p) := by
  obtain ⟨hp, halive, hnear⟩ := hr
  have hid : ¬ ¬ isPlayerId player.id = true := not_not.mpr (h.isPlayerId hp)
  rw [candidate, if_neg hid, hp, Option.bind_some, halive, if_neg Bool.false_ne_true,
    if_neg (not_lt.mpr hnear)]

/-- Whoever is in reach is found by the query. -/
theorem nearby_of_inReach (h : Sectored w) (hrange : range ≤ 20) (hr : w.InReach p range player) :
    player.id ∈ w.getNearbyObjects env p := by
  obtain ⟨hp, -, hnear⟩ := hr
  have hplace := h.place_player hp
  have hsize : sectorSize = 20 := rfl
  unfold distMax at hnear
  exact h.sectors.nearby_of_close env.iter_perm hplace (h.inMap _ _ hplace) (by omega) (by omega)

/-- **Range queries miss nobody.** -/
structure QueryComplete (w : World) (env : Env) (p : Position) : Prop where
  all : ∀ id q, w.place id = some q → distMax q p ≤ sectorSize → id ∈ w.getNearbyObjects env p
  once : (w.getNearbyObjects env p).Nodup
  nearest : ∀ range ≤ (sectorSize : Int), ∀ player,
    w.findNearestPlayerInRange env p range = some player → w.InReach p range player ∧
      ∀ other, w.InReach p range other → distSq player.pos p ≤ distSq other.pos p
  none_iff : ∀ range ≤ (sectorSize : Int),
    w.findNearestPlayerInRange env p range = none ↔ ∀ player, ¬ w.InReach p range player

theorem findNearestPlayerInRange_eq (w : World) (env : Env) (p : Position) (range : Int) :
    w.findNearestPlayerInRange env p range =
      (Least.running (w.candidate p range) (w.getNearbyObjects env p)).map (·.1) := by
  unfold findNearestPlayerInRange Least.running
  congr 2
  funext best id
  exact nearerPlayer_eq w p range best id

/-- **Range queries miss nobody**, wherever the sets of the sectors agree with the
positions: a query names whoever is within a sector's width, once, and the nearest player
it leads to is a nearest one. -/
theorem queries_complete (w : World) (env : Env) (p : Position) (h : Sectored w)
    (hsets : w.sectorManager.Sets) : QueryComplete w env p where
  all id q hq hdist := by
    unfold distMax at hdist
    exact h.sectors.nearby_of_close env.iter_perm hq (h.inMap id q hq) (by omega) (by omega)
  once := SectorManager.nodup_getNearbyObjects h.sectors hsets env.iter_perm p
  nearest range hrange player hfound := by
    have hkept := Least.kept_running (w.candidate p range) (w.getNearbyObjects env p)
    rw [findNearestPlayerInRange_eq] at hfound
    obtain ⟨r, hr, rfl⟩ := Option.map_eq_some_iff.mp hfound
    obtain ⟨id, -, hid⟩ := hkept.mem r hr
    obtain ⟨hreach, hsq⟩ := candidate_eq_some hid
    refine ⟨hreach, fun other hother => ?_⟩
    rw [← hsq]
    exact hkept.least r hr other.id (nearby_of_inReach h hrange hother) _
      (candidate_of_inReach h hother)
  none_iff range hrange := by
    have hkept := Least.kept_running (w.candidate p range) (w.getNearbyObjects env p)
    rw [findNearestPlayerInRange_eq, Option.map_eq_none_iff, hkept.none_iff]
    constructor
    · intro hall player hreach
      have hnone := hall player.id (nearby_of_inReach h hrange hreach)
      rw [candidate_of_inReach h hreach] at hnone
      exact absurd hnone (by simp)
    · intro hno id _
      cases hid : w.candidate p range id with
      | none => rfl
      | some r => exact absurd (candidate_eq_some hid).1 (hno r.1)

theorem sets_addPlayer {w v : World} {id : ObjectID} {conn : ConnId} {row : PlayerRow}
    (h : w.sectorManager.Sets) (hadd : w.addPlayer id conn row = some v) : v.sectorManager.Sets := by
  obtain ⟨sm, spawn, hsm, heq⟩ := addPlayer_eq_some hadd
  rw [show v.sectorManager = sm from congrArg World.sectorManager heq]
  exact h.addObject hsm

/-- A second character comes to where it was saved. -/
def twoWalkers : World := (oneWalker.addPlayer 1 1 ⟨2, [66], 1, 0, 100, 100, 5, 3⟩).get (by decide)

theorem sectored_twoWalkers : Sectored twoWalkers ∧ twoWalkers.sectorManager.Sets := by
  have hcome : (World.empty ⟨fun _ => 0⟩ 5000).addPlayer 0 0 newRow = some oneWalker :=
    (Option.some_get _).symm
  have hcome' : oneWalker.addPlayer 1 1 ⟨2, [66], 1, 0, 100, 100, 5, 3⟩ = some twoWalkers :=
    (Option.some_get _).symm
  have hone := placed_addPlayer (placed_empty _ _) (by decide) rfl hcome
  exact ⟨(placed_addPlayer hone (by decide) (by decide) hcome').sectored,
    sets_addPlayer (sets_addPlayer SectorManager.sets_init hcome) hcome'⟩

/-- Which of the two is nearest depends on the tile; one that is eight tiles away is not seen. -/
theorem queries_complete_twoWalkers :
    [⟨1, 1⟩, ⟨4, 4⟩, ⟨5, 11⟩].map (fun p =>
        (twoWalkers.findNearestPlayerInRange .plain p halfAgro).map (·.id)) =
      [some 0, some 1, none] ∧
    QueryComplete twoWalkers .plain ⟨1, 1⟩ ∧ QueryComplete twoWalkers .plain ⟨4, 4⟩ ∧
      QueryComplete twoWalkers .plain ⟨5, 11⟩ := by
  obtain ⟨hsectored, hsets⟩ := sectored_twoWalkers
  exact ⟨by decide, queries_complete _ _ _ hsectored hsets, queries_complete _ _ _ hsectored hsets,
    queries_complete _ _ _ hsectored hsets⟩

end World

end Mmorpg
