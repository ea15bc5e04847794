/-
A teleport and a death that find no room.

`ProcessTeleport` and `OnPlayerDied` take the player off its tile and then ask
`AddObject` for another one. `AddObject` can fail. `OnPlayerDied` logs that and
returns; `ProcessTeleport` asks a second time, around the origin, and then uses
`newX` and `newY` whether they were written or not. Either way the player is on
no tile and in no sector from then on, while it stays in `m_players` with a
position.

`Room` is the condition under which `AddObject` does not fail: a walkable tile
within reach that is free, or is the player's own, which it has just left.
-/
import SimplestMmorpg.Game.MoveRequest

set_option autoImplicit false

namespace Mmorpg

namespace SectorManager

variable {sm sm' : SectorManager} {id : ObjectID} {c p q : Position} {map : Map}

/-- The object holds this tile and no other, and is in the set of its sector and
in no other. -/
structure StandsAt (sm : SectorManager) (id : ObjectID) (p : Position) : Prop where
  tile : ∀ t, sm.getOccupant t = id ↔ t = p
  sector : ∀ z, id ∈ sm.sectors z ↔ z = zoneOf p

/-- No tile and no sector knows the object. -/
structure Nowhere (sm : SectorManager) (id : ObjectID) : Prop where
  tile : ∀ t, sm.getOccupant t ≠ id
  sector : ∀ z, id ∉ sm.sectors z

/-- Only an object can stand somewhere: beyond the map every tile reads as free. -/
theorem StandsAt.ne_invalid (h : sm.StandsAt id p) : id ≠ invalidId := by
  rintro rfl
  have hout : ∀ x : Int, x < 0 → sm.getOccupant ⟨x, 0⟩ = invalidId := by
    intro x hx
    rw [getOccupant, if_neg fun hin => by have := hin.1; dsimp only at this; omega]
  have h1 := (h.tile ⟨-1, 0⟩).mp (hout _ (by decide))
  have h2 := (h.tile ⟨-2, 0⟩).mp (hout _ (by decide))
  have hx := congrArg Position.x (h1.trans h2.symm)
  exact absurd hx (by decide)

theorem StandsAt.occupant (h : sm.StandsAt id p) : sm.index.occupant p = some id :=
  (occupant_eq_some h.ne_invalid).mpr ((h.tile p).mpr rfl)

theorem StandsAt.not_nowhere (h : sm.StandsAt id p) : ¬ sm.Nowhere id := fun hno =>
  hno.tile p ((h.tile p).mpr rfl)

/-- The tiles after the object has left. -/
theorem StandsAt.getOccupant_removeObject (h : sm.StandsAt id p) (t : Position) :
    (sm.removeObject id p).getOccupant t = if t = p then invalidId else sm.getOccupant t := by
  have ho := (h.tile p).mpr rfl
  have hin := inMap_of_getOccupant h.ne_invalid ho
  have htiles : (sm.removeObject id p).getOccupant t =
      (sm.setTile p invalidId).getOccupant t := by
    rw [removeObject, release_eq hin ho]
    rfl
  rw [htiles, getOccupant_setTile hin]

theorem StandsAt.removeObject (h : sm.StandsAt id p) : (sm.removeObject id p).Nowhere id where
  tile t := by
    rw [h.getOccupant_removeObject]
    split
    · exact h.ne_invalid.symm
    · next hne => exact fun ho => hne ((h.tile t).mp ho)
  sector z := by
    have hmem : id ∈ (sm.removeObject id p).index.members z ↔
        id ∈ (sm.index.take zoneOf id p).members z := by
      rw [index_removeObject h.ne_invalid h.occupant]
    refine fun hz => ?_
    have hz' := hmem.mp hz
    -- the set of its own sector loses the object, the others never had it
    by_cases hzp : z = zoneOf p
    · subst hzp
      simp [SpatialIndex.Index.take] at hz'
    · simp only [SpatialIndex.Index.take, Function.update_of_ne hzp] at hz'
      exact hzp ((h.sector z).mp hz')

theorem Nowhere.addObject (h : sm.Nowhere id) (hid : id ≠ invalidId)
    (hadd : sm.addObject id c map = some (sm', q)) : sm'.StandsAt id q := by
  obtain ⟨-, -, -, hindex⟩ := index_addObject hid hadd
  constructor
  · intro t
    rw [← occupant_eq_some hid, hindex]
    by_cases ht : t = q
    · subst ht
      simp [SpatialIndex.Index.put]
    · simp only [SpatialIndex.Index.put, Function.update_of_ne ht, occupant_eq_some hid, ht,
        iff_false]
      exact h.tile t
  · intro z
    have hmem : id ∈ sm'.sectors z ↔ id ∈ (sm.index.put zoneOf id q).members z := by
      rw [← hindex]
      rfl
    rw [hmem]
    by_cases hz : z = zoneOf q
    · subst hz
      simp [SpatialIndex.Index.put]
    · simp only [SpatialIndex.Index.put, Function.update_of_ne hz, hz, iff_false]
      exact h.sector z

/-- A walkable tile around `c` that is free or held by the object itself. -/
def Room (sm : SectorManager) (map : Map) (id : ObjectID) (c : Position) : Prop :=
  ∃ radius ≤ 20, ∃ d ∈ ring radius, map.isWalkable (offset c d).x (offset c d).y = true ∧
    (sm.getOccupant (offset c d) = invalidId ∨ sm.getOccupant (offset c d) = id)

/-- **Whoever has left its tile finds another one if and only if there is room.** -/
theorem StandsAt.addObject_eq_none_iff (h : sm.StandsAt id p) :
    (sm.removeObject id p).addObject id c map = none ↔ ¬ sm.Room map id c := by
  rw [SectorManager.addObject_eq_none_iff, tryClaimNearby_eq_none_iff]
  constructor
  · rintro hall ⟨radius, hr, d, hd, hwalk, hfree⟩
    have hne := hall radius hr d hd hwalk
    rw [h.getOccupant_removeObject] at hne
    -- the tile it has left is the one that the two sides see differently
    split at hne
    · exact hne rfl
    · next hp => exact hfree.elim hne fun ho => hp ((h.tile _).mp ho)
  · intro hno radius hr d hd hwalk
    rw [h.getOccupant_removeObject]
    split
    · next hp => exact absurd ⟨radius, hr, d, hd, hwalk, .inr ((h.tile _).mpr hp)⟩ hno
    · exact fun hfree => hno ⟨radius, hr, d, hd, hwalk, .inl hfree⟩

end SectorManager

namespace World

open SectorManager ViewProcessor

/-- The player is in the world, on the tile it says it is on. -/
def OnItsTile (w : World) (id : ObjectID) : Prop :=
  ∃ p, w.getPlayer id = some p ∧ w.sectorManager.StandsAt id p.pos

variable {env : Env} {w : World} {id : ObjectID} {session : ConnId} {p : Player}

/-- Where the tiles and the sectors agree with the objects, every player is on its tile. -/
theorem Consistent.standsAt (h : Consistent w) (hp : w.getPlayer id = some p) :
    w.sectorManager.StandsAt id p.pos where
  tile t := by
    rw [h.agrees.getOccupant_eq_iff (h.player_ne_invalid hp), h.place_player hp, Option.some.injEq,
      eq_comm]
  sector z := by
    rw [SectorManager.Agrees.mem_sectors h.agrees, h.place_player hp]
    simp only [Option.some.injEq, exists_eq_left']
    exact eq_comm

theorem not_onItsTile_of_nowhere (h : w.sectorManager.Nowhere id) : ¬ OnItsTile w id :=
  fun ⟨_, _, hat⟩ => hat.not_nowhere h

/-- What a teleport leaves of the sector manager and of the player. -/
theorem processTeleport_frame (env : Env) (session : ConnId) (hp : w.getPlayer id = some p)
    {sm : SectorManager} {new : Position}
    (hplaced : w.placeTeleported env id (w.sectorManager.removeObject id p.pos) = (sm, new)) :
    (w.processTeleport env id session).sectorManager = sm ∧
      (w.processTeleport env id session).getPlayer id = some (p.setPos new) := by
  obtain rfl := getPlayer_id hp
  unfold processTeleport
  rw [hp]
  dsimp only
  rw [hplaced]
  refine ⟨(inert_activateNearbyMonsters env new _).sectorManager, ?_⟩
  refine (getPlayer_activateNearbyMonsters env new _ p.id).trans ?_
  exact getPlayer_setPlayer_self { w with sectorManager := sm } (p.setPos new)

/-- With room at one of the two places the player gets a tile there, whatever the
variables held. -/
theorem placeTeleported_of_room (hat : w.sectorManager.StandsAt id p.pos)
    (hroom : w.sectorManager.Room w.map id env.target ∨ w.sectorManager.Room w.map id ⟨0, 0⟩) :
    ∃ sm new, sm.StandsAt id new ∧ ∀ indeterminate,
      w.placeTeleported { env with indeterminate := indeterminate } id
        (w.sectorManager.removeObject id p.pos) = (sm, new) := by
  have hgone := hat.removeObject
  -- the second call is made only where the first one failed
  cases h1 : (w.sectorManager.removeObject id p.pos).addObject id env.target w.map with
  | some placed =>
      refine ⟨placed.1, placed.2, hgone.addObject hat.ne_invalid h1, fun _ => ?_⟩
      rw [placeTeleported, h1]
  | none =>
      have horigin := hroom.resolve_left (hat.addObject_eq_none_iff.mp h1)
      cases h2 : (w.sectorManager.removeObject id p.pos).addObject id ⟨0, 0⟩ w.map with
      | some placed =>
          refine ⟨placed.1, placed.2, hgone.addObject hat.ne_invalid h2, fun _ => ?_⟩
          rw [placeTeleported, h1, h2]
          rfl
      | none => exact absurd horigin (hat.addObject_eq_none_iff.mp h2)

/-- Without room it gets none, and the position is what the variables held. -/
theorem placeTeleported_of_noRoom (hat : w.sectorManager.StandsAt id p.pos)
    (htarget : ¬ w.sectorManager.Room w.map id env.target)
    (horigin : ¬ w.sectorManager.Room w.map id ⟨0, 0⟩) :
    w.placeTeleported env id (w.sectorManager.removeObject id p.pos) =
      (w.sectorManager.removeObject id p.pos, env.indeterminate) := by
  rw [placeTeleported, hat.addObject_eq_none_iff.mpr htarget,
    hat.addObject_eq_none_iff.mpr horigin]
  rfl

/-- A teleport does no harm: the player stands where it says, and what
`newX` and `newY` held before the two calls is not used. -/
def TeleportSafe (env : Env) (id : ObjectID) (session : ConnId) (w : World) : Prop :=
  OnItsTile (w.processTeleport env id session) id ∧
    ∀ indeterminate, w.processTeleport { env with indeterminate := indeterminate } id session =
      w.processTeleport env id session

theorem teleportSafe_iff (env : Env) (session : ConnId) (hp : w.getPlayer id = some p)
    (hat : w.sectorManager.StandsAt id p.pos) : TeleportSafe env id session w ↔
      w.sectorManager.Room w.map id env.target ∨ w.sectorManager.Room w.map id ⟨0, 0⟩ := by
  constructor
  · intro hsafe
    by_contra hno
    obtain ⟨htarget, horigin⟩ := not_or.mp hno
    have heq := placeTeleported_of_noRoom hat htarget horigin
    refine absurd hsafe.1 (not_onItsTile_of_nowhere ?_)
    rw [(processTeleport_frame env session hp heq).1]
    exact hat.removeObject
  · intro hroom
    obtain ⟨sm, new, hnew, heq⟩ := placeTeleported_of_room hat hroom
    have hself : w.placeTeleported env id (w.sectorManager.removeObject id p.pos) = (sm, new) :=
      heq env.indeterminate
    obtain ⟨hsm, hget⟩ := processTeleport_frame env session hp hself
    refine ⟨⟨p.setPos new, hget, ?_⟩, fun indeterminate => ?_⟩
    · rw [hsm]
      exact hnew
    · -- `newX` and `newY` are written before they are read
      unfold processTeleport
      rw [hp]
      dsimp only
      rw [heq indeterminate, hself]
      rfl

theorem onItsTile_onPlayerDied_iff (env : Env) (hp : w.getPlayer id = some p)
    (hat : w.sectorManager.StandsAt id p.pos) :
    OnItsTile (w.onPlayerDied env p) id ↔ w.sectorManager.Room w.map id ⟨0, 0⟩ := by
  obtain rfl := getPlayer_id hp
  constructor
  · intro hreg
    by_contra hno
    -- the handler returns with the player off its tile
    refine absurd hreg (not_onItsTile_of_nowhere ?_)
    rw [onPlayerDied_of_none (hat.addObject_eq_none_iff.mpr hno)]
    exact hat.removeObject
  · intro hroom
    cases hadd : (w.sectorManager.removeObject p.id p.pos).addObject p.id ⟨0, 0⟩ w.map with
    | none => exact absurd hroom (hat.addObject_eq_none_iff.mp hadd)
    | some placed =>
        obtain ⟨sm, respawn⟩ := placed
        have hat' := hat.removeObject.addObject hat.ne_invalid hadd
        rw [onPlayerDied_of_some hadd]
        refine ⟨afterDeath p respawn, ?_, ?_⟩
        · refine (getPlayer_activateNearbyMonsters env respawn _ p.id).trans ?_
          exact getPlayer_setPlayer_self
            { w.sendAll (sendDisappear env w p) with sectorManager := sm } (afterDeath p respawn)
        · rw [(inert_activateNearbyMonsters env respawn _).sectorManager]
          exact hat'

/-- **A player that is on its tile is on one after a teleport if and only if there
is room around the tile that was drawn or around the origin, and after a death if
and only if there is room around the origin.** -/
theorem stays_registered_iff (env : Env) (w : World) (id : ObjectID) (session : ConnId)
    (p : Player) (hp : w.getPlayer id = some p) (hat : w.sectorManager.StandsAt id p.pos) :
    (TeleportSafe env id session w ↔
      w.sectorManager.Room w.map id env.target ∨ w.sectorManager.Room w.map id ⟨0, 0⟩) ∧
    (OnItsTile (w.onPlayerDied env p) id ↔ w.sectorManager.Room w.map id ⟨0, 0⟩) :=
  ⟨teleportSafe_iff env session hp hat, onItsTile_onPlayerDied_iff env hp hat⟩

/-- On a map without obstacles the only player has room around the origin: its own tile. -/
theorem stays_registered_iff_oneWalker :
    TeleportSafe .plain 0 0 oneWalker ∧ OnItsTile (oneWalker.onPlayerDied .plain
      ((oneWalker.getPlayer 0).get (by decide))) 0 := by
  have hp : oneWalker.getPlayer 0 = some ((oneWalker.getPlayer 0).get (by decide)) :=
    (Option.some_get _).symm
  have hroom : oneWalker.sectorManager.Room oneWalker.map 0 ⟨0, 0⟩ :=
    ⟨0, by decide, (0, 0), by decide, by decide, .inr (by decide)⟩
  have h := stays_registered_iff .plain oneWalker 0 0 _ hp (consistent_oneWalker.standsAt hp)
  exact ⟨h.1.mpr (.inr hroom), h.2.mpr hroom⟩

/-! ## An island -/

/-- Water everywhere but on one tile. -/
def island : Map := ⟨fun i => if i = tileIndex ⟨100, 100⟩ then 0 else 1⟩

/-- A character was stored on the island and comes back there. -/
def oneIslander : World :=
  ((World.empty island 5000).addPlayer 0 0 ⟨1, [65], 1, 0, 100, 100, 100, 100⟩).get (by decide)

theorem consistent_oneIslander : Consistent oneIslander :=
  (placed_empty _ _).consistent_addPlayer (by decide) rfl _

/-- The island is out of reach from the corner of the map. -/
theorem not_room_island {sm : SectorManager} (id : ObjectID) {c : Position}
    (hc : 0 ≤ c.x ∧ c.x < 80) : ¬ sm.Room island id c := by
  rintro ⟨radius, hr, d, hd, hwalk, -⟩
  have hin := island.inMap_of_isWalkable hwalk
  -- the 20 rings around the corner end before the column of the island
  have hx := (SectorManager.mem_ring hd).1
  have hrange : toInt16 (c.x + d.1) = c.x + d.1 := toInt16_of_range (by omega) (by omega)
  have htile : tileIndex (offset c d) = tileIndex ⟨100, 100⟩ := by
    unfold Map.isWalkable at hwalk
    split at hwalk
    · exact absurd hwalk (by simp)
    · by_contra hne
      simp [island, hne] at hwalk
  have heq := (tileIndex_inj hin (by decide)).mp htile
  have hx100 := congrArg Position.x heq
  dsimp only [offset] at hx100
  omega

/-- The islander is drawn a tile in the corner of the map, or dies. -/
theorem not_always_registered :
    ¬ ∀ (env : Env) (w : World) (id : ObjectID) (session : ConnId) (p : Player),
      w.getPlayer id = some p → w.sectorManager.StandsAt id p.pos →
        TeleportSafe env id session w ∧ OnItsTile (w.onPlayerDied env p) id := by
  intro hall
  have hp : oneIslander.getPlayer 0 = some ((oneIslander.getPlayer 0).get (by decide)) :=
    (Option.some_get _).symm
  have hat := consistent_oneIslander.standsAt hp
  have hsafe := (hall .plain oneIslander 0 0 _ hp hat).1
  exact ((teleportSafe_iff .plain 0 hp hat).mp hsafe).elim
    (not_room_island 0 (by decide)) (not_room_island 0 (by decide))

end World

end Mmorpg
