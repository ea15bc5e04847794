/-
Monsters stay on their leash.

A monster is put on a tile when it is made and when it comes back, and walks in
`MoveMonster` only. Coming back is a search around the tile it was made on, and
its last round is `ROAMING_RANGE` tiles away; before every step `IsInRoamingRange`
is asked. Everything else that a handler does leaves every monster where it is,
which `Still` says.

One tick is one step at most, to a tile beside. When the monster roams this is
read off `DX` and `DY`; when it chases a player the tile is the first of what
`FindPath` returns, and a path starts beside its start.
-/
import SimplestMmorpg.Game.FindPath
import SimplestMmorpg.Game.Login
import SimplestMmorpg.Game.Nearest

set_option autoImplicit false

namespace Mmorpg

namespace Monster

/-- Where a monster belongs, and where it is. -/
structure Tether where
  id : ObjectID
  spawnPos : Position
  pos : Position

def Body.tether (b : Body) : Tether := ⟨b.spec.id, b.spec.spawnPos, b.pos⟩

def tether (m : Monster) : Tether := m.body.tether

end Monster

namespace World

open Pathfinder ViewProcessor

variable {env : Env} {w w' w'' : World} {id : ObjectID} {p q : Player} {m m' : Monster}
  {sm : SectorManager} {pos new : Position} {map : Map} {t : Monster.Tether}

def tethers (w : World) : List Monster.Tether := w.monsters.entries.map Monster.tether

/-! ## What moves no monster -/

structure Still (w w' : World) : Prop where
  map : w'.map = w.map
  tethers : w'.tethers = w.tethers

namespace Still

theorem refl (w : World) : Still w w := ⟨rfl, rfl⟩

theorem trans (h : Still w w') (h' : Still w' w'') : Still w w'' :=
  ⟨h'.map.trans h.map, h'.tethers.trans h.tethers⟩

theorem of_eq (hmap : w'.map = w.map) (hmonsters : w'.monsters = w.monsters) : Still w w' :=
  ⟨hmap, congrArg (fun table => table.entries.map Monster.tether) hmonsters⟩

end Still

theorem Inert.still (h : Inert w w') : Still w w' := by
  refine ⟨h.map, ?_⟩
  have hbody := congrArg (List.map Monster.Body.tether) h.monsters
  rw [List.map_map, List.map_map] at hbody
  exact hbody

/-- The monsters after one was written. -/
theorem mem_tethers_setMonster (ht : t ∈ (w.setMonster m).tethers) :
    t = m.tether ∨ t ∈ w.tethers := by
  simp only [tethers, setMonster, MonsterTable.set, List.map_map] at ht
  obtain ⟨k, hk, rfl⟩ := List.mem_map.mp ht
  simp only [Function.comp]
  split
  · exact .inl rfl
  · exact .inr (List.mem_map_of_mem hk)

theorem still_setMonster (hm : w.getMonster m.id = some m') (ht : m.tether = m'.tether) :
    Still w (w.setMonster m) :=
  ⟨rfl, MonsterTable.map_set hm ht⟩

theorem still_strike {target : Monster} (hm : w.getMonster target.id = some target) (damage : Int) :
    Still w (w.strike env id damage target) := by
  have hset : Still w (w.setMonster (target.takeDamage damage)) := still_setMonster hm rfl
  unfold strike
  dsimp only
  split
  · exact hset
  · split
    · exact hset.trans (.of_eq rfl rfl)
    · exact hset.trans (.of_eq rfl rfl)

theorem still_processAttack (env : Env) (id : ObjectID) (w : World) :
    Still w (w.processAttack env id) := by
  apply processAttack_of_inert (.refl w)
  case strike =>
    intro v _ target _ hm _ hv damage
    exact hv.trans (still_strike hm damage)
  case inert =>
    intro v v' hv hi
    exact hv.trans hi.still

/-- A player that is written and told of, after which monsters are woken. -/
theorem still_movePlayer (env : Env) (sm : SectorManager) (q : Player) (pkts : List (ConnId × ScPacket))
    (pos : Position) (conn : ConnId) (pkt : ScPacket) (w : World) :
    Still w (((({ w with sectorManager := sm }.setPlayer q).sendAll pkts).activateNearbyMonsters env
      pos).send conn pkt) := by
  have hset : Still w (({ w with sectorManager := sm }.setPlayer q).sendAll pkts) := .of_eq rfl rfl
  exact (hset.trans (inert_activateNearbyMonsters env pos _).still).trans (.of_eq rfl rfl)

theorem still_processMove (env : Env) (id : ObjectID) (conn : ConnId) (data : Bytes) (w : World) :
    Still w (w.processMove env id conn data) := by
  rcases processMove_cases env id conn data w with
    heq | ⟨player, new, sm, -, -, -, -, -, heq⟩
  · rw [heq]
    exact .refl w
  · rw [heq]
    exact still_movePlayer env sm _ _ new conn _ w

theorem still_processTeleport (env : Env) (id : ObjectID) (conn : ConnId) (w : World) :
    Still w (w.processTeleport env id conn) := by
  rcases processTeleport_cases env id conn w with heq | ⟨player, sm, new, -, -, heq⟩
  · rw [heq]
    exact .refl w
  · rw [heq]
    exact still_movePlayer env sm _ _ new conn _ w

theorem still_onPlayerDied (env : Env) (p : Player) (w : World) :
    Still w (w.onPlayerDied env p) := by
  cases hadd : (w.sectorManager.removeObject p.id p.pos).addObject p.id ⟨0, 0⟩ w.map with
  | none =>
      rw [onPlayerDied_of_none hadd]
      exact .of_eq rfl rfl
  | some placed =>
      obtain ⟨sm, respawn⟩ := placed
      rw [onPlayerDied_of_some hadd]
      dsimp only
      refine Still.trans ?_ (inert_activateNearbyMonsters env respawn _).still
      exact .of_eq rfl rfl

theorem still_startRegen (p : Player) (w : World) : Still w (w.startRegen p) := by
  unfold startRegen
  split
  · exact .refl w
  · exact .of_eq rfl rfl

theorem still_monsterAttackPlayer (env : Env) (m : Monster) (p : Player) (w : World) :
    Still w (w.monsterAttackPlayer env m p) := by
  unfold monsterAttackPlayer
  split
  · exact .refl w
  · dsimp only
    split
    · refine Still.trans ?_ (still_onPlayerDied env _ _)
      exact .of_eq rfl rfl
    · refine Still.trans ?_ (still_startRegen _ _)
      exact .of_eq rfl rfl

theorem still_attackAdjacent (env : Env) (m : Monster) (victims : List ObjectID) (w : World) :
    Still w (w.attackAdjacent env m victims) := by
  have hloop : Still w (victims.foldl (attackVictim env m) w) := by
    apply attackVictims_induction env victims (.refl w)
    intro v _ victim _ hv _
    exact hv.trans (still_monsterAttackPlayer env m victim v)
  have hdone : ∀ v now, Inert v (v.modifyMonster m.id fun k => k.onAttackPerformed now) :=
    fun v now => inert_modifyMonster fun _ => rfl
  unfold attackAdjacent
  exact (hloop.trans (inert_broadcastAttackEffect _ _ _).still).trans (hdone _ _).still

theorem still_hpRegen (id : ObjectID) (w : World) : Still w (w.hpRegen id) := by
  obtain ⟨v, hv, heq | ⟨-, q, -, -, heq⟩⟩ := inert_hpRegen w id
  · rw [heq]
    exact hv.still
  · rw [heq]
    exact hv.still.trans (.of_eq rfl rfl)

theorem still_addPlayer {conn : ConnId} {row : PlayerRow}
    (h : w.addPlayer id conn row = some w') : Still w w' := by
  obtain ⟨sm, spawn, -, rfl⟩ := addPlayer_eq_some h
  exact .of_eq rfl rfl

theorem still_welcome (env : Env) (conn : ConnId) (p : Player) (w : World) :
    Still w (w.welcome env conn p) := by
  have hsent : Still w ((w.send conn (loginOkPkt p)).sendAll
      (sendFullView env (w.send conn (loginOkPkt p)) p)) := .of_eq rfl rfl
  exact hsent.trans (inert_activateNearbyMonsters env _ _).still

theorem still_leave (env : Env) (p : Player) (w : World) : Still w (w.leave env p) :=
  .of_eq rfl rfl

/-! ## The leash -/

/-- A monster that is not far from the tile it was made on. -/
structure OnLeash (map : Map) (t : Monster.Tether) : Prop where
  home : map.isWalkable t.spawnPos.x t.spawnPos.y = true
  walkable : map.isWalkable t.pos.x t.pos.y = true
  near_x : (t.pos.x - t.spawnPos.x).natAbs ≤ roamingRange
  near_y : (t.pos.y - t.spawnPos.y).natAbs ≤ roamingRange

theorem onLeash_home (hhome : map.isWalkable pos.x pos.y = true) (id : ObjectID) :
    OnLeash map ⟨id, pos, pos⟩ :=
  ⟨hhome, hhome, by simp, by simp⟩

/-- All monsters are, the dead ones too. -/
structure Leashed (map : Map) (w : World) : Prop where
  map_eq : w.map = map
  onLeash : ∀ t ∈ w.tethers, OnLeash map t

namespace Leashed

theorem still (h : Leashed map w) (hs : Still w w') : Leashed map w' :=
  ⟨hs.map.trans h.map_eq, fun t ht => h.onLeash t (hs.tethers ▸ ht)⟩

theorem monster (h : Leashed map w) (hm : w.getMonster id = some m) : OnLeash map m.tether :=
  h.onLeash m.tether (List.mem_map_of_mem (MonsterTable.mem_of_find hm))

theorem setMonster (h : Leashed map w) (hm : OnLeash map m.tether) :
    Leashed map (w.setMonster m) := by
  refine ⟨h.map_eq, fun t ht => ?_⟩
  rcases mem_tethers_setMonster ht with rfl | ht
  · exact hm
  · exact h.onLeash t ht

end Leashed

/-! ## One tick -/

/-- One step of a monster. -/
structure Strides (w w' : World) (m : Monster) (new : Position) : Prop extends w.MayEnter m new where
  beside : manhattan m.pos new = 1
  free : w.sectorManager.getOccupant new = invalidId
  map : w'.map = w.map
  monsters : w'.monsters = w.monsters.set (m.setPos new)

theorem moveMonster_spec (env : Env) (hmay : w.MayEnter m new)
    (hbeside : manhattan m.pos new = 1) :
    Still w (w.moveMonster env m new) ∨ Strides w (w.moveMonster env m new) m new := by
  have hne : m.pos ≠ new := by
    intro heq
    rw [heq, manhattan_self] at hbeside
    omega
  unfold moveMonster
  split
  · exact .inl (.refl w)
  · next sm hmove =>
      have hfree := SectorManager.getOccupant_of_tryMoveObject hne hmove
      exact .inr ⟨hmay, hbeside, hfree, rfl, rfl⟩

/-- **What a tick does to the monsters**: nothing, or one step of the one whose
tick it is. -/
theorem aiTick_spec (env : Env) (hm : w.getMonster m.id = some m) (hin : InMap m.pos) :
    Still w (w.aiTick env m) ∨ ∃ new, Strides w (w.aiTick env m) m new := by
  unfold aiTick
  cases w.aiAction env m with
  | idle => exact .inl (.refl w)
  | clearTarget => exact .inl (still_setMonster (m := m.clearTarget) hm rfl)
  | attack victims => exact .inl (still_attackAdjacent env m victims w)
  | chase targetPos =>
      change Still w (w.chase env m targetPos) ∨ ∃ new, Strides w (w.chase env m targetPos) m new
      rcases chase_cases env m targetPos w with heq | ⟨new, hmay, ⟨goal, hhead⟩, heq⟩
      · rw [heq]
        exact .inl (.refl w)
      · -- the first tile of a path is beside the tile it starts from
        rw [heq]
        exact (moveMonster_spec env hmay (beside_of_head_findPath hin hhead)).imp_right
          fun h => ⟨new, h⟩
  | setTarget t => exact .inl (still_setMonster (m := m.setTargetPlayerId t) hm rfl)
  | roam =>
      change Still w (w.roamingMove env m) ∨ ∃ new, Strides w (w.roamingMove env m) m new
      rcases roamingMove_cases env m w with heq | ⟨new, hmay, hnew, heq⟩
      · rw [heq]
        exact .inl (.refl w)
      · rw [heq]
        have hbeside : manhattan m.pos new = 1 := hnew ▸ beside_towards env hin env.dir.isLt
        exact (moveMonster_spec env hmay hbeside).imp_right fun h => ⟨new, h⟩

theorem Leashed.strides (h : Leashed map w) (hm : w.getMonster id = some m)
    (hs : Strides w w' m new) : Leashed map w' := by
  -- `IsInRoamingRange` was asked of the tile, with the tile of the spawn
  have hrange := of_decide_eq_true hs.inRange
  have hset : Leashed map (w.setMonster (m.setPos new)) :=
    h.setMonster ⟨(h.monster hm).home, h.map_eq ▸ hs.walkable, hrange.1, hrange.2⟩
  exact hset.still (.of_eq hs.map hs.monsters)

theorem Leashed.aiTick (h : Leashed map w) (env : Env) (hm : w.getMonster m.id = some m) :
    Leashed map (w.aiTick env m) := by
  have hin := map.inMap_of_isWalkable (h.monster hm).walkable
  rcases aiTick_spec env hm hin with hs | ⟨new, hs⟩
  · exact h.still hs
  · exact h.strides hm hs

theorem Leashed.monsterAi (h : Leashed map w) (env : Env) (id : ObjectID) :
    Leashed map (w.monsterAi env id) := by
  have hspec := monsterAi_spec env id w
  generalize w.monsterAi env id = v at hspec
  cases hspec with
  | nothing => exact h
  | asleep m hm =>
      obtain rfl := getMonster_id hm
      exact h.still (still_setMonster (m := m.deactivate) hm rfl)
  | tick m hm halive hhits =>
      obtain rfl := getMonster_id hm
      exact (h.aiTick env hm).still (.of_eq rfl rfl)

/-! ## Coming back, and the start -/

/-- A search around a tile of the map ends on a walkable tile within the leash. -/
theorem onLeash_addObject {spawnPos out : Position} {sm' : SectorManager}
    (hhome : map.isWalkable spawnPos.x spawnPos.y = true)
    (hadd : sm.addObject id spawnPos map = some (sm', out)) : OnLeash map ⟨id, spawnPos, out⟩ := by
  have hin : InMap spawnPos := map.inMap_of_isWalkable hhome
  obtain ⟨hx1, hx2, hy1, hy2⟩ := hin
  -- a tile of the map is so small that no sum of the search is narrowed
  have hsize : (mapWidth : Int) = 2000 ∧ (mapHeight : Int) = 2000 := ⟨rfl, rfl⟩
  have hout := SectorManager.isWalkable_of_addObject hadd
  unfold SectorManager.addObject at hadd
  split at hadd
  · exact absurd hadd (by simp)
  · next sm₁ q hnear =>
      obtain ⟨-, rfl⟩ := Prod.mk.inj (Option.some.inj hadd)
      obtain ⟨-, hdist, -⟩ := SectorManager.tryClaimNearby_nearest ⟨by omega, by omega⟩
        ⟨by omega, by omega⟩ hnear
      have hboth := Nat.max_le.mp hdist
      exact ⟨hhome, hout, hboth.1, hboth.2⟩

theorem Leashed.respawnMonster (h : Leashed map w) (env : Env) (id : ObjectID) :
    Leashed map (w.respawnMonster env id) := by
  rcases respawnMonster_cases env id w with
    heq | ⟨monster, -, -, heq⟩ | ⟨monster, sm, out, v, hm, hadd, hv, heq⟩
  · rw [heq]
    exact h
  · rw [heq]
    exact h.still (.of_eq rfl rfl)
  · obtain rfl := getMonster_id hm
    rw [h.map_eq] at hadd
    have hout := onLeash_addObject (h.monster hm).home hadd
    have hplaced : Leashed map { w with sectorManager := sm } := h.still (.of_eq rfl rfl)
    -- `Respawn` puts it on the tile it was made on, `SetPos` on the one that was claimed
    have hback := hplaced.setMonster (m := monster.respawn.setPos out) hout
    have hcast : Leashed map v := by
      rw [hv]
      exact hback.still (.of_eq rfl rfl)
    rcases heq with heq | ⟨monster', hact, heq⟩
    · rw [heq]
      exact hcast
    · -- `tryActivate` has changed the flags of the monster only
      rw [heq]
      have htether : monster'.tether = (monster.respawn.setPos out).tether :=
        congrArg Monster.Body.tether (body_tryActivate hact)
      exact (hcast.setMonster (htether ▸ hout)).still (.of_eq rfl rfl)

theorem Leashed.spawnMonsters (h : Leashed map w) (spawns : List MonsterSpawnData) :
    Leashed map (w.spawnMonsters spawns) := by
  induction spawns generalizing w with
  | nil => exact h
  | cons data rest ih =>
      refine ih ?_
      unfold spawnMonster
      dsimp only
      split
      · exact h
      · next sm spawn hadd =>
          have hwalk := SectorManager.isWalkable_of_addObject hadd
          rw [h.map_eq] at hwalk
          refine ⟨h.map_eq, fun t ht => ?_⟩
          rw [tethers, MonsterTable.push, List.map_append, List.map_singleton] at ht
          rcases List.mem_append.mp ht with ht | ht
          · exact h.onLeash t ht
          · -- a new monster stands on the tile it belongs to
            rw [List.mem_singleton.mp ht]
            exact onLeash_home hwalk _

theorem leashed_init (map : Map) (spawns : List MonsterSpawnData) (now : ℕ) :
    Leashed map (GameWorld.init map spawns now).world := by
  have hempty : Leashed map (World.empty map now) :=
    ⟨rfl, fun t ht => absurd ht List.not_mem_nil⟩
  exact (hempty.spawnMonsters spawns).still (.of_eq rfl rfl)

end World

end Mmorpg
