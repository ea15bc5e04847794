/-
The leash over whole runs.

Nothing is asked of the map, of the spawn script or of the steps: a monster that
found no tile was not made, and one that finds none when it should come back
stays dead where it fell. So every monster is on its leash at any time, and the
tick of any of them is one step at most.

`AITick` runs when its event has been taken from the queue, so what is said of a
tick is said for every queue of timers.
-/
import SimplestMmorpg.Game.Leash
import SimplestMmorpg.Lib.Transition
import SimplestMmorpg.Server.PlacementRun

set_option autoImplicit false

namespace Mmorpg

open Transition
open Pathfinder (manhattan)

namespace World

variable {w w' : World} {id : ObjectID} {m : Monster} {new : Position} {map : Map}

/-- The monster is where it was, or on a tile beside that was walkable and free. -/
def StaysOrSteps (map : Map) (w : World) (old new : Position) : Prop :=
  new = old ∨ manhattan old new = 1 ∧ map.isWalkable new.x new.y = true ∧
    w.sectorManager.getOccupant new = invalidId

/-- Every monster, dead or alive, is on a walkable tile within its range, and a
tick moves it by one tile at most. -/
structure OnLeashes (map : Map) (w : World) : Prop where
  walkable : ∀ id m, w.getMonster id = some m → map.isWalkable m.pos.x m.pos.y = true
  near : ∀ id m, w.getMonster id = some m →
    (m.pos.x - m.spawnPos.x).natAbs ≤ roamingRange ∧ (m.pos.y - m.spawnPos.y).natAbs ≤ roamingRange
  tick : ∀ (env : Env) (timers : List TimerEvent) id m, w.getMonster id = some m →
    ∃ m', ({ w with timers := timers }.aiTick env m).getMonster id = some m' ∧
      StaysOrSteps map w m.pos m'.pos

/-- A monster is still there after a change that moves none. -/
theorem Still.getMonster (h : Still w w') (hm : w.getMonster id = some m) :
    ∃ m', w'.getMonster id = some m' ∧ m'.tether = m.tether := by
  have hge := monsterIdOffset_le_of_getMonster hm
  unfold World.getMonster MonsterTable.find at hm ⊢
  rw [if_neg (Nat.not_lt.mpr hge)] at hm ⊢
  have hentry := congrArg (fun l => l[id - monsterIdOffset]?) h.tethers
  simp only [World.tethers, List.getElem?_map, hm] at hentry
  exact Option.map_eq_some_iff.mp hentry

theorem Strides.getMonster (h : Strides w w' m new) (hm : w.getMonster m.id = some m) :
    w'.getMonster m.id = some (m.setPos new) := by
  have hset : w'.getMonster m.id = (w.setMonster (m.setPos new)).getMonster m.id :=
    congrArg (fun t => MonsterTable.find t m.id) h.monsters
  rw [hset, getMonster_setMonster (m := m.setPos new) hm]
  exact if_pos rfl

theorem Leashed.onLeashes (h : Leashed map w) : OnLeashes map w where
  walkable id m hm := (h.monster hm).walkable
  near id m hm := ⟨(h.monster hm).near_x, (h.monster hm).near_y⟩
  tick env timers id m hm := by
    obtain rfl := getMonster_id hm
    have hin : InMap m.pos := map.inMap_of_isWalkable (h.monster hm).walkable
    -- the queue has no part in what is decided
    have hm' : ({ w with timers := timers } : World).getMonster m.id = some m := hm
    rcases aiTick_spec env hm' hin with hstill | ⟨new, hstep⟩
    · obtain ⟨m', hget, ht⟩ := hstill.getMonster hm'
      exact ⟨m', hget, .inl (congrArg Monster.Tether.pos ht)⟩
    · have hwalk : map.isWalkable new.x new.y = true := h.map_eq ▸ hstep.walkable
      exact ⟨m.setPos new, hstep.getMonster hm', .inr ⟨hstep.beside, hwalk, hstep.free⟩⟩

end World

namespace Server

open World

variable {s : Server} {env : Env} {map : Map}

/-! ## One step -/

theorem leashed_handlePacket (h : Leashed map s.game.world) (id : ObjectID) (conn : ConnId)
    (data : Bytes) (size : ℕ) : Leashed map (s.handlePacket env id conn data size).game.world := by
  unfold handlePacket
  split
  · exact h
  · exact h
  · exact h.still (still_processMove env id conn data _)
  · exact h.still (still_processAttack env id _)
  · exact h.still (inert_processChat env id data _).still
  · exact h.still (still_processTeleport env id conn _)

theorem leashed_handleTimerEvent {g : GameWorld} (h : Leashed map g.world) (type : TimerType)
    (targetId : ObjectID) : Leashed map (g.handleTimerEvent env type targetId).world := by
  cases type with
  | hpRegen => exact h.still (still_hpRegen targetId _)
  | monsterAi => exact h.monsterAi env targetId
  | monsterRespawn => exact h.respawnMonster env targetId
  | dbSave =>
      simp only [GameWorld.handleTimerEvent]
      rw [world_saveAllPlayers]
      exact h.still (.of_eq rfl rfl)

/-- **Every step keeps the monsters on their leashes.** -/
theorem leashed_step (s : Server) (e : Event) (h : Leashed map s.game.world) :
    Leashed map (s.step e).game.world := by
  have hstep := worldStep s e
  generalize (s.step e).game.world = w at hstep ⊢
  cases hstep with
  | idle => exact h
  | tick ms => exact h.still (.of_eq rfl rfl)
  | left id env conn p hs hp => exact h.still (still_leave env p _)
  | packet id data size env conn hs => exact leashed_handlePacket h id conn data size
  | refused => exact h.still (.of_eq rfl rfl)
  | joined k env c conn row v p hc hrow ho hfree hadd hp =>
      exact h.still ((still_addPlayer hadd).trans (still_welcome env conn p v))
  | fired k env ev hev =>
      -- the event is out of the queue when its handler is called
      have hrest : Leashed map { s.game.world with timers := s.game.world.timers.eraseIdx k } :=
        h.still (.of_eq rfl rfl)
      exact leashed_handleTimerEvent (g := { s.game with world := _ }) hrest ev.type ev.targetId

/-! ## Whole runs -/

theorem leashed_run (map : Map) (spawns : List MonsterSpawnData) (now : ℕ) (store : PlayerStore)
    (es : List Event) : Leashed map (run step (init map spawns now store) es).game.world :=
  Transition.invariant (I := fun s => Leashed map s.game.world)
    (fun s e h _ => leashed_step s e h) (leashed_init map spawns now) along_true

/-- **Monsters stay on their leashes**: for every map, every spawn script, and
every order of every number of steps, whatever is drawn in them. -/
theorem onLeashes_run (map : Map) (spawns : List MonsterSpawnData) (now : ℕ) (store : PlayerStore)
    (es : List Event) : OnLeashes map (run step (init map spawns now store) es).game.world :=
  (leashed_run map spawns now store es).onLeashes

end Server

end Mmorpg
