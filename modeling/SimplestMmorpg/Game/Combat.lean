/-
The part of `Server/Game/GameWorld` that players and monsters share: waking
monsters, death and respawn, regeneration, and the timers that carry them.
-/
import SimplestMmorpg.Game.ViewProcessor

set_option autoImplicit false

namespace Mmorpg.World

open ViewProcessor

variable (env : Env)

/-! ## Waking monsters -/

/-- `ActivateNearbyMonsters`: one step of the loop. -/
def activateMonster (p : Position) (w : World) (id : ObjectID) : World :=
  match w.getMonster id with
  | none => w
  | some monster =>
    if monster.isDead then w
    else if ¬ isInView p monster.pos then w
    else
      match monster.tryActivate with
      | none => w
      | some monster => (w.setMonster monster).addTimer .monsterAi id monsterAiTickMs none

/-- `ActivateNearbyMonsters`. `getMonster` refuses the ids below the offset. -/
def activateNearbyMonsters (p : Position) (w : World) : World :=
  (w.getNearbyObjects env p).foldl (activateMonster p) w

/-- `HasObserverNearby`. -/
def hasObserverNearby (monster : Monster) (w : World) : Bool :=
  ¬ (playersInView env w monster.pos).isEmpty

/-- Send one packet to everyone who has a tile in view. -/
def broadcast (p : Position) (pkt : ScPacket) (w : World) : World :=
  w.sendAll ((playersInView env w p).map fun player => (player.session, pkt))

/-- `BroadcastAttackEffect`. -/
def broadcastAttackEffect (attackerId : ObjectID) (p : Position) (w : World) : World :=
  w.broadcast env p (.attackEffect attackerId p)

/-- `BroadcastAddMonster`. -/
def broadcastAddMonster (monster : Monster) (w : World) : World :=
  w.broadcast env monster.pos (.addObject monster.remote)

/-! ## Death of a player -/

/-- `OnPlayerDied`. When no tile is free it returns after the error message. -/
def onPlayerDied (victim : Player) (w : World) : World :=
  let w := w.sendAll (sendDisappear env w victim)
  let w := { w with sectorManager := w.sectorManager.removeObject victim.id victim.pos }
  let victim := victim.die.stopRegen
  let w := w.setPlayer victim
  match w.sectorManager.addObject victim.id ⟨0, 0⟩ w.map with
  | none => w
  | some (sectorManager, respawn) =>
    let victim := victim.setPos respawn
    let w := { w with sectorManager := sectorManager }
    let w := w.setPlayer victim
    let w := w.send victim.session victim.statPkt
    let w := w.send victim.session (.moveObject victim.id respawn 0)
    let w := w.sendAll (sendFullView env w victim)
    w.activateNearbyMonsters env respawn

/-- The victim of a death after it. -/
def afterDeath (victim : Player) (respawn : Position) : Player :=
  victim.die.stopRegen.setPos respawn

variable {env} in
/-- A death that finds a tile: only the last of the two writes to the player counts. -/
theorem onPlayerDied_of_some {victim : Player} {w : World} {sm : SectorManager}
    {respawn : Position}
    (h : (w.sectorManager.removeObject victim.id victim.pos).addObject victim.id ⟨0, 0⟩ w.map =
      some (sm, respawn)) :
    w.onPlayerDied env victim =
      let left := { w.sendAll (sendDisappear env w victim) with sectorManager := sm }
      let back := left.setPlayer (afterDeath victim respawn)
      let told := (back.send victim.session (afterDeath victim respawn).statPkt).send victim.session
        (.moveObject victim.id respawn 0)
      (told.sendAll (sendFullView env told (afterDeath victim respawn))).activateNearbyMonsters
        env respawn := by
  have h' : (w.sectorManager.removeObject victim.id victim.pos).addObject victim.die.stopRegen.id
      ⟨0, 0⟩ w.map = some (sm, respawn) := h
  have hins : ((w.players.insert victim.die.stopRegen).insert (afterDeath victim respawn)) =
      w.players.insert (afterDeath victim respawn) := PlayerTable.insert_insert rfl
  unfold onPlayerDied
  simp only [sendAll, setPlayer, h']
  rw [show victim.die.stopRegen.setPos respawn = afterDeath victim respawn from rfl, hins]
  rfl

variable {env} in
/-- A death that finds no tile ends after the error message: the player is off
its tile. -/
theorem onPlayerDied_of_none {victim : Player} {w : World}
    (h : (w.sectorManager.removeObject victim.id victim.pos).addObject victim.id ⟨0, 0⟩ w.map =
      none) :
    w.onPlayerDied env victim = { w.sendAll (sendDisappear env w victim) with
      sectorManager := w.sectorManager.removeObject victim.id victim.pos }.setPlayer
        victim.die.stopRegen := by
  have h' : (w.sectorManager.removeObject victim.id victim.pos).addObject victim.die.stopRegen.id
      ⟨0, 0⟩ w.map = none := h
  unfold onPlayerDied
  simp only [sendAll, setPlayer, h']

/-! ## Death and respawn of a monster -/

/-- The reward, the first part of `OnMonsterDied`. -/
def rewardKiller (monster : Monster) (killer : Player) (w : World) : World :=
  let killer := killer.gainExp monster.getExpReward
  let w := w.setPlayer killer
  w.send killer.session killer.statPkt

/-- The rest of `OnMonsterDied`: the monster goes away, and comes back later. -/
def buryMonster (monster : Monster) (w : World) : World :=
  let w := w.broadcast env monster.pos (.removeObject monster.id)
  let w := { w with sectorManager := w.sectorManager.removeObject monster.id monster.pos }
  w.addTimer .monsterRespawn monster.id monsterRespawnMs none

/-- `OnMonsterDied`. -/
def onMonsterDied (monster : Monster) (killer : Player) (w : World) : World :=
  (w.rewardKiller monster killer).buryMonster env monster

/-- `RespawnMonster`. When no tile is free it tries again later. -/
def respawnMonster (monsterId : ObjectID) (w : World) : World :=
  match w.getMonster monsterId with
  | none => w
  | some monster =>
    match w.sectorManager.addObject monsterId monster.spawnPos w.map with
    | none => w.addTimer .monsterRespawn monsterId monsterRespawnMs none
    | some (sectorManager, out) =>
      let monster := monster.respawn.setPos out
      let w := { w with sectorManager := sectorManager }
      let w := w.setMonster monster
      let w := w.broadcastAddMonster env monster
      if w.hasObserverNearby env monster then
        match monster.tryActivate with
        | none => w
        | some monster => (w.setMonster monster).addTimer .monsterAi monsterId monsterAiTickMs none
      else w

/-- The monster is not there, or finds no tile and tries again later, or stands on a
tile that those in view are told, and may be woken at once. -/
theorem respawnMonster_cases (id : ObjectID) (w : World) : w.respawnMonster env id = w ∨
    (∃ monster, w.getMonster id = some monster ∧
      w.sectorManager.addObject id monster.spawnPos w.map = none ∧
      w.respawnMonster env id = w.addTimer .monsterRespawn id monsterRespawnMs none) ∨
    ∃ monster sm out v, w.getMonster id = some monster ∧
      w.sectorManager.addObject id monster.spawnPos w.map = some (sm, out) ∧
      v = ({ w with sectorManager := sm }.setMonster (monster.respawn.setPos out)).broadcastAddMonster
        env (monster.respawn.setPos out) ∧
      (w.respawnMonster env id = v ∨
        ∃ monster', (monster.respawn.setPos out).tryActivate = some monster' ∧
          w.respawnMonster env id =
            (v.setMonster monster').addTimer .monsterAi id monsterAiTickMs none) := by
  unfold respawnMonster
  cases hm : w.getMonster id with
  | none => exact .inl rfl
  | some monster =>
      right
      dsimp only
      cases hadd : w.sectorManager.addObject id monster.spawnPos w.map with
      | none => exact .inl ⟨monster, rfl, hadd, rfl⟩
      | some placed =>
          refine .inr ⟨monster, placed.1, placed.2, _, rfl, hadd, rfl, ?_⟩
          dsimp only
          split
          · cases hact : (monster.respawn.setPos placed.2).tryActivate with
            | none => exact .inl rfl
            | some monster' => exact .inr ⟨monster', rfl, rfl⟩
          · exact .inl rfl

/-! ## Hits on a player, and regeneration -/

/-- `AddTimer` for the regeneration of a player. -/
def addRegenTimer (player : Player) (w : World) : World :=
  w.addTimer .hpRegen player.id hpRegenIntervalMs (some player.serial)

/-- `TryStartRegen`, and the timer when it succeeds. -/
def startRegen (player : Player) (w : World) : World :=
  match player.tryStartRegen with
  | none => w
  | some player => (w.setPlayer player).addRegenTimer player

/-- `SendCombatMessage`. -/
def sendCombatMessage (receiver : Player) (attackerId targetId : ObjectID) (damage : Int)
    (w : World) : World :=
  w.send receiver.session (.combatMessage attackerId targetId damage)

/-- `MonsterAttackPlayer`. -/
def monsterAttackPlayer (attacker : Monster) (victim : Player) (w : World) : World :=
  if victim.isDead then w
  else
    let damage : Int := attacker.level.toNat * 5
    let victim := victim.takeDamage damage
    let w := w.setPlayer victim
    let w := w.sendCombatMessage victim attacker.id victim.id damage
    let w := w.send victim.session victim.statPkt
    -- the source tests `IsDead` once for the timer and once for the death
    if victim.isDead then w.onPlayerDied env victim else w.startRegen victim

/-- `StopRegenAndMaybeRestart`. -/
def stopRegenAndMaybeRestart (player : Player) (w : World) : World :=
  let player := player.stopRegen
  let w := w.setPlayer player
  if player.hp < player.maxHp then w.startRegen player else w

/-- `HandleTimerEvent` for `HP_REGEN`. -/
def hpRegen (targetId : ObjectID) (w : World) : World :=
  match w.getPlayer targetId with
  | none => w
  | some player =>
    if player.isDead then w.setPlayer player.stopRegen
    else if player.maxHp ≤ player.hp then w.stopRegenAndMaybeRestart player
    else
      let player := player.regenHP
      let w := w.setPlayer player
      let w := w.send player.session player.statPkt
      if player.maxHp ≤ player.hp then w.stopRegenAndMaybeRestart player
      else w.addRegenTimer player

end Mmorpg.World
