/-
The handlers of `Server/Game/GameWorld` for the requests of a player in the
world: move, teleport, attack and chat.

A handler gets the session the request came from, as its id and the
connection its answers go to, and the bytes of the packet.
-/
import SimplestMmorpg.Game.Combat

set_option autoImplicit false

namespace Mmorpg.World

open ViewProcessor

variable (env : Env)

/-! ## Moving -/

/-- What `ProcessMove` does once the new tile is claimed. -/
def moveTo (session : ConnId) (player : Player) (new : Position) (moveTime : ℕ)
    (sectorManager : SectorManager) (w : World) : World :=
  let w := { w with sectorManager := sectorManager }
  let moved := (player.setPos new).onMoved w.now
  let w := w.setPlayer moved
  let w := w.sendAll (processMoveView env w (ofPlayer moved) player.pos)
  let w := w.activateNearbyMonsters env new
  w.send session (.moveObject player.id new moveTime)

/-- `ProcessMove`. The direction is any byte: `DX` and `DY` are read at it
without a check. -/
def processMove (id : ObjectID) (session : ConnId) (data : Bytes) (w : World) : World :=
  match w.getPlayer id with
  | none => w
  | some player =>
    if ¬ player.canMove w.now then w
    else
      let new := env.towards player.pos (byteAt data 4)
      if ¬ w.map.isWalkable new.x new.y then w
      else
        match w.sectorManager.tryMoveObject id player.pos new with
        | none => w
        | some sectorManager => w.moveTo env session player new (readLE data 5 8) sectorManager

/-- A move is refused, or the tile was free and is claimed. -/
theorem processMove_cases (id : ObjectID) (session : ConnId) (data : Bytes) (w : World) :
    w.processMove env id session data = w ∨ ∃ player new sm, w.getPlayer id = some player ∧
      player.canMove w.now = true ∧ new = env.towards player.pos (byteAt data 4) ∧
      w.map.isWalkable new.x new.y = true ∧
      w.sectorManager.tryMoveObject id player.pos new = some sm ∧
      w.processMove env id session data = w.moveTo env session player new (readLE data 5 8) sm := by
  unfold processMove
  cases hp : w.getPlayer id with
  | none => exact .inl rfl
  | some player =>
      dsimp only
      split
      · exact .inl rfl
      · next hcan =>
          split
          · exact .inl rfl
          · next hwalk =>
              cases hmove : w.sectorManager.tryMoveObject id player.pos
                  (env.towards player.pos (byteAt data 4)) with
              | none => exact .inl rfl
              | some sm =>
                  exact .inr ⟨player, _, sm, rfl, not_not.mp hcan, rfl, not_not.mp hwalk, hmove, rfl⟩

/-- The two attempts of `ProcessTeleport` to find a tile. When both fail the
position is whatever the variables held. -/
def placeTeleported (id : ObjectID) (w : World) (sectorManager : SectorManager) :
    SectorManager × Position :=
  match sectorManager.addObject id env.target w.map with
  | some placed => placed
  | none => (sectorManager.addObject id ⟨0, 0⟩ w.map).getD (sectorManager, env.indeterminate)

/-- One attempt finds a tile, or both fail and nothing is placed. -/
theorem placeTeleported_cases (id : ObjectID) (w : World) (sm : SectorManager) :
    (∃ c, sm.addObject id c w.map = some (w.placeTeleported env id sm)) ∨
      sm.addObject id env.target w.map = none ∧ sm.addObject id ⟨0, 0⟩ w.map = none ∧
        w.placeTeleported env id sm = (sm, env.indeterminate) := by
  unfold placeTeleported
  cases h1 : sm.addObject id env.target w.map with
  | some placed => exact .inl ⟨_, h1⟩
  | none =>
      cases h2 : sm.addObject id ⟨0, 0⟩ w.map with
      | some placed => exact .inl ⟨_, h2⟩
      | none => exact .inr ⟨rfl, rfl, rfl⟩

/-- `ProcessTeleport`. -/
def processTeleport (id : ObjectID) (session : ConnId) (w : World) : World :=
  match w.getPlayer id with
  | none => w
  | some player =>
    let old := player.pos
    let (sectorManager, new) :=
      w.placeTeleported env id (w.sectorManager.removeObject id old)
    let w := { w with sectorManager := sectorManager }
    let player := player.setPos new
    let w := w.setPlayer player
    let w := w.sendAll (processMoveView env w (ofPlayer player) old)
    let w := w.activateNearbyMonsters env new
    w.send session (.moveObject id new 0)

/-- There is nobody to move, or the player is put where a tile was found for it. -/
theorem processTeleport_cases (id : ObjectID) (session : ConnId) (w : World) :
    w.processTeleport env id session = w ∨
    ∃ player sm new, w.getPlayer id = some player ∧
      w.placeTeleported env id (w.sectorManager.removeObject id player.pos) = (sm, new) ∧
      w.processTeleport env id session =
        let moved := { w with sectorManager := sm }.setPlayer (player.setPos new)
        ((moved.sendAll (processMoveView env moved (ofPlayer (player.setPos new))
          player.pos)).activateNearbyMonsters env new).send session (.moveObject id new 0) := by
  unfold processTeleport
  cases hp : w.getPlayer id with
  | none => exact .inl rfl
  | some player => exact .inr ⟨player, _, _, rfl, rfl, rfl⟩

/-! ## Attacking -/

/-- What an attack does to a monster that is alive. -/
def strike (id : ObjectID) (damage : Int) (target : Monster) (w : World) : World :=
  let target := target.takeDamage damage
  let w := w.setMonster target
  match w.getPlayer id with
  | none => w
  | some player =>
    let w := w.sendCombatMessage player player.id target.id damage
    if target.isDead then w.onMonsterDied env target player else w

/-- The attack in one of the four directions. -/
def attackDirection (id : ObjectID) (p : Position) (damage : Int) (w : World) (d : ℕ) : World :=
  let targetId := w.sectorManager.getOccupant (env.towards p d)
  if targetId = invalidId then w
  else if targetId < monsterIdOffset then w
  else
    match w.getMonster targetId with
    | none => w
    | some target => if target.isDead then w else w.strike env id damage target

/-- A direction holds no monster that is alive, or that monster is struck. -/
theorem attackDirection_cases (id : ObjectID) (p : Position) (damage : Int) (w : World) (d : ℕ) :
    w.attackDirection env id p damage d = w ∨
      ∃ target, w.getMonster target.id = some target ∧ target.isDead = false ∧
        w.attackDirection env id p damage d = w.strike env id damage target := by
  unfold attackDirection
  dsimp only
  split
  · exact .inl rfl
  · split
    · exact .inl rfl
    · cases hm : w.getMonster (w.sectorManager.getOccupant (env.towards p d)) with
      | none => exact .inl rfl
      | some target =>
          dsimp only
          split
          · exact .inl rfl
          · next halive =>
              exact .inr ⟨target, by rw [getMonster_id hm]; exact hm, by simpa using halive, rfl⟩

/-- `ProcessAttack`. The position and the damage are those of the player when
the request is handled. -/
def processAttack (id : ObjectID) (w : World) : World :=
  match w.getPlayer id with
  | none => w
  | some player =>
    if ¬ player.canAttack w.now then w
    else
      let damage : Int := player.level.toNat * 10
      let w := (List.range 4).foldl (attackDirection env id player.pos damage) w
      let w := w.broadcastAttackEffect env player.id player.pos
      w.modifyPlayer id (·.onAttackPerformed w.now)

/-! ## Talking -/

/-- `ProcessChat`. -/
def processChat (id : ObjectID) (data : Bytes) (w : World) : World :=
  match w.getPlayer id with
  | none => w
  | some sender =>
    if ¬ sender.canChat w.now then w
    else
      let sender := sender.onChatPerformed w.now
      let w := w.setPlayer sender
      let safeMsg := strncpyTruncate 128 ((data.drop 5).take 128)
      if safeMsg = [] then w
      else
        let channel := byteAt data 4
        let pkt : ScPacket := .chat id channel (strncpyTruncate 32 sender.name) safeMsg
        if channel = 1 then
          -- `BroadcastChatGlobal`: everyone in `m_players`
          w.sendAll ((env.iter (w.players.entries.map (·.id))).filterMap fun id =>
            (w.getPlayer id).map fun player => (player.session, pkt))
        else w.broadcast env sender.pos pkt

end Mmorpg.World
