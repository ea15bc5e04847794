/-
`Server/Game/GameWorld`: start, login, logout, saving, and the dispatch of
timer events.

`GameWorld` adds to the world the claimed database ids and the queue
`PostSaveTask` pushes to. The handlers of the other modules have the type
`World → World`, so they cannot touch either.

Two things here are not in the source. `departures` is a log of the players
`ProcessDisconnect` took out, as they were, oldest first, and a save task
carries in `stamp` how many departures of its character the log had when the
task was posted. Nothing is decided by them: they say which save is the one of
the last departure.
-/
import SimplestMmorpg.Game.MonsterAi
import SimplestMmorpg.Game.Requests

set_option autoImplicit false

namespace Mmorpg

open ViewProcessor

namespace World

variable (env : Env)

/-- `SpawnMonsters`: one step of the loop. An entry without a free tile is
skipped. -/
def spawnMonster (w : World) (data : MonsterSpawnData) : World :=
  let id := monsterIdOffset + w.monsters.entries.length
  match w.sectorManager.addObject id data.pos w.map with
  | none => w
  | some (sectorManager, spawn) =>
    -- `SetPos` after the constructor writes the position it already has
    { w with sectorManager := sectorManager, monsters := w.monsters.push data spawn }

/-- `SpawnMonsters`. -/
def spawnMonsters (spawns : List MonsterSpawnData) (w : World) : World :=
  spawns.foldl spawnMonster w

/-- The members before `Init`, with the map that `Init` loads. -/
def empty (map : Map) (now : ℕ) : World where
  map := map
  sectorManager := .init
  players := .empty
  monsters := .empty
  timers := []
  sent := []
  now := now
  nextSerial := 0

/-- `AddPlayer`; `none` stands for `INVALID_PLAYER_ID`. -/
def addPlayer (id : ObjectID) (session : ConnId) (row : PlayerRow) (w : World) : Option World :=
  let player := Player.ofRow id session row w.nextSerial
  match w.sectorManager.addObject id ⟨row.x, row.y⟩ w.map with
  | none => none
  | some (sectorManager, spawn) =>
    let w := { w with sectorManager := sectorManager, nextSerial := w.nextSerial + 1 }
    some (w.setPlayer (player.setPos spawn))

/-- `SC_LOGIN_OK`. -/
def loginOkPkt (player : Player) : ScPacket :=
  .loginOk player.id player.pos player.level (toUInt32 player.exp) player.hp player.maxHp

/-- What `OnLoginDBLoaded` does for a player that was added. -/
def welcome (session : ConnId) (player : Player) (w : World) : World :=
  let w := w.send session (loginOkPkt player)
  let w := w.sendAll (sendFullView env w player)
  w.activateNearbyMonsters env player.pos

/-- What `ProcessDisconnect` does in the world. -/
def leave (player : Player) (w : World) : World :=
  let w := w.sendAll (sendDisappear env w player)
  let w := { w with sectorManager := w.sectorManager.removeObject player.id player.pos }
  w.removePlayer player.id

end World

/-- What is posted to the save worker. -/
inductive SaveTask where
  | savePlayer (row : PlayerRow) (stamp : ℕ)
  | updateLastLogin (dbId : Int)
  deriving DecidableEq, Repr

structure GameWorld where
  world : World
  activeDbIds : List Int
  saveQueue : List SaveTask
  departures : List Player

namespace GameWorld

variable (env : Env) (gw : GameWorld)

/-- How often a character has left. -/
def departureCount (dbId : Int) : ℕ := gw.departures.countP fun p => p.dbId = dbId

/-- The character as it left the last time. -/
def lastDeparture (dbId : Int) : Option Player :=
  (gw.departures.filter fun p => p.dbId = dbId).getLast?

/-- `TryClaimDbId` succeeds on an id that is not claimed, and claims it. -/
def tryClaimDbId (dbId : Int) : Option GameWorld :=
  if dbId ∈ gw.activeDbIds then none
  else some { gw with activeDbIds := dbId :: gw.activeDbIds }

def releaseDbId (dbId : Int) : GameWorld :=
  { gw with activeDbIds := gw.activeDbIds.filter (· ≠ dbId) }

/-- `PostSaveTask`. -/
def postSaveTask (task : SaveTask) : GameWorld := { gw with saveQueue := gw.saveQueue ++ [task] }

/-- `OnLoginDBFailed`, with what `GetSession` returned. -/
def onLoginDBFailed (session : Option ConnId) (reason : LoginFailReason) : GameWorld :=
  match session with
  | none => gw
  | some conn => { gw with world := gw.world.send conn (.loginFail reason) }

/-- `OnLoginDBLoaded`, with what `GetSession` returned. -/
def onLoginDBLoaded (sessionId : ObjectID) (session : Option ConnId) (row : PlayerRow) :
    GameWorld :=
  match session with
  | none => gw
  | some conn =>
    match gw.tryClaimDbId row.id with
    | none => gw.onLoginDBFailed session .duplicateLogin
    | some gw =>
      match gw.world.addPlayer sessionId conn row with
      | none => gw.onLoginDBFailed session .spawnFull
      | some w =>
        match w.getPlayer sessionId with
        | none => { gw with world := w }
        | some player =>
          { gw with world := w.welcome env conn player }.postSaveTask (.updateLastLogin row.id)

/-- `ProcessDisconnect`. -/
def processDisconnect (id : ObjectID) : GameWorld :=
  match gw.world.getPlayer id with
  | none => gw
  | some player =>
    let saveRow := player.snapshot
    let gw := { gw with world := gw.world.leave env player }
    let gw := gw.releaseDbId player.dbId
    let gw := { gw with departures := gw.departures ++ [player] }
    gw.postSaveTask (.savePlayer saveRow (gw.departureCount player.dbId))

/-- `SaveAllPlayers`. -/
def saveAllPlayers : GameWorld :=
  let snapshots := (env.iter (gw.world.players.entries.map (·.id))).filterMap fun id =>
    (gw.world.getPlayer id).map (·.snapshot)
  snapshots.foldl (fun gw row => gw.postSaveTask (.savePlayer row (gw.departureCount row.id))) gw

/-- `HandleTimerEvent`. -/
def handleTimerEvent (type : TimerType) (targetId : ObjectID) : GameWorld :=
  match type with
  | .hpRegen => { gw with world := gw.world.hpRegen targetId }
  | .monsterAi => { gw with world := gw.world.monsterAi env targetId }
  | .monsterRespawn => { gw with world := gw.world.respawnMonster env targetId }
  | .dbSave =>
    let gw := gw.saveAllPlayers env
    { gw with world := gw.world.addTimer .dbSave 0 dbSaveIntervalMs none }

/-- The game when the server starts, the first `DB_SAVE` timer included. -/
def init (map : Map) (spawns : List MonsterSpawnData) (now : ℕ) : GameWorld where
  world := ((World.empty map now).spawnMonsters spawns).addTimer .dbSave 0 dbSaveIntervalMs none
  activeDbIds := []
  saveQueue := []
  departures := []

end GameWorld

end Mmorpg
