/-
Login, disconnect and accept as threads.

`OnLoginDBLoaded`, `DisconnectSession` and `OnAccept` run on different workers.
Each step below is one critical section or one access to `m_sessions`, in the
order of the source; the search for a free tile is one step, and so are the reads
that go into one packet. A thread that runs by itself does what `GameWorld` and
`Server` say.

`m_disconnected` is a member of `Session`; here it is read by the connection, so
that a worker that has looked a session up before it was deleted finds it marked
afterwards. That its memory is then gone is not modelled.
-/
import SimplestMmorpg.Lib.Interleave
import SimplestMmorpg.Server.Server

set_option autoImplicit false

namespace Mmorpg

/-- What the workers share: the game, `m_sessions`, the pool of ids, and
`m_disconnected` of every session. -/
structure Registry where
  game : GameWorld
  sessions : ObjectID → Option ConnId
  availableIds : List ObjectID
  nextConn : ConnId
  marked : ConnId → Bool

namespace Registry

variable (r : Registry)

/-- The server when it starts. -/
def init (map : Map) (spawns : List MonsterSpawnData) (now : ℕ) : Registry where
  game := .init map spawns now
  sessions := fun _ => none
  availableIds := List.range' 0 maxPlayers
  nextConn := 0
  marked := fun _ => false

def getSession (id : ObjectID) : Option ConnId := if id < maxPlayers then r.sessions id else none

def onGame (f : GameWorld → GameWorld) : Registry := { r with game := f r.game }

def onWorld (f : World → World) : Registry :=
  { r with game := { r.game with world := f r.game.world } }

def withSectors (sm : SectorManager) : Registry :=
  r.onWorld fun w => { w with sectorManager := sm }

def sectors : SectorManager := r.game.world.sectorManager

end Registry

/-- What `OnLoginDBLoaded` does next. -/
inductive LoginPc where
  | getSession
  | tryClaimDbId (conn : ConnId)
  | tryClaimNearby (conn : ConnId)
  | sectorInsert (conn : ConnId) (spawn : Position)
  | insertPlayer (conn : ConnId) (spawn : Position)
  | getPlayer (conn : ConnId)
  | sendLoginOk (conn : ConnId) (player : Player)
  | sendFullView (player : Player)
  | activate (player : Player)
  | postSaveTask
  | loginFailed (reason : LoginFailReason)
  | done
  deriving DecidableEq, Repr

/-- What the worker of a broken connection does next. -/
inductive DisconnectPc where
  | lookup
  | tryMarkDisconnected (conn : ConnId)
  | getPlayer (conn : ConnId)
  | sendDisappear (conn : ConnId) (player : Player)
  | release (conn : ConnId) (player : Player)
  | sectorErase (conn : ConnId) (player : Player)
  | removePlayer (conn : ConnId) (player : Player)
  | releaseDbId (conn : ConnId) (player : Player)
  | postSaveTask (conn : ConnId) (player : Player)
  | clearSession (conn : ConnId)
  | freeSessionId
  | done
  deriving DecidableEq, Repr

/-- What `OnAccept` does next. -/
inductive AcceptPc where
  | allocSessionId
  | store (id : ObjectID)
  | done
  deriving DecidableEq, Repr

inductive Worker where
  | login (env : Env) (sessionId : ObjectID) (row : PlayerRow) (pc : LoginPc)
  | disconnect (env : Env) (key : ObjectID) (pc : DisconnectPc)
  | accept (pc : AcceptPc)

/-- What a worker is given to handle. -/
inductive Task where
  | loginLoaded (env : Env) (sessionId : ObjectID) (row : PlayerRow)
  | broken (env : Env) (key : ObjectID)
  | accepted

/-- The worker before its first step. -/
def Task.worker : Task → Worker
  | .loginLoaded env sessionId row => .login env sessionId row .getSession
  | .broken env key => .disconnect env key .lookup
  | .accepted => .accept .allocSessionId

namespace Worker

/-- The next step of `OnLoginDBLoaded`. -/
def actLogin (env : Env) (sessionId : ObjectID) (row : PlayerRow) (r : Registry) (pc : LoginPc) :
    Registry × LoginPc :=
  match pc with
  | .getSession =>
    match r.getSession sessionId with
    | none => (r, .done)
    | some conn => (r, .tryClaimDbId conn)
  | .tryClaimDbId conn =>
    match r.game.tryClaimDbId row.id with
    | none => (r, .loginFailed .duplicateLogin)
    | some game => ({ r with game := game }, .tryClaimNearby conn)
  -- `AddPlayer`
  | .tryClaimNearby conn =>
    match r.sectors.tryClaimNearby sessionId ⟨row.x, row.y⟩ 20 r.game.world.map with
    | none => (r, .loginFailed .spawnFull)
    | some (sm, spawn) => (r.withSectors sm, .sectorInsert conn spawn)
  | .sectorInsert conn spawn =>
    (r.withSectors (r.sectors.sectorInsert (getSectorCoord spawn) sessionId),
      .insertPlayer conn spawn)
  | .insertPlayer conn spawn =>
    (r.onWorld fun w =>
      { w with nextSerial := w.nextSerial + 1 }.setPlayer
        ((Player.ofRow sessionId conn row w.nextSerial).setPos spawn), .getPlayer conn)
  | .getPlayer conn =>
    match r.game.world.getPlayer sessionId with
    | none => (r, .done)
    | some player => (r, .sendLoginOk conn player)
  | .sendLoginOk conn player =>
    (r.onWorld fun w => w.send conn (World.loginOkPkt player), .sendFullView player)
  | .sendFullView player =>
    (r.onWorld fun w => w.sendAll (ViewProcessor.sendFullView env w player), .activate player)
  | .activate player =>
    (r.onWorld fun w => w.activateNearbyMonsters env player.pos, .postSaveTask)
  | .postSaveTask => (r.onGame (·.postSaveTask (.updateLastLogin row.id)), .done)
  | .loginFailed reason => (r.onGame (·.onLoginDBFailed (r.getSession sessionId) reason), .done)
  | .done => (r, .done)

/-- The next step of the worker that found a connection broken. -/
def actDisconnect (env : Env) (key : ObjectID) (r : Registry) (pc : DisconnectPc) :
    Registry × DisconnectPc :=
  match pc with
  | .lookup =>
    match r.sessions key with
    | none => (r, .done)
    | some conn => (r, .tryMarkDisconnected conn)
  | .tryMarkDisconnected conn =>
    if r.marked conn then (r, .done)
    else ({ r with marked := Function.update r.marked conn true }, .getPlayer conn)
  -- `ProcessDisconnect`
  | .getPlayer conn =>
    match r.game.world.getPlayer key with
    | none => (r, .clearSession conn)
    | some player => (r, .sendDisappear conn player)
  | .sendDisappear conn player =>
    (r.onWorld fun w => w.sendAll (ViewProcessor.sendDisappear env w player), .release conn player)
  | .release conn player =>
    (r.withSectors (r.sectors.release player.pos key), .sectorErase conn player)
  | .sectorErase conn player =>
    (r.withSectors (r.sectors.sectorErase (getSectorCoord player.pos) key),
      .removePlayer conn player)
  | .removePlayer conn player => (r.onWorld (·.removePlayer key), .releaseDbId conn player)
  | .releaseDbId conn player => (r.onGame (·.releaseDbId player.dbId), .postSaveTask conn player)
  | .postSaveTask conn player =>
    (r.onGame fun gw =>
      let gw := { gw with departures := gw.departures ++ [player] }
      gw.postSaveTask (.savePlayer player.snapshot (gw.departureCount player.dbId)),
      .clearSession conn)
  -- the rest of `DisconnectSession`
  | .clearSession _ =>
    ({ r with sessions := Function.update r.sessions key none }, .freeSessionId)
  | .freeSessionId => ({ r with availableIds := r.availableIds ++ [key] }, .done)
  | .done => (r, .done)

/-- The next step of `OnAccept`. -/
def actAccept (r : Registry) (pc : AcceptPc) : Registry × AcceptPc :=
  match pc with
  | .allocSessionId =>
    match r.availableIds with
    | [] => (r, .done)
    | id :: rest => ({ r with availableIds := rest }, .store id)
  | .store id =>
    ({ r with
      sessions := Function.update r.sessions id (some r.nextConn)
      nextConn := r.nextConn + 1 }, .done)
  | .done => (r, .done)

/-- The next step of a worker. -/
def act (r : Registry) : Worker → Registry × Worker
  | .login env sessionId row pc =>
    let out := actLogin env sessionId row r pc
    (out.1, .login env sessionId row out.2)
  | .disconnect env key pc =>
    let out := actDisconnect env key r pc
    (out.1, .disconnect env key out.2)
  | .accept pc =>
    let out := actAccept r pc
    (out.1, .accept out.2)

/-! ## A worker by itself -/

open Interleave

variable {env : Env} {r u : Registry} {id key : ObjectID} {conn : ConnId} {row : PlayerRow}
  {p : Player}

/-- One step of `OnLoginDBLoaded`, and then the rest. -/
theorem goes_login {pc n : LoginPc} {y : Registry × Worker} (h : actLogin env id row r pc = (u, n))
    (hrest : Goes act (u, .login env id row n) y) : Goes act (r, .login env id row pc) y := by
  apply Goes.head
  simp only [act, h]
  exact hrest

/-- One step of a disconnect, and then the rest. -/
theorem goes_disconnect {pc n : DisconnectPc} {y : Registry × Worker}
    (h : actDisconnect env key r pc = (u, n)) (hrest : Goes act (u, .disconnect env key n) y) :
    Goes act (r, .disconnect env key pc) y := by
  apply Goes.head
  simp only [act, h]
  exact hrest

/-- One step of an accept, and then the rest. -/
theorem goes_accept {pc n : AcceptPc} {y : Registry × Worker} (h : actAccept r pc = (u, n))
    (hrest : Goes act (u, .accept n) y) : Goes act (r, .accept pc) y := by
  apply Goes.head
  simp only [act, h]
  exact hrest

/-- What comes after the player is in the table. -/
theorem goes_welcome (hp : r.game.world.getPlayer id = some p) :
    Goes act (r, .login env id row (.getPlayer conn))
      (r.onGame fun gw => { gw with world := gw.world.welcome env conn p }.postSaveTask
        (.updateLastLogin row.id), .login env id row .done) := by
  refine goes_login (u := r) (n := .sendLoginOk conn p) (by rw [actLogin, hp]) ?_
  refine goes_login rfl ?_
  refine goes_login rfl ?_
  refine goes_login rfl ?_
  exact goes_login rfl (.refl _)

/-- **A login that runs by itself is `OnLoginDBLoaded`.** -/
theorem goes_onLoginDBLoaded (env : Env) (id : ObjectID) (row : PlayerRow) (r : Registry) :
    Goes act (r, .login env id row .getSession)
      (r.onGame (·.onLoginDBLoaded env id (r.getSession id) row), .login env id row .done) := by
  unfold GameWorld.onLoginDBLoaded Registry.onGame
  cases hs : r.getSession id with
  | none => exact goes_login (n := .done) (by rw [actLogin, hs]) (.refl _)
  | some conn =>
      refine goes_login (u := r) (n := .tryClaimDbId conn) (by rw [actLogin, hs]) ?_
      dsimp only
      cases hc : r.game.tryClaimDbId row.id with
      | none =>
          refine goes_login (u := r) (n := .loginFailed .duplicateLogin) (by rw [actLogin, hc]) ?_
          refine goes_login rfl ?_
          rw [hs]
          exact .refl _
      | some gw =>
          refine goes_login (u := { r with game := gw }) (n := .tryClaimNearby conn)
            (by rw [actLogin, hc]) ?_
          dsimp only
          have hs' : ({ r with game := gw } : Registry).getSession id = some conn := hs
          unfold World.addPlayer SectorManager.addObject
          cases hn : gw.world.sectorManager.tryClaimNearby id ⟨row.x, row.y⟩ 20 gw.world.map with
          | none =>
              refine goes_login (u := { r with game := gw }) (n := .loginFailed .spawnFull) ?_ ?_
              · have hn' : ({ r with game := gw } : Registry).sectors.tryClaimNearby id
                    ⟨row.x, row.y⟩ 20 gw.world.map = none := hn
                rw [actLogin, hn']
              · refine goes_login rfl ?_
                rw [hs']
                exact .refl _
          | some placed =>
              obtain ⟨sm, spawn⟩ := placed
              refine goes_login (u := Registry.withSectors { r with game := gw } sm)
                (n := .sectorInsert conn spawn) ?_ ?_
              · have hn' : ({ r with game := gw } : Registry).sectors.tryClaimNearby id
                    ⟨row.x, row.y⟩ 20 gw.world.map = some (sm, spawn) := hn
                rw [actLogin, hn']
              refine goes_login rfl ?_
              refine goes_login rfl ?_
              dsimp only
              have hp := (World.getPlayer_setPlayer (w := { gw.world with
                sectorManager := sm.sectorInsert (getSectorCoord spawn) id
                nextSerial := gw.world.nextSerial + 1 })
                ((Player.ofRow id conn row gw.world.nextSerial).setPos spawn) id).trans (if_pos rfl)
              rw [hp]
              exact goes_welcome hp

/-- **A disconnect that runs by itself is `DisconnectSession`.** -/
theorem goes_disconnectSession (env : Env) (hs : r.sessions key = some conn)
    (hm : r.marked conn = false) :
    Goes act (r, .disconnect env key .lookup)
      ({ r with
        game := r.game.processDisconnect env key
        sessions := Function.update r.sessions key none
        availableIds := r.availableIds ++ [key]
        marked := Function.update r.marked conn true }, .disconnect env key .done) := by
  refine goes_disconnect (u := r) (n := .tryMarkDisconnected conn) (by rw [actDisconnect, hs]) ?_
  refine goes_disconnect (u := { r with marked := Function.update r.marked conn true })
    (n := .getPlayer conn) ?_ ?_
  · rw [actDisconnect, if_neg (by rw [hm]; exact Bool.false_ne_true)]
  unfold GameWorld.processDisconnect
  cases hp : r.game.world.getPlayer key with
  | none =>
      refine goes_disconnect (n := .clearSession conn) (by rw [actDisconnect, hp]) ?_
      refine goes_disconnect rfl ?_
      exact goes_disconnect rfl (.refl _)
  | some p =>
      obtain rfl := World.getPlayer_id hp
      refine goes_disconnect (n := .sendDisappear conn p) (by rw [actDisconnect, hp]) ?_
      refine goes_disconnect rfl ?_
      -- the tile, the sector, the table and the claim
      refine goes_disconnect rfl ?_
      refine goes_disconnect rfl ?_
      refine goes_disconnect rfl ?_
      refine goes_disconnect rfl ?_
      refine goes_disconnect rfl ?_
      refine goes_disconnect rfl ?_
      exact goes_disconnect rfl (.refl _)

/-- **An accept that runs by itself is `OnAccept`.** -/
theorem goes_onAccept (r : Registry) :
    Goes act (r, .accept .allocSessionId)
      ((match r.availableIds with
        | [] => r
        | id :: rest =>
          { r with
            availableIds := rest
            sessions := Function.update r.sessions id (some r.nextConn)
            nextConn := r.nextConn + 1 }), .accept .done) := by
  cases havail : r.availableIds with
  | nil => exact goes_accept (n := .done) (by rw [actAccept, havail]) (.refl _)
  | cons id rest =>
      refine goes_accept (u := { r with availableIds := rest }) (n := .store id)
        (by rw [actAccept, havail]) ?_
      exact goes_accept rfl (.refl _)

end Worker

end Mmorpg
