/-
The running server: sessions, the handlers, the two database workers and the
timers, one step at a time.

## What a step is

`IOCPServer::WorkerThread` takes one completion after the other; a step here
is one of them handled to its end, or one task of a database worker. Which
completion comes next is not fixed: a run is any list of events. An event that
does not apply to the state it meets (a packet on a closed session, the tenth
timer when there are three) does nothing.

A packet arrives as the buffer `HandlePacket` is called with, the packet's own
bytes followed by whatever `packetBuf` held, and the size that was popped.
Timer events may fire in any order and at any time; `Timely` is the condition
that one fires when it is due.

## What is not in the source

Connections are numbered, a login carries the number of the connection that
sent it (`conn`), and a result carries how many departures of its character
the stored row had seen when it was read (`stamp`, from `savedStamp`). No step
depends on them.
-/
import SimplestMmorpg.Game.GameWorld

set_option autoImplicit false

namespace Mmorpg

/-- What `ProcessLogin` posts to the login worker. -/
structure LoginTask where
  sessionId : ObjectID
  name : Bytes
  conn : ConnId
  deriving DecidableEq, Repr

/-- Which of the two callbacks is invoked on an IOCP worker. -/
inductive LoginResult where
  | loaded (row : PlayerRow)
  | failed (reason : LoginFailReason)
  deriving DecidableEq, Repr

/-- A `DBCompletionOverlapped` on its way. -/
structure Completion where
  sessionId : ObjectID
  result : LoginResult
  conn : ConnId
  stamp : ℕ
  deriving DecidableEq, Repr

structure Server where
  game : GameWorld
  sessions : ObjectID → Option ConnId
  availableIds : List ObjectID
  nextConn : ConnId
  loginQueue : List LoginTask
  completions : List Completion
  store : PlayerStore
  savedStamp : Int → ℕ

namespace Server

variable (env : Env) (s : Server)

/-- `IOCPServer::Init`, after `GameWorld::Init`. -/
def init (map : Map) (spawns : List MonsterSpawnData) (now : ℕ) (store : PlayerStore) : Server where
  game := .init map spawns now
  sessions := fun _ => none
  availableIds := List.range' 0 maxPlayers
  nextConn := 0
  loginQueue := []
  completions := []
  store := store
  savedStamp := fun _ => 0

/-! ## Sessions -/

/-- `GetSession`. -/
def getSession (id : ObjectID) : Option ConnId := if id < maxPlayers then s.sessions id else none

/-- `OnAccept`; when no id is free the socket is closed. -/
def onAccept : Server :=
  match s.availableIds with
  | [] => s
  | id :: rest =>
    { s with
      availableIds := rest
      sessions := Function.update s.sessions id (some s.nextConn)
      nextConn := s.nextConn + 1 }

theorem onAccept_cons {s : Server} {id : ObjectID} {rest : List ObjectID}
    (h : s.availableIds = id :: rest) :
    s.onAccept =
      { s with
        availableIds := rest
        sessions := Function.update s.sessions id (some s.nextConn)
        nextConn := s.nextConn + 1 } := by
  rw [onAccept, h]

/-- `DisconnectSession`. -/
def disconnectSession (id : ObjectID) : Server :=
  match s.sessions id with
  | none => s
  | some _ =>
    { s with
      game := s.game.processDisconnect env id
      sessions := Function.update s.sessions id none
      availableIds := s.availableIds ++ [id] }

/-! ## Packets -/

/-- `ProcessLogin`: the name is read up to its terminator. -/
def processLogin (id : ObjectID) (conn : ConnId) (data : Bytes) : Server :=
  { s with loginQueue := s.loginQueue ++ [⟨id, (data.drop 4).takeWhile (· ≠ 0), conn⟩] }

/-- A handler that only works on the world. -/
def onWorld (f : World → World) : Server :=
  { s with game := { s.game with world := f s.game.world } }

/-- The request a packet is, when `HandlePacket` accepts its size and type. -/
def requestOf (data : Bytes) (size : ℕ) : Option CsType :=
  if size < sizeofPacketHeader ∨ headerSize data ≠ size then none
  else
    [CsType.login, .move, .attack, .chat, .teleport].find? fun t =>
      headerType data = t.code ∧ size = t.sizeof

/-- What `packetBuf` holds beyond the packet does not matter for that. -/
theorem requestOf_append (s t : Bytes) (size : ℕ) (h : sizeofPacketHeader ≤ s.length) :
    requestOf (s ++ t) size = requestOf s size := by
  rw [requestOf, requestOf, headerSize_append s t h, headerType_append s t h]

/-- `HandlePacket`. -/
def handlePacket (id : ObjectID) (conn : ConnId) (data : Bytes) (size : ℕ) : Server :=
  match requestOf data size with
  | none => s
  | some .login => s.processLogin id conn data
  | some .move => s.onWorld (·.processMove env id conn data)
  | some .attack => s.onWorld (·.processAttack env id)
  | some .chat => s.onWorld (·.processChat env id data)
  | some .teleport => s.onWorld (·.processTeleport env id conn)

/-! ## The database workers -/

/-- What the task of `ProcessLogin` finds; `loadOk` and `createOk` are whether
the two database operations succeed. -/
def loginOutcome (loadOk createOk : Bool) (name : Bytes) : PlayerStore × LoginResult :=
  if ¬ loadOk then (s.store, .failed .dbError)
  else
    match s.store.loadPlayerByName name with
    | some row => (s.store, .loaded row)
    | none =>
      if ¬ createOk then (s.store, .failed .dbError)
      else
        match s.store.createPlayer name with
        | none => (s.store, .failed .dbError)
        | some (store, newId) => (store, .loaded ⟨newId, name, 1, 0, 100, 100, 0, 0⟩)

def stampOf : LoginResult → ℕ
  | .loaded row => s.savedStamp row.id
  | .failed _ => 0

/-- One task of the login worker. -/
def loginWorker (loadOk createOk : Bool) : Server :=
  match s.loginQueue with
  | [] => s
  | task :: rest =>
    let (store, result) := s.loginOutcome loadOk createOk task.name
    { s with
      loginQueue := rest
      store := store
      completions := s.completions ++ [⟨task.sessionId, result, task.conn, s.stampOf result⟩] }

/-- `SavePlayer` in the save worker. -/
def savePlayer (row : PlayerRow) (stamp : ℕ) : Server :=
  match s.store.savePlayer row with
  | none => s
  | some store =>
    { s with store := store, savedStamp := Function.update s.savedStamp row.id stamp }

/-- One task of the save worker; `saveOk` is whether the database operation
succeeds. `UpdateLastLogin` writes no column that is modelled. -/
def saveWorker (saveOk : Bool) : Server :=
  match s.game.saveQueue with
  | [] => s
  | task :: rest =>
    let s := { s with game := { s.game with saveQueue := rest } }
    match task with
    | .savePlayer row stamp => if saveOk then s.savePlayer row stamp else s
    | .updateLastLogin _ => s

/-- The login worker does not touch the game. -/
theorem game_loginWorker (s : Server) (loadOk createOk : Bool) :
    (s.loginWorker loadOk createOk).game = s.game := by
  unfold loginWorker
  split
  · rfl
  · rfl

/-- The save worker touches nothing of it but the queue. -/
theorem world_saveWorker (s : Server) (saveOk : Bool) :
    (s.saveWorker saveOk).game.world = s.game.world := by
  unfold saveWorker
  split
  · rfl
  · dsimp only
    split
    · split
      · unfold savePlayer
        dsimp only
        split
        · rfl
        · rfl
      · rfl
    · rfl

/-- The callback of a database completion. -/
def runCallback (c : Completion) : Server :=
  let session := s.getSession c.sessionId
  match c.result with
  | .loaded row => { s with game := s.game.onLoginDBLoaded env c.sessionId session row }
  | .failed reason => { s with game := s.game.onLoginDBFailed session reason }

/-! ## Steps -/

inductive Event where
  | tick (ms : ℕ)
  | accept
  | close (id : ObjectID) (env : Env)
  | packet (id : ObjectID) (data : Bytes) (size : ℕ) (env : Env)
  | loginWorker (loadOk createOk : Bool)
  | saveWorker (saveOk : Bool)
  | complete (k : ℕ) (env : Env)
  | timer (k : ℕ) (env : Env)

/-- The timer event is taken from the queue and handled. -/
def fireTimer (k : ℕ) : Server :=
  match s.game.world.timers[k]? with
  | none => s
  | some ev =>
    let s := s.onWorld fun w => { w with timers := w.timers.eraseIdx k }
    { s with game := s.game.handleTimerEvent env ev.type ev.targetId }

/-- The database completion is taken from the port and handled. -/
def deliver (k : ℕ) : Server :=
  match s.completions[k]? with
  | none => s
  | some c => { s with completions := s.completions.eraseIdx k }.runCallback env c

def step (s : Server) : Event → Server
  | .tick ms => s.onWorld fun w => { w with now := w.now + ms }
  | .accept => s.onAccept
  | .close id env => s.disconnectSession env id
  | .packet id data size env =>
    match s.sessions id with
    | none => s
    | some conn => s.handlePacket env id conn data size
  | .loginWorker loadOk createOk => s.loginWorker loadOk createOk
  | .saveWorker saveOk => s.saveWorker saveOk
  | .complete k env => s.deliver env k
  | .timer k env => s.fireTimer env k

/-- A timer event fires when it is due, not before. -/
def Timely (s : Server) : Event → Prop
  | .timer k _ => ∀ ev, s.game.world.timers[k]? = some ev → ev.fireTime ≤ s.game.world.now
  | _ => True

end Server

end Mmorpg
