/-
Saving while handlers are under way, up to `IOCPServer::ShutDown`.

## What runs at the same time

The steps of `Server` handle one completion to its end. Here the two handlers
that save, and the main thread in `ShutDown`, are taken apart at the locks that
decide what is written when. `SaveAllPlayers` takes its snapshots under
`m_playersMutex` and posts them one at a time under `m_saveMutex`.
`ProcessDisconnect` takes its snapshot first, then takes the player out, then
posts, and `DisconnectSession` frees the session after it. Any number of these
are under way at once, `handlers`, and any of them goes on next; the other
handlers stay whole. `Race/OneSession` has the disconnect at a finer grain, for
what the tables hold in between.

A worker reads `m_running` and begins its handler in one step: in between the
main thread can only clear the flag, and it may as well do so right after.
A timer event that the timer thread has posted is still in `timers`, so after
`TimerManager::Stop` those that were due then may be handled, and no others.

## What is not in the source

A snapshot is numbered when it is taken; the number is the stamp of its save
task. `snaps`, `executed` and `written` are all snapshots taken, those whose
task the save worker has executed, and those that reached the store, `left` the
players that left `m_players`, as they were, and `atShutDown` the players in it
when `ShutDown` began. Nothing is decided by them.
-/
import SimplestMmorpg.Server.Leaving
import SimplestMmorpg.Server.Progress

set_option autoImplicit false

namespace Mmorpg

/-- A row `SnapshotPlayer` returned; snapshots are numbered in the order in which
they are taken. -/
structure Snapshot where
  row : PlayerRow
  number : ℕ
  deriving DecidableEq, Repr

/-- What a handler that is under way has still to do. -/
inductive SaveHandler where
  /-- `SaveAllPlayers` for a `DB_SAVE` event, with the rows still to post. -/
  | saveAll (rows : List Snapshot)
  /-- `ProcessDisconnect` past `SnapshotPlayer`, with the object `GetPlayer` gave it. -/
  | leaving (player : Player) (row : Snapshot) (env : Env)
  | posting (id : ObjectID) (row : Snapshot)
  /-- `DisconnectSession` past `ProcessDisconnect`. -/
  | closing (id : ObjectID)

namespace SaveHandler

/-- The snapshots the handler has taken and not posted. -/
def held : SaveHandler → List Snapshot
  | .saveAll rows => rows
  | .leaving _ row _ => [row]
  | .posting _ row => [row]
  | .closing _ => []

/-- The session that is marked as disconnected. -/
def session : SaveHandler → Option ObjectID
  | .saveAll _ => none
  | .leaving player _ _ => some player.id
  | .posting id _ => some id
  | .closing id => some id

/-- The object a disconnect holds is the one in the table, as long as it is there. -/
def follow (w : World) : SaveHandler → SaveHandler
  | .leaving player row env =>
    match w.getPlayer player.id with
    | some p => if p.serial = player.serial then .leaving p row env else .leaving player row env
    | none => .leaving player row env
  | h => h

end SaveHandler

/-- Where the main thread is in `IOCPServer::ShutDown`. -/
inductive ShutDownPc where
  | up
  /-- `SaveAllPlayers`, with the rows still to post. -/
  | saving (rows : List Snapshot)
  | joiningDb
  | stoppingTimers
  | stoppingWorkers
  | joiningWorkers
  | closingSessions
  | clearing
  | returned
  deriving DecidableEq, Repr

namespace ShutDownPc

/-- `m_running` of the server. -/
def running : ShutDownPc → Bool
  | .up => true
  | .saving _ => true
  | .joiningDb => true
  | .stoppingTimers => true
  | .stoppingWorkers => true
  | _ => false

/-- `m_running` of the database manager. -/
def dbRunning : ShutDownPc → Bool
  | .up => true
  | .saving _ => true
  | _ => false

/-- The snapshots `ShutDown` has taken and not posted. -/
def held : ShutDownPc → List Snapshot
  | .saving rows => rows
  | _ => []

end ShutDownPc

structure Saving where
  server : Server
  handlers : List SaveHandler
  pc : ShutDownPc
  loginEnded : Bool
  saveEnded : Bool
  stoppedAt : Option ℕ
  snaps : List Snapshot
  executed : List Snapshot
  written : List Snapshot
  left : List Player
  atShutDown : List Player

namespace Saving

variable (env : Env) (s : Saving)

/-- The server has just started. -/
def init (server : Server) : Saving where
  server := server
  handlers := []
  pc := .up
  loginEnded := false
  saveEnded := false
  stoppedAt := none
  snaps := []
  executed := []
  written := []
  left := []
  atShutDown := []

def world : World := s.server.game.world

def saveQueue : List SaveTask := s.server.game.saveQueue

/-- The snapshots that are taken and not posted. -/
def held : List Snapshot := s.handlers.flatMap SaveHandler.held ++ s.pc.held

/-- The row of a save task. -/
def rowOf : SaveTask → Option Snapshot
  | .savePlayer row stamp => some ⟨row, stamp⟩
  | .updateLastLogin _ => none

/-- The snapshots that are posted, oldest task first. -/
def posted : List Snapshot := s.executed ++ s.saveQueue.filterMap rowOf

/-! ## The parts of the two handlers -/

/-- The numbers of snapshots that are taken one after the other. -/
def numbered (n : ℕ) (rows : List PlayerRow) : List Snapshot :=
  (rows.zipIdx n).map fun x => ⟨x.1, x.2⟩

/-- The snapshot phase of `SaveAllPlayers`. -/
def snapshots : List Snapshot :=
  numbered s.snaps.length ((env.iter (s.world.players.entries.map (·.id))).filterMap fun id =>
    (s.world.getPlayer id).map (·.snapshot))

/-- `PostSaveTask` of one row. -/
def post (row : Snapshot) : Saving :=
  { s with
    server := { s.server with game := s.server.game.postSaveTask (.savePlayer row.row row.number) } }

/-- `ProcessDisconnect` from `SendDisappear` to `ReleaseDbId`. -/
def depart (player : Player) : Saving :=
  let gw := { s.server.game with world := s.world.leave env player }
  let gw := gw.releaseDbId player.dbId
  { s with
    server := { s.server with game := { gw with departures := gw.departures ++ [player] } }
    left := s.left ++ (s.world.getPlayer player.id).toList }

/-! ## The workers -/

/-- A handler that is not taken apart. -/
def atomic (e : Server.Event) : Saving :=
  { s with
    server := s.server.step e
    handlers := s.handlers.map (·.follow (s.server.step e).game.world) }

/-- `OnLoginDBLoaded` will put a player into the table. -/
def admits (c : Completion) : Bool :=
  match c.result with
  | .failed _ => false
  | .loaded row =>
    (s.server.getSession c.sessionId).isSome && decide (row.id ∉ s.server.game.activeDbIds) &&
      (s.world.sectorManager.addObject c.sessionId ⟨row.x, row.y⟩ s.world.map).isSome

/-- The player `AddPlayer` will overwrite. -/
def overwritten (k : ℕ) : List Player :=
  match s.server.completions[k]? with
  | none => []
  | some c => if s.admits c then (s.world.getPlayer c.sessionId).toList else []

def complete (k : ℕ) : Saving :=
  { s.atomic (.complete k env) with left := s.left ++ s.overwritten k }

/-- `DisconnectSession`, up to the snapshot. -/
def close (id : ObjectID) : Saving :=
  match s.server.sessions id with
  | none => s
  | some _ =>
    -- `TryMarkDisconnected`
    if s.handlers.any fun h => h.session = some id then s
    else
      match s.world.getPlayer id with
      | none => { s with handlers := s.handlers ++ [.closing id] }
      | some player =>
        let row : Snapshot := ⟨player.snapshot, s.snaps.length⟩
        { s with
          snaps := s.snaps ++ [row]
          handlers := s.handlers ++ [.leaving player row env] }

/-- The timer thread has posted the event before it was stopped. -/
def delivered (ev : TimerEvent) : Bool :=
  match s.stoppedAt with
  | none => true
  | some t => ev.fireTime ≤ t

/-- A timer event is handled; a `DB_SAVE` event up to the end of the snapshot phase. -/
def timer (k : ℕ) : Saving :=
  match s.world.timers[k]? with
  | none => s
  | some ev =>
    if ¬ s.delivered ev then s
    else if ev.type = .dbSave then
      { s with
        server := s.server.onWorld fun w => { w with timers := w.timers.eraseIdx k }
        snaps := s.snaps ++ s.snapshots env
        handlers := s.handlers ++ [.saveAll (s.snapshots env)] }
    else s.atomic (.timer k env)

/-- A handler that is under way goes on. -/
def act (k : ℕ) : Saving :=
  match s.handlers[k]? with
  | none => s
  | some (.saveAll []) =>
    { s with
      server := s.server.onWorld (·.addTimer .dbSave 0 dbSaveIntervalMs none)
      handlers := s.handlers.eraseIdx k }
  | some (.saveAll (row :: rows)) => { s.post row with handlers := s.handlers.set k (.saveAll rows) }
  | some (.leaving player row env) =>
    { s.depart env player with handlers := s.handlers.set k (.posting player.id row) }
  | some (.posting id row) => { s.post row with handlers := s.handlers.set k (.closing id) }
  | some (.closing id) =>
    { s with
      server :=
        { s.server with
          sessions := Function.update s.server.sessions id none
          availableIds := s.server.availableIds ++ [id] }
      handlers := s.handlers.eraseIdx k }

/-! ## The database workers -/

/-- The next turn of the login worker: a task, or the end of the thread. -/
def loginWorker (loadOk createOk : Bool) : Saving :=
  if s.loginEnded then s
  else if s.server.loginQueue = [] then
    if s.pc.dbRunning then s else { s with loginEnded := true }
  else { s with server := s.server.loginWorker loadOk createOk }

/-- `SavePlayer` will succeed. -/
def saves (saveOk : Bool) (row : Snapshot) : Bool :=
  saveOk && (s.server.store.savePlayer row.row).isSome

/-- The next turn of the save worker. -/
def saveWorker (saveOk : Bool) : Saving :=
  if s.saveEnded then s
  else
    match s.saveQueue with
    | [] => if s.pc.dbRunning then s else { s with saveEnded := true }
    | task :: _ =>
      { s with
        server := s.server.saveWorker saveOk
        executed := s.executed ++ (rowOf task).toList
        written := s.written ++ (rowOf task).toList.filter (s.saves saveOk) }

/-! ## `IOCPServer::ShutDown` -/

/-- `ShutDown` is called; `SaveAllPlayers` takes its snapshots. -/
def shutDown : Saving :=
  if s.pc = .up then
    { s with
      pc := .saving (s.snapshots env)
      snaps := s.snaps ++ s.snapshots env
      atShutDown := s.world.players.entries }
  else s

/-- `ProcessDisconnect` in one go. -/
def processDisconnect (id : ObjectID) : Saving :=
  match s.world.getPlayer id with
  | none => s
  | some player =>
    let row : Snapshot := ⟨player.snapshot, s.snaps.length⟩
    ({ s with snaps := s.snaps ++ [row] }.depart env player).post row

/-- The loop over `m_sessions`: one session. Nobody else runs any more. -/
def closeSession (id : ObjectID) : Saving :=
  match s.server.sessions id with
  | none => s
  | some _ =>
    let s := s.processDisconnect env id
    { s with server := { s.server with sessions := Function.update s.server.sessions id none } }

/-- The loop over `m_sessions`. -/
def closeSessions : Saving := (List.range maxPlayers).foldl (closeSession env) s

/-- `GameWorld::Shutdown`. -/
def clear : Saving :=
  { s with
    server := s.server.onWorld fun w => { w with players := .empty }
    left := s.left ++ s.world.players.entries }

/-- The main thread goes on; a join waits as long as a thread is left. -/
def main : Saving :=
  match s.pc with
  | .up => s
  | .saving (row :: rows) => { s.post row with pc := .saving rows }
  | .saving [] => { s with pc := .joiningDb }
  | .joiningDb => if s.loginEnded ∧ s.saveEnded then { s with pc := .stoppingTimers } else s
  | .stoppingTimers => { s with pc := .stoppingWorkers, stoppedAt := some s.world.now }
  | .stoppingWorkers => { s with pc := .joiningWorkers }
  | .joiningWorkers => if s.handlers.isEmpty then { s with pc := .closingSessions } else s
  | .closingSessions => { s.closeSessions env with pc := .clearing }
  | .clearing => { s.clear with pc := .returned }
  | .returned => s

/-! ## Steps -/

inductive Event where
  | tick (ms : ℕ)
  | accept
  | packet (id : ObjectID) (data : Bytes) (size : ℕ) (env : Env)
  | complete (k : ℕ) (env : Env)
  | close (id : ObjectID) (env : Env)
  | timer (k : ℕ) (env : Env)
  | act (k : ℕ)
  | loginWorker (loadOk createOk : Bool)
  | saveWorker (saveOk : Bool)
  | shutDown (env : Env)
  | main (env : Env)

/-- A completion is handled only while `m_running` is set. -/
def step (s : Saving) : Event → Saving
  | .tick ms => { s with server := s.server.step (.tick ms) }
  | .accept => if s.pc.running then s.atomic .accept else s
  | .packet id data size env => if s.pc.running then s.atomic (.packet id data size env) else s
  | .complete k env => if s.pc.running then s.complete env k else s
  | .close id env => if s.pc.running then s.close env id else s
  | .timer k env => if s.pc.running then s.timer env k else s
  | .act k => s.act k
  | .loginWorker loadOk createOk => s.loginWorker loadOk createOk
  | .saveWorker saveOk => s.saveWorker saveOk
  | .shutDown env => s.shutDown env
  | .main env => s.main env

/-- The row a step posts, of those that are held. -/
def posting (s : Saving) : Event → Option Snapshot
  | .act k =>
    match s.handlers[k]? with
    | some (.saveAll (row :: _)) => some row
    | some (.posting _ row) => some row
    | _ => none
  | .main _ => s.pc.held.head?
  | _ => none

end Saving

/-! ## Handlers that are not taken apart

They save nobody. Who is in the table changes in a login that is admitted, and
in no other of them. -/

namespace World

variable {w w' : World} {env : Env} {id : ObjectID}

/-- The same characters are in the table, under the same ids. -/
def SamePlayers (w w' : World) : Prop :=
  ∀ id, (w'.getPlayer id).map (·.dbId) = (w.getPlayer id).map (·.dbId)

theorem Steady.samePlayers (h : Steady w w') : SamePlayers w w' := by
  intro id
  have hwho := congrArg (Option.map Player.Who.dbId) (h.players id)
  rw [Option.map_map, Option.map_map] at hwho
  exact hwho

/-- The connection that a packet came on decides to whom the answer is sent, and
nothing about the players. -/
theorem samePlayers_processMove (session : ConnId) (data : Bytes) :
    SamePlayers w (w.processMove env id session data) := by
  intro i
  cases hp : w.getPlayer id with
  | none =>
      unfold processMove
      rw [hp]
  | some p =>
      have hcalm : Calm w (w.processMove env id p.session data) := by
        apply calm_processMove
        intro q hq
        rw [hp] at hq
        rw [Option.some.inj hq]
      rw [← hcalm.toSteady.samePlayers i]
      unfold processMove
      rw [hp]
      dsimp only
      split
      · rfl
      · split
        · rfl
        · split <;> rfl

theorem samePlayers_processTeleport (session : ConnId) :
    SamePlayers w (w.processTeleport env id session) := by
  intro i
  cases hp : w.getPlayer id with
  | none =>
      unfold processTeleport
      rw [hp]
  | some p =>
      have hcalm : Calm w (w.processTeleport env id p.session) := by
        apply calm_processTeleport
        intro q hq
        rw [hp] at hq
        rw [Option.some.inj hq]
      rw [← hcalm.toSteady.samePlayers i]
      unfold processTeleport
      rw [hp]
      rfl

end World

namespace Saving

/-- What a handler leaves that neither saves nor lets anybody in or out. -/
structure Aside (s s' : Server) : Prop where
  saveQueue : s'.game.saveQueue = s.game.saveQueue
  store : s'.store = s.store
  players : World.SamePlayers s.game.world s'.game.world

/-- What an admitted login leaves: the player is in the table, and the time of the
login is posted to the save worker. -/
structure Admitted (s s' : Server) (id : ObjectID) (row : PlayerRow) : Prop where
  saveQueue : s'.game.saveQueue = s.game.saveQueue ++ [.updateLastLogin row.id]
  store : s'.store = s.store
  players : ∀ i, (s'.game.world.getPlayer i).map (·.dbId) =
    if i = id then some row.id else (s.game.world.getPlayer i).map (·.dbId)

open World

theorem aside_accept (s : Server) : Aside s (s.step .accept) := by
  simp only [Server.step, Server.onAccept]
  split
  · exact ⟨rfl, rfl, fun _ => rfl⟩
  · exact ⟨rfl, rfl, fun _ => rfl⟩

theorem aside_packet (s : Server) (id : ObjectID) (data : Bytes) (size : ℕ) (env : Env) :
    Aside s (s.step (.packet id data size env)) := by
  simp only [Server.step]
  split
  · exact ⟨rfl, rfl, fun _ => rfl⟩
  · unfold Server.handlePacket
    split
    · exact ⟨rfl, rfl, fun _ => rfl⟩
    · exact ⟨rfl, rfl, fun _ => rfl⟩
    · exact ⟨rfl, rfl, samePlayers_processMove _ _⟩
    · exact ⟨rfl, rfl, calm_processAttack.toSteady.samePlayers⟩
    · exact ⟨rfl, rfl, (inert_processChat env id data _).steady.samePlayers⟩
    · exact ⟨rfl, rfl, samePlayers_processTeleport _⟩

theorem aside_timer (s : Server) (k : ℕ) (env : Env) {ev : TimerEvent}
    (hev : s.game.world.timers[k]? = some ev) (htype : ev.type ≠ .dbSave) :
    Aside s (s.step (.timer k env)) := by
  have hplayers := (Server.steady_fireTimer s env k).samePlayers
  simp only [Server.step] at hplayers ⊢
  unfold Server.fireTimer at hplayers ⊢
  rw [hev] at hplayers ⊢
  dsimp only at hplayers ⊢
  refine ⟨?_, rfl, hplayers⟩
  unfold GameWorld.handleTimerEvent
  split
  · rfl
  · rfl
  · rfl
  · next h => exact absurd h htype

/-- A login result that is delivered is admitted, or nothing is saved and nobody comes. -/
theorem complete_spec (s : Saving) (k : ℕ) (env : Env) :
    Aside s.server (s.server.step (.complete k env)) ∨
      ∃ c row, s.server.completions[k]? = some c ∧ c.result = .loaded row ∧ s.admits c = true ∧
        Admitted s.server (s.server.step (.complete k env)) c.sessionId row := by
  obtain ⟨hstore, -⟩ := Server.store_deliver s.server env k
  simp only [Server.step]
  rcases Server.deliver_spec s.server env k with hgame | ⟨c, conn, hc, hs, hout⟩
  · left
    exact ⟨by rw [hgame], hstore, fun _ => by rw [hgame]⟩
  · generalize hgw : (s.server.deliver env k).game = gw at hout
    cases hout with
    | failed reason hresult =>
        left
        exact ⟨by rw [hgw], hstore, fun _ => by rw [hgw]; rfl⟩
    | loaded row hresult gw hloaded =>
        cases hloaded with
        | duplicate hactive =>
            left
            exact ⟨by rw [hgw], hstore, fun _ => by rw [hgw]; rfl⟩
        | full hfree hnone =>
            left
            exact ⟨by rw [hgw], hstore, fun _ => by rw [hgw]; rfl⟩
        | added hfree v p hadd hp =>
            right
            have hadmits : s.admits c = true := by
              simp only [admits, hresult, hs, Option.isSome_some, Bool.true_and, Bool.and_eq_true,
                decide_eq_true_eq]
              exact ⟨hfree, Server.isSome_addObject hadd⟩
            refine ⟨c, row, hc, hresult, hadmits, by rw [hgw], hstore, ?_⟩
            intro i
            obtain ⟨spawn, hget⟩ := getPlayer_addPlayer hadd
            rw [hgw]
            dsimp only
            rw [getPlayer_welcome, hget]
            split
            · rfl
            · rfl

/-! ## Handlers that nothing interferes with

They do what they do in a step of the server; only the stamps of the save tasks
are other numbers. -/

open Transition

variable {s : Saving} {k : ℕ} {id : ObjectID} {conn : ConnId} {p : Player} {ev : TimerEvent}

/-- `DisconnectSession` from beginning to end. -/
theorem run_close (env : Env) (hrun : s.pc.running = true) (hnone : s.handlers = [])
    (hs : s.server.sessions id = some conn) (hp : s.world.getPlayer id = some p) :
    let out := s.server.disconnectSession env id
    (run step s [.close id env, .act 0, .act 0, .act 0]).server =
      { out with
        game :=
          { out.game with
            saveQueue := s.saveQueue ++ [.savePlayer p.snapshot s.snaps.length] } } := by
  obtain rfl := getPlayer_id hp
  have hgame : s.server.game.world.getPlayer p.id = some p := hp
  simp [step, hrun, close, hs, hnone, act, depart, post, Server.disconnectSession,
    GameWorld.processDisconnect, hgame, GameWorld.postSaveTask, GameWorld.releaseDbId, saveQueue,
    world]

/-- The posting loop of `SaveAllPlayers`. -/
theorem run_saveAll (rows : List Snapshot) (s : Saving) (h : s.handlers = [.saveAll rows]) :
    (run step s (List.replicate (rows.length + 1) (.act 0))).server =
      { s.server with
        game :=
          { s.server.game with
            world := s.world.addTimer .dbSave 0 dbSaveIntervalMs none
            saveQueue := s.saveQueue ++ rows.map fun x => .savePlayer x.row x.number } } := by
  induction rows generalizing s with
  | nil =>
      simp [step, act, h, Server.onWorld, world, saveQueue]
  | cons row rows ih =>
      have hone : (s.act 0).handlers = [.saveAll rows] := by simp [act, h]
      have hrest := ih (s.act 0) hone
      rw [List.length_cons, List.replicate_succ, run_cons, step, hrest]
      simp [act, h, post, GameWorld.postSaveTask, world, saveQueue]

theorem rows_numbered (n : ℕ) (rows : List PlayerRow) :
    (numbered n rows).map Snapshot.row = rows := by
  have hfst : (numbered n rows).map Snapshot.row = (rows.zipIdx n).map Prod.fst := by
    rw [numbered, List.map_map]
    rfl
  rw [hfst, List.zipIdx_map_fst]

/-- What `SaveAllPlayers` posts in a step of the server. -/
theorem foldl_postSaveTask (rows : List PlayerRow) (gw : GameWorld) :
    rows.foldl (fun gw row => gw.postSaveTask (.savePlayer row (gw.departureCount row.id))) gw =
      { gw with
        saveQueue := gw.saveQueue ++
          rows.map fun row => .savePlayer row (gw.departureCount row.id) } := by
  induction rows generalizing gw with
  | nil => simp
  | cons row rows ih =>
      rw [List.foldl_cons, ih]
      simp [GameWorld.postSaveTask, GameWorld.departureCount]

/-- A `DB_SAVE` event from beginning to end: the same rows are posted in the same
order, and the rest of the server is the same. -/
theorem run_timer (env : Env) (hrun : s.pc.running = true) (hnone : s.handlers = [])
    (hev : s.world.timers[k]? = some ev) (htype : ev.type = .dbSave)
    (hposted : s.delivered ev = true) :
    let out := s.server.fireTimer env k
    let rows := s.snapshots env
    (run step s (.timer k env :: List.replicate (rows.length + 1) (.act 0))).server =
        { out with
          game :=
            { out.game with
              saveQueue := s.saveQueue ++ rows.map fun x => .savePlayer x.row x.number } } ∧
      out.game.saveQueue = s.saveQueue ++ rows.map fun x =>
        .savePlayer x.row (s.server.game.departureCount x.row.id) := by
  have hmap : ((s.snapshots env).map fun x : Snapshot =>
      SaveTask.savePlayer x.row (s.server.game.departureCount x.row.id)) =
      ((env.iter (s.world.players.entries.map (·.id))).filterMap fun id =>
        (s.world.getPlayer id).map (·.snapshot)).map fun row =>
          .savePlayer row (s.server.game.departureCount row.id) := by
    conv_rhs => rw [← rows_numbered s.snaps.length ((env.iter _).filterMap _), List.map_map]
    rfl
  have hgame : s.server.game.world.timers[k]? = some ev := hev
  have hstep : (s.step (.timer k env)).handlers = [.saveAll (s.snapshots env)] := by
    simp [step, hrun, timer, hev, hposted, htype, hnone]
  refine ⟨?_, ?_⟩
  · rw [run_cons, run_saveAll _ _ hstep]
    simp [step, hrun, timer, hposted, htype, Server.fireTimer, hgame, Server.onWorld,
      GameWorld.handleTimerEvent, GameWorld.saveAllPlayers, foldl_postSaveTask, world, saveQueue]
  · rw [hmap]
    simp only [Server.fireTimer, hgame, Server.onWorld, htype, GameWorld.handleTimerEvent,
      GameWorld.saveAllPlayers, foldl_postSaveTask]
    rfl

end Saving

end Mmorpg
