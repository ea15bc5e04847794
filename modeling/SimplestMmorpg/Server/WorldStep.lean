/-
What one event can do to the world.

The sessions, the queues and the store belong to the server; of the game a step
changes little. `WorldStep` has a case for each way the world can change, with
what the step has found, and `worldStep` says that there are no others. What is
shown of the world over runs is shown case by case from it, so that `step` and
the functions it is made of are opened here only.
-/
import SimplestMmorpg.Game.Login
import SimplestMmorpg.Server.Server

set_option autoImplicit false

namespace Mmorpg.Server

open World

variable {env : Env} {s : Server} {id : ObjectID} {conn : ConnId}

theorem getSession_eq_some (h : s.getSession id = some conn) :
    id < maxPlayers ∧ s.sessions id = some conn := by
  unfold getSession at h
  split at h
  · next hid => exact ⟨hid, h⟩
  · exact absurd h (by simp)

/-- What the callback of a login result leaves, when it finds the session open. -/
inductive Outcome (env : Env) (s : Server) (c : Completion) (conn : ConnId) : GameWorld → Prop
  | failed (reason : LoginFailReason) (hresult : c.result = .failed reason) :
      Outcome env s c conn { s.game with world := s.game.world.send conn (.loginFail reason) }
  | loaded (row : PlayerRow) (hresult : c.result = .loaded row) (gw : GameWorld)
      (hloaded : GameWorld.Loaded env s.game c.sessionId conn row gw) : Outcome env s c conn gw

/-- A delivery changes nothing in the game, or has one of the outcomes. -/
theorem deliver_spec (s : Server) (env : Env) (k : ℕ) :
    (s.deliver env k).game = s.game ∨
      ∃ c conn, s.completions[k]? = some c ∧ s.getSession c.sessionId = some conn ∧
        Outcome env s c conn (s.deliver env k).game := by
  unfold deliver
  cases hc : s.completions[k]? with
  | none => exact .inl rfl
  | some c =>
      unfold runCallback
      dsimp only
      have hopen : getSession { s with completions := s.completions.eraseIdx k } c.sessionId =
          s.getSession c.sessionId := rfl
      rw [hopen]
      cases ho : s.getSession c.sessionId with
      | none =>
          left
          cases c.result <;> rfl
      | some conn =>
          right
          refine ⟨c, conn, rfl, ho, ?_⟩
          cases hr : c.result with
          | failed reason => exact .failed reason hr
          | loaded row =>
              exact .loaded row hr _ (GameWorld.onLoginDBLoaded_spec env s.game c.sessionId conn row)

/-- A world whose player came has found a tile for it. -/
theorem isSome_addObject {w v : World} {row : PlayerRow}
    (hadd : w.addPlayer id conn row = some v) :
    (w.sectorManager.addObject id ⟨row.x, row.y⟩ w.map).isSome := by
  obtain ⟨sm, spawn, hsm, -⟩ := addPlayer_eq_some hadd
  rw [hsm]
  rfl

/-- The ways in which an event can leave the world. -/
inductive WorldStep (s : Server) : Event → World → Prop
  | idle (e : Event) : WorldStep s e s.game.world
  | tick (ms : ℕ) : WorldStep s (.tick ms) { s.game.world with now := s.game.world.now + ms }
  | left (id : ObjectID) (env : Env) (conn : ConnId) (p : Player)
      (hs : s.sessions id = some conn) (hp : s.game.world.getPlayer id = some p) :
      WorldStep s (.close id env) (s.game.world.leave env p)
  | packet (id : ObjectID) (data : Bytes) (size : ℕ) (env : Env) (conn : ConnId)
      (hs : s.sessions id = some conn) :
      WorldStep s (.packet id data size env) (s.handlePacket env id conn data size).game.world
  | refused (k : ℕ) (env : Env) (c : Completion) (conn : ConnId) (reason : LoginFailReason)
      (hc : s.completions[k]? = some c) (ho : s.getSession c.sessionId = some conn) :
      WorldStep s (.complete k env) (s.game.world.send conn (.loginFail reason))
  | joined (k : ℕ) (env : Env) (c : Completion) (conn : ConnId) (row : PlayerRow) (v : World)
      (p : Player) (hc : s.completions[k]? = some c) (hrow : c.result = .loaded row)
      (ho : s.getSession c.sessionId = some conn) (hfree : row.id ∉ s.game.activeDbIds)
      (hadd : s.game.world.addPlayer c.sessionId conn row = some v)
      (hp : v.getPlayer c.sessionId = some p) :
      WorldStep s (.complete k env) (v.welcome env conn p)
  | fired (k : ℕ) (env : Env) (ev : TimerEvent) (hev : s.game.world.timers[k]? = some ev) :
      WorldStep s (.timer k env)
        (GameWorld.handleTimerEvent env { s.game with
          world := { s.game.world with timers := s.game.world.timers.eraseIdx k } }
          ev.type ev.targetId).world

/-- **What a step does to the world.** -/
theorem worldStep (s : Server) (e : Event) : WorldStep s e (s.step e).game.world := by
  cases e with
  | tick ms => exact .tick ms
  | accept =>
      simp only [step, onAccept]
      split
      · exact .idle _
      · exact .idle _
  | close id env =>
      simp only [step, disconnectSession]
      split
      · exact .idle _
      · next conn hs =>
          unfold GameWorld.processDisconnect
          split
          · exact .idle _
          · next p hp => exact .left id env conn p hs hp
  | packet id data size env =>
      simp only [step]
      split
      · exact .idle _
      · next conn hs => exact .packet id data size env conn hs
  | loginWorker loadOk createOk =>
      rw [step, game_loginWorker]
      exact .idle _
  | saveWorker saveOk =>
      rw [step, world_saveWorker]
      exact .idle _
  | complete k env =>
      rw [step]
      rcases deliver_spec s env k with heq | ⟨c, conn, hc, ho, hout⟩
      · rw [heq]
        exact .idle _
      · generalize (s.deliver env k).game = gw at hout
        cases hout with
        | failed reason _ => exact .refused k env c conn reason hc ho
        | loaded row hrow _ hloaded =>
            -- a character that plays already, or has no room, is refused like a failed load
            cases hloaded with
            | duplicate => exact .refused k env c conn .duplicateLogin hc ho
            | full => exact .refused k env c conn .spawnFull hc ho
            | added hfree v p hadd hp =>
                exact .joined k env c conn row v p hc hrow ho hfree hadd hp
  | timer k env =>
      simp only [step, fireTimer]
      split
      · exact .idle _
      · next ev hev => exact .fired k env ev hev

end Mmorpg.Server
