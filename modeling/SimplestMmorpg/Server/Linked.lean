/-
Sessions, connections and players belong together.

Each open session has a connection of its own, a player in the world has the
connection of the session with its id, and a connection without a player was
only sent refusals. It holds in every run, whatever the logins do: two logins
on one session write the second player over the first, with the same
connection.
-/
import SimplestMmorpg.Lib.Transition
import SimplestMmorpg.Server.PlacementRun

set_option autoImplicit false

namespace Mmorpg.Server

open World Transition

/-- **What links sessions, connections and players.** -/
structure Linked (s : Server) : Prop where
  nodup : s.availableIds.Nodup
  available : ∀ i ∈ s.availableIds, s.sessions i = none
  available_lt : ∀ i ∈ s.availableIds, i < maxPlayers
  session_lt : ∀ i c, s.sessions i = some c → i < maxPlayers
  conn_lt : ∀ i c, s.sessions i = some c → c < s.nextConn
  conn_inj : ∀ i j c, s.sessions i = some c → s.sessions j = some c → i = j
  player : ∀ i p, s.game.world.getPlayer i = some p → s.sessions i = some p.session
  sent_lt : ∀ x ∈ s.game.world.sent, x.1 < s.nextConn
  silent : ∀ i c, s.sessions i = some c → s.game.world.getPlayer i = none →
    ∀ x ∈ s.game.world.sent, x.1 = c → ∃ reason, x.2 = .loginFail reason

variable {env : Env} {s s' : Server} {id : ObjectID} {conn : ConnId} {p : Player} {v : World}

theorem linked_init (map : Map) (spawns : List MonsterSpawnData) (now : ℕ) (store : PlayerStore) :
    Linked (init map spawns now store) := by
  have hempty : ∀ (w : World), w.players = .empty → w.sent = [] →
      (w.spawnMonsters spawns).players = .empty ∧ (w.spawnMonsters spawns).sent = [] := by
    intro w
    induction spawns generalizing w with
    | nil => exact fun hp hs => ⟨hp, hs⟩
    | cons data rest ih =>
        intro hp hs
        refine ih (w.spawnMonster data) ?_ ?_ <;>
        · unfold spawnMonster
          dsimp only
          split
          · assumption
          · assumption
  obtain ⟨hp, hs⟩ := hempty (World.empty map now) rfl rfl
  have hsent : (init map spawns now store).game.world.sent = [] := hs
  have hplayers : (init map spawns now store).game.world.players = .empty := hp
  refine ⟨List.nodup_range', fun _ _ => rfl, ?_, ?_, ?_, ?_, ?_, ?_, ?_⟩
  · intro i hi
    have hrange := (List.mem_range'_1.mp hi).2
    rwa [Nat.zero_add] at hrange
  · intro i c hc
    exact absurd hc (by simp [init])
  · intro i c hc
    exact absurd hc (by simp [init])
  · intro i j c hc
    exact absurd hc (by simp [init])
  · intro i p hi
    rw [getPlayer, hplayers, PlayerTable.find_empty] at hi
    exact absurd hi (by simp)
  · intro x hx
    rw [hsent] at hx
    exact absurd hx List.not_mem_nil
  · intro i c hc
    exact absurd hc (by simp [init])

namespace Linked

/-- Packets to players are sent on their connections. -/
theorem toPlayers (h : Linked s) {pkts : List (ConnId × ScPacket)}
    (hto : s.game.world.ToPlayers pkts) {x : ConnId × ScPacket} (hx : x ∈ pkts) :
    ∃ i, s.sessions i = some x.1 ∧ ∃ p, s.game.world.getPlayer i = some p := by
  obtain ⟨i, p, hp, hs⟩ := hto x hx
  exact ⟨i, by rw [hs, h.player i p hp], p, hp⟩

/-- The sessions are the same; what is left to show is about the world. -/
theorem world (h : Linked s) (hsessions : s'.sessions = s.sessions)
    (havailable : s'.availableIds = s.availableIds) (hconn : s'.nextConn = s.nextConn)
    (hplayer : ∀ i p, s'.game.world.getPlayer i = some p → s.sessions i = some p.session)
    (hsent : ∀ x ∈ s'.game.world.sent, x.1 < s.nextConn)
    (hsilent : ∀ i c, s.sessions i = some c → s'.game.world.getPlayer i = none →
      ∀ x ∈ s'.game.world.sent, x.1 = c → ∃ reason, x.2 = .loginFail reason) : Linked s' where
  nodup := by rw [havailable]; exact h.nodup
  available := by rw [havailable, hsessions]; exact h.available
  available_lt := by rw [havailable]; exact h.available_lt
  session_lt := by rw [hsessions]; exact h.session_lt
  conn_lt := by rw [hsessions, hconn]; exact h.conn_lt
  conn_inj := by rw [hsessions]; exact h.conn_inj
  player := by rw [hsessions]; exact hplayer
  sent_lt := by rw [hconn]; exact hsent
  silent := by rw [hsessions]; exact hsilent

/-- **Steady changes of the world keep the links.** -/
theorem steady (h : Linked s) (hw : Steady s.game.world s'.game.world)
    (hsessions : s'.sessions = s.sessions) (havailable : s'.availableIds = s.availableIds)
    (hconn : s'.nextConn = s.nextConn) : Linked s' := by
  obtain ⟨pkts, hsent, hto⟩ := hw.sent
  refine h.world hsessions havailable hconn ?_ ?_ ?_
  · intro i p hp
    obtain ⟨q, hq, hwho⟩ := hw.player hp
    rw [h.player i q hq]
    exact congrArg (fun w => some (Player.Who.session w)) hwho
  · intro x hx
    rw [hsent] at hx
    rcases List.mem_append.mp hx with hx | hx
    · exact h.sent_lt x hx
    · obtain ⟨i, hi, -⟩ := h.toPlayers hto hx
      exact h.conn_lt i _ hi
  · intro i c hc hnone x hx hxc
    have hnone' : s.game.world.getPlayer i = none := by
      have hwho := hw.players i
      rw [hnone] at hwho
      exact Option.map_eq_none_iff.mp hwho.symm
    rw [hsent] at hx
    rcases List.mem_append.mp hx with hx | hx
    · exact h.silent i c hc hnone' x hx hxc
    · -- a connection with a player is not this one
      obtain ⟨j, hj, p, hp⟩ := h.toPlayers hto hx
      rw [hxc] at hj
      rw [h.conn_inj i j c hc hj, hp] at hnone'
      exact absurd hnone' (by simp)

/-- A refusal keeps the links. -/
theorem refused (h : Linked s) (hs : s.sessions id = some conn) (reason : LoginFailReason)
    (hw : s'.game.world = s.game.world.send conn (.loginFail reason))
    (hsessions : s'.sessions = s.sessions) (havailable : s'.availableIds = s.availableIds)
    (hconn : s'.nextConn = s.nextConn) : Linked s' := by
  have hsent : s'.game.world.sent = s.game.world.sent ++ [(conn, .loginFail reason)] := by rw [hw]; rfl
  have hget : ∀ i, s'.game.world.getPlayer i = s.game.world.getPlayer i := fun i => by rw [hw]; rfl
  refine h.world hsessions havailable hconn ?_ ?_ ?_
  · intro i p hp
    exact h.player i p ((hget i).symm.trans hp)
  · intro x hx
    rw [hsent] at hx
    rcases List.mem_append.mp hx with hx | hx
    · exact h.sent_lt x hx
    · rw [List.mem_singleton.mp hx]
      exact h.conn_lt id conn hs
  · intro i c hc hnone x hx hxc
    rw [hsent] at hx
    rcases List.mem_append.mp hx with hx | hx
    · exact h.silent i c hc ((hget i).symm.trans hnone) x hx hxc
    · rw [List.mem_singleton.mp hx]
      exact ⟨reason, rfl⟩

/-- A player that is written under the id of an open session, with its
connection, keeps the links. -/
theorem join (h : Linked s) (hs : s.sessions id = some conn) (hsession : p.session = conn)
    (hget : ∀ i, v.getPlayer i = if i = id then some p else s.game.world.getPlayer i)
    (hsent : v.sent = s.game.world.sent) : Linked (s.onWorld fun _ => v) where
  nodup := h.nodup
  available := h.available
  available_lt := h.available_lt
  session_lt := h.session_lt
  conn_lt := h.conn_lt
  conn_inj := h.conn_inj
  player i q hq := by
    change v.getPlayer i = some q at hq
    rw [hget] at hq
    split at hq
    · next hi =>
        rw [← Option.some.inj hq, hi, hsession]
        exact hs
    · exact h.player i q hq
  sent_lt x hx := h.sent_lt x (by rw [← hsent]; exact hx)
  silent i c hc hnone x hx hxc := by
    change v.getPlayer i = none at hnone
    rw [hget] at hnone
    split at hnone
    · exact absurd hnone (by simp)
    · exact h.silent i c hc hnone x (by rw [← hsent]; exact hx) hxc

/-! ## The steps -/

theorem onAccept (h : Linked s) : Linked s.onAccept := by
  cases havail : s.availableIds with
  | nil =>
      rw [Server.onAccept, havail]
      exact h
  | cons id rest =>
      rw [onAccept_cons havail]
      have hnodup := h.nodup
      rw [havail, List.nodup_cons] at hnodup
      have hfree := h.available id (by rw [havail]; exact List.mem_cons_self)
      have hold : ∀ i c, i ≠ id → Function.update s.sessions id (some s.nextConn) i = some c →
          s.sessions i = some c := fun i c hi hc => by rwa [Function.update_of_ne hi] at hc
      have hnoplayer : s.game.world.getPlayer id = none := by
        cases hp : s.game.world.getPlayer id with
        | none => rfl
        | some p => exact absurd (hfree.symm.trans (h.player id p hp)) (by simp)
      refine ⟨hnodup.2, ?_, ?_, ?_, ?_, ?_, ?_, ?_, ?_⟩
      · intro i hi
        have hne : i ≠ id := fun heq => hnodup.1 (heq ▸ hi)
        dsimp only
        rw [Function.update_of_ne hne]
        exact h.available i (by rw [havail]; exact List.mem_cons_of_mem _ hi)
      · intro i hi
        exact h.available_lt i (by rw [havail]; exact List.mem_cons_of_mem _ hi)
      · intro i c hc
        by_cases hi : i = id
        · rw [hi]
          exact h.available_lt id (by rw [havail]; exact List.mem_cons_self)
        · exact h.session_lt i c (hold i c hi hc)
      · intro i c hc
        by_cases hi : i = id
        · subst hi
          dsimp only at hc
          rw [Function.update_self] at hc
          rw [← Option.some.inj hc]
          exact Nat.lt_succ_self _
        · exact Nat.lt_succ_of_lt (h.conn_lt i c (hold i c hi hc))
      · -- the new connection has the next number, which no other has
        intro i j c hi hj
        dsimp only at hi hj
        by_cases hii : i = id <;> by_cases hjj : j = id
        · rw [hii, hjj]
        · subst hii
          rw [Function.update_self] at hi
          have hlt := h.conn_lt j c (hold j c hjj hj)
          rw [← Option.some.inj hi] at hlt
          exact absurd hlt (Nat.lt_irrefl _)
        · subst hjj
          rw [Function.update_self] at hj
          have hlt := h.conn_lt i c (hold i c hii hi)
          rw [← Option.some.inj hj] at hlt
          exact absurd hlt (Nat.lt_irrefl _)
        · exact h.conn_inj i j c (hold i c hii hi) (hold j c hjj hj)
      · intro i p hp
        have hne : i ≠ id := by
          rintro rfl
          exact absurd (hnoplayer.symm.trans hp) (by simp)
        dsimp only
        rw [Function.update_of_ne hne]
        exact h.player i p hp
      · exact fun x hx => Nat.lt_succ_of_lt (h.sent_lt x hx)
      · intro i c hc hnone x hx hxc
        by_cases hi : i = id
        · subst hi
          dsimp only at hc
          rw [Function.update_self] at hc
          have hlt := h.sent_lt x hx
          rw [hxc, ← Option.some.inj hc] at hlt
          exact absurd hlt (Nat.lt_irrefl _)
        · exact h.silent i c (hold i c hi hc) hnone x hx hxc

theorem disconnectSession (h : Linked s) (env : Env) (id : ObjectID) :
    Linked (s.disconnectSession env id) := by
  cases hs : s.sessions id with
  | none =>
      rw [Server.disconnectSession, hs]
      exact h
  | some conn =>
      -- the player of the session, if it has one, is taken out
      have hgame : ∃ pkts, (s.game.processDisconnect env id).world.sent =
          s.game.world.sent ++ pkts ∧ s.game.world.ToPlayers pkts ∧
          ∀ i, (s.game.processDisconnect env id).world.getPlayer i =
            if i = id then none else s.game.world.getPlayer i := by
        unfold GameWorld.processDisconnect
        cases hp : s.game.world.getPlayer id with
        | none =>
            refine ⟨[], by simp, by simp [ToPlayers], fun i => ?_⟩
            by_cases hi : i = id
            · rw [if_pos hi, hi]
              exact hp
            · rw [if_neg hi]
        | some p =>
            obtain rfl := getPlayer_id hp
            exact ⟨_, rfl, toPlayers_sendDisappear env _ p, fun i => getPlayer_leave i⟩
      obtain ⟨pkts, hsent, hto, hget⟩ := hgame
      rw [Server.disconnectSession, hs]
      have hold : ∀ i c, Function.update s.sessions id none i = some c →
          i ≠ id ∧ s.sessions i = some c := by
        intro i c hc
        have hne : i ≠ id := by
          rintro rfl
          rw [Function.update_self] at hc
          exact absurd hc (by simp)
        rw [Function.update_of_ne hne] at hc
        exact ⟨hne, hc⟩
      have hnot : id ∉ s.availableIds := fun hmem =>
        absurd ((h.available id hmem).symm.trans hs) (by simp)
      refine ⟨?_, ?_, ?_, ?_, ?_, ?_, ?_, ?_, ?_⟩
      · exact List.nodup_append.mpr ⟨h.nodup, by simp, fun a ha b hb heq =>
          hnot (by rw [← List.mem_singleton.mp hb, ← heq]; exact ha)⟩
      · intro i hi
        dsimp only
        by_cases hne : i = id
        · rw [hne, Function.update_self]
        · rw [Function.update_of_ne hne]
          rcases List.mem_append.mp hi with hi | hi
          · exact h.available i hi
          · exact absurd (List.mem_singleton.mp hi) hne
      · intro i hi
        rcases List.mem_append.mp hi with hi | hi
        · exact h.available_lt i hi
        · rw [List.mem_singleton.mp hi]
          exact h.session_lt id conn hs
      · exact fun i c hc => h.session_lt i c (hold i c hc).2
      · exact fun i c hc => h.conn_lt i c (hold i c hc).2
      · exact fun i j c hi hj => h.conn_inj i j c (hold i c hi).2 (hold j c hj).2
      · intro i p hp
        dsimp only at hp ⊢
        rw [hget] at hp
        split at hp
        · exact absurd hp (by simp)
        · next hne =>
            rw [Function.update_of_ne hne]
            exact h.player i p hp
      · intro x hx
        dsimp only at hx
        rw [hsent] at hx
        rcases List.mem_append.mp hx with hx | hx
        · exact h.sent_lt x hx
        · obtain ⟨i, hi, -⟩ := h.toPlayers hto hx
          exact h.conn_lt i _ hi
      · intro i c hc hnone x hx hxc
        obtain ⟨hne, hc⟩ := hold i c hc
        dsimp only at hnone hx
        rw [hget, if_neg hne] at hnone
        rw [hsent] at hx
        rcases List.mem_append.mp hx with hx | hx
        · exact h.silent i c hc hnone x hx hxc
        · obtain ⟨j, hj, p, hp⟩ := h.toPlayers hto hx
          rw [hxc] at hj
          rw [h.conn_inj i j c hc hj, hp] at hnone
          exact absurd hnone (by simp)

theorem session_of_player (h : Linked s) (hs : s.sessions id = some conn) :
    ∀ p, s.game.world.getPlayer id = some p → p.session = conn := by
  intro p hp
  exact Option.some.inj ((h.player id p hp).symm.trans hs)

end Linked

/-- A request is calm, on the session of its player. -/
theorem calm_handlePacket (hsession : ∀ p, s.game.world.getPlayer id = some p → p.session = conn)
    (env : Env) (data : Bytes) (size : ℕ) :
    Calm s.game.world (s.handlePacket env id conn data size).game.world := by
  unfold handlePacket
  split
  · exact .refl _
  · exact .refl _
  · exact calm_processMove conn data hsession
  · exact calm_processAttack
  · exact (inert_processChat env id data _).calm
  · exact calm_processTeleport conn hsession

theorem handlePacket_sessions (s : Server) (env : Env) (id : ObjectID) (conn : ConnId) (data : Bytes)
    (size : ℕ) :
    (s.handlePacket env id conn data size).sessions = s.sessions ∧
      (s.handlePacket env id conn data size).availableIds = s.availableIds ∧
      (s.handlePacket env id conn data size).nextConn = s.nextConn := by
  unfold handlePacket
  split <;> exact ⟨rfl, rfl, rfl⟩

/-- Timer events are steady. -/
theorem steady_handleTimerEvent (env : Env) (gw : GameWorld) (type : TimerType)
    (targetId : ObjectID) :
    Steady gw.world (gw.handleTimerEvent env type targetId).world := by
  cases type with
  | hpRegen => exact steady_hpRegen _ _
  | monsterAi => exact steady_monsterAi _ _
  | monsterRespawn => exact (calm_respawnMonster _ _).toSteady
  | dbSave =>
      simp only [GameWorld.handleTimerEvent]
      rw [world_saveAllPlayers]
      exact steady_of_eq rfl rfl rfl

theorem steady_fireTimer (s : Server) (env : Env) (k : ℕ) :
    Steady s.game.world (s.fireTimer env k).game.world := by
  unfold fireTimer
  split
  · exact .refl _
  · next ev _ =>
      -- taking the event out of the queue changes no player
      have htaken : Steady s.game.world
          { s.game.world with timers := s.game.world.timers.eraseIdx k } :=
        steady_of_eq rfl rfl rfl
      exact htaken.trans (steady_handleTimerEvent env { s.game with
        world := { s.game.world with timers := s.game.world.timers.eraseIdx k } } ev.type
        ev.targetId)

/-! ## A login result is delivered -/

theorem sessions_deliver (s : Server) (env : Env) (k : ℕ) :
    (s.deliver env k).sessions = s.sessions ∧ (s.deliver env k).nextConn = s.nextConn ∧
      (s.deliver env k).loginQueue = s.loginQueue ∧
      (∀ c ∈ (s.deliver env k).completions, c ∈ s.completions) ∧
      (s.deliver env k).availableIds = s.availableIds := by
  unfold deliver
  split
  · exact ⟨rfl, rfl, rfl, fun _ hc => hc, rfl⟩
  · unfold runCallback
    dsimp only
    split <;> exact ⟨rfl, rfl, rfl, fun _ hc => mem_of_mem_eraseIdx hc, rfl⟩

/-- **Every step keeps the links.** -/
theorem linked_step (s : Server) (e : Event) (h : Linked s) : Linked (s.step e) := by
  cases e with
  | tick ms => exact h.steady (steady_of_eq rfl rfl rfl) rfl rfl rfl
  | accept => exact h.onAccept
  | close id env => exact h.disconnectSession env id
  | packet id data size env =>
      simp only [step]
      split
      · exact h
      · next conn hs =>
          obtain ⟨h1, h2, h3⟩ := handlePacket_sessions s env id conn data size
          exact h.steady (calm_handlePacket (h.session_of_player hs) env data size).toSteady h1 h2 h3
  | loginWorker loadOk createOk =>
      simp only [step, loginWorker]
      split
      · exact h
      · exact h.steady (.refl _) rfl rfl rfl
  | saveWorker saveOk =>
      simp only [step, saveWorker]
      split
      · exact h
      · split
        · split
          · unfold savePlayer
            split <;> exact h.steady (.refl _) rfl rfl rfl
          · exact h.steady (.refl _) rfl rfl rfl
        · exact h.steady (.refl _) rfl rfl rfl
  | complete k env =>
      obtain ⟨h1, h2, -, -, h3⟩ := sessions_deliver s env k
      rcases deliver_spec s env k with heq | ⟨c, conn, -, ho, hout⟩
      · exact h.steady (by rw [step, heq]; exact .refl _) h1 h3 h2
      · have hs := (getSession_eq_some ho).2
        rw [step]
        generalize hs' : s.deliver env k = s' at *
        generalize hg : s'.game = gw at hout
        cases hout with
        | failed reason _ => exact h.refused hs reason (by rw [hg]) h1 h3 h2
        | loaded row _ _ hloaded =>
            cases hloaded with
            | duplicate => exact h.refused hs .duplicateLogin (by rw [hg]) h1 h3 h2
            | full => exact h.refused hs .spawnFull (by rw [hg]) h1 h3 h2
            | added _ v p hadd hp =>
                -- the player joins with the connection that the login was delivered to
                obtain ⟨spawn, hget⟩ := getPlayer_addPlayer hadd
                have hjoin := h.join hs rfl hget (sent_addPlayer hadd)
                obtain rfl := session_of_addPlayer hadd hp
                have hid := getPlayer_id hp
                have hw := (calm_welcome (w := v) (by rw [hid, hp]) env).toSteady
                exact hjoin.steady (by rw [hg]; exact hw) h1 h3 h2
  | timer k env =>
      obtain ⟨h1, h2, h3⟩ : (s.fireTimer env k).sessions = s.sessions ∧
          (s.fireTimer env k).availableIds = s.availableIds ∧
          (s.fireTimer env k).nextConn = s.nextConn := by
        unfold fireTimer
        split <;> exact ⟨rfl, rfl, rfl⟩
      exact h.steady (steady_fireTimer s env k) h1 h2 h3

/-- **The links hold in every state a server reaches.** -/
theorem linked_run (map : Map) (spawns : List MonsterSpawnData) (now : ℕ) (store : PlayerStore)
    (es : List Event) : Linked (run step (init map spawns now store) es) :=
  Transition.invariant (C := fun _ _ => True) (fun s e h _ => linked_step s e h)
    (linked_init map spawns now store) along_true

end Mmorpg.Server
