/-
Client views in whole runs.

`ViewsExact` is what every client should show after every handler. `Exact`
carries it from step to step: together with the links between sessions and
players it is kept by every handler that finds the tiles it needs, but for one
thing. `OnPlayerDied` takes the victim out of the others' views and sends it
the full view of the tile it comes back to, and never tells its client what is
no longer in view, as `ProcessTeleport` does with `ProcessMoveView`. So the
objects around the place of death stay on the client unless they are in view
of the new tile too.
-/
import SimplestMmorpg.Client.ViewHandlers
import SimplestMmorpg.Server.Linked

set_option autoImplicit false

namespace Mmorpg

open Transition ViewProcessor

namespace World

variable {w : World}

/-- The sector map has the object. -/
def Registered (w : World) (id : ObjectID) : Prop := ∃ z, id ∈ w.sectorManager.sectors z

/-- What a player should be shown: another registered player or a live monster
at this position, in view. -/
def ToShow (w : World) (p : Player) (id : ObjectID) (pos : Position) : Prop :=
  id ≠ p.id ∧ isInView p.pos pos = true ∧
    ((∃ q, w.getPlayer id = some q ∧ w.Registered id ∧ q.pos = pos) ∨
      ∃ m, w.getMonster id = some m ∧ m.isDead = false ∧ m.pos = pos)

/-- **The table of every registered player's client holds exactly what the
player should be shown**, each object with its position. -/
def ViewsExact (w : World) : Prop :=
  ∀ id p, w.getPlayer id = some p → w.Registered id →
    ∀ i pos, ((w.client p.session).objects i).map (·.pos) = some pos ↔ w.ToShow p i pos

theorem Placed.registered (h : Placed w) {id : ObjectID} {pos : Position}
    (hi : w.place id = some pos) : w.Registered id :=
  ⟨zoneOf pos, (h.agrees.members_iff (zoneOf pos) id).mpr ⟨pos, hi, rfl⟩⟩

theorem Exact.viewsExact (h : Exact w) : ViewsExact w := by
  intro id p hp _ i pos
  have htable := (h.sees id p hp).table i
  rw [GameState.table] at htable
  rw [htable, expected, ToShow]
  by_cases hi : i = p.id
  · simp [hi]
  · rw [if_neg hi, Option.filter_eq_some_iff, ← h.placed.present_iff, Present]
    constructor
    · rintro ⟨hpresent, hv⟩
      refine ⟨hi, hv, ?_⟩
      rcases hpresent with ⟨q, hq, hpos⟩ | hm
      · exact .inl ⟨q, hq, h.placed.registered (h.placed.place_player hq), hpos⟩
      · exact .inr hm
    · rintro ⟨-, hv, hpresent⟩
      refine ⟨?_, hv⟩
      rcases hpresent with ⟨q, hq, -, hpos⟩ | hm
      · exact .inl ⟨q, hq, hpos⟩
      · exact .inr hm

end World

namespace Server

open World

variable {s : Server} {env : Env}

/-- What a step needs for the views to stay exact: what it needs for everybody
to stay in place, and that whoever is killed comes back in view of all that
was in its view. -/
def ViewsOk (s : Server) : Event → Prop
  | .timer k env =>
    ∀ ev, s.game.world.timers[k]? = some ev → ev.type = .monsterAi →
      ∀ hit ∈ hitsOf env ev.targetId { s.game.world with timers := s.game.world.timers.eraseIdx k },
        HitKeepsView hit
  | e => s.PlacementOk e

/-- Nobody is killed. -/
def Harmless (s : Server) : Event → Prop
  | .timer k env =>
    ∀ ev ∈ s.game.world.timers[k]?,
      ∀ hit ∈ hitsOf env ev.targetId { s.game.world with timers := s.game.world.timers.eraseIdx k },
        hit.Spares
  | _ => True

instance (s : Server) : ∀ e, Decidable (Harmless s e)
  | .timer k env =>
    inferInstanceAs (Decidable (∀ ev ∈ s.game.world.timers[k]?, ∀ hit ∈ hitsOf env ev.targetId
      { s.game.world with timers := s.game.world.timers.eraseIdx k }, hit.Spares))
  | .tick _ | .accept | .close _ _ | .packet _ _ _ _ | .loginWorker _ _ | .saveWorker _
  | .complete _ _ => .isTrue trivial

/-- Where nobody is killed, a place for everybody is enough. -/
theorem viewsOk_of_harmless {e : Event} (h : PlacementOk s e ∧ Harmless s e) : ViewsOk s e := by
  cases e with
  | timer k env => exact fun ev hev _ hit hhit => (h.2 ev hev hit hhit).keepsView
  | _ => exact h.1

/-! ## One step -/

theorem exact_init (map : Map) {spawns : List MonsterSpawnData} (hs : SpawnsOk spawns) (now : ℕ)
    (store : PlayerStore) : Exact (init map spawns now store).game.world where
  placed := placed_init map hs now
  apart i j p q hp := by
    have hs := (linked_init map spawns now store).player i p hp
    exact absurd hs (by simp [init])
  sees i p hp := by
    have hs := (linked_init map spawns now store).player i p hp
    exact absurd hs (by simp [init])

theorem exact_handlePacket (h : Exact s.game.world) {id : ObjectID} {conn : ConnId}
    (hsession : ∀ p, s.game.world.getPlayer id = some p → p.session = conn) {data : Bytes}
    {size : ℕ} (hfit : requestOf data size = some .teleport → TeleportFits env id s.game.world) :
    Exact (s.handlePacket env id conn data size).game.world := by
  unfold handlePacket
  split
  · exact h
  · exact h
  · exact exact_processMove h data hsession
  · exact exact_processAttack h
  · exact h.inert (inert_processChat env id data _)
  · next hreq => exact exact_processTeleport h (hfit hreq) hsession

theorem exact_handleTimerEvent {g : GameWorld} (h : Exact g.world) {type : TimerType}
    {targetId : ObjectID}
    (hkeeps : type = .monsterAi → ∀ hit ∈ hitsOf env targetId g.world, HitKeepsView hit)
    (hrespawn : type = .monsterRespawn → monsterIdOffset ≤ targetId ∧
      g.world.place targetId = none ∧ g.world.pendingRespawns targetId = 0) :
    Exact (g.handleTimerEvent env type targetId).world := by
  cases type with
  | hpRegen => exact exact_hpRegen h
  | monsterAi => exact exact_monsterAi h (hkeeps rfl)
  | monsterRespawn =>
      obtain ⟨hge, hnone, hpend⟩ := hrespawn rfl
      exact exact_respawnMonster h hge hpend hnone
  | dbSave =>
      simp only [GameWorld.handleTimerEvent]
      rw [world_saveAllPlayers]
      exact h.inert (inert_addTimer (.inr rfl) _)

/-- A refusal is not seen. -/
theorem exact_loginFail {w : World} (h : Exact w) (conn : ConnId) (reason : LoginFailReason) :
    Exact (w.send conn (.loginFail reason)) where
  placed := h.placed.send _ _
  apart := h.apart
  sees id p hp := by
    refine (h.sees id p hp).congr [(conn, .loginFail reason)] rfl ?_ rfl rfl ?_ fun _ => rfl
    · intro x hx _
      rw [List.mem_singleton.mp hx]
      exact not_false
    · simp [msgsTo, ScPacket.msg]

/-- **Every step keeps the views exact**, under its condition. -/
theorem exact_step (s : Server) (e : Event) (hl : Linked s) (h : Exact s.game.world)
    (hok : ViewsOk s e) : Exact (s.step e).game.world := by
  have hstep := worldStep s e
  generalize (s.step e).game.world = w at hstep ⊢
  cases hstep with
  | idle => exact h
  | tick ms =>
      have hp := h.placed
      exact ⟨⟨hp.agrees, hp.walkable, hp.playerId, hp.monsterId, hp.maxHp, hp.respawns,
        hp.resting⟩, h.apart, fun id p hp => ⟨(h.sees id p hp).me, (h.sees id p hp).table⟩⟩
  | left id env conn p hs hp => exact exact_leave h env hp
  | packet id data size env conn hs => exact exact_handlePacket h (hl.session_of_player hs) hok
  | refused k env c conn reason => exact exact_loginFail h conn reason
  | joined k env c conn row v p hc hrow ho hfree hadd hp =>
      obtain ⟨hlt, hs⟩ := getSession_eq_some ho
      have hnone := hok c row hc hrow (by rw [ho]; rfl) hfree (isSome_addObject hadd)
      apply exact_login h env hlt hnone hadd hp
      · -- a player with this connection would be the session's own
        intro i o hi heq
        have hi' := hl.player i o hi
        rw [heq] at hi'
        rw [hl.conn_inj i c.sessionId conn hi' hs, hnone] at hi
        exact absurd hi (by simp)
      · exact hl.silent _ _ hs hnone
  | fired k env ev hev =>
      have htaken : Exact { s.game.world with timers := s.game.world.timers.eraseIdx k } :=
        h.withTimers (h.placed.eraseTimer k)
      exact exact_handleTimerEvent htaken (hok ev hev) (h.placed.respawn_taken hev)

/-! ## Whole runs -/

/-- **The views are exact after every run whose steps meet the condition.**
From server start on, for every map, every stored rows, every spawn script that
gives its monsters hit points, and every order of every number of steps. -/
theorem viewsExact_run {map : Map} {spawns : List MonsterSpawnData} {now : ℕ} {store : PlayerStore}
    {es : List Event} (hs : SpawnsOk spawns)
    (hok : Along step ViewsOk (init map spawns now store) es) :
    ViewsExact (run step (init map spawns now store) es).game.world :=
  (Transition.invariant (I := fun s => Linked s ∧ Exact s.game.world)
    (fun s e h hok => ⟨linked_step s e h.1, exact_step s e h.1 h.2 hok⟩)
    ⟨linked_init map spawns now store, exact_init map hs now store⟩ hok).2.viewsExact

/-- Both players and the monster have been in view of each other; the second
player no longer sees the first, and sees the monster. -/
theorem viewsExact_run_bittenAndGone :
    let w := (run step (init openField [pest] 0 .init) bitten).game.world
    let w' := (run step (init openField [pest] 0 .init) bittenAndGone).game.world
    ViewsExact w ∧ ViewsExact w' ∧
      [0, monsterIdOffset].map (fun id => ((w.client 1).objects id).map (·.pos)) =
        [some ⟨0, 0⟩, some ⟨1, 0⟩] ∧
      [0, monsterIdOffset].map (fun id => ((w'.client 1).objects id).map (·.pos)) =
        [none, some ⟨1, 0⟩] := by
  have hok : Along step (fun s e => PlacementOk s e ∧ Harmless s e)
      (init openField [pest] 0 .init) bittenAndGone := by decide +kernel
  have hspawns : SpawnsOk [pest] := ⟨by decide, by decide⟩
  have hviews := hok.mono fun _ _ h => viewsOk_of_harmless h
  exact ⟨viewsExact_run hspawns (along_append.mp hviews).1, viewsExact_run hspawns hviews,
    by decide +kernel, by decide +kernel⟩

/-- A monster that kills a new character with one hit. -/
def ogre : MonsterSpawnData := ⟨[79], 20, 100, .agro, .roaming, ⟨501, 500⟩⟩

/-- A character that was saved beside it. -/
def besideOgre : PlayerStore :=
  ⟨[([65], ⟨1, [65], 1, 0, 100, 100, 500, 500⟩)], 1, by simp, by simp, by simp⟩

/-- The character logs in, the monster takes it as its target, and hits. -/
def killedByOgre : List Event :=
  oneLogin ++ [.tick 1000, .timer 1 .plain, .tick 1000, .timer 1 .plain]

theorem killedByOgre_client :
    let w := (run step (init openField [ogre] 0 besideOgre) killedByOgre).game.world
    (w.getPlayer 0).map (·.pos) = some ⟨0, 0⟩ ∧ (w.getPlayer 0).map (·.session) = some 0 ∧
      0 ∈ w.sectorManager.sectors (zoneOf ⟨0, 0⟩) ∧
      ((w.client 0).objects 1000000).map (·.pos) = some ⟨501, 500⟩ := by
  decide +kernel

/-- The victim is back at the origin, and its client still shows the monster. -/
theorem not_always_viewsExact :
    ¬ ∀ (map : Map) (spawns : List MonsterSpawnData) (now : ℕ) (store : PlayerStore)
      (es : List Event), ViewsExact (run step (init map spawns now store) es).game.world := by
  intro hall
  have h := hall openField [ogre] 0 besideOgre killedByOgre
  obtain ⟨hpos, hsession, hmember, hclient⟩ := killedByOgre_client
  obtain ⟨p, hp, hpos⟩ := Option.map_eq_some_iff.mp hpos
  rw [hp, Option.map_some, Option.some.injEq] at hsession
  have hview := (h 0 p hp ⟨_, hmember⟩ 1000000 ⟨501, 500⟩).mp (by rw [hsession]; exact hclient)
  have hv := hview.2.1
  rw [hpos] at hv
  exact absurd hv (by decide)

end Server

end Mmorpg
