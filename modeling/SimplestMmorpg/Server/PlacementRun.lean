/-
Everybody is in place in every run whose steps find the tiles they need.

`InPlace` spells the invariant out tile by tile and sector by sector. It is
lost in three ways: a second login on a session that has a player leaves the
tile of the first behind, a teleport and a death leave a player without a tile
when none is free, and a monster with no hit points is dead on a tile from the
start. `PlacementOk` and `SpawnsOk` exclude exactly these.
-/
import SimplestMmorpg.Game.PlacementHandlers
import SimplestMmorpg.Lib.Transition
import SimplestMmorpg.Server.WorldStep

set_option autoImplicit false

namespace Mmorpg

open Transition

namespace World

variable {w : World} {id : ObjectID} {pos : Position}

/-- A player in `m_players` or a live monster, and its `GetPos()`. -/
def Present (w : World) (id : ObjectID) (pos : Position) : Prop :=
  (∃ p, w.getPlayer id = some p ∧ p.pos = pos) ∨
    ∃ m, w.getMonster id = some m ∧ m.isDead = false ∧ m.pos = pos

/-- Who is present is on one tile, its own, which is walkable and on the map,
and in one sector, the one of that tile; and the tiles and the sectors name
nobody else. -/
structure InPlace (w : World) : Prop where
  walkable : ∀ id pos, w.Present id pos → w.map.isWalkable pos.x pos.y = true ∧ InMap pos
  tile : ∀ id pos, w.Present id pos → ∀ q, w.sectorManager.getOccupant q = id ↔ q = pos
  sector : ∀ id pos, w.Present id pos → ∀ z, id ∈ w.sectorManager.sectors z ↔ z = zoneOf pos
  tiles_only : ∀ q, w.sectorManager.getOccupant q ≠ invalidId →
    ∃ pos, w.Present (w.sectorManager.getOccupant q) pos
  sectors_only : ∀ z id, id ∈ w.sectorManager.sectors z → ∃ pos, w.Present id pos

theorem Placed.present_iff (h : Placed w) : w.Present id pos ↔ w.place id = some pos := by
  constructor
  · rintro (⟨p, hp, rfl⟩ | ⟨m, hm, halive, rfl⟩)
    · exact h.place_player hp
    · rw [place_of_getMonster hm, halive, if_neg (by simp)]
  · intro hplace
    unfold place at hplace
    split at hplace
    · obtain ⟨p, hp, hpos⟩ := Option.map_eq_some_iff.mp hplace
      exact .inl ⟨p, hp, hpos⟩
    · obtain ⟨m, hm, hpos⟩ := Option.bind_eq_some_iff.mp hplace
      split at hpos
      · exact absurd hpos (by simp)
      · next halive => exact .inr ⟨m, hm, by simpa using halive, Option.some.inj hpos⟩

theorem Placed.ne_invalid (h : Placed w) (hi : w.place id = some pos) : id ≠ invalidId := by
  rcases h.present_iff.mpr hi with ⟨p, hp, -⟩ | ⟨m, hm, -⟩
  · exact h.player_ne_invalid hp
  · exact h.monster_ne_invalid hm

theorem Placed.inPlace (h : Placed w) : InPlace w where
  walkable id pos hi := by
    rw [h.present_iff] at hi
    exact ⟨h.walkable id pos hi, h.inMap hi⟩
  tile id pos hi q := by
    rw [h.present_iff] at hi
    rw [← SectorManager.occupant_eq_some (h.ne_invalid hi), h.agrees.occupant_iff, hi,
      Option.some.injEq, eq_comm]
  sector id pos hi z := by
    rw [h.present_iff] at hi
    have hz := h.agrees.members_iff z id
    rw [hi] at hz
    refine hz.trans ⟨?_, fun hzz => ⟨pos, rfl, hzz.symm⟩⟩
    rintro ⟨q, hq, rfl⟩
    rw [Option.some.inj hq]
  tiles_only q hq := by
    have hocc : w.sectorManager.index.occupant q = some (w.sectorManager.getOccupant q) :=
      (SectorManager.occupant_eq_some hq).mpr rfl
    exact ⟨q, h.present_iff.mpr ((h.agrees.occupant_iff _ _).mp hocc)⟩
  sectors_only z id hz := by
    obtain ⟨q, hq, -⟩ := (h.agrees.members_iff z id).mp hz
    exact ⟨q, h.present_iff.mpr hq⟩

/-- Taking an event from the timer queue moves nobody. -/
theorem Placed.eraseTimer (h : Placed w) (k : ℕ) :
    Placed { w with timers := w.timers.eraseIdx k } := by
  have hle : ∀ id, ({ w with timers := w.timers.eraseIdx k } : World).pendingRespawns id ≤
      w.pendingRespawns id := fun id => (List.eraseIdx_sublist _ _).countP_le
  exact ⟨h.agrees, h.walkable, h.playerId, h.monsterId, h.maxHp,
    fun id => (hle id).trans (h.respawns id),
    fun id hid => h.resting id (Nat.lt_of_lt_of_le hid (hle id))⟩

/-- The respawn that was scheduled is the only one. -/
theorem Placed.respawn_taken (h : Placed w) {k : ℕ} {ev : TimerEvent} (hev : w.timers[k]? = some ev)
    (ht : ev.type = .monsterRespawn) :
    monsterIdOffset ≤ ev.targetId ∧ w.place ev.targetId = none ∧
      ({ w with timers := w.timers.eraseIdx k } : World).pendingRespawns ev.targetId = 0 := by
  have hcount : w.pendingRespawns ev.targetId =
      ({ w with timers := w.timers.eraseIdx k } : World).pendingRespawns ev.targetId + 1 := by
    unfold pendingRespawns
    rw [(perm_eraseIdx hev).countP_eq, List.countP_cons_of_pos (by simp [ht])]
  have hone := h.respawns ev.targetId
  obtain ⟨hge, hnone⟩ := h.resting ev.targetId (by omega)
  exact ⟨hge, hnone, by omega⟩

end World

namespace Server

open World

variable {s : Server} {env : Env}

/-- What a step needs for everybody to stay in place: a login that will be
admitted meets a session without a player, and a teleport and a death find a
tile. -/
def PlacementOk (s : Server) : Event → Prop
  | .packet id data size env =>
    requestOf data size = some .teleport → TeleportFits env id s.game.world
  | .complete k _ =>
    ∀ c row, s.completions[k]? = some c → c.result = .loaded row →
      (s.getSession c.sessionId).isSome → row.id ∉ s.game.activeDbIds →
      (s.game.world.sectorManager.addObject c.sessionId ⟨row.x, row.y⟩ s.game.world.map).isSome →
      s.game.world.getPlayer c.sessionId = none
  | .timer k env =>
    ∀ ev, s.game.world.timers[k]? = some ev → ev.type = .monsterAi →
      ∀ hit ∈ hitsOf env ev.targetId { s.game.world with timers := s.game.world.timers.eraseIdx k },
        HitFits hit
  | _ => True

/-- A condition on the logins that will be admitted can be evaluated. -/
def decidableAdmitted (s : Server) (k : ℕ) (P : Completion → Prop) [DecidablePred P] :
    Decidable (∀ c row, s.completions[k]? = some c → c.result = .loaded row →
      (s.getSession c.sessionId).isSome → row.id ∉ s.game.activeDbIds →
      (s.game.world.sectorManager.addObject c.sessionId ⟨row.x, row.y⟩ s.game.world.map).isSome →
      P c) :=
  match hc : s.completions[k]? with
  | none => .isTrue (by simp)
  | some c =>
    match hrow : c.result with
    | .failed reason => .isTrue fun c' row hc' hrow' => by
        rw [← Option.some.inj hc', hrow] at hrow'
        exact absurd hrow' (by simp)
    | .loaded row =>
      decidable_of_iff ((s.getSession c.sessionId).isSome → row.id ∉ s.game.activeDbIds →
        (s.game.world.sectorManager.addObject c.sessionId ⟨row.x, row.y⟩ s.game.world.map).isSome →
        P c) ⟨fun h c' row' hc' hrow' => by
          rw [← Option.some.inj hc', hrow] at hrow'
          rw [← Option.some.inj hc', ← LoginResult.loaded.inj hrow']
          exact h, fun h => h c row rfl hrow⟩

instance (s : Server) : ∀ e, Decidable (PlacementOk s e)
  | .packet id data size env =>
    inferInstanceAs (Decidable (requestOf data size = some .teleport →
      TeleportFits env id s.game.world))
  | .complete k _ => decidableAdmitted s k fun c => s.game.world.getPlayer c.sessionId = none
  | .timer k env =>
    inferInstanceAs (Decidable (∀ ev ∈ s.game.world.timers[k]?, ev.type = .monsterAi →
      ∀ hit ∈ hitsOf env ev.targetId
        { s.game.world with timers := s.game.world.timers.eraseIdx k }, HitFits hit))
  | .tick _ | .accept | .close _ _ | .loginWorker _ _ | .saveWorker _ => .isTrue trivial

/-! ## One step -/

theorem world_saveAllPlayers (env : Env) (gw : GameWorld) :
    (gw.saveAllPlayers env).world = gw.world := by
  unfold GameWorld.saveAllPlayers
  dsimp only
  generalize List.filterMap _ _ = rows
  have hfold : ∀ g : GameWorld, (rows.foldl (fun gw row =>
      gw.postSaveTask (.savePlayer row (gw.departureCount row.id))) g).world = g.world := by
    induction rows with
    | nil => exact fun _ => rfl
    | cons row rows ih => exact fun g => ih _
  exact hfold gw

theorem placed_handlePacket (h : Placed s.game.world) {id : ObjectID} {conn : ConnId} {data : Bytes}
    {size : ℕ} (hfit : requestOf data size = some .teleport → TeleportFits env id s.game.world) :
    Placed (s.handlePacket env id conn data size).game.world := by
  unfold handlePacket
  split
  · exact h
  · exact h
  · exact placed_processMove h conn data
  · exact placed_processAttack h
  · exact h.inert (inert_processChat env id data _)
  · next hreq => exact placed_processTeleport h conn (hfit hreq)

theorem placed_handleTimerEvent {g : GameWorld} (h : Placed g.world) {type : TimerType}
    {targetId : ObjectID}
    (hfits : type = .monsterAi → ∀ hit ∈ hitsOf env targetId g.world, HitFits hit)
    (hrespawn : type = .monsterRespawn → monsterIdOffset ≤ targetId ∧
      g.world.place targetId = none ∧ g.world.pendingRespawns targetId = 0) :
    Placed (g.handleTimerEvent env type targetId).world := by
  cases type with
  | hpRegen => exact placed_hpRegen h
  | monsterAi => exact placed_monsterAi h (hfits rfl)
  | monsterRespawn =>
      obtain ⟨hge, hnone, hpend⟩ := hrespawn rfl
      exact placed_respawnMonster env h hge hpend hnone
  | dbSave =>
      simp only [GameWorld.handleTimerEvent]
      rw [world_saveAllPlayers]
      exact h.inert (inert_addTimer (.inr rfl) _)

/-- **Every step keeps everybody in place**, if it finds the tiles it needs. -/
theorem placed_step (s : Server) (e : Event) (h : Placed s.game.world) (hok : PlacementOk s e) :
    Placed (s.step e).game.world := by
  have hstep := worldStep s e
  generalize (s.step e).game.world = w at hstep ⊢
  cases hstep with
  | idle => exact h
  | tick ms =>
      exact ⟨h.agrees, h.walkable, h.playerId, h.monsterId, h.maxHp, h.respawns, h.resting⟩
  | left id env conn p hs hp => exact placed_leave h hp
  | packet id data size env conn hs => exact placed_handlePacket h hok
  | refused => exact h.send _ _
  | joined k env c conn row v p hc hrow ho hfree hadd hp =>
      have hnew := hok c row hc hrow (by rw [ho]; rfl) hfree (isSome_addObject hadd)
      exact placed_welcome (placed_addPlayer h (getSession_eq_some ho).1 hnew hadd) _ _
  | fired k env ev hev =>
      exact placed_handleTimerEvent (h.eraseTimer k) (hok ev hev) (h.respawn_taken hev)

/-! ## Whole runs -/

/-- **Everybody is in place after every run whose steps find what they need.**
From server start on, for every map, every spawn script that gives its
monsters hit points, and every order of every number of steps. -/
theorem inPlace_run {map : Map} {spawns : List MonsterSpawnData} {now : ℕ} {store : PlayerStore}
    {es : List Event} (hs : SpawnsOk spawns)
    (hok : Along step PlacementOk (init map spawns now store) es) :
    InPlace (run step (init map spawns now store) es).game.world :=
  (Transition.invariant (I := fun s => Placed s.game.world) placed_step (placed_init map hs now)
    hok).inPlace

/-- A map without obstacles. -/
def openField : Map := ⟨fun _ => 0⟩

/-- A `CS_LOGIN` packet. -/
def loginPacket (name : Bytes) : Bytes :=
  [36, 0, 233, 3] ++ name ++ List.replicate (32 - name.length) 0

/-- One client connects and logs in. -/
def oneLogin : List Event :=
  [.accept, .packet 0 (loginPacket [65]) 36 .plain, .loginWorker true true, .complete 0 .plain]

/-- `CS_MOVE` to the south. -/
def southPacket : Bytes := [13, 0, 234, 3, 1] ++ List.replicate 8 0

/-- A `CS_TELEPORT` packet. -/
def teleportPacket : Bytes := [4, 0, 237, 3]

/-- The draws of a teleport to the middle of the map. -/
def middle : Env := { Env.plain with target := ⟨1000, 1000⟩, target_range := by decide }

/-- A monster that hits lightly. -/
def pest : MonsterSpawnData := ⟨[80], 2, 100, .agro, .roaming, ⟨1, 0⟩⟩

/-- Two clients log in beside it. It takes the first for its target and hits it. -/
def bitten : List Event :=
  oneLogin ++ [.accept, .packet 1 (loginPacket [66]) 36 .plain, .loginWorker true true,
    .complete 0 .plain, .tick 1000, .timer 1 .plain, .tick 1000, .timer 1 .plain]

/-- The other takes a step, and the first teleports away. -/
def bittenAndGone : List Event :=
  bitten ++ [.packet 1 southPacket 13 .plain, .packet 0 teleportPacket 4 middle]

theorem inPlace_run_bittenAndGone :
    let w := (run step (init openField [pest] 0 .init) bittenAndGone).game.world
    InPlace w ∧ (w.getPlayer 0).map (fun p => (p.pos, p.hp)) = some (⟨1000, 1000⟩, 90) :=
  ⟨inPlace_run ⟨by decide, by decide⟩ (by decide +kernel), by decide +kernel⟩

/-- One client logs in twice on its connection, as two characters. -/
def secondLogin : List Event :=
  [.accept, .packet 0 (loginPacket [65]) 36 .plain, .packet 0 (loginPacket [66]) 36 .plain,
    .loginWorker true true, .loginWorker true true, .complete 0 .plain, .complete 0 .plain]

theorem secondLogin_tiles :
    let sm := (run step (init openField [] 0 .init) secondLogin).game.world.sectorManager
    sm.getOccupant ⟨0, 0⟩ = 0 ∧ sm.getOccupant ⟨1, 0⟩ = 0 := by
  decide +kernel

/-- After the second login the player's id is on two tiles. -/
theorem not_always_inPlace :
    ¬ ∀ (map : Map) (spawns : List MonsterSpawnData) (now : ℕ) (store : PlayerStore)
      (es : List Event), InPlace (run step (init map spawns now store) es).game.world := by
  intro hall
  have h := hall openField [] 0 .init secondLogin
  obtain ⟨h00, h10⟩ := secondLogin_tiles
  obtain ⟨pos, hpos⟩ := h.tiles_only ⟨0, 0⟩ (by rw [h00]; decide)
  rw [h00] at hpos
  have hp00 := (h.tile 0 pos hpos ⟨0, 0⟩).mp h00
  have hp10 := (h.tile 0 pos hpos ⟨1, 0⟩).mp h10
  rw [← hp00] at hp10
  exact absurd hp10 (by decide)

end Server

end Mmorpg
