/-
The effects of a request and of a timer event.

A request, and a timer event other than `DB_SAVE`, is a sequence of effects
(`Game/Effects`). What is left of a step is told by `Server/WorldStep`: the
clock, the player of a session that closes, the answers to a login and the
next `DB_SAVE`.
-/
import SimplestMmorpg.Game.Effects
import SimplestMmorpg.Server.PlacementRun

set_option autoImplicit false

namespace Mmorpg.Server

open World

variable {env : Env} {lost : ConnId → Prop} {s : Server} {g : GameWorld} {type : TimerType}

/-- A request is handled. -/
def requestScope (env : Env) (lost : ConnId → Prop) (id : ObjectID) (data : Bytes) (size : ℕ) :
    Scope :=
  ⟨env, fun t i => i = id ∧ requestOf data size = some t, lost⟩

/-- A timer event is handled: nobody asked for anything. -/
def timerScope (env : Env) (lost : ConnId → Prop) : Scope := ⟨env, fun _ _ => False, lost⟩

theorem effects_handlePacket (s : Server) (env : Env) (lost : ConnId → Prop) (id : ObjectID)
    (conn : ConnId) (data : Bytes) (size : ℕ) :
    Effects (requestScope env lost id data size) s.game.world
      (s.handlePacket env id conn data size).game.world := by
  unfold handlePacket
  split
  · exact .refl
  · exact .refl
  · next hreq =>
      exact effects_processMove (c := requestScope env lost id data size) ⟨rfl, hreq⟩ env conn
        data _
  · next hreq =>
      exact effects_processAttack (c := requestScope env lost id data size) ⟨rfl, hreq⟩ env _
  · next hreq =>
      exact effects_processChat (c := requestScope env lost id data size) ⟨rfl, hreq⟩ env data _
  · exact effects_processTeleport (c := requestScope env lost id data size) id conn _

theorem effects_handleTimerEvent (htype : type ≠ .dbSave) (targetId : ObjectID)
    (hfits : type = .monsterAi →
      ∀ hit ∈ hitsOf env targetId g.world, HitFitsOr (timerScope env lost) hit) :
    Effects (timerScope env lost) g.world (g.handleTimerEvent env type targetId).world := by
  cases type with
  | hpRegen => exact effects_hpRegen targetId _
  | monsterAi => exact effects_monsterAi targetId _ (hfits rfl)
  | monsterRespawn => exact effects_respawnMonster env targetId _
  | dbSave => exact absurd rfl htype

/-- `DB_SAVE` posts saves and schedules the next one. -/
theorem world_handleTimerEvent_dbSave (g : GameWorld) (env : Env) (targetId : ObjectID) :
    (g.handleTimerEvent env .dbSave targetId).world =
      g.world.addTimer .dbSave 0 dbSaveIntervalMs none := by
  simp only [GameWorld.handleTimerEvent]
  rw [world_saveAllPlayers]

/-- Every hit may find no tile if no connection matters. -/
theorem hitFitsOr_of_forall {c : Scope} (h : ∀ conn, c.lost conn) (hit : Hit) :
    HitFitsOr c hit :=
  fun victim _ => .inr (h victim.session)

/-- A timer event that is taken from the queue; nobody's client has to be told
of a death here. -/
theorem effects_fired (g : GameWorld) (env : Env) (k : ℕ) (htype : type ≠ .dbSave)
    (targetId : ObjectID) :
    Effects (timerScope env fun _ => True)
      { g.world with timers := g.world.timers.eraseIdx k }
      (GameWorld.handleTimerEvent env
        { g with world := { g.world with timers := g.world.timers.eraseIdx k } } type
        targetId).world :=
  effects_handleTimerEvent (g := { g with
    world := { g.world with timers := g.world.timers.eraseIdx k } }) htype targetId
    fun _ hit _ => hitFitsOr_of_forall (fun _ => trivial) hit

/-- What a new player is told first is no effect; the rest of its welcome is. -/
theorem effects_welcome (env : Env) (v : World) (conn : ConnId) (p : Player) :
    Effects (timerScope env fun _ => True)
      ((v.send conn (loginOkPkt p)).sendAll (ViewProcessor.sendFullView env
        (v.send conn (loginOkPkt p)) p)) (v.welcome env conn p) :=
  effects_activateNearbyMonsters env p.pos _

/-- No step touches the map, and the clock does not go back. -/
theorem frame_step (s : Server) (e : Event) : (s.step e).game.world.map = s.game.world.map ∧
    s.game.world.now ≤ (s.step e).game.world.now := by
  have hstep := worldStep s e
  generalize (s.step e).game.world = w at hstep ⊢
  cases hstep with
  | tick ms => exact ⟨rfl, Nat.le_add_right _ _⟩
  | packet id data size env conn hs =>
      have hframe := (effects_handlePacket s env (fun _ => True) id conn data size).frame
      exact ⟨hframe.1, hframe.2.ge⟩
  | joined n env c conn row v p hc hrow ho hfree hadd hp =>
      obtain ⟨sm, spawn, -, hv⟩ := addPlayer_eq_some hadd
      have hmap : v.map = s.game.world.map := by rw [hv]; rfl
      have hnow : v.now = s.game.world.now := by rw [hv]; rfl
      have hframe := (effects_welcome env v conn p).frame
      exact ⟨hframe.1.trans hmap, (hframe.2.trans hnow).ge⟩
  | fired n env ev hev =>
      by_cases htype : ev.type = .dbSave
      · rw [htype, world_handleTimerEvent_dbSave]
        exact ⟨rfl, Nat.le_refl _⟩
      · have hframe := (effects_fired s.game env n htype ev.targetId).frame
        exact ⟨hframe.1, hframe.2.ge⟩
  | _ => exact ⟨rfl, Nat.le_refl _⟩

theorem now_le_step (s : Server) (e : Event) : s.game.world.now ≤ (s.step e).game.world.now :=
  (frame_step s e).2

end Mmorpg.Server
