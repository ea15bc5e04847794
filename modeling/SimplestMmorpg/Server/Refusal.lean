/-
What a refused login leaves behind.

`OnLoginDBLoaded` claims the database id before it looks for a tile, and gives
the claim back on no path: when `AddPlayer` fails the answer is `SPAWN_FULL`
and the id stays claimed, although no player has it. The character is then
refused as a duplicate for the rest of the run, since only the disconnect of
its player would release the id. The two other refusals touch nothing.
-/
import SimplestMmorpg.Server.Server

set_option autoImplicit false

namespace Mmorpg.Server

variable {env : Env} {s : Server} {c : Completion}

/-- The attempt is answered with `SC_LOGIN_FAIL`, and with nothing else. -/
def Refused (env : Env) (s : Server) (c : Completion) : Prop :=
  ∃ conn reason, (s.runCallback env c).game.world.sent =
    s.game.world.sent ++ [(conn, .loginFail reason)]

/-- The claimed ids, the players, the tiles and the sectors are the same. -/
structure Untouched (s s' : Server) : Prop where
  activeDbIds : ∀ d, d ∈ s'.game.activeDbIds ↔ d ∈ s.game.activeDbIds
  players : s'.game.world.players = s.game.world.players
  tiles : s'.game.world.sectorManager.tileToObject = s.game.world.sectorManager.tileToObject
  sectors : s'.game.world.sectorManager.sectors = s.game.world.sectorManager.sectors

/-- The row was read and nobody has its id. -/
def Claims (s : Server) (c : Completion) : Prop :=
  ∃ row, c.result = .loaded row ∧ row.id ∉ s.game.activeDbIds

theorem untouched_onLoginDBFailed (s : Server) (session : Option ConnId)
    (reason : LoginFailReason) :
    Untouched s { s with game := s.game.onLoginDBFailed session reason } := by
  cases session with
  | none => exact ⟨fun _ => Iff.rfl, rfl, rfl, rfl⟩
  | some conn => exact ⟨fun _ => Iff.rfl, rfl, rfl, rfl⟩

/-- A row whose id nobody has: the id is claimed whatever comes after. -/
theorem mem_activeDbIds_onLoginDBLoaded (env : Env) (gw : GameWorld) (sessionId : ObjectID) (conn : ConnId)
    (row : PlayerRow) :
    row.id ∈ (gw.onLoginDBLoaded env sessionId (some conn) row).activeDbIds := by
  unfold GameWorld.onLoginDBLoaded
  dsimp only
  split
  · next h =>
      unfold GameWorld.tryClaimDbId at h
      split at h
      · next hmem => exact hmem
      · exact absurd h (by simp)
  · next gw' h =>
      have hmem : row.id ∈ gw'.activeDbIds := by
        unfold GameWorld.tryClaimDbId at h
        split at h
        · exact absurd h (by simp)
        · rw [← Option.some.inj h]
          exact List.mem_cons_self
      split
      · exact hmem
      · split
        · exact hmem
        · exact hmem

/-- **A refused login changes nothing exactly when it had not claimed the id.**
Whatever the state, an attempt that is answered with `SC_LOGIN_FAIL` leaves
the claimed ids, the players, the tiles and the sectors alone if and only if
it failed in the database or found the id of its row claimed. -/
theorem refused_untouched_iff (h : Refused env s c) :
    Untouched s (s.runCallback env c) ↔ ¬ Claims s c := by
  obtain ⟨conn, reason, hsent⟩ := h
  unfold Server.runCallback Claims at *
  cases hr : c.result with
  | failed reason' => simp [untouched_onLoginDBFailed]
  | loaded row =>
      rw [hr] at hsent
      dsimp only at hsent ⊢
      cases hsess : s.getSession c.sessionId with
      | none =>
          -- a closed session is sent nothing
          rw [hsess] at hsent
          simp [GameWorld.onLoginDBLoaded] at hsent
      | some conn' =>
          have hclaimed := mem_activeDbIds_onLoginDBLoaded env s.game c.sessionId conn' row
          constructor
          · rintro hu ⟨row', hrow, hfree⟩
            obtain rfl : row = row' := by simpa using hrow
            exact hfree ((hu.activeDbIds row.id).mp hclaimed)
          · intro hno
            have hmem : row.id ∈ s.game.activeDbIds := by
              by_contra hfree
              exact hno ⟨row, rfl, hfree⟩
            rw [GameWorld.onLoginDBLoaded, GameWorld.tryClaimDbId, if_pos hmem]
            exact untouched_onLoginDBFailed s _ _

/-! ## A map without a free tile -/

/-- Nothing but obstacles. -/
def walls : Map := ⟨fun _ => 1⟩

/-- The first session of a server on that map. -/
def walledIn : Server := (init walls [] 0 .init).onAccept

/-- A new character for it. -/
def newcomer : Completion := ⟨0, .loaded ⟨1, [65], 1, 0, 100, 100, 0, 0⟩, 0, 0⟩

theorem no_tile (sm : SectorManager) (id : ObjectID) (c : Position) :
    sm.addObject id c walls = none := by
  rw [SectorManager.addObject_eq_none_iff, SectorManager.tryClaimNearby_eq_none_iff]
  intro radius _ d _ hw
  simp [Map.isWalkable, walls] at hw

/-- The first session gets the first id and the first connection. -/
theorem walledIn_eq : walledIn =
    { init walls [] 0 .init with
      availableIds := List.range' 1 14999
      sessions := Function.update (fun _ => none) 0 (some 0)
      nextConn := 1 } :=
  onAccept_cons List.range'_succ

theorem onLoginDBLoaded_walls (env : Env) {gw : GameWorld} (hmap : gw.world.map = walls)
    (row : PlayerRow) (hfree : row.id ∉ gw.activeDbIds) (sessionId : ObjectID) (conn : ConnId) :
    gw.onLoginDBLoaded env sessionId (some conn) row =
      GameWorld.onLoginDBFailed { gw with activeDbIds := row.id :: gw.activeDbIds }
        (some conn) .spawnFull := by
  rw [GameWorld.onLoginDBLoaded, GameWorld.tryClaimDbId, if_neg hfree]
  simp only [World.addPlayer, hmap, no_tile]

theorem runCallback_newcomer (env : Env) :
    walledIn.runCallback env newcomer =
      { walledIn with
        game := GameWorld.onLoginDBFailed { walledIn.game with activeDbIds := [1] }
          (some 0) .spawnFull } := by
  have h := onLoginDBLoaded_walls env (show walledIn.game.world.map = walls from rfl)
    ⟨1, [65], 1, 0, 100, 100, 0, 0⟩
    (by rw [walledIn_eq]; exact List.not_mem_nil) 0 0
  have hsess : walledIn.getSession 0 = some 0 := by
    rw [walledIn_eq, getSession, if_pos (by decide)]
    rfl
  simp only [runCallback, newcomer, hsess, h]
  rfl

theorem refused_newcomer (env : Env) : Refused env walledIn newcomer :=
  ⟨0, .spawnFull, by rw [runCallback_newcomer]; rfl⟩

theorem refused_untouched_iff_newcomer :
    Untouched walledIn (walledIn.runCallback .plain newcomer) ↔ ¬ Claims walledIn newcomer :=
  refused_untouched_iff (refused_newcomer .plain)

/-- The new character is refused for want of a tile, and its id stays claimed. -/
theorem not_always_untouched :
    ¬ ∀ (env : Env) (s : Server) (c : Completion),
      Refused env s c → Untouched s (s.runCallback env c) := by
  intro hall
  have hu := (hall .plain walledIn newcomer (refused_newcomer _)).activeDbIds 1
  rw [runCallback_newcomer] at hu
  exact absurd (hu.mp List.mem_cons_self) (by rw [walledIn_eq]; exact List.not_mem_nil)

end Mmorpg.Server
