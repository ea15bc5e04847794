/-
What a login and a logout do to the game.

`OnLoginDBLoaded` on an open session has three outcomes, told apart by the
claim and by the search for a tile; `ProcessDisconnect` has two. Everything
that is shown of logins starts from these.
-/
import SimplestMmorpg.Game.Steady

set_option autoImplicit false

namespace Mmorpg

namespace World

open ViewProcessor

variable {env : Env} {w v : World} {id : ObjectID} {p q : Player} {conn : ConnId} {row : PlayerRow}

/-- **The player a login makes**: the row, placed around its position, under
the id and with the connection of the session. -/
theorem addPlayer_eq_some (h : w.addPlayer id conn row = some v) :
    ∃ sm spawn, w.sectorManager.addObject id ⟨row.x, row.y⟩ w.map = some (sm, spawn) ∧
      v = { w with sectorManager := sm, nextSerial := w.nextSerial + 1 }.setPlayer
        ((Player.ofRow id conn row w.nextSerial).setPos spawn) := by
  unfold addPlayer at h
  dsimp only at h
  split at h
  · exact absurd h (by simp)
  · next sm spawn hadd => exact ⟨sm, spawn, hadd, (Option.some.inj h).symm⟩

theorem getPlayer_addPlayer (h : w.addPlayer id conn row = some v) :
    ∃ spawn, ∀ i, v.getPlayer i = if i = id then
      some ((Player.ofRow id conn row w.nextSerial).setPos spawn) else w.getPlayer i := by
  obtain ⟨sm, spawn, -, rfl⟩ := addPlayer_eq_some h
  exact ⟨spawn, getPlayer_setPlayer ((Player.ofRow id conn row w.nextSerial).setPos spawn)⟩

theorem session_of_addPlayer (h : w.addPlayer id conn row = some v)
    (hp : v.getPlayer id = some p) : p.session = conn := by
  obtain ⟨spawn, hget⟩ := getPlayer_addPlayer h
  rw [hget, if_pos rfl] at hp
  rw [← Option.some.inj hp]
  rfl

theorem sent_addPlayer (h : w.addPlayer id conn row = some v) : v.sent = w.sent := by
  obtain ⟨sm, spawn, -, rfl⟩ := addPlayer_eq_some h
  rfl

/-- Waking monsters sends nothing and leaves the players alone. -/
theorem activateNearbyMonsters_frame (env : Env) (pos : Position) (w : World) :
    (w.activateNearbyMonsters env pos).sent = w.sent ∧
      (w.activateNearbyMonsters env pos).players = w.players := by
  unfold activateNearbyMonsters
  generalize w.getNearbyObjects env pos = ids
  induction ids generalizing w with
  | nil => exact ⟨rfl, rfl⟩
  | cons id ids ih =>
      have hone : (activateMonster pos w id).sent = w.sent ∧
          (activateMonster pos w id).players = w.players := by
        unfold activateMonster
        split
        · exact ⟨rfl, rfl⟩
        · split
          · exact ⟨rfl, rfl⟩
          · split
            · exact ⟨rfl, rfl⟩
            · split <;> exact ⟨rfl, rfl⟩
      obtain ⟨hsent, hplayers⟩ := ih (activateMonster pos w id)
      rw [List.foldl_cons]
      exact ⟨hsent.trans hone.1, hplayers.trans hone.2⟩

theorem getPlayer_activateNearbyMonsters (env : Env) (pos : Position) (w : World) (i : ObjectID) :
    (w.activateNearbyMonsters env pos).getPlayer i = w.getPlayer i :=
  congrArg (fun t => PlayerTable.find t i) (activateNearbyMonsters_frame env pos w).2

/-- The full view is made of `SC_ADD_OBJECT`. -/
theorem addObject_of_mem_sendFullView {x : ConnId × ScPacket} (hx : x ∈ sendFullView env w p) :
    ∃ obj, x.2 = .addObject obj := by
  cases of_mem_sendFullView hx with
  | sees obj => exact ⟨obj, rfl⟩
  | seen j other ho hview => exact ⟨p.remote, rfl⟩

/-- What a login that succeeds sends: the answer, then the full view. -/
theorem sent_welcome (env : Env) (w : World) (conn : ConnId) (p : Player) :
    (w.welcome env conn p).sent = w.sent ++ [(conn, loginOkPkt p)] ++
      sendFullView env (w.send conn (loginOkPkt p)) p :=
  (activateNearbyMonsters_frame env p.pos _).1

theorem getPlayer_welcome (env : Env) (w : World) (conn : ConnId) (p : Player) (i : ObjectID) :
    (w.welcome env conn p).getPlayer i = w.getPlayer i :=
  getPlayer_activateNearbyMonsters env p.pos _ i

/-- The new player and those around are told. -/
theorem calm_welcome (hp : w.getPlayer p.id = some p) (env : Env) :
    Calm w (w.welcome env p.session p) := by
  have hp1 : (w.send p.session (loginOkPkt p)).getPlayer p.id = some p := hp
  exact (calm_send hp _).trans ((calm_sendAll (toPlayers_sendFullView env hp1)).trans
    (inert_activateNearbyMonsters env _ _).calm)

theorem getPlayer_leave (i : ObjectID) :
    (w.leave env p).getPlayer i = if i = p.id then none else w.getPlayer i :=
  getPlayer_removePlayer p.id i

theorem sent_leave (env : Env) (w : World) (p : Player) :
    (w.leave env p).sent = w.sent ++ sendDisappear env w p := rfl

end World

namespace GameWorld

variable {env : Env} {gw : GameWorld} {id : ObjectID} {conn : ConnId} {row : PlayerRow}

/-- **The outcomes of `OnLoginDBLoaded`** on an open session. -/
inductive Loaded (env : Env) (gw : GameWorld) (id : ObjectID) (conn : ConnId) (row : PlayerRow) :
    GameWorld → Prop
  | duplicate (hactive : row.id ∈ gw.activeDbIds) :
      Loaded env gw id conn row
        { gw with world := gw.world.send conn (.loginFail .duplicateLogin) }
  | full (hfree : row.id ∉ gw.activeDbIds) (hnone : gw.world.addPlayer id conn row = none) :
      Loaded env gw id conn row
        { gw with
          world := gw.world.send conn (.loginFail .spawnFull)
          activeDbIds := row.id :: gw.activeDbIds }
  | added (hfree : row.id ∉ gw.activeDbIds) (v : World) (p : Player)
      (hadd : gw.world.addPlayer id conn row = some v) (hp : v.getPlayer id = some p) :
      Loaded env gw id conn row
        { gw with
          world := v.welcome env conn p
          activeDbIds := row.id :: gw.activeDbIds
          saveQueue := gw.saveQueue ++ [.updateLastLogin row.id] }

theorem onLoginDBLoaded_spec (env : Env) (gw : GameWorld) (id : ObjectID) (conn : ConnId)
    (row : PlayerRow) :
    Loaded env gw id conn row (gw.onLoginDBLoaded env id (some conn) row) := by
  unfold onLoginDBLoaded tryClaimDbId
  dsimp only
  by_cases hactive : row.id ∈ gw.activeDbIds
  · rw [if_pos hactive]
    exact .duplicate hactive
  · rw [if_neg hactive]
    dsimp only
    cases hadd : gw.world.addPlayer id conn row with
    | none => exact .full hactive hadd
    | some v =>
        obtain ⟨spawn, hget⟩ := World.getPlayer_addPlayer hadd
        have hp := (hget id).trans (if_pos rfl)
        dsimp only
        rw [hp]
        exact .added hactive v _ hadd hp

end GameWorld

end Mmorpg
