/-
No character leaves the world unsaved.

A player is put into `m_players` by `AddPlayer` and taken out by
`ProcessDisconnect`, which takes its tile, releases its database id and posts
the save. `AddPlayer` writes under the id of the session without a look at who
is there: a second character that is admitted on the same session overwrites
the first, which then is never saved and never released.
-/
import SimplestMmorpg.Game.Tidy
import SimplestMmorpg.Server.Linked

set_option autoImplicit false

namespace Mmorpg.Server

open World Transition

variable {s : Server} {e : Event} {env : Env} {id : ObjectID} {p : Player}

/-- What `ProcessDisconnect` leaves of a player: nothing in the world, its
database id free, and the save of its last state posted. -/
structure Left (s s' : Server) (p : Player) : Prop where
  player : s'.game.world.getPlayer p.id = none
  tile : ∀ q, s'.game.world.sectorManager.getOccupant q ≠ p.id
  sector : ∀ z, p.id ∉ s'.game.world.sectorManager.sectors z
  dbId : p.dbId ∉ s'.game.activeDbIds
  saved : ∃ stamp, s'.game.saveQueue = s.game.saveQueue ++ [.savePlayer p.snapshot stamp]

/-- Whoever is in the world stays, as the same object, or leaves in the
disconnect of its session. -/
def NobodyVanishes (s : Server) (e : Event) : Prop :=
  ∀ id p, s.game.world.getPlayer id = some p →
    (∃ q, (s.step e).game.world.getPlayer id = some q ∧ q.who = p.who) ∨
      (∃ env, e = .close id env) ∧ Left s (s.step e) p

/-- A login that will be admitted meets a session without a player. -/
def FreshLogin (s : Server) : Event → Prop
  | .complete k _ =>
    ∀ c row, s.completions[k]? = some c → c.result = .loaded row →
      (s.getSession c.sessionId).isSome → row.id ∉ s.game.activeDbIds →
      (s.game.world.sectorManager.addObject c.sessionId ⟨row.x, row.y⟩ s.game.world.map).isSome →
      s.game.world.getPlayer c.sessionId = none
  | _ => True

/-! ## What a step does to the players -/

/-- The players stay who they were, or one is added, or one is taken out. -/
inductive PlayersStep (s : Server) (e : Event) : Prop
  | steady
      (hplayers : ∀ id, ((s.step e).game.world.getPlayer id).map Player.who =
        (s.game.world.getPlayer id).map Player.who)
      (hserial : (s.step e).game.world.nextSerial = s.game.world.nextSerial)
  | joined (k : ℕ) (env : Env) (c : Completion) (conn : ConnId) (row : PlayerRow) (v : World)
      (p : Player) (he : e = .complete k env) (hc : s.completions[k]? = some c)
      (hrow : c.result = .loaded row) (hs : s.getSession c.sessionId = some conn)
      (hfree : row.id ∉ s.game.activeDbIds)
      (hadd : s.game.world.addPlayer c.sessionId conn row = some v)
      (hp : v.getPlayer c.sessionId = some p)
      (hworld : (s.step e).game.world = v.welcome env conn p)
  | left (id : ObjectID) (env : Env) (p : Player) (he : e = .close id env)
      (hp : s.game.world.getPlayer id = some p)
      (hgame : (s.step e).game = s.game.processDisconnect env id)

theorem PlayersStep.of_steady (h : Steady s.game.world (s.step e).game.world) : PlayersStep s e :=
  .steady h.players h.nextSerial

/-- A step that leaves the world alone. -/
theorem PlayersStep.of_eq (h : (s.step e).game.world = s.game.world) : PlayersStep s e :=
  .steady (fun _ => by rw [h]) (by rw [h])

theorem playersStep (h : Linked s) (e : Event) : PlayersStep s e := by
  have hstep := worldStep s e
  generalize hw : (s.step e).game.world = w at hstep
  cases hstep with
  | idle => exact .of_eq hw
  | tick ms => exact .of_steady (steady_of_eq rfl rfl rfl)
  | left id env conn p hs hp =>
      refine .left id env p rfl hp ?_
      rw [step, disconnectSession, hs]
  | packet id data size env conn hs =>
      apply PlayersStep.of_steady
      rw [hw]
      exact (calm_handlePacket (h.session_of_player hs) env data size).toSteady
  | refused => exact .steady (fun _ => by rw [hw]; rfl) (by rw [hw]; rfl)
  | joined k env c conn row v p hc hrow ho hfree hadd hp =>
      exact .joined k env c conn row v p rfl hc hrow ho hfree hadd hp hw
  | fired k env ev hev =>
      exact .of_steady (steady_fireTimer s env k)

/-- `ProcessDisconnect` of a session that has a player. -/
theorem processDisconnect_of_some {gw : GameWorld} (env : Env)
    (hp : gw.world.getPlayer id = some p) :
    ∃ stamp, gw.processDisconnect env id =
      { world := gw.world.leave env p
        activeDbIds := gw.activeDbIds.filter (· ≠ p.dbId)
        saveQueue := gw.saveQueue ++ [.savePlayer p.snapshot stamp]
        departures := gw.departures ++ [p] } := by
  unfold GameWorld.processDisconnect
  rw [hp]
  exact ⟨_, rfl⟩

/-! ## One step -/

/-- Under its id a player is written that is not older than the counter. -/
def Serials (w : World) : Prop := ∀ id p, w.getPlayer id = some p → p.serial < w.nextSerial

theorem serial_of_addPlayer {w v : World} {conn : ConnId} {row : PlayerRow}
    (hadd : w.addPlayer id conn row = some v) :
    v.nextSerial = w.nextSerial + 1 ∧
      ∀ i q, v.getPlayer i = some q →
        i = id ∧ q.serial = w.nextSerial ∨ i ≠ id ∧ w.getPlayer i = some q := by
  obtain ⟨spawn, hget⟩ := getPlayer_addPlayer hadd
  obtain ⟨sm, sp, -, hv⟩ := addPlayer_eq_some hadd
  refine ⟨by rw [hv]; rfl, fun i q hq => ?_⟩
  rw [hget] at hq
  split at hq
  · next hi => exact .inl ⟨hi, by rw [← Option.some.inj hq]; rfl⟩
  · next hi => exact .inr ⟨hi, hq⟩

/-- The invariant of a run whose logins are fresh. -/
structure Settled (s : Server) : Prop where
  linked : Linked s
  tidy : Tidy s.game.world
  serials : Serials s.game.world

theorem serials_step (h : Settled s) (e : Event) : Serials (s.step e).game.world := by
  intro i q hq
  cases playersStep h.linked e with
  | steady hplayers hserial =>
      have hwho := hplayers i
      rw [hq, Option.map_some] at hwho
      obtain ⟨p, hp, hpq⟩ := Option.map_eq_some_iff.mp hwho.symm
      have hlt := h.serials i p hp
      have hs : p.serial = q.serial := congrArg Player.Who.serial hpq
      rw [hserial, ← hs]
      exact hlt
  | joined k env c conn row v p he hc hrow hs hfree hadd hp hworld =>
      obtain ⟨hnext, hold⟩ := serial_of_addPlayer hadd
      have hid := getPlayer_id hp
      have hw := (calm_welcome (w := v) (p := p) (by rw [hid, hp]) env).toSteady
      obtain rfl := session_of_addPlayer hadd hp
      rw [hworld] at hq ⊢
      obtain ⟨r, hr, hrq⟩ := hw.player hq
      have hserial : r.serial = q.serial := congrArg Player.Who.serial hrq
      rw [hw.nextSerial, hnext, ← hserial]
      rcases hold i r hr with ⟨-, hnew⟩ | ⟨-, hkept⟩
      · omega
      · exact Nat.lt_succ_of_lt (h.serials i r hkept)
  | left id env p he hp hgame =>
      obtain ⟨stamp, hgone⟩ := processDisconnect_of_some env hp
      rw [hgame, hgone] at hq ⊢
      rw [getPlayer_leave] at hq
      split at hq
      · exact absurd hq (by simp)
      · exact h.serials i q hq

theorem tidy_step (h : Settled s) (hfresh : FreshLogin s e) : Tidy (s.step e).game.world := by
  have hstep := worldStep s e
  generalize (s.step e).game.world = w at hstep ⊢
  cases hstep with
  | idle => exact h.tidy
  | tick ms => exact h.tidy.of_same rfl fun _ => rfl
  | left id env conn p hs hp =>
      obtain rfl := getPlayer_id hp
      exact tidy_leave h.tidy hp
  | packet id data size env conn hs =>
      -- no request takes a player in or out
      unfold handlePacket
      split
      · exact h.tidy
      · exact h.tidy
      · exact tidy_processMove h.tidy conn data
      · exact tidy_processAttack h.tidy
      · exact h.tidy.inert (inert_processChat env id data _)
      · exact tidy_processTeleport h.tidy conn
  | refused => exact h.tidy.send _ _
  | joined k env c conn row v p hc hrow ho hfree hadd hp =>
      -- nobody with the id is left in the world
      have hnew := hfresh c row hc hrow (by rw [ho]; rfl) hfree (isSome_addObject hadd)
      have hv := tidy_addPlayer h.tidy (getSession_eq_some ho).1 hnew hadd
      exact ((hv.send _ _).sendAll _).inert (inert_activateNearbyMonsters env _ _)
  | fired k env ev hev =>
      have htaken : Tidy { s.game.world with timers := s.game.world.timers.eraseIdx k } :=
        h.tidy.of_same rfl fun _ => rfl
      cases ht : ev.type with
      | hpRegen => exact tidy_hpRegen htaken
      | monsterAi => exact tidy_monsterAi htaken
      | monsterRespawn => exact tidy_respawnMonster htaken
      | dbSave =>
          simp only [GameWorld.handleTimerEvent]
          rw [world_saveAllPlayers]
          exact htaken.addTimer _ _ _ _

theorem settled_step (s : Server) (e : Event) (h : Settled s) (hfresh : FreshLogin s e) :
    Settled (s.step e) :=
  ⟨linked_step s e h.linked, tidy_step h hfresh, serials_step h e⟩

/-- A player that is taken out by the disconnect of its session is saved and
leaves nothing behind. -/
theorem left_of_processDisconnect (h : Settled s) (hp : s.game.world.getPlayer id = some p)
    (hgame : (s.step e).game = s.game.processDisconnect env id) : Left s (s.step e) p := by
  obtain rfl := getPlayer_id hp
  obtain ⟨stamp, hgone⟩ := processDisconnect_of_some env hp
  have hnone : (s.game.world.leave env p).getPlayer p.id = none := by
    rw [getPlayer_leave, if_pos rfl]
  have htidy : Tidy (s.game.world.leave env p) := tidy_leave h.tidy hp
  have hwithin := htidy.within p.id
    (lt_offset_of_lt (h.tidy.playerId _ p hp))
  rw [playerPos, hnone, Option.map_none] at hwithin
  refine ⟨?_, fun q hq => ?_, fun z hz => ?_, ?_, stamp, ?_⟩
  · rw [hgame, hgone]
    exact hnone
  · rw [hgame, hgone] at hq
    exact absurd (hwithin.tiles q hq) (by simp)
  · rw [hgame, hgone] at hz
    exact absurd (hwithin.zones z hz) (by simp)
  · rw [hgame, hgone]
    simp
  · rw [hgame, hgone]

theorem deliver_of_open (env : Env) {k : ℕ} {c : Completion} {conn : ConnId} {row : PlayerRow}
    (hc : s.completions[k]? = some c) (ho : s.getSession c.sessionId = some conn)
    (hrow : c.result = .loaded row) :
    (s.deliver env k).game = s.game.onLoginDBLoaded env c.sessionId (some conn) row := by
  have hopen : getSession { s with completions := s.completions.eraseIdx k } c.sessionId =
      some conn := ho
  unfold deliver
  rw [hc]
  unfold runCallback
  dsimp only
  rw [hrow, hopen]

/-- A login that is admitted writes a new player under the id of its session. -/
theorem overwritten (env : Env) {k : ℕ} {c : Completion} {conn : ConnId} {row : PlayerRow}
    (hc : s.completions[k]? = some c) (hrow : c.result = .loaded row)
    (ho : s.getSession c.sessionId = some conn) (hfree : row.id ∉ s.game.activeDbIds)
    (hfits : (s.game.world.sectorManager.addObject c.sessionId ⟨row.x, row.y⟩
      s.game.world.map).isSome) :
    ∃ q, (s.step (.complete k env)).game.world.getPlayer c.sessionId = some q ∧
      q.serial = s.game.world.nextSerial := by
  have hgame := deliver_of_open env hc ho hrow
  have hspec := GameWorld.onLoginDBLoaded_spec env s.game c.sessionId conn row
  rw [step, hgame]
  generalize s.game.onLoginDBLoaded env c.sessionId (some conn) row = gw at hspec ⊢
  cases hspec with
  | duplicate hactive => exact absurd hactive hfree
  | full _ hadd =>
      unfold addPlayer at hadd
      dsimp only at hadd
      split at hadd
      · next hnone =>
          rw [hnone] at hfits
          exact absurd hfits (by simp)
      · exact absurd hadd (by simp)
  | added _ v p hadd hp =>
      have hid := getPlayer_id hp
      have hw := (calm_welcome (w := v) (p := p) (by rw [hid, hp]) env).toSteady
      have hsession := session_of_addPlayer hadd hp
      rw [hsession] at hw
      obtain ⟨q, hq, hwho⟩ := hw.player' hp
      refine ⟨q, hq, (congrArg Player.Who.serial hwho).trans ?_⟩
      rcases (serial_of_addPlayer hadd).2 _ p hp with ⟨-, hnew⟩ | ⟨hne, -⟩
      · exact hnew
      · exact absurd rfl hne

/-- **One step.** Nobody vanishes in it exactly when the login it admits, if it
admits one, meets a session without a player. -/
theorem nobodyVanishes_iff (h : Settled s) (e : Event) : NobodyVanishes s e ↔ FreshLogin s e := by
  constructor
  · intro hstay
    cases e with
    | complete k env =>
        intro c row hc hrow hopen hfree hfits
        cases hp : s.game.world.getPlayer c.sessionId with
        | none => rfl
        | some p =>
            exfalso
            obtain ⟨conn, ho⟩ := Option.isSome_iff_exists.mp hopen
            obtain ⟨q, hq, hserial⟩ := overwritten env hc hrow ho hfree hfits
            rcases hstay c.sessionId p hp with ⟨r, hr, hwho⟩ | ⟨⟨env', he⟩, -⟩
            · have hlt := h.serials _ p hp
              have hs : r.serial = p.serial := congrArg Player.Who.serial hwho
              have hrq : r = q := Option.some.inj (hr.symm.trans hq)
              rw [← hs, hrq, hserial] at hlt
              exact Nat.lt_irrefl _ hlt
            · exact absurd he (by simp)
    | _ => trivial
  · intro hfresh id p hp
    cases playersStep h.linked e with
    | steady hplayers _ =>
        have hwho := hplayers id
        rw [hp, Option.map_some] at hwho
        exact .inl (Option.map_eq_some_iff.mp hwho)
    | joined k env c conn row v q he hc hrow hs hfree hadd hq hworld =>
        subst he
        have hnew := hfresh c row hc hrow (by rw [hs]; rfl) hfree (isSome_addObject hadd)
        have hne : id ≠ c.sessionId := by
          rintro rfl
          exact absurd (hnew.symm.trans hp) (by simp)
        obtain ⟨spawn, hget⟩ := getPlayer_addPlayer hadd
        have hv : v.getPlayer id = some p := by rw [hget, if_neg hne, hp]
        have hid := getPlayer_id hq
        have hw := (calm_welcome (w := v) (p := q) (by rw [hid, hq]) env).toSteady
        obtain rfl := session_of_addPlayer hadd hq
        rw [hworld]
        exact .inl (hw.player' hv)
    | left k env q he hq hgame =>
        subst he
        by_cases hk : id = k
        · subst hk
          exact .inr ⟨⟨env, rfl⟩, left_of_processDisconnect h hp hgame⟩
        · obtain ⟨stamp, hgone⟩ := processDisconnect_of_some env hq
          refine .inl ⟨p, ?_, rfl⟩
          have hne : id ≠ q.id := fun heq => hk (heq.trans (getPlayer_id hq))
          rw [hgame, hgone, getPlayer_leave, if_neg hne, hp]

/-! ## Whole runs -/

theorem settled_init (map : Map) (spawns : List MonsterSpawnData) (now : ℕ) (store : PlayerStore) :
    Settled (init map spawns now store) where
  linked := linked_init map spawns now store
  tidy := tidy_init map spawns now
  serials id p hp := by
    have hopen := (linked_init map spawns now store).player id p hp
    exact absurd hopen (by simp [init])

/-- **No character vanishes unsaved exactly in the runs whose logins are fresh**:
for every map, every spawn script, every database and every order of every
number of steps, whoever is in the world before a step is there after it, or
left in the disconnect of its session, which saved it. -/
theorem nobodyVanishes_run {map : Map} {spawns : List MonsterSpawnData} {now : ℕ}
    {store : PlayerStore} {es : List Event} :
    Along step NobodyVanishes (init map spawns now store) es ↔
      Along step FreshLogin (init map spawns now store) es :=
  along_iff_of_invariant settled_step (fun _ e h => nobodyVanishes_iff h e)
    (settled_init map spawns now store)

/-- The names under the id of the session, before the last step of the second
login and after it. -/
theorem secondLogin_names :
    let s := run step (init openField [] 0 .init) (secondLogin.take 6)
    (s.game.world.getPlayer 0).map Player.name = some [65] ∧
      ((s.step (.complete 0 .plain)).game.world.getPlayer 0).map Player.name = some [66] := by
  decide +kernel

/-- The second login writes over the first player, who is not saved. -/
theorem not_always_nobodyVanishes :
    ¬ ∀ (map : Map) (spawns : List MonsterSpawnData) (now : ℕ) (store : PlayerStore)
      (es : List Event), Along step NobodyVanishes (init map spawns now store) es := by
  intro hall
  have hsplit : secondLogin = secondLogin.take 6 ++ [.complete 0 .plain] := rfl
  have h := hall openField [] 0 .init secondLogin
  rw [hsplit, along_append] at h
  obtain ⟨hbefore, hafter⟩ := secondLogin_names
  obtain ⟨p, hp, hname⟩ := Option.map_eq_some_iff.mp hbefore
  rcases h.2.1 0 p hp with ⟨q, hq, hwho⟩ | ⟨⟨env, he⟩, -⟩
  · have hsame : q.name = p.name := congrArg Player.Who.name hwho
    rw [hq, Option.map_some, hsame, hname] at hafter
    exact absurd hafter (by simp)
  · exact absurd he (by simp)

end Mmorpg.Server
