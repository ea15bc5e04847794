/-
How fast a player can walk.

The server is told where a client wants to go, but moves a player by one tile at
a time, and not again before the cooldown. So a player that is on foot, which
neither teleports nor dies nor sends a direction that is none of the four, gets no
further in a stretch of time than one tile for each cooldown, and one.

The time that counts is `m_lastMoveTime`. What changes it is a move request that
the cooldown lets through: that no other event does is in `Server/Pacing`, and that
no other event moves the player is shown here.
-/
import SimplestMmorpg.Client.OwnPosition
import SimplestMmorpg.Game.MoveRequest
import SimplestMmorpg.Game.Unseen
import SimplestMmorpg.Server.Pacing

set_option autoImplicit false

namespace Mmorpg

open World Transition
open Pathfinder (manhattan)

namespace World

variable {env : Env} {w w' : World} {id k : ObjectID} {p q : Player} {m : Monster}

/-! ## What moves a player -/

/-- The hit does not kill this player. -/
def Survived (id : ObjectID) (hit : Hit) : Prop :=
  ∀ p, hit.victimId = id → hit.before.getPlayer id = some p → p.isDead = false →
    (p.takeDamage (hit.attacker.level.toNat * 5)).isDead = false

/-- The player stays where it is. -/
def StandsStill (id : ObjectID) (w w' : World) : Prop := w'.playerPos id = w.playerPos id

theorem standsStill_of_stays (h : Stays w w') : StandsStill id w w' := by
  have hident := h.players id
  have hpos := congrArg (Option.map Player.Ident.pos) hident
  rw [Option.map_map, Option.map_map] at hpos
  exact hpos

theorem standsStill_of_eq (h : w'.getPlayer id = w.getPlayer id) : StandsStill id w w' := by
  rw [StandsStill, playerPos, playerPos, h]

/-- The request of somebody else. -/
theorem standsStill_processMove (env : Env) (session : ConnId) (data : Bytes) (hk : id ≠ k) :
    StandsStill id w (w.processMove env k session data) := by
  rcases processMove_cases env k session data w with heq | ⟨p, new, sm, hp, -, -, -, -, heq⟩
  · rw [heq]
    rfl
  · obtain rfl := getPlayer_id hp
    rw [heq]
    refine standsStill_of_eq ?_
    refine (getPlayer_activateNearbyMonsters env new _ id).trans ?_
    exact (getPlayer_setPlayer ((p.setPos new).onMoved w.now) id).trans (if_neg hk)

theorem standsStill_processTeleport (env : Env) (session : ConnId) (hk : id ≠ k) :
    StandsStill id w (w.processTeleport env k session) := by
  rcases processTeleport_cases env k session w with heq | ⟨p, sm, new, hp, -, heq⟩
  · rw [heq]
    rfl
  · obtain rfl := getPlayer_id hp
    rw [heq]
    refine standsStill_of_eq ?_
    refine (getPlayer_activateNearbyMonsters env new _ id).trans ?_
    exact (getPlayer_setPlayer (p.setPos new) id).trans (if_neg hk)

/-- **A hit that does not kill** moves nobody. -/
theorem standsStill_monsterAttackPlayer (env : Env) (hp : w.getPlayer k = some p)
    (hhit : Survived id ⟨w, m, k⟩) : StandsStill id w (w.monsterAttackPlayer env m p) := by
  obtain rfl := getPlayer_id hp
  by_cases hk : id = p.id
  · subst hk
    unfold monsterAttackPlayer
    split
    · rfl
    · next halive =>
        -- the branch of `OnPlayerDied` is not taken
        have hsurvives := hhit p rfl hp (by simpa using halive)
        have hget := getPlayer_setPlayer_self w (p.takeDamage (m.level.toNat * 5))
        dsimp only
        rw [hsurvives, if_neg (by simp)]
        exact standsStill_of_stays ((stays_wound hp _ _).trans
          (stays_startRegen (p := p.takeDamage (m.level.toNat * 5)) hget))
  · exact standsStill_of_eq (getPlayer_monsterAttackPlayer_of_ne env m hk w)

theorem getPlayer_moveMonster (env : Env) (m : Monster) (new : Position) (w : World) :
    (w.moveMonster env m new).getPlayer id = w.getPlayer id := by
  unfold moveMonster
  split
  · rfl
  · rfl

theorem getPlayer_chase (env : Env) (m : Monster) (targetPos : Position) (w : World) :
    (w.chase env m targetPos).getPlayer id = w.getPlayer id := by
  rcases chase_cases env m targetPos w with heq | ⟨new, -, -, heq⟩
  · rw [heq]
  · rw [heq]
    exact getPlayer_moveMonster env m new w

theorem getPlayer_roamingMove (env : Env) (m : Monster) (w : World) :
    (w.roamingMove env m).getPlayer id = w.getPlayer id := by
  rcases roamingMove_cases env m w with heq | ⟨new, -, -, heq⟩
  · rw [heq]
  · rw [heq]
    exact getPlayer_moveMonster env m new w

/-- What a monster does moves nobody that its hits leave alive. -/
theorem standsStill_perform (env : Env) (m : Monster) (action : AiAction)
    (hhits : ∀ victims, action = .attack victims → ∀ hit ∈ hitsFrom env m victims w,
      Survived id hit) : StandsStill id w (w.perform env m action) := by
  cases action with
  | idle => rfl
  | clearTarget => rfl
  | setTarget t => rfl
  | chase targetPos => exact standsStill_of_eq (getPlayer_chase env m targetPos w)
  | roam => exact standsStill_of_eq (getPlayer_roamingMove env m w)
  | attack victims =>
      have hloop : StandsStill id w (victims.foldl (attackVictim env m) w) := by
        refine attackVictims_induction (P := StandsStill id w) env victims rfl ?_
        intro v victimId victim hmem hv hvictim
        exact (standsStill_monsterAttackPlayer env hvictim (hhits victims rfl _ hmem)).trans hv
      unfold perform attackAdjacent modifyMonster
      dsimp only
      split
      · exact hloop
      · exact hloop

theorem standsStill_monsterAi (env : Env) (hhits : ∀ hit ∈ hitsOf env k w, Survived id hit) :
    StandsStill id w (w.monsterAi env k) := by
  have hspec := monsterAi_spec env k w
  generalize w.monsterAi env k = v at hspec
  cases hspec with
  | nothing => rfl
  | asleep m hm => rfl
  | tick m hm halive hof =>
      refine standsStill_perform env m _ fun victims hact => ?_
      rw [← hof victims hact]
      exact hhits

end World

namespace Server

variable {s : Server} {e : Event} {es more : List Event} {id : ObjectID} {p q : Player}

/-- The player is on foot in this step: it asks for no teleport and for none but
the four directions, and is not killed. -/
def OnFoot (id : ObjectID) (s : Server) : Event → Prop
  | .packet k data size _ => k = id → requestOf data size ≠ some .teleport ∧
      (requestOf data size = some .move → byteAt data 4 < 4)
  | .timer k env =>
    ∀ ev, s.game.world.timers[k]? = some ev → ev.type = .monsterAi →
      ∀ hit ∈ hitsOf env ev.targetId { s.game.world with timers := s.game.world.timers.eraseIdx k },
        Survived id hit
  | _ => True

/-- What asks for a step. -/
def AsksToMove (id : ObjectID) (e : Event) : Prop :=
  ∃ data size env, e = .packet id data size env ∧ requestOf data size = some .move

/-! ## One step -/

theorem standsStill_handlePacket (env : Env) (k : ObjectID) (conn : ConnId) (data : Bytes)
    (size : ℕ) (hother : requestOf data size = some .move ∨ requestOf data size = some .teleport →
      id ≠ k) : StandsStill id s.game.world (s.handlePacket env k conn data size).game.world := by
  unfold handlePacket
  split
  · rfl
  · rfl
  · next hreq => exact standsStill_processMove env conn data (hother (.inl hreq))
  · exact standsStill_of_stays (stays_processAttack env k _)
  · exact standsStill_of_stays (stays_processChat env k data _)
  · next hreq => exact standsStill_processTeleport env conn (hother (.inr hreq))

/-- **Only its own move requests move a player that is on foot.** -/
theorem pos_step (hserials : Serials s.game.world) (hp : s.game.world.getPlayer id = some p)
    (hq : (s.step e).game.world.getPlayer id = some q) (hsame : q.serial = p.serial)
    (hfoot : OnFoot id s e) (hno : ¬ AsksToMove id e) : q.pos = p.pos := by
  have hstands : StandsStill id s.game.world (s.step e).game.world → q.pos = p.pos := by
    intro h
    rw [StandsStill, playerPos_of_getPlayer hp, playerPos_of_getPlayer hq] at h
    exact Option.some.inj h
  have hstep := worldStep s e
  generalize (s.step e).game.world = w at hstep hstands hq
  cases hstep with
  | idle => exact hstands rfl
  | tick ms => exact hstands rfl
  | refused => exact hstands rfl
  | left k env conn r hs hr =>
      rw [getPlayer_leave] at hq
      split at hq
      · exact absurd hq (by simp)
      · rw [Option.some.inj (hp.symm.trans hq)]
  | packet k data size env conn hs =>
      refine hstands (standsStill_handlePacket env k conn data size ?_)
      rintro hreq rfl
      rcases hreq with hmove | hteleport
      · exact hno ⟨data, size, env, rfl, hmove⟩
      · exact (hfoot rfl).1 hteleport
  | joined k env c conn row v r hc hrow ho hfree hadd hr =>
      obtain ⟨spawn, hget⟩ := getPlayer_addPlayer hadd
      rw [getPlayer_welcome, hget] at hq
      split at hq
      · -- the new player has a serial number of its own
        have hlt := hserials id p hp
        rw [← hsame, ← Option.some.inj hq] at hlt
        exact absurd hlt (Nat.lt_irrefl _)
      · rw [Option.some.inj (hp.symm.trans hq)]
  | fired k env ev hev =>
      refine hstands ?_
      -- the player does not stand elsewhere for the event being taken off the queue
      let erased := { s.game.world with timers := s.game.world.timers.eraseIdx k }
      cases htype : ev.type with
      | hpRegen => exact standsStill_of_stays (w := erased) (stays_hpRegen erased ev.targetId)
      | monsterRespawn =>
          exact standsStill_of_stays (w := erased) (stays_respawnMonster env ev.targetId erased)
      | monsterAi => exact standsStill_monsterAi (w := erased) env (hfoot ev hev htype)
      | dbSave =>
          rw [world_handleTimerEvent_dbSave]
          rfl

/-- What a step makes of a player on foot: nothing, or one tile, which it has
waited for. -/
def Walks (now : ℕ) (p q : Player) : Prop :=
  q.pos = p.pos ∧ q.lastMoveTime = p.lastMoveTime ∨
    manhattan p.pos q.pos = 1 ∧ InMap q.pos ∧ p.lastMoveTime + moveCooldownMs ≤ now ∧
      q.lastMoveTime = now

theorem Walks.refl (now : ℕ) (p : Player) : Walks now p p := .inl ⟨rfl, rfl⟩

theorem walks_processMove {env : Env} {conn : ConnId} {data : Bytes} {w : World}
    (hp : w.getPlayer id = some p) (hin : InMap p.pos) (hdir : byteAt data 4 < 4)
    (hq : (w.processMove env id conn data).getPlayer id = some q) : Walks w.now p q := by
  rcases processMove_cases env id conn data w with
    heq | ⟨r, new, sm, hr, hcan, hnew, hwalk, -, heq⟩
  · rw [heq, hp] at hq
    obtain rfl := Option.some.inj hq
    exact .refl w.now p
  · obtain rfl := Option.some.inj (hp.symm.trans hr)
    obtain rfl := getPlayer_id hp
    rw [heq, (moveTo_frame env conn p new _ sm w).2] at hq
    obtain rfl := Option.some.inj hq
    have hbeside := beside_towards env hin hdir
    rw [← hnew] at hbeside
    have hcool : moveCooldownMs ≤ w.now - p.lastMoveTime := of_decide_eq_true hcan
    refine .inr ⟨hbeside, w.map.inMap_of_isWalkable hwalk, ?_, rfl⟩
    unfold moveCooldownMs at hcool ⊢
    omega

/-- **A step of a player on foot.** -/
theorem walks_step (hl : Linked s) (hserials : Serials s.game.world)
    (hp : s.game.world.getPlayer id = some p) (hin : InMap p.pos)
    (hq : (s.step e).game.world.getPlayer id = some q) (hsame : q.serial = p.serial)
    (hfoot : OnFoot id s e) : Walks s.game.world.now p q := by
  by_cases hask : AsksToMove id e
  · -- the request is carried out, or leaves everything
    obtain ⟨data, size, env, rfl, hmove⟩ := hask
    cases hs : s.sessions id with
    | none =>
        have hidle : s.step (.packet id data size env) = s := by rw [step, hs]
        rw [hidle, hp] at hq
        obtain rfl := Option.some.inj hq
        exact .refl s.game.world.now p
    | some conn =>
        rw [world_step_request (k := .move) env hs hmove] at hq
        exact walks_processMove hp hin ((hfoot rfl).2 hmove) hq
  · refine .inl ⟨pos_step hserials hp hq hsame hfoot hask, ?_⟩
    -- and no other event touches the time of its last move
    have hnone : attempt .move id p.serial s e = none := by
      by_contra hsome
      obtain ⟨a, ha⟩ := Option.ne_none_iff_exists'.mp hsome
      obtain ⟨data, size, env, conn, r, rfl, -, hmove, -⟩ := of_attempt ha
      exact hask ⟨data, size, env, rfl, hmove⟩
    rcases comes_from hl hnone q hq hsame with ⟨r, hr, -, hlast⟩ | ⟨hnew, -⟩
    · rw [Option.some.inj (hp.symm.trans hr)]
      exact hlast.symm
    · have hlt := hserials id p hp
      omega

/-! ## Whole stretches -/

/-- What holds along a stretch that began at the time `start` with this player. -/
structure Limited (id : ObjectID) (p : Player) (start : ℕ) (s : Server) : Prop where
  linked : Linked s
  serials : Serials s.game.world
  old : p.serial < s.game.world.nextSerial
  later : start ≤ s.game.world.now
  here : ∀ q, s.game.world.getPlayer id = some q → q.serial = p.serial → InMap q.pos ∧
    (q.pos = p.pos ∨ start ≤ q.lastMoveTime ∧ q.lastMoveTime ≤ s.game.world.now ∧
      manhattan p.pos q.pos * moveCooldownMs ≤ q.lastMoveTime - start + moveCooldownMs)

theorem limited_step {start : ℕ} (h : Limited id p start s) (hfoot : OnFoot id s e) :
    Limited id p start (s.step e) := by
  obtain ⟨hnext, hthere⟩ := there_or_new h.linked e
  have hold := h.old
  have hnow := now_le_step s e
  have hlater := h.later
  refine ⟨linked_step s e h.linked, serials_of_linked h.linked h.serials e, by omega, by omega,
    fun q hq hsame => ?_⟩
  rcases hthere id q hq with ⟨r, hr, hrs⟩ | ⟨hnew, -⟩
  · obtain ⟨hin, hbefore⟩ := h.here r hr (hrs.trans hsame)
    rcases walks_step h.linked h.serials hr hin hq hrs.symm hfoot with
      ⟨hpos, hlast⟩ | ⟨hone, hin', hrested, hlast⟩
    · rw [hpos, hlast]
      refine ⟨hin, hbefore.imp_right fun hfar => ?_⟩
      exact ⟨hfar.1, by omega, hfar.2.2⟩
    · refine ⟨hin', .inr ⟨by omega, by omega, ?_⟩⟩
      -- one tile more, and one cooldown
      have htriangle := Pathfinder.manhattan_triangle p.pos r.pos q.pos
      unfold moveCooldownMs at hrested hbefore ⊢
      rcases hbefore with hsamePos | ⟨-, hbefore, hfar⟩
      · rw [← hsamePos]
        omega
      · omega
  · omega

/-- **The speed limit.** In any run, and in any stretch of it in which a player that
stands on the map is on foot, the player gets no further than one tile for each
cooldown in the time of the stretch, and one, whatever its client asks for. -/
theorem speedLimit_run {map : Map} {spawns : List MonsterSpawnData} {now : ℕ} {store : PlayerStore}
    (hp : (run step (init map spawns now store) es).game.world.getPlayer id = some p)
    (hin : InMap p.pos)
    (hfoot : Along step (OnFoot id) (run step (init map spawns now store) es) more)
    (hq : (run step (init map spawns now store) (es ++ more)).game.world.getPlayer id = some q)
    (hsame : q.serial = p.serial) :
    manhattan p.pos q.pos * moveCooldownMs ≤
      (run step (init map spawns now store) (es ++ more)).game.world.now -
        (run step (init map spawns now store) es).game.world.now + moveCooldownMs := by
  have hlinked := linked_run map spawns now store es
  have hserials := serials_run map spawns now store es
  rw [run_append] at *
  generalize run step (init map spawns now store) es = s at *
  have hlimited : Limited id p s.game.world.now s := by
    refine ⟨hlinked, hserials, hserials id p hp, Nat.le_refl _, fun r hr _ => ?_⟩
    obtain rfl := Option.some.inj (hp.symm.trans hr)
    exact ⟨hin, .inl rfl⟩
  have hend : Limited id p s.game.world.now (run step s more) :=
    invariant (fun _ _ h hf => limited_step h hf) hlimited hfoot
  have hlater := hend.later
  rcases (hend.here q hq hsame).2 with hsamePos | ⟨hfrom, hto, hfar⟩
  · rw [hsamePos, Pathfinder.manhattan_self]
    omega
  · omega

/-- Two requests a second, for two seconds. -/
def hurries : List Event :=
  [.tick 1000, .packet 0 southPacket 13 .plain, .packet 0 southPacket 13 .plain,
    .tick 1000, .packet 0 southPacket 13 .plain, .packet 0 southPacket 13 .plain]

theorem speedLimit_run_hurries :
    ∃ p q, (run step (init openField [] 0 .init) oneLogin).game.world.getPlayer 0 = some p ∧
      (run step (init openField [] 0 .init) (oneLogin ++ hurries)).game.world.getPlayer 0 = some q ∧
      p.pos = ⟨0, 0⟩ ∧ q.pos = ⟨0, 2⟩ ∧ manhattan p.pos q.pos * moveCooldownMs ≤
        (run step (init openField [] 0 .init) (oneLogin ++ hurries)).game.world.now -
          (run step (init openField [] 0 .init) oneLogin).game.world.now + moveCooldownMs := by
  have hbefore : ((run step (init openField [] 0 .init) oneLogin).game.world.getPlayer 0).map
      (fun p => (p.pos, p.serial)) = some (⟨0, 0⟩, 0) := by decide +kernel
  have hafter : ((run step (init openField [] 0 .init)
      (oneLogin ++ hurries)).game.world.getPlayer 0).map (fun p => (p.pos, p.serial)) =
        some (⟨0, 2⟩, 0) := by decide +kernel
  obtain ⟨p, hp, hpair⟩ := Option.map_eq_some_iff.mp hbefore
  obtain ⟨hpos, hserial⟩ := Prod.mk.inj hpair
  obtain ⟨q, hq, hpair'⟩ := Option.map_eq_some_iff.mp hafter
  obtain ⟨hpos', hserial'⟩ := Prod.mk.inj hpair'
  have hasks : requestOf southPacket 13 ≠ some .teleport ∧
      (requestOf southPacket 13 = some .move → byteAt southPacket 4 < 4) := by decide
  refine ⟨p, q, hp, hq, hpos, hpos', speedLimit_run hp ?_ ?_ hq (hserial'.trans hserial.symm)⟩
  · rw [hpos]
    decide
  · exact ⟨trivial, fun _ => hasks, fun _ => hasks, trivial, fun _ => hasks, fun _ => hasks,
      trivial⟩

end Server

end Mmorpg
