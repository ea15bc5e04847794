/-
How many regeneration timers a player has.

`m_regenActive` is set when a timer is armed and cleared when the timer ends.
A death clears it while the timer is still queued, and a logout leaves the
timer queued for whoever gets the session id next; a hit that comes before the
old timer has fired then arms a second one. `ArmsOnce` excludes these two, and
then there is at most one timer for each session id, and it belongs to the
player that has the id.
-/
import SimplestMmorpg.Server.Linked

set_option autoImplicit false

namespace Mmorpg

open Transition

namespace World

/-- How many `HP_REGEN` events are outstanding for a session id. -/
def outstandingRegens (w : World) (id : ObjectID) : ℕ :=
  w.timers.countP fun ev => ev.type = .hpRegen ∧ ev.targetId = id

/-- At most one event for each session id, armed for the player that has it. -/
structure RegenOk (w : World) : Prop where
  atMostOne : ∀ id, w.outstandingRegens id ≤ 1
  owner : ∀ ev ∈ w.regenTimers, ∀ p, w.getPlayer ev.targetId = some p → ev.owner = some p.serial

variable {env : Env} {w w' v : World} {id : ObjectID} {p q : Player} {m : Monster}

theorem outstandingRegens_eq (w : World) (id : ObjectID) :
    w.outstandingRegens id = w.regenTimers.countP fun ev => ev.targetId = id := by
  rw [outstandingRegens, regenTimers, List.countP_filter]
  apply List.countP_congr
  intro ev _
  simp [and_comm]

theorem Calm.outstandingRegens (h : Calm w w') (id : ObjectID) :
    w'.outstandingRegens id = w.outstandingRegens id := by
  rw [outstandingRegens_eq, outstandingRegens_eq, h.regen]

theorem mem_regenTimers {ev : TimerEvent} :
    ev ∈ w.regenTimers ↔ ev ∈ w.timers ∧ ev.type = .hpRegen := by
  rw [regenTimers, List.mem_filter, decide_eq_true_eq]

namespace RegenOk

theorem calm (h : RegenOk w) (hc : Calm w w') : RegenOk w' where
  atMostOne id := by
    rw [hc.outstandingRegens]
    exact h.atMostOne id
  owner ev hev p hp := by
    rw [hc.regen] at hev
    obtain ⟨q, hq, hwho⟩ := hc.player hp
    rw [h.owner ev hev q hq]
    exact congrArg (fun w => some (Player.Who.serial w)) hwho

/-- A timer is armed for a player that has none. -/
theorem addRegenTimer (h : RegenOk w) (hp : w.getPlayer q.id = some p) (hs : q.serial = p.serial)
    (h0 : w.outstandingRegens q.id = 0) : RegenOk (w.addRegenTimer q) where
  atMostOne id := by
    have hcount : (w.addRegenTimer q).outstandingRegens id =
        w.outstandingRegens id + if q.id = id then 1 else 0 := by
      simp [World.addRegenTimer, addTimer, World.outstandingRegens, List.countP_append,
        List.countP_cons]
    rw [hcount]
    split
    · next hid => rw [← hid, h0]
    · exact h.atMostOne id
  owner ev hev r hr := by
    obtain ⟨hmem, ht⟩ := mem_regenTimers.mp hev
    rcases List.mem_append.mp hmem with hmem | hmem
    · exact h.owner ev (mem_regenTimers.mpr ⟨hmem, ht⟩) r hr
    · rw [List.mem_singleton.mp hmem] at hr ⊢
      rw [← Option.some.inj (hp.symm.trans hr), ← hs]

/-- A timer is taken from the queue. -/
theorem eraseTimer (h : RegenOk w) (k : ℕ) :
    RegenOk { w with timers := w.timers.eraseIdx k } where
  atMostOne id := ((List.eraseIdx_sublist _ _).countP_le).trans (h.atMostOne id)
  owner ev hev p hp := by
    obtain ⟨hmem, ht⟩ := mem_regenTimers.mp hev
    exact h.owner ev (mem_regenTimers.mpr ⟨mem_of_mem_eraseIdx hmem, ht⟩) p hp

/-- It was the only one for its session id. -/
theorem taken (h : RegenOk w) {k : ℕ} {ev : TimerEvent} (hev : w.timers[k]? = some ev)
    (ht : ev.type = .hpRegen) :
    ({ w with timers := w.timers.eraseIdx k } : World).outstandingRegens ev.targetId = 0 := by
  have hone := h.atMostOne ev.targetId
  have hcount : w.outstandingRegens ev.targetId =
      ({ w with timers := w.timers.eraseIdx k } : World).outstandingRegens ev.targetId + 1 := by
    unfold World.outstandingRegens
    rw [(perm_eraseIdx hev).countP_eq, List.countP_cons_of_pos (by simp [ht])]
  omega

/-! ## Arming -/

/-- `TryStartRegen` arms a timer when the flag is clear. -/
theorem startRegen (h : RegenOk w) (hp : w.getPlayer p.id = some p)
    (h0 : p.regenActive = false → w.outstandingRegens p.id = 0) : RegenOk (w.startRegen p) := by
  unfold World.startRegen
  split
  · exact h
  · next q hq =>
      have hi := Player.ident_tryStartRegen hq
      have hid : q.id = p.id := congrArg Player.Ident.id hi
      have hset : Calm w (w.setPlayer q) := (inert_setPlayer (by rw [hid, hp]) hi).calm
      have hclear : p.regenActive = false := by
        unfold Player.tryStartRegen at hq
        split at hq
        · exact absurd hq (by simp)
        · next hflag => simpa using hflag
      apply (h.calm hset).addRegenTimer (p := q)
      · exact getPlayer_setPlayer_self _ _
      · rfl
      · rw [hset.outstandingRegens, hid]
        exact h0 hclear

end RegenOk

/-- A hit that leaves its victim alive, with the flag clear, finds no timer for it. -/
def HitArmsOnce (hit : Hit) : Prop :=
  ∀ victim, hit.before.getPlayer hit.victimId = some victim → victim.isDead = false →
    (victim.takeDamage (hit.attacker.level.toNat * 5)).isDead = false →
      victim.regenActive = false → hit.before.outstandingRegens hit.victimId = 0

instance (hit : Hit) : Decidable (HitArmsOnce hit) :=
  inferInstanceAs (Decidable (∀ victim ∈ hit.before.getPlayer hit.victimId,
    victim.isDead = false → (victim.takeDamage (hit.attacker.level.toNat * 5)).isDead = false →
      victim.regenActive = false → hit.before.outstandingRegens hit.victimId = 0))

namespace RegenOk

theorem monsterAttackPlayer (h : RegenOk w) (env : Env) (hp : w.getPlayer id = some p)
    (hit : HitArmsOnce ⟨w, m, id⟩) : RegenOk (w.monsterAttackPlayer env m p) := by
  obtain rfl := getPlayer_id hp
  unfold World.monsterAttackPlayer
  split
  · exact h
  · next halive =>
      have hwound := (inert_wound hp (m.level.toNat * 5) m.id).calm
      dsimp only
      split
      · refine (h.calm hwound).calm (calm_onPlayerDied ?_)
        exact getPlayer_setPlayer_self _ _
      · next hlive =>
          apply (h.calm hwound).startRegen
          · exact getPlayer_setPlayer_self _ _
          · intro hclear
            rw [hwound.outstandingRegens]
            exact hit p hp (by simpa using halive) (by simpa using hlive) hclear

theorem attackVictims (env : Env) (victims : List ObjectID) (h : RegenOk w)
    (hits : ∀ hit ∈ hitsFrom env m victims w, HitArmsOnce hit) :
    RegenOk (victims.foldl (attackVictim env m) w) := by
  apply attackVictims_induction env victims h
  intro v _ victim hmem hv hp
  exact hv.monsterAttackPlayer env hp (hits _ hmem)

theorem perform (h : RegenOk w) (env : Env) (m : Monster) (action : AiAction)
    (hits : ∀ victims, action = .attack victims →
      ∀ hit ∈ hitsFrom env m victims w, HitArmsOnce hit) :
    RegenOk (w.perform env m action) := by
  cases action with
  | idle => exact h
  | clearTarget => exact h.calm (calm_setMonster w _)
  | attack victims =>
      have heffect : ∀ v, Inert v (v.broadcastAttackEffect env m.id m.pos) :=
        inert_broadcastAttackEffect m.id m.pos
      have hdone : ∀ v now, Inert v (v.modifyMonster m.id fun k => k.onAttackPerformed now) :=
        fun v now => inert_modifyMonster fun _ => rfl
      have hloop := attackVictims env victims h (hits victims rfl)
      exact (hloop.calm (heffect _).calm).calm (hdone _ _).calm
  | chase targetPos => exact h.calm (calm_chase w m targetPos)
  | setTarget t => exact h.calm (calm_setMonster w _)
  | roam => exact h.calm (calm_roamingMove w m)

theorem monsterAi (h : RegenOk w) (env : Env)
    (hits : ∀ hit ∈ hitsOf env id w, HitArmsOnce hit) : RegenOk (w.monsterAi env id) := by
  have hspec := monsterAi_spec env id w
  generalize w.monsterAi env id = v at hspec
  cases hspec with
  | nothing => exact h
  | asleep m hm => exact h.calm (calm_setMonster w _)
  | tick m hm halive hhits =>
      refine (h.perform env m _ fun victims hact => ?_).calm
        (calm_addTimer _ .monsterAi (by simp) _ _)
      rw [← hhits victims hact]
      exact hits

/-- A tick that has been taken arms at most one timer, for the player it acts on. -/
theorem hpRegen (h : RegenOk w) (h0 : w.outstandingRegens id = 0) : RegenOk (w.hpRegen id) := by
  obtain ⟨v, hv, heq | ⟨p, q, hp, hq, heq⟩⟩ := inert_hpRegen w id
  · rw [heq]
    exact h.calm hv.calm
  · rw [heq]
    obtain rfl := getPlayer_id hp
    have hid : q.id = p.id := congrArg Player.Ident.id hq
    obtain ⟨p', hp', hwho⟩ := hv.calm.player' hp
    apply (h.calm hv.calm).addRegenTimer (p := p')
    · rw [hid, hp']
    · have hs : q.serial = p.serial := congrArg Player.Ident.serial hq
      rw [hs]
      exact (congrArg Player.Who.serial hwho).symm
    · rw [hv.calm.outstandingRegens, hid, h0]

/-! ## Login and logout -/

/-- A player comes in on a session id for which no timer is outstanding. -/
theorem addPlayer (h : RegenOk w) {conn : ConnId} {row : PlayerRow}
    (hadd : w.addPlayer id conn row = some v) (h0 : w.outstandingRegens id = 0) : RegenOk v := by
  obtain ⟨spawn, hget⟩ := getPlayer_addPlayer hadd
  have htimers : v.timers = w.timers := by
    obtain ⟨sm, spawn, -, rfl⟩ := addPlayer_eq_some hadd
    rfl
  refine ⟨?_, ?_⟩
  · intro i
    rw [World.outstandingRegens, htimers]
    exact h.atMostOne i
  · intro ev hev p hp
    rw [regenTimers, htimers] at hev
    rw [hget] at hp
    split at hp
    · next hid =>
        -- there is no such event
        have hpos : 0 < w.outstandingRegens id := by
          rw [outstandingRegens_eq, ← hid]
          exact List.countP_pos_iff.mpr ⟨ev, hev, by simp⟩
        omega
    · exact h.owner ev hev p hp

theorem leave (h : RegenOk w) (env : Env) (p : Player) : RegenOk (w.leave env p) := by
  refine ⟨h.atMostOne, ?_⟩
  intro ev hev q hq
  rw [getPlayer_leave] at hq
  split at hq
  · exact absurd hq (by simp)
  · exact h.owner ev hev q hq

end RegenOk

end World

namespace Server

open World

variable {s : Server} {env : Env}

/-- A timer that fires and finds a player was armed for that very object. -/
def ActsOnOwner (s : Server) : Event → Prop
  | .timer k _ => ∀ ev, s.game.world.timers[k]? = some ev → ev.type = .hpRegen →
      ∀ p, s.game.world.getPlayer ev.targetId = some p → ev.owner = some p.serial
  | _ => True

/-- A login that will be admitted meets a session id without an outstanding
timer, and so does a hit that arms one. -/
def ArmsOnce (s : Server) : Event → Prop
  | .complete k _ =>
    ∀ c row, s.completions[k]? = some c → c.result = .loaded row →
      (s.getSession c.sessionId).isSome → row.id ∉ s.game.activeDbIds →
      (s.game.world.sectorManager.addObject c.sessionId ⟨row.x, row.y⟩ s.game.world.map).isSome →
      s.game.world.outstandingRegens c.sessionId = 0
  | .timer k env =>
    ∀ ev, s.game.world.timers[k]? = some ev → ev.type = .monsterAi →
      ∀ hit ∈ hitsOf env ev.targetId { s.game.world with timers := s.game.world.timers.eraseIdx k },
        HitArmsOnce hit
  | _ => True

instance (s : Server) : ∀ e, Decidable (ArmsOnce s e)
  | .complete k _ =>
    decidableAdmitted s k fun c => s.game.world.outstandingRegens c.sessionId = 0
  | .timer k env =>
    inferInstanceAs (Decidable (∀ ev ∈ s.game.world.timers[k]?, ev.type = .monsterAi →
      ∀ hit ∈ hitsOf env ev.targetId
        { s.game.world with timers := s.game.world.timers.eraseIdx k }, HitArmsOnce hit))
  | .tick _ | .accept | .close _ _ | .packet _ _ _ _ | .loginWorker _ _ | .saveWorker _ =>
    .isTrue trivial

/-! ## One step -/

theorem regenOk_init (map : Map) (spawns : List MonsterSpawnData) (now : ℕ) (store : PlayerStore) :
    RegenOk (init map spawns now store).game.world := by
  have hspawn : ∀ w : World, (w.spawnMonsters spawns).timers = w.timers := by
    induction spawns with
    | nil => exact fun w => rfl
    | cons data rest ih =>
        intro w
        have hone : (w.spawnMonster data).timers = w.timers := by
          unfold spawnMonster
          dsimp only
          split <;> rfl
        exact (ih (w.spawnMonster data)).trans hone
  have htimers : ∃ fireTime, (init map spawns now store).game.world.timers =
      [⟨fireTime, .dbSave, 0, none⟩] := by
    refine ⟨((World.empty map now).spawnMonsters spawns).now + dbSaveIntervalMs, ?_⟩
    simp only [init, GameWorld.init, addTimer, hspawn (World.empty map now)]
    rfl
  obtain ⟨fireTime, htimers⟩ := htimers
  refine ⟨?_, ?_⟩
  · intro id
    simp [World.outstandingRegens, htimers]
  · intro ev hev
    obtain ⟨hmem, ht⟩ := mem_regenTimers.mp hev
    rw [htimers, List.mem_singleton] at hmem
    rw [hmem] at ht
    exact absurd ht (by simp)

theorem regenOk_handleTimerEvent {g : GameWorld} (h : RegenOk g.world) {type : TimerType}
    {targetId : ObjectID} (h0 : type = .hpRegen → g.world.outstandingRegens targetId = 0)
    (hits : type = .monsterAi → ∀ hit ∈ hitsOf env targetId g.world, HitArmsOnce hit) :
    RegenOk (g.handleTimerEvent env type targetId).world := by
  cases type with
  | hpRegen => exact h.hpRegen (h0 rfl)
  | monsterAi => exact h.monsterAi env (hits rfl)
  | monsterRespawn => exact h.calm (calm_respawnMonster _ _)
  | dbSave =>
      simp only [GameWorld.handleTimerEvent]
      rw [world_saveAllPlayers]
      exact h.calm (calm_addTimer _ .dbSave (by simp) _ _)

/-- **Every step keeps one timer for each player**, under its condition. -/
theorem regenOk_step (s : Server) (e : Event) (hl : Linked s) (h : RegenOk s.game.world)
    (hok : ArmsOnce s e) : RegenOk (s.step e).game.world := by
  have hstep := worldStep s e
  generalize (s.step e).game.world = w at hstep ⊢
  cases hstep with
  | idle => exact h
  | tick ms => exact ⟨h.atMostOne, h.owner⟩
  | left id env conn p hs hp => exact h.leave env p
  | packet id data size env conn hs =>
      exact h.calm (calm_handlePacket (hl.session_of_player hs) env data size)
  | refused => exact ⟨h.atMostOne, h.owner⟩
  | joined k env c conn row v p hc hrow ho hfree hadd hp =>
      -- the new player has no timer from a former one of its id
      have h0 := hok c row hc hrow (by rw [ho]; rfl) hfree (isSome_addObject hadd)
      obtain rfl := session_of_addPlayer hadd hp
      have hid := getPlayer_id hp
      exact (h.addPlayer hadd h0).calm (calm_welcome (w := v) (by rw [hid, hp]) env)
  | fired k env ev hev =>
      exact regenOk_handleTimerEvent (h.eraseTimer k) (h.taken hev) (hok ev hev)

/-! ## Whole runs -/

/-- **At most one regeneration timer for each player**, in every run in which
no login and no arming hit meets a timer that is still queued; and each timer
that fires acts on the object it was armed for. Events may fire at any time. -/
theorem regenOnce_run {map : Map} {spawns : List MonsterSpawnData} {now : ℕ} {store : PlayerStore}
    {es : List Event} (hok : Along step ArmsOnce (init map spawns now store) es) :
    (∀ id, (run step (init map spawns now store) es).game.world.outstandingRegens id ≤ 1) ∧
      Along step ActsOnOwner (init map spawns now store) es := by
  have hstep : ∀ s e, Linked s ∧ RegenOk s.game.world → ArmsOnce s e →
      Linked (s.step e) ∧ RegenOk (s.step e).game.world := by
    intro s e h hok
    exact ⟨linked_step s e h.1, regenOk_step s e h.1 h.2 hok⟩
  have hinit : Linked (init map spawns now store) ∧
      RegenOk (init map spawns now store).game.world :=
    ⟨linked_init map spawns now store, regenOk_init map spawns now store⟩
  refine ⟨(Transition.invariant hstep hinit hok).2.atMostOne, ?_⟩
  apply Along.of_invariant hstep _ hinit hok
  intro s e h _
  cases e with
  | timer k env =>
      intro ev hev ht p hp
      exact h.2.owner ev (mem_regenTimers.mpr ⟨List.mem_of_getElem? hev, ht⟩) p hp
  | _ => trivial

/-- The bitten player is healed. It is bitten again, twice, and a tick heals
the first of the two wounds. -/
def bittenAgain : List Event :=
  bitten ++ [.tick 5000, .timer 1 .plain, .timer 1 .plain, .tick 1000, .timer 2 .plain,
    .tick 4000, .timer 1 .plain]

/-- A timer was armed by the first bite, was used up, and was armed again. -/
theorem regenOnce_run_bittenAgain :
    (∀ id, (run step (init openField [pest] 0 .init) bittenAgain).game.world.outstandingRegens
        id ≤ 1) ∧ Along step ActsOnOwner (init openField [pest] 0 .init) bittenAgain ∧
      [bitten.length, bitten.length + 2, bitten.length + 3, bittenAgain.length].map (fun n =>
        (run step (init openField [pest] 0 .init) (bittenAgain.take n)).game.world.outstandingRegens
          0) = [1, 0, 1, 1] := by
  obtain ⟨honce, howner⟩ :=
    regenOnce_run (show Along step ArmsOnce (init openField [pest] 0 .init) bittenAgain by
      decide +kernel)
  exact ⟨honce, howner, by decide +kernel⟩

/-- A monster that kills a new character with two hits. -/
def brute : MonsterSpawnData := ⟨[66], 10, 100, .agro, .roaming, ⟨1, 0⟩⟩

/-- A character logs in beside it. The monster takes it as its target, hits it,
kills it, and hits it again on the tile where it came back. -/
def hitAfterDeath : List Event :=
  oneLogin ++ [.tick 1000, .timer 1 .plain, .tick 1000, .timer 1 .plain, .tick 1000,
    .timer 2 .plain, .tick 1000, .timer 2 .plain]

/-- Whether the event of this index is due. -/
def due (s : Server) (k : ℕ) : Bool :=
  (s.game.world.timers[k]?).all fun ev => ev.fireTime ≤ s.game.world.now

theorem timely_of_due {k : ℕ} (h : s.due k = true) : Timely s (.timer k env) := by
  intro ev hev
  rw [due, hev] at h
  exact of_decide_eq_true h

theorem hitAfterDeath_timely : Along step Timely (init openField [brute] 0 .init) hitAfterDeath := by
  refine ⟨trivial, trivial, trivial, trivial, trivial, timely_of_due ?_, trivial, timely_of_due ?_,
    trivial, timely_of_due ?_, trivial, timely_of_due ?_, trivial⟩
  all_goals decide +kernel

theorem hitAfterDeath_timers :
    (run step (init openField [brute] 0 .init) hitAfterDeath).game.world.outstandingRegens 0 = 2 := by
  decide +kernel

/-- After the third hit two timers are queued for the one player. -/
theorem not_always_regenOnce :
    ¬ ∀ (map : Map) (spawns : List MonsterSpawnData) (now : ℕ) (store : PlayerStore)
      (es : List Event), Along step Timely (init map spawns now store) es →
        (∀ id, (run step (init map spawns now store) es).game.world.outstandingRegens id ≤ 1) ∧
          Along step ActsOnOwner (init map spawns now store) es := by
  intro hall
  have h := (hall openField [brute] 0 .init hitAfterDeath hitAfterDeath_timely).1 0
  rw [hitAfterDeath_timers] at h
  exact absurd h (by decide)

end Server

end Mmorpg
