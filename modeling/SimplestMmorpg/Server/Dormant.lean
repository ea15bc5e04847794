/-
Monsters that nobody has in view.

A monster that is alive and that no player has in view is left exactly as it is,
and falls asleep once its tick has come: with no event handled later than the lag,
that is within the time of a tick and the lag. After that nothing is scheduled for
it, so the monsters of an empty part of the world cost nothing.

The other direction, that whoever is seen is awake, is `noticed` of
`Server/LifeCycleRun`.
-/
import SimplestMmorpg.Game.Unseen
import SimplestMmorpg.Server.Autosave
import SimplestMmorpg.Server.LifeCycleRun

set_option autoImplicit false

namespace Mmorpg.Server

open World Transition

variable {s : Server} {e : Event} {es more : List Event} {id : ObjectID} {m : Monster} {lag : ℕ}

/-- No player has the monster in view, before the step or after it. -/
def Unseen (id : ObjectID) (s : Server) (e : Event) : Prop :=
  ∀ m, s.game.world.getMonster id = some m →
    ¬ s.game.world.InSight m.pos ∧ ¬ (s.step e).game.world.InSight m.pos

/-! ## One step -/

/-- What is left of the monster, and of its ticks. -/
structure Dormant (id : ObjectID) (m : Monster) (w w' : World) : Prop where
  monster : w'.getMonster id = some m ∨ w'.getMonster id = some m.deactivate
  ticks : ∀ ev ∈ w'.timers, ev.type = .monsterAi → ev.targetId = id → ev ∈ w.timers

theorem dormant_of_undisturbed {w w' : World} (hm : w.getMonster id = some m)
    (h : Undisturbed id w w') : Dormant id m w w' :=
  ⟨.inl (h.monster.trans hm), h.ticks⟩

theorem undisturbed_handlePacket (env : Env) (hplaced : Placed s.game.world)
    (hm : s.game.world.getMonster id = some m) (k : ObjectID) (conn : ConnId) (data : Bytes)
    (size : ℕ) (hbefore : ¬ s.game.world.InSight m.pos)
    (hafter : ¬ (s.handlePacket env k conn data size).game.world.InSight m.pos) :
    Undisturbed id s.game.world (s.handlePacket env k conn data size).game.world := by
  unfold handlePacket at hafter ⊢
  split
  · exact .refl id _
  · exact .refl id _
  · next hreq =>
      rw [hreq] at hafter
      exact undisturbed_processMove env conn data hm hafter
  · exact undisturbed_processAttack env hplaced.consistent hm hbefore
  · exact undisturbed_processChat env data _
  · next hreq =>
      rw [hreq] at hafter
      exact undisturbed_processTeleport env conn hm hafter

/-- A living monster has no respawn scheduled. -/
theorem not_respawn_of_alive (hplaced : Placed s.game.world)
    (hm : s.game.world.getMonster id = some m) (halive : m.isDead = false) {k : ℕ}
    {ev : TimerEvent} (hev : s.game.world.timers[k]? = some ev)
    (htype : ev.type = .monsterRespawn) : id ≠ ev.targetId := by
  rintro rfl
  have hnone := (hplaced.respawn_taken hev htype).2.1
  have hid := getMonster_id hm
  rw [← hid] at hm hnone
  exact absurd ((place_of_alive hm halive).symm.trans hnone) (by simp)

/-- **A step leaves an unseen monster as it is**, but for falling asleep. -/
theorem dormant_step (hplaced : Placed s.game.world) (hm : s.game.world.getMonster id = some m)
    (halive : m.isDead = false) (hunseen : Unseen id s e) :
    Dormant id m s.game.world (s.step e).game.world := by
  obtain ⟨hbefore, hafter⟩ := hunseen m hm
  have hstep := worldStep s e
  generalize (s.step e).game.world = w at hstep hafter ⊢
  cases hstep with
  | idle => exact dormant_of_undisturbed hm (.refl id _)
  | tick ms => exact dormant_of_undisturbed hm (.of_eq rfl rfl)
  | left k env conn p hs hp => exact dormant_of_undisturbed hm (.of_eq rfl rfl)
  | refused => exact dormant_of_undisturbed hm (.of_eq rfl rfl)
  | packet k data size env conn hs =>
      exact dormant_of_undisturbed hm
        (undisturbed_handlePacket env hplaced hm k conn data size hbefore hafter)
  | joined k env c conn row v p hc hrow ho hfree hadd hp =>
      obtain ⟨sm, spawn, -, rfl⟩ := addPlayer_eq_some hadd
      refine dormant_of_undisturbed hm (undisturbed_arrive env hm ?_ ?_ ?_ hafter)
      · rfl
      · rfl
      · rw [getPlayer_id hp]
        exact hp
  | fired k env ev hev =>
      have htaken : Undisturbed id s.game.world
          { s.game.world with timers := s.game.world.timers.eraseIdx k } :=
        ⟨rfl, fun _ hev' _ _ => mem_of_mem_eraseIdx hev'⟩
      cases htype : ev.type with
      | hpRegen => exact dormant_of_undisturbed hm (htaken.trans (undisturbed_hpRegen _ _))
      | monsterRespawn =>
          exact dormant_of_undisturbed hm (htaken.trans (undisturbed_respawnMonster env
            (not_respawn_of_alive hplaced hm halive hev htype) _))
      | dbSave =>
          rw [world_handleTimerEvent_dbSave]
          exact dormant_of_undisturbed hm (htaken.trans (.addTimer (by simp) _ _ _))
      | monsterAi =>
          rw [htype] at hafter
          by_cases hid : id = ev.targetId
          · -- its own tick
            subst hid
            have hasleep : World.monsterAi env ev.targetId
                { s.game.world with timers := s.game.world.timers.eraseIdx k } = _ :=
              monsterAi_unseen env hm halive hbefore
            refine ⟨.inr ?_, fun ev' hev' _ _ => ?_⟩
            · simp only [GameWorld.handleTimerEvent, hasleep]
              have hid : m.id = ev.targetId := getMonster_id hm
              exact getMonster_write (m := m.deactivate) hid hm
            · simp only [GameWorld.handleTimerEvent, hasleep] at hev'
              exact mem_of_mem_eraseIdx hev'
          · exact dormant_of_undisturbed hm (htaken.trans
              (undisturbed_monsterAi env (hplaced.eraseTimer k).consistent hm hid hafter))

/-! ## Whole runs -/

theorem findsTile_of_placementOk (h : PlacementOk s e) : FindsTile s e := by
  cases e with
  | packet k data size env => exact h
  | timer k env => exact h
  | _ => trivial

/-- A living monster without a tick is asleep. -/
theorem asleep_of_no_tick {w : World} (h : Tended [] none w) (hm : w.getMonster id = some m)
    (halive : m.isDead = false)
    (hnone : ∀ ev ∈ w.timers, ev.targetId = id → ev.type ≠ .monsterAi) :
    m.isActive = false ∧ eventsOf id w.timers = [] := by
  have hstage := (h.monster id m hm).stage
  rw [List.nil_append] at hstage
  cases hstage with
  | asleep _ hactive _ hnil => exact ⟨hactive, hnil⟩
  | awake tick _ _ _ htick _ hone =>
      have hmem : tick ∈ eventsOf id w.timers := by
        rw [hone]
        exact List.mem_singleton_self tick
      obtain ⟨hmem, hkind⟩ := List.mem_filter.mp hmem
      exact absurd htick (hnone tick hmem (of_decide_eq_true hkind).1)
  | dead _ hdead => exact absurd (halive.symm.trans hdead) (by simp)
  | dying _ _ hdead => exact absurd (halive.symm.trans hdead) (by simp)

/-- What holds while the monster stays unseen from the time `start` on. -/
structure Resting (id : ObjectID) (m : Monster) (start : ℕ) (s : Server) : Prop where
  placed : Placed s.game.world
  monster : s.game.world.getMonster id = some m ∨ s.game.world.getMonster id = some m.deactivate
  ticks : ∀ ev ∈ s.game.world.timers, ev.type = .monsterAi → ev.targetId = id →
    ev.fireTime ≤ start + monsterAiTickMs

theorem resting_step {start : ℕ} (halive : m.isDead = false) (h : Resting id m start s)
    (hok : PlacementOk s e ∧ Unseen id s e) : Resting id m start (s.step e) := by
  have hplaced := placed_step s e h.placed hok.1
  -- asleep or not, the monster is alive, and what is asleep stays asleep
  have hall : ∀ n, s.game.world.getMonster id = some n → n.isDead = false →
      (n = m ∨ n = m.deactivate) → Resting id m start (s.step e) := by
    intro n hn hnalive hnm
    have hstep := dormant_step h.placed hn hnalive hok.2
    refine ⟨hplaced, ?_, fun ev hev htype hid => ?_⟩
    · rcases hnm with rfl | rfl
      · exact hstep.monster
      · exact .inr (hstep.monster.elim (fun hsame => hsame) fun hsame => hsame)
    · exact h.ticks ev (hstep.ticks ev hev htype hid) htype hid
  rcases h.monster with hn | hn
  · exact hall m hn halive (.inl rfl)
  · exact hall m.deactivate hn halive (.inr rfl)

/-- **A monster that nobody has in view falls asleep**, and is otherwise as it was. In
a run in which everybody keeps a place, with timer events in turn and none handled
later than `lag` after its time, a living monster that no player has in view for
longer than a tick and the lag is asleep at the end and has nothing scheduled; all
else of it, its tile, its hit points and its target, is what it was. -/
theorem dormant_run {map : Map} {spawns : List MonsterSpawnData} {now : ℕ} {store : PlayerStore}
    (lag : ℕ) (hspawns : SpawnsOk spawns)
    (hok : Along step PlacementOk (init map spawns now store) (es ++ more))
    (hturn : Along step InTurn (init map spawns now store) (es ++ more))
    (hpunctual : Along step (Punctual lag) (init map spawns now store) (es ++ more))
    (hm : (run step (init map spawns now store) es).game.world.getMonster id = some m)
    (halive : m.isDead = false)
    (hunseen : Along step (Unseen id) (run step (init map spawns now store) es) more)
    (hlong : (run step (init map spawns now store) es).game.world.now + monsterAiTickMs + lag <
      (run step (init map spawns now store) (es ++ more)).game.world.now) :
    (run step (init map spawns now store) (es ++ more)).game.world.getMonster id =
        some m.deactivate ∧
      ∀ ev ∈ (run step (init map spawns now store) (es ++ more)).game.world.timers,
        ev.targetId = id → ev.type ≠ .monsterAi ∧ ev.type ≠ .monsterRespawn := by
  have htended : Tended [] none (run step (init map spawns now store) (es ++ more)).game.world :=
    invariant (I := fun s => Tended [] none s.game.world) tended_step
      (tended_init map now hspawns.maxHp)
      (hturn.and (hok.mono fun _ _ h => findsTile_of_placementOk h))
  have honTime := onTime_run (onTime_init map spawns now store lag) hpunctual
  obtain ⟨hok, hok'⟩ := along_append.mp hok
  have hstart : Resting id m (run step (init map spawns now store) es).game.world.now
      (run step (init map spawns now store) es) := by
    refine ⟨invariant (I := fun s => Placed s.game.world) placed_step
      (placed_init map hspawns now) hok, .inl hm, fun ev hev htype _ => ?_⟩
    have hdue := ahead_run map spawns now store es ev hev
    rw [htype] at hdue
    exact hdue
  have hrests := invariant (fun _ _ h hc => resting_step halive h hc) hstart (hok'.and hunseen)
  rw [run_append] at *
  generalize run step (run step (init map spawns now store) es) more = t at *
  -- the last tick is overdue
  have hnone : ∀ ev ∈ t.game.world.timers, ev.targetId = id → ev.type ≠ .monsterAi := by
    intro ev hev hid htype
    have hdue := hrests.ticks ev hev htype hid
    have hlate := honTime ev hev
    omega
  have hfinal : ∀ n, t.game.world.getMonster id = some n → n.isDead = false →
      n.isActive = false ∧ eventsOf id t.game.world.timers = [] := fun n hn hnalive =>
    asleep_of_no_tick htended hn hnalive hnone
  have hevents : eventsOf id t.game.world.timers = [] :=
    hrests.monster.elim (fun hn => (hfinal m hn halive).2)
      fun hn => (hfinal m.deactivate hn halive).2
  refine ⟨?_, fun ev hev hid => ⟨hnone ev hev hid, fun htype => ?_⟩⟩
  · rcases hrests.monster with hn | hn
    · rw [hn, Monster.deactivate, ← (hfinal m hn halive).1]
    · exact hn
  · have hmem : ev ∈ eventsOf id t.game.world.timers :=
      List.mem_filter.mpr ⟨hev, decide_eq_true ⟨hid, .inr htype⟩⟩
    rw [hevents] at hmem
    exact absurd hmem List.not_mem_nil

/-- The next event by time. -/
theorem inTurn_of_first {k : ℕ} {env : Env} (h : ∀ ev ∈ s.game.world.timers[k]?.toList,
    ∀ ev' ∈ s.game.world.timers, ev.fireTime ≤ ev'.fireTime) : InTurn s (.timer k env) :=
  fun ev hev => h ev (Option.mem_toList.mpr hev)

/-- Where nobody plays, nobody has anything in view. -/
theorem unseen_of_nobody (hs : s.game.world.players.entries = [])
    (ht : (s.step e).game.world.players.entries = []) : Unseen id s e := by
  have hnobody : ∀ (w : World) (pos : Position), w.players.entries = [] → ¬ w.InSight pos := by
    rintro w pos hnone ⟨k, p, hp, -⟩
    rw [getPlayer, PlayerTable.find, hnone] at hp
    exact absurd hp (by simp)
  exact fun m _ => ⟨hnobody _ _ hs, hnobody _ _ ht⟩

/-- A client logs in beside a monster and goes away. -/
def passesBy : List Event := oneLogin ++ [.close 0 .plain]

/-- The monster was awake, and falls asleep. -/
theorem dormant_run_passesBy :
    ∃ m, (run step (init openField [slime] 5000 .init) passesBy).game.world.getMonster
        monsterIdOffset = some m ∧ m.isActive = true ∧
      (run step (init openField [slime] 5000 .init)
        (passesBy ++ [.tick 1000, .timer 1 .plain, .tick 1])).game.world.getMonster
          monsterIdOffset = some m.deactivate := by
  have hmonster : ((run step (init openField [slime] 5000 .init)
      passesBy).game.world.getMonster monsterIdOffset).map (fun m => (m.isDead, m.isActive)) =
        some (false, true) := by decide +kernel
  obtain ⟨m, hm, hlife⟩ := Option.map_eq_some_iff.mp hmonster
  obtain ⟨halive, hactive⟩ := Prod.mk.inj hlife
  refine ⟨m, hm, hactive, (dormant_run 0 ⟨by decide, by decide⟩ (by decide +kernel) ?_
    (by decide +kernel) hm halive ?_ (by decide +kernel)).1⟩
  · refine ⟨trivial, trivial, trivial, trivial, trivial, trivial, inTurn_of_first ?_, trivial,
      trivial⟩
    decide +kernel
  · refine ⟨unseen_of_nobody ?_ ?_, unseen_of_nobody ?_ ?_, unseen_of_nobody ?_ ?_, trivial⟩
      <;> decide +kernel

end Mmorpg.Server
