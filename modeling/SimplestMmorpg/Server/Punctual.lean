/-
When timer events fire.

An event that is queued stays queued until it fires, whatever else happens, and
its fire time lies ahead of the clock by at most the delay of its type
(`Ahead`). How soon a due event is handled is up to the timer thread and the
workers: `Punctual lag` is the promise that none is overdue by more than `lag`,
and with it every event that is queued fires in time (`fires_of_late`).
-/
import SimplestMmorpg.Server.StepEffects

set_option autoImplicit false

namespace Mmorpg.Server

open World Transition

variable {env : Env} {s : Server} {e : Event} {es : List Event} {ev : TimerEvent} {lag : ℕ}

/-- An event as `AddTimer` makes it: due after the delay of its type. -/
def Fresh (s : Server) (ev : TimerEvent) : Prop :=
  ev.type ≠ .dbSave ∧ ev.fireTime = s.game.world.now + ev.type.delayMs

/-- The next `DB_SAVE`. -/
def nextSave (s : Server) : TimerEvent :=
  ⟨s.game.world.now + dbSaveIntervalMs, .dbSave, 0, none⟩

/-- What a step leaves of the timer queue. -/
inductive TimerStep (s : Server) : Event → List TimerEvent → Prop
  | kept (e : Event) (added : List TimerEvent) (hadded : ∀ ev ∈ added, s.Fresh ev)
      (he : ∀ k env, e = .timer k env → s.game.world.timers[k]? = none) :
      TimerStep s e (s.game.world.timers ++ added)
  | fired (k : ℕ) (env : Env) (ev : TimerEvent) (hev : s.game.world.timers[k]? = some ev)
      (htype : ev.type ≠ .dbSave) (added : List TimerEvent) (hadded : ∀ ev ∈ added, s.Fresh ev) :
      TimerStep s (.timer k env) (s.game.world.timers.eraseIdx k ++ added)
  | saved (k : ℕ) (env : Env) (ev : TimerEvent) (hev : s.game.world.timers[k]? = some ev)
      (htype : ev.type = .dbSave) :
      TimerStep s (.timer k env) (s.game.world.timers.eraseIdx k ++ [s.nextSave])

/-- Effects only add events, each with the delay of its type. -/
theorem timers_of_effects {c : Scope} {w w' : World} (h : Effects c w w') :
    ∃ added, w'.timers = w.timers ++ added ∧
      ∀ ev ∈ added, ev.type ≠ .dbSave ∧ ev.fireTime = w.now + ev.type.delayMs := by
  have hall := h.keeps (P := fun v => v.now = w.now ∧ ∃ added, v.timers = w.timers ++ added ∧
    ∀ ev ∈ added, ev.type ≠ .dbSave ∧ ev.fireTime = w.now + ev.type.delayMs) ?_
    ⟨rfl, [], (List.append_nil _).symm, fun ev hev => absurd hev List.not_mem_nil⟩
  · exact hall.2
  · rintro u v ⟨hnow, added, htimers, hadded⟩ heffect
    refine ⟨heffect.frame.2.trans hnow, ?_⟩
    cases heffect with
    | timer type id owner htype =>
        refine ⟨added ++ [⟨u.now + type.delayMs, type, id, owner⟩], ?_, ?_⟩
        · rw [addTimer, htimers, List.append_assoc]
        · refine List.forall_mem_append.mpr ⟨hadded, List.forall_mem_singleton.mpr ⟨htype, ?_⟩⟩
          dsimp only
          rw [hnow]
    | _ => exact ⟨added, htimers, hadded⟩

theorem timers_addPlayer {w v : World} {id : ObjectID} {conn : ConnId} {row : PlayerRow}
    (h : w.addPlayer id conn row = some v) : v.timers = w.timers := by
  obtain ⟨sm, spawn, -, rfl⟩ := addPlayer_eq_some h
  rfl

/-- A step that fires no timer only adds events. -/
theorem timers_other (s : Server) {e : Event} (he : ∀ k env, e ≠ .timer k env) :
    ∃ added, (s.step e).game.world.timers = s.game.world.timers ++ added ∧
      ∀ ev ∈ added, s.Fresh ev := by
  have hnone : ∃ added, s.game.world.timers = s.game.world.timers ++ added ∧
      ∀ ev ∈ added, s.Fresh ev :=
    ⟨[], (List.append_nil _).symm, fun ev hev => absurd hev List.not_mem_nil⟩
  have hstep := worldStep s e
  generalize (s.step e).game.world = w at hstep ⊢
  cases hstep with
  | packet id data size env conn hs =>
      exact timers_of_effects (effects_handlePacket s env (fun _ => True) id conn data size)
  | joined k env c conn row v p hc hrow ho hfree hadd hp =>
      obtain ⟨added, htimers, hadded⟩ := timers_of_effects (effects_welcome env v conn p)
      have hbefore : v.timers = s.game.world.timers := timers_addPlayer hadd
      rw [World.sendAll, World.send, hbefore] at htimers
      refine ⟨added, htimers, fun ev hev => ⟨(hadded ev hev).1, ?_⟩⟩
      obtain ⟨sm, spawn, -, rfl⟩ := addPlayer_eq_some hadd
      exact (hadded ev hev).2
  | fired k env => exact absurd rfl (he k env)
  | _ => exact hnone

/-- **What a step does to the timer queue.** -/
theorem timerStep (s : Server) (e : Event) : TimerStep s e (s.step e).game.world.timers := by
  by_cases he : ∃ k env, e = .timer k env
  · obtain ⟨k, env, rfl⟩ := he
    cases hev : s.game.world.timers[k]? with
    | none =>
        have hsame : (s.step (.timer k env)).game.world.timers = s.game.world.timers ++ [] := by
          simp only [step, fireTimer, hev, List.append_nil]
        rw [hsame]
        refine .kept _ [] (fun ev hev => absurd hev List.not_mem_nil) fun k' env' heq => ?_
        rw [Event.timer.injEq] at heq
        rw [← heq.1, hev]
    | some ev =>
        simp only [step, fireTimer, hev]
        by_cases htype : ev.type = .dbSave
        · rw [htype, world_handleTimerEvent_dbSave]
          exact .saved k env ev hev htype
        · obtain ⟨added, htimers, hadded⟩ :=
            timers_of_effects (effects_fired s.game env k htype ev.targetId)
          have hfired := TimerStep.fired k env ev hev htype added hadded
          rw [← htimers] at hfired
          exact hfired
  · have he' : ∀ k env, e ≠ .timer k env := fun k env heq => he ⟨k, env, heq⟩
    obtain ⟨added, htimers, hadded⟩ := timers_other s he'
    rw [htimers]
    exact .kept e added hadded fun k env heq => absurd heq (he' k env)

/-! ## Every event fires -/

/-- It fires in this step. -/
def Fires (ev : TimerEvent) (s : Server) (e : Event) : Prop :=
  ∃ k env, e = .timer k env ∧ s.game.world.timers[k]? = some ev

/-- The clock stands still while an event is handled. -/
theorem now_of_fires (h : Fires ev s e) :
    (s.step e).game.world.now = s.game.world.now := by
  obtain ⟨k, env, rfl, hev⟩ := h
  simp only [step, fireTimer, hev]
  by_cases htype : ev.type = .dbSave
  · rw [htype, world_handleTimerEvent_dbSave]
    rfl
  · exact (effects_fired s.game env k htype ev.targetId).frame.2

/-- No event is overdue by more than `lag`. -/
def OnTime (lag : ℕ) (s : Server) : Prop :=
  ∀ ev ∈ s.game.world.timers, s.game.world.now ≤ ev.fireTime + lag

/-- And none is after the step. -/
def Punctual (lag : ℕ) (s : Server) (e : Event) : Prop := (s.step e).OnTime lag

instance (lag : ℕ) (s : Server) : Decidable (s.OnTime lag) := by unfold OnTime; infer_instance

instance (lag : ℕ) (s : Server) (e : Event) : Decidable (Punctual lag s e) := by
  unfold Punctual; infer_instance

/-- What does not fire is kept. -/
theorem mem_timers_step (hev : ev ∈ s.game.world.timers) (hno : ¬ Fires ev s e) :
    ev ∈ (s.step e).game.world.timers := by
  have hstep := timerStep s e
  generalize (s.step e).game.world.timers = timers at hstep ⊢
  have herase : ∀ {k : ℕ} {ev' : TimerEvent}, s.game.world.timers[k]? = some ev' → ev ≠ ev' →
      ev ∈ s.game.world.timers.eraseIdx k := by
    intro k ev' hev' hne
    rcases List.mem_cons.mp ((perm_eraseIdx hev').mem_iff.mp hev) with heq | hmem
    · exact absurd heq hne
    · exact hmem
  cases hstep with
  | kept e added => exact List.mem_append_left _ hev
  | fired k env ev' hev' =>
      exact List.mem_append_left _ (herase hev' fun heq => hno ⟨k, env, rfl, heq ▸ hev'⟩)
  | saved k env ev' hev' =>
      exact List.mem_append_left _ (herase hev' fun heq => hno ⟨k, env, rfl, heq ▸ hev'⟩)

theorem onTime_run (hs : s.OnTime lag) (hrun : Along step (Punctual lag) s es) :
    (run step s es).OnTime lag :=
  invariant (fun _ _ _ h => h) hs hrun

/-- **Every event fires in time.** When the clock has passed the time of an event
by more than the lag, the event has fired. -/
theorem fires_of_late (hev : ev ∈ s.game.world.timers) (hs : s.OnTime lag)
    (hrun : Along step (Punctual lag) s es)
    (hlate : ev.fireTime + lag < (run step s es).game.world.now) :
    ∃ before e after, es = before ++ e :: after ∧ Fires ev (run step s before) e := by
  rcases kept_or_taken (H := fun s => ev ∈ s.game.world.timers) (T := Fires ev)
    (fun s e hmem hno => mem_timers_step hmem hno) hev with hend | ⟨before, e, after, hsplit, -, hfires⟩
  · have := onTime_run hs hrun ev hend
    omega
  · exact ⟨before, e, after, hsplit, hfires⟩

/-! ## No event lies far ahead -/

/-- Every event is due within the delay of its type. -/
def Ahead (s : Server) : Prop :=
  ∀ ev ∈ s.game.world.timers, ev.fireTime ≤ s.game.world.now + ev.type.delayMs

theorem ahead_step (h : s.Ahead) (e : Event) : (s.step e).Ahead := by
  have hstep := timerStep s e
  have hnow := now_le_step s e
  have hold : ∀ ev ∈ s.game.world.timers,
      ev.fireTime ≤ (s.step e).game.world.now + ev.type.delayMs := by
    intro ev hev
    have := h ev hev
    omega
  have hnew : ∀ ev, s.Fresh ev → ev.fireTime ≤ (s.step e).game.world.now + ev.type.delayMs := by
    rintro ev ⟨-, htime⟩
    omega
  unfold Ahead
  generalize (s.step e).game.world.timers = timers at hstep ⊢
  cases hstep with
  | kept e added hadded =>
      exact List.forall_mem_append.mpr ⟨hold, fun ev hev => hnew ev (hadded ev hev)⟩
  | fired k env ev hev htype added hadded =>
      refine List.forall_mem_append.mpr ⟨fun ev hev => hold ev (mem_of_mem_eraseIdx hev), ?_⟩
      exact fun ev hev => hnew ev (hadded ev hev)
  | saved k env ev hev htype =>
      refine List.forall_mem_append.mpr ⟨fun ev hev => hold ev (mem_of_mem_eraseIdx hev), ?_⟩
      refine List.forall_mem_singleton.mpr ?_
      simp only [nextSave, TimerType.delayMs]
      omega

/-- The queue of a server that has just started. -/
theorem timers_init (map : Map) (spawns : List MonsterSpawnData) (now : ℕ) (store : PlayerStore) :
    (init map spawns now store).game.world.now = now ∧
      (init map spawns now store).game.world.timers = [⟨now + dbSaveIntervalMs, .dbSave, 0, none⟩] := by
  have hspawn : ∀ w : World, (w.spawnMonsters spawns).timers = w.timers ∧
      (w.spawnMonsters spawns).now = w.now := by
    induction spawns with
    | nil => exact fun w => ⟨rfl, rfl⟩
    | cons data rest ih =>
        intro w
        have hone : (w.spawnMonster data).timers = w.timers ∧ (w.spawnMonster data).now = w.now := by
          unfold spawnMonster
          dsimp only
          split <;> exact ⟨rfl, rfl⟩
        exact ⟨(ih _).1.trans hone.1, (ih _).2.trans hone.2⟩
  obtain ⟨htimers, hnow⟩ := hspawn (.empty map now)
  have hempty : (World.empty map now).now = now ∧ (World.empty map now).timers = [] := ⟨rfl, rfl⟩
  simp only [init, GameWorld.init, addTimer]
  rw [htimers, hnow, hempty.1, hempty.2]
  exact ⟨rfl, rfl⟩

theorem ahead_run (map : Map) (spawns : List MonsterSpawnData) (now : ℕ) (store : PlayerStore)
    (es : List Event) : (run step (init map spawns now store) es).Ahead := by
  refine invariant (C := fun _ _ => True) (fun s e h _ => ahead_step h e) ?_ along_true
  obtain ⟨hnow, htimers⟩ := timers_init map spawns now store
  unfold Ahead
  rw [hnow, htimers]
  exact List.forall_mem_singleton.mpr (Nat.le_refl _)

end Mmorpg.Server
