/-
Nobody's progress stays unsaved for long.

There is always exactly one `DB_SAVE` event: the game starts with one, and the
one that fires is the one that adds the next. When it fires, a save of everyone
who plays is posted. So as long as the server handles its timers with a bounded
lag, every stretch of a run that is longer than the interval and the lag has a
moment at which everyone is saved as they are.
-/
import SimplestMmorpg.Server.Punctual

set_option autoImplicit false

namespace Mmorpg

open World Transition

namespace GameWorld

/-- **`SaveAllPlayers` posts a save of everyone who plays**, as they are, and of
nobody else. -/
theorem saveQueue_saveAllPlayers (env : Env) (g : GameWorld) :
    ∃ posted, (g.saveAllPlayers env).saveQueue = g.saveQueue ++ posted ∧
      ∀ task, task ∈ posted ↔ ∃ id p, g.world.getPlayer id = some p ∧
        task = .savePlayer p.snapshot (g.departureCount p.dbId) := by
  have hloop : ∀ (rows : List PlayerRow) (g' : GameWorld),
      (rows.foldl (fun gw row => gw.postSaveTask (.savePlayer row (gw.departureCount row.id)))
        g').saveQueue =
        g'.saveQueue ++ rows.map fun row => .savePlayer row (g'.departureCount row.id) := by
    intro rows
    induction rows with
    | nil => exact fun g' => (List.append_nil _).symm
    | cons row rows ih =>
        intro g'
        rw [List.foldl_cons, ih, List.map_cons]
        exact List.append_assoc _ _ _
  refine ⟨_, hloop _ g, fun task => ?_⟩
  simp only [List.mem_map, List.mem_filterMap, Option.map_eq_some_iff]
  constructor
  · rintro ⟨row, ⟨id, -, p, hp, rfl⟩, rfl⟩
    exact ⟨id, p, hp, rfl⟩
  · rintro ⟨id, p, hp, rfl⟩
    have hmem : id ∈ g.world.players.entries.map (·.id) :=
      List.mem_map.mpr ⟨p, PlayerTable.mem_of_find hp, getPlayer_id hp⟩
    exact ⟨p.snapshot, ⟨id, (env.mem_iter _ id).mpr hmem, p, hp, rfl⟩, rfl⟩

end GameWorld

namespace Server

variable {s : Server} {e : Event} {es more : List Event} {ev : TimerEvent} {lag : ℕ}

/-- How many `DB_SAVE` events are outstanding. -/
def outstandingSaves (s : Server) : ℕ := s.game.world.timers.countP fun ev => ev.type = .dbSave

/-- The step posts a save of everyone who plays, as they are, and of nobody else. -/
def SavesEveryone (s : Server) (e : Event) : Prop :=
  ∃ posted, (s.step e).game.saveQueue = s.game.saveQueue ++ posted ∧
    ∀ task, task ∈ posted ↔ ∃ id p, s.game.world.getPlayer id = some p ∧
      task = .savePlayer p.snapshot (s.game.departureCount p.dbId)

theorem outstandingSaves_step (h : s.outstandingSaves = 1) (e : Event) :
    (s.step e).outstandingSaves = 1 := by
  have hstep := timerStep s e
  unfold outstandingSaves at *
  generalize (s.step e).game.world.timers = timers at hstep ⊢
  have hadded : ∀ {added : List TimerEvent}, (∀ ev ∈ added, s.Fresh ev) →
      added.countP (fun ev => ev.type = .dbSave) = 0 := by
    intro added hadded
    rw [List.countP_eq_zero]
    intro ev hev
    simpa using (hadded ev hev).1
  cases hstep with
  | kept e added hfresh => rw [List.countP_append, h, hadded hfresh]
  | fired k env ev hev htype added hfresh =>
      have hcount := (perm_eraseIdx hev).countP_eq fun ev => decide (ev.type = .dbSave)
      rw [List.countP_cons_of_neg (by simpa using htype), h] at hcount
      rw [List.countP_append, ← hcount, hadded hfresh]
  | saved k env ev hev htype =>
      have hcount := (perm_eraseIdx hev).countP_eq fun ev => decide (ev.type = .dbSave)
      rw [List.countP_cons_of_pos (by simpa using htype), h] at hcount
      rw [List.countP_append, ← Nat.succ.inj hcount]
      rfl

theorem outstandingSaves_run (map : Map) (spawns : List MonsterSpawnData) (now : ℕ)
    (store : PlayerStore) (es : List Event) :
    (run step (init map spawns now store) es).outstandingSaves = 1 := by
  refine invariant (I := fun s : Server => s.outstandingSaves = 1) (C := fun _ _ => True)
    (fun s e h _ => outstandingSaves_step h e) ?_ along_true
  unfold outstandingSaves
  rw [(timers_init map spawns now store).2]
  rfl

/-- The event that fires is the one that saves. -/
theorem savesEveryone_of_fires (h : Fires ev s e) (htype : ev.type = .dbSave) :
    SavesEveryone s e := by
  obtain ⟨k, env, rfl, hev⟩ := h
  unfold SavesEveryone
  simp only [step, fireTimer, hev, htype, GameWorld.handleTimerEvent]
  exact GameWorld.saveQueue_saveAllPlayers env _

theorem onTime_init (map : Map) (spawns : List MonsterSpawnData) (now : ℕ) (store : PlayerStore)
    (lag : ℕ) : (init map spawns now store).OnTime lag := by
  obtain ⟨hnow, htimers⟩ := timers_init map spawns now store
  unfold OnTime
  rw [hnow, htimers]
  exact List.forall_mem_singleton.mpr ((Nat.le_add_right _ _).trans (Nat.le_add_right _ _))

/-- **Nobody stays unsaved for long.** In every run there is one `DB_SAVE` event at
any time; and in a run that handles no event later than `lag` after its time,
every stretch that is longer than the interval and the lag posts, in one of its
steps, a save of everyone who plays then. -/
theorem autosave_run {map : Map} {spawns : List MonsterSpawnData} {now : ℕ} {store : PlayerStore}
    (lag : ℕ) (es more : List Event) :
    (run step (init map spawns now store) es).outstandingSaves = 1 ∧
      (Along step (Punctual lag) (init map spawns now store) (es ++ more) →
        (run step (init map spawns now store) es).game.world.now + dbSaveIntervalMs + lag <
          (run step (init map spawns now store) (es ++ more)).game.world.now →
        ∃ before e after, more = before ++ e :: after ∧
          SavesEveryone (run step (init map spawns now store) (es ++ before)) e) := by
  have hone := outstandingSaves_run map spawns now store es
  refine ⟨hone, fun hrun hlong => ?_⟩
  obtain ⟨hes, hmore⟩ := along_append.mp hrun
  have hahead := ahead_run map spawns now store es
  rw [run_append] at hlong
  obtain ⟨ev, hev, htype⟩ := List.countP_pos_iff.mp (hone.ge : 0 < _)
  have htype : ev.type = .dbSave := of_decide_eq_true htype
  have hdue := hahead ev hev
  rw [htype] at hdue
  obtain ⟨before, e, after, hsplit, hfires⟩ := fires_of_late hev
    (onTime_run (onTime_init map spawns now store lag) hes) hmore
    (by simp only [TimerType.delayMs] at hdue; omega)
  refine ⟨before, e, after, hsplit, ?_⟩
  rw [run_append]
  exact savesEveryone_of_fires hfires htype

/-- A minute after a login. -/
theorem autosave_run_oneLogin :
    (run step (init openField [] 0 .init) oneLogin).outstandingSaves = 1 ∧
      ∃ before e after, [Event.tick 60000, .timer 0 .plain, .tick 1] = before ++ e :: after ∧
        SavesEveryone (run step (init openField [] 0 .init) (oneLogin ++ before)) e := by
  obtain ⟨hone, hsaves⟩ :=
    autosave_run 0 oneLogin [.tick 60000, .timer 0 .plain, .tick 1]
  exact ⟨hone, hsaves (by decide +kernel) (by decide +kernel)⟩

end Server

end Mmorpg
