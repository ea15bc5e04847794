/-
What a character comes back with.

A character that leaves is saved by the save worker, and a login reads its row
in the login worker. The two have queues of their own, and nothing makes a
login wait for the save: whether the row holds what the character left with
depends on which of the two was executed first. The id of the character is
claimed only when the result of the login is delivered, so it does not help
either.

The stamps say which departure a save, a stored row or a login result belongs
to. What carries the stamp of the last departure holds the state the character
left with; a login that is admitted on such a row loses nothing.
-/
import SimplestMmorpg.Game.Departures
import SimplestMmorpg.Server.Regen

set_option autoImplicit false

namespace Mmorpg

open Transition

/-- What was lost if it does not hold: the new player has what the character
left with, and is placed around the position where it left. -/
structure Player.ComesBackAs (left p : Player) : Prop where
  level : p.level = left.level
  exp : p.exp = left.exp
  hp : p.hp = left.hp
  maxHp : p.maxHp = left.maxHp
  pos : SectorManager.Around left.pos p.pos

namespace Server

open World

/-- A player object that a login result makes is the character as it left the
last time. -/
def ProgressKept (s : Server) : Event → Prop
  | .complete k env => ∀ c p left, s.completions[k]? = some c →
      (s.step (.complete k env)).game.world.getPlayer c.sessionId = some p →
      (∀ q ∈ s.game.world.players.entries, q.serial ≠ p.serial) →
      s.game.lastDeparture p.dbId = some left → left.ComesBackAs p
  | _ => True

/-- Every database operation succeeds. -/
def DbSucceeds : Event → Prop
  | .loginWorker loadOk createOk => loadOk = true ∧ createOk = true
  | .saveWorker saveOk => saveOk = true
  | _ => True

/-- A login that will be admitted was read after the save of the character's
last departure had been executed. -/
def ReadAfterSave (s : Server) : Event → Prop
  | .complete k _ =>
    ∀ c row, s.completions[k]? = some c → c.result = .loaded row →
      (s.getSession c.sessionId).isSome → row.id ∉ s.game.activeDbIds →
      (s.game.world.sectorManager.addObject c.sessionId ⟨row.x, row.y⟩ s.game.world.map).isSome →
      c.stamp = s.game.departureCount row.id
  | _ => True

variable {s s' : Server} {env : Env} {id : ObjectID} {p : Player} {row : PlayerRow} {n : ℕ}

/-! ## The invariant -/

/-- The players in the world are claimed, each by one object, and every row
that is stored, waits to be stored or was read keeps what its stamp promises. -/
structure Kept (s : Server) : Prop where
  claimed : ∀ i p, s.game.world.getPlayer i = some p → p.dbId ∈ s.game.activeDbIds
  distinct : ∀ i j p q, s.game.world.getPlayer i = some p → s.game.world.getPlayer j = some q →
    p.dbId = q.dbId → i = j
  known : ∀ i p, s.game.world.getPlayer i = some p → p.dbId ≤ s.store.nextId
  departed : ∀ p ∈ s.game.departures, p.dbId ≤ s.store.nextId
  tasks : ∀ row n, SaveTask.savePlayer row n ∈ s.game.saveQueue → s.game.Tracks row n
  rows : ∀ e ∈ s.store.rows, s.game.Tracks e.2 (s.savedStamp e.2.id)
  stamps : ∀ d, s.savedStamp d ≤ s.game.departureCount d
  results : ∀ c ∈ s.completions, ∀ row, c.result = .loaded row →
    row.id ≤ s.store.nextId ∧ s.game.Tracks row c.stamp

theorem kept_init (map : Map) (spawns : List MonsterSpawnData) (now : ℕ) (store : PlayerStore) :
    Kept (init map spawns now store) := by
  have hnobody : ∀ i p, (init map spawns now store).game.world.getPlayer i ≠ some p := by
    intro i p hp
    have hs := (linked_init map spawns now store).player i p hp
    exact absurd hs (by simp [init])
  refine ⟨?_, ?_, ?_, ?_, ?_, ?_, ?_, ?_⟩
  · exact fun i p hp => absurd hp (hnobody i p)
  · exact fun i j p q hp => absurd hp (hnobody i p)
  · exact fun i p hp => absurd hp (hnobody i p)
  · exact fun p hp => absurd hp List.not_mem_nil
  · exact fun row n hmem => absurd hmem List.not_mem_nil
  · exact fun e _ => .of_new (Nat.zero_le _) fun p hp => absurd hp List.not_mem_nil
  · exact fun d => Nat.zero_le _
  · exact fun c hc => absurd hc List.not_mem_nil

theorem store_deliver (s : Server) (env : Env) (k : ℕ) :
    (s.deliver env k).store = s.store ∧ (s.deliver env k).savedStamp = s.savedStamp := by
  unfold deliver
  split
  · exact ⟨rfl, rfl⟩
  · unfold runCallback
    dsimp only
    split <;> exact ⟨rfl, rfl⟩

namespace Kept

/-- As long as nobody leaves, it is enough to look at what is new in the
queues and in the store. -/
theorem of (h : Kept s)
    (hplayers : ∀ i p, s'.game.world.getPlayer i = some p →
      ∃ q, s.game.world.getPlayer i = some q ∧ q.dbId = p.dbId)
    (hdepartures : s'.game.departures = s.game.departures)
    (hactive : ∀ d ∈ s.game.activeDbIds, d ∈ s'.game.activeDbIds)
    (hnext : s.store.nextId ≤ s'.store.nextId)
    (htasks : ∀ row n, SaveTask.savePlayer row n ∈ s'.game.saveQueue → s.game.Tracks row n)
    (hrows : ∀ e ∈ s'.store.rows, s.game.Tracks e.2 (s'.savedStamp e.2.id))
    (hstamps : ∀ d, s'.savedStamp d ≤ s.game.departureCount d)
    (hresults : ∀ c ∈ s'.completions, ∀ row, c.result = .loaded row →
      row.id ≤ s'.store.nextId ∧ s.game.Tracks row c.stamp) : Kept s' := by
  refine ⟨?_, ?_, ?_, ?_, ?_, ?_, ?_, ?_⟩
  · intro i p hp
    obtain ⟨q, hq, hid⟩ := hplayers i p hp
    rw [← hid]
    exact hactive _ (h.claimed i q hq)
  · intro i j p q hp hq heq
    obtain ⟨p', hp', hpid⟩ := hplayers i p hp
    obtain ⟨q', hq', hqid⟩ := hplayers j q hq
    exact h.distinct i j p' q' hp' hq' (by rw [hpid, hqid, heq])
  · intro i p hp
    obtain ⟨q, hq, hid⟩ := hplayers i p hp
    rw [← hid]
    exact (h.known i q hq).trans hnext
  · intro p hp
    rw [hdepartures] at hp
    exact (h.departed p hp).trans hnext
  · exact fun row n hmem => (htasks row n hmem).congr hdepartures hactive
  · exact fun e he => (hrows e he).congr hdepartures hactive
  · intro d
    rw [GameWorld.departureCount, hdepartures]
    exact hstamps d
  · intro c hc row hr
    obtain ⟨hle, htracks⟩ := hresults c hc row hr
    exact ⟨hle, htracks.congr hdepartures hactive⟩

/-- Handlers that post nothing and touch no claim. -/
theorem steady (h : Kept s) (hw : Steady s.game.world s'.game.world)
    (hgame : s'.game = { s.game with world := s'.game.world }) (hstore : s'.store = s.store)
    (hsaved : s'.savedStamp = s.savedStamp) (hresults : ∀ c ∈ s'.completions, c ∈ s.completions) :
    Kept s' := by
  apply h.of
  · intro i p hp
    obtain ⟨q, hq, hwho⟩ := hw.player hp
    exact ⟨q, hq, congrArg Player.Who.dbId hwho⟩
  · rw [hgame]
  · rw [hgame]
    exact fun d hd => hd
  · rw [hstore]
  · rw [hgame]
    exact h.tasks
  · rw [hstore, hsaved]
    exact h.rows
  · rw [hsaved]
    exact h.stamps
  · rw [hstore]
    exact fun c hc => h.results c (hresults c hc)

/-! ## Coming and going -/

/-- `ProcessDisconnect` posts what the character leaves with, and releases it. -/
theorem disconnectSession (h : Kept s) (env : Env) (id : ObjectID) :
    Kept (s.disconnectSession env id) := by
  unfold Server.disconnectSession
  split
  · exact h
  · unfold GameWorld.processDisconnect
    cases hp : s.game.world.getPlayer id with
    | none => exact h.steady (.refl _) rfl rfl rfl fun c hc => hc
    | some p =>
        obtain rfl := getPlayer_id hp
        dsimp only
        generalize hg : GameWorld.postSaveTask _ _ = g
        have hplayers : ∀ i q, g.world.getPlayer i = some q →
            i ≠ p.id ∧ s.game.world.getPlayer i = some q := by
          intro i q hq
          rw [← hg] at hq
          have hget : (s.game.world.leave env p).getPlayer i = some q := hq
          rw [getPlayer_leave] at hget
          split at hget
          · exact absurd hget (by simp)
          · next hne => exact ⟨hne, hget⟩
        have hdepartures : g.departures = s.game.departures ++ [p] := by rw [← hg]; rfl
        have hactive : ∀ d, d ∈ g.activeDbIds ↔ d ∈ s.game.activeDbIds ∧ d ≠ p.dbId := by
          intro d
          rw [← hg]
          simp [GameWorld.postSaveTask, GameWorld.releaseDbId]
        have hqueue : g.saveQueue = s.game.saveQueue ++
            [.savePlayer p.snapshot (g.departureCount p.dbId)] := by
          rw [← hg]
          rfl
        have hold : ∀ {row n}, s.game.Tracks row n → g.Tracks row n := fun htracks =>
          htracks.leave hdepartures fun d hd hne => (hactive d).mpr ⟨hd, hne⟩
        refine ⟨?_, ?_, ?_, ?_, ?_, ?_, ?_, ?_⟩
        · -- nobody else is the character that is released
          intro i q hq
          obtain ⟨hne, hq⟩ := hplayers i q hq
          refine (hactive q.dbId).mpr ⟨h.claimed i q hq, ?_⟩
          intro heq
          exact hne (h.distinct i p.id q p hq hp heq)
        · intro i j q q' hq hq'
          exact h.distinct i j q q' (hplayers i q hq).2 (hplayers j q' hq').2
        · intro i q hq
          exact h.known i q (hplayers i q hq).2
        · intro q hq
          rw [hdepartures] at hq
          rcases List.mem_append.mp hq with hq | hq
          · exact h.departed q hq
          · rw [List.mem_singleton.mp hq]
            exact h.known p.id p hp
        · intro row n hmem
          rw [hqueue] at hmem
          rcases List.mem_append.mp hmem with hmem | hmem
          · exact hold (h.tasks row n hmem)
          · obtain ⟨rfl, rfl⟩ := SaveTask.savePlayer.inj (List.mem_singleton.mp hmem)
            exact .departed hdepartures
        · exact fun e he => hold (h.rows e he)
        · intro d
          rw [GameWorld.departureCount_append hdepartures d]
          exact (h.stamps d).trans (Nat.le_add_right _ _)
        · intro c hc row hr
          obtain ⟨hle, htracks⟩ := h.results c hc row hr
          exact ⟨hle, hold htracks⟩

/-- A character that is not claimed comes in. -/
theorem enter (h : Kept s) (hfree : row.id ∉ s.game.activeDbIds) (hle : row.id ≤ s.store.nextId)
    (hid : p.dbId = row.id) {v : World}
    (hget : ∀ i, v.getPlayer i = if i = id then some p else s.game.world.getPlayer i) :
    Kept { s with game := { s.game with world := v, activeDbIds := row.id :: s.game.activeDbIds } } := by
  have hnew : ∀ i q, s.game.world.getPlayer i = some q → q.dbId ≠ p.dbId := by
    intro i q hq heq
    apply hfree
    rw [← hid, ← heq]
    exact h.claimed i q hq
  refine ⟨?_, ?_, ?_, h.departed, ?_, ?_, h.stamps, ?_⟩
  · intro i q hq
    dsimp only at hq
    rw [hget] at hq
    split at hq
    · rw [← Option.some.inj hq, hid]
      exact List.mem_cons_self
    · exact List.mem_cons_of_mem _ (h.claimed i q hq)
  · intro i j q q' hq hq' heq
    dsimp only at hq hq'
    rw [hget] at hq hq'
    split at hq <;> split at hq'
    · next hi hj => rw [hi, hj]
    · rw [← Option.some.inj hq] at heq
      exact absurd heq.symm (hnew j q' hq')
    · rw [← Option.some.inj hq'] at heq
      exact absurd heq (hnew i q hq)
    · exact h.distinct i j q q' hq hq' heq
  · intro i q hq
    dsimp only at hq
    rw [hget] at hq
    split at hq
    · rw [← Option.some.inj hq, hid]
      exact hle
    · exact h.known i q hq
  · exact fun row' n hmem => (h.tasks row' n hmem).congr rfl fun d hd => List.mem_cons_of_mem _ hd
  · exact fun e he => (h.rows e he).congr rfl fun d hd => List.mem_cons_of_mem _ hd
  · intro c hc row' hr
    obtain ⟨hle', htracks⟩ := h.results c hc row' hr
    exact ⟨hle', htracks.congr rfl fun d hd => List.mem_cons_of_mem _ hd⟩

/-! ## The workers -/

/-- The row a login finds keeps its stamp's promise; a new one has none to keep. -/
theorem loginOutcome (h : Kept s) (loadOk createOk : Bool) (name : Bytes) :
    let out := s.loginOutcome loadOk createOk name
    s.store.nextId ≤ out.1.nextId ∧
      (∀ e ∈ out.1.rows, s.game.Tracks e.2 (s.savedStamp e.2.id)) ∧
      ∀ row, out.2 = .loaded row → row.id ≤ out.1.nextId ∧
        s.game.Tracks row (s.stampOf out.2) := by
  unfold Server.loginOutcome
  split
  · exact ⟨Int.le_refl _, h.rows, fun row hr => absurd hr (by simp)⟩
  · split
    · next row hrow =>
        have hmem := PlayerStore.mem_of_loadPlayerByName hrow
        refine ⟨Int.le_refl _, h.rows, ?_⟩
        intro row' hr
        obtain rfl := LoginResult.loaded.inj hr
        exact ⟨s.store.le_nextId _ hmem, h.rows _ hmem⟩
    · split
      · exact ⟨Int.le_refl _, h.rows, fun row hr => absurd hr (by simp)⟩
      · cases hcreate : s.store.createPlayer name with
        | none => exact ⟨Int.le_refl _, h.rows, fun row hr => absurd hr (by simp)⟩
        | some created =>
            obtain ⟨store, newId⟩ := created
            obtain ⟨hid, hnext, hrows⟩ := PlayerStore.createPlayer_eq_some hcreate
            have hnew : ∀ row : PlayerRow, row.id = newId →
                s.game.Tracks row (s.savedStamp row.id) := by
              intro row hrow
              apply GameWorld.Tracks.of_new (h.stamps row.id)
              intro p hp heq
              have hle := h.departed p hp
              omega
            dsimp only
            refine ⟨by omega, ?_, ?_⟩
            · intro e he
              rw [hrows] at he
              rcases List.mem_append.mp he with he | he
              · exact h.rows e he
              · rw [List.mem_singleton.mp he]
                exact hnew _ rfl
            · intro row hr
              obtain rfl := LoginResult.loaded.inj hr
              exact ⟨by rw [hnext], hnew _ rfl⟩

theorem loginWorker (h : Kept s) (loadOk createOk : Bool) :
    Kept (s.loginWorker loadOk createOk) := by
  unfold Server.loginWorker
  split
  · exact h
  · next task rest hqueue =>
      have hout := h.loginOutcome loadOk createOk task.name
      generalize s.loginOutcome loadOk createOk task.name = out at hout ⊢
      obtain ⟨store, result⟩ := out
      obtain ⟨hnext, hrows, hresult⟩ := hout
      apply h.of
      · exact fun i p hp => ⟨p, hp, rfl⟩
      · rfl
      · exact fun d hd => hd
      · exact hnext
      · exact h.tasks
      · exact hrows
      · exact h.stamps
      · intro c hc row hr
        rcases List.mem_append.mp hc with hc | hc
        · obtain ⟨hle, htracks⟩ := h.results c hc row hr
          exact ⟨hle.trans hnext, htracks⟩
        · rw [List.mem_singleton.mp hc] at hr ⊢
          exact hresult row hr

/-- A save puts its stamp, with its row, into the store. -/
theorem savePlayer (h : Kept s) (htracks : s.game.Tracks row n) : Kept (s.savePlayer row n) := by
  unfold Server.savePlayer
  split
  · exact h
  · next store hstore =>
      obtain ⟨hnext, hrows⟩ := PlayerStore.savePlayer_eq_some hstore
      apply h.of
      · exact fun i p hp => ⟨p, hp, rfl⟩
      · rfl
      · exact fun d hd => hd
      · rw [hnext]
      · exact h.tasks
      · intro e he
        dsimp only
        rcases hrows e he with ⟨hstate, hid⟩ | ⟨hmem, hne⟩
        · rw [hid, Function.update_self]
          exact htracks.sameState hstate
        · rw [Function.update_of_ne hne]
          exact h.rows e hmem
      · intro d
        dsimp only
        by_cases hd : d = row.id
        · rw [hd, Function.update_self]
          exact htracks.le
        · rw [Function.update_of_ne hd]
          exact h.stamps d
      · intro c hc row' hr
        dsimp only
        rw [hnext]
        exact h.results c hc row' hr

theorem saveWorker (h : Kept s) (saveOk : Bool) : Kept (s.saveWorker saveOk) := by
  unfold Server.saveWorker
  split
  · exact h
  · next task rest hqueue =>
      have hrest : Kept { s with game := { s.game with saveQueue := rest } } := by
        apply h.of
        · exact fun i p hp => ⟨p, hp, rfl⟩
        · rfl
        · exact fun d hd => hd
        · exact Int.le_refl _
        · intro row n hmem
          apply h.tasks row n
          rw [hqueue]
          exact List.mem_cons_of_mem _ hmem
        · exact h.rows
        · exact h.stamps
        · exact h.results
      dsimp only
      split
      · next row n =>
          split
          · apply hrest.savePlayer
            exact (h.tasks row n (by rw [hqueue]; exact List.mem_cons_self)).congr rfl fun d hd => hd
          · exact hrest
      · exact hrest

/-! ## Deliveries and timers -/

/-- A delivery posts no save, and lets in whoever is not claimed. -/
theorem deliver (h : Kept s) (env : Env) (k : ℕ) : Kept (s.deliver env k) := by
  obtain ⟨-, -, -, hcompletions, -⟩ := sessions_deliver s env k
  obtain ⟨hstore, hsaved⟩ := store_deliver s env k
  rcases deliver_spec s env k with heq | ⟨c, conn, hc, -, hout⟩
  · exact h.steady (by rw [heq]; exact .refl _) (by rw [heq]) hstore hsaved hcompletions
  · generalize s.deliver env k = s' at *
    generalize hg : s'.game = g at hout
    have hresults : ∀ c ∈ s'.completions, ∀ row, c.result = .loaded row →
        row.id ≤ s'.store.nextId ∧ s.game.Tracks row c.stamp := by
      rw [hstore]
      exact fun c hc => h.results c (hcompletions c hc)
    -- a refusal sends a packet, and may have claimed the character before
    have hrefused : ∀ reason, g.world = s.game.world.send conn (.loginFail reason) →
        g.departures = s.game.departures → g.saveQueue = s.game.saveQueue →
          (∀ d ∈ s.game.activeDbIds, d ∈ g.activeDbIds) → Kept s' := by
      intro reason hworld hdepartures hqueue hactive
      rw [← hg] at hworld hdepartures hqueue hactive
      apply h.of
      · intro i p hp
        rw [hworld] at hp
        exact ⟨p, hp, rfl⟩
      · exact hdepartures
      · exact hactive
      · rw [hstore]
      · rw [hqueue]
        exact h.tasks
      · rw [hstore, hsaved]
        exact h.rows
      · rw [hsaved]
        exact h.stamps
      · exact hresults
    cases hout with
    | failed reason _ => exact hrefused reason rfl rfl rfl fun d hd => hd
    | loaded row hrow _ hloaded =>
        cases hloaded with
        | duplicate => exact hrefused _ rfl rfl rfl fun d hd => hd
        | full => exact hrefused _ rfl rfl rfl fun d hd => List.mem_cons_of_mem _ hd
        | added hfree v p hadd hp =>
            obtain ⟨spawn, hget⟩ := getPlayer_addPlayer hadd
            obtain ⟨hle, -⟩ := h.results c (List.mem_of_getElem? hc) row hrow
            have hadmit := h.enter hfree hle rfl hget
            apply hadmit.of
            · intro i q hq
              rw [hg] at hq
              dsimp only at hq
              rw [getPlayer_welcome] at hq
              exact ⟨q, hq, rfl⟩
            · rw [hg]
            · rw [hg]
              exact fun d hd => hd
            · rw [hstore]
            · intro row' n hmem
              rw [hg] at hmem
              rcases List.mem_append.mp hmem with hmem | hmem
              · exact hadmit.tasks row' n hmem
              · exact absurd (List.mem_singleton.mp hmem) (by simp)
            · rw [hstore, hsaved]
              exact hadmit.rows
            · rw [hsaved]
              exact hadmit.stamps
            · intro c' hc' row' hr
              obtain ⟨hle', htracks⟩ := hresults c' hc' row' hr
              exact ⟨hle', htracks.congr rfl fun d hd => List.mem_cons_of_mem _ hd⟩

/-- The saves that `DB_SAVE` posts are of characters that are claimed. -/
theorem saveAllPlayers (h : Kept s) (env : Env) :
    Kept { s with game := s.game.saveAllPlayers env } := by
  obtain ⟨hdepartures, hactive, hqueue⟩ := GameWorld.saveAllPlayers_spec env s.game
  apply h.of
  · intro i p hp
    dsimp only at hp
    rw [world_saveAllPlayers] at hp
    exact ⟨p, hp, rfl⟩
  · exact hdepartures
  · intro d hd
    dsimp only
    rw [hactive]
    exact hd
  · exact Int.le_refl _
  · intro row n hmem
    rcases hqueue _ hmem with hmem | ⟨i, p, hp, heq⟩
    · exact h.tasks row n hmem
    · obtain ⟨rfl, rfl⟩ := SaveTask.savePlayer.inj heq
      exact .of_claimed (Nat.le_refl _) (h.claimed i p hp)
  · exact h.rows
  · exact h.stamps
  · exact h.results

theorem fireTimer (h : Kept s) (env : Env) (k : ℕ) : Kept (s.fireTimer env k) := by
  unfold Server.fireTimer
  split
  · exact h
  · next ev hev =>
      have htaken : Kept (s.onWorld fun w => { w with timers := w.timers.eraseIdx k }) := by
        refine h.steady (steady_of_eq ?_ ?_ ?_) ?_ ?_ ?_ fun c hc => hc
        all_goals rfl
      generalize s.onWorld _ = s1 at htaken ⊢
      dsimp only
      generalize ev.targetId = targetId
      cases ev.type with
      | hpRegen => exact htaken.steady (steady_hpRegen _ _) rfl rfl rfl fun c hc => hc
      | monsterAi => exact htaken.steady (steady_monsterAi _ _) rfl rfl rfl fun c hc => hc
      | monsterRespawn =>
          exact htaken.steady (calm_respawnMonster _ _).toSteady rfl rfl rfl fun c hc => hc
      | dbSave =>
          have hsave := htaken.saveAllPlayers env
          exact hsave.steady (calm_addTimer _ .dbSave (by simp) _ _).toSteady rfl rfl rfl
            fun c hc => hc

end Kept

/-- **Every step keeps the promises of the stamps.** -/
theorem kept_step (s : Server) (e : Event) (hl : Linked s) (h : Kept s) : Kept (s.step e) := by
  cases e with
  | tick ms => exact h.steady (steady_of_eq rfl rfl rfl) rfl rfl rfl fun c hc => hc
  | accept =>
      simp only [step, onAccept]
      split
      · exact h
      · exact h.steady (.refl _) rfl rfl rfl fun c hc => hc
  | close id env => exact h.disconnectSession env id
  | packet id data size env =>
      simp only [step]
      split
      · exact h
      · next conn hs =>
          have hcalm := calm_handlePacket (hl.session_of_player hs) env data size
          refine h.steady hcalm.toSteady ?_ ?_ ?_ ?_
          all_goals unfold handlePacket
          · split <;> rfl
          · split <;> rfl
          · split <;> rfl
          · split <;> exact fun c hc => hc
  | loginWorker loadOk createOk => exact h.loginWorker loadOk createOk
  | saveWorker saveOk => exact h.saveWorker saveOk
  | complete k env => exact h.deliver env k
  | timer k env => exact h.fireTimer env k

/-! ## What a login makes of a row -/

/-- A row that holds what the character left with makes it what it was. -/
theorem comesBackAs_ofRow {left : Player} {conn : ConnId} {serial : ℕ} {spawn : Position}
    (hstate : row.SameState left.snapshot) (haround : SectorManager.Around ⟨row.x, row.y⟩ spawn) :
    left.ComesBackAs ((Player.ofRow id conn row serial).setPos spawn) := by
  have hrow : row = { left.snapshot with name := row.name } := by
    rw [← hstate]
  rw [hrow] at haround ⊢
  exact ⟨rfl, rfl, rfl, rfl, haround⟩

/-- **A login that is admitted on a row with the stamp of the last departure
brings the character back.** -/
theorem progressKept_step (s : Server) (e : Event) (h : Kept s) (hok : ReadAfterSave s e) :
    ProgressKept s e := by
  cases e with
  | complete k env =>
      intro c p left hc hp hnew hleft
      -- the object under the id of the session is not one that was there before
      have hold : s.game.world.getPlayer c.sessionId ≠ some p := fun hp' =>
        hnew p (List.mem_of_find?_eq_some hp') rfl
      rw [step] at hp
      rcases deliver_spec s env k with heq | ⟨c', conn, hc', ho, hout⟩
      · rw [heq] at hp
        exact absurd hp hold
      · obtain rfl := Option.some.inj (hc.symm.trans hc')
        generalize (s.deliver env k).game = g at hp hout
        cases hout with
        | failed reason _ => exact absurd hp hold
        | loaded row hrow _ hloaded =>
            cases hloaded with
            | duplicate => exact absurd hp hold
            | full => exact absurd hp hold
            | added hfree v q hadd hq =>
                dsimp only at hp
                rw [getPlayer_welcome, hq] at hp
                obtain rfl := Option.some.inj hp
                obtain ⟨sm, spawn, hsm, rfl⟩ := addPlayer_eq_some hadd
                rw [getPlayer_setPlayer] at hq
                have hid : c.sessionId = ((Player.ofRow c.sessionId conn row
                    s.game.world.nextSerial).setPos spawn).id := rfl
                rw [if_pos hid] at hq
                obtain rfl := Option.some.inj hq
                have hne : c.sessionId ≠ invalidId := by
                  have hlt := (getSession_eq_some ho).1
                  unfold ObjectID maxPlayers invalidId at *
                  omega
                obtain ⟨-, -, haround, -⟩ := SectorManager.index_addObject hne hsm
                obtain ⟨-, htracks⟩ := h.results c (List.mem_of_getElem? hc) row hrow
                have hstamp := hok c row hc hrow (by rw [ho]; rfl) hfree (by rw [hsm]; rfl)
                exact comesBackAs_ofRow (htracks.last hstamp hfree left hleft) haround
  | _ => trivial

/-! ## Whole runs -/

/-- **No progress is lost between two sessions of a character**, in every run in
which each login that is admitted was read after the save of the character's
last departure. Database operations may fail. -/
theorem progressKept_run {map : Map} {spawns : List MonsterSpawnData} {now : ℕ}
    {store : PlayerStore} {es : List Event}
    (hok : Along step ReadAfterSave (init map spawns now store) es) :
    Along step ProgressKept (init map spawns now store) es := by
  apply Along.of_invariant (I := fun s => Linked s ∧ Kept s) (C := ReadAfterSave)
  · intro s e h _
    exact ⟨linked_step s e h.1, kept_step s e h.1 h.2⟩
  · intro s e h hread
    exact progressKept_step s e h.2 hread
  · exact ⟨linked_init map spawns now store, kept_init map spawns now store⟩
  · exact hok

/-- Whether the login result of this index was read in time. -/
def readInTime (s : Server) (k : ℕ) : Bool :=
  (s.completions[k]?).all fun c =>
    match c.result with
    | .loaded row => c.stamp = s.game.departureCount row.id
    | .failed _ => true

theorem readAfterSave_of_readInTime {k : ℕ} (h : s.readInTime k = true) :
    ReadAfterSave s (.complete k env) := by
  intro c row hc hrow _ _ _
  rw [readInTime, hc, Option.all_some, hrow] at h
  exact of_decide_eq_true h

/-- A character is hit, leaves, is saved, and comes back on another session. -/
def savedReturn : List Event :=
  oneLogin ++ [.tick 1000, .timer 1 .plain, .tick 1000, .timer 1 .plain, .accept, .close 0 .plain,
    .saveWorker true, .saveWorker true, .packet 1 (loginPacket [65]) 36 .plain,
    .loginWorker true true, .complete 0 .plain]

theorem progressKept_run_savedReturn :
    Along step ProgressKept (init openField [brute] 0 .init) savedReturn := by
  apply progressKept_run
  refine ⟨trivial, trivial, trivial, readAfterSave_of_readInTime ?_, trivial, trivial, trivial,
    trivial, trivial, trivial, trivial, trivial, trivial, trivial,
    readAfterSave_of_readInTime ?_, trivial⟩
  all_goals decide +kernel

/-- A character is hit; a second client asks for it, and its row is read; the
first client leaves; the result is delivered. -/
def readBeforeSave : List Event :=
  oneLogin ++ [.tick 1000, .timer 1 .plain, .tick 1000, .timer 1 .plain, .accept,
    .packet 1 (loginPacket [65]) 36 .plain, .loginWorker true true, .close 0 .plain]

theorem readBeforeSave_state :
    let s := run step (init openField [brute] 0 .init) readBeforeSave
    let s' := s.step (.complete 0 .plain)
    (s.completions[0]?).map (·.sessionId) = some 1 ∧ s.game.world.players.entries = [] ∧
      (s'.game.world.getPlayer 1).map (fun p => (p.dbId, p.hp)) = some (1, 100) ∧
      (s.game.lastDeparture 1).map (·.hp) = some 50 := by
  decide +kernel

/-- The character left with 50 hit points and is back with 100. -/
theorem not_always_progressKept :
    ¬ ∀ (map : Map) (spawns : List MonsterSpawnData) (now : ℕ) (store : PlayerStore)
      (es : List Event), (∀ e ∈ es, DbSucceeds e) →
        Along step ProgressKept (init map spawns now store) es := by
  intro hall
  have h := hall openField [brute] 0 .init (readBeforeSave ++ [.complete 0 .plain]) (by
    simp [readBeforeSave, oneLogin, DbSucceeds])
  rw [along_append] at h
  obtain ⟨-, hkept, -⟩ := h
  obtain ⟨hc, hempty, hplayer, hleft⟩ := readBeforeSave_state
  obtain ⟨c, hc, hid⟩ := Option.map_eq_some_iff.mp hc
  obtain ⟨p, hp, hstats⟩ := Option.map_eq_some_iff.mp hplayer
  obtain ⟨left, hleft, hhp⟩ := Option.map_eq_some_iff.mp hleft
  obtain ⟨hdb, hback⟩ := Prod.mk.inj hstats
  have hsame := hkept c p left hc (by rw [hid]; exact hp) (by rw [hempty]; simp)
    (by rw [hdb]; exact hleft)
  have heq := hsame.hp
  rw [hback, hhp] at heq
  exact absurd heq (by decide)

end Server

end Mmorpg
