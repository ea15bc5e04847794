/-
Where the values of players, monsters, rows and packets come from.

A value is in a player that plays, in a save that waits, in the store, in the
result of a login, or in a packet, and it gets from one to the other by few
ways: a login makes a player of a row, a save makes a row of a player, and the
effects of the handlers change what is there. `Rules` are properties of the
five kinds, and `Closed` says that none of these ways leads out of them. Then
they hold of everything in every state of a run (`Meets.run`).
-/
import SimplestMmorpg.Game.Spawn
import SimplestMmorpg.Server.Leaving
import SimplestMmorpg.Server.Progress
import SimplestMmorpg.Server.StepEffects

set_option autoImplicit false

namespace Mmorpg

open Transition World

/-- What is asked of the values on a map. -/
structure Rules where
  map : Map
  player : Player → Prop
  monster : Monster → Prop
  row : PlayerRow → Prop
  packet : ScPacket → Prop
  /-- What the handlers are called with. -/
  env : Env → Prop

variable {r : Rules} {c : Scope} {env : Env} {w w' v : World} {p q : Player} {conn : ConnId}
  {pkt : ScPacket} {pkts : List (ConnId × ScPacket)}

/-- Everything in the world is as the rules ask. -/
structure World.Meets (r : Rules) (w : World) : Prop where
  map : w.map = r.map
  players : ∀ i p, w.getPlayer i = some p → r.player p
  monsters : ∀ i m, w.getMonster i = some m → r.monster m
  sent : ∀ x ∈ w.sent, r.packet x.2

/-- Nothing leads out of the rules. -/
structure Rules.Closed (r : Rules) : Prop where
  tweaked : ∀ (c : Scope) (now : ℕ) (p q : Player), r.env c.env → r.player p →
    p.Tweaked c r.map now q → r.player q
  restated : ∀ p q : Player, r.player p → p.Restated r.map r.monster q → r.player q
  died : ∀ p : Player, r.player p → r.player p.die.stopRegen
  edited : ∀ m m' : Monster, r.monster m → m.Edited r.map m' → r.monster m'
  said : ∀ (w : World) (pkt : ScPacket), w.Meets r → w.Says pkt → r.packet pkt
  stat : ∀ p : Player, r.player p → r.packet p.statPkt
  loginOk : ∀ p : Player, r.player p → r.packet (loginOkPkt p)
  loginFail : ∀ reason, r.packet (.loginFail reason)
  loaded : ∀ (row : PlayerRow) (id : ObjectID) (conn : ConnId) (serial : ℕ) (pos : Position),
    r.row row → id < maxPlayers → r.map.isWalkable pos.x pos.y = true →
      r.player ((Player.ofRow id conn row serial).setPos pos)
  saved : ∀ p : Player, r.player p → r.row p.snapshot
  renamed : ∀ (row : PlayerRow) (name : Bytes), r.row row → r.row { row with name := name }
  created : ∀ (id : Int) (name : Bytes), r.row ⟨id, name, 1, 0, 100, 100, 0, 0⟩

/-! ## The world -/

namespace World.Meets

theorem setPlayer (h : w.Meets r) (hq : r.player q) : (w.setPlayer q).Meets r where
  map := h.map
  players i p hp := by
    rw [getPlayer_setPlayer] at hp
    split at hp
    · rw [← Option.some.inj hp]
      exact hq
    · exact h.players i p hp
  monsters := h.monsters
  sent := h.sent

theorem send (h : w.Meets r) (conn : ConnId) (hpkt : r.packet pkt) :
    (w.send conn pkt).Meets r where
  map := h.map
  players := h.players
  monsters := h.monsters
  sent x hx := by
    rcases List.mem_append.mp hx with hx | hx
    · exact h.sent x hx
    · rw [List.mem_singleton.mp hx]
      exact hpkt

/-- **One effect.** -/
theorem effect (h : w.Meets r) (hr : r.Closed) (henv : r.env c.env) (he : Effect c w w') :
    w'.Meets r := by
  cases he with
  | placed sm _ => exact ⟨h.map, h.players, h.monsters, h.sent⟩
  | timer type id owner htype => exact ⟨h.map, h.players, h.monsters, h.sent⟩
  | edited m m' hm hedit =>
      refine ⟨h.map, h.players, fun i n hn => ?_, h.sent⟩
      rw [getMonster_setMonster (m := m') (by rw [hedit.id]; exact hm)] at hn
      split at hn
      · rw [← Option.some.inj hn]
        exact hr.edited m m' (h.monsters m.id m hm) (h.map ▸ hedit)
      · exact h.monsters i n hn
  | said conn pkt hsaid => exact h.send conn (hr.said w pkt h hsaid)
  | tweaked p q hp htweak =>
      exact h.setPlayer (hr.tweaked c w.now p q henv (h.players p.id p hp) (h.map ▸ htweak))
  | restated p q hp hrestated =>
      have hslain := hrestated.mono fun m hm => h.monsters m.id m hm
      have hq := hr.restated p q (h.players p.id p hp) (h.map ▸ hslain)
      exact (h.setPlayer hq).send q.session (hr.stat q hq)
  | fallen p hp _ => exact h.setPlayer (hr.died p (h.players p.id p hp))

theorem effects (h : w.Meets r) (hr : r.Closed) (henv : r.env c.env) (he : Effects c w w') :
    w'.Meets r :=
  he.keeps (fun _ _ hu hv => hu.effect hr henv hv) h

/-- The answer to a login, with all that is shown to those around. -/
theorem welcome (h : w.Meets r) (hr : r.Closed) (henv : r.env env)
    (hp : w.getPlayer p.id = some p) (conn : ConnId) : (w.welcome env conn p).Meets r := by
  have hok := h.send conn (hr.loginOk p (h.players p.id p hp))
  have hp' : (w.send conn (loginOkPkt p)).getPlayer p.id = some p := hp
  refine hok.effects (c := ⟨env, fun _ _ => False, fun _ => False⟩) hr henv ?_
  exact (effects_sendAll fun x hx => says_sendFullView hp' hx).trans
    (effects_activateNearbyMonsters env p.pos _)

theorem leave (h : w.Meets r) (hr : r.Closed) (henv : r.env env)
    (hp : w.getPlayer p.id = some p) : (w.leave env p).Meets r := by
  have hgone : Effects ⟨env, fun _ _ => False, fun _ => False⟩ w
      (w.sendAll (ViewProcessor.sendDisappear env w p)) :=
    effects_sendAll fun x hx => says_sendDisappear hp hx
  have htold := h.effects hr henv hgone
  refine ⟨htold.map, fun i q hq => ?_, htold.monsters, htold.sent⟩
  rw [getPlayer_leave] at hq
  split at hq
  · exact absurd hq (by simp)
  · exact h.players i q hq

/-- A login makes a player of a row. -/
theorem addPlayer (h : w.Meets r) (hr : r.Closed) {id : ObjectID} {row : PlayerRow}
    (hid : id < maxPlayers) (hrow : r.row row) (hadd : w.addPlayer id conn row = some v) :
    v.Meets r := by
  obtain ⟨sm, spawn, hsm, rfl⟩ := addPlayer_eq_some hadd
  have hwalk := SectorManager.isWalkable_of_addObject hsm
  rw [h.map] at hwalk
  have hplaced : World.Meets r
      { w with sectorManager := sm, nextSerial := w.nextSerial + 1 } :=
    ⟨h.map, h.players, h.monsters, h.sent⟩
  exact hplaced.setPlayer (hr.loaded row id conn w.nextSerial spawn hrow hid hwalk)

end World.Meets

/-! ## The server -/

namespace Server

variable {s : Server} {e : Event}

/-- What an event is handled with. -/
def Event.env? : Event → Option Env
  | .close _ env => some env
  | .packet _ _ _ env => some env
  | .complete _ env => some env
  | .timer _ env => some env
  | _ => none

/-- What an event is handled with is as the rules ask. -/
def Event.Meets (r : Rules) (e : Event) : Prop := ∀ env, e.env? = some env → r.env env

/-- Everything in the server is as the rules ask. -/
structure Meets (r : Rules) (s : Server) : Prop where
  world : s.game.world.Meets r
  stored : ∀ e ∈ s.store.rows, r.row e.2
  loaded : ∀ c ∈ s.completions, ∀ row, c.result = .loaded row → r.row row
  tasks : ∀ row stamp, SaveTask.savePlayer row stamp ∈ s.game.saveQueue → r.row row

theorem world_meets_step (h : Meets r s) (hr : r.Closed) (henv : e.Meets r) :
    (s.step e).game.world.Meets r := by
  have hw := h.world
  have hstep := worldStep s e
  generalize (s.step e).game.world = w at hstep
  cases hstep with
  | idle => exact hw
  | tick ms => exact ⟨hw.map, hw.players, hw.monsters, hw.sent⟩
  | left id env conn p hs hp =>
      exact hw.leave hr (henv env rfl) (by rw [getPlayer_id hp]; exact hp)
  | packet id data size env conn hs =>
      exact hw.effects (c := requestScope env (fun _ => True) id data size) hr (henv env rfl)
        (effects_handlePacket s env _ id conn data size)
  | refused k env c conn reason hc ho => exact hw.send conn (hr.loginFail reason)
  | joined k env c conn row v p hc hrow ho hfree hadd hp =>
      have hrow' := h.loaded c (List.mem_of_getElem? hc) row hrow
      have hv := hw.addPlayer hr (getSession_eq_some ho).1 hrow' hadd
      exact hv.welcome hr (henv env rfl) (by rw [getPlayer_id hp]; exact hp) conn
  | fired k env ev hev =>
      have htaken : World.Meets r
          { s.game.world with timers := s.game.world.timers.eraseIdx k } :=
        ⟨hw.map, hw.players, hw.monsters, hw.sent⟩
      by_cases htype : ev.type = .dbSave
      · rw [htype, world_handleTimerEvent_dbSave]
        exact ⟨hw.map, hw.players, hw.monsters, hw.sent⟩
      · -- nobody's client has to be told of a death here
        exact htaken.effects (c := timerScope env fun _ => True) hr (henv env rfl)
          (effects_fired s.game env k htype ev.targetId)

/-- What a save leaves in the store. -/
theorem stored_savePlayer (hr : r.Closed) {store db : PlayerStore} {row : PlayerRow}
    (hdb : ∀ e ∈ db.rows, r.row e.2) (hrow : r.row row) (hsave : db.savePlayer row = some store) :
    ∀ e ∈ store.rows, r.row e.2 := by
  intro e he
  rcases (PlayerStore.savePlayer_eq_some hsave).2 e he with ⟨hsame, -⟩ | ⟨hold, -⟩
  · have hren := hr.renamed row e.2.name hrow
    rw [← show e.2 = { row with name := e.2.name } by rw [← hsame]] at hren
    exact hren
  · exact hdb e hold

theorem loginOutcome_meets (h : Meets r s) (hr : r.Closed) (loadOk createOk : Bool) (name : Bytes) :
    (∀ e ∈ (s.loginOutcome loadOk createOk name).1.rows, r.row e.2) ∧
      ∀ row, (s.loginOutcome loadOk createOk name).2 = .loaded row → r.row row := by
  unfold loginOutcome
  split
  · exact ⟨h.stored, fun row heq => absurd heq (by simp)⟩
  · split
    · next row hload =>
        refine ⟨h.stored, fun row' heq => ?_⟩
        rw [← LoginResult.loaded.inj heq]
        exact h.stored _ (PlayerStore.mem_of_loadPlayerByName hload)
    · split
      · exact ⟨h.stored, fun row heq => absurd heq (by simp)⟩
      · cases hcreate : s.store.createPlayer name with
        | none => exact ⟨h.stored, fun row heq => absurd heq (by simp)⟩
        | some new =>
            obtain ⟨store, newId⟩ := new
            obtain ⟨-, -, hrows⟩ := PlayerStore.createPlayer_eq_some hcreate
            refine ⟨fun e he => ?_, fun row heq => ?_⟩
            · dsimp only at he
              rw [hrows] at he
              rcases List.mem_append.mp he with he | he
              · exact h.stored e he
              · rw [List.mem_singleton.mp he]
                exact hr.created newId name
            · rw [← LoginResult.loaded.inj heq]
              exact hr.created newId name

/-- What is in the store after a step. -/
theorem stored_step (h : Meets r s) (hr : r.Closed) :
    ∀ e' ∈ (s.step e).store.rows, r.row e'.2 := by
  cases e with
  | tick ms => exact h.stored
  | accept =>
      simp only [step, onAccept]
      split <;> exact h.stored
  | close id env =>
      simp only [step, disconnectSession]
      split <;> exact h.stored
  | packet id data size env =>
      simp only [step]
      split
      · exact h.stored
      · unfold handlePacket
        split <;> exact h.stored
  | loginWorker loadOk createOk =>
      simp only [step, loginWorker]
      split
      · exact h.stored
      · exact (loginOutcome_meets h hr loadOk createOk _).1
  | saveWorker saveOk =>
      simp only [step, saveWorker]
      split
      · exact h.stored
      · next task rest hqueue =>
          split
          · next row stamp =>
              split
              · unfold savePlayer
                dsimp only
                split
                · exact h.stored
                · next store hsave =>
                    refine stored_savePlayer hr h.stored (h.tasks row stamp ?_) hsave
                    rw [hqueue]
                    exact List.mem_cons_self
              · exact h.stored
          · exact h.stored
  | complete k env =>
      rw [step, (store_deliver s env k).1]
      exact h.stored
  | timer k env =>
      simp only [step, fireTimer]
      split <;> exact h.stored

/-- What the results of logins carry after a step. -/
theorem loaded_step (h : Meets r s) (hr : r.Closed) :
    ∀ c ∈ (s.step e).completions, ∀ row, c.result = .loaded row → r.row row := by
  cases e with
  | tick ms => exact h.loaded
  | accept =>
      simp only [step, onAccept]
      split <;> exact h.loaded
  | close id env =>
      simp only [step, disconnectSession]
      split <;> exact h.loaded
  | packet id data size env =>
      simp only [step]
      split
      · exact h.loaded
      · unfold handlePacket
        split <;> exact h.loaded
  | loginWorker loadOk createOk =>
      simp only [step, loginWorker]
      split
      · exact h.loaded
      · intro c hc row hres
        rcases List.mem_append.mp hc with hc | hc
        · exact h.loaded c hc row hres
        · rw [List.mem_singleton.mp hc] at hres
          exact (loginOutcome_meets h hr loadOk createOk _).2 row hres
  | saveWorker saveOk =>
      simp only [step, saveWorker]
      split
      · exact h.loaded
      · split
        · split
          · unfold savePlayer
            dsimp only
            split <;> exact h.loaded
          · exact h.loaded
        · exact h.loaded
  | complete k env =>
      obtain ⟨-, -, -, hcompletions, -⟩ := sessions_deliver s env k
      exact fun c hc => h.loaded c (hcompletions c hc)
  | timer k env =>
      simp only [step, fireTimer]
      split <;> exact h.loaded

/-- What waits to be saved after a step. -/
theorem tasks_step (h : Meets r s) (hr : r.Closed) (row : PlayerRow) (stamp : ℕ)
    (hmem : SaveTask.savePlayer row stamp ∈ (s.step e).game.saveQueue) : r.row row := by
  cases e with
  | tick ms => exact h.tasks row stamp hmem
  | accept =>
      simp only [step, onAccept] at hmem
      split at hmem <;> exact h.tasks row stamp hmem
  | close id env =>
      simp only [step, disconnectSession] at hmem
      split at hmem
      · exact h.tasks row stamp hmem
      · dsimp only at hmem
        cases hp : s.game.world.getPlayer id with
        | none =>
            rw [GameWorld.processDisconnect, hp] at hmem
            exact h.tasks row stamp hmem
        | some p =>
            obtain ⟨n, heq⟩ := processDisconnect_of_some env hp
            rw [heq] at hmem
            rcases List.mem_append.mp hmem with hmem | hmem
            · exact h.tasks row stamp hmem
            · rw [(SaveTask.savePlayer.inj (List.mem_singleton.mp hmem)).1]
              exact hr.saved p (h.world.players id p hp)
  | packet id data size env =>
      simp only [step] at hmem
      split at hmem
      · exact h.tasks row stamp hmem
      · unfold handlePacket at hmem
        split at hmem <;> exact h.tasks row stamp hmem
  | loginWorker loadOk createOk =>
      rw [step, game_loginWorker] at hmem
      exact h.tasks row stamp hmem
  | saveWorker saveOk =>
      simp only [step, saveWorker] at hmem
      split at hmem
      · exact h.tasks row stamp hmem
      · next task rest hqueue =>
          refine h.tasks row stamp ?_
          rw [hqueue]
          refine List.mem_cons_of_mem _ ?_
          split at hmem
          · split at hmem
            · unfold savePlayer at hmem
              dsimp only at hmem
              split at hmem <;> exact hmem
            · exact hmem
          · exact hmem
  | complete k env =>
      rw [step] at hmem
      rcases deliver_spec s env k with heq | ⟨c, conn, -, -, hout⟩
      · rw [heq] at hmem
        exact h.tasks row stamp hmem
      · generalize (s.deliver env k).game = g at hout hmem
        cases hout with
        | failed reason _ => exact h.tasks row stamp hmem
        | loaded row' _ _ hloaded =>
            cases hloaded with
            | duplicate => exact h.tasks row stamp hmem
            | full => exact h.tasks row stamp hmem
            | added =>
                rcases List.mem_append.mp hmem with hmem | hmem
                · exact h.tasks row stamp hmem
                · exact absurd (List.mem_singleton.mp hmem) (by simp)
  | timer k env =>
      simp only [step, fireTimer] at hmem
      split at hmem
      · exact h.tasks row stamp hmem
      · next ev hev =>
          dsimp only at hmem
          cases htype : ev.type with
          | dbSave =>
              rw [htype] at hmem
              obtain ⟨-, -, hqueue⟩ := GameWorld.saveAllPlayers_spec env
                (s.onWorld fun w => { w with timers := w.timers.eraseIdx k }).game
              rcases hqueue _ hmem with hold | ⟨i, p, hp, heq⟩
              · exact h.tasks row stamp hold
              · rw [(SaveTask.savePlayer.inj heq).1]
                exact hr.saved p (h.world.players i p hp)
          | hpRegen =>
              rw [htype] at hmem
              exact h.tasks row stamp hmem
          | monsterAi =>
              rw [htype] at hmem
              exact h.tasks row stamp hmem
          | monsterRespawn =>
              rw [htype] at hmem
              exact h.tasks row stamp hmem

theorem meets_step (hr : r.Closed) (s : Server) (e : Event) (h : Meets r s) (henv : e.Meets r) :
    Meets r (s.step e) :=
  ⟨world_meets_step h hr henv, stored_step h hr, loaded_step h hr, tasks_step h hr⟩

/-! ## The start -/

/-- Every monster at the start is made from an entry of the script and stands on
a walkable tile. -/
theorem monsters_spawnMonsters (spawns : List MonsterSpawnData) (w : World) :
    (w.spawnMonsters spawns).map = w.map ∧ (w.spawnMonsters spawns).players = w.players ∧
      (w.spawnMonsters spawns).sent = w.sent ∧
      (w.spawnMonsters spawns).monsters.entries.length ≤
        w.monsters.entries.length + spawns.length ∧
      ∀ m ∈ (w.spawnMonsters spawns).monsters.entries, m ∈ w.monsters.entries ∨
        ∃ data ∈ spawns, ∃ id spawn, m = .make id data spawn ∧
          w.map.isWalkable spawn.x spawn.y = true := by
  induction spawns generalizing w with
  | nil => exact ⟨rfl, rfl, rfl, Nat.le_refl _, fun m hm => .inl hm⟩
  | cons data rest ih =>
      obtain ⟨hmap, hplayers, hsent, hlength, hmem⟩ := ih (w.spawnMonster data)
      have hrest : w.spawnMonsters (data :: rest) = (w.spawnMonster data).spawnMonsters rest := rfl
      rw [hrest]
      cases hadd : w.sectorManager.addObject w.nextMonsterId data.pos w.map with
      | none =>
          rw [spawnMonster_of_none hadd] at hmap hplayers hsent hlength hmem ⊢
          refine ⟨hmap, hplayers, hsent, ?_, fun m hm => ?_⟩
          · rw [List.length_cons]
            omega
          · refine (hmem m hm).imp_right ?_
            rintro ⟨d, hd, hrest⟩
            exact ⟨d, List.mem_cons_of_mem _ hd, hrest⟩
      | some placed =>
          obtain ⟨sm, spawn⟩ := placed
          have hwalk := SectorManager.isWalkable_of_addObject hadd
          have hentries : (w.spawnMonster data).monsters.entries =
              w.monsters.entries ++ [Monster.make w.nextMonsterId data spawn] := by
            rw [spawnMonster_of_some hadd]
            rfl
          have hmap' : (w.spawnMonster data).map = w.map := by rw [spawnMonster_of_some hadd]
          refine ⟨hmap.trans hmap', hplayers.trans ?_, hsent.trans ?_, ?_, fun m hm => ?_⟩
          · rw [spawnMonster_of_some hadd]
          · rw [spawnMonster_of_some hadd]
          · rw [hentries, List.length_append, List.length_singleton] at hlength
            rw [List.length_cons]
            omega
          · rw [hmap'] at hmem
            rcases hmem m hm with hold | ⟨d, hd, hrest⟩
            · rw [hentries] at hold
              rcases List.mem_append.mp hold with hold | hnew
              · exact .inl hold
              · exact .inr ⟨data, List.mem_cons_self, _, spawn, List.mem_singleton.mp hnew, hwalk⟩
            · exact .inr ⟨d, List.mem_cons_of_mem _ hd, hrest⟩

/-- It is enough to look at the script and at the stored rows. -/
theorem meets_init {spawns : List MonsterSpawnData} {now : ℕ} {store : PlayerStore}
    (hspawns : ∀ data ∈ spawns, ∀ (k : ℕ) (spawn : Position), k < spawns.length →
      r.map.isWalkable spawn.x spawn.y = true → r.monster (.make (monsterIdOffset + k) data spawn))
    (hrows : ∀ e ∈ store.rows, r.row e.2) : Meets r (init r.map spawns now store) := by
  obtain ⟨hmap, hplayers, hsent, hlength, hmem⟩ :=
    monsters_spawnMonsters spawns (World.empty r.map now)
  refine ⟨⟨hmap, fun i p hp => ?_, fun i m hm => ?_, fun x hx => ?_⟩, hrows,
    fun c hc => absurd hc List.not_mem_nil, fun row n hmem => absurd hmem List.not_mem_nil⟩
  · have hp' : ((World.empty r.map now).spawnMonsters spawns).players.find i = some p := hp
    rw [hplayers] at hp'
    exact absurd hp' (by simp [World.empty])
  · have hm' : ((World.empty r.map now).spawnMonsters spawns).monsters.find i = some m := hm
    have hid := MonsterTable.find_id hm'
    unfold MonsterTable.find at hm'
    split at hm'
    · exact absurd hm' (by simp)
    · have hlt := (List.getElem?_eq_some_iff.mp hm').1
      have hknown := MonsterTable.id_eq _ _ _ hm'
      rcases hmem m (List.mem_of_getElem? hm') with hold | ⟨data, hdata, id, spawn, rfl, hwalk⟩
      · exact absurd hold (by simp [World.empty, MonsterTable.empty])
      · have hkey : id = monsterIdOffset + (i - monsterIdOffset) := hknown
        rw [hkey]
        refine hspawns data hdata _ spawn ?_ hwalk
        have hempty : (World.empty r.map now).monsters.entries.length = 0 := rfl
        omega
  · have hx' : x ∈ ((World.empty r.map now).spawnMonsters spawns).sent := hx
    rw [hsent] at hx'
    exact absurd hx' List.not_mem_nil

/-- **What nothing leads out of holds of everything in every reachable state.** -/
theorem meets_run (hr : r.Closed) {spawns : List MonsterSpawnData} {now : ℕ} {store : PlayerStore}
    (hspawns : ∀ data ∈ spawns, ∀ (k : ℕ) (spawn : Position), k < spawns.length →
      r.map.isWalkable spawn.x spawn.y = true → r.monster (.make (monsterIdOffset + k) data spawn))
    (hrows : ∀ e ∈ store.rows, r.row e.2) {es : List Event}
    (henv : ∀ e ∈ es, e.Meets r) : Meets r (run step (init r.map spawns now store) es) :=
  Transition.invariant (C := fun _ e => e.Meets r) (meets_step hr) (meets_init hspawns hrows)
    (along_of_forall fun e he _ => henv e he)

end Server

end Mmorpg
