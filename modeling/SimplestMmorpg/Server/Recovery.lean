/-
How long a wounded player and a dead monster have to wait.

A wounded player has a regeneration timer queued wherever no login brings a wound
in (`Server/Healing`), and a timer that is queued fires in time
(`Server/Punctual`). So a player that is left alone, neither hit nor sent away
nor raised to another level, gains what one timer gives in every interval and
lag, up to the maximum. A dead monster has a respawn queued
(`Server/LifeCycleRun`), and comes back with it on the nearest free tile to where
it spawns, or is called again when no tile is free as far as `AddObject` looks.
-/
import SimplestMmorpg.Game.Nearest
import SimplestMmorpg.Server.Autosave
import SimplestMmorpg.Server.Healing
import SimplestMmorpg.Server.LeashRun
import SimplestMmorpg.Server.LifeCycleRun

set_option autoImplicit false

namespace Mmorpg

open World Transition

namespace World

variable {w : World} {id : ObjectID} {p : Player}

/-- `stopRegenAndMaybeRestart` leaves the hit points. -/
theorem hp_stopRegenAndMaybeRestart (p : Player) (w : World) :
    ∃ q, (w.stopRegenAndMaybeRestart p).getPlayer p.id = some q ∧ q.hp = p.hp ∧
      q.maxHp = p.maxHp := by
  unfold stopRegenAndMaybeRestart
  dsimp only
  split
  · exact ⟨_, getPlayer_setPlayer_self _ _, rfl, rfl⟩
  · exact ⟨_, getPlayer_setPlayer_self _ _, rfl, rfl⟩

/-- The monster is whole again, on a tile of its own that was free; no free tile
was nearer to where it spawns. -/
structure StandsAgain (w w' : World) (m m' : Monster) : Prop where
  hp : m'.hp = m.maxHp
  tile : w'.sectorManager.getOccupant m'.pos = m.id
  free : w.sectorManager.Free w.map m'.pos
  near : distMax m'.pos m.spawnPos ≤ 20
  nearest : ∀ q, w.sectorManager.Free w.map q → distMax m'.pos m.spawnPos ≤ distMax q m.spawnPos

/-- No tile is free where `AddObject` looks; the monster is as it was, and is
called again. -/
structure WaitsAgain (w w' : World) (m m' : Monster) : Prop where
  same : m' = m
  noRoom : ∀ q, w.sectorManager.Free w.map q → 20 < distMax q m.spawnPos
  again : ⟨w.now + monsterRespawnMs, .monsterRespawn, m.id, none⟩ ∈ w'.timers

/-- What `AddObject` finds around the place where a monster spawns. -/
theorem addObject_home (sm : SectorManager) (map : Map) {home : Position} (hin : InMap home)
    (id : ObjectID) :
    (sm.addObject id home map = none ∧ ∀ q, sm.Free map q → 20 < distMax q home) ∨
      ∃ sm' out, sm.addObject id home map = some (sm', out) ∧ sm'.getOccupant out = id ∧
        sm.Free map out ∧ distMax out home ≤ 20 ∧
        ∀ q, sm.Free map q → distMax out home ≤ distMax q home := by
  have hint : SectorManager.IsInt16 home.x ∧ SectorManager.IsInt16 home.y := by
    obtain ⟨hx, hx', hy, hy'⟩ := hin
    unfold SectorManager.IsInt16 mapWidth mapHeight at *
    omega
  unfold SectorManager.addObject
  split
  · next hnone =>
      refine .inl ⟨rfl, fun q hq => Nat.lt_of_not_le ?_⟩
      exact (SectorManager.tryClaimNearby_eq_none hint.1 hint.2).mp hnone q hq
  · next sm₁ out hsome =>
      obtain ⟨hfree, hle, hleast, rfl⟩ := SectorManager.tryClaimNearby_nearest hint.1 hint.2 hsome
      refine .inr ⟨_, out, rfl, ?_, hfree, hle, hleast⟩
      exact (SectorManager.getOccupant_setTile hfree.inMap id).trans (if_pos rfl)

/-- **`RespawnMonster` brings the monster back whole, or calls it again.** -/
theorem respawnMonster_back (env : Env) {m : Monster} (hm : w.getMonster id = some m)
    (hin : InMap m.spawnPos) :
    ∃ m', (w.respawnMonster env id).getMonster id = some m' ∧ m'.spec = m.spec ∧
      (StandsAgain w (w.respawnMonster env id) m m' ∨
        WaitsAgain w (w.respawnMonster env id) m m') := by
  obtain rfl := getMonster_id hm
  unfold respawnMonster
  simp only [hm]
  rcases addObject_home w.sectorManager w.map hin m.id with
    ⟨hnone, hroom⟩ | ⟨sm, out, hadd, htile, hfree, hnear, hleast⟩
  · simp only [hnone]
    exact ⟨m, hm, rfl, .inr ⟨rfl, hroom, List.mem_append_right _ (List.mem_singleton.mpr rfl)⟩⟩
  · simp only [hadd]
    have hset : ∀ {v : World} {n n' : Monster}, v.getMonster n.id = some n' →
        (v.setMonster n).getMonster n.id = some n := by
      intro v n n' hn
      rw [getMonster_setMonster hn, if_pos rfl]
    have hback := hset (v := { w with sectorManager := sm }) (n := m.respawn.setPos out) hm
    split
    · split
      · exact ⟨_, hback, rfl, .inl ⟨rfl, htile, hfree, hnear, hleast⟩⟩
      · next n hactive =>
          unfold Monster.tryActivate at hactive
          split at hactive
          · exact absurd hactive (by simp)
          · obtain rfl := Option.some.inj hactive
            exact ⟨_, hset (n := { m.respawn.setPos out with isActive := true }) hback, rfl,
              .inl ⟨rfl, htile, hfree, hnear, hleast⟩⟩
    · exact ⟨_, hback, rfl, .inl ⟨rfl, htile, hfree, hnear, hleast⟩⟩

/-- **What one timer gives.** -/
theorem hp_hpRegen (hp : w.getPlayer id = some p) (halive : 0 < p.hp) (hle : p.hp ≤ p.maxHp) :
    ∃ q, (w.hpRegen id).getPlayer id = some q ∧ q.maxHp = p.maxHp ∧
      q.hp = min (p.hp + regenAmount p.maxHp) p.maxHp := by
  have hamount : 0 ≤ regenAmount p.maxHp := regenAmount_nonneg (by omega)
  obtain rfl := getPlayer_id hp
  have hnotdead : ¬ p.isDead = true := fun hdead => by
    have : p.hp ≤ 0 := of_decide_eq_true hdead
    omega
  unfold hpRegen
  simp only [hp]
  rw [if_neg hnotdead]
  split
  · next hfull =>
      obtain ⟨q, hq, hqhp, hqmax⟩ := hp_stopRegenAndMaybeRestart p w
      exact ⟨q, hq, hqmax, by rw [hqhp]; omega⟩
  · split
    · obtain ⟨q, hq, hqhp, hqmax⟩ := hp_stopRegenAndMaybeRestart p.regenHP
        ((w.setPlayer p.regenHP).send p.regenHP.session p.regenHP.statPkt)
      exact ⟨q, hq, hqmax, hqhp⟩
    · exact ⟨_, getPlayer_setPlayer_self w p.regenHP, rfl, rfl⟩

/-- Who misses nothing is given nothing. -/
theorem hp_hpRegen_full (hp : w.getPlayer id = some p) (halive : 0 < p.hp) (hfull : p.maxHp ≤ p.hp) :
    ∃ q, (w.hpRegen id).getPlayer id = some q ∧ q.hp = p.hp ∧ q.maxHp = p.maxHp := by
  obtain rfl := getPlayer_id hp
  have hnotdead : ¬ p.isDead = true := fun hdead => by
    have : p.hp ≤ 0 := of_decide_eq_true hdead
    omega
  unfold hpRegen
  simp only [hp]
  rw [if_neg hnotdead, if_pos hfull]
  exact hp_stopRegenAndMaybeRestart p w

end World

namespace Server

variable {s : Server} {e : Event} {es more : List Event} {id : ObjectID} {p : Player} {lag k : ℕ}

/-- It is a regeneration timer of the player that fires. -/
def Regenerates (id : ObjectID) (s : Server) (e : Event) : Prop :=
  ∃ ev, ev.type = .hpRegen ∧ ev.targetId = id ∧ Fires ev s e

/-- Nothing but its regeneration changes the hit points of the player, which
stays. -/
def LeftAlone (id : ObjectID) (s : Server) (e : Event) : Prop :=
  Regenerates id s e ∨ ∀ p, s.game.world.getPlayer id = some p →
    ∃ q, (s.step e).game.world.getPlayer id = some q ∧ q.hp = p.hp ∧ q.maxHp = p.maxHp

/-- What is asked of every step of the stretch. -/
structure Rests (lag : ℕ) (id : ObjectID) (s : Server) (e : Event) : Prop where
  healthy : LoadsHealthy s e
  punctual : Punctual lag s e
  leftAlone : LeftAlone id s e

/-- What holds all along. -/
structure Heeded (lag : ℕ) (s : Server) : Prop where
  healing : Healing none s.game.world
  onTime : s.OnTime lag
  ahead : s.Ahead

theorem Heeded.step (h : s.Heeded lag) (hrests : Rests lag id s e) : (s.step e).Heeded lag where
  healing := healing_step s e h.healing hrests.healthy
  onTime := hrests.punctual
  ahead := ahead_step h.ahead e

/-- A timer that fires gives what it gives. -/
theorem hp_of_regenerates (h : Regenerates id s e) (hp : s.game.world.getPlayer id = some p)
    (halive : 0 < p.hp) (hle : p.hp ≤ p.maxHp) :
    ∃ q, (s.step e).game.world.getPlayer id = some q ∧ q.maxHp = p.maxHp ∧
      q.hp = min (p.hp + regenAmount p.maxHp) p.maxHp := by
  obtain ⟨ev, htype, rfl, k, env, rfl, hev⟩ := h
  simp only [step, fireTimer, hev, htype, GameWorld.handleTimerEvent]
  exact hp_hpRegen (w := { s.game.world with timers := s.game.world.timers.eraseIdx k }) hp halive
    hle

/-- A step of the stretch takes no hit points away. -/
theorem hp_step (h : LeftAlone id s e) (hp : s.game.world.getPlayer id = some p)
    (halive : 0 < p.hp) (hle : p.hp ≤ p.maxHp) :
    ∃ q, (s.step e).game.world.getPlayer id = some q ∧ q.maxHp = p.maxHp ∧ p.hp ≤ q.hp ∧
      q.hp ≤ q.maxHp := by
  have hamount : 0 ≤ regenAmount p.maxHp := regenAmount_nonneg (by omega)
  rcases h with hregen | hsame
  · obtain ⟨q, hq, hmax, hhp⟩ := hp_of_regenerates hregen hp halive hle
    exact ⟨q, hq, hmax, by omega, by omega⟩
  · obtain ⟨q, hq, hhp, hmax⟩ := hsame p hp
    exact ⟨q, hq, hmax, by omega, by omega⟩

/-- And so does the stretch. -/
theorem hp_run (h : Along Server.step (Rests lag id) s es) (hp : s.game.world.getPlayer id = some p)
    (halive : 0 < p.hp) (hle : p.hp ≤ p.maxHp) :
    ∃ q, (run Server.step s es).game.world.getPlayer id = some q ∧ q.maxHp = p.maxHp ∧ p.hp ≤ q.hp ∧
      q.hp ≤ q.maxHp := by
  induction es generalizing s p with
  | nil => exact ⟨p, hp, rfl, le_refl _, hle⟩
  | cons e es ih =>
      obtain ⟨q, hq, hmax, hhp, hqle⟩ := hp_step h.1.leftAlone hp halive hle
      obtain ⟨r, hr, hrmax, hrhp, hrle⟩ := ih h.2 hq (by omega) hqle
      exact ⟨r, hr, hrmax.trans hmax, hhp.trans hrhp, hrle⟩

theorem heeded_run (hs : s.Heeded lag) (h : Along Server.step (Rests lag id) s es) :
    (run Server.step s es).Heeded lag :=
  invariant (fun _ _ hs hrests => hs.step hrests) hs h

/-- **Recovery.** After `k` intervals and lags the timers have fired `k` times, or
no hit point is missing. -/
theorem hp_after_intervals (hs : s.Heeded lag) (h : Along Server.step (Rests lag id) s es)
    (hp : s.game.world.getPlayer id = some p) (halive : 0 < p.hp) (hle : p.hp ≤ p.maxHp)
    (hlong : s.game.world.now + k * (hpRegenIntervalMs + lag) <
      (run Server.step s es).game.world.now) :
    ∃ q, (run Server.step s es).game.world.getPlayer id = some q ∧ q.maxHp = p.maxHp ∧
      min (p.hp + k * regenAmount p.maxHp) p.maxHp ≤ q.hp := by
  induction k generalizing s es p with
  | zero =>
      obtain ⟨q, hq, hmax, hhp, -⟩ := hp_run h hp halive hle
      refine ⟨q, hq, hmax, ?_⟩
      rw [Int.natCast_zero, Int.zero_mul]
      omega
  | succ k ih =>
      have hamount : 0 ≤ regenAmount p.maxHp := regenAmount_nonneg (by omega)
      by_cases hwounded : p.hp < p.maxHp
      · -- a timer is queued, and fires within the first interval and lag
        obtain ⟨ev, hev, hkind⟩ := List.countP_pos_iff.mp
          (hs.healing.woundedHeal id p hp ⟨halive, hwounded⟩)
        obtain ⟨htype, htarget⟩ : ev.type = .hpRegen ∧ ev.targetId = id := of_decide_eq_true hkind
        have hdue := hs.ahead ev hev
        rw [htype] at hdue
        simp only [TimerType.delayMs] at hdue
        rw [Nat.succ_mul] at hlong
        obtain ⟨before, e, after, rfl, hfires⟩ := fires_of_late hev hs.onTime
          (h.mono fun _ _ hrests => hrests.punctual) (by omega)
        obtain ⟨hbefore, hrests, hafter⟩ := along_append.mp h
        obtain ⟨q, hq, hmax, hhp, hqle⟩ := hp_run hbefore hp halive hle
        obtain ⟨r, hr, hrmax, hrhp⟩ :=
          hp_of_regenerates ⟨ev, htype, htarget, hfires⟩ hq (by omega) hqle
        have hsoon : (run Server.step s before).game.world.now ≤ ev.fireTime + lag := by
          obtain ⟨k', env, -, hev'⟩ := hfires
          exact (heeded_run hs hbefore).onTime ev (List.mem_of_getElem? hev')
        have hnow := now_of_fires hfires
        rw [hmax] at hrhp hrmax
        rw [run_append, run_cons] at hlong ⊢
        obtain ⟨u, hu, humax, huhp⟩ := ih ((heeded_run hs hbefore).step hrests) hafter hr (by omega)
          (by omega) (by rw [hnow]; omega)
        refine ⟨u, hu, humax.trans hrmax, ?_⟩
        rw [hrmax] at huhp
        have hgain : 0 ≤ k * regenAmount p.maxHp := Int.mul_nonneg (Int.natCast_nonneg k) hamount
        rw [Int.natCast_succ, Int.add_mul, Int.one_mul]
        omega
      · obtain ⟨q, hq, hmax, hhp, -⟩ := hp_run h hp halive hle
        exact ⟨q, hq, hmax, by omega⟩

/-- Whoever misses nothing misses nothing after the stretch. -/
theorem hp_run_full (h : Along Server.step (LeftAlone id) s es)
    (hp : s.game.world.getPlayer id = some p) (halive : 0 < p.hp) (hfull : p.maxHp ≤ p.hp) :
    ∃ q, (run Server.step s es).game.world.getPlayer id = some q ∧ q.hp = p.hp ∧
      q.maxHp = p.maxHp := by
  induction es generalizing s p with
  | nil => exact ⟨p, hp, rfl, rfl⟩
  | cons e es ih =>
      have hone : ∃ q, (s.step e).game.world.getPlayer id = some q ∧ q.hp = p.hp ∧
          q.maxHp = p.maxHp := by
        rcases h.1 with ⟨ev, htype, rfl, k, env, rfl, hev⟩ | hsame
        · simp only [step, fireTimer, hev, htype, GameWorld.handleTimerEvent]
          exact hp_hpRegen_full
            (w := { s.game.world with timers := s.game.world.timers.eraseIdx k }) hp halive hfull
        · exact hsame p hp
      obtain ⟨q, hq, hhp, hmax⟩ := hone
      obtain ⟨r, hr, hrhp, hrmax⟩ := ih h.2 hq (by omega) (by omega)
      exact ⟨r, hr, hrhp.trans hhp, hrmax.trans hmax⟩

/-- **A wounded player recovers.** In a run in which no login brings a wound in and
no event is handled later than `lag` after its time, a player that is alive and
then left alone for more than `k` intervals and lags has what `k` regenerations
give, up to its maximum. -/
theorem recovery_run {map : Map} {spawns : List MonsterSpawnData} {now : ℕ} {store : PlayerStore}
    (lag : ℕ)
    (hhealthy : Along step LoadsHealthy (init map spawns now store) (es ++ more))
    (hpunctual : Along step (Punctual lag) (init map spawns now store) (es ++ more))
    (halone : Along step (LeftAlone id) (run step (init map spawns now store) es) more)
    (hp : (run step (init map spawns now store) es).game.world.getPlayer id = some p)
    (halive : 0 < p.hp)
    (hlong : (run step (init map spawns now store) es).game.world.now +
        k * (hpRegenIntervalMs + lag) <
      (run step (init map spawns now store) (es ++ more)).game.world.now) :
    ∃ q, (run step (init map spawns now store) (es ++ more)).game.world.getPlayer id = some q ∧
      q.maxHp = p.maxHp ∧ min (p.hp + k * regenAmount p.maxHp) p.maxHp ≤ q.hp := by
  obtain ⟨hhealthy, hhealthy'⟩ := along_append.mp hhealthy
  obtain ⟨hpunctual, hpunctual'⟩ := along_append.mp hpunctual
  rw [run_append] at hlong ⊢
  rcases Int.le_total p.maxHp p.hp with hfull | hle
  · obtain ⟨q, hq, hhp, hmax⟩ := hp_run_full halone hp halive hfull
    exact ⟨q, hq, hmax, by omega⟩
  have hheeded : (run step (init map spawns now store) es).Heeded lag :=
    ⟨invariant (I := fun s => Healing none s.game.world) healing_step
        (healing_init map spawns now store) hhealthy,
      onTime_run (onTime_init map spawns now store lag) hpunctual,
      ahead_run map spawns now store es⟩
  have hrests : Along step (Rests lag id) (run step (init map spawns now store) es) more :=
    ((hhealthy'.and hpunctual').and halone).mono fun s e h => ⟨h.1.1, h.1.2, h.2⟩
  exact hp_after_intervals hheeded hrests hp halive hle hlong

/-- A monster hits a new character, which teleports away. -/
def escape : List Event :=
  oneLogin ++ [.tick 1000, .timer 1 .plain, .tick 1000, .timer 1 .plain,
    .packet 0 [4, 0, 237, 3] 4 middle, .tick 1000, .timer 2 .plain]

/-- It regenerates. -/
theorem recovery_run_escape :
    ∃ q, (run step (init openField [brute] 0 .init)
        (escape ++ [.tick 4000, .timer 1 .plain, .tick 1001])).game.world.getPlayer 0 = some q ∧
      q.maxHp = 100 ∧ 60 ≤ q.hp := by
  have hplayer : ((run step (init openField [brute] 0 .init) escape).game.world.getPlayer 0).map
      (fun p => (p.hp, p.maxHp)) = some (50, 100) := by decide +kernel
  obtain ⟨p, hp, hstats⟩ := Option.map_eq_some_iff.mp hplayer
  obtain ⟨hhp, hmax⟩ := Prod.mk.inj hstats
  have hhealthy : Along step LoadsHealthy (init openField [brute] 0 .init)
      (escape ++ [.tick 4000, .timer 1 .plain, .tick 1001]) := by
    refine ⟨trivial, trivial, trivial, ?_, trivial, trivial, trivial, trivial, trivial, trivial,
      trivial, trivial, trivial, trivial, trivial⟩
    -- the row that is loaded is that of a new character
    intro c row hc hrow _ _ _ _ hlow
    have hall : ∀ c ∈ (run step (init openField [brute] 0 .init) (oneLogin.take 3)).completions,
        c.result = .loaded ⟨1, [65], 1, 0, 100, 100, 0, 0⟩ := by decide +kernel
    have hnew := (hall c (List.mem_of_getElem? hc)).symm.trans hrow
    rw [LoginResult.loaded.injEq] at hnew
    rw [← hnew] at hlow
    exact absurd hlow (by decide)
  have halone : Along step (LeftAlone 0) (run step (init openField [brute] 0 .init) escape)
      [.tick 4000, .timer 1 .plain, .tick 1001] := by
    refine ⟨.inr fun p hp => ⟨p, hp, rfl, rfl⟩, .inl ?_, .inr fun p hp => ⟨p, hp, rfl, rfl⟩, trivial⟩
    exact ⟨⟨7000, .hpRegen, 0, some 0⟩, rfl, rfl, 1, .plain, rfl, by decide +kernel⟩
  obtain ⟨q, hq, hqmax, hqhp⟩ := recovery_run 0 (k := 1) hhealthy (by decide +kernel)
    halone hp (by rw [hhp]; decide) (by decide +kernel)
  refine ⟨q, hq, hqmax.trans hmax, ?_⟩
  rw [hhp, hmax] at hqhp
  exact hqhp

/-! ## Monsters -/

theorem monsters_of_effects {c : Scope} {w w' : World} (h : Effects c w w') {m : Monster}
    (hm : w.getMonster id = some m) : ∃ m', w'.getMonster id = some m' ∧ m'.spec = m.spec := by
  refine h.keeps (P := fun v => ∃ m', v.getMonster id = some m' ∧ m'.spec = m.spec) ?_ ⟨m, hm, rfl⟩
  rintro u v ⟨m', hm', hspec⟩ heffect
  cases heffect with
  | edited n n' hn hedit =>
      have hset := getMonster_setMonster (m := n') (by rw [hedit.id]; exact hn) id
      rw [hset]
      split
      · next hid =>
          have hsame : m' = n := by
            rw [hid, hedit.id, hn] at hm'
            exact (Option.some.inj hm').symm
          exact ⟨n', rfl, hedit.spec.trans (hsame ▸ hspec)⟩
      · exact ⟨m', hm', hspec⟩
  | _ => exact ⟨m', hm', hspec⟩

/-- **A monster never goes away**, and keeps what the spawn script says of it. -/
theorem monsters_step (s : Server) (e : Event) {m : Monster}
    (hm : s.game.world.getMonster id = some m) :
    ∃ m', (s.step e).game.world.getMonster id = some m' ∧ m'.spec = m.spec := by
  have hstep := worldStep s e
  generalize (s.step e).game.world = w at hstep ⊢
  cases hstep with
  | packet id' data size env conn hs =>
      exact monsters_of_effects (effects_handlePacket s env (fun _ => True) id' conn data size) hm
  | joined k env c conn row v p hc hrow ho hfree hadd hp =>
      obtain ⟨sm, spawn, -, rfl⟩ := addPlayer_eq_some hadd
      exact monsters_of_effects (effects_welcome env _ conn p) hm
  | fired k env ev hev =>
      by_cases htype : ev.type = .dbSave
      · rw [htype, world_handleTimerEvent_dbSave]
        exact ⟨m, hm, rfl⟩
      · exact monsters_of_effects (effects_fired s.game env k htype ev.targetId) hm
  | _ => exact ⟨m, hm, rfl⟩

theorem monsters_run (es : List Event) {m : Monster} (hm : s.game.world.getMonster id = some m) :
    ∃ m', (run step s es).game.world.getMonster id = some m' ∧ m'.spec = m.spec :=
  invariant (I := fun s : Server => ∃ m', s.game.world.getMonster id = some m' ∧ m'.spec = m.spec)
    (C := fun _ _ => True)
    (fun s e h _ => by
      obtain ⟨m', hm', hspec⟩ := h
      obtain ⟨n, hn, hnspec⟩ := monsters_step s e hm'
      exact ⟨n, hn, hnspec.trans hspec⟩) ⟨m, hm, rfl⟩ along_true

/-- The step brings the monster back, or calls it again for want of a tile. -/
def ComesBack (id : ObjectID) (s : Server) (e : Event) : Prop :=
  ∃ m m', s.game.world.getMonster id = some m ∧
    (s.step e).game.world.getMonster id = some m' ∧ m'.spec = m.spec ∧
    (StandsAgain s.game.world (s.step e).game.world m m' ∨
      WaitsAgain s.game.world (s.step e).game.world m m')

/-- A respawn that fires. -/
theorem comesBack_of_fires {ev : TimerEvent} (h : Fires ev s e) (htype : ev.type = .monsterRespawn)
    {m : Monster} (hm : s.game.world.getMonster ev.targetId = some m) (hin : InMap m.spawnPos) :
    ComesBack ev.targetId s e := by
  obtain ⟨k, env, rfl, hev⟩ := h
  simp only [ComesBack, step, fireTimer, hev, htype, GameWorld.handleTimerEvent]
  -- the event is out of the queue when the handler runs; nothing else differs
  obtain ⟨m', hm', hspec, hback⟩ := respawnMonster_back env
    (w := { s.game.world with timers := s.game.world.timers.eraseIdx k }) hm hin
  refine ⟨m, m', hm, hm', hspec, ?_⟩
  rcases hback with ⟨hhp, htile, hfree, hnear, hleast⟩ | ⟨hsame, hroom, hagain⟩
  · exact .inl ⟨hhp, htile, hfree, hnear, hleast⟩
  · exact .inr ⟨hsame, hroom, hagain⟩

/-- **A dead monster comes back.** In a run with timer events in turn, none handled
later than `lag` after its time, and a tile for every player that needs one, a
monster that is dead is called back within the respawn time and the lag. It then
has all its hit points and stands on a nearest free tile to where it spawns; or no
tile within 20 is free, and it is called again. -/
theorem comesBack_run {map : Map} {spawns : List MonsterSpawnData} {now : ℕ} {store : PlayerStore}
    (lag : ℕ)
    (hspawns : ∀ data ∈ spawns, 0 < data.maxHp)
    (hturn : Along step InTurn (init map spawns now store) es)
    (hok : Along step FindsTile (init map spawns now store) es)
    (hpunctual : Along step (Punctual lag) (init map spawns now store) (es ++ more)) {m : Monster}
    (hm : (run step (init map spawns now store) es).game.world.getMonster id = some m)
    (hdead : m.isDead = true)
    (hlong : (run step (init map spawns now store) es).game.world.now + monsterRespawnMs + lag <
      (run step (init map spawns now store) (es ++ more)).game.world.now) :
    ∃ before e after, more = before ++ e :: after ∧
      ComesBack id (run step (init map spawns now store) (es ++ before)) e := by
  obtain ⟨hpunctual, hpunctual'⟩ := along_append.mp hpunctual
  have hlife : World.LifeCycle (run step (init map spawns now store) es).game.world :=
    (Transition.invariant (I := fun s => World.Tended [] none s.game.world) tended_step
      (tended_init map now hspawns) (hturn.and hok)).lifeCycle
  have hahead := ahead_run map spawns now store es
  rw [run_append] at hlong
  rcases hlife.monster id m hm with hliving | hfallen
  · exact absurd (hliving.alive.symm.trans hdead) (by decide)
  · -- its respawn is queued, and fires in time
    obtain ⟨ev, hev, hkind⟩ := List.countP_pos_iff.mp (hfallen.respawns.ge : 0 < _)
    obtain ⟨htype, htarget⟩ : ev.type = .monsterRespawn ∧ ev.targetId = m.id :=
      of_decide_eq_true hkind
    have hdue := hahead ev hev
    rw [htype] at hdue
    obtain ⟨before, e, after, hsplit, hfires⟩ := fires_of_late hev
      (onTime_run (onTime_init map spawns now store lag) hpunctual) hpunctual'
      (by simp only [TimerType.delayMs] at hdue; omega)
    obtain ⟨m', hm', -⟩ := monsters_run before hm
    refine ⟨before, e, after, hsplit, ?_⟩
    have hhome : InMap m'.spawnPos := by
      rw [← run_append] at hm'
      exact map.inMap_of_isWalkable ((leashed_run map spawns now store _).monster hm').home
    rw [run_append]
    have hid : ev.targetId = id := htarget.trans (getMonster_id hm)
    rw [← hid] at hm' ⊢
    exact comesBack_of_fires hfires htype hm' hhome

/-- The player takes the place of the monster it has killed. -/
def takesItsPlace : List Event :=
  [.tick 1000, .timer 1 .plain, .packet 0 southPacket 13 .plain, .tick 29000, .timer 1 .plain,
    .tick 1]

/-- The monster comes back on a tile beside it. -/
theorem comesBack_run_slime :
    ((run step (init openField [slime] 5000 .init) (oneLogin ++ [.packet 0 [4, 0, 235, 3] 4 .plain] ++
        takesItsPlace)).game.world.getMonster monsterIdOffset).map (fun m => (m.spawnPos, m.pos)) =
      some (⟨0, 1⟩, ⟨0, 0⟩) ∧
    ∃ before e after, takesItsPlace = before ++ e :: after ∧
      ComesBack monsterIdOffset (run step (init openField [slime] 5000 .init)
        (oneLogin ++ [.packet 0 [4, 0, 235, 3] 4 .plain] ++ before)) e := by
  have hmonster : ((run step (init openField [slime] 5000 .init)
      (oneLogin ++ [.packet 0 [4, 0, 235, 3] 4 .plain])).game.world.getMonster monsterIdOffset).map
        (·.isDead) = some true := by decide +kernel
  obtain ⟨m, hm, hdead⟩ := Option.map_eq_some_iff.mp hmonster
  refine ⟨by decide +kernel, ?_⟩
  refine comesBack_run 0 (by decide) ?_ ?_ (by decide +kernel) hm hdead (by decide +kernel)
  · exact ⟨trivial, trivial, trivial, trivial, trivial, trivial⟩
  · exact ⟨trivial, fun h => absurd h (by decide), trivial, trivial, fun h => absurd h (by decide),
      trivial⟩

end Server

end Mmorpg
