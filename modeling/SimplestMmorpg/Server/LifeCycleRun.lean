/-
The life of every monster, in every run.

A run here handles one event at a time, in any order but for the timers: an
event is only taken from the queue when none is due before it (`InTurn`). A
player that teleports or dies finds a tile (`FindsTile`); a login that finds
none changes nothing, so nothing is asked of it, and a second login on a
session is allowed.

There is no bound on the spawn script. An entry without a free tile is skipped,
and there are fewer tiles than ids, so no monster has the invalid one.
-/
import SimplestMmorpg.Game.LifeCycleHandlers
import SimplestMmorpg.Server.PlacementRun
import Mathlib.Data.Fintype.Card

set_option autoImplicit false

namespace Mmorpg

open Transition

namespace World

open ViewProcessor

/-- How many ticks of a monster are scheduled. -/
def pendingTicks (w : World) (id : ObjectID) : ℕ :=
  w.timers.countP fun ev => ev.type = .monsterAi ∧ ev.targetId = id

/-- On exactly one tile and in exactly one sector, with no respawn scheduled, and
with a tick scheduled just when it is active. -/
structure Living (w : World) (m : Monster) : Prop where
  alive : m.isDead = false
  stands : (w.sectorManager.holding m.id).At (some m.pos)
  respawns : w.pendingRespawns m.id = 0
  ticks : w.pendingTicks m.id = if m.isActive then 1 else 0

/-- On no tile and in no sector, with one respawn scheduled, and at most one tick. -/
structure Fallen (w : World) (m : Monster) : Prop where
  dead : m.isDead = true
  gone : (w.sectorManager.holding m.id).At none
  respawns : w.pendingRespawns m.id = 1
  ticks : w.pendingTicks m.id ≤ 1

/-- Every monster is one or the other, and who is seen is active. -/
structure LifeCycle (w : World) : Prop where
  monster : ∀ id m, w.getMonster id = some m → w.Living m ∨ w.Fallen m
  noticed : ∀ id m, w.getMonster id = some m → m.isDead = false → ∀ k p,
    w.getPlayer k = some p → k ∈ w.sectorManager.getSector (getSectorCoord p.pos) →
      isInView p.pos m.pos = true → m.isActive = true

variable {env : Env} {w : World} {id : ObjectID} {m : Monster} {evs : List TimerEvent}
  {data : MonsterSpawnData} {map : Map} {now : ℕ} {spawns : List MonsterSpawnData}

/-! ## What the invariant says -/

theorem countP_eventsOf {type : TimerType} (htype : type = .monsterAi ∨ type = .monsterRespawn)
    (id : ObjectID) (evs : List TimerEvent) :
    (evs.countP fun ev => ev.type = type ∧ ev.targetId = id) =
      (eventsOf id evs).countP fun ev => ev.type = type := by
  rw [eventsOf, List.countP_filter]
  refine List.countP_congr fun ev _ => ?_
  simp only [Bool.and_eq_true, decide_eq_true_eq]
  constructor
  · rintro ⟨ht, hid⟩
    exact ⟨ht, hid, ht ▸ htype⟩
  · rintro ⟨ht, hid, -⟩
    exact ⟨ht, hid⟩

theorem Stage.living_or_fallen (hid : m.id = id) (h : Stage w m (eventsOf id w.timers)) :
    w.Living m ∨ w.Fallen m := by
  subst hid
  have hrespawns := countP_eventsOf (.inr rfl) m.id w.timers
  have hticks := countP_eventsOf (.inl rfl) m.id w.timers
  cases h with
  | asleep halive hactive hat hnil =>
      rw [hnil] at hrespawns hticks
      exact .inl ⟨halive, hat, hrespawns, by rw [pendingTicks, hticks, hactive]; rfl⟩
  | awake tick halive hactive hat htick _ hone =>
      rw [hone] at hrespawns hticks
      refine .inl ⟨halive, hat, ?_, ?_⟩
      · rw [pendingRespawns, hrespawns, List.countP_singleton, htick]
        rfl
      · rw [pendingTicks, hticks, List.countP_singleton, htick, hactive]
        rfl
  | dead back hdead hat hback hone =>
      rw [hone] at hrespawns hticks
      refine .inr ⟨hdead, hat, ?_, ?_⟩
      · rw [pendingRespawns, hrespawns, List.countP_singleton, hback]
        rfl
      · rw [pendingTicks, hticks]
        exact List.countP_le_length
  | dying tick back hdead hat htick hback _ htwo =>
      rw [htwo.countP_eq, List.countP_cons, List.countP_singleton, htick, hback] at hrespawns hticks
      refine .inr ⟨hdead, hat, ?_, ?_⟩
      · rw [pendingRespawns, hrespawns]
        rfl
      · rw [pendingTicks, hticks]
        exact Nat.le_refl _

theorem Tended.lifeCycle (h : Tended [] none w) : LifeCycle w where
  monster id m hm := (h.monster id m hm).stage.living_or_fallen (getMonster_id hm)
  noticed id m hm halive k p hp hsector hview :=
    (h.monster id m hm).noticed halive k p.pos (by simp) ⟨playerPos_of_getPlayer hp, hsector⟩ hview

/-! ## The start -/

/-- The world while the spawn script is read. -/
structure Spawning (w : World) : Prop where
  tended : Tended [] none w
  timers : w.timers = []
  empty : ∀ k, w.getPlayer k = none
  fresh : ∀ id, monsterIdOffset + w.monsters.entries.length ≤ id → id ≠ invalidId →
    (w.sectorManager.holding id).At none

theorem getMonster_push (w : World) (data : MonsterSpawnData) (pos : Position) (sm : SectorManager)
    (id : ObjectID) :
    ({ w with sectorManager := sm, monsters := w.monsters.push data pos } : World).getMonster id =
      if id = monsterIdOffset + w.monsters.entries.length then
        some (Monster.make (monsterIdOffset + w.monsters.entries.length) data pos)
      else w.getMonster id := by
  simp only [getMonster, MonsterTable.find, MonsterTable.push]
  by_cases hid : id = monsterIdOffset + w.monsters.entries.length
  · subst hid
    rw [if_neg (Nat.not_lt.mpr (Nat.le_add_right _ _)), if_pos rfl, Nat.add_sub_cancel_left,
      List.getElem?_append_right (Nat.le_refl _), Nat.sub_self]
    rfl
  · rw [if_neg hid]
    by_cases hlt : id < monsterIdOffset
    · rw [if_pos hlt, if_pos hlt]
    · rw [if_neg hlt, if_neg hlt, List.getElem?_append]
      split
      · rfl
      · next hlen =>
          -- past the end of both tables
          have hpast : w.monsters.entries.length < id - monsterIdOffset := by
            unfold ObjectID at *
            omega
          rw [List.getElem?_eq_none (Nat.le_of_lt hpast), List.getElem?_eq_none]
          rw [List.length_singleton]
          omega

/-- While nothing is scheduled every monster is asleep. -/
theorem Spawning.asleep (h : Spawning w) (hm : w.getMonster id = some m) : m.isDead = false := by
  have hstage := (h.tended.monster id m hm).stage
  rw [List.nil_append, h.timers] at hstage
  cases hstage with
  | asleep halive => exact halive
  | awake _ _ _ _ _ _ hone => exact absurd hone (by simp [eventsOf])
  | dead _ _ _ _ hone => exact absurd hone (by simp [eventsOf])
  | dying _ _ _ _ _ _ _ htwo => exact absurd htwo.length_eq (by simp [eventsOf])

/-- **There are no more monsters than tiles**: each stands on its own. -/
theorem Spawning.length_le (h : Spawning w) :
    w.monsters.entries.length ≤ mapWidth * mapHeight := by
  have hfind : ∀ i : Fin w.monsters.entries.length,
      w.getMonster (monsterIdOffset + i) = some (w.monsters.entries.get i) := by
    intro i
    have hi : w.monsters.entries[(i : ℕ)]? = some (w.monsters.entries.get i) := by simp
    rw [← w.monsters.id_eq i _ hi]
    exact MonsterTable.find_of_mem (List.mem_of_getElem? hi)
  have hin : ∀ i, InMap (w.monsters.entries.get i).pos := fun i =>
    h.tended.inMap (hfind i) (h.asleep (hfind i))
  let tile : Fin w.monsters.entries.length → Fin (mapWidth * mapHeight) := fun i =>
    ⟨tileIndex (w.monsters.entries.get i).pos, by
      have hi := hin i
      simp only [InMap, tileIndex, mapWidth, mapHeight] at *
      omega⟩
  have hinj : Function.Injective tile := by
    intro i j hij
    have hpos := (tileIndex_inj (hin i) (hin j)).mp (Fin.mk.inj hij)
    -- the tile names one monster
    have hown : ∀ i, w.sectorManager.getOccupant (w.monsters.entries.get i).pos =
        monsterIdOffset + i := by
      intro i
      have hat := (h.tended.monster _ _ (hfind i)).stage.at_of_alive (h.asleep (hfind i))
      rw [getMonster_id (hfind i)] at hat
      exact (hat.tiles _).mpr rfl
    have hids := (hown i).symm.trans ((congrArg _ hpos).trans (hown j))
    exact Fin.ext (Nat.add_left_cancel hids)
  have hcard := Fintype.card_le_of_injective tile hinj
  rwa [Fintype.card_fin, Fintype.card_fin] at hcard

theorem spawning_spawnMonster (h : Spawning w) (hhp : 0 < data.maxHp) :
    Spawning (w.spawnMonster data) := by
  unfold spawnMonster
  dsimp only
  split
  · exact h
  · next sm spawn hadd =>
      have hlen := h.length_le
      have hvalid : monsterIdOffset + w.monsters.entries.length ≠ invalidId := by
        unfold invalidId monsterIdOffset
        simp only [mapWidth, mapHeight] at hlen
        omega
      have hothers : ∀ j, j ≠ monsterIdOffset + w.monsters.entries.length → j ≠ invalidId →
          sm.holding j = w.sectorManager.holding j :=
        fun j hj hv => (SectorManager.holding_addObject hv hadd).trans (if_neg hj)
      have hat : (sm.holding (monsterIdOffset + w.monsters.entries.length)).At (some spawn) := by
        rw [SectorManager.holding_addObject hvalid hadd, if_pos rfl]
        exact (h.fresh _ (Nat.le_refl _) hvalid).put
      have hnobody : ∀ k, w.playerPos k = none := fun k => by
        rw [playerPos, h.empty k, Option.map_none]
      have hget := getMonster_push w data spawn sm
      have hmade := (hget (monsterIdOffset + w.monsters.entries.length)).trans (if_pos rfl)
      refine ⟨?_, h.timers, h.empty, fun j hj hv => ?_⟩
      · refine h.tended.change ?_ hmade (fun _ _ => rfl) ⟨hvalid, hhp, ?_, ?_⟩ (hnobody _)
        · refine ⟨Nat.le_refl _, fun j hj hv => hothers j (fun h => hj (congrArg some h)) hv,
            fun _ _ => rfl, fun j hj => ?_, fun _ _ => rfl⟩
          rw [hget, if_neg fun h => hj (congrArg some h)]
        · refine .asleep (decide_eq_false (Int.not_le.mpr hhp)) rfl hat ?_
          rw [List.nil_append, h.timers]
          rfl
        · exact fun _ k pos _ hw => absurd (hw.1.symm.trans (hnobody k)) (by simp)
      · simp only [MonsterTable.push, List.length_append, List.length_singleton] at hj
        have hne : j ≠ monsterIdOffset + w.monsters.entries.length := by
          unfold ObjectID at *
          omega
        rw [hothers j hne hv]
        exact h.fresh j (by unfold ObjectID at *; omega) hv

theorem spawning_spawnMonsters (spawns : List MonsterSpawnData) (h : Spawning w)
    (hhp : ∀ data ∈ spawns, 0 < data.maxHp) : Spawning (w.spawnMonsters spawns) := by
  induction spawns generalizing w with
  | nil => exact h
  | cons data rest ih =>
      obtain ⟨hd, hrest⟩ := List.forall_mem_cons.mp hhp
      exact ih (spawning_spawnMonster h hd) hrest

theorem spawning_empty (map : Map) (now : ℕ) : Spawning (World.empty map now) where
  tended := ⟨fun k pos h => absurd h (by simp [playerPos, getPlayer, World.empty]),
    fun id m h => absurd h (by simp [getMonster, MonsterTable.find, World.empty,
      MonsterTable.empty])⟩
  timers := rfl
  empty _ := rfl
  fresh _ _ hv := SectorManager.holding_init hv

/-- **When the server starts** every monster is asleep on its tile. -/
theorem tended_init (map : Map) (now : ℕ) (hhp : ∀ data ∈ spawns, 0 < data.maxHp) :
    Tended [] none (GameWorld.init map spawns now).world :=
  (spawning_spawnMonsters spawns (spawning_empty map now) hhp).tended.only
    (only_addTimer (by simp) (by simp) _ _ _ _)

end World

namespace Server

open World

variable {s : Server} {env : Env}

/-! ## One step -/

/-- No timer event is due before the one that is handled. -/
def InTurn (s : Server) : Event → Prop
  | .timer k _ => ∀ ev, s.game.world.timers[k]? = some ev →
      ∀ ev' ∈ s.game.world.timers, ev.fireTime ≤ ev'.fireTime
  | _ => True

/-- A player that teleports or dies finds a tile. -/
def FindsTile (s : Server) : Event → Prop
  | .packet id data size env =>
    requestOf data size = some .teleport → TeleportFits env id s.game.world
  | .timer k env =>
    ∀ ev, s.game.world.timers[k]? = some ev → ev.type = .monsterAi →
      ∀ hit ∈ hitsOf env ev.targetId { s.game.world with timers := s.game.world.timers.eraseIdx k },
        HitFits hit
  | _ => True

theorem tended_handlePacket (h : Tended [] none s.game.world) {id : ObjectID} {conn : ConnId}
    {data : Bytes} {size : ℕ}
    (hfit : requestOf data size = some .teleport → TeleportFits env id s.game.world) :
    Tended [] none (s.handlePacket env id conn data size).game.world := by
  unfold handlePacket
  split
  · exact h
  · exact h
  · exact tended_processMove h conn data
  · exact tended_processAttack h
  · exact h.only (only_processChat env id data _)
  · next hreq => exact tended_processTeleport h conn (hfit hreq)

/-- The timer event in hand is handled. -/
theorem tended_handleTimerEvent {g : GameWorld} {ev : TimerEvent} (h : Tended [ev] none g.world)
    (hfits : ev.type = .monsterAi → ∀ hit ∈ hitsOf env ev.targetId g.world, HitFits hit)
    (hturn : ∀ ev' ∈ g.world.timers, ev.fireTime ≤ ev'.fireTime) :
    Tended [] none (g.handleTimerEvent env ev.type ev.targetId).world := by
  have hother : ev.type ≠ .monsterAi → ev.type ≠ .monsterRespawn → Tended [] none g.world := by
    intro hai hrespawn
    refine h.drop fun m hm hstage => ?_
    rw [eventsOf_append, eventsOf_other (fun h => absurd h hai) (fun h => absurd h hrespawn),
      List.nil_append] at hstage
    exact hstage
  cases htype : ev.type with
  | hpRegen =>
      exact (hother (by simp [htype]) (by simp [htype])).only (only_hpRegen _ _)
  | monsterAi => exact tended_monsterAi h htype (hfits htype)
  | monsterRespawn => exact tended_respawnMonster h htype hturn
  | dbSave =>
      simp only [GameWorld.handleTimerEvent]
      rw [world_saveAllPlayers]
      exact (hother (by simp [htype]) (by simp [htype])).only
        (only_addTimer (by simp) (by simp) _ _ _ _)

/-- **Every handler keeps the life cycle.** -/
theorem tended_step (s : Server) (e : Event) (h : Tended [] none s.game.world)
    (hok : InTurn s e ∧ FindsTile s e) : Tended [] none (s.step e).game.world := by
  have hstep := worldStep s e
  generalize (s.step e).game.world = w at hstep ⊢
  cases hstep with
  | idle => exact h
  | tick ms =>
      exact h.only ⟨Nat.le_add_right _ _, fun _ _ _ => rfl, fun _ _ => rfl, fun _ _ => rfl,
        fun _ _ => rfl⟩
  | left id env conn p hs hp =>
      obtain rfl := getPlayer_id hp
      exact tended_leave h hp
  | packet id data size env conn hs => exact tended_handlePacket h hok.2
  | refused => exact h.only (only_send _ _ _)
  | joined k env c conn row v p hc hrow ho hfree hadd hp =>
      exact tended_login h (getSession_eq_some ho).1 hadd hp
  | fired k env ev hev =>
      refine tended_handleTimerEvent (h.take hev) (hok.2 ev hev) fun ev' hev' => ?_
      exact hok.1 ev hev ev' (mem_of_mem_eraseIdx hev')

/-! ## Whole runs -/

/-- **The life cycle of monsters.** After every run whose timer events are handled
in the order of their fire times, and whose players find the tiles they need:
from server start on, for every map, every spawn script that gives its monsters
hit points, and every order of every number of steps. -/
theorem lifeCycle_run {map : Map} {spawns : List MonsterSpawnData} {now : ℕ} {store : PlayerStore}
    {es : List Event} (hhp : ∀ data ∈ spawns, 0 < data.maxHp)
    (hturn : Along step InTurn (init map spawns now store) es)
    (hok : Along step FindsTile (init map spawns now store) es) :
    LifeCycle (run step (init map spawns now store) es).game.world :=
  (Transition.invariant (I := fun s => Tended [] none s.game.world) tended_step
    (tended_init map now hhp) (hturn.and hok)).lifeCycle

/-- A monster that one hit kills. -/
def slime : MonsterSpawnData := ⟨[83], 1, 10, .peace, .fixed, ⟨0, 1⟩⟩

/-- A client logs in beside a monster and kills it; the tick it died with fires,
and then its respawn. -/
def killAndRespawn : List Event :=
  oneLogin ++ [.packet 0 [4, 0, 235, 3] 4 .plain, .timer 1 .plain, .timer 1 .plain]

theorem lifeCycle_run_killAndRespawn :
    LifeCycle (run step (init openField [slime] 5000 .init) killAndRespawn).game.world := by
  have hturn : ∀ s : Server, (∀ ev ∈ s.game.world.timers[1]?.toList,
      ∀ ev' ∈ s.game.world.timers, ev.fireTime ≤ ev'.fireTime) → InTurn s (.timer 1 .plain) :=
    fun s h ev hev => h ev (by rw [hev]; exact List.mem_singleton.mpr rfl)
  have hquiet : ∀ s : Server, (∀ ev ∈ s.game.world.timers[1]?.toList,
      (hitsOf .plain ev.targetId { s.game.world with
        timers := s.game.world.timers.eraseIdx 1 }).isEmpty) → FindsTile s (.timer 1 .plain) := by
    intro s h ev hev _ hit hhit
    have hnone := h ev (by rw [hev]; exact List.mem_singleton.mpr rfl)
    rw [List.isEmpty_iff.mp hnone] at hhit
    exact absurd hhit List.not_mem_nil
  refine lifeCycle_run (by decide) ?_ ?_
  · refine ⟨trivial, trivial, trivial, trivial, trivial, hturn _ ?_, hturn _ ?_, trivial⟩
    · decide +kernel
    · decide +kernel
  · refine ⟨trivial, fun h => absurd h (by decide), trivial, trivial, fun h => absurd h (by decide),
      hquiet _ ?_, hquiet _ ?_, trivial⟩
    · decide +kernel
    · decide +kernel

end Server

end Mmorpg
