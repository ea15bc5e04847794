/-
The single writes the handlers are made of.

A handler writes to a player, to a monster, to a tile, to the timer queue, or
sends a packet. `Effect` lists these writes, each with what the source checks
or computes before it; a write to a player that `SC_STAT_CHANGE` follows is one
effect together with the packet. A handler is a sequence of them
(`Effects`, the reflexive transitive closure), so that an invariant is shown
for one effect and holds after every handler.

`Scope` has what the effects of a handler depend on: which player's request is
handled, for the times of the cooldowns, and on which connections a death may
find no tile, since only that death writes the stats of a player and tells its
client nothing.
-/
import SimplestMmorpg.Game.LifeCycleHandlers
import SimplestMmorpg.Game.Reward
import Mathlib.Data.List.Dedup
import Mathlib.Logic.Relation

set_option autoImplicit false

namespace Mmorpg

/-- What a handler is called with. -/
structure Scope where
  env : Env
  /-- Whose request is handled, and which. -/
  acting : CsType → ObjectID → Prop
  /-- On which connections a death may find no tile. -/
  lost : ConnId → Prop

/-- The delay with which an event of a type is added: it depends on nothing else. -/
def TimerType.delayMs : TimerType → ℕ
  | .hpRegen => hpRegenIntervalMs
  | .monsterAi => monsterAiTickMs
  | .monsterRespawn => monsterRespawnMs
  | .dbSave => dbSaveIntervalMs

/-! ## Writes to one object -/

/-- Writes to a player that its client is told nothing of, or only the position. -/
inductive Player.Tweaked (c : Scope) (map : Map) (now : ℕ) (p : Player) : Player → Prop
  | teleported (pos : Position)
      (hpos : map.isWalkable pos.x pos.y = true ∨ pos = c.env.indeterminate) :
      Tweaked c map now p (p.setPos pos)
  | moved (pos : Position) (hact : c.acting .move p.id)
      (hpos : map.isWalkable pos.x pos.y = true) :
      Tweaked c map now p ((p.setPos pos).onMoved now)
  | attacked (hact : c.acting .attack p.id) : Tweaked c map now p (p.onAttackPerformed now)
  | chatted (hact : c.acting .chat p.id) : Tweaked c map now p (p.onChatPerformed now)
  | regen (active : Bool) : Tweaked c map now p { p with regenActive := active }

/-- Writes to a player that `SC_STAT_CHANGE` follows. `slain` are the monsters it can
be rewarded for; how much that is may have wrapped around. -/
inductive Player.Restated (map : Map) (slain : Monster → Prop) (p : Player) : Player → Prop
  | damaged (dmg : Int) (hdmg : 0 ≤ dmg) : Restated map slain p (p.takeDamage dmg)
  | rewarded (m : Monster) (hm : slain m) : Restated map slain p (p.gainExp m.getExpReward)
  | healed (halive : 0 < p.hp) (hlow : p.hp < p.maxHp) : Restated map slain p p.regenHP
  | revived (pos : Position) (hpos : map.isWalkable pos.x pos.y = true) :
      Restated map slain p (p.die.stopRegen.setPos pos)

theorem Player.Restated.mono {map : Map} {slain slain' : Monster → Prop} {p q : Player}
    (h : p.Restated map slain q) (hslain : ∀ m, slain m → slain' m) : p.Restated map slain' q := by
  cases h with
  | damaged dmg hdmg => exact .damaged dmg hdmg
  | rewarded m hm => exact .rewarded m (hslain m hm)
  | healed halive hlow => exact .healed halive hlow
  | revived pos hpos => exact .revived pos hpos

/-- What a write leaves of a monster. -/
structure Monster.Edited (map : Map) (m m' : Monster) : Prop where
  spec : m'.spec = m.spec
  pos : m'.pos = m.pos ∨ map.isWalkable m'.pos.x m'.pos.y = true
  hp : m'.hp = m.hp ∨ m'.hp = m.maxHp ∨ ∃ dmg, 0 ≤ dmg ∧ m'.hp = (m.takeDamage dmg).hp

theorem Monster.Edited.id {map : Map} {m m' : Monster} (h : m.Edited map m') : m'.id = m.id :=
  congrArg Spec.id h.spec

/-- A call of the sector manager that does something. -/
inductive SectorManager.Called (map : Map) (sm : SectorManager) : SectorManager → Prop
  | added (id : ObjectID) (c : Position) (sm' : SectorManager) (out : Position)
      (h : sm.addObject id c map = some (sm', out)) : Called map sm sm'
  | removed (id : ObjectID) (p : Position) : Called map sm (sm.removeObject id p)
  | moved (id : ObjectID) (old new : Position) (sm' : SectorManager)
      (h : sm.tryMoveObject id old new = some sm') : Called map sm sm'

namespace World

open ViewProcessor

/-! ## What is said -/

/-- An object that is in the tables, as `SC_AddObject` would describe it. -/
inductive Has (w : World) : RemoteObject → Prop
  | player (p : Player) (hp : w.getPlayer p.id = some p) : Has w p.remote
  | monster (m : Monster) (hm : w.getMonster m.id = some m) : Has w m.remote

/-- The packets a handler of the world sends, all about objects that are there. -/
inductive Says (w : World) : ScPacket → Prop
  | add (obj : RemoteObject) (h : w.Has obj) : Says w (.addObject obj)
  | remove (obj : RemoteObject) (h : w.Has obj) : Says w (.removeObject obj.id)
  | move (obj : RemoteObject) (h : w.Has obj) (moveTime : ℕ) (ht : moveTime < 2 ^ 64) :
      Says w (.moveObject obj.id obj.pos moveTime)
  | effect (obj : RemoteObject) (h : w.Has obj) : Says w (.attackEffect obj.id obj.pos)
  | combat (attacker target : RemoteObject) (ha : w.Has attacker) (ht : w.Has target)
      (level factor : ℕ) (hlevel : level < 65536) (hfactor : factor ≤ 10) :
      Says w (.combatMessage attacker.id target.id (level * factor : ℕ))
  | chat (p : Player) (hp : w.getPlayer p.id = some p) (channel : ℕ) (hc : channel < 256)
      (text : Bytes) :
      Says w (.chat p.id channel (strncpyTruncate 32 p.name) (strncpyTruncate 128 text))

variable {c : Scope} {env : Env} {w w' v : World} {id : ObjectID} {conn : ConnId}
  {p q : Player} {m m' : Monster} {pos a : Position} {sm : SectorManager} {obj : RemoteObject}
  {pkt : ScPacket} {pkts : List (ConnId × ScPacket)} {x : ConnId × ScPacket}

/-- What can be said depends on the tables only. -/
theorem Has.congr (h : w.Has obj) (hp : w'.players = w.players) (hm : w'.monsters = w.monsters) :
    w'.Has obj := by
  cases h with
  | player p hget => exact .player p (by rw [getPlayer, hp]; exact hget)
  | monster m hget => exact .monster m (by rw [getMonster, hm]; exact hget)

theorem Says.congr (h : w.Says pkt) (hp : w'.players = w.players)
    (hm : w'.monsters = w.monsters) : w'.Says pkt := by
  cases h with
  | add obj h => exact .add obj (h.congr hp hm)
  | remove obj h => exact .remove obj (h.congr hp hm)
  | move obj h moveTime ht => exact .move obj (h.congr hp hm) moveTime ht
  | effect obj h => exact .effect obj (h.congr hp hm)
  | combat att tgt ha ht level factor hlevel hfactor =>
      exact .combat att tgt (ha.congr hp hm) (ht.congr hp hm) level factor hlevel hfactor
  | chat p hget channel hc text => exact .chat p (by rw [getPlayer, hp]; exact hget) channel hc text

/-! ## Effects -/

/-- **One write of a handler.** -/
inductive Effect (c : Scope) (w : World) : World → Prop
  | placed (sm : SectorManager) (h : w.sectorManager.Called w.map sm) :
      Effect c w { w with sectorManager := sm }
  | edited (m m' : Monster) (hm : w.getMonster m.id = some m) (h : m.Edited w.map m') :
      Effect c w (w.setMonster m')
  | timer (type : TimerType) (id : ObjectID) (owner : Option ℕ) (htype : type ≠ .dbSave) :
      Effect c w (w.addTimer type id type.delayMs owner)
  | said (conn : ConnId) (pkt : ScPacket) (h : w.Says pkt) : Effect c w (w.send conn pkt)
  | tweaked (p q : Player) (hp : w.getPlayer p.id = some p) (h : p.Tweaked c w.map w.now q) :
      Effect c w (w.setPlayer q)
  | restated (p q : Player) (hp : w.getPlayer p.id = some p)
      (h : p.Restated w.map (fun m => w.getMonster m.id = some m) q) :
      Effect c w ((w.setPlayer q).send q.session q.statPkt)
  | fallen (p : Player) (hp : w.getPlayer p.id = some p) (h : c.lost p.session) :
      Effect c w (w.setPlayer p.die.stopRegen)

/-- A sequence of effects. -/
abbrev Effects (c : Scope) : World → World → Prop :=
  Relation.ReflTransGen (Effect c)

/-- **What every effect keeps, every sequence of effects keeps.** -/
theorem Effects.keeps {P : World → Prop} (h : Effects c w w')
    (hstep : ∀ u v, P u → Effect c u v → P v) (hw : P w) : P w' := by
  induction h with
  | refl => exact hw
  | tail _ heffect ih => exact hstep _ _ ih heffect

/-- No effect touches the map or the clock. -/
theorem Effect.frame (h : Effect c w w') : w'.map = w.map ∧ w'.now = w.now := by
  cases h <;> exact ⟨rfl, rfl⟩

theorem Effects.frame (h : Effects c w w') : w'.map = w.map ∧ w'.now = w.now :=
  h.keeps (P := fun v => v.map = w.map ∧ v.now = w.now)
    (fun _ _ hu hv => ⟨hv.frame.1.trans hu.1, hv.frame.2.trans hu.2⟩) ⟨rfl, rfl⟩

/-- Packets one after the other. -/
theorem effects_sendAll (h : ∀ x ∈ pkts, w.Says x.2) : Effects c w (w.sendAll pkts) := by
  induction pkts generalizing w with
  | nil =>
      have hnil : w.sendAll [] = w := by simp [sendAll]
      rw [hnil]
  | cons x pkts ih =>
      obtain ⟨hx, hpkts⟩ := List.forall_mem_cons.mp h
      have hcons : w.sendAll (x :: pkts) = (w.send x.1 x.2).sendAll pkts := by
        simp [sendAll, send]
      rw [hcons]
      refine .head (.said x.1 x.2 hx) (ih fun y hy => ?_)
      exact (hpkts y hy).congr rfl rfl

theorem effects_broadcast (env : Env) (pos : Position) (h : w.Says pkt) :
    Effects c w (w.broadcast env pos pkt) := by
  refine effects_sendAll fun x hx => ?_
  obtain ⟨p, -, rfl⟩ := List.mem_map.mp hx
  exact h

/-! ## The view processor -/

theorem says_sendFullView (hp : w.getPlayer p.id = some p) (hx : x ∈ sendFullView env w p) :
    w.Says x.2 := by
  obtain ⟨j, -, hj⟩ := List.mem_flatMap.mp hx
  unfold fullViewOf at hj
  split at hj
  · exact absurd hj List.not_mem_nil
  · split at hj
    · split at hj
      · exact absurd hj List.not_mem_nil
      · next other ho =>
          obtain rfl := getPlayer_id ho
          split at hj
          · rcases List.mem_cons.mp hj with rfl | hj
            · exact .add _ (.player other ho)
            · rw [List.mem_singleton.mp hj]
              exact .add _ (.player p hp)
          · exact absurd hj List.not_mem_nil
    · split at hj
      · exact absurd hj List.not_mem_nil
      · next monster hm =>
          obtain rfl := getMonster_id hm
          split at hj
          · rw [List.mem_singleton.mp hj]
            exact .add _ (.monster monster hm)
          · exact absurd hj List.not_mem_nil

theorem says_sendDisappear (hp : w.getPlayer p.id = some p) (hx : x ∈ sendDisappear env w p) :
    w.Says x.2 := by
  obtain ⟨j, other, -, -, rfl⟩ := of_mem_sendDisappear hx
  exact .remove _ (.player p hp)

/-- Whatever was in the view from a tile is in the tables. -/
theorem has_of_mem_viewFrom {moved : GameObject} (hj : id ∈ viewFrom env w moved pos) :
    ∃ obj, w.Has obj ∧ obj.id = id := by
  have hmem := (env.mem_iter _ id).mp hj
  have hseen := (List.mem_filter.mp (List.mem_dedup.mp hmem)).2
  unfold seenFrom at hseen
  split at hseen
  · exact absurd hseen (by simp)
  · split at hseen
    · split at hseen
      · exact absurd hseen (by simp)
      · next other ho =>
          have hid := getPlayer_id ho
          exact ⟨_, .player other (by rw [hid]; exact ho), hid⟩
    · split at hseen
      · exact absurd hseen (by simp)
      · split at hseen
        · exact absurd hseen (by simp)
        · next monster hm =>
            have hid := getMonster_id hm
            exact ⟨_, .monster monster (by rw [hid]; exact hm), hid⟩

theorem says_processMoveView {moved : GameObject} (hmoved : w.Has moved.remote)
    (hx : x ∈ processMoveView env w moved a) : w.Says x.2 := by
  unfold processMoveView at hx
  simp only [List.mem_append, List.mem_flatMap] at hx
  rcases hx with (⟨j, -, hj⟩ | ⟨j, hview, hj⟩) | ⟨j, -, hj⟩
  · unfold appear at hj
    split at hj
    · split at hj
      · exact absurd hj List.not_mem_nil
      · next other ho =>
          obtain rfl := getPlayer_id ho
          rcases List.mem_cons.mp hj with rfl | hj
          · exact .add _ hmoved
          · obtain ⟨me, -, rfl⟩ := Option.map_eq_some_iff.mp (Option.mem_toList.mp hj)
            exact .add _ (.player other ho)
    · split at hj
      · next me monster _ hm =>
          obtain rfl := getMonster_id hm
          rw [List.mem_singleton.mp hj]
          exact .add _ (.monster monster hm)
      · exact absurd hj List.not_mem_nil
  · -- what went out of view was there when the old view was read
    obtain ⟨obj, hobj, rfl⟩ := has_of_mem_viewFrom (List.mem_filter.mp hview).1
    have hown : x ∈ (moved.asPlayer.map fun me => sendRemoveObject me obj.id).toList →
        w.Says x.2 := by
      intro hmem
      obtain ⟨me, -, rfl⟩ := Option.map_eq_some_iff.mp (Option.mem_toList.mp hmem)
      exact .remove obj hobj
    unfold vanish at hj
    dsimp only at hj
    split at hj
    · rcases List.mem_append.mp hj with hj | hj
      · obtain ⟨other, -, rfl⟩ := Option.map_eq_some_iff.mp (Option.mem_toList.mp hj)
        exact .remove _ hmoved
      · exact hown hj
    · exact hown hj
  · unfold follow at hj
    split at hj
    · obtain ⟨other, -, rfl⟩ := Option.map_eq_some_iff.mp (Option.mem_toList.mp hj)
      exact .move _ hmoved 0 (Nat.two_pow_pos 64)
    · exact absurd hj List.not_mem_nil

/-! ## Requests -/

theorem edited_of_eq {map : Map} (hspec : m'.spec = m.spec) (hpos : m'.pos = m.pos)
    (hhp : m'.hp = m.hp) : m.Edited map m' :=
  ⟨hspec, .inl hpos, .inl hhp⟩

theorem edited_tryActivate {map : Map} (h : m.tryActivate = some m') : m.Edited map m' := by
  unfold Monster.tryActivate at h
  split at h
  · exact absurd h (by simp)
  · rw [← Option.some.inj h]
    exact edited_of_eq rfl rfl rfl

/-- A monster that wakes up. -/
theorem effects_activateMonster (pos : Position) (w : World) (id : ObjectID) :
    Effects c w (w.activateMonster pos id) := by
  unfold activateMonster
  split
  · exact .refl
  · next monster hm =>
      obtain rfl := getMonster_id hm
      split
      · exact .refl
      · split
        · exact .refl
        · split
          · exact .refl
          · next awake hact =>
              exact .head (.edited monster awake hm (edited_tryActivate hact))
                (.single (.timer .monsterAi monster.id none (by simp)))

theorem effects_foldl {α : Type} {f : World → α → World}
    (hf : ∀ w a, Effects c w (f w a)) (l : List α) (w : World) :
    Effects c w (l.foldl f w) := by
  induction l generalizing w with
  | nil => exact .refl
  | cons a l ih => exact (hf w a).trans (ih (f w a))

theorem effects_activateNearbyMonsters (env : Env) (pos : Position) (w : World) :
    Effects c w (w.activateNearbyMonsters env pos) :=
  effects_foldl (effects_activateMonster pos) _ w

/-- What `ProcessMove` and `ProcessTeleport` do once they have a tile. -/
theorem effects_arrive (hp : w.getPlayer p.id = some p) (htweak : p.Tweaked c w.map w.now q)
    (hplace : Effects c w { w with sectorManager := sm }) (a pos : Position) (moveTime : ℕ)
    (ht : moveTime < 2 ^ 64) (conn : ConnId) :
    Effects c w (((({ w with sectorManager := sm }.setPlayer q).sendAll (processMoveView env
      ({ w with sectorManager := sm }.setPlayer q) (ofPlayer q) a)).activateNearbyMonsters env
        pos).send conn (.moveObject q.id q.pos moveTime)) := by
  have hput : Effects c w ({ w with sectorManager := sm }.setPlayer q) :=
    hplace.tail (.tweaked p q hp htweak)
  have hq : ({ w with sectorManager := sm }.setPlayer q).getPlayer q.id = some q :=
    getPlayer_setPlayer_self _ q
  refine hput.trans (.trans (effects_sendAll fun x hx => ?_) (.trans
    (effects_activateNearbyMonsters env pos _) (.single (.said conn _ ?_))))
  · exact says_processMoveView (.player q hq) hx
  · refine .move q.remote (.player q ?_) moveTime ht
    rw [getPlayer_activateNearbyMonsters]
    exact hq

theorem readLE_lt (bs : Bytes) (i size : ℕ) : readLE bs i size < 256 ^ size := by
  induction size generalizing i with
  | zero => simp [readLE]
  | succ n ih =>
      have hbyte : byteAt bs i < 256 := (bs.getD i 0).toNat_lt
      have hrest := ih (i + 1)
      rw [readLE, Nat.pow_succ]
      omega

theorem effects_processMove (hact : c.acting .move id) (env : Env) (conn : ConnId) (data : Bytes)
    (w : World) : Effects c w (w.processMove env id conn data) := by
  rcases processMove_cases env id conn data w with
    heq | ⟨player, new, sm, hp, -, -, hwalk, hmove, heq⟩
  · rw [heq]
  · rw [heq]
    obtain rfl := getPlayer_id hp
    exact effects_arrive (p := player) (q := (player.setPos new).onMoved w.now) hp
      (.moved new hact hwalk) (.single (.placed sm (.moved _ _ _ sm hmove))) player.pos _ _
      (readLE_lt data 5 8) conn

theorem effects_processTeleport (id : ObjectID) (conn : ConnId) (w : World) :
    Effects c w (w.processTeleport c.env id conn) := by
  rcases processTeleport_cases c.env id conn w with heq | ⟨player, sm, new, hp, hplace, heq⟩
  · rw [heq]
  · rw [heq]
    obtain rfl := getPlayer_id hp
    have hgone : Effects c w { w with
        sectorManager := w.sectorManager.removeObject player.id player.pos } :=
      .single (.placed _ (.removed player.id player.pos))
    have hnew : (w.map.isWalkable new.x new.y = true ∨ new = c.env.indeterminate) ∧
        Effects c w { w with sectorManager := sm } := by
      rcases placeTeleported_cases c.env player.id w (w.sectorManager.removeObject player.id
        player.pos) with ⟨t, hadd⟩ | ⟨-, -, hfail⟩
      · rw [hplace] at hadd
        exact ⟨.inl (SectorManager.isWalkable_of_addObject hadd),
          hgone.tail (.placed sm (.added player.id t sm new hadd))⟩
      · -- what could not be placed stays removed
        rw [hplace] at hfail
        obtain ⟨rfl, rfl⟩ := Prod.mk.inj hfail
        exact ⟨.inr rfl, hgone⟩
    exact effects_arrive (p := player) (q := player.setPos new) hp (.teleported new hnew.1) hnew.2
      player.pos _ 0 (Nat.two_pow_pos 64) conn

/-- A hit on a monster, and what follows when it kills. -/
theorem effects_strike (hm : w.getMonster m.id = some m) (id : ObjectID) {level : ℕ}
    (hlevel : level < 65536) :
    Effects c w (w.strike env id (level * 10 : ℕ) m) := by
  have hedit : m.Edited w.map (m.takeDamage (level * 10 : ℕ)) :=
    ⟨rfl, .inl rfl, .inr (.inr ⟨_, Int.natCast_nonneg _, rfl⟩)⟩
  have hhit : Effect c w (w.setMonster (m.takeDamage (level * 10 : ℕ))) :=
    .edited m _ hm hedit
  unfold strike
  dsimp only
  rw [getPlayer_setMonster]
  split
  · exact .single hhit
  · next player hp =>
      obtain rfl := getPlayer_id hp
      have htarget : (w.setMonster (m.takeDamage (level * 10 : ℕ))).getMonster
          (m.takeDamage (level * 10 : ℕ)).id = some (m.takeDamage (level * 10 : ℕ)) :=
        (getMonster_setMonster (m := m.takeDamage (level * 10 : ℕ)) hm _).trans (if_pos rfl)
      generalize m.takeDamage (level * 10 : ℕ) = target at *
      have hp' : (w.setMonster target).getPlayer player.id = some player := hp
      have hmsg : Effects c w ((w.setMonster target).sendCombatMessage player player.id
          target.id (level * 10 : ℕ)) := by
        refine .head hhit (.single (.said _ _ ?_))
        exact .combat player.remote target.remote (.player player hp') (.monster target htarget)
          level 10 hlevel (Nat.le_refl 10)
      split
      · -- the killer is rewarded and told, then the monster is taken away
        refine hmsg.trans (.head (.restated player _ hp'
          (.rewarded target htarget)) ?_)
        exact .trans (effects_broadcast env target.pos
          (.remove target.remote (.monster target htarget)))
          (.head (.placed _ (.removed _ _)) (.single
            (.timer .monsterRespawn target.id none (by simp))))
      · exact hmsg

theorem effects_processAttack (hact : c.acting .attack id) (env : Env) (w : World) :
    Effects c w (w.processAttack env id) := by
  unfold processAttack
  split
  · exact .refl
  · next player hp =>
      obtain rfl := getPlayer_id hp
      split
      · exact .refl
      · have hcast : ((player.level.toNat : Int) * 10) = ((player.level.toNat * 10 : ℕ) : Int) := by
          push_cast
          rfl
        dsimp only
        rw [hcast]
        -- the attacker stays where it is while the four directions are dealt with
        have hloop := List.foldlRecOn
          (motive := fun v => Effects c w v ∧
            ∃ q, v.getPlayer player.id = some q ∧ q.ident = player.ident) (List.range 4)
          (attackDirection env player.id player.pos (player.level.toNat * 10 : ℕ))
          ⟨.refl, player, hp, rfl⟩
          fun v ⟨hv, q, hq, hident⟩ d _ => by
            obtain hw | ⟨target, hm, -, hw⟩ := attackDirection_cases env player.id player.pos
              (player.level.toNat * 10 : ℕ) v d
            · rw [hw]
              exact ⟨hv, q, hq, hident⟩
            · rw [hw]
              obtain ⟨r, hr, hri⟩ := getPlayer_of_ident hq (players_strike env hq _ player.id)
              exact ⟨hv.trans (effects_strike hm player.id player.level.toNat_lt), r, hr,
                hri.trans hident⟩
        obtain ⟨hv, q, hq, hident⟩ := hloop
        generalize (List.range 4).foldl (attackDirection env player.id player.pos
          (player.level.toNat * 10 : ℕ)) w = v at *
        have hid : q.id = player.id := congrArg Player.Ident.id hident
        have hpos : q.pos = player.pos := congrArg Player.Ident.pos hident
        rw [← hid] at hq
        rw [← hid, ← hpos]
        have hcast : Effects c v (v.broadcast env q.pos (.attackEffect q.id q.pos)) :=
          effects_broadcast env q.pos (.effect q.remote (.player q hq))
        refine hv.trans (hcast.trans ?_)
        have hq' : (v.broadcast env q.pos (.attackEffect q.id q.pos)).getPlayer q.id = some q := hq
        unfold broadcastAttackEffect modifyPlayer
        rw [hq']
        exact .single (.tweaked q _ hq' (.attacked (by rw [hid]; exact hact)))

theorem effects_processChat (hact : c.acting .chat id) (env : Env) (data : Bytes) (w : World) :
    Effects c w (w.processChat env id data) := by
  unfold processChat
  split
  · exact .refl
  · next sender hp =>
      obtain rfl := getPlayer_id hp
      split
      · exact .refl
      · have hput : Effects c w (w.setPlayer (sender.onChatPerformed w.now)) :=
          .single (.tweaked sender _ hp (.chatted hact))
        have hsaid : (w.setPlayer (sender.onChatPerformed w.now)).Says
            (.chat sender.id (byteAt data 4) (strncpyTruncate 32 sender.name)
              (strncpyTruncate 128 ((data.drop 5).take 128))) :=
          .chat (sender.onChatPerformed w.now) (getPlayer_setPlayer_self _ _) (byteAt data 4)
            (data.getD 4 0).toNat_lt _
        dsimp only
        split
        · exact hput
        · split
          · refine hput.trans (effects_sendAll fun x hx => ?_)
            obtain ⟨k, -, hk⟩ := List.mem_filterMap.mp hx
            obtain ⟨r, -, rfl⟩ := Option.map_eq_some_iff.mp hk
            exact hsaid
          · exact hput.trans (effects_broadcast env _ hsaid)

/-! ## Regeneration -/

theorem effects_startRegen (hp : w.getPlayer p.id = some p) :
    Effects c w (w.startRegen p) := by
  unfold startRegen
  split
  · exact .refl
  · next q hstart =>
      have hq : q = { p with regenActive := true } := by
        unfold Player.tryStartRegen at hstart
        split at hstart
        · exact absurd hstart (by simp)
        · exact (Option.some.inj hstart).symm
      rw [hq]
      exact .head (.tweaked p _ hp (.regen true)) (.single (.timer .hpRegen _ _ (by simp)))

theorem effects_stopRegenAndMaybeRestart (hp : w.getPlayer p.id = some p) :
    Effects c w (w.stopRegenAndMaybeRestart p) := by
  have hstop : Effects c w (w.setPlayer p.stopRegen) :=
    .single (.tweaked p _ hp (.regen false))
  unfold stopRegenAndMaybeRestart
  dsimp only
  split
  · exact hstop.trans (effects_startRegen (p := p.stopRegen) (getPlayer_setPlayer_self _ _))
  · exact hstop

theorem effects_hpRegen (id : ObjectID) (w : World) : Effects c w (w.hpRegen id) := by
  unfold hpRegen
  split
  · exact .refl
  · next player hp =>
      obtain rfl := getPlayer_id hp
      split
      · exact .single (.tweaked player _ hp (.regen false))
      · next halive =>
          split
          · exact effects_stopRegenAndMaybeRestart hp
          · next hlow =>
              have halive' : 0 < player.hp := Int.not_le.mp (by simpa [Player.isDead] using halive)
              have hheal : Effects c w ((w.setPlayer player.regenHP).send player.regenHP.session
                  player.regenHP.statPkt) :=
                .single (.restated player _ hp (.healed halive' (Int.not_le.mp hlow)))
              dsimp only
              split
              · exact hheal.trans (effects_stopRegenAndMaybeRestart (p := player.regenHP)
                  (getPlayer_setPlayer_self _ _))
              · exact hheal.trans (.single (.timer .hpRegen _ _ (by simp)))

/-! ## Hits and deaths -/

/-- A tile around the origin is free for the victim, or its client may be left
without a word. -/
def FindsTileOr (c : Scope) (w : World) (p : Player) : Prop :=
  ((w.sectorManager.removeObject p.id p.pos).addObject p.id ⟨0, 0⟩ w.map).isSome ∨
    c.lost p.session

theorem effects_onPlayerDied (hp : w.getPlayer p.id = some p) (hfit : w.FindsTileOr c p) :
    Effects c w (w.onPlayerDied env p) := by
  have hgone : Effects c w (w.sendAll (sendDisappear env w p)) :=
    effects_sendAll fun x hx => says_sendDisappear hp hx
  cases hadd : (w.sectorManager.removeObject p.id p.pos).addObject p.id ⟨0, 0⟩ w.map with
  | none =>
      have hlost : c.lost p.session := by
        rcases hfit with hsome | hlost
        · rw [hadd] at hsome
          exact absurd hsome (by simp)
        · exact hlost
      rw [onPlayerDied_of_none hadd]
      exact (hgone.tail (.placed _ (.removed p.id p.pos))).tail (.fallen p hp hlost)
  | some found =>
      obtain ⟨sm, respawn⟩ := found
      have hwalk := SectorManager.isWalkable_of_addObject hadd
      rw [onPlayerDied_of_some hadd]
      dsimp only
      have hplaced : Effects c w
          { w.sendAll (sendDisappear env w p) with sectorManager := sm } :=
        (hgone.tail (.placed _ (.removed p.id p.pos))).tail
          (.placed sm (.added p.id ⟨0, 0⟩ sm respawn hadd))
      have hback : Effects c w _ := hplaced.tail
        (.restated p (afterDeath p respawn) hp (.revived respawn hwalk))
      have hget : (({ w.sendAll (sendDisappear env w p) with sectorManager := sm }.setPlayer
          (afterDeath p respawn)).send p.session (afterDeath p respawn).statPkt).getPlayer
            (afterDeath p respawn).id = some (afterDeath p respawn) :=
        getPlayer_setPlayer_self _ (afterDeath p respawn)
      have htold : Effects c w _ := hback.tail (.said p.session (.moveObject p.id respawn 0)
        (.move (afterDeath p respawn).remote (.player _ hget) 0 (Nat.two_pow_pos 64)))
      refine (htold.trans (effects_sendAll fun x hx => ?_)).trans
        (effects_activateNearbyMonsters env respawn _)
      exact says_sendFullView (p := afterDeath p respawn) hget hx

/-- A hit by a monster that is in the table. -/
theorem effects_monsterAttackPlayer {n : Monster} (hn : w.getMonster n.id = some n)
    (hid : n.id = m.id) (hp : w.getPlayer p.id = some p)
    (hfit : HitFits ⟨w, m, p.id⟩ ∨ c.lost p.session) :
    Effects c w (w.monsterAttackPlayer env m p) := by
  unfold monsterAttackPlayer
  split
  · exact .refl
  · next halive =>
      have hcast : ((m.level.toNat : Int) * 5) = ((m.level.toNat * 5 : ℕ) : Int) := by
        push_cast
        rfl
      dsimp only
      -- the message goes out first here: sending and writing do not depend on each other
      have hmsg : Effects c w
          (w.send p.session (.combatMessage m.id p.id (m.level.toNat * 5))) := by
        rw [hcast, ← hid]
        exact .single (.said _ _ (.combat n.remote p.remote (.monster n hn) (.player p hp)
          m.level.toNat 5 m.level.toNat_lt (by decide)))
      have hhurt : p.Restated w.map (fun m => w.getMonster m.id = some m)
          (p.takeDamage (m.level.toNat * 5)) := .damaged _ (by omega)
      have hwound : Effects c w ((((w.setPlayer (p.takeDamage (m.level.toNat * 5))
          ).sendCombatMessage (p.takeDamage (m.level.toNat * 5)) m.id
            (p.takeDamage (m.level.toNat * 5)).id (m.level.toNat * 5))).send
              (p.takeDamage (m.level.toNat * 5)).session
                (p.takeDamage (m.level.toNat * 5)).statPkt) :=
        hmsg.tail (.restated p (p.takeDamage (m.level.toNat * 5)) hp hhurt)
      have hget := getPlayer_setPlayer_self w (p.takeDamage (m.level.toNat * 5))
      split
      · next hdead =>
          refine hwound.trans (effects_onPlayerDied (p := p.takeDamage (m.level.toNat * 5)) hget ?_)
          exact hfit.imp (fun hfit => hfit p hp (by simpa using halive) hdead) id
      · exact hwound.trans (effects_startRegen (p := p.takeDamage (m.level.toNat * 5)) hget)

/-- The hit finds a tile for its victim, or the victim's client may be left
without a word. -/
def HitFitsOr (c : Scope) (hit : Hit) : Prop :=
  ∀ victim, hit.before.getPlayer hit.victimId = some victim → HitFits hit ∨ c.lost victim.session

theorem getMonster_of_body {k : ObjectID} (hm : w.getMonster k = some m)
    (h : (v.getMonster k).map Monster.body = (w.getMonster k).map Monster.body) :
    ∃ n, v.getMonster k = some n ∧ n.body = m.body := by
  rw [hm] at h
  exact Option.map_eq_some_iff.mp h

/-- The hits of a tick one after the other; the attacker stays where it is. -/
theorem effects_attackVictims {n : Monster} (hn : w.getMonster m.id = some n)
    (hbody : n.body = m.body) (victims : List ObjectID)
    (hfits : ∀ hit ∈ hitsFrom env m victims w, HitFitsOr c hit) :
    Effects c w (victims.foldl (attackVictim env m) w) ∧
      ∃ n, (victims.foldl (attackVictim env m) w).getMonster m.id = some n ∧ n.body = m.body := by
  induction victims generalizing w n with
  | nil => exact ⟨.refl, n, hn, hbody⟩
  | cons victimId rest ih =>
      obtain ⟨hhit, hrest⟩ := List.forall_mem_cons.mp hfits
      obtain ⟨n', hn', hbody'⟩ := getMonster_of_body hn (body_attackVictim env m w victimId m.id)
      obtain ⟨heffects, hafter⟩ := ih hn' (hbody'.trans hbody) hrest
      refine ⟨.trans ?_ heffects, hafter⟩
      unfold attackVictim
      split
      · exact .refl
      · next victim hp =>
          obtain rfl := getPlayer_id hp
          have hid := getMonster_id hn
          exact effects_monsterAttackPlayer (n := n) (by rw [hid]; exact hn) hid hp
            (hhit victim hp)

/-! ## Monsters -/

/-- A write to a monster that is in the table. -/
theorem effects_setMonster (hm : w.getMonster m.id = some m) (h : m.Edited w.map m') :
    Effects c w (w.setMonster m') :=
  .single (.edited m m' hm h)

theorem effects_moveMonster (env : Env) (hm : w.getMonster m.id = some m)
    (hwalk : w.map.isWalkable pos.x pos.y = true) :
    Effects c w (w.moveMonster env m pos) := by
  unfold moveMonster
  split
  · exact .refl
  · next sm hmove =>
      have hput : Effects c w ({ w with sectorManager := sm }.setMonster (m.setPos pos)) :=
        .head (.placed sm (.moved _ _ _ sm hmove))
          (.single (.edited m _ hm ⟨rfl, .inr hwalk, .inl rfl⟩))
      have hget : ({ w with sectorManager := sm }.setMonster (m.setPos pos)).getMonster
          (m.setPos pos).id = some (m.setPos pos) :=
        (getMonster_setMonster (w := { w with sectorManager := sm }) (m := m.setPos pos) hm
          _).trans (if_pos rfl)
      exact hput.trans (effects_sendAll fun x hx =>
        says_processMoveView (.monster (m.setPos pos) hget) hx)

theorem effects_perform (hm : w.getMonster m.id = some m) (action : AiAction)
    (hfits : ∀ victims, action = .attack victims →
      ∀ hit ∈ hitsFrom env m victims w, HitFitsOr c hit) :
    Effects c w (w.perform env m action) := by
  cases action with
  | idle => exact .refl
  | clearTarget => exact effects_setMonster hm (edited_of_eq rfl rfl rfl)
  | attack victims =>
      obtain ⟨hhits, n, hn, hbody⟩ := effects_attackVictims hm rfl victims (hfits victims rfl)
      have hid : n.id = m.id := getMonster_id hn
      have hpos : n.pos = m.pos := congrArg Monster.Body.pos hbody
      unfold perform attackAdjacent
      dsimp only
      generalize victims.foldl (attackVictim env m) w = v at *
      have hcast : Effects c v (v.broadcastAttackEffect env m.id m.pos) := by
        rw [← hid, ← hpos]
        rw [← hid] at hn
        exact effects_broadcast env n.pos (.effect n.remote (.monster n hn))
      refine (hhits.trans hcast).trans ?_
      have hn' : (v.broadcastAttackEffect env m.id m.pos).getMonster m.id = some n := hn
      unfold modifyMonster
      rw [hn']
      rw [← hid] at hn'
      exact effects_setMonster hn' (edited_of_eq rfl rfl rfl)
  | chase targetPos =>
      rcases chase_cases env m targetPos w with heq | ⟨new, hmay, -, heq⟩
      · rw [perform, heq]
      · rw [perform, heq]
        exact effects_moveMonster env hm hmay.walkable
  | setTarget t => exact effects_setMonster hm (edited_of_eq rfl rfl rfl)
  | roam =>
      rcases roamingMove_cases env m w with heq | ⟨new, hmay, -, heq⟩
      · rw [perform, heq]
      · rw [perform, heq]
        exact effects_moveMonster env hm hmay.walkable

theorem effects_monsterAi (id : ObjectID) (w : World)
    (hfits : ∀ hit ∈ hitsOf env id w, HitFitsOr c hit) :
    Effects c w (w.monsterAi env id) := by
  have hspec := monsterAi_spec env id w
  generalize w.monsterAi env id = v at hspec
  cases hspec with
  | nothing => exact .refl
  | asleep m hm =>
      obtain rfl := getMonster_id hm
      exact effects_setMonster hm (edited_of_eq rfl rfl rfl)
  | tick m hm halive hhits =>
      obtain rfl := getMonster_id hm
      refine Relation.ReflTransGen.tail (effects_perform hm _ fun victims hact => ?_)
        (.timer .monsterAi m.id none (by simp))
      rw [← hhits victims hact]
      exact hfits

theorem effects_respawnMonster (env : Env) (id : ObjectID) (w : World) :
    Effects c w (w.respawnMonster env id) := by
  rcases respawnMonster_cases env id w with
    heq | ⟨monster, -, -, heq⟩ | ⟨monster, sm, out, v, hm, hadd, hv, heq⟩
  · rw [heq]
  · rw [heq]
    exact .single (.timer .monsterRespawn id none (by simp))
  · obtain rfl := getMonster_id hm
    have hwalk := SectorManager.isWalkable_of_addObject hadd
    have hput : Effects c w
        ({ w with sectorManager := sm }.setMonster (monster.respawn.setPos out)) :=
      .head (.placed sm (.added _ _ sm out hadd))
        (.single (.edited monster _ hm ⟨rfl, .inr hwalk, .inr (.inl rfl)⟩))
    have hget : ({ w with sectorManager := sm }.setMonster (monster.respawn.setPos out)).getMonster
        (monster.respawn.setPos out).id = some (monster.respawn.setPos out) :=
      (getMonster_setMonster (w := { w with sectorManager := sm })
        (m := monster.respawn.setPos out) hm _).trans (if_pos rfl)
    have hcast : Effects c w v := by
      rw [hv]
      exact hput.trans (effects_broadcast env _ (.add _ (.monster _ hget)))
    rcases heq with heq | ⟨awake, hact, heq⟩
    · rw [heq]
      exact hcast
    · rw [heq]
      have hget' : v.getMonster (monster.respawn.setPos out).id =
          some (monster.respawn.setPos out) := by
        rw [hv]
        exact hget
      exact (hcast.tail (.edited _ awake hget' (edited_tryActivate hact))).tail
        (.timer .monsterAi monster.id none (by simp))

end World

end Mmorpg
