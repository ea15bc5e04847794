/-
Handlers that let nobody in and nobody out.

A handler of a request or a timer event may move players and monsters, and
change what they have, but the players in the world stay the same objects, and
what it sends goes to them. `Steady` says so; login and logout are the only
changes of the world that are not steady.
-/
import SimplestMmorpg.Game.Inert

set_option autoImplicit false

namespace Mmorpg

/-- The members that no method of a player touches. -/
structure Player.Who where
  id : ObjectID
  session : ConnId
  dbId : Int
  name : Bytes
  serial : ℕ
  deriving DecidableEq

def Player.Ident.who (i : Player.Ident) : Player.Who := ⟨i.id, i.session, i.dbId, i.name, i.serial⟩

def Player.who (p : Player) : Player.Who := p.ident.who

namespace World

open ViewProcessor

/-- Every packet goes to a player in the world. -/
def ToPlayers (w : World) (pkts : List (ConnId × ScPacket)) : Prop :=
  ∀ x ∈ pkts, ∃ id p, w.getPlayer id = some p ∧ x.1 = p.session

/-- The players are who they were, and only they are sent something. -/
structure Steady (w w' : World) : Prop where
  players : ∀ id, (w'.getPlayer id).map Player.who = (w.getPlayer id).map Player.who
  nextSerial : w'.nextSerial = w.nextSerial
  sent : ∃ pkts, w'.sent = w.sent ++ pkts ∧ w.ToPlayers pkts

variable {env : Env} {w w' w'' : World} {id : ObjectID} {p q : Player} {m : Monster}
  {pos a : Position} {pkts more : List (ConnId × ScPacket)} {x : ConnId × ScPacket}

namespace Steady

theorem refl (w : World) : Steady w w := ⟨fun _ => rfl, rfl, [], by simp, by simp [ToPlayers]⟩

/-- A player after a steady change was the same player before. -/
theorem player (h : Steady w w') (hp : w'.getPlayer id = some p) :
    ∃ q, w.getPlayer id = some q ∧ q.who = p.who := by
  have hwho := h.players id
  rw [hp] at hwho
  exact Option.map_eq_some_iff.mp hwho.symm

/-- And one before is the same after it. -/
theorem player' (h : Steady w w') (hp : w.getPlayer id = some p) :
    ∃ q, w'.getPlayer id = some q ∧ q.who = p.who := by
  have hwho := h.players id
  rw [hp] at hwho
  exact Option.map_eq_some_iff.mp hwho

theorem toPlayers (h : Steady w w') (hto : w'.ToPlayers pkts) : w.ToPlayers pkts := by
  intro x hx
  obtain ⟨id, p, hp, hs⟩ := hto x hx
  obtain ⟨q, hq, hwho⟩ := h.player hp
  exact ⟨id, q, hq, hs.trans (congrArg Player.Who.session hwho).symm⟩

theorem trans (h : Steady w w') (h' : Steady w' w'') : Steady w w'' where
  players id := (h'.players id).trans (h.players id)
  nextSerial := h'.nextSerial.trans h.nextSerial
  sent := by
    obtain ⟨a, ha, hta⟩ := h.sent
    obtain ⟨b, hb, htb⟩ := h'.sent
    refine ⟨a ++ b, by rw [hb, ha, List.append_assoc], fun x hx => ?_⟩
    rcases List.mem_append.mp hx with hx | hx
    · exact hta x hx
    · exact h.toPlayers htb x hx

/-- The steps of a loop are steady, so the loop is. -/
theorem foldl {α : Type} {f : World → α → World} (hf : ∀ w a, Steady w (f w a)) (l : List α)
    (w : World) : Steady w (l.foldl f w) := by
  induction l generalizing w with
  | nil => exact refl w
  | cons a l ih => exact (hf w a).trans (ih (f w a))

end Steady

/-! ## Calm changes -/

/-- The outstanding regeneration events. -/
def regenTimers (w : World) : List TimerEvent := w.timers.filter fun ev => ev.type = .hpRegen

/-- Steady, and no regeneration is scheduled. -/
structure Calm (w w' : World) : Prop extends Steady w w' where
  regen : w'.regenTimers = w.regenTimers

namespace Calm

theorem refl (w : World) : Calm w w := ⟨.refl w, rfl⟩

theorem trans (h : Calm w w') (h' : Calm w' w'') : Calm w w'' :=
  ⟨h.toSteady.trans h'.toSteady, h'.regen.trans h.regen⟩

end Calm

theorem Inert.calm (h : Inert w w') : Calm w w' where
  players id := by
    have hident := congrArg (Option.map Player.Ident.who) (h.players id)
    rw [Option.map_map, Option.map_map] at hident
    exact hident
  nextSerial := h.nextSerial
  sent := by
    obtain ⟨pkts, hsent, hq⟩ := h.sent
    refine ⟨pkts, hsent, ?_⟩
    intro x hx
    obtain ⟨p, hp, hs, -⟩ := hq x hx
    exact ⟨p.id, p, hp, hs⟩
  regen := by
    obtain ⟨evs, hev, ht⟩ := h.timers
    have hnone : evs.filter (fun ev => ev.type = .hpRegen) = [] := by
      apply List.filter_eq_nil_iff.mpr
      intro ev hmem
      rcases ht ev hmem with h1 | h1 <;> simp [h1]
    rw [regenTimers, hev, List.filter_append, hnone, List.append_nil, regenTimers]

theorem Inert.steady (h : Inert w w') : Steady w w' := h.calm.toSteady

/-! ## The steps that are calm -/

theorem calm_sendAll {pkts : List (ConnId × ScPacket)} (hto : w.ToPlayers pkts) : Calm w (w.sendAll pkts) :=
  { Calm.refl w with sent := ⟨pkts, rfl, hto⟩ }

theorem calm_send (hp : w.getPlayer id = some p) (pkt : ScPacket) :
    Calm w (w.send p.session pkt) := by
  have hto : w.ToPlayers [(p.session, pkt)] := by
    intro x hx
    rw [List.mem_singleton.mp hx]
    exact ⟨id, p, hp, rfl⟩
  exact calm_sendAll hto

theorem calm_setPlayer (hp : w.getPlayer q.id = some p) (hwho : q.who = p.who) :
    Calm w (w.setPlayer q) :=
  { Calm.refl w with
    players := fun id => by
      rw [getPlayer_setPlayer]
      split
      · next h => rw [h, hp, Option.map_some, Option.map_some, hwho]
      · rfl }

/-- What is not the players and not the packets may change freely. -/
theorem steady_of_eq (hp : w'.players = w.players) (hn : w'.nextSerial = w.nextSerial)
    (hs : w'.sent = w.sent) : Steady w w' where
  players id := by rw [getPlayer, getPlayer, hp]
  nextSerial := hn
  sent := ⟨[], by rw [hs, List.append_nil], by simp [ToPlayers]⟩

theorem calm_of_eq (hp : w'.players = w.players) (hn : w'.nextSerial = w.nextSerial)
    (hs : w'.sent = w.sent) (ht : w'.regenTimers = w.regenTimers) : Calm w w' :=
  ⟨steady_of_eq hp hn hs, ht⟩

theorem calm_setMonster (w : World) (m : Monster) : Calm w (w.setMonster m) :=
  calm_of_eq rfl rfl rfl rfl

theorem calm_addTimer (w : World) (type : TimerType) (ht : type ≠ .hpRegen) (id : ObjectID)
    (delayMs : ℕ) : Calm w (w.addTimer type id delayMs none) := by
  refine calm_of_eq ?_ ?_ ?_ ?_
  · rfl
  · rfl
  · rfl
  · simp [addTimer, regenTimers, ht]

theorem calm_sectors (w : World) (sm : SectorManager) :
    Calm w { w with sectorManager := sm } :=
  calm_of_eq rfl rfl rfl rfl

theorem calm_place (hp : w.getPlayer q.id = some p) (hwho : q.who = p.who)
    (sm : SectorManager) : Calm w ({ w with sectorManager := sm }.setPlayer q) := by
  have hp1 : ({ w with sectorManager := sm } : World).getPlayer q.id = some p := hp
  exact (calm_sectors w sm).trans (calm_setPlayer hp1 hwho)

/-! ## Whom the views are sent to -/

theorem toPlayers_processMoveView {moved : GameObject}
    (hme : ∀ me, moved.asPlayer = some me → w.getPlayer me.id = some me) :
    w.ToPlayers (processMoveView env w moved a) := by
  intro x hx
  cases of_mem_processMoveView hx with
  | appears j other ho => exact ⟨j, other, ho, rfl⟩
  | sees me h obj => exact ⟨me.id, me, hme me h, rfl⟩
  | vanishes j other ho => exact ⟨j, other, ho, rfl⟩
  | loses me h j => exact ⟨me.id, me, hme me h, rfl⟩
  | moves j other ho hview => exact ⟨j, other, ho, rfl⟩

theorem toPlayers_sendFullView (env : Env) (hp : w.getPlayer p.id = some p) :
    w.ToPlayers (sendFullView env w p) := by
  intro x hx
  cases of_mem_sendFullView hx with
  | sees obj => exact ⟨p.id, p, hp, rfl⟩
  | seen j other ho hview => exact ⟨j, other, ho, rfl⟩

theorem toPlayers_sendDisappear (env : Env) (w : World) (p : Player) :
    w.ToPlayers (sendDisappear env w p) := by
  intro x hx
  obtain ⟨j, other, ho, -, rfl⟩ := of_mem_sendDisappear hx
  exact ⟨j, other, ho, rfl⟩

theorem calm_broadcast (env : Env) (pos : Position) (pkt : ScPacket) (w : World) :
    Calm w (w.broadcast env pos pkt) := by
  refine calm_sendAll fun x hx => ?_
  obtain ⟨p, hp, rfl⟩ := List.mem_map.mp hx
  exact ⟨p.id, p, getPlayer_of_mem_playersInView hp, rfl⟩

/-! ## The handlers -/

/-- A player that is written with a new position and told of, after which
monsters are woken and the player is sent a packet. -/
theorem calm_movePlayer (hp : w.getPlayer q.id = some p) (hwho : q.who = p.who)
    (sm : SectorManager) (pkt : ScPacket) :
    Calm w (((({ w with sectorManager := sm }.setPlayer q).sendAll (processMoveView env
      ({ w with sectorManager := sm }.setPlayer q) (ofPlayer q) a)).activateNearbyMonsters env
        pos).send p.session pkt) := by
  generalize hv : ({ w with sectorManager := sm } : World).setPlayer q = v
  have hset : Calm w v := by
    rw [← hv]
    exact calm_place hp hwho sm
  have hq : v.getPlayer q.id = some q := by
    rw [← hv]
    exact getPlayer_setPlayer_self _ _
  have htell : Calm v (v.sendAll (processMoveView env v (ofPlayer q) a)) :=
    calm_sendAll (toPlayers_processMoveView fun me hme => by
      rw [← Option.some.inj hme, hq])
  have hact := (inert_activateNearbyMonsters env pos
    (v.sendAll (processMoveView env v (ofPlayer q) a))).calm
  have hall := hset.trans (htell.trans hact)
  obtain ⟨q', hq', hwho'⟩ := hall.player' hp
  have hs : q'.session = p.session := congrArg Player.Who.session hwho'
  rw [← hs]
  exact hall.trans (calm_send hq' pkt)

theorem calm_processMove (session : ConnId) (data : Bytes)
    (hsession : ∀ p, w.getPlayer id = some p → p.session = session) :
    Calm w (w.processMove env id session data) := by
  rcases processMove_cases env id session data w with
    heq | ⟨player, new, sm, hp, -, -, -, -, heq⟩
  · rw [heq]
    exact .refl w
  · rw [heq]
    obtain rfl := getPlayer_id hp
    obtain rfl := hsession player hp
    exact calm_movePlayer (p := player) (q := (player.setPos new).onMoved w.now) hp rfl sm _

theorem calm_processTeleport (session : ConnId)
    (hsession : ∀ p, w.getPlayer id = some p → p.session = session) :
    Calm w (w.processTeleport env id session) := by
  rcases processTeleport_cases env id session w with heq | ⟨player, sm, new, hp, -, heq⟩
  · rw [heq]
    exact .refl w
  · rw [heq]
    obtain rfl := getPlayer_id hp
    obtain rfl := hsession player hp
    exact calm_movePlayer (p := player) (q := player.setPos new) hp rfl sm _

theorem calm_buryMonster (w : World) (m : Monster) : Calm w (w.buryMonster env m) :=
  (calm_broadcast env m.pos (.removeObject m.id) w).trans ((calm_sectors _ _).trans
    (calm_addTimer _ .monsterRespawn (by simp) m.id monsterRespawnMs))

theorem calm_strike {target : Monster} (hp : w.getPlayer id = some p) (damage : Int) :
    Calm w (w.strike env id damage target) := by
  obtain rfl := getPlayer_id hp
  unfold strike
  dsimp only
  rw [getPlayer_setMonster, hp]
  have hset : Calm w (w.setMonster (target.takeDamage damage)) :=
    calm_of_eq rfl rfl rfl rfl
  have hp1 : (w.setMonster (target.takeDamage damage)).getPlayer p.id = some p := hp
  have hmsg := hset.trans (inert_sendCombatMessage hp1 p.id
    (target.takeDamage damage).id damage).calm
  have hp2 : ((w.setMonster (target.takeDamage damage)).sendCombatMessage p p.id
      (target.takeDamage damage).id damage).getPlayer p.id = some p := hp
  dsimp only
  split
  · exact (hmsg.trans (inert_rewardKiller hp2).calm).trans (calm_buryMonster _ _)
  · exact hmsg

theorem calm_processAttack : Calm w (w.processAttack env id) := by
  apply processAttack_of_inert (.refl w)
  case strike =>
    intro v _ target hp _ _ hv damage
    exact hv.trans (calm_strike hp damage)
  case inert =>
    intro v v' hv hi
    exact hv.trans hi.calm

theorem calm_moveMonster (w : World) (m : Monster) (pos : Position) :
    Calm w (w.moveMonster env m pos) := by
  unfold moveMonster
  split
  · exact .refl w
  · next sm _ =>
      have hset : Calm w ({ w with sectorManager := sm }.setMonster (m.setPos pos)) :=
        calm_of_eq rfl rfl rfl rfl
      refine hset.trans (calm_sendAll (toPlayers_processMoveView fun me hme => ?_))
      exact absurd hme (by simp [ofMonster])

/-- What a death does once the victim is written on its new tile. -/
theorem calm_comeBack (hp : w.getPlayer q.id = some q) (env : Env) (stat move : ScPacket) :
    Calm w ((((w.send q.session stat).send q.session move).sendAll (sendFullView env
      ((w.send q.session stat).send q.session move) q)).activateNearbyMonsters env pos) := by
  have hp1 : (w.send q.session stat).getPlayer q.id = some q := hp
  have hp2 : ((w.send q.session stat).send q.session move).getPlayer q.id = some q := hp
  have hsent := (calm_send hp stat).trans (calm_send hp1 move)
  exact (hsent.trans (calm_sendAll (toPlayers_sendFullView env hp2))).trans
    (inert_activateNearbyMonsters env _ _).calm

theorem calm_onPlayerDied (hp : w.getPlayer p.id = some p) :
    Calm w (w.onPlayerDied env p) := by
  have hunseen := calm_sendAll (toPlayers_sendDisappear env w p)
  have hp0 : (w.sendAll (sendDisappear env w p)).getPlayer p.id = some p := hp
  cases hadd : (w.sectorManager.removeObject p.id p.pos).addObject p.id ⟨0, 0⟩ w.map with
  | none =>
      rw [onPlayerDied_of_none hadd]
      exact hunseen.trans (calm_place (q := p.die.stopRegen) hp0 rfl _)
  | some placed =>
      obtain ⟨sm, respawn⟩ := placed
      rw [onPlayerDied_of_some hadd]
      have hback := calm_place (q := afterDeath p respawn) hp0 rfl sm
      exact (hunseen.trans hback).trans
        (calm_comeBack (q := afterDeath p respawn) (getPlayer_setPlayer_self _ _) env _ _)

theorem calm_chase (w : World) (m : Monster) (pos : Position) : Calm w (w.chase env m pos) := by
  rcases chase_cases env m pos w with heq | ⟨new, -, -, heq⟩
  · rw [heq]
    exact .refl w
  · rw [heq]
    exact calm_moveMonster w m _

theorem calm_roamingMove (w : World) (m : Monster) : Calm w (w.roamingMove env m) := by
  rcases roamingMove_cases env m w with heq | ⟨new, -, -, heq⟩
  · rw [heq]
    exact .refl w
  · rw [heq]
    exact calm_moveMonster w m _

theorem calm_respawnMonster (w : World) (id : ObjectID) :
    Calm w (w.respawnMonster env id) := by
  rcases respawnMonster_cases env id w with
    heq | ⟨monster, -, -, heq⟩ | ⟨monster, sm, out, v, -, -, hv, heq⟩
  · rw [heq]
    exact .refl w
  · rw [heq]
    exact calm_addTimer w .monsterRespawn (by simp) _ _
  · have hset : Calm w ({ w with sectorManager := sm }.setMonster
        (monster.respawn.setPos out)) := calm_of_eq rfl rfl rfl rfl
    have hcast : Calm w v := by
      rw [hv]
      exact hset.trans (calm_broadcast env out (.addObject (monster.respawn.setPos out).remote) _)
    rcases heq with heq | ⟨monster', -, heq⟩
    · rw [heq]
      exact hcast
    · rw [heq]
      exact (hcast.trans (calm_setMonster _ _)).trans (calm_addTimer _ .monsterAi (by simp) _ _)

/-! ## Hits and regeneration ticks

They may schedule a regeneration, so they are steady and not calm. -/

theorem steady_addRegenTimer (w : World) (p : Player) : Steady w (w.addRegenTimer p) :=
  steady_of_eq rfl rfl rfl

theorem steady_startRegen (hp : w.getPlayer p.id = some p) : Steady w (w.startRegen p) := by
  rcases inert_startRegen hp with heq | ⟨v, hv, q, -, heq⟩
  · rw [heq]
    exact .refl w
  · rw [heq]
    exact hv.steady.trans (steady_addRegenTimer v q)

theorem steady_hpRegen (w : World) (id : ObjectID) : Steady w (w.hpRegen id) := by
  obtain ⟨v, hv, heq | ⟨-, q, -, -, heq⟩⟩ := inert_hpRegen w id
  · rw [heq]
    exact hv.steady
  · rw [heq]
    exact hv.steady.trans (steady_addRegenTimer v q)

theorem steady_monsterAttackPlayer (hp : w.getPlayer p.id = some p) :
    Steady w (w.monsterAttackPlayer env m p) := by
  unfold monsterAttackPlayer
  split
  · exact .refl w
  · have hwound := (inert_wound hp (m.level.toNat * 5) m.id).steady
    dsimp only
    split
    · refine hwound.trans (calm_onPlayerDied ?_).toSteady
      exact getPlayer_setPlayer_self _ _
    · exact hwound.trans (steady_startRegen (getPlayer_setPlayer_self _ _))

theorem steady_attackVictim (w : World) (victimId : ObjectID) :
    Steady w (attackVictim env m w victimId) := by
  unfold attackVictim
  split
  · exact .refl w
  · next victim hv =>
      obtain rfl := getPlayer_id hv
      exact steady_monsterAttackPlayer hv

theorem steady_perform (w : World) (m : Monster) (action : AiAction) :
    Steady w (w.perform env m action) := by
  cases action with
  | idle => exact .refl w
  | clearTarget => exact (calm_setMonster w _).toSteady
  | attack victims =>
      have hloop := Steady.foldl (f := attackVictim env m) steady_attackVictim victims w
      have heffect : ∀ v, Inert v (v.broadcastAttackEffect env m.id m.pos) :=
        inert_broadcastAttackEffect m.id m.pos
      have hdone : ∀ v now, Inert v (v.modifyMonster m.id fun k => k.onAttackPerformed now) :=
        fun v now => inert_modifyMonster fun _ => rfl
      simp only [perform, attackAdjacent]
      exact (hloop.trans (heffect _).steady).trans (hdone _ _).steady
  | chase targetPos => exact (calm_chase w m targetPos).toSteady
  | setTarget t => exact (calm_setMonster w _).toSteady
  | roam => exact (calm_roamingMove w m).toSteady

theorem steady_monsterAi (w : World) (id : ObjectID) : Steady w (w.monsterAi env id) := by
  have hspec := monsterAi_spec env id w
  generalize w.monsterAi env id = v at hspec
  cases hspec with
  | nothing => exact .refl w
  | asleep m hm => exact (calm_setMonster w _).toSteady
  | tick m hm halive hhits =>
      exact (steady_perform w m _).trans (calm_addTimer _ .monsterAi (by simp) _ _).toSteady

end World

end Mmorpg
