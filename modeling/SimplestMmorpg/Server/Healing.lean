/-
Whether a wounded player heals.

A regeneration timer is armed by the hit that wounds and by the timer before
it, and nowhere else. Whether a hit arms one is decided by `m_regenActive`, so
what has to hold of a player is stronger than what is wanted: a player that is
wounded, or whose flag says that a timer is queued, has one
(`Player.NeedsTimer`). Every handler keeps that but one. A login reads the hit
points from the stored row and arms nothing, so a character that left wounded
comes back wounded, and stays so until it is hit.

`Spares` is what most handlers have in common: who needs a timer afterwards
needed one before, and no event is lost. `skip` in `Healing` is the player that
a handler is at work on.
-/
import SimplestMmorpg.Server.Leaving
import SimplestMmorpg.Server.Progress

set_option autoImplicit false

namespace Mmorpg

open Transition

/-! ## What a player needs -/

namespace Player

/-- Hit points are missing. -/
def Wounded (p : Player) : Prop := 0 < p.hp ∧ p.hp < p.maxHp

instance (p : Player) : Decidable p.Wounded := inferInstanceAs (Decidable (_ ∧ _))

/-- Hit points are missing, or the flag says that a timer is queued. -/
def NeedsTimer (p : Player) : Prop := p.Wounded ∨ p.regenActive = true

variable {p q : Player}

/-- Only the hit points and the flag count. -/
theorem NeedsTimer.of_eq (h : q.NeedsTimer) (hhp : q.hp = p.hp) (hmax : q.maxHp = p.maxHp)
    (hflag : q.regenActive = p.regenActive) : p.NeedsTimer := by
  unfold NeedsTimer Wounded at *
  rwa [hhp, hmax, hflag] at h

/-- Each level that is gained fills the hit points up. -/
theorem needsTimer_levelUp (fuel : ℕ) (h : (levelUp fuel p).NeedsTimer) : p.NeedsTimer := by
  induction fuel generalizing p with
  | zero => exact h
  | succ n ih =>
      rw [levelUp] at h
      split at h
      · -- gaining a level fills the hit points up
        rcases ih h with hw | hflag
        · exact absurd hw.2 (lt_irrefl _)
        · exact .inr hflag
      · exact h

theorem needsTimer_gainExp {amount : Int} (h : (p.gainExp amount).NeedsTimer) :
    p.NeedsTimer := by
  have hup : (levelUp maxLevel { p with exp := toInt32 (p.exp + amount) }).NeedsTimer := by
    unfold gainExp at h
    dsimp only at h
    split at h
    · exact h
    · exact h
  exact (needsTimer_levelUp maxLevel hup).of_eq rfl rfl rfl

/-- A player that has just died is whole, and has no timer. -/
theorem not_needsTimer_die (p : Player) : ¬ p.die.stopRegen.NeedsTimer := by
  rintro (hw | hflag)
  · exact absurd hw.2 (lt_irrefl _)
  · exact absurd hflag Bool.false_ne_true

end Player

namespace World

open ViewProcessor

/-- Every player but `skip` that needs a timer has one queued. -/
def Healing (skip : Option ObjectID) (w : World) : Prop :=
  ∀ id p, some id ≠ skip → w.getPlayer id = some p → p.NeedsTimer → 1 ≤ w.outstandingRegens id

/-- Who needs a timer afterwards needed one before, and no event is lost. -/
structure Spares (w w' : World) : Prop where
  players : ∀ id q, w'.getPlayer id = some q → q.NeedsTimer →
    ∃ p, w.getPlayer id = some p ∧ p.NeedsTimer
  timers : ∀ id, w.outstandingRegens id ≤ w'.outstandingRegens id

variable {env : Env} {w w' w'' v : World} {skip : Option ObjectID} {id : ObjectID}
  {p q : Player} {m : Monster} {pos : Position}

namespace Spares

theorem refl (w : World) : Spares w w := ⟨fun _ q hq hn => ⟨q, hq, hn⟩, fun _ => le_refl _⟩

theorem trans (h : Spares w w') (h' : Spares w' w'') : Spares w w'' where
  players id q hq hn := by
    obtain ⟨p, hp, hnp⟩ := h'.players id q hq hn
    exact h.players id p hp hnp
  timers id := (h.timers id).trans (h'.timers id)

/-- Packets, tiles and monsters do not count. -/
theorem of_same (hp : w'.players = w.players) (ht : w'.timers = w.timers) : Spares w w' where
  players id q hq hn := ⟨q, by rw [getPlayer, ← hp]; exact hq, hn⟩
  timers id := by rw [outstandingRegens, outstandingRegens, ht]

end Spares

theorem Healing.spares (h : Healing skip w) (hs : Spares w w') : Healing skip w' := by
  intro id q hid hq hn
  obtain ⟨p, hp, hnp⟩ := hs.players id q hq hn
  exact (h id p hid hp hnp).trans (hs.timers id)

/-- What the handler was at work on is settled. -/
theorem Healing.settle (h : Healing (some id) w)
    (hid : ∀ p, w.getPlayer id = some p → p.NeedsTimer → 1 ≤ w.outstandingRegens id) :
    Healing none w := by
  intro j p _ hp hn
  by_cases hj : j = id
  · subst hj
    exact hid p hp hn
  · exact h j p (fun heq => hj (Option.some.inj heq)) hp hn

/-- A player is written, and nothing is said of it. -/
theorem Healing.write (h : Healing none w) (q : Player) : Healing (some q.id) (w.setPlayer q) := by
  intro j p hj hp hn
  rw [getPlayer_setPlayer, if_neg fun heq => hj (by rw [heq])] at hp
  exact h j p (by simp) hp hn

/-- A player is written that needs nothing. -/
theorem Healing.rest (h : Healing (some q.id) w) (hq : ¬ q.NeedsTimer) :
    Healing none (w.setPlayer q) := by
  intro j p _ hp hn
  rw [getPlayer_setPlayer] at hp
  split at hp
  · exact absurd (Option.some.inj hp ▸ hn) hq
  · next hj => exact h j p (fun heq => hj (Option.some.inj heq)) hp hn

/-! ## What does not count -/

theorem spares_sendAll (w : World) (pkts : List (ConnId × ScPacket)) : Spares w (w.sendAll pkts) :=
  .of_same rfl rfl

theorem spares_addTimer (w : World) (type : TimerType) (id : ObjectID) (delayMs : ℕ)
    (owner : Option ℕ) : Spares w (w.addTimer type id delayMs owner) where
  players id q hq hn := ⟨q, hq, hn⟩
  timers j := by
    rw [outstandingRegens, outstandingRegens, addTimer, List.countP_append]
    exact Nat.le_add_right _ _

theorem spares_setPlayer (hp : w.getPlayer q.id = some p) (hq : q.NeedsTimer → p.NeedsTimer) :
    Spares w (w.setPlayer q) where
  players id r hr hn := by
    rw [getPlayer_setPlayer] at hr
    split at hr
    · next hid => exact ⟨p, hid ▸ hp, hq (Option.some.inj hr ▸ hn)⟩
    · exact ⟨r, hr, hn⟩
  timers _ := le_refl _

/-- A player is written on a tile that it has been given. -/
theorem spares_place (sm : SectorManager) (hp : w.getPlayer q.id = some p)
    (hq : q.NeedsTimer → p.NeedsTimer) :
    Spares w ({ w with sectorManager := sm }.setPlayer q) := by
  have hp1 : ({ w with sectorManager := sm } : World).getPlayer q.id = some p := hp
  have hsame : Spares w { w with sectorManager := sm } := .of_same rfl rfl
  exact hsame.trans (spares_setPlayer hp1 hq)

theorem spares_modifyPlayer (w : World) (id : ObjectID) {f : Player → Player}
    (hf : ∀ p, (f p).id = p.id ∧ ((f p).NeedsTimer → p.NeedsTimer)) :
    Spares w (w.modifyPlayer id f) := by
  unfold modifyPlayer
  split
  · exact .refl w
  · next p hp =>
      refine spares_setPlayer (p := p) ?_ (hf p).2
      rw [(hf p).1, getPlayer_id hp, hp]

theorem spares_activateNearbyMonsters (env : Env) (pos : Position) (w : World) :
    Spares w (w.activateNearbyMonsters env pos) where
  players id q hq hn := by
    rw [getPlayer_activateNearbyMonsters] at hq
    exact ⟨q, hq, hn⟩
  timers id := ((inert_activateNearbyMonsters env pos w).calm.outstandingRegens id).ge

/-! ## Moving, teleporting and talking -/

theorem spares_processMove (env : Env) (id : ObjectID) (session : ConnId) (data : Bytes)
    (w : World) : Spares w (w.processMove env id session data) := by
  rcases processMove_cases env id session data w with
    heq | ⟨player, new, sm, hp, -, -, -, -, heq⟩
  · rw [heq]
    exact .refl w
  · rw [heq]
    obtain rfl := getPlayer_id hp
    have hset : Spares w ({ w with sectorManager := sm }.setPlayer
        ((player.setPos new).onMoved w.now)) :=
      spares_place (p := player) sm hp fun hn => hn.of_eq rfl rfl rfl
    exact ((hset.trans (spares_sendAll _ _)).trans
      (spares_activateNearbyMonsters env _ _)).trans (spares_sendAll _ _)

theorem spares_processTeleport (env : Env) (id : ObjectID) (session : ConnId) (w : World) :
    Spares w (w.processTeleport env id session) := by
  rcases processTeleport_cases env id session w with heq | ⟨player, sm, new, hp, -, heq⟩
  · rw [heq]
    exact .refl w
  · rw [heq]
    obtain rfl := getPlayer_id hp
    have hset : Spares w ({ w with sectorManager := sm }.setPlayer (player.setPos new)) :=
      spares_place (p := player) sm hp fun hn => hn.of_eq rfl rfl rfl
    exact ((hset.trans (spares_sendAll _ _)).trans
      (spares_activateNearbyMonsters env _ _)).trans (spares_sendAll _ _)

theorem spares_processChat (env : Env) (id : ObjectID) (data : Bytes) (w : World) :
    Spares w (w.processChat env id data) := by
  unfold processChat
  split
  · exact .refl w
  · next sender hp =>
      obtain rfl := getPlayer_id hp
      split
      · exact .refl w
      · have hset : Spares w (w.setPlayer (sender.onChatPerformed w.now)) :=
          spares_setPlayer (p := sender) hp fun hn => hn.of_eq rfl rfl rfl
        dsimp only
        split
        · exact hset
        · split
          · exact hset.trans (spares_sendAll _ _)
          · exact hset.trans (spares_sendAll _ _)

/-! ## Attacking -/

theorem spares_onMonsterDied (env : Env) (m : Monster) (hp : w.getPlayer p.id = some p) :
    Spares w (w.onMonsterDied env m p) := by
  have hid : (p.gainExp m.getExpReward).id = p.id :=
    congrArg Player.Ident.id (Player.ident_gainExp p _)
  have hgain : Spares w (w.setPlayer (p.gainExp m.getExpReward)) :=
    spares_setPlayer (by rw [hid, hp]) Player.needsTimer_gainExp
  have hbury : ∀ v : World, Spares v (v.buryMonster env m) := by
    intro v
    unfold buryMonster
    refine Spares.trans ?_ (spares_addTimer _ .monsterRespawn m.id monsterRespawnMs none)
    exact .of_same rfl rfl
  exact (hgain.trans (spares_sendAll _ _)).trans (hbury _)

theorem spares_strike (env : Env) (id : ObjectID) (damage : Int) (target : Monster) (w : World) :
    Spares w (w.strike env id damage target) := by
  have hset : Spares w (w.setMonster (target.takeDamage damage)) := .of_same rfl rfl
  unfold strike
  dsimp only
  split
  · exact hset
  · next player hp =>
      obtain rfl := getPlayer_id hp
      have htell := hset.trans (spares_sendAll _
        [(player.session, .combatMessage player.id (target.takeDamage damage).id damage)])
      split
      · exact htell.trans (spares_onMonsterDied env _ hp)
      · exact htell

theorem spares_processAttack (env : Env) (id : ObjectID) (w : World) :
    Spares w (w.processAttack env id) := by
  apply processAttack_induction (.refl w)
  case strike =>
    intro v _ target _ _ _ hv damage
    exact hv.trans (spares_strike env id damage target v)
  case effect =>
    intro v pos hv
    exact hv.trans (spares_sendAll _ _)
  case performed =>
    intro v now hv
    exact hv.trans (spares_modifyPlayer _ id fun p => ⟨rfl, fun hn => hn.of_eq rfl rfl rfl⟩)

/-! ## What a monster does besides hitting -/

theorem spares_moveMonster (env : Env) (m : Monster) (pos : Position) (w : World) :
    Spares w (w.moveMonster env m pos) := by
  unfold moveMonster
  split
  · exact .refl w
  · exact .of_same rfl rfl

theorem spares_roamingMove (env : Env) (m : Monster) (w : World) :
    Spares w (w.roamingMove env m) := by
  rcases roamingMove_cases env m w with heq | ⟨new, -, -, heq⟩
  · rw [heq]
    exact .refl w
  · rw [heq]
    exact spares_moveMonster env m _ w

theorem spares_chase (env : Env) (m : Monster) (pos : Position) (w : World) :
    Spares w (w.chase env m pos) := by
  rcases chase_cases env m pos w with heq | ⟨new, -, -, heq⟩
  · rw [heq]
    exact .refl w
  · rw [heq]
    exact spares_moveMonster env m _ w

theorem spares_respawnMonster (env : Env) (id : ObjectID) (w : World) :
    Spares w (w.respawnMonster env id) := by
  rcases respawnMonster_cases env id w with
    heq | ⟨monster, -, -, heq⟩ | ⟨monster, sm, out, v, -, -, hv, heq⟩
  · rw [heq]
    exact .refl w
  · rw [heq]
    exact spares_addTimer w _ _ _ _
  · have hcast : Spares w v := by
      rw [hv]
      exact .of_same rfl rfl
    rcases heq with heq | ⟨monster', -, heq⟩
    · rw [heq]
      exact hcast
    · rw [heq]
      have hwoken : Spares v (v.setMonster monster') := .of_same rfl rfl
      exact (hcast.trans hwoken).trans (spares_addTimer _ .monsterAi id monsterAiTickMs none)

/-! ## Being hit -/

/-- A death ends with a player that is whole, wherever it is put. -/
theorem healing_onPlayerDied (env : Env) (h : Healing (some p.id) w) :
    Healing none (w.onPlayerDied env p) := by
  have hleft : ∀ sm, Healing (some p.id)
      { w.sendAll (sendDisappear env w p) with sectorManager := sm } :=
    fun sm => h.spares (.of_same rfl rfl)
  cases hadd : (w.sectorManager.removeObject p.id p.pos).addObject p.id ⟨0, 0⟩ w.map with
  | none =>
      rw [onPlayerDied_of_none hadd]
      exact (hleft _).rest (q := p.die.stopRegen) (Player.not_needsTimer_die p)
  | some placed =>
      obtain ⟨sm, respawn⟩ := placed
      rw [onPlayerDied_of_some hadd]
      have hback := (hleft sm).rest (q := afterDeath p respawn) (Player.not_needsTimer_die p)
      refine hback.spares (Spares.trans ?_ (spares_activateNearbyMonsters env _ _))
      exact .of_same rfl rfl

/-- `TryStartRegen` succeeds, or the flag was set and a timer is queued already. -/
theorem healing_startRegen (h : Healing (some p.id) w)
    (hflag : p.regenActive = true → 1 ≤ w.outstandingRegens p.id) :
    Healing none (w.startRegen p) := by
  unfold startRegen
  split
  · next hnone =>
      -- the exchange on the flag found it set
      have hactive : p.regenActive = true := by
        unfold Player.tryStartRegen at hnone
        split at hnone
        · next hset => exact hset
        · exact absurd hnone (by simp)
      exact h.settle fun _ _ _ => hflag hactive
  · next q hq =>
      have hid : q.id = p.id := congrArg Player.Ident.id (Player.ident_tryStartRegen hq)
      intro j r _ hr hn
      by_cases hj : j = p.id
      · -- the timer that has just been armed
        rw [addRegenTimer, addTimer, outstandingRegens, List.countP_append]
        simp [hj, hid]
      · have hset : (w.setPlayer q).getPlayer j = some r := hr
        rw [getPlayer_setPlayer, if_neg (by rw [hid]; exact hj)] at hset
        have hold := h j r (fun heq => hj (Option.some.inj heq)) hset hn
        exact hold.trans ((spares_addTimer (w.setPlayer q) .hpRegen q.id hpRegenIntervalMs
          (some q.serial)).timers j)

/-- **A hit.** The victim dies, or has a timer. -/
theorem healing_monsterAttackPlayer (env : Env) (h : Healing none w)
    (hp : w.getPlayer id = some p) : Healing none (w.monsterAttackPlayer env m p) := by
  obtain rfl := getPlayer_id hp
  unfold monsterAttackPlayer
  split
  · exact h
  · dsimp only
    generalize hq : p.takeDamage (m.level.toNat * 5) = q
    have hid : q.id = p.id := by rw [← hq]; rfl
    have hactive : q.regenActive = p.regenActive := by rw [← hq]; rfl
    have hwound : Healing (some q.id) ((((w.setPlayer q).sendCombatMessage q m.id q.id
        (m.level.toNat * 5))).send q.session q.statPkt) :=
      (h.write q).spares (.of_same rfl rfl)
    split
    · exact healing_onPlayerDied env hwound
    · -- a flag that is set was set before the hit, and had its timer then
      refine healing_startRegen hwound fun hflag => ?_
      rw [hid]
      exact h p.id p (by simp) hp (.inr (hactive ▸ hflag))

theorem healing_attackVictims (env : Env) (victims : List ObjectID) (h : Healing none w) :
    Healing none (victims.foldl (attackVictim env m) w) := by
  apply attackVictims_induction env victims h
  intro v _ victim _ hv hp
  exact healing_monsterAttackPlayer env hv hp

theorem healing_perform (env : Env) (m : Monster) (action : AiAction) (h : Healing none w) :
    Healing none (w.perform env m action) := by
  cases action with
  | idle => exact h
  | clearTarget => exact h.spares (.of_same rfl rfl)
  | attack victims =>
      have hloop := healing_attackVictims (m := m) env victims h
      refine hloop.spares ?_
      simp only [perform, attackAdjacent, modifyMonster]
      split
      · exact .of_same rfl rfl
      · exact .of_same rfl rfl
  | chase targetPos => exact h.spares (spares_chase env m targetPos w)
  | setTarget t => exact h.spares (.of_same rfl rfl)
  | roam => exact h.spares (spares_roamingMove env m w)

theorem healing_monsterAi (env : Env) (h : Healing none w) (id : ObjectID) :
    Healing none (w.monsterAi env id) := by
  have hspec := monsterAi_spec env id w
  generalize w.monsterAi env id = v at hspec
  cases hspec with
  | nothing => exact h
  | asleep m hm => exact h.spares (.of_same rfl rfl)
  | tick m hm halive hhits =>
      exact (healing_perform env m _ h).spares (spares_addTimer _ _ _ _ _)

/-! ## Regeneration -/

theorem healing_stopRegenAndMaybeRestart (h : Healing (some p.id) w) :
    Healing none (w.stopRegenAndMaybeRestart p) := by
  have hstop : Healing (some p.id) (w.setPlayer p.stopRegen) := by
    intro j r hj hr hn
    rw [getPlayer_setPlayer, if_neg fun heq => hj (by rw [heq]; rfl)] at hr
    exact h j r hj hr hn
  unfold stopRegenAndMaybeRestart
  dsimp only
  split
  · -- the flag was cleared just before, so it is taken again
    exact healing_startRegen (p := p.stopRegen) hstop fun hflag =>
      absurd hflag Bool.false_ne_true
  · next hfull =>
      -- no hit point is missing
      refine Healing.rest (q := p.stopRegen) h ?_
      rintro (hw | hflag)
      · exact hfull hw.2
      · exact absurd hflag Bool.false_ne_true

/-- **A timer that is handled** is replaced, or its player needs none. -/
theorem healing_hpRegen (h : Healing (some id) w) : Healing none (w.hpRegen id) := by
  unfold hpRegen
  split
  · next hnone =>
      -- the player has left, and the event is dropped
      refine h.settle fun p hp _ => ?_
      rw [hnone] at hp
      exact absurd hp (by simp)
  · next player hp =>
      obtain rfl := getPlayer_id hp
      split
      · next hdead =>
          -- who is dead is not wounded
          refine Healing.rest (q := player.stopRegen) h ?_
          rintro (hw | hflag)
          · have hle : player.hp ≤ 0 := of_decide_eq_true hdead
            exact absurd hw.1 (not_lt.mpr hle)
          · exact absurd hflag Bool.false_ne_true
      · split
        · exact healing_stopRegenAndMaybeRestart h
        · have htold : Healing (some player.regenHP.id) ((w.setPlayer player.regenHP).send
              player.regenHP.session player.regenHP.statPkt) := by
            intro j r hj hr hn
            have hset : (w.setPlayer player.regenHP).getPlayer j = some r := hr
            rw [getPlayer_setPlayer, if_neg fun heq => hj (by rw [heq])] at hset
            exact h j r hj hset hn
          dsimp only
          split
          · exact healing_stopRegenAndMaybeRestart htold
          · -- the next tick
            have harmed := htold.spares (spares_addTimer _ .hpRegen player.regenHP.id
              hpRegenIntervalMs (some player.regenHP.serial))
            refine harmed.settle fun _ _ _ => ?_
            rw [addTimer, outstandingRegens, List.countP_append]
            simp

/-- Taking an event from the queue concerns nobody but its target. -/
theorem Healing.take (h : Healing none w) {k : ℕ} {ev : TimerEvent} (hev : w.timers[k]? = some ev) :
    Healing (some ev.targetId) { w with timers := w.timers.eraseIdx k } := by
  intro j p hj hp hn
  have hone := h j p (by simp) hp hn
  have hother : ¬ (ev.type = .hpRegen ∧ ev.targetId = j) := fun hc => hj (by rw [hc.2])
  rw [outstandingRegens, (perm_eraseIdx hev).countP_eq,
    List.countP_cons_of_neg (by simpa using hother)] at hone
  exact hone

/-- And nobody at all when it is no regeneration. -/
theorem Healing.take_other (h : Healing none w) {k : ℕ} {ev : TimerEvent}
    (hev : w.timers[k]? = some ev) (ht : ev.type ≠ .hpRegen) :
    Healing none { w with timers := w.timers.eraseIdx k } := by
  intro j p hj hp hn
  have hone := h j p hj hp hn
  rw [outstandingRegens, (perm_eraseIdx hev).countP_eq,
    List.countP_cons_of_neg (by simp [ht])] at hone
  exact hone

/-! ## Coming and going -/

theorem outstandingRegens_addPlayer {conn : ConnId} {row : PlayerRow}
    (hadd : w.addPlayer id conn row = some v) (j : ObjectID) :
    v.outstandingRegens j = w.outstandingRegens j := by
  obtain ⟨sm, spawn, -, rfl⟩ := addPlayer_eq_some hadd
  rfl

/-- A new player is as wounded as its row. -/
theorem wounded_addPlayer {conn : ConnId} {row : PlayerRow}
    (hadd : w.addPlayer id conn row = some v) (hp : v.getPlayer id = some p) :
    (p.Wounded ↔ 0 < row.hp ∧ row.hp < row.maxHp) ∧ p.regenActive = false := by
  obtain ⟨spawn, hget⟩ := getPlayer_addPlayer hadd
  rw [hget, if_pos rfl] at hp
  rw [← Option.some.inj hp]
  exact ⟨Iff.rfl, rfl⟩

theorem healing_addPlayer {conn : ConnId} {row : PlayerRow} (h : Healing none w)
    (hadd : w.addPlayer id conn row = some v)
    (hrow : 0 < row.hp → row.hp < row.maxHp → 1 ≤ w.outstandingRegens id) : Healing none v := by
  intro j p _ hp hn
  rw [outstandingRegens_addPlayer hadd]
  by_cases hj : j = id
  · -- the new player has the hit points of its row and a flag that is clear
    subst hj
    obtain ⟨hwounded, hclear⟩ := wounded_addPlayer hadd hp
    rcases hn with hw | hflag
    · obtain ⟨hpos, hlt⟩ := hwounded.mp hw
      exact hrow hpos hlt
    · rw [hclear] at hflag
      exact absurd hflag Bool.false_ne_true
  · obtain ⟨spawn, hget⟩ := getPlayer_addPlayer hadd
    rw [hget, if_neg hj] at hp
    exact h j p (by simp) hp hn

theorem spares_welcome (env : Env) (w : World) (conn : ConnId) (p : Player) :
    Spares w (w.welcome env conn p) := by
  have hsent : Spares w ((w.send conn (loginOkPkt p)).sendAll
      (sendFullView env (w.send conn (loginOkPkt p)) p)) := .of_same rfl rfl
  exact hsent.trans (spares_activateNearbyMonsters env _ _)

theorem outstandingRegens_welcome (env : Env) (w : World) (conn : ConnId) (p : Player)
    (j : ObjectID) : (w.welcome env conn p).outstandingRegens j = w.outstandingRegens j :=
  (inert_activateNearbyMonsters env p.pos _).calm.outstandingRegens j

theorem spares_leave (env : Env) (w : World) (p : Player) : Spares w (w.leave env p) where
  players id q hq hn := by
    rw [getPlayer_leave] at hq
    split at hq
    · exact absurd hq (by simp)
    · exact ⟨q, hq, hn⟩
  timers _ := le_refl _

/-- Every wounded player in the world has a regeneration timer queued. -/
def WoundedHeal (w : World) : Prop :=
  ∀ id p, w.getPlayer id = some p → p.Wounded → 1 ≤ w.outstandingRegens id

theorem Healing.woundedHeal (h : Healing none w) : WoundedHeal w :=
  fun id p hp hw => h id p (by simp) hp (.inl hw)

end World

namespace Server

open World

/-- After the step every wounded player has a timer. -/
def Heals (s : Server) (e : Event) : Prop := WoundedHeal (s.step e).game.world

/-- A login that will be admitted does not load the row of a wounded character,
unless a timer for the same session id is still queued. -/
def LoadsHealthy (s : Server) : Event → Prop
  | .complete k _ =>
    ∀ c row, s.completions[k]? = some c → c.result = .loaded row →
      (s.getSession c.sessionId).isSome → row.id ∉ s.game.activeDbIds →
      (s.game.world.sectorManager.addObject c.sessionId ⟨row.x, row.y⟩ s.game.world.map).isSome →
      0 < row.hp → row.hp < row.maxHp → 1 ≤ s.game.world.outstandingRegens c.sessionId
  | _ => True

variable {s : Server} {env : Env}

/-! ## One step -/

theorem healing_handleTimerEvent {g : GameWorld} {type : TimerType} {id : ObjectID}
    (h : type ≠ .hpRegen → Healing none g.world) (hregen : Healing (some id) g.world) :
    Healing none (g.handleTimerEvent env type id).world := by
  cases type with
  | hpRegen => exact healing_hpRegen hregen
  | monsterAi => exact healing_monsterAi env (h (by simp)) id
  | monsterRespawn => exact (h (by simp)).spares (spares_respawnMonster env id _)
  | dbSave =>
      simp only [GameWorld.handleTimerEvent]
      rw [world_saveAllPlayers]
      exact (h (by simp)).spares (spares_addTimer _ _ _ _ _)

theorem healing_handlePacket (h : Healing none s.game.world) (id : ObjectID) (conn : ConnId)
    (data : Bytes) (size : ℕ) : Healing none (s.handlePacket env id conn data size).game.world := by
  unfold handlePacket
  split
  · exact h
  · exact h
  · exact h.spares (spares_processMove env id conn data _)
  · exact h.spares (spares_processAttack env id _)
  · exact h.spares (spares_processChat env id data _)
  · exact h.spares (spares_processTeleport env id conn _)

/-- **Every step** keeps a timer for everyone who needs one, under its condition. -/
theorem healing_step (s : Server) (e : Event) (h : Healing none s.game.world)
    (hok : LoadsHealthy s e) : Healing none (s.step e).game.world := by
  have hstep := worldStep s e
  generalize (s.step e).game.world = w at hstep ⊢
  cases hstep with
  | idle => exact h
  | tick ms => exact h.spares (.of_same rfl rfl)
  | left id env conn p hs hp => exact h.spares (spares_leave env _ p)
  | packet id data size env conn hs => exact healing_handlePacket h id conn data size
  | refused => exact h.spares (.of_same rfl rfl)
  | joined k env c conn row v p hc hrow ho hfree hadd hp =>
      have hhealthy := hok c row hc hrow (by rw [ho]; rfl) hfree (isSome_addObject hadd)
      exact (healing_addPlayer h hadd hhealthy).spares (spares_welcome env v conn p)
  | fired k env ev hev => exact healing_handleTimerEvent (h.take_other hev) (h.take hev)

/-- A login of a wounded character that finds no timer leaves it without one. -/
theorem loadsHealthy_of_heals {e : Event} (h : Heals s e) : LoadsHealthy s e := by
  cases e with
  | complete k env =>
      intro c row hc hr hopen hfree hspace hpos hlt
      have hstep : WoundedHeal (s.deliver env k).game.world := h
      obtain ⟨conn, ho⟩ := Option.isSome_iff_exists.mp hopen
      have hgame : (s.deliver env k).game = s.game.onLoginDBLoaded env c.sessionId (some conn) row := by
        unfold deliver
        rw [hc]
        unfold runCallback
        have hopen' : getSession { s with completions := s.completions.eraseIdx k } c.sessionId =
            some conn := ho
        dsimp only
        rw [hopen', hr]
      rw [hgame] at hstep
      have hspec := GameWorld.onLoginDBLoaded_spec env s.game c.sessionId conn row
      generalize s.game.onLoginDBLoaded env c.sessionId (some conn) row = gw at hspec hstep
      cases hspec with
      | duplicate hactive => exact absurd hactive hfree
      | full _ hnone =>
          obtain ⟨placed, hplaced⟩ := Option.isSome_iff_exists.mp hspace
          unfold addPlayer at hnone
          rw [hplaced] at hnone
          exact absurd hnone (by simp)
      | added _ v p hadd hp =>
          have hwounded := (wounded_addPlayer hadd hp).1.mpr ⟨hpos, hlt⟩
          have hone := hstep c.sessionId p ((getPlayer_welcome env v conn p c.sessionId).trans hp)
            hwounded
          rwa [outstandingRegens_welcome, outstandingRegens_addPlayer hadd] at hone
  | _ => trivial

theorem healing_init (map : Map) (spawns : List MonsterSpawnData) (now : ℕ) (store : PlayerStore) :
    Healing none (init map spawns now store).game.world := by
  intro id p _ hp _
  -- no session is open yet, so nobody is in the world
  have hopen := (linked_init map spawns now store).player id p hp
  exact absurd hopen (by simp [init])

/-! ## Whole runs -/

/-- **Every wounded player heals exactly as long as no login brings a wound in.**
In every run, with the events in any order and at any time, after every step
every wounded player has a regeneration timer queued if and only if no login
loads a wounded character for whose session id none is queued. -/
theorem wounded_heal_run {map : Map} {spawns : List MonsterSpawnData} {now : ℕ}
    {store : PlayerStore} {es : List Event} :
    Along step Heals (init map spawns now store) es ↔
      Along step LoadsHealthy (init map spawns now store) es := by
  refine along_iff_of_invariant healing_step (fun s e h => ⟨loadsHealthy_of_heals, fun hok => ?_⟩)
    (healing_init map spawns now store)
  exact (healing_step s e h hok).woundedHeal


/-- The character comes back with the hit points it left with, and nothing is
queued for it. -/
theorem savedReturn_wounded :
    let w := (run step (init openField [brute] 0 .init) savedReturn).game.world
    (w.getPlayer 1).map (fun p => (p.hp, p.maxHp)) = some (50, 100) ∧ w.outstandingRegens 1 = 0 := by
  decide +kernel

theorem not_always_woundedHeal :
    ¬ ∀ (map : Map) (spawns : List MonsterSpawnData) (now : ℕ) (store : PlayerStore)
      (es : List Event), WoundedHeal (run step (init map spawns now store) es).game.world := by
  intro hall
  have h := hall openField [brute] 0 .init savedReturn
  obtain ⟨hplayer, hnone⟩ := savedReturn_wounded
  obtain ⟨p, hp, hstats⟩ := Option.map_eq_some_iff.mp hplayer
  obtain ⟨hhp, hmax⟩ := Prod.mk.inj hstats
  have hone := h 1 p hp ⟨by rw [hhp]; decide, by rw [hhp, hmax]; decide⟩
  rw [hnone] at hone
  exact absurd hone (by decide)

end Server

end Mmorpg
