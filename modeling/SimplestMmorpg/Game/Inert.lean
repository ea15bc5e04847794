/-
Changes of the world that move nobody.

Much of what a handler does leaves the placement alone and tells no client
that something appeared, moved or went away: stats change, monsters are woken,
effects and messages are sent. `Inert` is what all of this has in common, so
that an invariant about places, views or regeneration is shown to survive it
once. What a handler does beyond that is then one of a few operations on one
object.
-/
import SimplestMmorpg.Game.GameWorld

set_option autoImplicit false

namespace Mmorpg

/-- The client of a player can apply this without changing its table of objects
or the id it has for itself. -/
def ScPacket.Quiet (self : ObjectID) : ScPacket → Prop
  | .loginOk .. => False
  | .addObject _ => False
  | .removeObject _ => False
  | .moveObject id _ _ => id = self
  | _ => True

/-- What the placement and the views read of a monster. -/
structure Monster.Body where
  spec : Monster.Spec
  pos : Position
  isDead : Bool

def Monster.body (m : Monster) : Monster.Body := ⟨m.spec, m.pos, m.isDead⟩

namespace World

/-- A packet to a player in the world that its client applies quietly. -/
def QuietSend (w : World) (x : ConnId × ScPacket) : Prop :=
  ∃ p, w.getPlayer p.id = some p ∧ x.1 = p.session ∧ x.2.Quiet p.id

/-- Nobody comes, goes or moves, no regeneration and no respawn is scheduled,
and only quiet packets are sent. -/
structure Inert (w w' : World) : Prop where
  map : w'.map = w.map
  sectorManager : w'.sectorManager = w.sectorManager
  nextSerial : w'.nextSerial = w.nextSerial
  players : ∀ id, (w'.getPlayer id).map Player.ident = (w.getPlayer id).map Player.ident
  monsters : w'.monsters.entries.map Monster.body = w.monsters.entries.map Monster.body
  sent : ∃ pkts, w'.sent = w.sent ++ pkts ∧ ∀ x ∈ pkts, w.QuietSend x
  timers : ∃ evs, w'.timers = w.timers ++ evs ∧
    ∀ ev ∈ evs, ev.type = .monsterAi ∨ ev.type = .dbSave

variable {env : Env} {w w' w'' : World} {id : ObjectID} {p q : Player} {m : Monster}

namespace Inert

theorem refl (w : World) : Inert w w where
  map := rfl
  sectorManager := rfl
  nextSerial := rfl
  players _ := rfl
  monsters := rfl
  sent := ⟨[], by simp, by simp⟩
  timers := ⟨[], by simp, by simp⟩

/-- A player after an inert change was the same player before. -/
theorem player (h : Inert w w') (hp : w'.getPlayer id = some p) :
    ∃ q, w.getPlayer id = some q ∧ q.ident = p.ident := by
  have hid := h.players id
  rw [hp] at hid
  obtain ⟨q, hq, hi⟩ := Option.map_eq_some_iff.mp hid.symm
  exact ⟨q, hq, hi⟩

theorem quietSend (h : Inert w w') {x : ConnId × ScPacket} (hx : w'.QuietSend x) :
    w.QuietSend x := by
  obtain ⟨p, hp, hs, hq⟩ := hx
  obtain ⟨r, hr, hi⟩ := h.player hp
  have hid : r.id = p.id := congrArg Player.Ident.id hi
  have hsess : r.session = p.session := congrArg Player.Ident.session hi
  exact ⟨r, by rw [hid, hr], by rw [hs, hsess], by rwa [hid]⟩

theorem trans (h : Inert w w') (h' : Inert w' w'') : Inert w w'' where
  map := h'.map.trans h.map
  sectorManager := h'.sectorManager.trans h.sectorManager
  nextSerial := h'.nextSerial.trans h.nextSerial
  players id := (h'.players id).trans (h.players id)
  monsters := h'.monsters.trans h.monsters
  sent := by
    obtain ⟨a, ha, hqa⟩ := h.sent
    obtain ⟨b, hb, hqb⟩ := h'.sent
    refine ⟨a ++ b, by rw [hb, ha, List.append_assoc], fun x hx => ?_⟩
    rcases List.mem_append.mp hx with hx | hx
    · exact hqa x hx
    · exact h.quietSend (hqb x hx)
  timers := by
    obtain ⟨a, ha, hta⟩ := h.timers
    obtain ⟨b, hb, htb⟩ := h'.timers
    refine ⟨a ++ b, by rw [hb, ha, List.append_assoc], fun x hx => ?_⟩
    rcases List.mem_append.mp hx with hx | hx
    · exact hta x hx
    · exact htb x hx

/-- The steps of a loop are inert, so the loop is. -/
theorem foldl {α : Type} {f : World → α → World} (hf : ∀ w a, Inert w (f w a)) (l : List α)
    (w : World) : Inert w (l.foldl f w) := by
  induction l generalizing w with
  | nil => exact refl w
  | cons a l ih => exact (hf w a).trans (ih (f w a))

end Inert

/-! ## The steps that are inert -/

theorem inert_sendAll (pkts : List (ConnId × ScPacket)) (h : ∀ x ∈ pkts, w.QuietSend x) :
    Inert w (w.sendAll pkts) :=
  { Inert.refl w with sent := ⟨pkts, rfl, h⟩ }

theorem inert_send (hp : w.getPlayer p.id = some p) {pkt : ScPacket} (hq : pkt.Quiet p.id) :
    Inert w (w.send p.session pkt) :=
  inert_sendAll [(p.session, pkt)] fun x hx => by
    rw [List.mem_singleton.mp hx]
    exact ⟨p, hp, rfl, hq⟩

theorem inert_setPlayer (hp : w.getPlayer q.id = some p) (hi : q.ident = p.ident) :
    Inert w (w.setPlayer q) :=
  { Inert.refl w with
    players := fun id => by
      rw [getPlayer_setPlayer]
      split
      · next h => rw [h, hp, Option.map_some, Option.map_some, hi]
      · rfl }

theorem inert_modifyPlayer {f : Player → Player} (hf : ∀ p, (f p).ident = p.ident) :
    Inert w (w.modifyPlayer id f) := by
  unfold modifyPlayer
  cases hp : w.getPlayer id with
  | none => exact .refl w
  | some p =>
      have hid : (f p).id = id :=
        (congrArg Player.Ident.id (hf p)).trans (getPlayer_id hp)
      exact inert_setPlayer (by rw [hid, hp]) (hf p)

theorem inert_setMonster {m' : Monster} (hm : w.getMonster m.id = some m')
    (hb : m.body = m'.body) : Inert w (w.setMonster m) :=
  { Inert.refl w with monsters := MonsterTable.map_set hm hb }

theorem inert_modifyMonster {f : Monster → Monster} (hf : ∀ m, (f m).body = m.body) :
    Inert w (w.modifyMonster id f) := by
  unfold modifyMonster
  cases hm : w.getMonster id with
  | none => exact .refl w
  | some m =>
      have hid : (f m).id = id :=
        (congrArg (fun b : Monster.Body => b.spec.id) (hf m)).trans (getMonster_id hm)
      exact inert_setMonster (by rw [hid, hm]) (hf m)

theorem inert_addTimer {type : TimerType} (ht : type = .monsterAi ∨ type = .dbSave)
    (delayMs : ℕ) : Inert w (w.addTimer type id delayMs none) :=
  { Inert.refl w with
    timers := ⟨[⟨w.now + delayMs, type, id, none⟩], rfl, fun ev hev => by
      rw [List.mem_singleton.mp hev]
      exact ht⟩ }

theorem body_tryActivate {m m' : Monster} (h : m.tryActivate = some m') : m'.body = m.body := by
  unfold Monster.tryActivate at h
  split at h
  · exact absurd h (by simp)
  · rw [← Option.some.inj h]
    rfl

/-- A monster that wakes up stays where it is. -/
theorem inert_wake {m' : Monster} (hm : w.getMonster m.id = some m) (hact : m.tryActivate = some m')
    (delayMs : ℕ) : Inert w ((w.setMonster m').addTimer .monsterAi m.id delayMs none) := by
  have hb := body_tryActivate hact
  have hid : m'.id = m.id := congrArg (fun b : Monster.Body => b.spec.id) hb
  exact (inert_setMonster (by rw [hid, hm]) hb).trans (inert_addTimer (.inl rfl) _)

theorem inert_activateMonster (pos : Position) (w : World) (id : ObjectID) :
    Inert w (w.activateMonster pos id) := by
  unfold activateMonster
  split
  · exact .refl w
  · next monster hm =>
      split
      · exact .refl w
      · split
        · exact .refl w
        · split
          · exact .refl w
          · next monster' hact =>
              obtain rfl := getMonster_id hm
              exact inert_wake hm hact _

/-- Waking the monsters around a tile moves nobody. -/
theorem inert_activateNearbyMonsters (env : Env) (pos : Position) (w : World) :
    Inert w (w.activateNearbyMonsters env pos) :=
  .foldl (inert_activateMonster pos) _ w

theorem getPlayer_of_mem_playersInView {pos : Position}
    (hp : p ∈ ViewProcessor.playersInView env w pos) : w.getPlayer p.id = some p := by
  obtain ⟨id, -, hid⟩ := List.mem_filterMap.mp hp
  split at hid
  · exact absurd hid (by simp)
  · split at hid
    · exact absurd hid (by simp)
    · next player hplayer =>
        split at hid
        · rw [← Option.some.inj hid, getPlayer_id hplayer, hplayer]
        · exact absurd hid (by simp)

theorem inert_broadcast {pos : Position} {pkt : ScPacket} (hq : ∀ self, pkt.Quiet self) :
    Inert w (w.broadcast env pos pkt) := by
  refine inert_sendAll _ fun x hx => ?_
  obtain ⟨p, hp, rfl⟩ := List.mem_map.mp hx
  exact ⟨p, getPlayer_of_mem_playersInView hp, rfl, hq _⟩

theorem inert_broadcastAttackEffect (attackerId : ObjectID) (pos : Position) (w : World) :
    Inert w (w.broadcastAttackEffect env attackerId pos) :=
  inert_broadcast fun _ => trivial

/-! ## Longer pieces that are inert -/

theorem inert_sendCombatMessage (hp : w.getPlayer p.id = some p) (attackerId targetId : ObjectID)
    (damage : Int) : Inert w (w.sendCombatMessage p attackerId targetId damage) :=
  inert_send hp trivial

/-- A write to a player and the packet that tells it. -/
theorem inert_setPlayer_send (hp : w.getPlayer p.id = some p) (hi : q.ident = p.ident)
    (pkt : ScPacket) (hq : pkt.Quiet p.id) : Inert w ((w.setPlayer q).send q.session pkt) := by
  have hid : q.id = p.id := congrArg Player.Ident.id hi
  refine (inert_setPlayer (by rw [hid, hp]) hi).trans (inert_send ?_ (by rwa [hid]))
  rw [getPlayer_setPlayer, if_pos rfl]

theorem inert_rewardKiller (hp : w.getPlayer p.id = some p) :
    Inert w (w.rewardKiller m p) :=
  inert_setPlayer_send hp (Player.ident_gainExp p _) _ trivial

/-- What a hit does before it comes to the question of life and death. -/
theorem inert_wound (hp : w.getPlayer p.id = some p) (damage : Int) (attackerId : ObjectID) :
    Inert w ((((w.setPlayer (p.takeDamage damage)).sendCombatMessage (p.takeDamage damage)
      attackerId (p.takeDamage damage).id damage)).send (p.takeDamage damage).session
        (p.takeDamage damage).statPkt) := by
  have hset : Inert w (w.setPlayer (p.takeDamage damage)) := inert_setPlayer (p := p) hp rfl
  have hp1 : (w.setPlayer (p.takeDamage damage)).getPlayer p.id = some (p.takeDamage damage) := by
    rw [getPlayer_setPlayer]
    exact if_pos rfl
  exact (hset.trans (inert_sendCombatMessage hp1 _ _ _)).trans (inert_send hp1 trivial)

/-! ## Inert but for a regeneration timer -/

theorem inert_startRegen (hp : w.getPlayer p.id = some p) :
    w.startRegen p = w ∨
      ∃ v, Inert w v ∧ ∃ q, q.ident = p.ident ∧ w.startRegen p = v.addRegenTimer q := by
  unfold startRegen
  split
  · exact .inl rfl
  · next q hq =>
      have hi := Player.ident_tryStartRegen hq
      have hid : q.id = p.id := congrArg Player.Ident.id hi
      exact .inr ⟨w.setPlayer q, inert_setPlayer (by rw [hid, hp]) hi, q, hi, rfl⟩

/-- The flag is cleared, and set again with a new timer when hit points are missing. -/
theorem inert_stopRegenAndMaybeRestart (hp : w.getPlayer p.id = some p) :
    ∃ v, Inert w v ∧ (w.stopRegenAndMaybeRestart p = v ∨
      ∃ q, q.ident = p.ident ∧ w.stopRegenAndMaybeRestart p = v.addRegenTimer q) := by
  have hset : Inert w (w.setPlayer p.stopRegen) := inert_setPlayer (p := p) hp rfl
  unfold stopRegenAndMaybeRestart
  dsimp only
  split
  · rcases inert_startRegen (w := w.setPlayer p.stopRegen) (p := p.stopRegen)
      (getPlayer_setPlayer_self _ _) with heq | ⟨v, hv, q, hq, heq⟩
    · exact ⟨_, hset, .inl heq⟩
    · exact ⟨v, hset.trans hv, .inr ⟨q, hq, heq⟩⟩
  · exact ⟨_, hset, .inl rfl⟩

/-- A regeneration tick does nothing but inert changes and a new timer, for the
player it finds. -/
theorem inert_hpRegen (w : World) (id : ObjectID) : ∃ v, Inert w v ∧ (w.hpRegen id = v ∨
    ∃ p q, w.getPlayer id = some p ∧ q.ident = p.ident ∧ w.hpRegen id = v.addRegenTimer q) := by
  unfold hpRegen
  split
  · exact ⟨w, .refl w, .inl rfl⟩
  · next player hp =>
      obtain rfl := getPlayer_id hp
      split
      · exact ⟨_, inert_setPlayer (q := player.stopRegen) hp rfl, .inl rfl⟩
      · split
        · obtain ⟨v, hv, heq | ⟨q, hq, heq⟩⟩ := inert_stopRegenAndMaybeRestart hp
          · exact ⟨v, hv, .inl heq⟩
          · exact ⟨v, hv, .inr ⟨player, q, hp, hq, heq⟩⟩
        · have htell := inert_setPlayer_send (q := player.regenHP)
            hp rfl player.regenHP.statPkt trivial
          dsimp only
          split
          · obtain ⟨v, hv, heq | ⟨q, hq, heq⟩⟩ := inert_stopRegenAndMaybeRestart
              (w := (w.setPlayer player.regenHP).send player.regenHP.session player.regenHP.statPkt)
              (p := player.regenHP) (getPlayer_setPlayer_self _ _)
            · exact ⟨v, htell.trans hv, .inl heq⟩
            · exact ⟨v, htell.trans hv, .inr ⟨player, q, hp, hq, heq⟩⟩
          · exact ⟨_, htell, .inr ⟨player, player.regenHP, hp, rfl, rfl⟩⟩

/-! ## An attack -/

/-- A player after a change that keeps who is who. -/
theorem getPlayer_of_ident {k : ObjectID} (hp : w.getPlayer k = some p)
    (h : (w'.getPlayer k).map Player.ident = (w.getPlayer k).map Player.ident) :
    ∃ q, w'.getPlayer k = some q ∧ q.ident = p.ident := by
  rw [hp] at h
  exact Option.map_eq_some_iff.mp h

/-- The players are the same after a hit on a monster. -/
theorem players_strike (env : Env) {target : Monster} (hp : w.getPlayer id = some p) (damage : Int)
    (k : ObjectID) :
    ((w.strike env id damage target).getPlayer k).map Player.ident =
      (w.getPlayer k).map Player.ident := by
  obtain rfl := getPlayer_id hp
  unfold strike
  dsimp only
  rw [getPlayer_setMonster, hp]
  dsimp only
  split
  · exact (inert_rewardKiller (w := w) (m := target.takeDamage damage) hp).players k
  · rfl

/-- The player is still there after a round. -/
theorem getPlayer_attackDirection (env : Env) (hp : w.getPlayer id = some p) (pos : Position)
    (damage : Int) (d : ℕ) : ∃ q, (w.attackDirection env id pos damage d).getPlayer id = some q := by
  obtain hw | ⟨target, -, -, hw⟩ := attackDirection_cases env id pos damage w d
  · rw [hw]
    exact ⟨p, hp⟩
  · rw [hw]
    obtain ⟨q, hq, -⟩ := getPlayer_of_ident hp (players_strike env hp damage id)
    exact ⟨q, hq⟩

/-- What every hit on a monster keeps, and what is done after the four directions
keeps, an attack keeps. -/
theorem processAttack_induction {P : World → Prop} (h : P w)
    (strike : ∀ v player target, v.getPlayer id = some player →
      v.getMonster target.id = some target → target.isDead = false → P v →
      ∀ damage, P (v.strike env id damage target))
    (effect : ∀ v pos, P v → P (v.broadcastAttackEffect env id pos))
    (performed : ∀ v now, P v → P (v.modifyPlayer id (·.onAttackPerformed now))) :
    P (w.processAttack env id) := by
  unfold processAttack
  split
  · exact h
  · next player hp =>
      obtain rfl := getPlayer_id hp
      split
      · exact h
      · -- the player stays, so that every direction finds it
        have hloop := List.foldlRecOn
          (motive := fun v => P v ∧ ∃ q, v.getPlayer player.id = some q) (List.range 4)
          (attackDirection env player.id player.pos (player.level.toNat * 10)) ⟨h, player, hp⟩
          fun v ⟨hv, q, hq⟩ d _ => by
            refine ⟨?_, getPlayer_attackDirection env hq _ _ d⟩
            obtain hw | ⟨target, hm, halive, hw⟩ := attackDirection_cases env player.id player.pos
              (player.level.toNat * 10) v d
            · rw [hw]
              exact hv
            · rw [hw]
              exact strike v q target hq hm halive hv _
        exact performed _ _ (effect _ _ hloop.1)

/-- An attack is hits on monsters and inert changes. -/
theorem processAttack_of_inert {P : World → Prop} (h : P w)
    (strike : ∀ v player target, v.getPlayer id = some player →
      v.getMonster target.id = some target → target.isDead = false → P v →
      ∀ damage, P (v.strike env id damage target))
    (inert : ∀ v v', P v → Inert v v' → P v') : P (w.processAttack env id) := by
  apply processAttack_induction h strike
  case effect =>
    intro v pos hv
    exact inert v _ hv (inert_broadcastAttackEffect id pos v)
  case performed =>
    intro v now hv
    exact inert v _ hv (inert_modifyPlayer fun p => Player.ident_onAttackPerformed p _)

/-! ## A chat message -/

/-- A chat message moves nobody. -/
theorem inert_processChat (env : Env) (id : ObjectID) (data : Bytes) (w : World) :
    Inert w (w.processChat env id data) := by
  unfold processChat
  split
  · exact .refl w
  · next sender hsender =>
      have hid := getPlayer_id hsender
      split
      · exact .refl w
      · have hset : Inert w (w.setPlayer (sender.onChatPerformed w.now)) :=
          inert_setPlayer (p := sender) (by rw [← hid] at hsender; exact hsender) rfl
        dsimp only
        split
        · exact hset
        · split
          · refine hset.trans (inert_sendAll _ fun x hx => ?_)
            obtain ⟨k, -, hk⟩ := List.mem_filterMap.mp hx
            obtain ⟨p, hp, rfl⟩ := Option.map_eq_some_iff.mp hk
            exact ⟨p, by rw [getPlayer_id hp, hp], rfl, trivial⟩
          · exact hset.trans (inert_broadcast fun _ => trivial)

end World

end Mmorpg
