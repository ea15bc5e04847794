/-
Every handler keeps the life cycle of every monster.

A handler of a player writes the player somewhere and then wakes the monsters
around it. A monster is changed in five ways: it moves, is hit, dies, comes back
or goes to sleep. Teleports and deaths need a tile for the player
(`TeleportFits`, `HitFits`): without one the player is written at a position
around which nobody is woken, or that is not on the map.
-/
import SimplestMmorpg.Game.LifeCycle
import SimplestMmorpg.Game.PlacementHandlers
import SimplestMmorpg.Lib.Transition

set_option autoImplicit false

namespace Mmorpg.World

open ViewProcessor

variable {env : Env} {w w' v : World} {held : List TimerEvent} {tick back : TimerEvent}
  {id : ObjectID} {p q : Player} {m m' : Monster} {pos : Position} {sm : SectorManager}
  {evs : List TimerEvent}

/-! ## What changes nobody -/

theorem only_broadcast (env : Env) (pos : Position) (pkt : ScPacket) (w : World) :
    Only none w (w.broadcast env pos pkt) :=
  only_sendAll w _

theorem only_modifyPlayer (w : World) (id : ObjectID) {f : Player → Player}
    (hf : ∀ p, (f p).id = p.id ∧ (f p).pos = p.pos) : Only none w (w.modifyPlayer id f) := by
  unfold modifyPlayer
  split
  · exact .refl none w
  · next p hp =>
      refine only_setPlayer (p := p) ?_ (hf p).2
      rw [(hf p).1, getPlayer_id hp, hp]

theorem only_modifyMonster (w : World) (id : ObjectID) {f : Monster → Monster}
    (hf : ∀ m, (f m).life = m.life) : Only none w (w.modifyMonster id f) := by
  unfold modifyMonster
  split
  · exact .refl none w
  · next m hm =>
      have hid : (f m).id = id := (Monster.id_of_life (hf m)).trans (getMonster_id hm)
      exact only_setMonster (by rw [hid]; exact hm) (hf m)

theorem only_addRegenTimer (w : World) (p : Player) : Only none w (w.addRegenTimer p) :=
  only_addTimer (by simp) (by simp) w _ _ _

theorem only_startRegen (hp : w.getPlayer p.id = some p) : Only none w (w.startRegen p) := by
  unfold startRegen
  split
  · exact .refl none w
  · next q hq =>
      have hident := Player.ident_tryStartRegen hq
      have hid : q.id = p.id := congrArg Player.Ident.id hident
      have hpos : q.pos = p.pos := congrArg Player.Ident.pos hident
      exact (only_setPlayer (by rw [hid, hp]) hpos).trans (only_addRegenTimer _ q)

theorem only_stopRegenAndMaybeRestart (hp : w.getPlayer p.id = some p) :
    Only none w (w.stopRegenAndMaybeRestart p) := by
  have hset : Only none w (w.setPlayer p.stopRegen) := only_setPlayer (p := p) hp rfl
  unfold stopRegenAndMaybeRestart
  dsimp only
  split
  · refine hset.trans (only_startRegen ?_)
    exact getPlayer_setPlayer_self _ _
  · exact hset

theorem only_hpRegen (w : World) (id : ObjectID) : Only none w (w.hpRegen id) := by
  unfold hpRegen
  split
  · exact .refl none w
  · next player hp =>
      obtain rfl := getPlayer_id hp
      split
      · exact only_setPlayer (q := player.stopRegen) hp rfl
      · split
        · exact only_stopRegenAndMaybeRestart hp
        · have htell : Only none w ((w.setPlayer player.regenHP).send player.regenHP.session
              player.regenHP.statPkt) :=
            (only_setPlayer (q := player.regenHP) hp rfl).trans (only_send _ _ _)
          dsimp only
          split
          · refine htell.trans (only_stopRegenAndMaybeRestart (p := player.regenHP) ?_)
            exact getPlayer_setPlayer_self _ _
          · exact htell.trans (only_addRegenTimer _ player.regenHP)

theorem only_processChat (env : Env) (id : ObjectID) (data : Bytes) (w : World) :
    Only none w (w.processChat env id data) := by
  unfold processChat
  split
  · exact .refl none w
  · next sender hp =>
      obtain rfl := getPlayer_id hp
      split
      · exact .refl none w
      · have hset : Only none w (w.setPlayer (sender.onChatPerformed w.now)) :=
          only_setPlayer (p := sender) hp rfl
        dsimp only
        split
        · exact hset
        · split
          · exact hset.trans (only_sendAll _ _)
          · exact hset.trans (only_broadcast _ _ _ _)

/-! ## Players that arrive somewhere -/

/-- A player is written on the tile the sector manager gave it, is told something, and the
monsters around it are woken. -/
theorem tended_arrival (h : Tended held none w) (hq : q.id < maxPlayers) (hin : InMap q.pos)
    (hothers : ∀ j, j ≠ q.id → j ≠ invalidId → sm.holding j = w.sectorManager.holding j)
    (hv : Only none ({ w with sectorManager := sm }.setPlayer q) v) :
    Tended held none (v.activateNearbyMonsters env q.pos) := by
  have hwritten : ({ w with sectorManager := sm }.setPlayer q).playerPos q.id = some q.pos := by
    rw [playerPos_setPlayer, if_pos rfl]
  have hplaced := h.placePlayer ((only_sectors w q.id sm hothers).trans (only_writePlayer _ q)) hq
    (fun pos hpos => by rw [hwritten] at hpos; exact Option.some.inj hpos ▸ hin) rfl
  exact (hplaced.only hv).arrive ((hv.players q.id (by simp)).trans hwritten)

/-- **A move keeps the life cycle.** -/
theorem tended_processMove (h : Tended held none w) (session : ConnId) (data : Bytes) :
    Tended held none (w.processMove env id session data) := by
  rcases processMove_cases env id session data w with
    heq | ⟨player, new, sm, hp, -, -, hwalk, hmove, heq⟩
  · rw [heq]
    exact h
  · rw [heq]
    obtain rfl := getPlayer_id hp
    obtain ⟨hlt, -⟩ := h.player _ _ (playerPos_of_getPlayer hp)
    refine (tended_arrival h (q := (player.setPos new).onMoved w.now) hlt
      (w.map.inMap_of_isWalkable hwalk) (fun j hj hv => ?_) (only_sendAll _ _)).only
      (only_send _ _ _)
    exact SectorManager.holding_tryMoveObject_of_ne hv hj hmove

theorem inMap_placeTeleported
    (hfit : (sm.addObject id env.target w.map).isSome ∨ (sm.addObject id ⟨0, 0⟩ w.map).isSome) :
    InMap (w.placeTeleported env id sm).2 := by
  rcases placeTeleported_cases env id w sm with ⟨c, hadd⟩ | ⟨h1, h2, -⟩
  · exact w.map.inMap_of_isWalkable (SectorManager.isWalkable_of_addObject hadd)
  · simp [h1, h2] at hfit

/-- **A teleport that finds a tile keeps the life cycle.** -/
theorem tended_processTeleport (h : Tended held none w) (session : ConnId)
    (hfit : TeleportFits env id w) : Tended held none (w.processTeleport env id session) := by
  rcases processTeleport_cases env id session w with heq | ⟨player, sm, new, hp, hplaced, heq⟩
  · rw [heq]
    exact h
  · rw [heq]
    obtain rfl := getPlayer_id hp
    obtain ⟨hlt, -⟩ := h.player _ _ (playerPos_of_getPlayer hp)
    have hin := inMap_placeTeleported (hfit player hp)
    rw [hplaced] at hin
    exact (tended_arrival h (q := player.setPos new) hlt hin
      (fun j hj hv => holding_teleported hplaced hj hv) (only_sendAll _ _)).only (only_send _ _ _)

/-- **A death that finds a tile keeps the life cycle.** -/
theorem tended_onPlayerDied (h : Tended held none w) (hp : w.getPlayer p.id = some p)
    (hfit : ((w.sectorManager.removeObject p.id p.pos).addObject p.id ⟨0, 0⟩ w.map).isSome) :
    Tended held none (w.onPlayerDied env p) := by
  obtain ⟨⟨sm, respawn⟩, hadd⟩ := Option.isSome_iff_exists.mp hfit
  obtain ⟨hlt, -⟩ := h.player _ _ (playerPos_of_getPlayer hp)
  rw [onPlayerDied_of_some hadd]
  refine tended_arrival (q := afterDeath p respawn) (h.only (only_sendAll w _)) hlt
    (w.map.inMap_of_isWalkable (SectorManager.isWalkable_of_addObject hadd)) (fun j hj hv => ?_)
    (((only_send _ _ _).trans (only_send _ _ _)).trans (only_sendAll _ _))
  exact ((SectorManager.holding_addObject hv hadd).trans (if_neg hj)).trans
    ((SectorManager.holding_removeObject _ hv _ _).trans (if_neg hj))

/-- **A login keeps the life cycle**, also onto a session that has a player. -/
theorem tended_login (h : Tended held none w) {session : ConnId} {row : PlayerRow}
    (hid : id < maxPlayers) (hadd : w.addPlayer id session row = some v)
    (hp : v.getPlayer id = some p) : Tended held none (v.welcome env session p) := by
  obtain ⟨sm, spawn, hsm, rfl⟩ := addPlayer_eq_some hadd
  have hplayer : p = (Player.ofRow id session row w.nextSerial).setPos spawn :=
    Option.some.inj (hp.symm.trans (getPlayer_setPlayer_self _ _))
  subst hplayer
  have hbase : Tended held none { w with nextSerial := w.nextSerial + 1 } :=
    h.only ⟨Nat.le_refl _, fun _ _ _ => rfl, fun _ _ => rfl, fun _ _ => rfl, fun _ _ => rfl⟩
  exact tended_arrival (q := (Player.ofRow id session row w.nextSerial).setPos spawn) hbase hid
    (w.map.inMap_of_isWalkable (SectorManager.isWalkable_of_addObject hsm))
    (fun j hj hv => (SectorManager.holding_addObject hv hsm).trans (if_neg hj))
    ((only_send _ _ _).trans (only_sendAll _ _))

/-- **A logout keeps the life cycle.** -/
theorem tended_leave (h : Tended held none w) (hp : w.getPlayer p.id = some p) :
    Tended held none (w.leave env p) := by
  obtain ⟨hlt, -⟩ := h.player _ _ (playerPos_of_getPlayer hp)
  have hgone : (w.leave env p).playerPos p.id = none := by
    rw [playerPos, getPlayer_leave, if_pos rfl, Option.map_none]
  have hleft := (only_sendAll w (sendDisappear env w p)).of_none (some p.id)
  have hsectors := only_sectors (w.sendAll (sendDisappear env w p)) p.id
    (w.sectorManager.removeObject p.id p.pos)
    fun j hj hv => (SectorManager.holding_removeObject _ hv _ _).trans (if_neg hj)
  have hplaced := h.placePlayer ((hleft.trans hsectors).trans (only_removePlayer _ p.id)) hlt
    (fun pos hpos => absurd (hgone.symm.trans hpos) (by simp)) rfl
  exact hplaced.unskip fun pos hw => absurd (hgone.symm.trans hw.1) (by simp)

/-! ## Hits on a monster -/

theorem life_takeDamage {damage : Int} (halive : m.isDead = false)
    (h : (m.takeDamage damage).isDead = false) : (m.takeDamage damage).life = m.life := by
  rw [Monster.life, takeDamage_body halive h]
  rfl

/-- **A monster that was just killed** gives up its tile, and its respawn is
scheduled behind the `MONSTER_AI` event it may have. -/
theorem tended_buryMonster (h : Tended held none w) (hm : w.getMonster m.id = some m)
    (halive : m.isDead = false) (hspec : m'.spec = m.spec) (hpos : m'.pos = m.pos)
    (hdead : m'.isDead = true) (ho : Only none (w.setMonster m') v) :
    Tended held none (v.buryMonster env m') := by
  have hid : m'.id = m.id := congrArg Monster.Spec.id hspec
  have hkept := h.monster m.id m hm
  have hm' : w.getMonster m'.id = some m := hid ▸ hm
  -- what is written is the monster, its tile, its sector and its event
  have hwrite : Only (some m.id) w v := (only_writeMonster hid hm).trans (ho.of_none _)
  have htold := hwrite.trans ((only_broadcast env m'.pos (.removeObject m'.id) v).of_none _)
  have hleft := only_sectors (v.broadcast env m'.pos (.removeObject m'.id)) m.id
    (v.sectorManager.removeObject m'.id m'.pos) fun j hj hv => by
      rw [hid]
      exact (SectorManager.holding_removeObject _ hv _ _).trans (if_neg hj)
  have hall : Only (some m.id) w (v.buryMonster env m') :=
    (htold.trans hleft).trans (hid ▸ only_schedule _ .monsterRespawn m'.id monsterRespawnMs)
  -- the monster in the table, which may have been written again since
  have hlife := ho.monsters m.id (by simp)
  rw [getMonster_setMonster hm', if_pos hid.symm, Option.map_some] at hlife
  obtain ⟨k, hk, hlife⟩ := Option.map_eq_some_iff.mp hlife
  have hkdead : k.isDead = true := (Monster.isDead_of_life hlife).trans hdead
  have hmaxHp : k.maxHp = m.maxHp :=
    (Monster.maxHp_of_life hlife).trans (congrArg Monster.Spec.maxHp hspec)
  refine h.change hall hk (fun _ _ => rfl) ⟨hkept.valid, hmaxHp ▸ hkept.maxHp, ?_, ?_⟩ ?_
  · have hevs := eventsOf_schedule .monsterRespawn held v m.id monsterRespawnMs (.inr rfl)
    rw [eventsOf_append _ held v.timers, ho.events m.id (by simp)] at hevs
    have htimers : (v.buryMonster env m').timers =
        (v.addTimer .monsterRespawn m.id monsterRespawnMs none).timers := by
      rw [← hid]
      rfl
    rw [htimers, hevs]
    refine Stage.kill (eventsOf_append m.id held w.timers ▸ hkept.stage) halive rfl ?_ hkdead ?_
    · have hnow : w.now ≤ v.now := ho.now
      simp only [monsterAiTickMs, monsterRespawnMs]
      omega
    · have hsm : (v.buryMonster env m').sectorManager =
          v.sectorManager.removeObject m.id m.pos := by
        rw [← hid, ← hpos]
        rfl
      rw [hsm, (Monster.id_of_life hlife).trans hid,
        SectorManager.holding_removeObject _ hkept.valid, if_pos rfl,
        ho.holding m.id (by simp) hkept.valid]
      exact (hkept.stage.at_of_alive halive).take
  · exact fun hkalive => absurd (hkalive.symm.trans hkdead) (by simp)
  · exact (ho.players m.id (by simp)).trans
      (h.not_player (monsterIdOffset_le_of_getMonster hm))

/-- **A hit on a live monster** wounds or kills it. -/
theorem tended_strike {target : Monster} (h : Tended held none w) (hp : w.getPlayer id = some p)
    (hm : w.getMonster target.id = some target) (halive : target.isDead = false) (damage : Int) :
    Tended held none (w.strike env id damage target) := by
  obtain rfl := getPlayer_id hp
  unfold strike
  dsimp only
  rw [getPlayer_setMonster, hp]
  dsimp only
  have hmsg : Only none (w.setMonster (target.takeDamage damage))
      ((w.setMonster (target.takeDamage damage)).sendCombatMessage p p.id
        (target.takeDamage damage).id damage) := only_send _ _ _
  split
  · next hdead =>
      have hpos : (p.gainExp (target.takeDamage damage).getExpReward).pos = p.pos :=
        congrArg Player.Ident.pos (Player.ident_gainExp p _)
      have hid : (p.gainExp (target.takeDamage damage).getExpReward).id = p.id :=
        congrArg Player.Ident.id (Player.ident_gainExp p _)
      refine tended_buryMonster h hm halive rfl rfl hdead ((hmsg.trans ?_).trans (only_send _ _ _))
      exact only_setPlayer (by rw [hid]; exact hp) hpos
  · next hlive =>
      have hlife := life_takeDamage halive (by simpa using hlive)
      exact h.only ((only_setMonster (m := target.takeDamage damage) hm hlife).trans hmsg)

/-- **An attack keeps the life cycle.** -/
theorem tended_processAttack (h : Tended held none w) :
    Tended held none (w.processAttack env id) := by
  apply processAttack_induction h
  case strike =>
    intro v player target hp hm halive hv damage
    exact tended_strike hv hp hm halive damage
  case effect =>
    intro v pos hv
    exact hv.only (only_broadcast _ _ _ _)
  case performed =>
    intro v now hv
    exact hv.only (only_modifyPlayer _ _ fun _ => ⟨rfl, rfl⟩)

/-! ## Hits on players -/

theorem only_wound (hp : w.getPlayer p.id = some p) (damage : Int) (attackerId : ObjectID) :
    Only none w ((((w.setPlayer (p.takeDamage damage)).sendCombatMessage (p.takeDamage damage)
      attackerId (p.takeDamage damage).id damage)).send (p.takeDamage damage).session
        (p.takeDamage damage).statPkt) :=
  ((only_setPlayer (q := p.takeDamage damage) hp rfl).trans (only_send _ _ _)).trans
    (only_send _ _ _)

theorem tended_monsterAttackPlayer (h : Tended held none w) (hp : w.getPlayer id = some p)
    (hfit : HitFits ⟨w, m, id⟩) : Tended held none (w.monsterAttackPlayer env m p) := by
  obtain rfl := getPlayer_id hp
  unfold monsterAttackPlayer
  split
  · exact h
  · next halive =>
      have hwound := h.only (only_wound hp (m.level.toNat * 5) m.id)
      dsimp only
      split
      · next hdead =>
          refine tended_onPlayerDied hwound ?_ (hfit p hp (by simpa using halive) hdead)
          exact getPlayer_setPlayer_self _ _
      · refine hwound.only (only_startRegen ?_)
        exact getPlayer_setPlayer_self _ _

theorem tended_attackVictims (victims : List ObjectID) (h : Tended held none w)
    (hfits : ∀ hit ∈ hitsFrom env m victims w, HitFits hit) :
    Tended held none (victims.foldl (attackVictim env m) w) := by
  apply attackVictims_induction env victims h
  intro v _ victim hmem hv hp
  exact tended_monsterAttackPlayer hv hp (hfits _ hmem)

/-- The death of a player writes no monster, and wakes those near the tile it gets. -/
theorem body_onPlayerDied (env : Env) (p : Player) (w : World) (id : ObjectID) :
    ((w.onPlayerDied env p).getMonster id).map Monster.body =
      (w.getMonster id).map Monster.body := by
  cases hadd : (w.sectorManager.removeObject p.id p.pos).addObject p.id ⟨0, 0⟩ w.map with
  | none =>
      rw [onPlayerDied_of_none hadd]
      rfl
  | some placed =>
      rw [onPlayerDied_of_some hadd]
      exact (inert_activateNearbyMonsters env _ _).getMonster_body id

/-- No monster dies of the hits of another. -/
theorem body_attackVictim (env : Env) (m : Monster) (w : World) (victimId id : ObjectID) :
    ((attackVictim env m w victimId).getMonster id).map Monster.body =
      (w.getMonster id).map Monster.body := by
  unfold attackVictim
  split
  · rfl
  · next victim hv =>
      obtain rfl := getPlayer_id hv
      unfold monsterAttackPlayer
      split
      · rfl
      · dsimp only
        split
        · exact body_onPlayerDied env _ _ id
        · have hstart := only_startRegen (w := ((w.setPlayer
              (victim.takeDamage (m.level.toNat * 5))).sendCombatMessage
                (victim.takeDamage (m.level.toNat * 5)) m.id
                (victim.takeDamage (m.level.toNat * 5)).id (m.level.toNat * 5)).send
                (victim.takeDamage (m.level.toNat * 5)).session
                (victim.takeDamage (m.level.toNat * 5)).statPkt)
              (p := victim.takeDamage (m.level.toNat * 5))
              (getPlayer_setPlayer_self _ _)
          have hlife := congrArg (Option.map Monster.Life.body) (hstart.monsters id (by simp))
          rw [Option.map_map, Option.map_map] at hlife
          exact hlife

/-! ## A tick of a monster -/

/-- **A monster that is awake** may go to another tile. -/
theorem tended_moveMonster (env : Env) (h : Tended held none w) (hm : w.getMonster m.id = some m)
    (halive : m.isDead = false) (hactive : m.isActive = true) (pos : Position) :
    Tended held none (w.moveMonster env m pos) := by
  unfold moveMonster
  split
  · exact h
  · next sm hmove =>
      have hkept := h.monster m.id m hm
      have hmoved := SectorManager.at_tryMoveObject hkept.valid (hkept.stage.at_of_alive halive)
        hmove
      have hsectors := only_sectors w m.id sm
        fun j hj hv => SectorManager.holding_tryMoveObject_of_ne hv hj hmove
      have hwrite : Only (some m.id) { w with sectorManager := sm } _ :=
        only_writeMonster (m := m.setPos pos) rfl hm
      refine (h.change (hsectors.trans hwrite) (getMonster_write rfl hm) (fun _ _ => rfl)
        ⟨hkept.valid, hkept.maxHp, ?_, fun _ _ _ _ _ _ => hactive⟩
          (h.not_player (monsterIdOffset_le_of_getMonster hm))).only (only_sendAll _ _)
      cases hkept.stage with
      | asleep _ h₁ => exact absurd (hactive.symm.trans h₁) (by simp)
      | awake tick _ _ _ htick hdue hone => exact .awake tick halive hactive hmoved htick hdue hone
      | dead _ h₁ => exact absurd (halive.symm.trans h₁) (by simp)
      | dying _ _ h₁ => exact absurd (halive.symm.trans h₁) (by simp)

theorem tended_roamingMove (h : Tended held none w) (hm : w.getMonster m.id = some m)
    (halive : m.isDead = false) (hactive : m.isActive = true) :
    Tended held none (w.roamingMove env m) := by
  rcases roamingMove_cases env m w with heq | ⟨new, -, -, heq⟩
  · rw [heq]
    exact h
  · rw [heq]
    exact tended_moveMonster env h hm halive hactive _

theorem tended_chase (h : Tended held none w) (hm : w.getMonster m.id = some m)
    (halive : m.isDead = false) (hactive : m.isActive = true) :
    Tended held none (w.chase env m pos) := by
  rcases chase_cases env m pos w with heq | ⟨new, -, -, heq⟩
  · rw [heq]
    exact h
  · rw [heq]
    exact tended_moveMonster env h hm halive hactive _

theorem tended_perform (env : Env) (h : Tended held none w) (hm : w.getMonster m.id = some m)
    (halive : m.isDead = false) (hactive : m.isActive = true) (action : AiAction)
    (hfits : ∀ victims, action = .attack victims →
      ∀ hit ∈ hitsFrom env m victims w, HitFits hit) :
    Tended held none (w.perform env m action) := by
  cases action with
  | idle => exact h
  | clearTarget => exact h.only (only_setMonster (m := m.clearTarget) hm rfl)
  | attack victims =>
      exact ((tended_attackVictims victims h (hfits victims rfl)).only
        (only_broadcast _ _ _ _)).only (only_modifyMonster _ _ fun _ => rfl)
  | chase targetPos => exact tended_chase h hm halive hactive
  | setTarget t => exact h.only (only_setMonster (m := m.setTargetPlayerId t) hm rfl)
  | roam => exact tended_roamingMove h hm halive hactive

theorem alive_moveMonster (env : Env) (hm : w.getMonster m.id = some m) (halive : m.isDead = false)
    (pos : Position) :
    ∃ k, (w.moveMonster env m pos).getMonster m.id = some k ∧ k.isDead = false := by
  unfold moveMonster
  split
  · exact ⟨m, hm, halive⟩
  · exact ⟨m.setPos pos, getMonster_write rfl hm, halive⟩

/-- A tick does not kill the monster whose tick it is. -/
theorem alive_perform (env : Env) (hm : w.getMonster m.id = some m) (halive : m.isDead = false)
    (action : AiAction) :
    ∃ k, (w.perform env m action).getMonster m.id = some k ∧ k.isDead = false := by
  cases action with
  | idle => exact ⟨m, hm, halive⟩
  | clearTarget =>
      exact ⟨m.clearTarget, getMonster_write rfl hm, halive⟩
  | attack victims =>
      have hhit := List.foldlRecOn (motive := fun v => (v.getMonster m.id).map Monster.body =
        (w.getMonster m.id).map Monster.body) victims (attackVictim env m) rfl
        fun v hv i _ => (body_attackVictim env m v i m.id).trans hv
      rw [hm, Option.map_some] at hhit
      obtain ⟨k, hk, hkbody⟩ := Option.map_eq_some_iff.mp hhit
      have hdone : ∀ (v : World) (now : ℕ),
          ((v.modifyMonster m.id fun k => k.onAttackPerformed now).getMonster m.id).map
            Monster.life = (v.getMonster m.id).map Monster.life :=
        fun v now => (only_modifyMonster v m.id (f := fun k => k.onAttackPerformed now)
          fun _ => rfl).monsters m.id (by simp)
      obtain ⟨n, hn, hlife⟩ := Option.map_eq_some_iff.mp
        ((hdone ((victims.foldl (attackVictim env m) w).broadcastAttackEffect env m.id m.pos)
          _).trans (congrArg (Option.map Monster.life) hk))
      refine ⟨n, hn, (Monster.isDead_of_life hlife).trans ?_⟩
      exact (congrArg Monster.Body.isDead hkbody).trans halive
  | chase targetPos =>
      change ∃ k, (w.chase env m targetPos).getMonster m.id = some k ∧ k.isDead = false
      rcases chase_cases env m targetPos w with heq | ⟨new, -, -, heq⟩
      · rw [heq]
        exact ⟨m, hm, halive⟩
      · rw [heq]
        exact alive_moveMonster env hm halive _
  | setTarget t =>
      exact ⟨m.setTargetPlayerId t, getMonster_write rfl hm, halive⟩
  | roam =>
      change ∃ k, (w.roamingMove env m).getMonster m.id = some k ∧ k.isDead = false
      rcases roamingMove_cases env m w with heq | ⟨new, -, -, heq⟩
      · rw [heq]
        exact ⟨m, hm, halive⟩
      · rw [heq]
        exact alive_moveMonster env hm halive _

/-! ## Timer events -/

/-- The event in hand is the tick of a live monster: it was awake, and nothing
else is scheduled for it. -/
theorem Stage.of_tick (h : Stage w m (tick :: evs)) (halive : m.isDead = false) :
    m.isActive = true ∧ evs = [] := by
  cases h with
  | asleep _ _ _ hnil => exact absurd hnil (by simp)
  | awake _ _ hactive _ _ _ hone => exact ⟨hactive, (List.cons.inj hone).2⟩
  | dead _ h₁ => exact absurd (halive.symm.trans h₁) (by simp)
  | dying _ _ h₁ => exact absurd (halive.symm.trans h₁) (by simp)

/-- The tick that a monster died with is dropped. -/
theorem Stage.drop_tick (h : Stage w m (tick :: evs)) (htick : tick.type = .monsterAi)
    (hdead : m.isDead = true) : Stage w m evs := by
  cases h with
  | asleep h₁ => exact absurd (h₁.symm.trans hdead) (by simp)
  | awake _ h₁ => exact absurd (h₁.symm.trans hdead) (by simp)
  | dead back _ _ hback hone =>
      rw [(List.cons.inj hone).1, hback] at htick
      exact absurd htick (by simp)
  | dying t back _ hat ht hback hfirst htwo =>
      have hmem := htwo.subset List.mem_cons_self
      rcases List.mem_cons.mp hmem with rfl | hmem
      · exact .dead back hdead hat hback (List.perm_singleton.mp htwo.cons_inv)
      · rw [List.mem_singleton.mp hmem, hback] at htick
        exact absurd htick (by simp)

/-- **The relation of the fire times.** The event in hand is a respawn, and none
is due before it: the monster is dead, and nothing else is scheduled for it. -/
theorem Stage.of_back (h : Stage w m (back :: evs)) (hback : back.type = .monsterRespawn)
    (hturn : ∀ ev ∈ evs, back.fireTime ≤ ev.fireTime) :
    m.isDead = true ∧ (w.sectorManager.holding m.id).At none ∧ evs = [] := by
  cases h with
  | asleep _ _ _ hnil => exact absurd hnil (by simp)
  | awake t _ _ _ ht _ hone =>
      rw [(List.cons.inj hone).1, ht] at hback
      exact absurd hback (by simp)
  | dead _ hdead hat _ hone => exact ⟨hdead, hat, (List.cons.inj hone).2⟩
  | dying t b hdead hat ht hb hfirst htwo =>
      -- the tick is due before the respawn, so it cannot still wait
      have hmem := htwo.subset List.mem_cons_self
      rcases List.mem_cons.mp hmem with rfl | hmem
      · rw [ht] at hback
        exact absurd hback (by simp)
      · rw [List.mem_singleton.mp hmem] at htwo hturn
        have hrest := (htwo.trans (List.Perm.swap _ _ _)).cons_inv
        have hlate := hturn t (hrest.symm.subset List.mem_cons_self)
        omega

namespace Tended

/-- The event is taken from the queue. -/
theorem take (h : Tended [] none w) {k : ℕ} {ev : TimerEvent} (hev : w.timers[k]? = some ev) :
    Tended [ev] none { w with timers := w.timers.eraseIdx k } := by
  refine ⟨h.player, fun id m hm => ?_⟩
  have hkept := h.monster id m hm
  refine ⟨hkept.valid, hkept.maxHp, hkept.stage.congr rfl rfl (Nat.le_refl _) ?_, hkept.noticed⟩
  exact eventsOf_perm (Transition.perm_eraseIdx hev).symm id

/-- The event in hand is done with, and nothing came of it. -/
theorem drop {ev : TimerEvent} (h : Tended [ev] none w)
    (hown : ∀ m, w.getMonster ev.targetId = some m →
      Stage w m (eventsOf ev.targetId ([ev] ++ w.timers)) →
        Stage w m (eventsOf ev.targetId w.timers)) : Tended [] none w := by
  refine ⟨h.player, fun id m hm => ?_⟩
  have hkept := h.monster id m hm
  refine ⟨hkept.valid, hkept.maxHp, ?_, hkept.noticed⟩
  by_cases hid : ev.targetId = id
  · subst hid
    exact hown m hm hkept.stage
  · have hother := eventsOf_other (fun _ : ev.type = .monsterAi => hid) (fun _ => hid) ev.fireTime
      ev.owner
    have hstage := hkept.stage
    rw [eventsOf_append, hother, List.nil_append] at hstage
    exact hstage

end Tended

theorem eventsOf_held {ev : TimerEvent} (htype : ev.type = .monsterAi ∨ ev.type = .monsterRespawn)
    (evs : List TimerEvent) :
    eventsOf ev.targetId ([ev] ++ evs) = ev :: eventsOf ev.targetId evs := by
  rw [eventsOf_append, eventsOf_own rfl htype, List.singleton_append]

/-- The events of the others do not change when one monster's is done with. -/
theorem eventsOf_dropped {ev : TimerEvent} (j : ObjectID) (hj : j ≠ ev.targetId) :
    eventsOf j [] = eventsOf j [ev] :=
  (eventsOf_other (fun _ : ev.type = .monsterAi => Ne.symm hj) (fun _ => Ne.symm hj) ev.fireTime
    ev.owner).symm

/-- **A `MONSTER_AI` event keeps the life cycle.** A dead monster drops it; one
that nobody watches goes to sleep; any other schedules the next one. -/
theorem tended_monsterAi (h : Tended [tick] none w) (htick : tick.type = .monsterAi)
    (hfits : ∀ hit ∈ hitsOf env tick.targetId w, HitFits hit) :
    Tended [] none (w.monsterAi env tick.targetId) := by
  unfold hitsOf at hfits
  unfold monsterAi
  split
  · next hnone => exact h.drop fun m hm => absurd (hnone.symm.trans hm) (by simp)
  · next monster hm =>
      rw [hm] at hfits
      dsimp only at hfits
      have hkept := h.monster _ monster hm
      have hstage := hkept.stage
      rw [eventsOf_held (.inl htick)] at hstage
      have hid := getMonster_id hm
      split
      · next hdead =>
          refine h.drop fun m hm' hstage' => ?_
          obtain rfl := Option.some.inj (hm.symm.trans hm')
          exact hstage.drop_tick htick hdead
      · next halive =>
          rw [if_neg halive] at hfits
          have halive : monster.isDead = false := by simpa using halive
          obtain ⟨hactive, hnil⟩ := hstage.of_tick halive
          have hplayer := h.not_player (monsterIdOffset_le_of_getMonster hm)
          split
          · next hobs =>
              -- nobody watches
              refine h.change (only_writeMonster (m := monster.deactivate) hid hm)
                (getMonster_write hid hm) eventsOf_dropped ⟨hkept.valid, hkept.maxHp, ?_, ?_⟩
                  hplayer
              · exact .asleep halive rfl (hstage.at_of_alive halive) hnil
              · intro _ k pos _ hw hview
                have hfar := not_isInView_of_no_observer h.player hobs hw
                exact absurd (hview.symm.trans hfar) (by simp)
          · next hobs =>
              rw [if_neg hobs] at hfits
              rw [← hid] at hm
              have hperformed := tended_perform env h hm halive hactive
                (w.aiAction env monster) fun victims hact => by
                  rw [hact] at hfits
                  exact hfits
              obtain ⟨k, hk, hkalive⟩ := alive_perform env hm halive
                (w.aiAction env monster)
              rw [hid] at hk
              have hkk := hperformed.monster _ k hk
              have hkstage := hkk.stage
              rw [eventsOf_held (.inl htick)] at hkstage
              obtain ⟨hkactive, hknil⟩ := hkstage.of_tick hkalive
              have hat := hkstage.at_of_alive hkalive
              rw [getMonster_id hk] at hat
              exact hperformed.change (only_schedule _ _ _ _) hk eventsOf_dropped
                (.schedule (getMonster_id hk) hkk.valid hkk.maxHp hkalive hkactive hat hknil)
                (hperformed.not_player (monsterIdOffset_le_of_getMonster hk))

/-- A monster that has just come back is woken when somebody watches; else nobody
needs it awake. -/
theorem tended_comeBack (h : Tended [back] none w) (ho : Only (some back.targetId) w v)
    (hm : v.getMonster back.targetId = some m) (hvalid : back.targetId ≠ invalidId)
    (hmaxHp : 0 < m.maxHp) (halive : m.isDead = false) (hactive : m.isActive = false)
    (hat : (v.sectorManager.holding back.targetId).At (some m.pos))
    (hnil : eventsOf back.targetId v.timers = []) (hplayers : v.playerPos = w.playerPos) :
    Tended [] none (if v.hasObserverNearby env m then
      match m.tryActivate with
      | none => v
      | some m => (v.setMonster m).addTimer .monsterAi back.targetId monsterAiTickMs none
      else v) := by
  have hid := getMonster_id hm
  have hplayer : v.playerPos back.targetId = none := by
    rw [hplayers]
    exact h.not_player (monsterIdOffset_le_of_getMonster hm)
  split
  · rw [Monster.tryActivate, if_neg (by simp [hactive])]
    dsimp only
    have hwrite := only_writeMonster (m := { m with isActive := true }) hid hm
    refine h.change ((ho.trans hwrite).trans (only_schedule _ _ _ _)) (getMonster_write hid hm)
      eventsOf_dropped ?_ hplayer
    exact .schedule hid hvalid hmaxHp halive rfl hat hnil
  · next hobs =>
      refine h.change ho hm eventsOf_dropped ⟨hvalid, hmaxHp,
        .asleep halive hactive (hid.symm ▸ hat) hnil, fun _ k pos _ hw hview => ?_⟩ hplayer
      have hfar := not_isInView_of_no_observer (hplayers ▸ h.player) hobs hw
      exact absurd (hview.symm.trans hfar) (by simp)

/-- **A `MONSTER_RESPAWN` event that is handled in its turn** brings the monster
back, or schedules another attempt. -/
theorem tended_respawnMonster (h : Tended [back] none w) (hback : back.type = .monsterRespawn)
    (hturn : ∀ ev ∈ w.timers, back.fireTime ≤ ev.fireTime) :
    Tended [] none (w.respawnMonster env back.targetId) := by
  unfold respawnMonster
  split
  · next hnone => exact h.drop fun m hm => absurd (hnone.symm.trans hm) (by simp)
  · next monster hm =>
      have hkept := h.monster _ monster hm
      have hstage := hkept.stage
      rw [eventsOf_held (.inr hback)] at hstage
      obtain ⟨hdead, hnowhere, hnil⟩ := hstage.of_back hback fun ev hev =>
        hturn ev (List.mem_filter.mp hev).1
      have hid := getMonster_id hm
      split
      · -- no tile: it stays dead
        have hevs := eventsOf_schedule .monsterRespawn [] w back.targetId
          monsterRespawnMs (.inr rfl)
        rw [List.nil_append w.timers, hnil, List.nil_append] at hevs
        exact h.change (only_schedule _ _ _ _) hm eventsOf_dropped ⟨hkept.valid, hkept.maxHp,
          .dead _ hdead hnowhere rfl hevs, fun halive => absurd (halive.symm.trans hdead) (by simp)⟩
            (h.not_player (monsterIdOffset_le_of_getMonster hm))
      · next sm out hadd =>
          have hsectors := only_sectors w back.targetId sm
            fun j hj hv => (SectorManager.holding_addObject hv hadd).trans (if_neg hj)
          have hwrite := only_writeMonster (w := { w with sectorManager := sm })
            (m := monster.respawn.setPos out) hid hm
          have hat : (sm.holding back.targetId).At (some out) := by
            rw [SectorManager.holding_addObject hkept.valid hadd, if_pos rfl]
            rw [hid] at hnowhere
            exact hnowhere.put
          refine tended_comeBack h ((hsectors.trans hwrite).trans
            ((only_broadcast env _ _ _).of_none _)) (getMonster_write hid hm) hkept.valid
              hkept.maxHp ?_ rfl hat hnil rfl
          exact decide_eq_false (Int.not_le.mpr hkept.maxHp)

end Mmorpg.World
