/-
The tiles and sectors that name a player are at most its own.

`Tidy` asks less than the placement invariant: a player may be without a tile,
as a teleport or a death that finds none leaves it. So it needs no free tiles,
and only a login that writes a player over another breaks it.
-/
import SimplestMmorpg.Game.Holdings
import SimplestMmorpg.Game.Login
import SimplestMmorpg.Game.Placement

set_option autoImplicit false

namespace Mmorpg.World

/-- Where a player is, by its own account. -/
def playerPos (w : World) (id : ObjectID) : Option Position := (w.getPlayer id).map (·.pos)

/-- Every player holds at most its tile and its sector; who is not in the world
holds nothing. -/
structure Tidy (w : World) : Prop where
  playerId : ∀ id p, w.getPlayer id = some p → id < maxPlayers
  within : ∀ id, id < monsterIdOffset → (w.sectorManager.holding id).Within (w.playerPos id)

variable {env : Env} {w w' : World} {id : ObjectID} {p q : Player} {m : Monster}
  {pos : Position} {sm : SectorManager}

theorem playerPos_of_getPlayer (hp : w.getPlayer id = some p) : w.playerPos id = some p.pos := by
  rw [playerPos, hp, Option.map_some]

theorem playerPos_setPlayer (w : World) (q : Player) (id : ObjectID) :
    (w.setPlayer q).playerPos id = if id = q.id then some q.pos else w.playerPos id := by
  rw [playerPos, getPlayer_setPlayer]
  split <;> rfl

theorem ne_invalid_of_lt (hid : id < monsterIdOffset) : id ≠ invalidId := by
  unfold ObjectID monsterIdOffset at *
  unfold invalidId
  omega

theorem lt_offset_of_lt (hid : id < maxPlayers) : id < monsterIdOffset := by
  unfold ObjectID maxPlayers at *
  unfold monsterIdOffset
  omega

namespace Tidy

/-- A change of what one object holds, and of that object. -/
theorem update (h : Tidy w) (id : ObjectID)
    (hothers : ∀ j, j ≠ id → j ≠ invalidId →
      w'.sectorManager.holding j = w.sectorManager.holding j)
    (hplayers : ∀ j, j ≠ id → w'.playerPos j = w.playerPos j)
    (hid : id < monsterIdOffset → (w'.sectorManager.holding id).Within (w'.playerPos id))
    (hlt : ∀ p, w'.getPlayer id = some p → id < maxPlayers) : Tidy w' where
  playerId j p hp := by
    by_cases hj : j = id
    · rw [hj] at hp ⊢
      exact hlt p hp
    · have hpos := hplayers j hj
      rw [playerPos_of_getPlayer hp] at hpos
      obtain ⟨q, hq, -⟩ := Option.map_eq_some_iff.mp hpos.symm
      exact h.playerId j q hq
  within j hj := by
    by_cases hji : j = id
    · rw [hji] at hj ⊢
      exact hid hj
    · rw [hothers j hji (ne_invalid_of_lt hj), hplayers j hji]
      exact h.within j hj

/-- A change of neither. -/
theorem of_same (h : Tidy w) (hsm : w'.sectorManager = w.sectorManager)
    (hplayers : ∀ j, w'.playerPos j = w.playerPos j) : Tidy w' where
  playerId j p hp := by
    have hpos := hplayers j
    rw [playerPos_of_getPlayer hp] at hpos
    obtain ⟨q, hq, -⟩ := Option.map_eq_some_iff.mp hpos.symm
    exact h.playerId j q hq
  within j hj := by
    rw [hsm, hplayers]
    exact h.within j hj

theorem inert (h : Tidy w) (hi : Inert w w') : Tidy w' := by
  refine h.of_same hi.sectorManager fun j => ?_
  have hpos := congrArg (Option.map Player.Ident.pos) (hi.players j)
  rw [Option.map_map, Option.map_map] at hpos
  exact hpos

theorem sendAll (h : Tidy w) (pkts : List (ConnId × ScPacket)) : Tidy (w.sendAll pkts) :=
  h.of_same rfl fun _ => rfl

theorem send (h : Tidy w) (conn : ConnId) (pkt : ScPacket) : Tidy (w.send conn pkt) :=
  h.of_same rfl fun _ => rfl

theorem addTimer (h : Tidy w) (type : TimerType) (id : ObjectID) (delayMs : ℕ) (owner : Option ℕ) :
    Tidy (w.addTimer type id delayMs owner) :=
  h.of_same rfl fun _ => rfl

/-- A player is written, and only it holds something else than before. -/
theorem place (h : Tidy w) (hid : q.id < maxPlayers)
    (hothers : ∀ j, j ≠ q.id → j ≠ invalidId → sm.holding j = w.sectorManager.holding j)
    (hown : (sm.holding q.id).Within (some q.pos)) :
    Tidy ({ w with sectorManager := sm }.setPlayer q) := by
  refine h.update q.id hothers (fun j hj => ?_) (fun _ => ?_) (fun _ _ => hid)
  · rw [playerPos_setPlayer, if_neg hj]
    rfl
  · rw [playerPos_setPlayer, if_pos rfl]
    exact hown

/-- Only a monster holds something else than before. -/
theorem monster (h : Tidy w) (hid : monsterIdOffset ≤ id)
    (hothers : ∀ j, j ≠ id → j ≠ invalidId →
      w'.sectorManager.holding j = w.sectorManager.holding j)
    (hplayers : w'.players = w.players) : Tidy w' := by
  have hget : ∀ j, w'.getPlayer j = w.getPlayer j := fun j =>
    congrArg (fun t : PlayerTable => t.find j) hplayers
  have hpos : ∀ j, w'.playerPos j = w.playerPos j := fun j => by
    rw [playerPos, hget, playerPos]
  refine h.update id hothers (fun j _ => hpos j) (fun hlt => absurd hlt (Nat.not_lt.mpr hid)) ?_
  intro p hp
  exact h.playerId id p ((hget id).symm.trans hp)

theorem within_of_getPlayer (h : Tidy w) (hp : w.getPlayer id = some p) :
    (w.sectorManager.holding id).Within (some p.pos) := by
  rw [← playerPos_of_getPlayer hp]
  exact h.within id (lt_offset_of_lt (h.playerId id p hp))

theorem ne_invalid (h : Tidy w) (hp : w.getPlayer id = some p) : id ≠ invalidId :=
  ne_invalid_of_lt (lt_offset_of_lt (h.playerId id p hp))

end Tidy

/-! ## Requests -/

theorem tidy_processMove (h : Tidy w) (session : ConnId) (data : Bytes) :
    Tidy (w.processMove env id session data) := by
  rcases processMove_cases env id session data w with
    heq | ⟨player, new, sm, hp, -, -, -, hmove, heq⟩
  · rw [heq]
    exact h
  · rw [heq]
    obtain rfl := getPlayer_id hp
    have hne := h.ne_invalid hp
    have hset := h.place (q := (player.setPos new).onMoved w.now) (h.playerId _ player hp)
      (fun j hj hji => SectorManager.holding_tryMoveObject_of_ne hji hj hmove)
      (SectorManager.within_tryMoveObject hne (h.within_of_getPlayer hp) hmove)
    exact ((hset.sendAll _).inert (inert_activateNearbyMonsters env _ _)).send _ _

/-- A teleport changes nothing of what others hold. -/
theorem holding_placeTeleported_of_ne (env : Env) (w : World) {j : ObjectID} (hj : j ≠ id)
    (hv : j ≠ invalidId) : (w.placeTeleported env id sm).1.holding j = sm.holding j := by
  rcases placeTeleported_cases env id w sm with ⟨c, hadd⟩ | ⟨-, -, heq⟩
  · exact (SectorManager.holding_addObject hv hadd).trans (if_neg hj)
  · rw [heq]

/-- Both attempts of a teleport, and that neither finds a tile. -/
theorem within_placeTeleported (env : Env) (w : World) (hid : id ≠ invalidId)
    (hw : (sm.holding id).Within none) :
    ((w.placeTeleported env id sm).1.holding id).Within (some (w.placeTeleported env id sm).2) := by
  rcases placeTeleported_cases env id w sm with ⟨c, hadd⟩ | ⟨-, -, heq⟩
  · generalize w.placeTeleported env id sm = placed at hadd ⊢
    rw [SectorManager.holding_addObject (q := placed.2) hid hadd, if_pos rfl]
    exact hw.put
  · rw [heq]
    exact hw.of_none

/-- Nor does taking the player off its tile first. -/
theorem holding_teleported {sm' : SectorManager} {new : Position} {j : ObjectID}
    (hplaced : w.placeTeleported env id (w.sectorManager.removeObject id pos) = (sm', new))
    (hj : j ≠ id) (hv : j ≠ invalidId) : sm'.holding j = w.sectorManager.holding j := by
  have hsame : (w.placeTeleported env id (w.sectorManager.removeObject id pos)).1.holding j =
      (w.sectorManager.removeObject id pos).holding j := holding_placeTeleported_of_ne env w hj hv
  rw [hplaced] at hsame
  exact hsame.trans ((SectorManager.holding_removeObject _ hv _ _).trans (if_neg hj))

theorem tidy_processTeleport (h : Tidy w) (session : ConnId) :
    Tidy (w.processTeleport env id session) := by
  rcases processTeleport_cases env id session w with heq | ⟨player, sm, new, hp, hplaced, heq⟩
  · rw [heq]
    exact h
  · rw [heq]
    obtain rfl := getPlayer_id hp
    have hne := h.ne_invalid hp
    have hgone : ((w.sectorManager.removeObject player.id player.pos).holding
        player.id).Within none := by
      rw [SectorManager.holding_removeObject _ hne, if_pos rfl]
      exact (h.within_of_getPlayer hp).take
    have hown := within_placeTeleported env w hne hgone
    rw [hplaced] at hown
    have hset := h.place (q := player.setPos new) (h.playerId _ player hp)
      (fun j hj hji => holding_teleported hplaced hj hji) hown
    exact ((hset.sendAll _).inert (inert_activateNearbyMonsters env _ _)).send _ _

theorem tidy_buryMonster (h : Tidy w) (hid : monsterIdOffset ≤ m.id) :
    Tidy (w.buryMonster env m) := by
  refine h.monster hid (fun j hj hji => ?_) rfl
  exact (SectorManager.holding_removeObject _ hji _ _).trans (if_neg hj)

theorem tidy_setMonster (h : Tidy w) (m : Monster) : Tidy (w.setMonster m) :=
  h.of_same rfl fun _ => rfl

theorem tidy_strike {target : Monster} (h : Tidy w) (hid : monsterIdOffset ≤ target.id)
    (damage : Int) : Tidy (w.strike env id damage target) := by
  unfold strike
  dsimp only
  have hset := tidy_setMonster h (target.takeDamage damage)
  split
  · exact hset
  · next player hp =>
      obtain rfl := getPlayer_id hp
      have hmsg := hset.inert (inert_sendCombatMessage hp player.id
        (target.takeDamage damage).id damage)
      have hp1 : ((w.setMonster (target.takeDamage damage)).sendCombatMessage player player.id
        (target.takeDamage damage).id damage).getPlayer player.id = some player := hp
      split
      · exact tidy_buryMonster (hmsg.inert (inert_rewardKiller hp1)) hid
      · exact hmsg

theorem tidy_processAttack (h : Tidy w) : Tidy (w.processAttack env id) := by
  apply processAttack_of_inert h
  case strike =>
    intro v _ target _ hm _ hv damage
    exact tidy_strike hv (monsterIdOffset_le_of_getMonster hm) damage
  case inert =>
    intro v v' hv hi
    exact hv.inert hi

/-! ## Monsters -/

theorem tidy_moveMonster (h : Tidy w) (hid : monsterIdOffset ≤ m.id) (pos : Position) :
    Tidy (w.moveMonster env m pos) := by
  unfold moveMonster
  split
  · exact h
  · next sm hmove =>
      exact h.monster hid
        (fun j hj hji => SectorManager.holding_tryMoveObject_of_ne hji hj hmove) rfl

/-- A death takes the player from its tile, and gives it another if there is one. -/
theorem tidy_onPlayerDied (h : Tidy w) (hp : w.getPlayer p.id = some p) :
    Tidy (w.onPlayerDied env p) := by
  have hne := h.ne_invalid hp
  have hlt := h.playerId _ p hp
  have hgone : ((w.sectorManager.removeObject p.id p.pos).holding p.id).Within none := by
    rw [SectorManager.holding_removeObject _ hne, if_pos rfl]
    exact (h.within_of_getPlayer hp).take
  have hleft : ∀ j, j ≠ p.id → j ≠ invalidId →
      (w.sectorManager.removeObject p.id p.pos).holding j = w.sectorManager.holding j :=
    fun j hj hji => (SectorManager.holding_removeObject _ hji _ _).trans (if_neg hj)
  have hunseen := h.sendAll (ViewProcessor.sendDisappear env w p)
  cases hadd : (w.sectorManager.removeObject p.id p.pos).addObject p.id ⟨0, 0⟩ w.map with
  | none =>
      rw [onPlayerDied_of_none hadd]
      exact hunseen.place (q := p.die.stopRegen) hlt hleft hgone.of_none
  | some placed =>
      obtain ⟨sm, respawn⟩ := placed
      rw [onPlayerDied_of_some hadd]
      have hown : (sm.holding p.id).Within (some respawn) := by
        rw [SectorManager.holding_addObject hne hadd, if_pos rfl]
        exact hgone.put
      have hothers : ∀ j, j ≠ p.id → j ≠ invalidId →
          sm.holding j = w.sectorManager.holding j := fun j hj hji =>
        ((SectorManager.holding_addObject hji hadd).trans (if_neg hj)).trans (hleft j hj hji)
      have hset := hunseen.place (q := afterDeath p respawn) hlt hothers hown
      exact (((hset.send _ _).send _ _).sendAll _).inert (inert_activateNearbyMonsters env _ _)

theorem tidy_startRegen (h : Tidy w) (hp : w.getPlayer p.id = some p) : Tidy (w.startRegen p) := by
  rcases inert_startRegen hp with heq | ⟨v, hv, q, -, heq⟩
  · rw [heq]
    exact h
  · rw [heq]
    exact (h.inert hv).addTimer _ _ _ _

theorem tidy_monsterAttackPlayer (h : Tidy w) (hp : w.getPlayer p.id = some p) :
    Tidy (w.monsterAttackPlayer env m p) := by
  unfold monsterAttackPlayer
  split
  · exact h
  · have hwound := h.inert (inert_wound hp (m.level.toNat * 5) m.id)
    dsimp only
    split
    · exact tidy_onPlayerDied hwound (getPlayer_setPlayer_self _ _)
    · exact tidy_startRegen hwound (getPlayer_setPlayer_self _ _)

theorem tidy_attackVictims (victims : List ObjectID) (h : Tidy w) :
    Tidy (victims.foldl (attackVictim env m) w) := by
  apply attackVictims_induction env victims h
  intro v _ victim _ hv hp
  obtain rfl := getPlayer_id hp
  exact tidy_monsterAttackPlayer hv hp

theorem tidy_perform (h : Tidy w) (hid : monsterIdOffset ≤ m.id) (action : AiAction) :
    Tidy (w.perform env m action) := by
  cases action with
  | idle => exact h
  | clearTarget => exact tidy_setMonster h m.clearTarget
  | attack victims =>
      exact ((tidy_attackVictims victims h).inert (inert_broadcastAttackEffect _ _ _)).inert
        (inert_modifyMonster fun _ => rfl)
  | chase targetPos =>
      change Tidy (w.chase env m targetPos)
      rcases chase_cases env m targetPos w with heq | ⟨new, -, -, heq⟩
      · rw [heq]
        exact h
      · rw [heq]
        exact tidy_moveMonster h hid _
  | setTarget t => exact tidy_setMonster h (m.setTargetPlayerId t)
  | roam =>
      change Tidy (w.roamingMove env m)
      rcases roamingMove_cases env m w with heq | ⟨new, -, -, heq⟩
      · rw [heq]
        exact h
      · rw [heq]
        exact tidy_moveMonster h hid _

theorem tidy_monsterAi (h : Tidy w) : Tidy (w.monsterAi env id) := by
  have hspec := monsterAi_spec env id w
  generalize w.monsterAi env id = v at hspec
  cases hspec with
  | nothing => exact h
  | asleep m hm => exact tidy_setMonster h _
  | tick m hm halive hhits =>
      have hid := monsterIdOffset_le_of_getMonster hm
      obtain rfl := getMonster_id hm
      exact (tidy_perform h hid _).addTimer _ _ _ _

theorem tidy_respawnMonster (h : Tidy w) : Tidy (w.respawnMonster env id) := by
  rcases respawnMonster_cases env id w with
    heq | ⟨monster, -, -, heq⟩ | ⟨monster, sm, out, v, hm, hadd, hv, heq⟩
  · rw [heq]
    exact h
  · rw [heq]
    exact h.addTimer _ _ _ _
  · have hset : Tidy ({ w with sectorManager := sm }.setMonster (monster.respawn.setPos out)) :=
      h.monster (monsterIdOffset_le_of_getMonster hm)
        (fun j hj hji => (SectorManager.holding_addObject hji hadd).trans (if_neg hj)) rfl
    have hcast : Tidy v := by
      rw [hv]
      exact hset.sendAll _
    rcases heq with heq | ⟨monster', -, heq⟩
    · rw [heq]
      exact hcast
    · rw [heq]
      exact (tidy_setMonster hcast _).addTimer _ _ _ _

theorem tidy_hpRegen (h : Tidy w) : Tidy (w.hpRegen id) := by
  obtain ⟨v, hv, heq | ⟨-, q, -, -, heq⟩⟩ := inert_hpRegen w id
  · rw [heq]
    exact h.inert hv
  · rw [heq]
    exact (h.inert hv).addTimer _ _ _ _

/-! ## Login and logout -/

/-- A login onto a session without a player. -/
theorem tidy_addPlayer (h : Tidy w) {session : ConnId} {row : PlayerRow} (hid : id < maxPlayers)
    (hnew : w.getPlayer id = none) (hadd : w.addPlayer id session row = some w') : Tidy w' := by
  unfold addPlayer at hadd
  dsimp only at hadd
  split at hadd
  · exact absurd hadd (by simp)
  · next sm spawn hsm =>
      rw [← Option.some.inj hadd]
      have hlt := lt_offset_of_lt hid
      have hnone := h.within id hlt
      rw [playerPos, hnew, Option.map_none] at hnone
      have hbase : Tidy { w with nextSerial := w.nextSerial + 1 } := h.of_same rfl fun _ => rfl
      refine hbase.place (q := (Player.ofRow id session row w.nextSerial).setPos spawn) hid
        (fun j hj hji => (SectorManager.holding_addObject hji hsm).trans (if_neg hj)) ?_
      have hput := SectorManager.holding_addObject (ne_invalid_of_lt hlt) hsm
      rw [if_pos rfl] at hput
      exact hput ▸ hnone.put

/-- A logout: nothing is left of the player. -/
theorem tidy_leave (h : Tidy w) (hp : w.getPlayer p.id = some p) : Tidy (w.leave env p) := by
  have hne := h.ne_invalid hp
  refine h.update p.id (fun j hj hji => ?_) (fun j hj => ?_) (fun _ => ?_) fun q hq => ?_
  · exact (SectorManager.holding_removeObject _ hji _ _).trans (if_neg hj)
  · rw [playerPos, getPlayer_leave, if_neg hj]
    rfl
  · rw [playerPos, getPlayer_leave, if_pos rfl, Option.map_none]
    have htake := SectorManager.holding_removeObject w.sectorManager hne p.id p.pos
    rw [if_pos rfl] at htake
    exact htake ▸ (h.within_of_getPlayer hp).take
  · rw [getPlayer_leave, if_pos rfl] at hq
    exact absurd hq (by simp)

/-! ## The start -/

theorem tidy_spawnMonsters (spawns : List MonsterSpawnData) (h : Tidy w) :
    Tidy (w.spawnMonsters spawns) := by
  induction spawns generalizing w with
  | nil => exact h
  | cons data rest ih =>
      refine ih ?_
      unfold spawnMonster
      dsimp only
      split
      · exact h
      · next sm spawn hadd =>
          exact h.monster (Nat.le_add_right _ _)
            (fun j hj hji => (SectorManager.holding_addObject hji hadd).trans (if_neg hj)) rfl

theorem tidy_init (map : Map) (spawns : List MonsterSpawnData) (now : ℕ) :
    Tidy (GameWorld.init map spawns now).world := by
  have hempty : Tidy (World.empty map now) :=
    ⟨fun id p hp => absurd hp (by simp [getPlayer, World.empty]),
      fun id hid => (SectorManager.holding_init (ne_invalid_of_lt hid)).within⟩
  exact (tidy_spawnMonsters spawns hempty).addTimer _ _ _ _

end Mmorpg.World
