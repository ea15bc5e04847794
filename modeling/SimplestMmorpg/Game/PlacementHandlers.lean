/-
Every handler keeps everybody in place, under the conditions it needs.

Most need none. A teleport and a death take the player from its tile before
they look for another, so they need one to be free: `TeleportFits` and
`HitFits`. A login writes the player under the id of the session, so it needs
that the session has no player yet.
-/
import SimplestMmorpg.Game.Placement

set_option autoImplicit false

namespace Mmorpg.World

variable {w w' : World} {env : Env} {id : ObjectID} {p q : Player} {m m' : Monster}
  {pos : Position} {sm : SectorManager}

/-! ## Requests -/

/-- **A move request keeps everybody in place.** -/
theorem placed_processMove (h : Placed w) (session : ConnId) (data : Bytes) :
    Placed (w.processMove env id session data) := by
  rcases processMove_cases env id session data w with
    heq | ⟨player, new, sm, hp, -, -, hwalk, hmove, heq⟩
  · rw [heq]
    exact h
  · rw [heq]
    obtain rfl := getPlayer_id hp
    have hsm := h.agrees.tryMoveObject (h.player_ne_invalid hp) (h.place_player hp) hmove
    have hset := h.setPlayer (q := (player.setPos new).onMoved w.now) (h.playerId _ player hp) hsm
      hwalk
    exact ((hset.sendAll _).inert (inert_activateNearbyMonsters env _ _)).send _ _

/-- One of the two attempts of a teleport finds a tile. -/
def TeleportFits (env : Env) (id : ObjectID) (w : World) : Prop :=
  ∀ player, w.getPlayer id = some player →
    let sm := w.sectorManager.removeObject id player.pos
    (sm.addObject id env.target w.map).isSome ∨ (sm.addObject id ⟨0, 0⟩ w.map).isSome

instance (env : Env) (id : ObjectID) (w : World) : Decidable (TeleportFits env id w) :=
  inferInstanceAs (Decidable (∀ player ∈ w.getPlayer id,
    ((w.sectorManager.removeObject id player.pos).addObject id env.target w.map).isSome ∨
      ((w.sectorManager.removeObject id player.pos).addObject id ⟨0, 0⟩ w.map).isSome))

theorem agrees_placeTeleported {place : SpatialIndex.Placement ObjectID Position}
    (hsm : sm.Agrees place) (hid : id ≠ invalidId) (hi : place id = none)
    (hfit : (sm.addObject id env.target w.map).isSome ∨
      (sm.addObject id ⟨0, 0⟩ w.map).isSome)
    {sm' : SectorManager} {new : Position}
    (hplaced : w.placeTeleported env id sm = (sm', new)) :
    sm'.Agrees (Function.update place id (some new)) ∧ w.map.isWalkable new.x new.y = true := by
  rcases placeTeleported_cases env id w sm with ⟨c, hadd⟩ | ⟨h1, h2, -⟩
  · rw [hplaced] at hadd
    obtain ⟨hag, hwalk, -⟩ := hsm.addObject hid hi hadd
    exact ⟨hag, hwalk⟩
  · simp [h1, h2] at hfit

/-- **A teleport that finds a tile keeps everybody in place.** -/
theorem placed_processTeleport (h : Placed w) (session : ConnId) (hfit : TeleportFits env id w) :
    Placed (w.processTeleport env id session) := by
  rcases processTeleport_cases env id session w with heq | ⟨player, sm, new, hp, hplaced, heq⟩
  · rw [heq]
    exact h
  · rw [heq]
    obtain rfl := getPlayer_id hp
    have hne := h.player_ne_invalid hp
    have hgone := h.agrees.removeObject hne (h.place_player hp)
    obtain ⟨hsm, hwalk⟩ := agrees_placeTeleported hgone hne (Function.update_self _ _ _)
      (hfit player hp) hplaced
    rw [Function.update_idem] at hsm
    have hset := h.setPlayer (q := player.setPos new) (h.playerId _ player hp) hsm hwalk
    exact ((hset.sendAll _).inert (inert_activateNearbyMonsters env _ _)).send _ _

/-! ## Attacks of players -/

theorem takeDamage_body {dmg : Int} (halive : m.isDead = false)
    (h : (m.takeDamage dmg).isDead = false) : (m.takeDamage dmg).body = m.body := by
  rw [Monster.body, Monster.body, h, halive]
  rfl

theorem Inert.monsterSpecs (h : Inert w w') :
    w'.monsters.entries.map Monster.spec = w.monsters.entries.map Monster.spec := by
  have hspec := congrArg (List.map Monster.Body.spec) h.monsters
  rw [List.map_map, List.map_map] at hspec
  exact hspec

/-- A monster that was just killed is nowhere, whatever inert changes came since. -/
theorem place_buryMonster (env : Env) (hm : w.getMonster m.id = some m) (hspec : m'.spec = m.spec)
    (hdead : m'.isDead = true) (hi : Inert (w.setMonster m') w') :
    (w'.buryMonster env m').place = Function.update w.place m.id none := by
  have hid : m'.id = m.id := congrArg Monster.Spec.id hspec
  have hset := place_setMonster (w := w) (m := m') (by rw [hid, hm])
  rw [hdead, if_pos rfl, hid] at hset
  exact hi.place.trans hset

/-- A monster that was just killed, with nothing but inert changes since, is
taken out of the world. -/
theorem placed_buryMonster (h : Placed w) (hm : w.getMonster m.id = some m)
    (halive : m.isDead = false) (hspec : m'.spec = m.spec) (hpos : m'.pos = m.pos)
    (hdead : m'.isDead = true) (hi : Inert (w.setMonster m') w') :
    Placed (w'.buryMonster env m') := by
  have hid : m'.id = m.id := congrArg Monster.Spec.id hspec
  have hm' : w.getMonster m'.id = some m := by rw [hid, hm]
  have hat : w.place m.id = some m.pos := by
    rw [place_of_getMonster hm, halive, if_neg (by simp)]
  have hplace := place_buryMonster env hm hspec hdead hi
  have hsm : (w'.buryMonster env m').sectorManager = w.sectorManager.removeObject m.id m.pos := by
    rw [← hid, ← hpos]
    exact congrArg (fun sm => SectorManager.removeObject sm m'.id m'.pos) hi.sectorManager
  have hpend : ∀ k, (w'.buryMonster env m').pendingRespawns k =
      w.pendingRespawns k + if m.id = k then 1 else 0 := by
    intro k
    have hk : (w'.buryMonster env m').pendingRespawns k =
        w'.pendingRespawns k + if m'.id = k then 1 else 0 := by
      simp [buryMonster, addTimer, broadcast, World.sendAll, pendingRespawns, List.countP_append,
        List.countP_cons]
    rw [hk, hi.pendingRespawns, hid]
    rfl
  have h0 := h.pending_eq_zero hat
  refine h.update (o := none) ?_ hplace hi.map (fun q hq => absurd hq (by simp))
    (fun k p hp => ?_) ?_ ?_ ?_
  · rw [hsm]
    exact h.agrees.removeObject (h.monster_ne_invalid hm) hat
  · obtain ⟨q, hq, -⟩ := hi.player (show w'.getPlayer k = some p from hp)
    exact h.playerId k q hq
  · exact hi.monsterSpecs.trans (MonsterTable.map_set hm' hspec)
  · intro k
    rw [hpend]
    split
    · next hk => rw [← hk, h0]
    · exact h.respawns k
  · intro k hk
    rw [hplace]
    by_cases hkm : k = m.id
    · subst hkm
      exact ⟨monsterIdOffset_le_of_getMonster hm, Function.update_self _ _ _⟩
    · rw [hpend, if_neg (Ne.symm hkm), Nat.add_zero] at hk
      rw [Function.update_of_ne hkm]
      exact h.resting k hk

/-- A hit on a live monster by a player in the world keeps everybody in place;
when it kills, the monster is taken out. -/
theorem placed_strike {target : Monster} (h : Placed w) (hp : w.getPlayer id = some p)
    (hm : w.getMonster target.id = some target) (halive : target.isDead = false)
    (damage : Int) : Placed (w.strike env id damage target) := by
  obtain rfl := getPlayer_id hp
  unfold strike
  dsimp only
  rw [getPlayer_setMonster, hp]
  dsimp only
  have hp1 : (w.setMonster (target.takeDamage damage)).getPlayer p.id = some p := hp
  have hmsg := inert_sendCombatMessage hp1 p.id (target.takeDamage damage).id damage
  split
  · next hdead =>
      exact placed_buryMonster h hm halive rfl rfl hdead (hmsg.trans (inert_rewardKiller hp1))
  · next hlive =>
      have hb := takeDamage_body halive (by simpa using hlive)
      have hset := inert_setMonster (m := target.takeDamage damage) hm hb
      exact h.inert (hset.trans hmsg)

/-- **An attack keeps everybody in place**, and takes out whom it kills. -/
theorem placed_processAttack (h : Placed w) : Placed (w.processAttack env id) := by
  apply processAttack_of_inert h
  case strike =>
    intro v player target hp hm halive hv damage
    exact placed_strike hv hp hm halive damage
  case inert =>
    intro v v' hv hi
    exact hv.inert hi

/-! ## Monsters -/

theorem placed_moveMonster (env : Env) (h : Placed w) (hm : w.getMonster m.id = some m)
    (halive : m.isDead = false) (hwalk : w.map.isWalkable pos.x pos.y = true) :
    Placed (w.moveMonster env m pos) := by
  unfold moveMonster
  split
  · exact h
  · next sm hmove =>
      have hat : w.place m.id = some m.pos := by
        rw [place_of_getMonster hm, halive, if_neg (by simp)]
      have hsm := h.agrees.tryMoveObject (h.monster_ne_invalid hm) hat hmove
      exact (h.setMonster (m := m.setPos pos) hm rfl halive (h.pending_eq_zero hat) hsm
        hwalk).sendAll _

theorem placed_roamingMove (h : Placed w) (hm : w.getMonster m.id = some m)
    (halive : m.isDead = false) : Placed (w.roamingMove env m) := by
  rcases roamingMove_cases env m w with heq | ⟨new, hmay, -, heq⟩
  · rw [heq]
    exact h
  · rw [heq]
    exact placed_moveMonster env h hm halive hmay.walkable

theorem placed_chase (h : Placed w) (hm : w.getMonster m.id = some m)
    (halive : m.isDead = false) : Placed (w.chase env m pos) := by
  rcases chase_cases env m pos w with heq | ⟨new, hmay, -, heq⟩
  · rw [heq]
    exact h
  · rw [heq]
    exact placed_moveMonster env h hm halive hmay.walkable

/-- When the hit kills, a tile around the origin is free for the victim. -/
def HitFits (hit : Hit) : Prop :=
  ∀ victim, hit.before.getPlayer hit.victimId = some victim → victim.isDead = false →
    (victim.takeDamage (hit.attacker.level.toNat * 5)).isDead = true →
      ((hit.before.sectorManager.removeObject victim.id victim.pos).addObject victim.id ⟨0, 0⟩
        hit.before.map).isSome

instance (hit : Hit) : Decidable (HitFits hit) :=
  inferInstanceAs (Decidable (∀ victim ∈ hit.before.getPlayer hit.victimId,
    victim.isDead = false →
      (victim.takeDamage (hit.attacker.level.toNat * 5)).isDead = true →
        ((hit.before.sectorManager.removeObject victim.id victim.pos).addObject victim.id ⟨0, 0⟩
          hit.before.map).isSome))

/-- A death that finds a tile for the victim keeps everybody in place. -/
theorem placed_onPlayerDied (h : Placed w) (hp : w.getPlayer p.id = some p)
    (hfit : ((w.sectorManager.removeObject p.id p.pos).addObject p.id ⟨0, 0⟩ w.map).isSome) :
    Placed (w.onPlayerDied env p) := by
  obtain ⟨⟨sm, respawn⟩, hadd⟩ := Option.isSome_iff_exists.mp hfit
  have hne := h.player_ne_invalid hp
  have hgone := h.agrees.removeObject hne (h.place_player hp)
  obtain ⟨hsm, hwalk, -⟩ := hgone.addObject hne (Function.update_self _ _ _) hadd
  rw [Function.update_idem] at hsm
  rw [onPlayerDied_of_some hadd]
  have hset := (h.sendAll (ViewProcessor.sendDisappear env w p)).setPlayer
    (q := afterDeath p respawn) (h.playerId _ p hp) hsm hwalk
  exact (((hset.send _ _).send _ _).sendAll _).inert (inert_activateNearbyMonsters env _ _)

theorem placed_startRegen (h : Placed w) (hp : w.getPlayer p.id = some p) :
    Placed (w.startRegen p) := by
  rcases inert_startRegen hp with heq | ⟨v, hv, q, -, heq⟩
  · rw [heq]
    exact h
  · rw [heq]
    exact (h.inert hv).addRegenTimer q

theorem placed_monsterAttackPlayer (h : Placed w) (hp : w.getPlayer id = some p)
    (hfit : HitFits ⟨w, m, id⟩) : Placed (w.monsterAttackPlayer env m p) := by
  obtain rfl := getPlayer_id hp
  unfold monsterAttackPlayer
  split
  · exact h
  · next halive =>
      have hwound := inert_wound hp (m.level.toNat * 5) m.id
      have hw := h.inert hwound
      dsimp only
      split
      · next hdead =>
          refine placed_onPlayerDied hw ?_ ?_
          · exact getPlayer_setPlayer_self _ _
          · rw [hwound.sectorManager, hwound.map]
            exact hfit p hp (by simpa using halive) hdead
      · exact placed_startRegen hw (getPlayer_setPlayer_self _ _)

/-- The hits of a tick one after the other: each meets the world the hits
before it left. -/
theorem placed_attackVictims (victims : List ObjectID) (h : Placed w)
    (hfits : ∀ hit ∈ hitsFrom env m victims w, HitFits hit) :
    Placed (victims.foldl (attackVictim env m) w) := by
  apply attackVictims_induction env victims h
  intro v _ victim hmem hv hp
  exact placed_monsterAttackPlayer hv hp (hfits _ hmem)

theorem placed_perform (h : Placed w) (hm : w.getMonster m.id = some m)
    (halive : m.isDead = false) (action : AiAction)
    (hfits : ∀ victims, action = .attack victims →
      ∀ hit ∈ hitsFrom env m victims w, HitFits hit) :
    Placed (w.perform env m action) := by
  cases action with
  | idle => exact h
  | clearTarget => exact h.inert (inert_setMonster (m := m.clearTarget) hm rfl)
  | attack victims =>
      exact ((placed_attackVictims victims h (hfits victims rfl)).inert
        (inert_broadcastAttackEffect _ _ _)).inert (inert_modifyMonster fun _ => rfl)
  | chase targetPos => exact placed_chase h hm halive
  | setTarget t => exact h.inert (inert_setMonster (m := m.setTargetPlayerId t) hm rfl)
  | roam => exact placed_roamingMove h hm halive

/-- **A tick of a monster keeps everybody in place** when every player it kills
finds a tile. -/
theorem placed_monsterAi (h : Placed w) (hfits : ∀ hit ∈ hitsOf env id w, HitFits hit) :
    Placed (w.monsterAi env id) := by
  have hspec := monsterAi_spec env id w
  generalize w.monsterAi env id = v at hspec
  cases hspec with
  | nothing => exact h
  | asleep m hm =>
      obtain rfl := getMonster_id hm
      exact h.inert (inert_setMonster (m := m.deactivate) hm rfl)
  | tick m hm halive hhits =>
      obtain rfl := getMonster_id hm
      refine (placed_perform h hm halive _ fun victims hact => ?_).inert (inert_addTimer (.inl rfl) _)
      rw [← hhits victims hact]
      exact hfits

/-! ## Respawn and regeneration -/

/-- The monster that has come back. -/
theorem getMonster_respawned (hm : w.getMonster m.id = some m) (sm : SectorManager)
    (out : Position) :
    (({ w with sectorManager := sm }.setMonster (m.respawn.setPos out)).broadcastAddMonster env
      (m.respawn.setPos out)).getMonster m.id = some (m.respawn.setPos out) :=
  (getMonster_setMonster (m := m.respawn.setPos out) hm _).trans (if_pos rfl)

/-- **A respawn that is due keeps everybody in place.** -/
theorem placed_respawnMonster (env : Env) (h : Placed w) (hid : monsterIdOffset ≤ id)
    (hpend : w.pendingRespawns id = 0) (hplace : w.place id = none) :
    Placed (w.respawnMonster env id) := by
  rcases respawnMonster_cases env id w with
    heq | ⟨monster, hm, -, heq⟩ | ⟨monster, sm, out, v, hm, hadd, hv, heq⟩
  · rw [heq]
    exact h
  · rw [heq]
    -- no tile: the event is scheduled again
    have hp : ∀ k, (w.addTimer .monsterRespawn id monsterRespawnMs none).pendingRespawns
        k = w.pendingRespawns k + if id = k then 1 else 0 := fun k => by
      simp [addTimer, pendingRespawns, List.countP_append, List.countP_cons]
    refine ⟨h.agrees, h.walkable, h.playerId, h.monsterId, h.maxHp, fun k => ?_, fun k hk => ?_⟩
    · rw [hp]
      split
      · next hk => rw [← hk, hpend]
      · exact h.respawns k
    · by_cases hk' : id = k
      · rw [← hk']
        exact ⟨hid, hplace⟩
      · rw [hp, if_neg hk', Nat.add_zero] at hk
        exact h.resting k hk
  · obtain rfl := getMonster_id hm
    have hne := h.monster_ne_invalid hm
    obtain ⟨hsm, hwalk, -⟩ := h.agrees.addObject hne hplace hadd
    have halive : (monster.respawn.setPos out).isDead = false := by
      have hpos := h.maxHp monster (MonsterTable.mem_of_find hm)
      exact decide_eq_false (Int.not_le.mpr hpos)
    have hset := h.setMonster (m := monster.respawn.setPos out) hm rfl halive hpend hsm hwalk
    have hcast : Placed v := by
      rw [hv]
      exact hset.sendAll _
    rcases heq with heq | ⟨monster', hact, heq⟩
    · rw [heq]
      exact hcast
    · rw [heq]
      exact hcast.inert (inert_wake (hv ▸ getMonster_respawned hm sm out) hact _)

/-- **Regeneration moves nobody.** -/
theorem placed_hpRegen (h : Placed w) : Placed (w.hpRegen id) := by
  obtain ⟨v, hv, heq | ⟨-, q, -, -, heq⟩⟩ := inert_hpRegen w id
  · rw [heq]
    exact h.inert hv
  · rw [heq]
    exact (h.inert hv).addRegenTimer q

/-! ## Login and logout -/

/-- **A login onto a session without a player keeps everybody in place.** -/
theorem placed_addPlayer (h : Placed w) {session : ConnId} {row : PlayerRow} (hid : id < maxPlayers)
    (hnew : w.getPlayer id = none) (hadd : w.addPlayer id session row = some w') : Placed w' := by
  unfold addPlayer at hadd
  dsimp only at hadd
  split at hadd
  · exact absurd hadd (by simp)
  · next sm spawn hsm =>
      rw [← Option.some.inj hadd]
      have hplace : w.place id = none := by
        rw [place_player (isPlayerId_of_lt hid), hnew]
        rfl
      have hne : id ≠ invalidId := by
        unfold ObjectID maxPlayers at *
        unfold invalidId
        omega
      obtain ⟨hag, hwalk, -⟩ := h.agrees.addObject hne hplace hsm
      have hbase : Placed { w with nextSerial := w.nextSerial + 1 } :=
        ⟨h.agrees, h.walkable, h.playerId, h.monsterId, h.maxHp, h.respawns, h.resting⟩
      exact hbase.setPlayer (q := (Player.ofRow id session row w.nextSerial).setPos spawn) hid hag
        hwalk

theorem placed_welcome (h : Placed w) (session : ConnId) (p : Player) :
    Placed (w.welcome env session p) :=
  ((h.send _ _).sendAll _).inert (inert_activateNearbyMonsters env _ _)

/-- **A logout takes the player out.** -/
theorem placed_leave (h : Placed w) (hp : w.getPlayer id = some p) : Placed (w.leave env p) := by
  obtain rfl := getPlayer_id hp
  exact (h.sendAll _).removePlayer hp
    (h.agrees.removeObject (h.player_ne_invalid hp) (h.place_player hp))

/-! ## The start -/

/-- The spawn script gives every monster hit points, and there are ids for all. -/
structure SpawnsOk (spawns : List MonsterSpawnData) : Prop where
  maxHp : ∀ data ∈ spawns, 0 < data.maxHp
  few : monsterIdOffset + spawns.length ≤ invalidId

theorem placed_empty (map : Map) (now : ℕ) : Placed (World.empty map now) where
  agrees := by
    refine SectorManager.agrees_init.congr fun id => ?_
    unfold place
    split
    · rfl
    · simp [getMonster, MonsterTable.find, World.empty, MonsterTable.empty]
  walkable id p hp := by
    simp [place, getPlayer, World.empty, getMonster, MonsterTable.find, MonsterTable.empty] at hp
  playerId id p hp := by simp [getPlayer, World.empty] at hp
  monsterId := by simp only [World.empty, MonsterTable.empty]; decide
  maxHp m hm := by simp [World.empty, MonsterTable.empty] at hm
  respawns id := Nat.zero_le _
  resting id hid := absurd hid (by simp [pendingRespawns, World.empty])

/-- A monster that is made stands on its tile; the others are where they were. -/
theorem place_push (pos : Position) {data : MonsterSpawnData} (hhp : 0 < data.maxHp) :
    ({ w with monsters := w.monsters.push data pos } : World).place =
      Function.update w.place (monsterIdOffset + w.monsters.entries.length) (some pos) := by
  funext id
  unfold place getMonster MonsterTable.find MonsterTable.push
  by_cases hid : id = monsterIdOffset + w.monsters.entries.length
  · subst hid
    rw [Function.update_self, if_neg (by
        rw [not_isPlayerId (Nat.le_add_right _ _)]; simp),
      if_neg (Nat.not_lt.mpr (Nat.le_add_right _ _)), Nat.add_sub_cancel_left]
    simp [Monster.make, Monster.isDead, Int.not_le.mpr hhp]
  · rw [Function.update_of_ne hid]
    by_cases hpl : isPlayerId id = true
    · rw [if_pos hpl, if_pos hpl]
      rfl
    · rw [if_neg hpl, if_neg hpl]
      split
      · rfl
      · next hge =>
          dsimp only
          rw [List.getElem?_append]
          split
          · rfl
          · next hlen =>
              have hpast : w.monsters.entries.length < id - monsterIdOffset := by
                unfold ObjectID monsterIdOffset at *
                omega
              rw [List.getElem?_eq_none (Nat.le_of_lt hpast), List.getElem?_eq_none]
              rw [List.length_singleton]
              omega

/-- Making one monster, when there is an id left for it. -/
theorem placed_spawnMonster {data : MonsterSpawnData} (h : Placed w) (htimers : w.timers = [])
    (hhp : 0 < data.maxHp)
    (hfew : monsterIdOffset + w.monsters.entries.length + 1 ≤ invalidId) :
    Placed (w.spawnMonster data) ∧ (w.spawnMonster data).timers = [] ∧
      (w.spawnMonster data).monsters.entries.length ≤ w.monsters.entries.length + 1 := by
  unfold spawnMonster
  dsimp only
  split
  · exact ⟨h, htimers, Nat.le_succ _⟩
  · next sm spawn hadd =>
      have hnone : w.place (monsterIdOffset + w.monsters.entries.length) = none := by
        unfold place getMonster MonsterTable.find
        rw [if_neg (by rw [not_isPlayerId (Nat.le_add_right _ _)]; simp),
          if_neg (Nat.not_lt.mpr (Nat.le_add_right _ _)), Nat.add_sub_cancel_left]
        simp
      have hne : monsterIdOffset + w.monsters.entries.length ≠ invalidId := by omega
      obtain ⟨hag, hwalk, -⟩ := h.agrees.addObject hne hnone hadd
      have hplace := place_push (w := { w with sectorManager := sm }) spawn hhp
      have hpend : ∀ k, ({ w with sectorManager := sm, monsters := w.monsters.push data spawn } :
          World).pendingRespawns k = 0 := fun k => by
        simp [pendingRespawns, htimers]
      refine ⟨⟨?_, ?_, h.playerId, ?_, ?_, fun k => ?_, fun k hk => ?_⟩, htimers, ?_⟩
      · rw [hplace]
        exact hag
      · intro k q hk
        rw [hplace] at hk
        by_cases hkm : k = monsterIdOffset + w.monsters.entries.length
        · subst hkm
          rw [Function.update_self, Option.some.injEq] at hk
          rw [← hk]
          exact hwalk
        · rw [Function.update_of_ne hkm] at hk
          exact h.walkable k q hk
      · simp only [MonsterTable.push, List.length_append, List.length_singleton]
        omega
      · intro m hm
        rcases List.mem_append.mp hm with hm | hm
        · exact h.maxHp m hm
        · rw [List.mem_singleton.mp hm]
          exact hhp
      · rw [hpend]
        exact Nat.zero_le _
      · rw [hpend] at hk
        exact absurd hk (Nat.lt_irrefl 0)
      · simp [MonsterTable.push]

theorem placed_spawnMonsters (spawns : List MonsterSpawnData) (h : Placed w)
    (htimers : w.timers = []) (hhp : ∀ data ∈ spawns, 0 < data.maxHp)
    (hfew : monsterIdOffset + w.monsters.entries.length + spawns.length ≤ invalidId) :
    Placed (w.spawnMonsters spawns) ∧ (w.spawnMonsters spawns).timers = [] := by
  induction spawns generalizing w with
  | nil => exact ⟨h, htimers⟩
  | cons data rest ih =>
      obtain ⟨hd, hrest⟩ := List.forall_mem_cons.mp hhp
      rw [List.length_cons] at hfew
      obtain ⟨h1, h2, h3⟩ := placed_spawnMonster h htimers hd (by omega)
      exact ih h1 h2 hrest (by omega)

/-- **Everybody is in place when the server starts.** -/
theorem placed_init (map : Map) {spawns : List MonsterSpawnData} (hs : SpawnsOk spawns)
    (now : ℕ) : Placed (GameWorld.init map spawns now).world := by
  obtain ⟨h, -⟩ := placed_spawnMonsters spawns (placed_empty map now) rfl hs.maxHp
    hs.few
  exact h.inert (inert_addTimer (.inr rfl) _)

end Mmorpg.World
