/-
Where everybody is: the placement, and the invariant that the tiles, the
sectors and the positions agree on it.

`World.place` reads the placement from the objects: a player in `m_players`
and a live monster are at their position, nothing else is anywhere. `Placed`
is the invariant, with what it needs to survive a step. A `MONSTER_RESPAWN`
event places a monster, so there may be one for a monster only while it lies
dead, and not two.

Each operation that moves somebody is one update of the placement
(`Placed.update`), and what moves nobody is inert (`Placed.inert`).
-/
import SimplestMmorpg.Game.Inert

set_option autoImplicit false

namespace Mmorpg.World

variable (w : World)

/-- Where an object is, by its own account. -/
def place (id : ObjectID) : Option Position :=
  if isPlayerId id then (w.getPlayer id).map (·.pos)
  else (w.getMonster id).bind fun m => if m.isDead then none else some m.pos

/-- How many respawns of a monster are scheduled. -/
def pendingRespawns (id : ObjectID) : ℕ :=
  w.timers.countP fun ev => ev.type = .monsterRespawn ∧ ev.targetId = id

/-- **The placement invariant.** Tiles and sectors agree with the positions,
every position is a walkable tile, ids are what they should be, and a monster
that waits for its respawn lies dead. -/
structure Placed : Prop where
  agrees : w.sectorManager.Agrees w.place
  walkable : ∀ id p, w.place id = some p → w.map.isWalkable p.x p.y = true
  playerId : ∀ id p, w.getPlayer id = some p → id < maxPlayers
  monsterId : monsterIdOffset + w.monsters.entries.length ≤ invalidId
  maxHp : ∀ m ∈ w.monsters.entries, 0 < m.maxHp
  respawns : ∀ id, w.pendingRespawns id ≤ 1
  resting : ∀ id, 0 < w.pendingRespawns id → monsterIdOffset ≤ id ∧ w.place id = none

variable {w} {w' : World} {env : Env} {id : ObjectID} {p q : Player} {m m' : Monster}
  {pos : Position} {sm : SectorManager}

/-! ## The placement after a write -/

theorem isPlayerId_of_lt (h : id < maxPlayers) : isPlayerId id = true := by
  unfold isPlayerId
  unfold ObjectID maxPlayers at *
  exact decide_eq_true (by unfold monsterIdOffset; omega)

theorem not_isPlayerId (h : monsterIdOffset ≤ id) : isPlayerId id = false :=
  decide_eq_false (Nat.not_lt.mpr h)

theorem place_player (h : isPlayerId id = true) : w.place id = (w.getPlayer id).map (·.pos) := by
  rw [place, if_pos h]

theorem place_of_getPlayer (h : isPlayerId id = true) (hp : w.getPlayer id = some p) :
    w.place id = some p.pos := by
  rw [place_player h, hp, Option.map_some]

theorem place_of_getMonster (hm : w.getMonster id = some m) :
    w.place id = if m.isDead then none else some m.pos := by
  rw [place, if_neg (by rw [not_isPlayerId (monsterIdOffset_le_of_getMonster hm)]; simp), hm,
    Option.bind_some]

theorem place_setPlayer (h : isPlayerId q.id = true) :
    (w.setPlayer q).place = Function.update w.place q.id (some q.pos) := by
  funext id
  by_cases hid : id = q.id
  · subst hid
    rw [Function.update_self]
    exact place_of_getPlayer h (getPlayer_setPlayer_self _ _)
  · rw [Function.update_of_ne hid, place, place, getPlayer_setPlayer, if_neg hid]
    rfl

theorem place_removePlayer (h : isPlayerId id = true) :
    (w.removePlayer id).place = Function.update w.place id none := by
  funext k
  by_cases hk : k = id
  · subst hk
    rw [Function.update_self, place_player h, getPlayer_removePlayer, if_pos rfl]
    rfl
  · rw [Function.update_of_ne hk, place, place, getPlayer_removePlayer, if_neg hk]
    rfl

theorem place_setMonster (hm : w.getMonster m.id = some m') :
    (w.setMonster m).place =
      Function.update w.place m.id (if m.isDead then none else some m.pos) := by
  funext id
  by_cases hid : id = m.id
  · subst hid
    rw [Function.update_self]
    exact place_of_getMonster (by rw [getMonster_setMonster hm, if_pos rfl])
  · rw [Function.update_of_ne hid, place, place, getMonster_setMonster hm, if_neg hid]
    rfl

theorem Inert.getMonster_body (h : Inert w w') (id : ObjectID) :
    (w'.getMonster id).map Monster.body = (w.getMonster id).map Monster.body := by
  unfold getMonster MonsterTable.find
  split
  · rfl
  · rw [← List.getElem?_map, ← List.getElem?_map, h.monsters]

theorem Inert.place (h : Inert w w') : w'.place = w.place := by
  funext id
  unfold World.place
  split
  · have hp := h.players id
    have hpos := congrArg (Option.map Player.Ident.pos) hp
    rw [Option.map_map, Option.map_map] at hpos
    exact hpos
  · have hm := h.getMonster_body id
    have hb : ∀ o : Option Monster, (o.bind fun m => if m.isDead then none else some m.pos) =
        (o.map Monster.body).bind fun b => if b.isDead then none else some b.pos := by
      intro o
      cases o <;> rfl
    rw [hb, hb, hm]

theorem Inert.pendingRespawns (h : Inert w w') (id : ObjectID) :
    w'.pendingRespawns id = w.pendingRespawns id := by
  obtain ⟨evs, ht, hevs⟩ := h.timers
  unfold World.pendingRespawns
  rw [ht, List.countP_append, Nat.add_eq_left, List.countP_eq_zero]
  intro ev hev
  rcases hevs ev hev with h1 | h1
  · simp [h1]
  · simp [h1]

theorem Inert.maxHp (h : Inert w w') (hpos : ∀ m ∈ w.monsters.entries, 0 < m.maxHp) :
    ∀ m ∈ w'.monsters.entries, 0 < m.maxHp := by
  intro m hm
  have hb := List.mem_map_of_mem (f := Monster.body) hm
  rw [h.monsters] at hb
  obtain ⟨k, hk, hkb⟩ := List.mem_map.mp hb
  have hmax : k.maxHp = m.maxHp := congrArg (fun b : Monster.Body => b.spec.maxHp) hkb
  exact hmax ▸ hpos k hk

namespace Placed

theorem inert (h : Placed w) (hi : Inert w w') : Placed w' where
  agrees := by rw [hi.sectorManager, hi.place]; exact h.agrees
  walkable := by rw [hi.map, hi.place]; exact h.walkable
  playerId id p hp := by
    obtain ⟨q, hq, -⟩ := hi.player hp
    exact h.playerId id q hq
  monsterId := by
    have hlen := congrArg List.length hi.monsters
    rw [List.length_map, List.length_map] at hlen
    rw [hlen]
    exact h.monsterId
  maxHp := hi.maxHp h.maxHp
  respawns id := by rw [hi.pendingRespawns]; exact h.respawns id
  resting id := by rw [hi.pendingRespawns, hi.place]; exact h.resting id

/-- A change of the placement: the part that is the same for all of them. -/
theorem update (h : Placed w) {o : Option Position}
    (hsm : w'.sectorManager.Agrees (Function.update w.place id o))
    (hplace : w'.place = Function.update w.place id o) (hmap : w'.map = w.map)
    (hwalk : ∀ q, o = some q → w.map.isWalkable q.x q.y = true)
    (hplayer : ∀ k p, w'.getPlayer k = some p → k < maxPlayers)
    (hmonsters : w'.monsters.entries.map Monster.spec = w.monsters.entries.map Monster.spec)
    (hrespawns : ∀ k, w'.pendingRespawns k ≤ 1)
    (hresting : ∀ k, 0 < w'.pendingRespawns k → monsterIdOffset ≤ k ∧ w'.place k = none) :
    Placed w' where
  agrees := by rw [hplace]; exact hsm
  walkable k q hk := by
    rw [hmap]
    rw [hplace] at hk
    by_cases hki : k = id
    · subst hki
      rw [Function.update_self] at hk
      exact hwalk q hk
    · rw [Function.update_of_ne hki] at hk
      exact h.walkable k q hk
  playerId := hplayer
  monsterId := by
    have hlen := congrArg List.length hmonsters
    rw [List.length_map, List.length_map] at hlen
    rw [hlen]
    exact h.monsterId
  maxHp m hm := by
    have hb := List.mem_map_of_mem (f := Monster.spec) hm
    rw [hmonsters] at hb
    obtain ⟨k, hk, hkb⟩ := List.mem_map.mp hb
    have hmax : k.maxHp = m.maxHp := congrArg Monster.Spec.maxHp hkb
    exact hmax ▸ h.maxHp k hk
  respawns := hrespawns
  resting := hresting

theorem isPlayerId (h : Placed w) (hp : w.getPlayer id = some p) : isPlayerId id = true :=
  isPlayerId_of_lt (h.playerId id p hp)

theorem player_ne_invalid (h : Placed w) (hp : w.getPlayer id = some p) : id ≠ invalidId := by
  have hlt := h.playerId id p hp
  unfold ObjectID maxPlayers at *
  unfold invalidId
  omega

theorem monster_ne_invalid (h : Placed w) (hm : w.getMonster id = some m) : id ≠ invalidId := by
  have hn := h.monsterId
  have hge := monsterIdOffset_le_of_getMonster hm
  have hlt : id - monsterIdOffset < w.monsters.entries.length := by
    unfold getMonster MonsterTable.find at hm
    rw [if_neg (Nat.not_lt.mpr hge)] at hm
    exact (List.getElem?_eq_some_iff.mp hm).1
  unfold ObjectID monsterIdOffset invalidId at *
  omega

theorem place_player (h : Placed w) (hp : w.getPlayer id = some p) : w.place id = some p.pos :=
  place_of_getPlayer (h.isPlayerId hp) hp

theorem inMap (h : Placed w) (hi : w.place id = some pos) : InMap pos :=
  w.map.inMap_of_isWalkable (h.walkable id pos hi)

/-- A monster that is placed is scheduled for no respawn. -/
theorem pending_eq_zero (h : Placed w) (hi : w.place id = some pos) : w.pendingRespawns id = 0 := by
  by_contra hne
  have hrest := (h.resting id (Nat.pos_of_ne_zero hne)).2
  rw [hi] at hrest
  exact Option.some_ne_none _ hrest

theorem pending_player (h : Placed w) (hid : id < maxPlayers) : w.pendingRespawns id = 0 := by
  by_contra hne
  have hge := (h.resting id (Nat.pos_of_ne_zero hne)).1
  unfold ObjectID maxPlayers monsterIdOffset at *
  omega

/-- Where nothing else is written, a wait for a respawn goes on as before. -/
theorem resting_update (h : Placed w) {o : Option Position} (hpend : w.pendingRespawns id = 0)
    (k : ObjectID) (hk : 0 < w.pendingRespawns k) :
    monsterIdOffset ≤ k ∧ Function.update w.place id o k = none := by
  have hki : k ≠ id := by
    rintro rfl
    omega
  rw [Function.update_of_ne hki]
  exact h.resting k hk

/-! ## Writing one object -/

/-- Packets and regeneration timers are nobody's place. -/
theorem sendAll (h : Placed w) (pkts : List (ConnId × ScPacket)) : Placed (w.sendAll pkts) :=
  ⟨h.agrees, h.walkable, h.playerId, h.monsterId, h.maxHp, h.respawns, h.resting⟩

theorem send (h : Placed w) (conn : ConnId) (pkt : ScPacket) : Placed (w.send conn pkt) :=
  h.sendAll [(conn, pkt)]

theorem addRegenTimer (h : Placed w) (p : Player) : Placed (w.addRegenTimer p) := by
  have hp : ∀ k, (w.addRegenTimer p).pendingRespawns k = w.pendingRespawns k := fun k => by
    simp [World.addRegenTimer, World.addTimer, pendingRespawns, List.countP_append]
  exact ⟨h.agrees, h.walkable, h.playerId, h.monsterId, h.maxHp,
    fun k => by rw [hp]; exact h.respawns k, fun k => by rw [hp]; exact h.resting k⟩

/-- A player is written with a position the sector manager has given it. -/
theorem setPlayer (h : Placed w) (hq : q.id < maxPlayers)
    (hsm : sm.Agrees (Function.update w.place q.id (some q.pos)))
    (hwalk : w.map.isWalkable q.pos.x q.pos.y = true) :
    Placed ({ w with sectorManager := sm }.setPlayer q) := by
  have hplace : ({ w with sectorManager := sm }.setPlayer q).place =
      Function.update w.place q.id (some q.pos) := place_setPlayer (isPlayerId_of_lt hq)
  refine h.update hsm hplace rfl (fun r hr => ?_) (fun k p hp => ?_) rfl h.respawns ?_
  · rw [← Option.some.inj hr]
    exact hwalk
  · rw [getPlayer_setPlayer] at hp
    split at hp
    · next hk => rw [hk]; exact hq
    · exact h.playerId k p hp
  · intro k hk
    rw [hplace]
    exact h.resting_update (h.pending_player hq) k hk

/-- A player is taken out. -/
theorem removePlayer (h : Placed w) (hp : w.getPlayer id = some p)
    (hsm : sm.Agrees (Function.update w.place id none)) :
    Placed ({ w with sectorManager := sm }.removePlayer id) := by
  have hplace : ({ w with sectorManager := sm }.removePlayer id).place =
      Function.update w.place id none := place_removePlayer (h.isPlayerId hp)
  refine h.update hsm hplace rfl (fun r hr => absurd hr (by simp)) (fun k q hq => ?_) rfl
    h.respawns ?_
  · rw [getPlayer_removePlayer] at hq
    split at hq
    · exact absurd hq (by simp)
    · exact h.playerId k q hq
  · intro k hk
    rw [hplace]
    exact h.resting_update (h.pending_player (h.playerId id p hp)) k hk

/-- A live monster is written with a position the sector manager has given it. -/
theorem setMonster (h : Placed w) (hm : w.getMonster m.id = some m') (hspec : m.spec = m'.spec)
    (halive : m.isDead = false) (hpend : w.pendingRespawns m.id = 0)
    (hsm : sm.Agrees (Function.update w.place m.id (some m.pos)))
    (hwalk : w.map.isWalkable m.pos.x m.pos.y = true) :
    Placed ({ w with sectorManager := sm }.setMonster m) := by
  have hplace : ({ w with sectorManager := sm }.setMonster m).place =
      Function.update w.place m.id (some m.pos) := by
    have hset := place_setMonster (w := { w with sectorManager := sm }) hm
    rw [halive, if_neg (by simp)] at hset
    exact hset
  refine h.update hsm hplace rfl (fun r hr => ?_) h.playerId (MonsterTable.map_set hm hspec)
    h.respawns ?_
  · rw [← Option.some.inj hr]
    exact hwalk
  · intro k hk
    rw [hplace]
    exact h.resting_update hpend k hk

end Placed

/-! ## Only the tiles and the sectors -/

/-- Tiles and sectors agree with the positions, and players have the ids of players. -/
structure Consistent (w : World) : Prop where
  agrees : w.sectorManager.Agrees w.place
  playerId : ∀ id p, w.getPlayer id = some p → id < maxPlayers

theorem Placed.consistent (h : Placed w) : Consistent w := ⟨h.agrees, h.playerId⟩

namespace Consistent

theorem place_player (h : Consistent w) (hp : w.getPlayer id = some p) :
    w.place id = some p.pos :=
  place_of_getPlayer (isPlayerId_of_lt (h.playerId id p hp)) hp

theorem player_ne_invalid (h : Consistent w) (hp : w.getPlayer id = some p) : id ≠ invalidId := by
  have hlt := h.playerId id p hp
  unfold ObjectID maxPlayers at *
  unfold invalidId
  omega

/-- Who holds a tile is on the map. -/
theorem inMap_player (h : Consistent w) (hp : w.getPlayer id = some p) : InMap p.pos :=
  SectorManager.Agrees.inMap h.agrees (h.place_player hp)

end Consistent

/-! ## Only the sectors -/

/-- The sets of the sectors agree with the positions, which are on the map, and
players have the ids of players. -/
structure Sectored (w : World) : Prop where
  sectors : w.sectorManager.SectorsAgree w.place
  inMap : ∀ id p, w.place id = some p → InMap p
  playerId : ∀ id p, w.getPlayer id = some p → id < maxPlayers

theorem Consistent.sectored (h : Consistent w) : Sectored w :=
  ⟨SectorManager.Agrees.sectorsAgree h.agrees,
    fun _ _ => SectorManager.Agrees.inMap h.agrees, h.playerId⟩

theorem Placed.sectored (h : Placed w) : Sectored w := h.consistent.sectored

namespace Sectored

theorem isPlayerId (h : Sectored w) (hp : w.getPlayer id = some p) : isPlayerId id = true :=
  isPlayerId_of_lt (h.playerId id p hp)

theorem place_player (h : Sectored w) (hp : w.getPlayer id = some p) : w.place id = some p.pos :=
  place_of_getPlayer (h.isPlayerId hp) hp

/-- The ids of monsters begin where those of players end. -/
theorem lt_monsterIdOffset (h : Sectored w) (hp : w.getPlayer id = some p) :
    id < monsterIdOffset := by
  by_contra hge
  have hplayer := h.isPlayerId hp
  rw [not_isPlayerId (Nat.not_lt.mp hge)] at hplayer
  exact absurd hplayer Bool.false_ne_true

end Sectored

end Mmorpg.World
