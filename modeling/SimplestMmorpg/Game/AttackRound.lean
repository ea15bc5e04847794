/-
What one accepted attack does, all of it.

`ProcessAttack` looks at four tiles in turn, and for each of them reads the
occupancy that a kill on an earlier one has changed. `Struck` is the world
after some monsters have been hit, told from the world before: which monsters
those are is read from the positions at the start (`targets`), not from the
tiles on the way. A hit adds one monster to the list (`Struck.strike`), a
direction adds the monster that stood there at the start or nothing
(`Struck.attackDirection`), since a kill frees a tile that no later direction
looks at.
-/
import SimplestMmorpg.Game.FindPath
import SimplestMmorpg.Game.MoveRequest

set_option autoImplicit false

namespace Mmorpg

namespace Monster

variable (m : Monster)

/-- Damage takes what there is, and no more. -/
theorem takeDamage_eq (dmg : Int) : m.takeDamage dmg = { m with hp := m.hp - min m.hp dmg } := by
  unfold takeDamage
  split
  · next h => rw [min_eq_left h, Int.sub_self]
  · next h => rw [min_eq_right (by omega)]

variable {m} in
theorem isDead_takeDamage (halive : m.isDead = false) (dmg : Int) :
    (m.takeDamage dmg).isDead = decide (m.hp ≤ dmg) := by
  have hpos : 0 < m.hp := by simpa [isDead] using halive
  unfold takeDamage isDead
  split
  · next h => simp [h]
  · next h => simp only [h, decide_false, decide_eq_false_iff_not]; omega

end Monster

namespace World

open Pathfinder (manhattan manhattan_eq_one)

/-! ## The round of an attack -/

/-- The rewards of some monsters, in turn. -/
def rewarded (p : Player) (kills : List Monster) : Player :=
  kills.foldl (fun q m => q.gainExp m.getExpReward) p

/-- The `MONSTER_RESPAWN` event of a monster that is killed now. -/
def respawnEvent (now : ℕ) (m : Monster) : TimerEvent :=
  ⟨now + monsterRespawnMs, .monsterRespawn, m.id, none⟩

/-- The monster is alive on a tile beside this one. -/
def Beside (p : Position) (m : Monster) : Prop := m.isDead = false ∧ manhattan p m.pos = 1

instance (p : Position) (m : Monster) : Decidable (Beside p m) :=
  inferInstanceAs (Decidable (_ ∧ _))

/-- `w'` is `w` after an attack of this player which has killed `kills`. -/
structure AttackRound (w w' : World) (p : Player) (kills : List Monster) : Prop where
  nodup : kills.Nodup
  killed : ∀ m, m ∈ kills ↔
    w.getMonster m.id = some m ∧ Beside p.pos m ∧ m.hp ≤ p.level.toNat * 10
  monsters : ∀ k, w'.getMonster k = (w.getMonster k).map fun m =>
    if Beside p.pos m then { m with hp := m.hp - min m.hp (p.level.toNat * 10) } else m
  attacker : w'.getPlayer p.id = some ((rewarded p kills).onAttackPerformed w.now)
  players : ∀ k, k ≠ p.id → w'.getPlayer k = w.getPlayer k
  tiles : ∀ t, w'.sectorManager.getOccupant t =
    if ∃ m ∈ kills, m.pos = t then invalidId else w.sectorManager.getOccupant t
  sectors : ∀ z i, i ∈ w'.sectorManager.sectors z ↔
    i ∈ w.sectorManager.sectors z ∧ ¬ ∃ m ∈ kills, m.id = i
  timers : w'.timers = w.timers ++ kills.map (respawnEvent w.now)
  map : w'.map = w.map
  now : w'.now = w.now
  nextSerial : w'.nextSerial = w.nextSerial

/-! ## The monsters around a tile -/

/-- The monster that is alive on a tile, by the positions. -/
def monsterOn (t : Position) (w : World) : Option Monster :=
  w.monsters.entries.find? fun m => m.isDead = false ∧ m.pos = t

/-- The monsters in some directions from a tile. -/
def targets (env : Env) (p : Position) (ds : List ℕ) (w : World) : List Monster :=
  ds.filterMap fun d => w.monsterOn (env.towards p d)

/-- Those of them that the damage kills. -/
def lethal (dmg : Int) (hit : List Monster) : List Monster := hit.filter fun m => m.hp ≤ dmg

variable {env : Env} {w v : World} {id : ObjectID} {p q : Player} {m : Monster} {t : Position}
  {dmg : Int} {hit : List Monster} {ds : List ℕ} {d : ℕ}

theorem monsterOn_spec (h : w.monsterOn t = some m) :
    w.getMonster m.id = some m ∧ m.isDead = false ∧ m.pos = t := by
  have hfound := List.find?_some h
  obtain ⟨halive, hpos⟩ := of_decide_eq_true hfound
  exact ⟨MonsterTable.find_of_mem (List.mem_of_find?_eq_some h), halive, hpos⟩

/-- A monster that is alive is where it is. -/
theorem place_of_alive (hm : w.getMonster m.id = some m) (halive : m.isDead = false) :
    w.place m.id = some m.pos := by
  rw [place_of_getMonster hm, halive, if_neg (by simp)]

namespace Consistent

theorem placed_ne_invalid (h : Consistent w) (hi : w.place id = some t) : id ≠ invalidId := by
  rintro rfl
  have ho := (h.agrees.occupant_iff t invalidId).mpr hi
  simp only [SectorManager.index] at ho
  split at ho
  · exact absurd ho (by simp)
  · next hne => exact hne (Option.some.inj ho)

/-- Where the tiles are consistent there is one monster on a tile. -/
theorem monsterOn_eq (h : Consistent w) (hm : w.getMonster m.id = some m)
    (halive : m.isDead = false) : w.monsterOn m.pos = some m := by
  -- the search finds one monster; two on a tile would be two holders of it
  cases hon : w.monsterOn m.pos with
  | none =>
      have hno := List.find?_eq_none.mp hon m (MonsterTable.mem_of_find hm)
      exact absurd (decide_eq_true ⟨halive, rfl⟩) hno
  | some n =>
      obtain ⟨hn, hnalive, hpos⟩ := monsterOn_spec hon
      have hplace := place_of_alive hn hnalive
      rw [hpos] at hplace
      have hid := h.agrees.injective hplace (place_of_alive hm halive)
      rw [hid] at hn
      exact hn.symm.trans hm

/-- What `ProcessAttack` finds on a tile. -/
theorem getOccupant_monster (h : Consistent w) (t : Position) :
    (∃ m, w.monsterOn t = some m ∧ w.sectorManager.getOccupant t = m.id) ∨
      w.monsterOn t = none ∧ (w.sectorManager.getOccupant t = invalidId ∨
        w.sectorManager.getOccupant t < monsterIdOffset) := by
  by_cases hfree : w.sectorManager.getOccupant t = invalidId
  · right
    refine ⟨?_, .inl hfree⟩
    cases hon : w.monsterOn t with
    | none => rfl
    | some m =>
        obtain ⟨hm, halive, rfl⟩ := monsterOn_spec hon
        exact absurd (place_of_alive hm halive) (h.agrees.getOccupant_eq_invalid.mp hfree m.id)
  have hplace := (h.agrees.getOccupant_eq_iff hfree).mp rfl
  -- the id tells what stands there
  by_cases hplayer : w.sectorManager.getOccupant t < monsterIdOffset
  · right
    refine ⟨?_, .inr hplayer⟩
    cases hon : w.monsterOn t with
    | none => rfl
    | some m =>
        obtain ⟨hm, halive, rfl⟩ := monsterOn_spec hon
        have hid := h.agrees.injective hplace (place_of_alive hm halive)
        have hge := monsterIdOffset_le_of_getMonster hm
        rw [hid] at hplayer
        exact absurd hplayer (Nat.not_lt.mpr hge)
  · left
    have hge := Nat.not_lt.mp hplayer
    rw [place, if_neg (by rw [not_isPlayerId hge]; simp)] at hplace
    obtain ⟨m, hm, halive⟩ := Option.bind_eq_some_iff.mp hplace
    split at halive
    · exact absurd halive (by simp)
    · next hdead =>
        have hid := getMonster_id hm
        rw [← hid] at hm
        obtain rfl := Option.some.inj halive
        exact ⟨m, h.monsterOn_eq hm (by simpa using hdead), hid.symm⟩

end Consistent

/-! ## Some monsters have been hit -/

/-- `v` is `w` after each of these monsters has been hit once. -/
structure Struck (p : Player) (dmg : Int) (w v : World) (hit : List Monster) : Prop where
  nodup : hit.Nodup
  found : ∀ m ∈ hit, w.getMonster m.id = some m ∧ m.isDead = false
  monsters : ∀ k, v.getMonster k =
    (w.getMonster k).map fun m => if m ∈ hit then m.takeDamage dmg else m
  attacker : v.getPlayer p.id = some (rewarded p (lethal dmg hit))
  players : ∀ k, k ≠ p.id → v.getPlayer k = w.getPlayer k
  agrees : v.sectorManager.Agrees fun i =>
    if ∃ m ∈ lethal dmg hit, m.id = i then none else w.place i
  timers : v.timers = w.timers ++ (lethal dmg hit).map (respawnEvent w.now)
  map : v.map = w.map
  now : v.now = w.now
  nextSerial : v.nextSerial = w.nextSerial

theorem lethal_append_of_le (h : m.hp ≤ dmg) :
    lethal dmg (hit ++ [m]) = lethal dmg hit ++ [m] := by
  simp [lethal, h]

theorem lethal_append_of_lt (h : ¬ m.hp ≤ dmg) : lethal dmg (hit ++ [m]) = lethal dmg hit := by
  simp [lethal, h]

theorem rewarded_append (p : Player) (kills : List Monster) (m : Monster) :
    rewarded p (kills ++ [m]) = (rewarded p kills).gainExp m.getExpReward := by
  rw [rewarded, List.foldl_append]
  rfl

theorem id_rewarded (p : Player) (kills : List Monster) : (rewarded p kills).id = p.id := by
  refine List.foldlRecOn (motive := fun q : Player => q.id = p.id) kills _ rfl fun q hq m _ => ?_
  exact (congrArg Player.Ident.id (q.ident_gainExp m.getExpReward)).trans hq

namespace Struck

theorem nil (h : Consistent w) (hp : w.getPlayer p.id = some p) : Struck p dmg w w [] where
  nodup := List.nodup_nil
  found := by simp
  monsters k := by simp
  attacker := hp
  players _ _ := rfl
  agrees := h.agrees.congr fun i => by simp [lethal]
  timers := by simp [lethal]
  map := rfl
  now := rfl
  nextSerial := rfl

/-- A monster that has not been hit is as it was. -/
theorem getMonster_fresh (h : Struck p dmg w v hit) (hm : w.getMonster m.id = some m)
    (hnew : m ∉ hit) : v.getMonster m.id = some m := by
  rw [h.monsters, hm, Option.map_some, if_neg hnew]

/-- Only the monster itself has its id. -/
theorem id_ne (h : Struck p dmg w v hit) (hm : w.getMonster m.id = some m) (hnew : m ∉ hit) :
    ∀ n ∈ hit, n.id ≠ m.id := by
  intro n hn hid
  have hfound := (h.found n hn).1
  rw [hid, hm] at hfound
  exact hnew (Option.some.inj hfound ▸ hn)

/-- The monsters after one more hit. -/
theorem monsters_strike (h : Struck p dmg w v hit) (hm : w.getMonster m.id = some m)
    (hnew : m ∉ hit) (k : ObjectID) : (v.setMonster (m.takeDamage dmg)).getMonster k =
      (w.getMonster k).map fun n => if n ∈ hit ++ [m] then n.takeDamage dmg else n := by
  have hfresh : v.getMonster (m.takeDamage dmg).id = some m := h.getMonster_fresh hm hnew
  have hset : (v.setMonster (m.takeDamage dmg)).getMonster k =
      if k = m.id then some (m.takeDamage dmg) else v.getMonster k :=
    getMonster_setMonster hfresh k
  rw [hset]
  -- the table has one entry for each id
  by_cases hk : k = m.id
  · subst hk
    rw [if_pos rfl, hm, Option.map_some, if_pos (by simp)]
  · rw [if_neg hk, h.monsters]
    cases hw : w.getMonster k with
    | none => rfl
    | some n =>
        have hne : n ≠ m := by
          rintro rfl
          exact hk (getMonster_id hw).symm
        simp only [Option.map_some, List.mem_append, List.mem_singleton, hne, or_false]

/-- **One more monster is hit.** -/
theorem strike (env : Env) (h : Struck p dmg w v hit) (hc : Consistent w)
    (hm : w.getMonster m.id = some m) (halive : m.isDead = false) (hnew : m ∉ hit) :
    Struck p dmg w (v.strike env p.id dmg m) (hit ++ [m]) := by
  have hmonsters := h.monsters_strike hm hnew
  have hnodup : (hit ++ [m]).Nodup := List.nodup_append.mpr
    ⟨h.nodup, List.nodup_singleton m, fun a ha b hb hab =>
      hnew (List.mem_singleton.mp hb ▸ hab ▸ ha)⟩
  have hfound : ∀ n ∈ hit ++ [m], w.getMonster n.id = some n ∧ n.isDead = false := by
    intro n hn
    rcases List.mem_append.mp hn with hn | hn
    · exact h.found n hn
    · rw [List.mem_singleton.mp hn]
      exact ⟨hm, halive⟩
  unfold World.strike
  dsimp only
  rw [getPlayer_setMonster, h.attacker]
  dsimp only
  rw [Monster.isDead_takeDamage halive]
  -- a kill is handled at once, before the next direction
  by_cases hdies : m.hp ≤ dmg
  · rw [if_pos (decide_eq_true hdies)]
    have hid := id_rewarded p (lethal dmg hit)
    have hgain : ((rewarded p (lethal dmg hit)).gainExp m.getExpReward).id = p.id := by
      rw [← rewarded_append, id_rewarded]
    refine ⟨hnodup, hfound, hmonsters, ?_, ?_, ?_, ?_, h.map, h.now, h.nextSerial⟩
    · -- the experience goes to the player as it is by now
      rw [lethal_append_of_le hdies, rewarded_append]
      have hself := getPlayer_setPlayer_self v
        ((rewarded p (lethal dmg hit)).gainExp m.getExpReward)
      rw [hgain] at hself
      exact hself
    · intro k hk
      have hother := getPlayer_setPlayer (w := v)
        ((rewarded p (lethal dmg hit)).gainExp m.getExpReward) k
      rw [hgain, if_neg hk, h.players k hk] at hother
      exact hother
    · -- the tile and the sector of the monster are given up
      have hplace : (if ∃ n ∈ lethal dmg hit, n.id = m.id then none else w.place m.id) =
          some m.pos := by
        rw [if_neg, place_of_alive hm halive]
        rintro ⟨n, hn, hid⟩
        exact h.id_ne hm hnew n (List.mem_filter.mp hn).1 hid
      have hgone := h.agrees.removeObject (hc.placed_ne_invalid (place_of_alive hm halive)) hplace
      refine hgone.congr fun i => ?_
      rw [lethal_append_of_le hdies]
      by_cases hi : i = m.id
      · subst hi
        simp
      · rw [Function.update_of_ne hi]
        simp [Ne.symm hi]
    · rw [lethal_append_of_le hdies, List.map_append, ← List.append_assoc, ← h.timers,
        ← h.now]
      rfl
  · -- who survives keeps its tile, and there is nothing to gain
    rw [if_neg (by simpa using hdies)]
    refine ⟨hnodup, hfound, hmonsters, ?_, h.players, ?_, ?_, h.map, h.now, h.nextSerial⟩
    · rw [lethal_append_of_lt hdies]
      exact h.attacker
    · rw [lethal_append_of_lt hdies]
      exact h.agrees
    · rw [lethal_append_of_lt hdies]
      exact h.timers

/-- A tile where nobody has been hit has the entry it had. -/
theorem getOccupant (h : Struck p dmg w v hit) (hc : Consistent w)
    (hfar : ∀ m ∈ hit, m.pos ≠ t) :
    v.sectorManager.getOccupant t = w.sectorManager.getOccupant t := by
  -- only who was hit can have gone
  refine hc.agrees.getOccupant_congr h.agrees fun i => ?_
  split
  · next hkilled =>
      obtain ⟨m, hm, rfl⟩ := hkilled
      have hin := (List.mem_filter.mp hm).1
      obtain ⟨hfound, halive⟩ := h.found m hin
      rw [place_of_alive hfound halive, Option.some.injEq]
      simp [hfar m hin]
  · rfl

/-- **One direction** adds the monster that stood there at the start. -/
theorem attackDirection (env : Env) (pos : Position) (h : Struck p dmg w v hit) (hc : Consistent w)
    (hfar : ∀ m ∈ hit, m.pos ≠ env.towards pos d) :
    Struck p dmg w (v.attackDirection env p.id pos dmg d)
      (hit ++ (w.monsterOn (env.towards pos d)).toList) := by
  have hocc := h.getOccupant hc hfar
  rcases hc.getOccupant_monster (env.towards pos d) with ⟨m, hon, hid⟩ | ⟨hon, hskip⟩
  · -- a monster: nobody has hit it yet, as its tile is in no earlier direction
    obtain ⟨hm, halive, hpos⟩ := monsterOn_spec hon
    have hnew : m ∉ hit := fun hin => hfar m hin hpos
    have hdir : v.attackDirection env p.id pos dmg d = v.strike env p.id dmg m := by
      unfold World.attackDirection
      dsimp only
      rw [hocc, hid, if_neg (hc.placed_ne_invalid (place_of_alive hm halive)),
        if_neg (Nat.not_lt.mpr (monsterIdOffset_le_of_getMonster hm)), h.getMonster_fresh hm hnew]
      dsimp only
      rw [halive, if_neg (by simp)]
    rw [hdir, hon]
    exact h.strike env hc hm halive hnew
  · -- nobody, or a player: the direction is skipped
    have hdir : v.attackDirection env p.id pos dmg d = v := by
      unfold World.attackDirection
      dsimp only
      rw [hocc]
      split
      · rfl
      · next hne => exact if_pos (hskip.resolve_left hne)
    rw [hdir, hon, Option.toList_none, List.append_nil]
    exact h

end Struck

/-! ## The four directions -/

theorem targets_append (env : Env) (pos : Position) (ds : List ℕ) (d : ℕ) (w : World) :
    targets env pos (ds ++ [d]) w =
      targets env pos ds w ++ (w.monsterOn (env.towards pos d)).toList := by
  unfold targets
  rw [List.filterMap_append, List.filterMap_cons, List.filterMap_nil]
  cases w.monsterOn (env.towards pos d) with
  | none => rfl
  | some m => rfl

theorem mem_targets : m ∈ targets env t ds w ↔
    ∃ d ∈ ds, w.monsterOn (env.towards t d) = some m := List.mem_filterMap

/-- **The loop** hits the monsters that stood in its directions at the start. -/
theorem struck_foldl (env : Env) (dmg : Int) (hc : Consistent w) (hp : w.getPlayer p.id = some p)
    (hnodup : (ds.map (env.towards p.pos)).Nodup) :
    Struck p dmg w (ds.foldl (attackDirection env p.id p.pos dmg) w)
      (targets env p.pos ds w) := by
  -- the last direction comes after the others have changed the world
  induction ds using List.reverseRecOn with
  | nil => exact .nil hc hp
  | append_singleton ds d ih =>
      rw [List.map_append, List.nodup_append] at hnodup
      rw [List.foldl_append, targets_append]
      refine (ih hnodup.1).attackDirection env p.pos hc fun m hm => ?_
      obtain ⟨e, he, hon⟩ := mem_targets.mp hm
      rw [(monsterOn_spec hon).2.2]
      exact hnodup.2.2 _ (List.mem_map_of_mem he) _ (by simp)

/-- The four tiles are four different ones. -/
theorem nodup_towards (env : Env) (hin : InMap t) :
    ((List.range 4).map (env.towards t)).Nodup := by
  obtain ⟨x, y⟩ := t
  simp only [InMap, mapWidth, mapHeight] at hin
  -- one tile beside the map is still in the range of `int16_t`
  have hx : ∀ dx : Int, dx.natAbs ≤ 1 → toInt16 (x + dx) = x + dx := fun dx hdx =>
    toInt16_of_range (by omega) (by omega)
  have hy : ∀ dy : Int, dy.natAbs ≤ 1 → toInt16 (y + dy) = y + dy := fun dy hdy =>
    toInt16_of_range (by omega) (by omega)
  have hfour : (List.range 4).map (env.towards ⟨x, y⟩) =
      [⟨toInt16 (x + 0), toInt16 (y + -1)⟩, ⟨toInt16 (x + 0), toInt16 (y + 1)⟩,
        ⟨toInt16 (x + -1), toInt16 (y + 0)⟩, ⟨toInt16 (x + 1), toInt16 (y + 0)⟩] := rfl
  rw [hfour, hx 0 (by decide), hx (-1) (by decide), hx 1 (by decide), hy 0 (by decide),
    hy (-1) (by decide), hy 1 (by decide)]
  simp only [List.nodup_cons, List.mem_cons, List.not_mem_nil, Position.mk.injEq, not_or, or_false,
    not_and, List.nodup_nil, not_false_eq_true, and_true]
  omega

/-- The targets of an attack are the live monsters on the tiles beside. -/
theorem mem_targets_four (hc : Consistent w) (hin : InMap t) :
    m ∈ targets env t (List.range 4) w ↔ w.getMonster m.id = some m ∧ Beside t m := by
  rw [mem_targets]
  have htile : ∀ d, d ∈ List.range 4 → env.towards t d ∈
      directions.map (SectorManager.offset t) := by
    intro d hd
    have hlt : d < directions.length := List.mem_range.mp hd
    rw [Env.towards, List.getD_eq_getElem _ _ hlt]
    exact List.mem_map_of_mem (List.getElem_mem hlt)
  constructor
  · rintro ⟨d, hd, hon⟩
    obtain ⟨hm, halive, hpos⟩ := monsterOn_spec hon
    obtain ⟨off, hoff, heq⟩ := List.mem_map.mp (htile d hd)
    exact ⟨hm, halive, (manhattan_eq_one hin).mpr ⟨off, hoff, by rw [hpos, ← heq]; rfl⟩⟩
  · rintro ⟨hm, halive, hone⟩
    obtain ⟨off, hoff, heq⟩ := (manhattan_eq_one hin).mp hone
    obtain ⟨d, hd, hget⟩ := List.mem_iff_getElem.mp hoff
    refine ⟨d, List.mem_range.mpr hd, ?_⟩
    have htowards : env.towards t d = m.pos := by
      rw [heq, Env.towards, List.getD_eq_getElem _ _ hd, hget]
      rfl
    rw [htowards]
    exact hc.monsterOn_eq hm halive

/-! ## The whole round -/

/-- Those who are killed, in the order of the directions. -/
def killedBy (env : Env) (p : Player) (w : World) : List Monster :=
  lethal (p.level.toNat * 10) (targets env p.pos (List.range 4) w)

theorem mem_killedBy (hc : Consistent w) (hin : InMap p.pos) : m ∈ killedBy env p w ↔
    w.getMonster m.id = some m ∧ Beside p.pos m ∧ m.hp ≤ p.level.toNat * 10 := by
  rw [killedBy, lethal, List.mem_filter, mem_targets_four hc hin, and_assoc, decide_eq_true_iff]

namespace Struck

/-- Who is dead by now is off its tile, and nobody else. -/
theorem getOccupant_eq (h : Struck p dmg w v hit) (hc : Consistent w) (t : Position) :
    v.sectorManager.getOccupant t = if ∃ m ∈ lethal dmg hit, m.pos = t then invalidId
      else w.sectorManager.getOccupant t := by
  have hplaced : ∀ m ∈ lethal dmg hit, w.place m.id = some m.pos := by
    intro m hm
    obtain ⟨hfound, halive⟩ := h.found m (List.mem_filter.mp hm).1
    exact place_of_alive hfound halive
  split
  · next hkilled =>
      obtain ⟨m, hm, rfl⟩ := hkilled
      refine h.agrees.getOccupant_eq_invalid.mpr fun i hi => ?_
      split at hi
      · exact absurd hi (by simp)
      · next hlives => exact hlives ⟨m, hm, hc.agrees.injective (hplaced m hm) hi⟩
  · next hnobody =>
      refine hc.agrees.getOccupant_congr h.agrees fun i => ?_
      split
      · next hkilled =>
          obtain ⟨m, hm, rfl⟩ := hkilled
          rw [hplaced m hm, Option.some.injEq]
          exact ⟨fun hno => absurd hno (by simp), fun heq => absurd ⟨m, hm, heq⟩ hnobody⟩
      · rfl

theorem mem_sectors (h : Struck p dmg w v hit) (hc : Consistent w) (z : Int) (i : ObjectID) :
    i ∈ v.sectorManager.sectors z ↔
      i ∈ w.sectorManager.sectors z ∧ ¬ ∃ m ∈ lethal dmg hit, m.id = i := by
  rw [SectorManager.Agrees.mem_sectors h.agrees, SectorManager.Agrees.mem_sectors hc.agrees]
  split
  · next hkilled => simp only [hkilled, not_true, and_false, reduceCtorEq, false_and, exists_false]
  · next hlives => simp only [hlives, not_false_eq_true, and_true]

/-- After the loop there is the effect to send and the cooldown to start. -/
theorem attackRound (hc : Consistent w) (hp : w.getPlayer p.id = some p)
    (h : Struck p (p.level.toNat * 10) w v (targets env p.pos (List.range 4) w))
    (pkts : List (ConnId × ScPacket)) :
    AttackRound w ((v.sendAll pkts).setPlayer
      ((rewarded p (killedBy env p w)).onAttackPerformed w.now)) p (killedBy env p w) := by
  have hin := hc.inMap_player hp
  have hid : ((rewarded p (killedBy env p w)).onAttackPerformed w.now).id = p.id :=
    id_rewarded p (killedBy env p w)
  have hset := getPlayer_setPlayer (w := v.sendAll pkts)
    ((rewarded p (killedBy env p w)).onAttackPerformed w.now)
  rw [hid] at hset
  refine ⟨h.nodup.filter _, fun m => mem_killedBy hc hin, ?_, ?_, ?_, h.getOccupant_eq hc,
    h.mem_sectors hc, h.timers, h.map, h.now, h.nextSerial⟩
  · intro k
    refine (h.monsters k).trans ?_
    cases hm : w.getMonster k with
    | none => rfl
    | some m =>
        have hfound : w.getMonster m.id = some m := by rw [getMonster_id hm]; exact hm
        have hiff : m ∈ targets env p.pos (List.range 4) w ↔ Beside p.pos m := by
          rw [mem_targets_four hc hin]
          exact and_iff_right hfound
        simp only [Option.map_some, hiff, Monster.takeDamage_eq]
  · rw [hset, if_pos rfl]
  · intro k hk
    rw [hset, if_neg hk]
    exact h.players k hk

end Struck

/-- **An accepted attack hits the monsters on the four tiles beside, each once,
and what it kills goes away, comes back later and is rewarded.** Nothing else
changes. -/
theorem processAttack_attackRound (env : Env) (w : World) (id : ObjectID) (p : Player)
    (hc : Consistent w) (hp : w.getPlayer id = some p) (hcan : p.canAttack w.now = true) :
    AttackRound w (w.processAttack env id) p (killedBy env p w) := by
  obtain rfl := getPlayer_id hp
  have hloop := struck_foldl env (p.level.toNat * 10) hc hp
    (nodup_towards env (hc.inMap_player hp))
  unfold processAttack
  rw [hp]
  dsimp only
  rw [if_neg (by simpa using hcan)]
  -- the effect is sent after the loop and changes no player
  generalize hv : (List.range 4).foldl (attackDirection env p.id p.pos (p.level.toNat * 10)) w = v
    at hloop
  have hself : (v.broadcastAttackEffect env p.id p.pos).getPlayer p.id =
      some (rewarded p (killedBy env p w)) := hloop.attacker
  have hmodify : (v.broadcastAttackEffect env p.id p.pos).modifyPlayer p.id
      (·.onAttackPerformed (v.broadcastAttackEffect env p.id p.pos).now) =
      (v.broadcastAttackEffect env p.id p.pos).setPlayer
        ((rewarded p (killedBy env p w)).onAttackPerformed w.now) := by
    have hnow : (v.broadcastAttackEffect env p.id p.pos).now = w.now := hloop.now
    rw [modifyPlayer, hself, hnow]
  rw [hmodify]
  exact hloop.attackRound hc hp _

/-! ## A player between two monsters -/

/-- A rat to the right of the origin and a bear below it. -/
def ratAndBear : List MonsterSpawnData :=
  [⟨[82], 1, 10, .peace, .fixed, ⟨1, 0⟩⟩, ⟨[66], 9, 500, .agro, .roaming, ⟨0, 1⟩⟩]

/-- A new character comes to the origin, five seconds after the start. -/
def betweenTwo : World :=
  (((World.empty ⟨fun _ => 0⟩ 5000).spawnMonsters ratAndBear).addPlayer 0 0 newRow).get (by decide)

theorem consistent_betweenTwo : Consistent betweenTwo := by
  have hspawned := (placed_spawnMonsters ratAndBear (placed_empty ⟨fun _ => 0⟩ 5000) rfl
    (by decide) (by decide)).1
  exact hspawned.consistent_addPlayer (by decide) rfl _

/-- The rat is killed, the bear is not. -/
theorem processAttack_attackRound_betweenTwo :
    AttackRound betweenTwo (betweenTwo.processAttack .plain 0)
        ((betweenTwo.getPlayer 0).get (by decide))
        (killedBy .plain ((betweenTwo.getPlayer 0).get (by decide)) betweenTwo) ∧
      (killedBy .plain ((betweenTwo.getPlayer 0).get (by decide)) betweenTwo).map (·.name) =
        [[82]] :=
  ⟨processAttack_attackRound .plain betweenTwo 0 _ consistent_betweenTwo (Option.some_get _).symm
    (by decide), by decide⟩

end World

end Mmorpg
