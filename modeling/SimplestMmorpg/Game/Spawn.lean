/-
`SpawnMonsters`: ids, monsters and tiles in step.

An entry of the script gets the next id, claims a tile under it, and only then
becomes a monster at the end of `m_monsters`. An entry that finds no tile is
skipped: it leaves no claim and uses up no id. So the place of a monster in the
vector, its id, the tile that names it and the entry it was made from stay in
step through the loop, and `GetMonster`, which computes the place from the id,
finds the right one.
-/
import SimplestMmorpg.Game.GameWorld

set_option autoImplicit false

namespace Mmorpg

namespace SectorManager

variable {sm sm' : SectorManager} {id : ObjectID} {c q : Position} {map : Map}

/-- **`AddObject` writes one tile**, which was free and is walkable. -/
theorem getOccupant_addObject (h : sm.addObject id c map = some (sm', q)) :
    map.isWalkable q.x q.y = true ∧ sm.getOccupant q = invalidId ∧
      ∀ t, sm'.getOccupant t = if t = q then id else sm.getOccupant t := by
  have hwalk := isWalkable_of_addObject h
  unfold addObject at h
  split at h
  · exact absurd h (by simp)
  · next sm₁ out hnear =>
      obtain ⟨rfl, rfl⟩ := Prod.mk.inj (Option.some.inj h)
      obtain ⟨hclaim, -⟩ := tryClaimNearby_eq_some hnear
      obtain ⟨hin, hfree, rfl⟩ := tryClaim_eq_some hclaim
      exact ⟨hwalk, hfree, fun t => getOccupant_setTile hin id⟩

end SectorManager

namespace World

variable {w : World} {data : MonsterSpawnData} {spawns : List MonsterSpawnData}

/-- The id that the next monster gets. -/
def nextMonsterId (w : World) : ObjectID := monsterIdOffset + w.monsters.entries.length

/-- The entries of the script that find a tile, each with its tile. -/
def placedEntries (w : World) : List MonsterSpawnData → List (MonsterSpawnData × Position)
  | [] => []
  | data :: rest =>
    match w.sectorManager.addObject w.nextMonsterId data.pos w.map with
    | none => placedEntries w rest
    | some (_, spawn) => (data, spawn) :: placedEntries (w.spawnMonster data) rest

theorem spawnMonster_of_none
    (h : w.sectorManager.addObject w.nextMonsterId data.pos w.map = none) :
    w.spawnMonster data = w := by
  unfold nextMonsterId at h
  rw [spawnMonster, h]

theorem spawnMonster_of_some {sm : SectorManager} {spawn : Position}
    (h : w.sectorManager.addObject w.nextMonsterId data.pos w.map = some (sm, spawn)) :
    w.spawnMonster data =
      { w with sectorManager := sm, monsters := w.monsters.push data spawn } := by
  unfold nextMonsterId at h
  rw [spawnMonster, h]

/-! ## The vector -/

/-- **The vector follows the entries that found a tile.** -/
theorem entries_spawnMonsters (w : World) (spawns : List MonsterSpawnData) :
    (w.spawnMonsters spawns).monsters.entries = w.monsters.entries ++
      (w.placedEntries spawns).mapIdx fun k e => Monster.make (w.nextMonsterId + k) e.1 e.2 := by
  induction spawns generalizing w with
  | nil => simp [spawnMonsters, placedEntries]
  | cons data rest ih =>
      have hrest : w.spawnMonsters (data :: rest) = (w.spawnMonster data).spawnMonsters rest := rfl
      rw [hrest, ih]
      cases hadd : w.sectorManager.addObject w.nextMonsterId data.pos w.map with
      | none => rw [spawnMonster_of_none hadd, placedEntries, hadd]
      | some placed =>
          obtain ⟨sm, spawn⟩ := placed
          have hnext : (w.spawnMonster data).nextMonsterId = w.nextMonsterId + 1 := by
            rw [spawnMonster_of_some hadd]
            simp only [nextMonsterId, MonsterTable.push, List.length_append, List.length_singleton]
            rfl
          have hentries : (w.spawnMonster data).monsters.entries =
              w.monsters.entries ++ [Monster.make w.nextMonsterId data spawn] := by
            rw [spawnMonster_of_some hadd]
            rfl
          rw [placedEntries, hadd, hnext, hentries, List.append_assoc, List.mapIdx_cons,
            List.singleton_append]
          -- the index starts again at the next entry
          simp only [Nat.add_zero, Nat.add_assoc, Nat.add_comm 1]

/-! ## The tiles -/

/-- Every monster stands on a walkable tile that names it, and no other tile is taken. -/
structure OnOwnTiles (w : World) : Prop where
  occupied : ∀ m ∈ w.monsters.entries, w.sectorManager.getOccupant m.pos = m.id
  walkable : ∀ m ∈ w.monsters.entries, w.map.isWalkable m.pos.x m.pos.y = true
  only : ∀ q, w.sectorManager.getOccupant q ≠ invalidId →
    ∃ m ∈ w.monsters.entries, m.pos = q ∧ m.id = w.sectorManager.getOccupant q

/-- Ids of the table are below the next one. -/
theorem id_lt_nextMonsterId {m : Monster} (hm : m ∈ w.monsters.entries) :
    m.id < w.nextMonsterId := by
  obtain ⟨i, hi⟩ := List.mem_iff_getElem?.mp hm
  rw [w.monsters.id_eq i m hi]
  exact Nat.add_lt_add_left (List.getElem?_eq_some_iff.mp hi).1 _

/-- **One entry** keeps every monster on its tile. -/
theorem onOwnTiles_spawnMonster (h : OnOwnTiles w) (hid : w.nextMonsterId < invalidId) :
    OnOwnTiles (w.spawnMonster data) := by
  cases hadd : w.sectorManager.addObject w.nextMonsterId data.pos w.map with
  | none =>
      rw [spawnMonster_of_none hadd]
      exact h
  | some placed =>
      obtain ⟨sm, spawn⟩ := placed
      obtain ⟨hwalk, hfree, htiles⟩ := SectorManager.getOccupant_addObject hadd
      rw [spawnMonster_of_some hadd]
      -- the tile was free, so nobody stands there already
      have hne : ∀ m ∈ w.monsters.entries, m.pos ≠ spawn := by
        intro m hm hpos
        have hown := h.occupied m hm
        rw [hpos, hfree] at hown
        have hlt := id_lt_nextMonsterId hm
        rw [← hown] at hlt
        exact Nat.lt_asymm hlt hid
      refine ⟨fun m hm => ?_, fun m hm => ?_, fun q hq => ?_⟩
      · rcases List.mem_append.mp hm with hm | hm
        · dsimp only
          rw [htiles, if_neg (hne m hm)]
          exact h.occupied m hm
        · rw [List.mem_singleton.mp hm]
          exact (htiles spawn).trans (if_pos rfl)
      · rcases List.mem_append.mp hm with hm | hm
        · exact h.walkable m hm
        · rw [List.mem_singleton.mp hm]
          exact hwalk
      · dsimp only at hq ⊢
        rw [htiles] at hq ⊢
        split
        · next hqs =>
            exact ⟨_, List.mem_append_right _ (List.mem_singleton_self _), hqs.symm, rfl⟩
        · next hqs =>
            rw [if_neg hqs] at hq
            obtain ⟨m, hm, hpos, hown⟩ := h.only q hq
            exact ⟨m, List.mem_append_left _ hm, hpos, hown⟩

theorem nextMonsterId_spawnMonster_le (w : World) (data : MonsterSpawnData) :
    (w.spawnMonster data).nextMonsterId ≤ w.nextMonsterId + 1 := by
  cases hadd : w.sectorManager.addObject w.nextMonsterId data.pos w.map with
  | none =>
      rw [spawnMonster_of_none hadd]
      exact Nat.le_succ _
  | some placed =>
      rw [spawnMonster_of_some hadd]
      simp only [nextMonsterId, MonsterTable.push, List.length_append, List.length_singleton]
      exact Nat.le_refl _

/-- **The whole loop**, as long as there are ids. -/
theorem onOwnTiles_spawnMonsters (h : OnOwnTiles w)
    (hfew : w.nextMonsterId + spawns.length ≤ invalidId) : OnOwnTiles (w.spawnMonsters spawns) := by
  induction spawns generalizing w with
  | nil => exact h
  | cons data rest ih =>
      rw [List.length_cons] at hfew
      have hle := nextMonsterId_spawnMonster_le w data
      refine ih (onOwnTiles_spawnMonster h ?_) ?_
      · exact Nat.lt_of_lt_of_le (Nat.lt_add_of_pos_right (Nat.succ_pos _)) hfew
      · exact (Nat.add_le_add_right hle _).trans (by rw [Nat.add_right_comm]; exact hfew)

theorem onOwnTiles_empty (map : Map) (now : ℕ) : OnOwnTiles (World.empty map now) where
  occupied m hm := absurd hm (by simp [World.empty, MonsterTable.empty])
  walkable m hm := absurd hm (by simp [World.empty, MonsterTable.empty])
  only q hq := absurd hq (by simp [World.empty, SectorManager.init, SectorManager.getOccupant])

/-! ## Monster ids address the right monster -/

/-- What the vector, the ids, the tiles and the script have to do with each other after
`SpawnMonsters`. -/
structure Addressed (w start : World) (spawns : List MonsterSpawnData) : Prop where
  /-- The ids are the offset and the numbers after it, without gaps. -/
  ids : w.monsters.entries.map Monster.id =
    List.range' monsterIdOffset w.monsters.entries.length
  found : ∀ m ∈ w.monsters.entries, w.getMonster m.id = some m
  getId : ∀ id m, w.getMonster id = some m → m ∈ w.monsters.entries ∧ m.id = id
  others : ∀ id, id ∉ w.monsters.entries.map Monster.id → w.getMonster id = none
  /-- The `k`-th monster is made from the `k`-th entry that found a tile, on that tile. -/
  data : ∀ k, w.monsters.entries[k]? =
    (start.placedEntries spawns)[k]?.map fun e => Monster.make (monsterIdOffset + k) e.1 e.2
  apart : (w.monsters.entries.map Monster.pos).Nodup
  walkable : ∀ m ∈ w.monsters.entries, w.map.isWalkable m.pos.x m.pos.y = true
  occupied : ∀ m ∈ w.monsters.entries, w.sectorManager.getOccupant m.pos = m.id
  /-- A skipped entry leaves no claim. -/
  unclaimed : ∀ q, w.sectorManager.getOccupant q ≠ invalidId →
    ∃ m ∈ w.monsters.entries, m.pos = q ∧ m.id = w.sectorManager.getOccupant q

theorem ids_entries (t : MonsterTable) :
    t.entries.map Monster.id = List.range' monsterIdOffset t.entries.length := by
  refine List.ext_getElem (by rw [List.length_map, List.length_range']) fun i h1 h2 => ?_
  rw [List.length_map] at h1
  rw [List.getElem_map, List.getElem_range', Nat.one_mul]
  exact t.id_eq i _ (List.getElem?_eq_getElem h1)

/-- Two monsters of the table that stand on one tile are one. -/
theorem OnOwnTiles.nodup_pos (h : OnOwnTiles w) : (w.monsters.entries.map Monster.pos).Nodup := by
  have hids : (w.monsters.entries.map Monster.id).Nodup := by
    rw [ids_entries]
    exact List.nodup_range'
  refine List.Nodup.map_on ?_ (hids.of_map _)
  intro m hm m' hm' hpos
  have hown := h.occupied m hm
  rw [hpos, h.occupied m' hm'] at hown
  exact List.inj_on_of_nodup_map hids hm hm' hown.symm

/-- **Monster ids address the right monster** after `SpawnMonsters`, for every map and every
script that has fewer entries than there are ids. -/
theorem spawnMonsters_addressed (map : Map) (now : ℕ) (spawns : List MonsterSpawnData)
    (hfew : spawns.length < 4294967296 - 1 - monsterIdOffset) :
    Addressed ((World.empty map now).spawnMonsters spawns) (World.empty map now) spawns := by
  have hentries := entries_spawnMonsters (World.empty map now) spawns
  have hroom : (World.empty map now).nextMonsterId + spawns.length ≤ invalidId := by
    have hstart : (World.empty map now).nextMonsterId = monsterIdOffset := rfl
    rw [hstart]
    unfold ObjectID monsterIdOffset invalidId at *
    omega
  have htiles := onOwnTiles_spawnMonsters (onOwnTiles_empty map now) hroom
  generalize (World.empty map now).spawnMonsters spawns = w at hentries htiles ⊢
  refine ⟨ids_entries _, fun m hm => MonsterTable.find_of_mem hm, fun id m hm => ?_, fun id hid => ?_,
    fun k => ?_, htiles.nodup_pos, htiles.walkable, htiles.occupied, htiles.only⟩
  · exact ⟨MonsterTable.mem_of_find hm, getMonster_id hm⟩
  · cases hm : w.getMonster id with
    | none => rfl
    | some m =>
        refine absurd (List.mem_map.mpr ⟨m, MonsterTable.mem_of_find hm, ?_⟩) hid
        exact getMonster_id hm
  · rw [hentries]
    have hempty : (World.empty map now).monsters.entries = [] := rfl
    rw [hempty, List.nil_append, List.getElem?_mapIdx]
    rfl

/-- Water everywhere but on two tiles. -/
def twoTiles : Map := ⟨fun i => if i = tileIndex ⟨5, 5⟩ ∨ i = tileIndex ⟨5, 50⟩ then 0 else 1⟩

/-- Two entries for the one tile, and one for the other. -/
def threeRats : List MonsterSpawnData :=
  [⟨[82], 1, 10, .peace, .fixed, ⟨5, 5⟩⟩, ⟨[83], 1, 10, .peace, .fixed, ⟨5, 5⟩⟩,
    ⟨[84], 2, 20, .agro, .roaming, ⟨5, 50⟩⟩]

/-- The second entry is skipped, and the third gets the second id. -/
theorem spawnMonsters_addressed_threeRats :
    Addressed ((World.empty twoTiles 0).spawnMonsters threeRats) (World.empty twoTiles 0)
        threeRats ∧
      ((World.empty twoTiles 0).placedEntries threeRats).map (·.1.name) = [[82], [84]] :=
  ⟨spawnMonsters_addressed twoTiles 0 threeRats (by decide), by decide +kernel⟩

end World

end Mmorpg
