/-
The world that the spawn script makes.

The entries of the script meet what is asked of a script elsewhere: hit points,
ids enough, room for the rewards, numbers that fit their fields. Where the map
leaves the tiles of the entries free, no entry is in the way of another, so
every monster stands on the tile that was drawn for it, and every sector starts
with the same number of monsters.
-/
import SimplestMmorpg.Lua.SpawnScript
import SimplestMmorpg.Server.ChatRun
import SimplestMmorpg.Server.StatsRun
import SimplestMmorpg.Server.WireRun

set_option autoImplicit false

namespace Mmorpg

/-! ## Entries that are not in each other's way -/

/-- An object that finds its own tile free gets it. -/
theorem SectorManager.addObject_self {sm : SectorManager} {c : Position} {map : Map}
    (id : ObjectID) (hwalk : map.isWalkable c.x c.y = true) (hfree : sm.getOccupant c = invalidId) :
    ∃ sm', sm.addObject id c map = some (sm', c) := by
  have hin := map.inMap_of_isWalkable hwalk
  have hself : offset c (0, 0) = c := by
    obtain ⟨x, y⟩ := c
    simp only [InMap, mapWidth, mapHeight] at hin
    simp only [offset, Position.mk.injEq, Int.add_zero]
    exact ⟨toInt16_of_range (by omega) (by omega), toInt16_of_range (by omega) (by omega)⟩
  have hclaim : sm.tryClaim c id = some (sm.setTile c id) := by
    rw [getOccupant, if_pos hin] at hfree
    exact if_pos ⟨hin, hfree⟩
  -- the first offset of all is none
  have hrings : (List.range (20 + 1)).flatMap ring =
      (0, 0) :: ((List.range 20).map (· + 1)).flatMap ring := by
    rw [List.range_succ_eq_map, List.flatMap_cons]
    rfl
  have hnear : sm.tryClaimNearby id c 20 map = some (sm.setTile c id, c) := by
    rw [tryClaimNearby, hrings, List.findSome?_cons, hself]
    dsimp only
    rw [if_pos hwalk, hclaim, Option.map_some]
  exact ⟨_, by rw [addObject, hnear]⟩

namespace World

variable {w : World} {map : Map} {now : ℕ} {spawns : List MonsterSpawnData}

/-- **Entries with free tiles of their own get them.** -/
theorem placedEntries_of_free (hnodup : (spawns.map MonsterSpawnData.pos).Nodup)
    (hwalk : ∀ data ∈ spawns, w.map.isWalkable data.pos.x data.pos.y = true)
    (hfree : ∀ data ∈ spawns, w.sectorManager.getOccupant data.pos = invalidId) :
    w.placedEntries spawns = spawns.map fun data => (data, data.pos) := by
  induction spawns generalizing w with
  | nil => rfl
  | cons data rest ih =>
      obtain ⟨hne, hnodup⟩ := List.nodup_cons.mp hnodup
      obtain ⟨hw, hwalk⟩ := List.forall_mem_cons.mp hwalk
      obtain ⟨hf, hfree⟩ := List.forall_mem_cons.mp hfree
      obtain ⟨sm, hadd⟩ := SectorManager.addObject_self w.nextMonsterId hw hf
      have hnext := spawnMonster_of_some hadd
      rw [placedEntries, hadd, List.map_cons]
      dsimp only
      rw [ih hnodup ?_ ?_]
      · rw [hnext]
        exact hwalk
      · -- the tile that is taken is none of theirs
        intro other hother
        obtain ⟨-, -, htiles⟩ := SectorManager.getOccupant_addObject hadd
        have hpos : other.pos ≠ data.pos := fun h => hne (h ▸ List.mem_map_of_mem hother)
        rw [hnext]
        exact (htiles other.pos).trans ((if_neg hpos).trans (hfree other hother))

/-- The monsters are the entries then, each on its tile. -/
theorem entries_of_free (hnodup : (spawns.map MonsterSpawnData.pos).Nodup)
    (hwalk : ∀ data ∈ spawns, map.isWalkable data.pos.x data.pos.y = true) :
    ((World.empty map now).spawnMonsters spawns).monsters.entries =
      spawns.mapIdx fun k data => Monster.make (monsterIdOffset + k) data data.pos := by
  have hfree : ∀ data ∈ spawns,
      (World.empty map now).sectorManager.getOccupant data.pos = invalidId := by
    intro data _
    unfold World.empty SectorManager.init SectorManager.getOccupant
    exact ite_self _
  rw [entries_spawnMonsters, placedEntries_of_free hnodup hwalk hfree]
  refine (List.nil_append _).trans (List.ext_getElem? fun k => ?_)
  rw [List.getElem?_mapIdx, List.getElem?_mapIdx, List.getElem?_map]
  cases spawns[k]? with
  | none => rfl
  | some data => rfl

/-- When the server starts nobody plays, and no sector has an id twice. -/
theorem start_init (map : Map) (spawns : List MonsterSpawnData) (now : ℕ) :
    (GameWorld.init map spawns now).world.sectorManager.Sets ∧
      ∀ id, (GameWorld.init map spawns now).world.getPlayer id = none := by
  have hsets : ((World.empty map now).spawnMonsters spawns).sectorManager.Sets :=
    sets_spawnMonsters spawns SectorManager.sets_init
  refine ⟨hsets, fun id => ?_⟩
  have hplayers := (Server.monsters_spawnMonsters spawns (World.empty map now)).2.1
  have hempty : (World.empty map now).players.find id = none := rfl
  exact (congrArg (fun players => PlayerTable.find players id) hplayers).trans hempty

/-- A sector has the live monsters on its tiles, where nobody plays. -/
theorem length_sectors (hplaced : Placed w) (hsets : w.sectorManager.Sets)
    (hnobody : ∀ id, w.getPlayer id = none) (hlive : ∀ m ∈ w.monsters.entries, m.isDead = false)
    (z : Int) : (w.sectorManager.sectors z).length =
      w.monsters.entries.countP fun m => zoneOf m.pos = z := by
  have hperm : (w.sectorManager.sectors z).Perm
      ((w.monsters.entries.filter fun m => zoneOf m.pos = z).map Monster.id) := by
    have hids : (w.monsters.entries.map Monster.id).Nodup := by
      rw [ids_entries]
      exact List.nodup_range'
    refine (List.perm_ext_iff_of_nodup (hsets z) ((List.filter_sublist.map _).nodup hids)).mpr
      fun id => ?_
    rw [hplaced.agrees.mem_sectors, List.mem_map]
    constructor
    · rintro ⟨pos, hpos, hz⟩
      rcases hplaced.present_iff.mpr hpos with ⟨p, hp, -⟩ | ⟨m, hm, -, rfl⟩
      · rw [hnobody id] at hp
        exact absurd hp (by simp)
      · exact ⟨m, List.mem_filter.mpr ⟨MonsterTable.mem_of_find hm, by simpa using hz⟩,
          getMonster_id hm⟩
    · rintro ⟨m, hm, rfl⟩
      obtain ⟨hm, hz⟩ := List.mem_filter.mp hm
      refine ⟨m.pos, hplaced.present_iff.mp (.inr ⟨m, MonsterTable.find_of_mem hm, hlive m hm, rfl⟩),
        by simpa using hz⟩
  rw [hperm.length_eq, List.length_map, List.countP_eq_length_filter]

/-- On free tiles, monster after monster stands where its entry says. -/
theorem getMonster_of_free (hnodup : (spawns.map MonsterSpawnData.pos).Nodup)
    (hwalk : ∀ data ∈ spawns, map.isWalkable data.pos.x data.pos.y = true) (k : ℕ)
    (data : MonsterSpawnData) (hk : spawns[k]? = some data) :
    (GameWorld.init map spawns now).world.getMonster (monsterIdOffset + k) =
      some (Monster.make (monsterIdOffset + k) data data.pos) := by
  have hmem : Monster.make (monsterIdOffset + k) data data.pos ∈
      ((World.empty map now).spawnMonsters spawns).monsters.entries := by
    rw [entries_of_free hnodup hwalk]
    refine List.mem_of_getElem? (i := k) ?_
    rw [List.getElem?_mapIdx, hk, Option.map_some]
  exact MonsterTable.find_of_mem hmem

/-- And every sector has as many monsters as entries. -/
theorem length_getSector_of_free (hnodup : (spawns.map MonsterSpawnData.pos).Nodup)
    (hwalk : ∀ data ∈ spawns, map.isWalkable data.pos.x data.pos.y = true)
    (hspawns : SpawnsOk spawns) {sx sy : ℕ} (hx : sx < sectorCountX) (hy : sy < sectorCountY) :
    ((GameWorld.init map spawns now).world.sectorManager.getSector ⟨sx, sy⟩).length =
      spawns.countP fun data => getSectorCoord data.pos = ⟨sx, sy⟩ := by
  obtain ⟨hsets, hnobody⟩ := start_init map spawns now
  have hentries : (GameWorld.init map spawns now).world.monsters.entries =
      spawns.mapIdx fun k data => Monster.make (monsterIdOffset + k) data data.pos :=
    entries_of_free hnodup hwalk
  have hlive : ∀ m ∈ (GameWorld.init map spawns now).world.monsters.entries,
      m.isDead = false := by
    intro m hm
    rw [hentries, List.mem_mapIdx] at hm
    obtain ⟨k, hk, rfl⟩ := hm
    exact decide_eq_false (Int.not_le.mpr (hspawns.maxHp _ (List.getElem_mem hk)))
  rw [SectorManager.getSector, length_sectors (placed_init map hspawns now) hsets hnobody hlive,
    hentries]
  -- the place of an entry does not matter for its sector
  have hcount : ∀ (offset : ℕ) (l : List MonsterSpawnData), (∀ data ∈ l, data ∈ spawns) →
      (l.mapIdx fun k data => Monster.make (offset + k) data data.pos).countP
        (fun m => zoneOf m.pos = sectorIndex ⟨sx, sy⟩) =
      l.countP fun data => getSectorCoord data.pos = ⟨sx, sy⟩ := by
    intro offset l
    induction l generalizing offset with
    | nil => exact fun _ => rfl
    | cons data l ih =>
        intro hl
        obtain ⟨hd, hl⟩ := List.forall_mem_cons.mp hl
        have hin := map.inMap_of_isWalkable (hwalk data hd)
        have hzone : zoneOf data.pos = sectorIndex ⟨sx, sy⟩ ↔
            getSectorCoord data.pos = ⟨sx, sy⟩ :=
          SectorManager.sectorIndex_inj (getSectorCoord_inRange hin) (by
            unfold SectorCoord.InRange
            unfold sectorCountX sectorCountY at *
            dsimp only
            omega)
        rw [List.mapIdx_cons, List.countP_cons, List.countP_cons]
        have hrest := ih (offset + 1) hl
        simp only [Nat.add_assoc, Nat.add_comm 1] at hrest
        rw [hrest]
        congr 1
        exact if_congr (by simpa [Monster.make] using hzone) rfl rfl
  exact hcount monsterIdOffset spawns fun _ h => h

end World

namespace Script

open World

variable {rand : Random} {data : MonsterSpawnData}

/-! ## What is asked of a script -/

/-- An entry is one of a kind. -/
theorem exists_spot (h : data ∈ loaded rand) : ∃ s : Spot, s.data = data := by
  obtain ⟨s, -, hs⟩ := List.mem_map.mp ((loaded_perm.mem_iff).mp h)
  exact ⟨s, hs⟩

/-- The numbers of an entry. -/
theorem stats_of_mem (h : data ∈ loaded rand) :
    50 ≤ data.maxHp ∧ data.maxHp ≤ 1000 ∧ data.level.toNat ≤ 10 := by
  obtain ⟨⟨piece, coord⟩, rfl⟩ := exists_spot h
  unfold Spot.data
  dsimp only
  cases piece <;> decide

theorem spawnsOk (rand : Random) : SpawnsOk (loaded rand) where
  maxHp data hdata := Int.lt_of_lt_of_le (by decide) (stats_of_mem hdata).1
  few := by
    rw [length_loaded]
    decide

theorem rewardFits (h : data ∈ loaded rand) : data.RewardFits := by
  have hsq : data.level.toNat ^ 2 ≤ 10 ^ 2 := Nat.pow_le_pow_left (stats_of_mem h).2.2 2
  have hsq' : (data.level.toNat : Int) ^ 2 ≤ 10 ^ 2 := by exact_mod_cast hsq
  unfold MonsterSpawnData.RewardFits maxLevel
  omega

theorem fitsAtStart (rand : Random) : Server.FitsAtStart (loaded rand) .init where
  ids := by
    rw [length_loaded]
    decide
  script data hdata := by
    obtain ⟨hlo, hhi, -⟩ := stats_of_mem hdata
    unfold Packed.Signed
    omega
  rows e he := absurd he List.not_mem_nil

/-- **What the script spawns.** Whatever it draws, it has an entry for each cell
and twenty for each sector, no two on one tile, and they are as the other results
ask of a script. -/
theorem loaded_spec (rand : Random) :
    (loaded rand).length = 200000 ∧
    (∀ c ∈ cells, (loaded rand).countP (fun data => InCell c (data.pos.x, data.pos.y)) = 1) ∧
    (∀ sx sy, sx < sectorCountX → sy < sectorCountY →
      (loaded rand).countP (fun data => getSectorCoord data.pos = ⟨sx, sy⟩) = 20) ∧
    ((loaded rand).map MonsterSpawnData.pos).Nodup ∧
    SpawnsOk (loaded rand) ∧ (∀ data ∈ loaded rand, data.RewardFits) ∧
    Server.FitsAtStart (loaded rand) .init :=
  ⟨length_loaded, fun _ hc => countP_cell hc, fun _ _ hx hy => countP_sector hx hy, nodup_loaded,
    spawnsOk rand, fun _ hdata => rewardFits hdata, fitsAtStart rand⟩

/-! ## The world -/

/-- **The world of the script**, on a map that leaves its tiles free: monster after
monster stands on the tile that was drawn for it, and every sector has twenty. -/
theorem world_of_script (rand : Random) {map : Map} (now : ℕ)
    (hwalk : ∀ data ∈ loaded rand, map.isWalkable data.pos.x data.pos.y = true) :
    let w := (GameWorld.init map (loaded rand) now).world
    (∀ k data, (loaded rand)[k]? = some data →
      w.getMonster (monsterIdOffset + k) =
        some (Monster.make (monsterIdOffset + k) data data.pos)) ∧
    (∀ sx sy, sx < sectorCountX → sy < sectorCountY →
      (w.sectorManager.getSector ⟨sx, sy⟩).length = 20) := by
  have hspawns := spawnsOk rand
  have hsectors : ∀ sx sy : ℕ, sx < sectorCountX → sy < sectorCountY →
      (loaded rand).countP (fun data => getSectorCoord data.pos = ⟨sx, sy⟩) = 20 :=
    fun _ _ hx hy => countP_sector hx hy
  have hnodup : ((loaded rand).map MonsterSpawnData.pos).Nodup := nodup_loaded
  generalize loaded rand = spawns at hwalk hspawns hsectors hnodup
  exact ⟨getMonster_of_free hnodup hwalk, fun sx sy hx hy =>
    (length_getSector_of_free hnodup hwalk hspawns hx hy).trans (hsectors sx sy hx hy)⟩

/-- The lowest number each time, on a map without obstacles. -/
theorem world_of_script_openField :
    let rand : Random := ⟨fun _ lo _ => lo, fun _ _ _ h => ⟨Int.le_refl _, h⟩⟩
    ((GameWorld.init Server.openField (loaded rand) 0).world.sectorManager.getSector
      ⟨0, 0⟩).length = 20 := by
  intro rand
  refine (world_of_script rand 0 fun data hdata => ?_).2 0 0 (by decide) (by decide)
  have hin := inMap_of_mem hdata
  unfold InMap at hin
  unfold Map.isWalkable
  rw [if_neg (by omega)]
  rfl

end Script

end Mmorpg
