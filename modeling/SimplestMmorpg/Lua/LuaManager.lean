/-
`Server/Lua/LuaManager`: what is taken from the spawn script.

The script runs in Lua; what is here begins with the table `monster_spawns` it
leaves. A number is converted by `static_cast`, so every value of the type of a
field can come out, whatever its meaning is, and nothing is checked after that
(`exists_script`).
-/
import SimplestMmorpg.Game.Monster

set_option autoImplicit false

namespace Mmorpg.LuaManager

/-- An entry of `monster_spawns`. -/
structure LuaMonster where
  name : Bytes
  level : Int
  hp : Int
  behavior : Bytes
  movement : Bytes
  /-- `none` when the field is no table. -/
  spawns : Option (List (Int × Int))

/-- `"agro"` -/
def agro : Bytes := [97, 103, 114, 111]

/-- `"roaming"` -/
def roaming : Bytes := [114, 111, 97, 109, 105, 110, 103]

def parseBehavior (s : Bytes) : MonsterBehavior := if s = agro then .agro else .peace

def parseMovement (s : Bytes) : MonsterMovement := if s = roaming then .roaming else .fixed

/-- `LoadMonsterSpawns`; `none` when the script fails or leaves no table. -/
def loadMonsterSpawns : Option (List LuaMonster) → List MonsterSpawnData
  | none => []
  | some monsters => monsters.flatMap fun monster =>
    match monster.spawns with
    | none => []
    | some positions => positions.map fun coord =>
      { name := monster.name
        level := UInt16.ofNat (toUInt16 monster.level).toNat
        maxHp := toInt32 monster.hp
        behavior := parseBehavior monster.behavior
        movement := parseMovement monster.movement
        pos := ⟨toInt16 coord.1, toInt16 coord.2⟩ }

/-- **The loader admits everything its types can hold**: any level, behaviour
and movement come from some script. -/
theorem exists_script (data : MonsterSpawnData)
    (hhp : -2147483648 ≤ data.maxHp ∧ data.maxHp < 2147483648)
    (hx : -32768 ≤ data.pos.x ∧ data.pos.x < 32768)
    (hy : -32768 ≤ data.pos.y ∧ data.pos.y < 32768) :
    ∃ script, loadMonsterSpawns script = [data] := by
  refine ⟨some [⟨data.name, data.level.toNat, data.maxHp,
    if data.behavior = .agro then agro else [], if data.movement = .roaming then roaming else [],
    some [(data.pos.x, data.pos.y)]⟩], ?_⟩
  obtain ⟨name, level, maxHp, behavior, movement, ⟨x, y⟩⟩ := data
  dsimp only at hhp hx hy
  have hlevel : UInt16.ofNat (toUInt16 level.toNat).toNat = level := by
    have hlt := level.toNat_lt
    have hmod : (toUInt16 level.toNat).toNat = level.toNat := by
      unfold toUInt16
      omega
    rw [hmod, UInt16.ofNat_toNat]
  have hmax : toInt32 maxHp = maxHp := toInt32_of_range hhp.1 hhp.2
  have hbehavior : parseBehavior (if behavior = .agro then agro else []) = behavior := by
    cases behavior <;> decide
  have hmovement : parseMovement (if movement = .roaming then roaming else []) = movement := by
    cases movement <;> decide
  simp only [loadMonsterSpawns, List.flatMap_cons, List.flatMap_nil, List.map_cons, List.map_nil,
    List.append_nil, hlevel, hmax, hbehavior, hmovement, toInt16_of_range hx.1 hx.2,
    toInt16_of_range hy.1 hy.2]

end Mmorpg.LuaManager
