/-
`Common/Constants.h` and `Common/Types.h`.

Coordinates are `int16_t` in the source; here they are integers, and `toInt16`
stands wherever the source narrows a sum back to `int16_t`. Object ids are
`uint32_t`; the ids of players are session ids, below `MAX_PLAYERS`, and the
ids of monsters start at `MONSTER_ID_OFFSET`.
-/
import Mathlib.Data.List.Basic
import Mathlib.Tactic.Common

set_option autoImplicit false

namespace Mmorpg

/-! ## Constants -/

abbrev mapWidth : ℕ := 2000
abbrev mapHeight : ℕ := 2000
abbrev sectorSize : ℕ := 20
abbrev sectorCountX : ℕ := 100
abbrev sectorCountY : ℕ := 100

/-- `MAX_LEVEL`. -/
abbrev maxLevel : ℕ := 20

/-- `HALF_VIEW = VIEW_RANGE / 2`. -/
abbrev halfView : ℕ := 10

/-- `HALF_AGRO = AGRO_RANGE / 2`. -/
abbrev halfAgro : ℕ := 7

abbrev roamingRange : ℕ := 20
abbrev maxPlayers : ℕ := 15000
abbrev monsterIdOffset : ℕ := 1000000

abbrev moveCooldownMs : ℕ := 1000
abbrev attackCooldownMs : ℕ := 1000
abbrev chatCooldownMs : ℕ := 500
abbrev hpRegenIntervalMs : ℕ := 5000
abbrev monsterRespawnMs : ℕ := 30000
abbrev monsterAiTickMs : ℕ := 1000
abbrev dbSaveIntervalMs : ℕ := 60000

/-! ## Integers of fixed width -/

/-- Narrowing to `int16_t`. -/
def toInt16 (v : Int) : Int := (v + 32768) % 65536 - 32768

/-- Conversion to `int32_t`, and what the arithmetic of `int32_t` leaves of a value. -/
def toInt32 (v : Int) : Int := (v + 2147483648) % 4294967296 - 2147483648

/-- Conversion to `uint16_t`. -/
def toUInt16 (v : Int) : Int := v % 65536

/-- Conversion to `uint32_t`. -/
def toUInt32 (v : Int) : Int := v % 4294967296

theorem toInt16_of_range {v : Int} (h1 : -32768 ≤ v) (h2 : v < 32768) : toInt16 v = v := by
  unfold toInt16; omega

theorem toInt32_of_range {v : Int} (h1 : -2147483648 ≤ v) (h2 : v < 2147483648) : toInt32 v = v := by
  unfold toInt32; omega

/-! ## Ids, positions, sectors -/

/-- `ObjectID`, a `uint32_t`. -/
abbrev ObjectID := ℕ

/-- `SectorManager::INVALID_ID` and `GameWorld::INVALID_PLAYER_ID`, `UINT32_MAX`. -/
abbrev invalidId : ObjectID := 4294967295

/-- Which `Session` object: connections are numbered in the order in which
they are accepted, so a number is never used twice. -/
abbrev ConnId := ℕ

structure Position where
  x : Int
  y : Int
  deriving DecidableEq, Repr

structure SectorCoord where
  sx : Int
  sy : Int
  deriving DecidableEq, Repr

/-- `GetSectorCoord`: C++ division, towards zero. -/
def getSectorCoord (p : Position) : SectorCoord :=
  ⟨p.x.tdiv sectorSize, p.y.tdiv sectorSize⟩

/-- Inside the map. -/
def InMap (p : Position) : Prop :=
  0 ≤ p.x ∧ p.x < mapWidth ∧ 0 ≤ p.y ∧ p.y < mapHeight

instance (p : Position) : Decidable (InMap p) := by
  unfold InMap; infer_instance

theorem getSectorCoord_of_inMap {p : Position} (h : InMap p) :
    getSectorCoord p = ⟨p.x / 20, p.y / 20⟩ := by
  obtain ⟨hx, -, hy, -⟩ := h
  simp only [getSectorCoord, SectorCoord.mk.injEq]
  exact ⟨Int.tdiv_eq_ediv_of_nonneg hx, Int.tdiv_eq_ediv_of_nonneg hy⟩

/-- The sectors the arrays hold. -/
def SectorCoord.InRange (c : SectorCoord) : Prop :=
  0 ≤ c.sx ∧ c.sx < sectorCountX ∧ 0 ≤ c.sy ∧ c.sy < sectorCountY

instance (c : SectorCoord) : Decidable c.InRange := by
  unfold SectorCoord.InRange; infer_instance

theorem getSectorCoord_inRange {p : Position} (h : InMap p) : (getSectorCoord p).InRange := by
  rw [getSectorCoord_of_inMap h]
  obtain ⟨h1, h2, h3, h4⟩ := h
  simp only [SectorCoord.InRange, mapWidth, mapHeight, sectorCountX, sectorCountY] at *
  omega

/-- `MonsterBehavior`. -/
inductive MonsterBehavior where
  | peace
  | agro
  deriving DecidableEq, Repr

/-- `MonsterMovement`. -/
inductive MonsterMovement where
  | fixed
  | roaming
  deriving DecidableEq, Repr

/-- `ObjectType`. -/
inductive ObjectType where
  | player
  | monster
  deriving DecidableEq, Repr

/-- The four offsets of `DX` and `DY`: up, down, left, right. -/
def directions : List (Int × Int) := [(0, -1), (0, 1), (-1, 0), (1, 0)]

/-- `std::string` contents. -/
abbrev Bytes := List UInt8

end Mmorpg
