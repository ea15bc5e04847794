/-
`Common/Map`: the obstacle bytes and `IsWalkable`.
-/
import SimplestMmorpg.Common.Types

set_option autoImplicit false

namespace Mmorpg

/-- `Map`: `m_obstacle`, `MAP_WIDTH * MAP_HEIGHT` bytes, row by row. -/
structure Map where
  obstacle : ℕ → UInt8

/-- The index of a tile in the arrays that hold one entry for each tile. -/
def tileIndex (p : Position) : ℕ := p.y.toNat * mapWidth + p.x.toNat

/-- Different tiles of the map have different entries. -/
theorem tileIndex_inj {p q : Position} (hp : InMap p) (hq : InMap q) :
    tileIndex p = tileIndex q ↔ p = q := by
  refine ⟨fun h => ?_, fun h => by rw [h]⟩
  obtain ⟨px, py⟩ := p
  obtain ⟨qx, qy⟩ := q
  simp only [InMap, tileIndex, mapWidth, mapHeight, Position.mk.injEq] at *
  omega

namespace Map

variable (map : Map)

def isWalkable (x y : Int) : Bool :=
  if x < 0 ∨ mapWidth ≤ x ∨ y < 0 ∨ mapHeight ≤ y then false
  else map.obstacle (tileIndex ⟨x, y⟩) == 0

theorem inMap_of_isWalkable {x y : Int} (h : map.isWalkable x y = true) : InMap ⟨x, y⟩ := by
  unfold isWalkable at h
  split at h
  · exact absurd h (by simp)
  · simp only [InMap, mapWidth, mapHeight] at *
    omega

end Map

end Mmorpg
