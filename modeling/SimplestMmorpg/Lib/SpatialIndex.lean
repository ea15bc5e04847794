/-
An index of objects by place: which object stands on a tile, and which objects
are in a zone, a coarser cell that holds many tiles.

Both tables repeat what one map says, the placement, which gives every object
that is placed its one tile. `Agrees` is that they do, and the three
operations keep it under the condition each needs: an object is put on a free
tile, and taken from the tile it is on.

Nothing here is about any program.
-/
import Mathlib.Data.Set.Insert
import Mathlib.Order.BooleanAlgebra.Set
import Mathlib.Logic.Function.Basic

set_option autoImplicit false

namespace SpatialIndex

variable {Id Pos Zone : Type*}

/-- Who is on a tile, and who is in a zone. -/
@[ext] structure Index (Id Pos Zone : Type*) where
  occupant : Pos → Option Id
  members : Zone → Set Id

/-- Where each object is; `none` for one that is not placed. -/
abbrev Placement (Id Pos : Type*) := Id → Option Pos

/-- The index says what the placement says, about every tile and every zone. -/
structure Agrees (zone : Pos → Zone) (ix : Index Id Pos Zone) (place : Placement Id Pos) :
    Prop where
  occupant_iff : ∀ p i, ix.occupant p = some i ↔ place i = some p
  members_iff : ∀ z i, i ∈ ix.members z ↔ ∃ p, place i = some p ∧ zone p = z

variable {zone : Pos → Zone} {ix : Index Id Pos Zone} {place : Placement Id Pos}
  {i j : Id} {p q : Pos}

namespace Agrees

/-- Two objects are never on one tile. -/
theorem injective (h : Agrees zone ix place) (hi : place i = some p) (hj : place j = some p) :
    i = j := by
  rw [← h.occupant_iff] at hi hj
  exact Option.some.inj (hi.symm.trans hj)

/-- A free tile is nobody's place. -/
theorem place_ne (h : Agrees zone ix place) (hp : ix.occupant p = none) : place i ≠ some p := by
  rw [Ne, ← h.occupant_iff, hp]
  exact Option.some_ne_none i ∘ Eq.symm

/-- An empty index agrees with the empty placement. -/
theorem empty : Agrees zone (⟨fun _ => none, fun _ => ∅⟩ : Index Id Pos Zone) fun _ => none where
  occupant_iff p i := by simp
  members_iff z i := by simp

/-- The same objects at the same places. -/
theorem congr (h : Agrees zone ix place) {place' : Placement Id Pos} (hp : ∀ i, place' i = place i) :
    Agrees zone ix place' := by
  rwa [show place' = place from funext hp]

end Agrees

namespace Index

variable [DecidableEq Pos] [DecidableEq Zone]

/-- Write an object to a tile and to a zone. -/
def put (ix : Index Id Pos Zone) (zone : Pos → Zone) (i : Id) (p : Pos) : Index Id Pos Zone where
  occupant := Function.update ix.occupant p (some i)
  members := Function.update ix.members (zone p) (insert i (ix.members (zone p)))

/-- Clear a tile, and the object's entry in a zone. -/
def take (ix : Index Id Pos Zone) (zone : Pos → Zone) (i : Id) (p : Pos) : Index Id Pos Zone where
  occupant := Function.update ix.occupant p none
  members := Function.update ix.members (zone p) (ix.members (zone p) \ {i})

end Index

namespace Agrees

variable [DecidableEq Id] [DecidableEq Pos] [DecidableEq Zone]

/-- An object that is not placed is put on a free tile. -/
theorem put (h : Agrees zone ix place) (hi : place i = none) (hp : ix.occupant p = none) :
    Agrees zone (ix.put zone i p) (Function.update place i (some p)) where
  occupant_iff q j := by
    have hfree := h.place_ne (i := j) hp
    simp only [Index.put]
    by_cases hq : q = p
    · subst hq
      rw [Function.update_self]
      by_cases hj : j = i
      · subst hj; simp
      · rw [Function.update_of_ne hj]
        simp [hfree, Ne.symm hj]
    · rw [Function.update_of_ne hq, h.occupant_iff]
      by_cases hj : j = i
      · subst hj; simp [hi, Ne.symm hq]
      · rw [Function.update_of_ne hj]
  members_iff z j := by
    simp only [Index.put]
    by_cases hj : j = i
    · subst hj
      by_cases hz : z = zone p
      · subst hz; simp
      · rw [Function.update_of_ne hz, h.members_iff]
        simp [hi, Ne.symm hz]
    · rw [Function.update_of_ne hj, ← h.members_iff]
      by_cases hz : z = zone p
      · subst hz; simp [hj]
      · rw [Function.update_of_ne hz]

/-- A placed object is taken from its tile. -/
theorem take (h : Agrees zone ix place) (hi : place i = some p) :
    Agrees zone (ix.take zone i p) (Function.update place i none) where
  occupant_iff q j := by
    simp only [Index.take]
    by_cases hj : j = i
    · subst hj
      rw [Function.update_self]
      by_cases hq : q = p
      · subst hq; simp
      · rw [Function.update_of_ne hq, h.occupant_iff, hi]
        simp [Ne.symm hq]
    · rw [Function.update_of_ne hj, ← h.occupant_iff]
      by_cases hq : q = p
      · subst hq
        rw [Function.update_self, (h.occupant_iff q i).mpr hi]
        simp [Ne.symm hj]
      · rw [Function.update_of_ne hq]
  members_iff z j := by
    simp only [Index.take]
    by_cases hj : j = i
    · subst hj
      rw [Function.update_self]
      by_cases hz : z = zone p
      · subst hz; simp
      · rw [Function.update_of_ne hz, h.members_iff, hi]
        simp [Ne.symm hz]
    · rw [Function.update_of_ne hj, ← h.members_iff]
      by_cases hz : z = zone p
      · subst hz; simp [hj]
      · rw [Function.update_of_ne hz]

/-- A placed object goes to a free tile: it is taken from the one and put on
the other. -/
theorem move (h : Agrees zone ix place) (hi : place i = some p) (hq : ix.occupant q = none) :
    Agrees zone ((ix.take zone i p).put zone i q) (Function.update place i (some q)) := by
  have hqp : q ≠ p := by
    rintro rfl
    exact h.place_ne hq hi
  have hput := (h.take hi).put (i := i) (p := q) (by rw [Function.update_self])
    (by simp only [Index.take]; rw [Function.update_of_ne hqp, hq])
  rwa [Function.update_idem] at hput

end Agrees

end SpatialIndex
