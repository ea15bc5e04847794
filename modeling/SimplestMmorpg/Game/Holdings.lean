/-
What one object holds: the tiles that name it, and the sectors it is in.

Each operation of `SectorManager` is about one object, and what it does to the
holding of that object is written here without any condition on the others. The
holdings of all other objects stay as they are.
-/
import SimplestMmorpg.Game.SectorManager

set_option autoImplicit false

namespace Mmorpg

/-- Tiles and sectors of one object. -/
@[ext] structure Holding where
  tiles : Set Position
  zones : Set Int

namespace Holding

/-- The tile is claimed and the object enters its sector. -/
def put (h : Holding) (p : Position) : Holding := ⟨insert p h.tiles, insert (zoneOf p) h.zones⟩

/-- The tile is released and the object leaves its sector. -/
def take (h : Holding) (p : Position) : Holding := ⟨h.tiles \ {p}, h.zones \ {zoneOf p}⟩

/-- No more than a tile, or nothing, and its sector. -/
structure Within (h : Holding) (o : Option Position) : Prop where
  tiles : ∀ p ∈ h.tiles, o = some p
  zones : ∀ z ∈ h.zones, o.map zoneOf = some z

/-- Exactly a tile, or nothing, and its sector. -/
structure At (h : Holding) (o : Option Position) : Prop where
  tiles : ∀ p, p ∈ h.tiles ↔ o = some p
  zones : ∀ z, z ∈ h.zones ↔ o.map zoneOf = some z

variable {h : Holding} {o : Option Position} {p q : Position}

theorem At.within (hat : h.At o) : h.Within o :=
  ⟨fun p hp => (hat.tiles p).mp hp, fun z hz => (hat.zones z).mp hz⟩

theorem Within.of_none (hw : h.Within none) : h.Within o where
  tiles p hp := absurd (hw.tiles p hp) (by simp)
  zones z hz := absurd (hw.zones z hz) (by simp)

theorem Within.take (hw : h.Within (some p)) : (h.take p).Within none where
  tiles q hq := absurd (Option.some.inj (hw.tiles q hq.1)).symm hq.2
  zones z hz := absurd (Option.some.inj (hw.zones z hz.1)).symm hz.2

theorem Within.put (hw : h.Within none) : (h.put p).Within (some p) where
  tiles q hq := by
    rcases hq with rfl | hq
    · rfl
    · exact absurd (hw.tiles q hq) (by simp)
  zones z hz := by
    rcases hz with rfl | hz
    · rfl
    · exact absurd (hw.zones z hz) (by simp)

theorem At.take (hat : h.At (some p)) : (h.take p).At none where
  tiles q := by
    refine ⟨fun hq => ?_, fun hq => absurd hq (by simp)⟩
    exact absurd (Option.some.inj ((hat.tiles q).mp hq.1)).symm hq.2
  zones z := by
    refine ⟨fun hz => ?_, fun hz => absurd hz (by simp)⟩
    exact absurd (Option.some.inj ((hat.zones z).mp hz.1)).symm hz.2

theorem At.put (hat : h.At none) : (h.put p).At (some p) where
  tiles q := by
    refine ⟨(hat.within.put (p := p)).tiles q, fun hq => ?_⟩
    exact .inl (Option.some.inj hq).symm
  zones z := by
    refine ⟨(hat.within.put (p := p)).zones z, fun hz => ?_⟩
    exact .inl (Option.some.inj hz).symm

/-- Exactly a tile and its sector. -/
theorem at_some_iff : h.At (some p) ↔ h = ⟨{p}, {zoneOf p}⟩ := by
  constructor
  · intro hat
    refine Holding.ext (Set.ext fun q => ?_) (Set.ext fun z => ?_)
    · rw [hat.tiles, Set.mem_singleton_iff, Option.some.injEq, eq_comm]
    · rw [hat.zones, Set.mem_singleton_iff, Option.map_some, Option.some.injEq, eq_comm]
  · rintro rfl
    refine ⟨fun q => ?_, fun z => ?_⟩
    · rw [Set.mem_singleton_iff, Option.some.injEq, eq_comm]
    · rw [Set.mem_singleton_iff, Option.map_some, Option.some.injEq, eq_comm]

end Holding

namespace SectorManager

variable {sm sm' : SectorManager} {id j : ObjectID} {c p q : Position} {map : Map}

/-- What an object holds. -/
def holding (sm : SectorManager) (id : ObjectID) : Holding :=
  ⟨{p | sm.getOccupant p = id}, {z | id ∈ sm.sectors z}⟩

/-- What a store to one tile does, from what it does to the entries. -/
theorem holding_of_tiles {T : Set Position} (hsectors : sm'.sectors = sm.sectors)
    (htiles : ∀ q, sm'.getOccupant q = j ↔ if j = id then q ∈ T else sm.getOccupant q = j) :
    sm'.holding j = if j = id then ⟨T, (sm.holding j).zones⟩ else sm.holding j := by
  have hzones : (sm'.holding j).zones = (sm.holding j).zones := by
    rw [holding, hsectors]
    rfl
  split
  · next hj =>
      refine Holding.ext (Set.ext fun q => ?_) hzones
      rw [holding, Set.mem_ofPred_eq, htiles, if_pos hj]
  · next hj =>
      refine Holding.ext (Set.ext fun q => ?_) hzones
      rw [holding, Set.mem_ofPred_eq, htiles, if_neg hj]
      rfl

/-- And a change of one sector, from what it does to the sets. -/
theorem holding_of_zones {Z : Set Int} (htiles : sm'.tileToObject = sm.tileToObject)
    (hzones : ∀ z, j ∈ sm'.sectors z ↔ if j = id then z ∈ Z else j ∈ sm.sectors z) :
    sm'.holding j = if j = id then ⟨(sm.holding j).tiles, Z⟩ else sm.holding j := by
  have hsame : (sm'.holding j).tiles = (sm.holding j).tiles := by
    simp only [holding, getOccupant, htiles]
  split
  · next hj =>
      refine Holding.ext hsame (Set.ext fun z => ?_)
      rw [holding, Set.mem_ofPred_eq, hzones, if_pos hj]
  · next hj =>
      refine Holding.ext hsame (Set.ext fun z => ?_)
      rw [holding, Set.mem_ofPred_eq, hzones, if_neg hj]
      rfl

/-! ## Tiles -/

/-- A claim writes one tile. -/
theorem holding_claim (hj : j ≠ invalidId) (h : sm.tryClaim p id = some sm') :
    sm'.holding j =
      if j = id then ⟨insert p (sm.holding j).tiles, (sm.holding j).zones⟩ else sm.holding j := by
  obtain ⟨hin, hfree, rfl⟩ := tryClaim_eq_some h
  have htiles : ∀ q, (sm.setTile p id).getOccupant q = j ↔
      if j = id then q = p ∨ sm.getOccupant q = j else sm.getOccupant q = j := by
    intro q
    rw [getOccupant_setTile hin]
    by_cases hq : q = p
    · subst hq
      by_cases hji : j = id
      · simp [hji]
      · simp [hji, hfree, Ne.symm hj, Ne.symm hji]
    · simp [hq]
  exact holding_of_tiles rfl htiles

/-- A release clears one tile, if it is the object's. -/
theorem holding_release (sm : SectorManager) (hj : j ≠ invalidId) (id : ObjectID) (p : Position) :
    (sm.release p id).holding j =
      if j = id then ⟨(sm.holding j).tiles \ {p}, (sm.holding j).zones⟩ else sm.holding j := by
  by_cases hc : InMap p ∧ sm.tileToObject (tileIndex p) = id
  · have ho : sm.getOccupant p = id := by rw [getOccupant, if_pos hc.1, hc.2]
    have htiles : ∀ q, (sm.setTile p invalidId).getOccupant q = j ↔
        if j = id then sm.getOccupant q = j ∧ q ≠ p else sm.getOccupant q = j := by
      intro q
      rw [getOccupant_setTile hc.1]
      by_cases hq : q = p
      · subst hq
        by_cases hji : j = id
        · simp [hji, Ne.symm (hji ▸ hj)]
        · simp [hji, ho, Ne.symm hj, Ne.symm hji]
      · simp [hq]
    rw [release, if_pos hc]
    exact holding_of_tiles rfl htiles
  · rw [release, if_neg hc]
    split
    · next hji =>
        refine Holding.ext (Set.ext fun q => ⟨fun hq => ⟨hq, ?_⟩, fun hq => hq.1⟩) rfl
        rintro rfl
        have hin := inMap_of_getOccupant hj hq
        have htile : sm.getOccupant q = j := hq
        rw [getOccupant, if_pos hin] at htile
        exact hc ⟨hin, htile.trans hji⟩
    · rfl

/-! ## Sectors -/

theorem holding_sectorInsert (sm : SectorManager) (c : SectorCoord) (id j : ObjectID) :
    (sm.sectorInsert c id).holding j =
      if j = id then ⟨(sm.holding j).tiles, insert (sectorIndex c) (sm.holding j).zones⟩
      else sm.holding j := by
  have hzones : ∀ z, j ∈ (sm.sectorInsert c id).sectors z ↔
      if j = id then z = sectorIndex c ∨ j ∈ sm.sectors z else j ∈ sm.sectors z := by
    intro z
    simp only [sectorInsert, getSector]
    by_cases hz : z = sectorIndex c
    · subst hz
      by_cases hj : j = id <;> simp [hj]
    · simp [hz]
  exact holding_of_zones rfl hzones

theorem holding_sectorErase (sm : SectorManager) (c : SectorCoord) (id j : ObjectID) :
    (sm.sectorErase c id).holding j =
      if j = id then ⟨(sm.holding j).tiles, (sm.holding j).zones \ {sectorIndex c}⟩
      else sm.holding j := by
  have hzones : ∀ z, j ∈ (sm.sectorErase c id).sectors z ↔
      if j = id then j ∈ sm.sectors z ∧ z ≠ sectorIndex c else j ∈ sm.sectors z := by
    intro z
    simp only [sectorErase, getSector]
    by_cases hz : z = sectorIndex c
    · subst hz
      by_cases hj : j = id <;> simp [hj]
    · simp [hz]
  exact holding_of_zones rfl hzones

/-! ## The operations -/

/-- **`AddObject`** adds a tile and a sector to what the object holds. -/
theorem holding_addObject (hj : j ≠ invalidId) (h : sm.addObject id c map = some (sm', q)) :
    sm'.holding j = if j = id then (sm.holding j).put q else sm.holding j := by
  unfold addObject at h
  split at h
  · exact absurd h (by simp)
  · next sm₁ out hnear =>
      obtain ⟨rfl, rfl⟩ := Prod.mk.inj (Option.some.inj h)
      obtain ⟨hclaim, -, -⟩ := tryClaimNearby_eq_some hnear
      rw [holding_sectorInsert, holding_claim hj hclaim]
      split <;> rfl

/-- **`RemoveObject`** takes them away. -/
theorem holding_removeObject (sm : SectorManager) (hj : j ≠ invalidId) (id : ObjectID)
    (p : Position) :
    (sm.removeObject id p).holding j =
      if j = id then (sm.holding j).take p else sm.holding j := by
  rw [removeObject, holding_sectorErase, holding_release sm hj]
  split <;> rfl

/-- **`MoveObject`** goes from one sector to another; the same sector is left alone. -/
theorem holding_moveObject (sm : SectorManager) (id j : ObjectID) (p q : Position) :
    (sm.moveObject id p q).holding j =
      if j = id ∧ getSectorCoord p ≠ getSectorCoord q then
        ⟨(sm.holding j).tiles, insert (zoneOf q) ((sm.holding j).zones \ {zoneOf p})⟩
      else sm.holding j := by
  unfold moveObject
  by_cases hs : getSectorCoord p = getSectorCoord q
  · rw [if_pos hs, if_neg (fun hc => hc.2 hs)]
  · rw [if_neg hs, holding_sectorInsert, holding_sectorErase]
    by_cases hj : j = id
    · rw [if_pos hj, if_pos hj, if_pos ⟨hj, hs⟩]
      rfl
    · rw [if_neg hj, if_neg hj, if_neg fun hc => hj hc.1]

/-- **`TryMoveObject`** changes nothing of what others hold. -/
theorem holding_tryMoveObject_of_ne (hj : j ≠ invalidId) (hne : j ≠ id)
    (h : sm.tryMoveObject id p q = some sm') : sm'.holding j = sm.holding j := by
  unfold tryMoveObject at h
  split at h
  · rw [Option.some.inj h]
  · split at h
    · exact absurd h (by simp)
    · next sm₁ hclaim =>
        rw [← Option.some.inj h, holding_moveObject, if_neg fun hc => hne hc.1,
          holding_release sm₁ hj, if_neg hne, holding_claim hj hclaim, if_neg hne]

/-- What a move between two different tiles does to what the object holds. -/
theorem holding_tryMoveObject (hid : id ≠ invalidId) (hpq : p ≠ q)
    (h : sm.tryMoveObject id p q = some sm') :
    (sm'.holding id).tiles = insert q (sm.holding id).tiles \ {p} ∧
      (sm'.holding id).zones =
        if getSectorCoord p = getSectorCoord q then (sm.holding id).zones
        else insert (zoneOf q) ((sm.holding id).zones \ {zoneOf p}) := by
  rw [tryMoveObject, if_neg hpq] at h
  split at h
  · exact absurd h (by simp)
  · next sm₁ hclaim =>
      rw [← Option.some.inj h, holding_moveObject, holding_release sm₁ hid, if_pos rfl,
        holding_claim hid hclaim, if_pos rfl]
      by_cases hs : getSectorCoord p = getSectorCoord q
      · rw [if_neg fun hc => hc.2 hs, if_pos hs]
        exact ⟨rfl, rfl⟩
      · rw [if_pos ⟨rfl, hs⟩, if_neg hs]
        exact ⟨rfl, rfl⟩

/-- An object that holds no more than its tile goes to another. -/
theorem within_tryMoveObject (hid : id ≠ invalidId) (hw : (sm.holding id).Within (some p))
    (h : sm.tryMoveObject id p q = some sm') : (sm'.holding id).Within (some q) := by
  by_cases hpq : p = q
  · subst hpq
    rw [tryMoveObject_self, Option.some.injEq] at h
    exact h ▸ hw
  · obtain ⟨htiles, hzones⟩ := holding_tryMoveObject hid hpq h
    refine ⟨fun r hr => ?_, fun z hz => ?_⟩
    · rw [htiles] at hr
      obtain ⟨rfl | hr, hrp⟩ := hr
      · rfl
      · exact absurd (Option.some.inj (hw.tiles r hr)).symm hrp
    · rw [hzones] at hz
      split at hz
      · next hs =>
          have hzp := hw.zones z hz
          rw [Option.map_some, zoneOf, hs] at hzp
          exact hzp
      · rcases hz with rfl | hz
        · rfl
        · exact absurd (Option.some.inj (hw.zones z hz.1)).symm hz.2

/-- And one that holds exactly its tile. -/
theorem at_tryMoveObject (hid : id ≠ invalidId) (hat : (sm.holding id).At (some p))
    (h : sm.tryMoveObject id p q = some sm') : (sm'.holding id).At (some q) := by
  have hw := within_tryMoveObject hid hat.within h
  by_cases hpq : p = q
  · subst hpq
    rw [tryMoveObject_self, Option.some.injEq] at h
    exact h ▸ hat
  · obtain ⟨htiles, hzones⟩ := holding_tryMoveObject hid hpq h
    refine ⟨fun r => ⟨hw.tiles r, fun hr => ?_⟩, fun z => ⟨hw.zones z, fun hz => ?_⟩⟩
    · rw [htiles, ← Option.some.inj hr]
      exact ⟨.inl rfl, fun hqp => hpq hqp.symm⟩
    · rw [hzones, ← Option.some.inj hz]
      split
      · next hs =>
          rw [hat.zones, Option.map_some, zoneOf, hs]
          rfl
      · exact .inl rfl

/-- No object that is not on the map has exactly one tile. -/
theorem ne_invalidId_of_at (hat : (sm.holding id).At (some p)) : id ≠ invalidId := by
  rintro rfl
  -- all tiles outside the map name the invalid id
  have hout : ∀ q, ¬ InMap q → p = q := fun q hq =>
    Option.some.inj ((hat.tiles q).mp (by simp [holding, getOccupant, hq]))
  have hleft := hout ⟨-1, 0⟩ (by decide)
  have hright := hout ⟨-2, 0⟩ (by decide)
  exact absurd (hleft.symm.trans hright) (by decide)

/-! ## The start -/

theorem holding_init (hid : id ≠ invalidId) : (init.holding id).At none where
  tiles p := by
    have hne : ¬ invalidId = id := Ne.symm hid
    simp [holding, getOccupant, init, hne]
  zones z := by simp [holding, init]

end SectorManager

end Mmorpg
