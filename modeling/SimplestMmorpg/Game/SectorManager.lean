/-
`Server/Game/SectorManager`: who stands on which tile, and who is in which
sector.

## What is modelled

The tiles are an array of object ids, `INVALID_ID` for a free one; a claim and
a release are compare-exchanges on one entry. The sectors are an array of
sets, indexed by `sy * SECTOR_COUNT_X + sx`. The coordinates of a sector outside
the map lead to the index that this gives, as in the source: it may be that of a
sector of the map (`(100, 0)` and `(0, 1)` have the same). An index outside the
array is undefined behaviour in the source; here it is one that no sector of the
map has.

The sets are lists without an order of their own: the order in which a range
query walks one is the parameter `iter`.

## What it is for

`index` reads the two arrays as a spatial index, and each operation is then
one of `put`, `take` and `move` (`index_addObject`, `index_removeObject`,
`index_tryMoveObject`). `SectorManager.Agrees` is the resulting invariant.
-/
import SimplestMmorpg.Common.Map
import SimplestMmorpg.Lib.SpatialIndex

set_option autoImplicit false

namespace Mmorpg

/-- `SectorManager`: `m_sectors` and `m_tileToObject`. -/
structure SectorManager where
  sectors : Int → List ObjectID
  tileToObject : ℕ → ObjectID

/-- The index of a sector in `m_sectors`. -/
def sectorIndex (c : SectorCoord) : Int := c.sy * sectorCountX + c.sx

/-- The index of the sector a tile is in. -/
def zoneOf (p : Position) : Int := sectorIndex (getSectorCoord p)

namespace SectorManager

/-- The constructor: no objects, every tile free. -/
def init : SectorManager := ⟨fun _ => [], fun _ => invalidId⟩

variable (sm : SectorManager)

def getSector (c : SectorCoord) : List ObjectID := sm.sectors (sectorIndex c)

/-- `objects.insert(id)` on a sector. -/
def sectorInsert (c : SectorCoord) (id : ObjectID) : SectorManager :=
  { sm with sectors := Function.update sm.sectors (sectorIndex c) ((sm.getSector c).insert id) }

/-- `objects.erase(id)` on a sector. -/
def sectorErase (c : SectorCoord) (id : ObjectID) : SectorManager :=
  { sm with
    sectors := Function.update sm.sectors (sectorIndex c) ((sm.getSector c).filter (· ≠ id)) }

/-- A store to the entry of a tile. -/
def setTile (p : Position) (id : ObjectID) : SectorManager :=
  { sm with tileToObject := Function.update sm.tileToObject (tileIndex p) id }

def getOccupant (p : Position) : ObjectID :=
  if InMap p then sm.tileToObject (tileIndex p) else invalidId

def tryClaim (p : Position) (id : ObjectID) : Option SectorManager :=
  if InMap p ∧ sm.tileToObject (tileIndex p) = invalidId then some (sm.setTile p id) else none

def release (p : Position) (id : ObjectID) : SectorManager :=
  if InMap p ∧ sm.tileToObject (tileIndex p) = id then sm.setTile p invalidId else sm

/-- `-radius, …, radius`. -/
def span (radius : ℕ) : List Int :=
  (List.range (2 * radius + 1)).map fun i : ℕ => (i : Int) - radius

/-- The offsets one round of the outer loop of `TryClaimNearby` looks at: the
border of a square, row by row. -/
def ring (radius : ℕ) : List (Int × Int) :=
  (span radius).flatMap fun dy =>
    ((span radius).filter fun dx =>
      ¬ (0 < radius ∧ dy.natAbs ≠ radius ∧ dx.natAbs ≠ radius)).map fun dx => (dx, dy)

/-- The tile an offset leads to; the sum is narrowed to `int16_t`. -/
def offset (c : Position) (d : Int × Int) : Position :=
  ⟨toInt16 (c.x + d.1), toInt16 (c.y + d.2)⟩

/-- The first walkable tile that can be claimed, ring after ring. -/
def tryClaimNearby (id : ObjectID) (c : Position) (maxRadius : ℕ) (map : Map) :
    Option (SectorManager × Position) :=
  ((List.range (maxRadius + 1)).flatMap ring).findSome? fun d =>
    let p := offset c d
    if map.isWalkable p.x p.y then (sm.tryClaim p id).map fun sm' => (sm', p) else none

def addObject (id : ObjectID) (c : Position) (map : Map) : Option (SectorManager × Position) :=
  match sm.tryClaimNearby id c 20 map with
  | none => none
  | some (sm', out) => some (sm'.sectorInsert (getSectorCoord out) id, out)

def removeObject (id : ObjectID) (p : Position) : SectorManager :=
  (sm.release p id).sectorErase (getSectorCoord p) id

def moveObject (id : ObjectID) (old new : Position) : SectorManager :=
  if getSectorCoord old = getSectorCoord new then sm
  else (sm.sectorErase (getSectorCoord old) id).sectorInsert (getSectorCoord new) id

def tryMoveObject (id : ObjectID) (old new : Position) : Option SectorManager :=
  if old = new then some sm
  else
    match sm.tryClaim new id with
    | none => none
    | some sm' => some ((sm'.release old id).moveObject id old new)

/-- The sectors around a tile that exist. -/
def nearbySectors (p : Position) : List SectorCoord :=
  let center := getSectorCoord p
  ([-1, 0, 1].flatMap fun dy => [-1, 0, 1].map fun dx =>
    (⟨center.sx + dx, center.sy + dy⟩ : SectorCoord)).filter fun c => c.InRange

def getNearbyObjects (iter : List ObjectID → List ObjectID) (p : Position) : List ObjectID :=
  (nearbySectors p).flatMap fun c => iter (sm.getSector c)

/-! ## As a spatial index -/

/-- What the two arrays say. -/
def index : SpatialIndex.Index ObjectID Position Int where
  occupant p := if sm.getOccupant p = invalidId then none else some (sm.getOccupant p)
  members z := {i | i ∈ sm.sectors z}

variable {sm} {sm' : SectorManager} {id : ObjectID} {c p q : Position} {map : Map}

theorem occupant_eq_none : sm.index.occupant p = none ↔ sm.getOccupant p = invalidId := by
  simp only [index]
  split <;> simp [*]

theorem occupant_eq_some (hid : id ≠ invalidId) :
    sm.index.occupant p = some id ↔ sm.getOccupant p = id := by
  simp only [index]
  split
  · next h => simp [h, hid.symm]
  · simp

/-- A store to the entry of a tile changes what is said of that tile only. -/
theorem getOccupant_setTile (hp : InMap p) (id : ObjectID) :
    (sm.setTile p id).getOccupant q = if q = p then id else sm.getOccupant q := by
  unfold getOccupant setTile
  dsimp only
  by_cases hq : InMap q
  · rw [if_pos hq, if_pos hq]
    by_cases hqp : q = p
    · rw [if_pos hqp, hqp, Function.update_self]
    · rw [if_neg hqp, Function.update_of_ne (mt (tileIndex_inj hq hp).mp hqp)]
  · have hqp : q ≠ p := by
      rintro rfl
      exact hq hp
    rw [if_neg hq, if_neg hq, if_neg hqp]

theorem tryClaim_eq_some (h : sm.tryClaim p id = some sm') :
    InMap p ∧ sm.getOccupant p = invalidId ∧ sm' = sm.setTile p id := by
  unfold tryClaim at h
  split at h
  · next hc =>
      refine ⟨hc.1, ?_, (Option.some.inj h).symm⟩
      rw [getOccupant, if_pos hc.1, hc.2]
  · exact absurd h (by simp)

theorem tryClaim_eq_none_iff (hp : InMap p) :
    sm.tryClaim p id = none ↔ sm.getOccupant p ≠ invalidId := by
  unfold tryClaim getOccupant
  rw [if_pos hp]
  split
  · next hc => simp [hc.2]
  · next hc => simpa [hp] using hc

theorem release_eq (hp : InMap p) (ho : sm.getOccupant p = id) :
    sm.release p id = sm.setTile p invalidId := by
  unfold getOccupant at ho
  rw [if_pos hp] at ho
  rw [release, if_pos ⟨hp, ho⟩]

/-- An entry that names an id is the entry of a tile of the map. -/
theorem inMap_of_getOccupant (hid : id ≠ invalidId) (ho : sm.getOccupant p = id) : InMap p := by
  by_contra hp
  rw [getOccupant, if_neg hp] at ho
  exact hid ho.symm

/-! ## Placing an object -/

theorem tryClaimNearby_eq_some {maxRadius : ℕ}
    (h : sm.tryClaimNearby id c maxRadius map = some (sm', q)) :
    sm.tryClaim q id = some sm' ∧ map.isWalkable q.x q.y = true ∧
      ∃ radius ≤ maxRadius, ∃ d ∈ ring radius, q = offset c d := by
  obtain ⟨d, hd, hs⟩ := List.exists_of_findSome?_eq_some h
  obtain ⟨radius, hr, hring⟩ := List.mem_flatMap.mp hd
  dsimp only at hs
  split at hs
  · next hw =>
      obtain ⟨sm'', hclaim, heq⟩ := Option.map_eq_some_iff.mp hs
      obtain ⟨rfl, rfl⟩ := Prod.mk.inj heq
      exact ⟨hclaim, hw, radius, Nat.lt_succ_iff.mp (List.mem_range.mp hr), d, hring, rfl⟩
  · exact absurd hs (by simp)

/-- The search fails only where every tile it looks at is blocked or taken. -/
theorem tryClaimNearby_eq_none_iff {maxRadius : ℕ} :
    sm.tryClaimNearby id c maxRadius map = none ↔
      ∀ radius ≤ maxRadius, ∀ d ∈ ring radius,
        map.isWalkable (offset c d).x (offset c d).y = true →
          sm.getOccupant (offset c d) ≠ invalidId := by
  simp only [tryClaimNearby, List.findSome?_eq_none_iff, List.mem_flatMap, List.mem_range,
    Nat.lt_succ_iff]
  constructor
  · intro h radius hr d hd hw
    have hn := h d ⟨radius, hr, hd⟩
    rw [if_pos hw, Option.map_eq_none_iff, tryClaim_eq_none_iff (map.inMap_of_isWalkable hw)] at hn
    exact hn
  · rintro h d ⟨radius, hr, hd⟩
    split
    · next hw =>
        rw [Option.map_eq_none_iff, tryClaim_eq_none_iff (map.inMap_of_isWalkable hw)]
        exact h radius hr d hd hw
    · rfl

theorem mem_span {radius : ℕ} {v : Int} : v ∈ span radius ↔ v.natAbs ≤ radius := by
  simp only [span, List.mem_map, List.mem_range]
  constructor
  · rintro ⟨i, hi, rfl⟩
    omega
  · intro hv
    exact ⟨(v + radius).toNat, by omega, by omega⟩

theorem mem_ring {radius : ℕ} {d : Int × Int} (h : d ∈ ring radius) :
    d.1.natAbs ≤ radius ∧ d.2.natAbs ≤ radius := by
  obtain ⟨dy, hdy, hd⟩ := List.mem_flatMap.mp h
  obtain ⟨dx, hdx, rfl⟩ := List.mem_map.mp hd
  exact ⟨mem_span.mp (List.mem_filter.mp hdx).1, mem_span.mp hdy⟩

/-- At most 20 tiles away on both axes, in `int16_t` arithmetic. -/
def Around (c q : Position) : Prop :=
  ∃ dx dy : Int, dx.natAbs ≤ 20 ∧ dy.natAbs ≤ 20 ∧ q = offset c (dx, dy)

theorem index_sectorInsert (sm : SectorManager) (c : SectorCoord) (id : ObjectID) :
    (sm.sectorInsert c id).index =
      { sm.index with
        members := Function.update sm.index.members (sectorIndex c)
          (insert id (sm.index.members (sectorIndex c))) } := by
  refine SpatialIndex.Index.ext rfl ?_
  funext z
  ext i
  simp only [index, sectorInsert, getSector]
  by_cases hz : z = sectorIndex c
  · subst hz; simp
  · simp only [Function.update_of_ne hz]

theorem index_sectorErase (sm : SectorManager) (c : SectorCoord) (id : ObjectID) :
    (sm.sectorErase c id).index =
      { sm.index with
        members := Function.update sm.index.members (sectorIndex c)
          (sm.index.members (sectorIndex c) \ {id}) } := by
  refine SpatialIndex.Index.ext rfl ?_
  funext z
  ext i
  simp only [index, sectorErase, getSector]
  by_cases hz : z = sectorIndex c
  · subst hz; simp
  · simp only [Function.update_of_ne hz]

/-- A store to the entry of a tile, as an index. -/
theorem index_claim (hid : id ≠ invalidId) (hp : InMap p) :
    (sm.setTile p id).index =
      { sm.index with occupant := Function.update sm.index.occupant p (some id) } := by
  refine SpatialIndex.Index.ext ?_ rfl
  funext q
  simp only [index, getOccupant_setTile hp]
  by_cases hq : q = p
  · subst hq; simp [hid]
  · rw [Function.update_of_ne hq]
    simp only [if_neg hq]

theorem index_free (hp : InMap p) :
    (sm.setTile p invalidId).index =
      { sm.index with occupant := Function.update sm.index.occupant p none } := by
  refine SpatialIndex.Index.ext ?_ rfl
  funext q
  simp only [index, getOccupant_setTile hp]
  by_cases hq : q = p
  · subst hq; simp
  · rw [Function.update_of_ne hq]
    simp only [if_neg hq]

/-- **`AddObject` puts the object on a free walkable tile around the centre.** -/
theorem index_addObject (hid : id ≠ invalidId) (h : sm.addObject id c map = some (sm', q)) :
    sm.index.occupant q = none ∧ map.isWalkable q.x q.y = true ∧ Around c q ∧
      sm'.index = sm.index.put zoneOf id q := by
  unfold addObject at h
  split at h
  · exact absurd h (by simp)
  · next sm₁ out hnear =>
      obtain ⟨rfl, rfl⟩ := Prod.mk.inj (Option.some.inj h)
      obtain ⟨hclaim, hw, radius, hr, d, hd, hq⟩ := tryClaimNearby_eq_some hnear
      obtain ⟨hin, hfree, rfl⟩ := tryClaim_eq_some hclaim
      have hd20 := mem_ring hd
      refine ⟨occupant_eq_none.mpr hfree, hw, ⟨d.1, d.2, by omega, by omega, hq⟩, ?_⟩
      rw [index_sectorInsert, index_claim hid hin]
      rfl

theorem addObject_eq_none_iff :
    sm.addObject id c map = none ↔ sm.tryClaimNearby id c 20 map = none := by
  unfold addObject
  split <;> simp [*]

theorem isWalkable_of_addObject (h : sm.addObject id c map = some (sm', q)) :
    map.isWalkable q.x q.y = true := by
  unfold addObject at h
  split at h
  · exact absurd h (by simp)
  · next sm₁ out hnear =>
      obtain ⟨rfl, rfl⟩ := Prod.mk.inj (Option.some.inj h)
      exact (tryClaimNearby_eq_some hnear).2.1

/-- **`RemoveObject` takes the object from its tile.** -/
theorem index_removeObject (hid : id ≠ invalidId) (ho : sm.index.occupant p = some id) :
    (sm.removeObject id p).index = sm.index.take zoneOf id p := by
  rw [occupant_eq_some hid] at ho
  have hp := inMap_of_getOccupant hid ho
  rw [removeObject, release_eq hp ho, index_sectorErase, index_free hp]
  rfl

/-! ## Moving an object -/

theorem sectorIndex_inj {a b : SectorCoord} (ha : a.InRange) (hb : b.InRange) :
    sectorIndex a = sectorIndex b ↔ a = b := by
  obtain ⟨ax, ay⟩ := a
  obtain ⟨bx, bY⟩ := b
  simp only [SectorCoord.InRange, sectorIndex, sectorCountX, sectorCountY,
    SectorCoord.mk.injEq] at *
  omega

/-- **`TryMoveObject` moves the object to a free tile.** The object is where it
says it is; when the two tiles differ and the new one can be claimed, it is
taken from the one and put on the other. -/
theorem index_tryMoveObject (hid : id ≠ invalidId) (ho : sm.index.occupant p = some id)
    (hm : id ∈ sm.index.members (zoneOf p)) (hne : p ≠ q)
    (h : sm.tryMoveObject id p q = some sm') :
    sm.index.occupant q = none ∧ InMap q ∧
      sm'.index = (sm.index.take zoneOf id p).put zoneOf id q := by
  rw [tryMoveObject, if_neg hne] at h
  split at h
  · exact absurd h (by simp)
  · next sm₁ hclaim =>
      obtain rfl := (Option.some.inj h).symm
      obtain ⟨hin, hfree, rfl⟩ := tryClaim_eq_some hclaim
      refine ⟨occupant_eq_none.mpr hfree, hin, ?_⟩
      rw [occupant_eq_some hid] at ho
      have hp := inMap_of_getOccupant hid ho
      have hocc : (sm.setTile q id).getOccupant p = id := by
        rw [getOccupant_setTile hin, if_neg hne, ho]
      rw [release_eq hp hocc, moveObject]
      have hz := sectorIndex_inj (getSectorCoord_inRange hp) (getSectorCoord_inRange hin)
      refine SpatialIndex.Index.ext ?_ ?_
      · -- claimed first and released second is the same two writes
        have htiles : ((sm.setTile q id).setTile p invalidId).index.occupant =
            Function.update (Function.update sm.index.occupant p none) q (some id) := by
          rw [index_free hp, index_claim hid hin]
          exact (Function.update_comm hne _ _ _).symm
        by_cases hs : getSectorCoord p = getSectorCoord q
        · rw [if_pos hs]
          exact htiles
        · rw [if_neg hs, index_sectorInsert, index_sectorErase]
          exact htiles
      · by_cases hs : getSectorCoord p = getSectorCoord q
        · -- leaving a set and entering it again changes nothing
          rw [if_pos hs]
          have hzz : zoneOf q = zoneOf p := (hz.mpr hs).symm
          funext z
          simp only [SpatialIndex.Index.put, SpatialIndex.Index.take, hzz]
          by_cases hzp : z = zoneOf p
          · subst hzp
            simp only [Function.update_self]
            rw [Set.insert_sdiff_singleton, Set.insert_eq_of_mem hm]
            rfl
          · simp only [Function.update_of_ne hzp]
            rfl
        · rw [if_neg hs, index_sectorInsert, index_sectorErase]
          rfl

/-- The tile that a move leads to was free. -/
theorem getOccupant_of_tryMoveObject (hne : p ≠ q) (h : sm.tryMoveObject id p q = some sm') :
    sm.getOccupant q = invalidId := by
  rw [tryMoveObject, if_neg hne] at h
  split at h
  · exact absurd h (by simp)
  · next hclaim => exact (tryClaim_eq_some hclaim).2.1

theorem tryMoveObject_self (sm : SectorManager) (id : ObjectID) (p : Position) :
    sm.tryMoveObject id p p = some sm := by
  rw [tryMoveObject, if_pos rfl]

/-! ## Agreement with a placement -/

/-- The tiles and the sectors say what the placement says. -/
def Agrees (sm : SectorManager) (place : SpatialIndex.Placement ObjectID Position) : Prop :=
  SpatialIndex.Agrees zoneOf sm.index place

variable {place : SpatialIndex.Placement ObjectID Position}

theorem agrees_init : init.Agrees fun _ => none := by
  have hindex : init.index = ⟨fun _ => none, fun _ => ∅⟩ := by
    refine SpatialIndex.Index.ext ?_ ?_
    · funext p
      simp [index, getOccupant, init]
    · funext z
      simp [index, init]
  rw [Agrees, hindex]
  exact .empty

theorem Agrees.addObject (h : sm.Agrees place) (hid : id ≠ invalidId) (hi : place id = none)
    (hadd : sm.addObject id c map = some (sm', q)) :
    sm'.Agrees (Function.update place id (some q)) ∧ map.isWalkable q.x q.y = true ∧
      Around c q := by
  obtain ⟨hfree, hw, hc, hindex⟩ := index_addObject hid hadd
  refine ⟨?_, hw, hc⟩
  rw [Agrees, hindex]
  exact SpatialIndex.Agrees.put h hi hfree

theorem Agrees.removeObject (h : sm.Agrees place) (hid : id ≠ invalidId)
    (hi : place id = some p) : (sm.removeObject id p).Agrees (Function.update place id none) := by
  rw [Agrees, index_removeObject hid ((h.occupant_iff p id).mpr hi)]
  exact SpatialIndex.Agrees.take h hi

theorem Agrees.tryMoveObject (h : sm.Agrees place) (hid : id ≠ invalidId)
    (hi : place id = some p) (hmove : sm.tryMoveObject id p q = some sm') :
    sm'.Agrees (Function.update place id (some q)) := by
  by_cases hne : p = q
  · subst hne
    rw [tryMoveObject_self, Option.some.injEq] at hmove
    subst hmove
    exact h.congr fun i => by
      by_cases hii : i = id
      · subst hii; rw [Function.update_self, hi]
      · rw [Function.update_of_ne hii]
  · obtain ⟨hfree, -, hindex⟩ := index_tryMoveObject hid ((h.occupant_iff p id).mpr hi)
      ((h.members_iff _ _).mpr ⟨p, hi, rfl⟩) hne hmove
    rw [Agrees, hindex]
    exact SpatialIndex.Agrees.move h hi hfree

/-- Whoever is placed is a real object, and its tile names it, … -/
theorem Agrees.occupant (h : sm.Agrees place) (hi : place id = some p) :
    id ≠ invalidId ∧ sm.getOccupant p = id := by
  have hocc := (h.occupant_iff p id).mpr hi
  simp only [index] at hocc
  split at hocc
  · exact absurd hocc (by simp)
  · next hne =>
      rw [Option.some.injEq] at hocc
      exact ⟨hocc ▸ hne, hocc⟩

/-- … which is a tile of the map. -/
theorem Agrees.inMap (h : sm.Agrees place) (hi : place id = some p) : InMap p :=
  inMap_of_getOccupant (h.occupant hi).1 (h.occupant hi).2

/-- The entry of a tile names the object that is placed there, … -/
theorem Agrees.getOccupant_eq_iff (h : sm.Agrees place) (hid : id ≠ invalidId) :
    sm.getOccupant p = id ↔ place id = some p := by
  rw [← occupant_eq_some hid]
  exact h.occupant_iff p id

/-- … and is free when there is none. -/
theorem Agrees.getOccupant_eq_invalid (h : sm.Agrees place) :
    sm.getOccupant p = invalidId ↔ ∀ i, place i ≠ some p := by
  rw [← occupant_eq_none]
  constructor
  · intro hnone i
    exact h.place_ne hnone
  · intro hno
    cases ho : sm.index.occupant p with
    | none => rfl
    | some i => exact absurd ((h.occupant_iff p i).mp ho) (hno i)

/-- A tile where nothing changes keeps its entry. -/
theorem Agrees.getOccupant_congr {place' : SpatialIndex.Placement ObjectID Position}
    (h : sm.Agrees place) (h' : sm'.Agrees place')
    (hp : ∀ i, place' i = some p ↔ place i = some p) : sm'.getOccupant p = sm.getOccupant p := by
  by_cases hfree : sm.getOccupant p = invalidId
  · rw [hfree, h'.getOccupant_eq_invalid]
    intro i hi
    exact h.getOccupant_eq_invalid.mp hfree i ((hp i).mp hi)
  · have hplaced := (h.getOccupant_eq_iff hfree).mp rfl
    exact (h'.getOccupant_eq_iff hfree).mpr ((hp _).mpr hplaced)

/-- The set of a sector holds the objects that are placed in it. -/
theorem Agrees.mem_sectors (h : sm.Agrees place) (z : Int) (i : ObjectID) :
    i ∈ sm.sectors z ↔ ∃ q, place i = some q ∧ zoneOf q = z :=
  h.members_iff z i

/-- After one object has gone from `p` to `q` the other tiles are as before. -/
theorem Agrees.getOccupant_moved (h : sm.Agrees place) (hi : place id = some p)
    (h' : sm'.Agrees (Function.update place id (some q))) (hid : id ≠ invalidId) (t : Position) :
    sm'.getOccupant t =
      if t = q then id else if t = p then invalidId else sm.getOccupant t := by
  by_cases hq : t = q
  · rw [if_pos hq, hq]
    exact (h'.getOccupant_eq_iff hid).mpr (Function.update_self ..)
  rw [if_neg hq]
  by_cases hp : t = p
  · rw [if_pos hp, hp, h'.getOccupant_eq_invalid]
    intro i hi'
    by_cases hii : i = id
    · subst hii
      rw [Function.update_self] at hi'
      exact hq (hp.trans (Option.some.inj hi').symm)
    · -- nobody else was on the tile that was left
      rw [Function.update_of_ne hii] at hi'
      exact hii (SpatialIndex.Agrees.injective h hi' hi)
  · rw [if_neg hp]
    refine h.getOccupant_congr h' fun i => ?_
    by_cases hii : i = id
    · subst hii
      rw [Function.update_self, hi]
      simp only [Option.some.injEq]
      exact ⟨fun he => absurd he.symm hq, fun he => absurd he.symm hp⟩
    · rw [Function.update_of_ne hii]

/-! ## Range queries -/

variable {iter : List ObjectID → List ObjectID} {i : ObjectID}

theorem mem_getNearbyObjects (hiter : ∀ l, (iter l).Perm l) :
    i ∈ sm.getNearbyObjects iter p ↔ ∃ c ∈ nearbySectors p, i ∈ sm.getSector c := by
  simp only [getNearbyObjects, List.mem_flatMap, (hiter _).mem_iff]

/-- The sets of the sectors say what the placement says. -/
def SectorsAgree (sm : SectorManager) (place : SpatialIndex.Placement ObjectID Position) : Prop :=
  ∀ z i, i ∈ sm.sectors z ↔ ∃ q, place i = some q ∧ zoneOf q = z

theorem Agrees.sectorsAgree (h : sm.Agrees place) : sm.SectorsAgree place := h.mem_sectors

/-- A query only finds what is placed. -/
theorem SectorsAgree.placed_of_nearby (h : sm.SectorsAgree place) (hiter : ∀ l, (iter l).Perm l)
    (hi : i ∈ sm.getNearbyObjects iter p) : ∃ q, place i = some q := by
  obtain ⟨c, -, hc⟩ := (mem_getNearbyObjects hiter).mp hi
  obtain ⟨q, hq, -⟩ := (h (sectorIndex c) i).mp hc
  exact ⟨q, hq⟩

/-- Division towards zero takes numbers at most 20 apart to numbers at most 1 apart. -/
theorem tdiv_sub_tdiv {x y : Int} (hy : 0 ≤ y) (h : (x - y).natAbs ≤ 20) :
    y.tdiv 20 - x.tdiv 20 = -1 ∨ y.tdiv 20 - x.tdiv 20 = 0 ∨ y.tdiv 20 - x.tdiv 20 = 1 := by
  rw [Int.tdiv_eq_ediv_of_nonneg hy]
  by_cases hx : 0 ≤ x
  · rw [Int.tdiv_eq_ediv_of_nonneg hx]
    omega
  · have hneg : x.tdiv 20 = -(-x / 20) := by
      rw [← Int.tdiv_eq_ediv_of_nonneg (by omega), Int.neg_tdiv, Int.neg_neg]
    omega

/-- The sector of a tile at most one sector's width away is looked at. -/
theorem getSectorCoord_mem_nearbySectors (hq : InMap q)
    (hx : (p.x - q.x).natAbs ≤ sectorSize) (hy : (p.y - q.y).natAbs ≤ sectorSize) :
    getSectorCoord q ∈ nearbySectors p := by
  have hr := getSectorCoord_inRange hq
  refine List.mem_filter.mpr ⟨?_, by simpa using hr⟩
  obtain ⟨hqx, -, hqy, -⟩ := hq
  have hdx := tdiv_sub_tdiv hqx hx
  have hdy := tdiv_sub_tdiv hqy hy
  refine List.mem_flatMap.mpr ⟨q.y.tdiv 20 - p.y.tdiv 20, by simpa using hdy, ?_⟩
  refine List.mem_map.mpr ⟨q.x.tdiv 20 - p.x.tdiv 20, by simpa using hdx, ?_⟩
  have hsize : (sectorSize : Int) = 20 := rfl
  simp only [getSectorCoord, SectorCoord.mk.injEq, hsize]
  omega

/-- **A query misses nobody** at most one sector's width away. -/
theorem SectorsAgree.nearby_of_close (h : sm.SectorsAgree place) (hiter : ∀ l, (iter l).Perm l)
    (hi : place i = some q) (hq : InMap q)
    (hx : (p.x - q.x).natAbs ≤ sectorSize) (hy : (p.y - q.y).natAbs ≤ sectorSize) :
    i ∈ sm.getNearbyObjects iter p :=
  (mem_getNearbyObjects hiter).mpr ⟨getSectorCoord q,
    getSectorCoord_mem_nearbySectors hq hx hy, (h _ _).mpr ⟨q, hi, rfl⟩⟩

end SectorManager

end Mmorpg
