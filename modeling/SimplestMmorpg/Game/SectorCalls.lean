/-
`SectorManager` keeps tiles and sectors in step.

A tile is claimed and released by compare-exchange and a sector set is changed
by `MoveObject`, which leaves the sets alone when the sector stays the same. So
nothing ties the two arrays together but the way they are used: `AddObject` for
an id that is not placed, the other two for a placed id with its position
(`Proper`). `last` is where the calls that succeeded have put each id; it is
not in the source, and no call reads it.

What carries the argument is `SectorManager.Agrees`: the two arrays are the
index of `last`. Each operation keeps it, and `InStep` is what it says of tiles
and of sectors.
-/
import SimplestMmorpg.Game.SectorManager
import SimplestMmorpg.Lib.Transition

set_option autoImplicit false

namespace Mmorpg.SectorManager

open Transition

/-- A call; `id` is the object it is about. -/
inductive Call where
  | addObject (id : ObjectID) (c : Position)
  | tryMoveObject (id : ObjectID) (old new : Position)
  | removeObject (id : ObjectID) (p : Position)

/-- The arrays, and where the calls so far have put each id. -/
structure Book where
  manager : SectorManager
  last : ObjectID → Option Position

/-- Before the first call. -/
def Book.empty : Book := ⟨.init, fun _ => none⟩

/-- The call returns `false`. -/
def Fails (map : Map) (s : Book) : Call → Prop
  | .addObject id c => s.manager.addObject id c map = none
  | .tryMoveObject id old new => s.manager.tryMoveObject id old new = none
  | .removeObject _ _ => False

/-- One call. -/
def call (map : Map) (s : Book) : Call → Book
  | .addObject id c =>
    match s.manager.addObject id c map with
    | none => s
    | some (manager, out) => ⟨manager, Function.update s.last id (some out)⟩
  | .tryMoveObject id old new =>
    match s.manager.tryMoveObject id old new with
    | none => s
    | some manager => ⟨manager, Function.update s.last id (some new)⟩
  | .removeObject id p => ⟨s.manager.removeObject id p, Function.update s.last id none⟩

/-- How the callers use it: an id is added when it is not placed, and moved or
removed with its position when it is. -/
def Proper (s : Book) : Call → Prop
  | .addObject id _ => id ≠ invalidId ∧ s.last id = none
  | .tryMoveObject id old _ => s.last id = some old
  | .removeObject id p => s.last id = some p

instance (s : Book) (c : Call) : Decidable (Proper s c) := by
  cases c <;> unfold Proper <;> infer_instance

/-- Tiles and sectors say where each id was put last, and nothing else. -/
structure InStep (s : Book) : Prop where
  /-- A placed id is on the map, holds that tile and no other, … -/
  inMap : ∀ id p, s.last id = some p → InMap p
  tile : ∀ id p, s.last id = some p → ∀ q, s.manager.getOccupant q = id ↔ q = p
  /-- … and is a member of the sector of that tile and of no other. -/
  sector : ∀ id p, s.last id = some p → ∀ c : SectorCoord, c.InRange →
    (id ∈ s.manager.getSector c ↔ c = getSectorCoord p)
  /-- A tile that is taken, and a member of a set, is a placed id. -/
  tiles_only : ∀ q, s.manager.getOccupant q ≠ invalidId →
    s.last (s.manager.getOccupant q) = some q
  sectors_only : ∀ z id, id ∈ s.manager.sectors z → ∃ p, s.last id = some p ∧ zoneOf p = z
  apart : ∀ id id' p, s.last id = some p → s.last id' = some p → id = id'

/-- A call that returns `false` changes neither the tiles nor the sectors. -/
def FailureKeeps (map : Map) (s : Book) (c : Call) : Prop :=
  Fails map s c → (call map s c).manager = s.manager

variable {map : Map} {s : Book} {id : ObjectID} {p : Position}

/-! ## What agreement says -/

theorem inStep_of_agrees (h : s.manager.Agrees s.last) : InStep s where
  inMap id p hp := h.inMap hp
  tile id p hp q := by
    rw [← occupant_eq_some (h.occupant hp).1, h.occupant_iff, hp, Option.some.injEq, eq_comm]
  sector id p hp c hc := by
    have hr := getSectorCoord_inRange (h.inMap hp)
    have hmem : id ∈ s.manager.getSector c ↔ ∃ q, s.last id = some q ∧ zoneOf q = sectorIndex c :=
      h.members_iff (sectorIndex c) id
    rw [hmem, hp]
    constructor
    · -- two coordinates in range with one index are one sector
      rintro ⟨q, hq, hz⟩
      obtain rfl := Option.some.inj hq
      exact ((sectorIndex_inj hr hc).mp hz).symm
    · rintro rfl
      exact ⟨p, rfl, rfl⟩
  tiles_only q hq := (h.occupant_iff q _).mp ((occupant_eq_some hq).mpr rfl)
  sectors_only z id hmem := (h.members_iff z id).mp hmem
  apart id id' p hp hp' := SpatialIndex.Agrees.injective h hp hp'

/-! ## One call -/

/-- **One call**, made as the callers make it, keeps the two arrays the index of
where each id was put last. -/
theorem agrees_call (map : Map) (s : Book) (c : Call) (h : s.manager.Agrees s.last)
    (hc : Proper s c) : (call map s c).manager.Agrees (call map s c).last := by
  cases c with
  | addObject id c =>
      obtain ⟨hid, hfree⟩ := hc
      rw [call]
      cases hadd : s.manager.addObject id c map with
      | none => exact h
      | some r => exact (h.addObject hid hfree hadd).1
  | tryMoveObject id old new =>
      rw [call]
      cases hmove : s.manager.tryMoveObject id old new with
      | none => exact h
      -- `TryClaim` has refused a target outside the map
      | some manager => exact h.tryMoveObject (h.occupant hc).1 hc hmove
  | removeObject id p => exact h.removeObject (h.occupant hc).1 hc

/-- The outcome of a call is decided before anything is written. -/
theorem failureKeeps (map : Map) (s : Book) (c : Call) : FailureKeeps map s c := by
  intro hfail
  cases c with
  | addObject id c =>
      rw [Fails] at hfail
      rw [call, hfail]
  | tryMoveObject id old new =>
      rw [Fails] at hfail
      rw [call, hfail]
  | removeObject id p => exact hfail.elim

/-! ## Every sequence of calls -/

/-- **Tiles and sectors stay in step.** Along every sequence of proper calls, on
every map, tiles and sectors say after each call where each id was put last and
nothing else, and a call that returns `false` has changed neither. -/
theorem tiles_and_sectors_in_step (map : Map) (calls : List Call)
    (h : Along (call map) Proper .empty calls) :
    InStep (run (call map) .empty calls) ∧
      Along (call map) (fun s c => InStep (call map s c) ∧ FailureKeeps map s c) .empty calls := by
  refine ⟨inStep_of_agrees (invariant (agrees_call map) agrees_init h), ?_⟩
  refine Along.of_invariant (agrees_call map) (fun s c hs hc => ⟨?_, failureKeeps map s c⟩)
    agrees_init h
  exact inStep_of_agrees (agrees_call map s c hs hc)

/-- An object that is placed, crosses the border of its sector and goes. -/
def crossing : List Call :=
  [.addObject 5 ⟨19, 4⟩, .tryMoveObject 5 ⟨19, 4⟩ ⟨20, 4⟩, .tryMoveObject 5 ⟨20, 4⟩ ⟨-1, 4⟩,
    .removeObject 5 ⟨20, 4⟩]

theorem tiles_and_sectors_in_step_crossing :
    InStep (run (call ⟨fun _ => 0⟩) .empty crossing) ∧
      Along (call ⟨fun _ => 0⟩)
        (fun s c => InStep (call ⟨fun _ => 0⟩ s c) ∧ FailureKeeps ⟨fun _ => 0⟩ s c)
        .empty crossing :=
  tiles_and_sectors_in_step ⟨fun _ => 0⟩ crossing (by decide +kernel)

end Mmorpg.SectorManager
