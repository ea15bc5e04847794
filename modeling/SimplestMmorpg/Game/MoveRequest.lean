/-
What one `CS_MOVE` can do.

The direction is a byte of the packet. `ProcessMove` uses it as an index into
`DX` and `DY` as soon as the player may move at all; the tests that make a move
legal, `IsWalkable` and `TryMoveObject`, come after that. With an index of the
arrays they leave one step or nothing (`processMove_one_step`). With a larger
one the reads are past the end, and what the target is depends on what lies
there.
-/
import SimplestMmorpg.Game.FindPath
import SimplestMmorpg.Game.Login
import SimplestMmorpg.Game.PlacementHandlers

set_option autoImplicit false

namespace Mmorpg.World

open Pathfinder (manhattan manhattan_eq_one)

/-- The index at which a request reads `DX` and `DY`; `none` when it is refused
before that. -/
def moveIndex (id : ObjectID) (data : Bytes) (w : World) : Option ℕ :=
  match w.getPlayer id with
  | none => none
  | some player => if ¬ player.canMove w.now then none else some (byteAt data 4)

/-- Nobody has moved, as far as the player, the tiles and the sectors say. -/
def StaysPut (w w' : World) (id : ObjectID) : Prop :=
  (w'.getPlayer id).map (·.pos) = (w.getPlayer id).map (·.pos) ∧
    w'.sectorManager = w.sectorManager

/-- One legal step of a player, with all that it changes of the tiles and the
sectors. -/
structure OneStep (w w' : World) (id : ObjectID) (p : Player) (new : Position) : Prop where
  player : w.getPlayer id = some p
  beside : manhattan p.pos new = 1
  inMap : InMap new
  walkable : w.map.isWalkable new.x new.y = true
  free : w.sectorManager.getOccupant new = invalidId
  /-- `m_lastMoveTime` is the time of the last move that was accepted. -/
  rested : p.lastMoveTime + moveCooldownMs ≤ w.now
  moved : w'.getPlayer id = some ((p.setPos new).onMoved w.now)
  tiles : ∀ t, w'.sectorManager.getOccupant t =
    if t = new then id else if t = p.pos then invalidId else w.sectorManager.getOccupant t
  sectors : ∀ z i, i ∈ w'.sectorManager.sectors z ↔
    if i = id then zoneOf new = z else i ∈ w.sectorManager.sectors z

/-- A request reads the arrays within their bounds, and is one step or nothing. -/
def OneStepOrNothing (env : Env) (id : ObjectID) (session : ConnId) (data : Bytes) (w : World) :
    Prop :=
  (∀ i, w.moveIndex id data = some i → i < 4) ∧
    (StaysPut w (w.processMove env id session data) id ∨
      ∃ p new, OneStep w (w.processMove env id session data) id p new)

variable {env : Env} {w : World} {id : ObjectID} {session : ConnId} {data : Bytes} {p : Player}

theorem moveIndex_eq_some (i : ℕ) : w.moveIndex id data = some i ↔
    ∃ p, w.getPlayer id = some p ∧ p.canMove w.now = true ∧ i = byteAt data 4 := by
  unfold moveIndex
  cases hp : w.getPlayer id with
  | none => simp
  | some p =>
      dsimp only
      split
      · next hcan =>
          refine ⟨fun h => absurd h (by simp), ?_⟩
          rintro ⟨q, hq, hqcan, -⟩
          obtain rfl := Option.some.inj hq
          exact absurd hqcan hcan
      · next hcan =>
          constructor
          · intro h
            exact ⟨p, rfl, not_not.mp hcan, (Option.some.inj h).symm⟩
          · rintro ⟨-, -, -, rfl⟩
            rfl

/-- Where the index is one of the arrays, it does not matter what lies beyond them. -/
theorem processMove_beyond (h : ∀ i, w.moveIndex id data = some i → i < 4)
    (beyond : ℕ → Int × Int) :
    w.processMove { env with beyond := beyond } id session data =
      w.processMove env id session data := by
  unfold processMove
  cases hp : w.getPlayer id with
  | none => rfl
  | some p =>
      dsimp only
      split
      · rfl
      · next hcan =>
          have hlt := h _ ((moveIndex_eq_some _).mpr ⟨p, hp, not_not.mp hcan, rfl⟩)
          have htile : ({ env with beyond := beyond } : Env).towards p.pos (byteAt data 4) =
              env.towards p.pos (byteAt data 4) := by
            unfold Env.towards
            -- the same entry of the arrays either way
            rw [List.getD_eq_getElem _ _ hlt, List.getD_eq_getElem _ _ hlt]
          rw [htile]
          rfl

/-- `DX` and `DY` lead to the tiles beside. -/
theorem beside_towards (env : Env) {tile : Position} (hin : InMap tile) {i : ℕ} (hi : i < 4) :
    manhattan tile (env.towards tile i) = 1 := by
  have hlt : i < directions.length := hi
  refine (manhattan_eq_one hin).mpr ⟨directions[i], List.getElem_mem hlt, ?_⟩
  rw [Env.towards, List.getD_eq_getElem _ _ hlt]
  rfl

/-- What `ProcessMove` leaves once the new tile is claimed. -/
theorem moveTo_frame (env : Env) (session : ConnId) (p : Player) (new : Position) (moveTime : ℕ)
    (sm : SectorManager) (w : World) :
    (w.moveTo env session p new moveTime sm).sectorManager = sm ∧
      (w.moveTo env session p new moveTime sm).getPlayer p.id =
        some ((p.setPos new).onMoved w.now) := by
  unfold moveTo
  dsimp only
  refine ⟨(inert_activateNearbyMonsters env new _).sectorManager, ?_⟩
  refine (getPlayer_activateNearbyMonsters env new _ p.id).trans ?_
  exact getPlayer_setPlayer_self { w with sectorManager := sm } ((p.setPos new).onMoved w.now)

/-- **One step or nothing**, when the index is one of the arrays. -/
theorem processMove_one_step (h : Consistent w)
    (hlt : ∀ i, w.moveIndex id data = some i → i < 4) :
    StaysPut w (w.processMove env id session data) id ∨
      ∃ p new, OneStep w (w.processMove env id session data) id p new := by
  -- a request that is refused changes nothing
  rcases processMove_cases env id session data w with
    heq | ⟨p, new, sm, hp, hcan, hnew, hwalk, hmove, heq⟩
  · left
    rw [heq]
    exact ⟨rfl, rfl⟩
  right
  have hpid := getPlayer_id hp
  have hid := h.player_ne_invalid hp
  have hplace := h.place_player hp
  have hmap := h.inMap_player hp
  have hindex := hlt _ ((moveIndex_eq_some _).mpr ⟨p, hp, hcan, rfl⟩)
  have hbeside : manhattan p.pos new = 1 := hnew ▸ beside_towards env hmap hindex
  have hne : p.pos ≠ new := by
    intro he
    rw [he, Pathfinder.manhattan_self] at hbeside
    omega
  have hagrees := SectorManager.Agrees.tryMoveObject h.agrees hid hplace hmove
  obtain ⟨hfree, hin, -⟩ := SectorManager.index_tryMoveObject hid
    ((h.agrees.occupant_iff _ _).mpr hplace) ((h.agrees.members_iff _ _).mpr ⟨_, hplace, rfl⟩)
    hne hmove
  obtain ⟨hsm, hget⟩ := moveTo_frame env session p new (readLE data 5 8) sm w
  refine ⟨p, new, hp, hbeside, hin, hwalk, SectorManager.occupant_eq_none.mp hfree, ?_, ?_, ?_, ?_⟩
  · have hrest : moveCooldownMs ≤ w.now - p.lastMoveTime := of_decide_eq_true hcan
    unfold moveCooldownMs at hrest ⊢
    omega
  · rw [heq, ← hpid]
    exact hget
  · rw [heq, hsm]
    exact SectorManager.Agrees.getOccupant_moved h.agrees hplace hagrees hid
  · intro z i
    rw [heq, hsm, SectorManager.Agrees.mem_sectors hagrees,
      SectorManager.Agrees.mem_sectors h.agrees]
    -- the other objects stay where they were
    by_cases hi : i = id
    · subst hi
      rw [if_pos rfl, Function.update_self]
      simp only [Option.some.injEq, exists_eq_left']
    · rw [if_neg hi, Function.update_of_ne hi]

/-- **A request is one legal step or nothing if and only if its direction is one
of the four**, or it is not looked at because the player is not in the world or
still has to wait. -/
theorem processMove_oneStepOrNothing_iff (env : Env) (w : World) (id : ObjectID)
    (session : ConnId) (data : Bytes) (h : Consistent w) :
    OneStepOrNothing env id session data w ↔
      (∀ p, w.getPlayer id = some p → p.canMove w.now = true → byteAt data 4 < 4) := by
  constructor
  · intro hone p hp hcan
    exact hone.1 _ ((moveIndex_eq_some _).mpr ⟨p, hp, hcan, rfl⟩)
  · intro hdir
    have hlt : ∀ i, w.moveIndex id data = some i → i < 4 := by
      intro i hi
      obtain ⟨p, hp, hcan, rfl⟩ := (moveIndex_eq_some i).mp hi
      exact hdir p hp hcan
    exact ⟨hlt, processMove_one_step h hlt⟩

/-! ## One player -/

/-- A consistent world stays so when a player comes. -/
theorem Placed.consistent_addPlayer {row : PlayerRow} (h : Placed w) (hid : id < maxPlayers)
    (hnew : w.getPlayer id = none) (hsome : (w.addPlayer id session row).isSome) :
    Consistent ((w.addPlayer id session row).get hsome) :=
  (placed_addPlayer h hid hnew (Option.some_get hsome).symm).consistent

/-- The row of a new character. -/
def newRow : PlayerRow := ⟨1, [65], 1, 0, 100, 100, 0, 0⟩

/-- Five seconds after the start of a server whose map has no obstacles, a
character has come to the origin. -/
def oneWalker : World :=
  (((World.empty ⟨fun _ => 0⟩ 5000).addPlayer 0 0 newRow).get (by decide))

theorem consistent_oneWalker : Consistent oneWalker :=
  (placed_empty _ _).consistent_addPlayer (by decide) rfl _

/-- Down is the direction 1. -/
theorem processMove_oneStepOrNothing_iff_down :
    OneStepOrNothing .plain 0 0 [13, 0, 234, 3, 1, 0, 0, 0, 0, 0, 0, 0, 0] oneWalker :=
  (processMove_oneStepOrNothing_iff .plain oneWalker 0 0 _ consistent_oneWalker).mpr
    fun _ _ _ => by decide

/-- The direction 7 is read past the ends of the arrays. -/
theorem not_always_oneStepOrNothing :
    ¬ ∀ (env : Env) (w : World) (id : ObjectID) (session : ConnId) (data : Bytes),
      Consistent w → OneStepOrNothing env id session data w := by
  intro hall
  have hone := hall .plain oneWalker 0 0 [13, 0, 234, 3, 7, 0, 0, 0, 0, 0, 0, 0, 0]
    consistent_oneWalker
  exact absurd (hone.1 7 (by decide)) (by decide)

end Mmorpg.World
