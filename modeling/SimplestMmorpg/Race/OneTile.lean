/-
Death against movement.

A handler that changes where a player stands reads the position first, and then
takes several steps: it claims and releases tiles, leaves and enters sectors, and
writes the position last. It is *changing* from the first of these writes to the
last. While it is, what the player holds follows from how far it is; while none
is, the player holds its tile and the sector of its tile. That is kept as long as
a handler begins its writes when none is changing, and with a position that is
still the player's.

Nothing in the source sees to that. A player that moves away between the moment
its killer reads its position and the moment the killer releases that tile keeps
the tile it moved to.
-/
import SimplestMmorpg.Game.Holdings
import SimplestMmorpg.Race.Death
import SimplestMmorpg.Race.Walk

set_option autoImplicit false

namespace Mmorpg.Walker

open Transition Interleave World
open Handler (withPlayer)

variable {env : Env} {m : Monster} {session : ConnId} {data : Bytes} {w w' : World} {id : ObjectID}
  {p q : Player} {t : Walker} {c : Config World Walker} {i : ℕ} {old new : Position}

/-! ## What is asked -/

/-- The player is there, and holds its tile, the sector of its tile, and nothing else. -/
def Stands (w : World) (id : ObjectID) : Prop :=
  ∃ p, w.getPlayer id = some p ∧ (w.sectorManager.holding id).At (some p.pos)

/-- The requests and the events that lead to a change of place. -/
inductive Call where
  | kill (env : Env) (attacker : Monster)
  | move (env : Env) (session : ConnId) (data : Bytes)
  | teleport (env : Env) (session : ConnId)

def Call.walker : Call → Walker
  | .kill env attacker => .kill env attacker (.hit .isDead)
  | .move env session data => .move env session data .getPlayer
  | .teleport env session => .teleport env session .getPlayer

/-- Nothing has been handled yet. -/
def begin (w : World) (calls : List Call) : Config World Walker := ⟨w, calls.map Call.walker⟩

def Finished : Walker → Bool
  | .kill _ _ pc => pc = .hit .done
  | .move _ _ _ pc => pc = .done
  | .teleport _ _ pc => pc = .done

/-! ## How far a handler is -/

/-- What a handler has done of its change of place. -/
inductive Stage where
  | claimed (old new : Position)
  | released (old new : Position)
  | lifted (old : Position)
  | nowhere
  | landed (new : Position)
  | standing (new : Position)
  deriving DecidableEq, Repr

/-- And what the player holds then. -/
def Stage.Holds : Stage → Holding → Prop
  | .claimed old new, h => old ≠ new ∧ h = ⟨insert new {old}, {zoneOf old}⟩
  | .released old new, h => old ≠ new ∧ h = ⟨{new}, {zoneOf old}⟩
  | .lifted old, h => h = ⟨∅, {zoneOf old}⟩
  | .nowhere, h => h = ⟨∅, ∅⟩
  | .landed new, h => h = ⟨{new}, ∅⟩
  | .standing new, h => h = ⟨{new}, {zoneOf new}⟩

def killStage : KillPc → Option Stage
  | .hit .die | .hit .stopRegen | .hit .addObject | .tryClaim _ => some .nowhere
  | .hit (.setPos respawn) => some (.standing respawn)
  | .hit _ => none
  | .sectorErase oldPos => some (.lifted oldPos)
  | .sectorInsert respawn => some (.landed respawn)

def moveStage : MovePc → Option Stage
  | .release old new => some (.claimed old new)
  | .moveObject old new => some (.released old new)
  | .setPos old new => if old = new then none else some (.standing new)
  | _ => none

def teleportStage : TeleportPc → Option Stage
  | .sectorErase old => some (.lifted old)
  | .tryClaim _ _ | .tryClaimHome _ _ => some .nowhere
  | .sectorInsert _ new => some (.landed new)
  | .setPos _ new => some (.standing new)
  | _ => none

/-- `none` is before the first write of a handler and after the last. -/
def stage : Walker → Option Stage
  | .kill _ _ pc => killStage pc
  | .move _ _ _ pc => moveStage pc
  | .teleport _ _ pc => teleportStage pc

/-- The position a handler has read, when its next step is its first write. -/
def firstWrite (id : ObjectID) (w : World) : Walker → Option Position
  | .kill _ _ (.hit (.removeObject oldPos)) => some oldPos
  | .move _ _ _ (.tryClaim old new) =>
    if (w.sectorManager.tryClaim new id).isSome then some old else none
  | .move _ _ _ (.setPos old new) => if old = new then some old else none
  | .teleport _ _ (.release old) => some old
  | _ => none

/-! ## What the interleaving is asked for -/

/-- A search around the origin has come to its end. -/
def exhausted : Walker → Bool
  | .kill _ _ (.tryClaim []) => true
  | .teleport _ _ (.tryClaimHome _ []) => true
  | _ => false

/-- There are enough free tiles around the origin. -/
def Roomy (c : Config World Walker) (i : ℕ) : Prop :=
  match c.threads[i]? with
  | none => True
  | some t => exhausted t = false

/-- A handler begins its writes while none is changing, and where the player is. -/
def Apart (id : ObjectID) (c : Config World Walker) (i : ℕ) : Prop :=
  match c.threads[i]?.bind (firstWrite id c.shared) with
  | none => True
  | some old =>
    (c.shared.getPlayer id).map (·.pos) = some old ∧ ∀ t ∈ c.threads, stage t = none

instance (c : Config World Walker) (i : ℕ) : Decidable (Roomy c i) := by
  unfold Roomy
  split <;> infer_instance

instance (id : ObjectID) (c : Config World Walker) (i : ℕ) : Decidable (Apart id c i) := by
  unfold Apart
  split <;> infer_instance

/-! ## Steps that change nothing -/

/-- Tiles, sectors and the player's position stay. -/
structure Quiet (w w' : World) (id : ObjectID) : Prop where
  sectorManager : w'.sectorManager = w.sectorManager
  pos : (w'.getPlayer id).map (·.pos) = (w.getPlayer id).map (·.pos)

namespace Quiet

theorem refl (w : World) (id : ObjectID) : Quiet w w id := ⟨rfl, rfl⟩

theorem setPlayer (hp : w.getPlayer id = some p) (hid : q.id = p.id) (hpos : q.pos = p.pos) :
    Quiet w (w.setPlayer q) id := by
  refine ⟨rfl, ?_⟩
  rw [Handler.getPlayer_set (hid.trans (getPlayer_id hp)), hp, Option.map_some, Option.map_some,
    hpos]

theorem withPlayer {α : Type} {stay : α} {f : Player → World × α}
    (hf : ∀ p, w.getPlayer id = some p → Quiet w (f p).1 id) :
    Quiet w (withPlayer w id stay f).1 id := by
  unfold Handler.withPlayer
  split
  · exact .refl w id
  · next p hp => exact hf p hp

theorem activateNearbyMonsters (env : Env) (pos : Position) (w : World) (id : ObjectID) :
    Quiet w (w.activateNearbyMonsters env pos) id where
  sectorManager := (inert_activateNearbyMonsters env pos w).sectorManager
  pos := by rw [getPlayer_activateNearbyMonsters]

theorem stands (h : Quiet w w' id) (hs : Stands w id) : Stands w' id := by
  obtain ⟨p, hp, hat⟩ := hs
  have hpos := h.pos
  rw [hp, Option.map_some] at hpos
  obtain ⟨q, hq, hqp⟩ := Option.map_eq_some_iff.mp hpos
  exact ⟨q, hq, by rw [h.sectorManager, hqp]; exact hat⟩

theorem isSome (h : Quiet w w' id) : (w'.getPlayer id).isSome = (w.getPlayer id).isSome := by
  have hmap := congrArg Option.isSome h.pos
  rw [Option.isSome_map, Option.isSome_map] at hmap
  exact hmap

end Quiet

/-- Before its first write and after its last a call does nothing to the tiles, and
stays there. -/
theorem still_actHit {pc : HitPc} (hpc : killStage (.hit pc) = none)
    (hrem : ∀ oldPos, pc ≠ .removeObject oldPos) :
    Quiet w (Handler.actHit env m id w pc).1 id ∧
      killStage (.hit (Handler.actHit env m id w pc).2) = none := by
  cases pc with
  | die => exact absurd hpc (by simp [killStage])
  | stopRegen => exact absurd hpc (by simp [killStage])
  | addObject => exact absurd hpc (by simp [killStage])
  | setPos respawn => exact absurd hpc (by simp [killStage])
  | removeObject oldPos => exact absurd rfl (hrem oldPos)
  | takeDamage =>
      refine ⟨.withPlayer fun p hp => .setPlayer hp rfl rfl, ?_⟩
      simp only [Handler.actHit, withPlayer]
      split <;> rfl
  | tryStartRegen =>
      refine ⟨.withPlayer fun p hp => ?_, ?_⟩
      · cases hq : p.tryStartRegen with
        | none => exact .refl w id
        | some q =>
            have hident := Player.ident_tryStartRegen hq
            exact .setPlayer hp (congrArg Player.Ident.id hident) (congrArg Player.Ident.pos hident)
      · simp only [Handler.actHit, withPlayer]
        split <;> [rfl; (split <;> rfl)]
  | isDead =>
      refine ⟨.withPlayer fun p hp => ⟨rfl, rfl⟩, ?_⟩
      simp only [Handler.actHit, withPlayer]
      split <;> [rfl; (split <;> rfl)]
  | isDeadForRegen =>
      refine ⟨.withPlayer fun p hp => ⟨rfl, rfl⟩, ?_⟩
      simp only [Handler.actHit, withPlayer]
      split <;> [rfl; (split <;> rfl)]
  | isDeadAgain =>
      refine ⟨.withPlayer fun p hp => ⟨rfl, rfl⟩, ?_⟩
      simp only [Handler.actHit, withPlayer]
      split <;> [rfl; (split <;> rfl)]
  | activate respawn => exact ⟨.activateNearbyMonsters env respawn w id, rfl⟩
  | done => exact ⟨.refl w id, rfl⟩
  | _ =>
      refine ⟨.withPlayer fun p hp => ⟨rfl, rfl⟩, ?_⟩
      simp only [Handler.actHit, withPlayer]
      split <;> rfl

theorem still_actKill {pc : KillPc} (hpc : killStage pc = none)
    (hrem : ∀ oldPos, pc ≠ .hit (.removeObject oldPos)) :
    Quiet w (actKill env m id w pc).1 id ∧ killStage (actKill env m id w pc).2 = none := by
  cases pc with
  | sectorErase oldPos => exact absurd hpc (by simp [killStage])
  | tryClaim rest => exact absurd hpc (by simp [killStage])
  | sectorInsert respawn => exact absurd hpc (by simp [killStage])
  | hit pc =>
      have hrem' : ∀ oldPos, pc ≠ .removeObject oldPos := fun oldPos heq =>
        hrem oldPos (congrArg KillPc.hit heq)
      have hact : actKill env m id w (.hit pc) =
          ((Handler.actHit env m id w pc).1, .hit (Handler.actHit env m id w pc).2) := by
        cases pc with
        | removeObject oldPos => exact absurd rfl (hrem' oldPos)
        | addObject => exact absurd hpc (by simp [killStage])
        | _ => rfl
      rw [hact]
      exact still_actHit hpc hrem'

/-- Waking monsters writes nothing but their flags and the timers. -/
theorem quiet_actWake (env : Env) (pos : Position) (w : World) (id : ObjectID) (pc : WakePc) :
    Quiet w (Wake.actWake env pos w pc).1 id where
  sectorManager := Wake.frame_actWake (·.sectorManager) env pos w (fun _ => rfl) (fun _ => rfl) pc
  pos := Wake.frame_actWake (fun w => (w.getPlayer id).map (·.pos)) env pos w (fun _ => rfl)
    (fun _ => rfl) pc

theorem still_activate_move (new : Position) (pc : WakePc) :
    Quiet w (actMove env session data id w (.activate new pc)).1 id ∧
      moveStage (actMove env session data id w (.activate new pc)).2 = none := by
  cases pc with
  | done => exact ⟨.refl w id, rfl⟩
  | _ => exact ⟨quiet_actWake env new w id _, rfl⟩

theorem still_activate_teleport (new : Position) (pc : WakePc) :
    Quiet w (actTeleport env session id w (.activate new pc)).1 id ∧
      teleportStage (actTeleport env session id w (.activate new pc)).2 = none := by
  cases pc with
  | done => exact ⟨.refl w id, rfl⟩
  | _ => exact ⟨quiet_actWake env new w id _, rfl⟩

theorem still_actMove {pc : MovePc} (hpc : moveStage pc = none)
    (hclaim : ∀ old new, pc = .tryClaim old new → w.sectorManager.tryClaim new id = none)
    (hset : ∀ old new, pc = .setPos old new → old ≠ new) :
    Quiet w (actMove env session data id w pc).1 id ∧
      moveStage (actMove env session data id w pc).2 = none := by
  cases pc with
  | release old new => exact absurd hpc (by simp [moveStage])
  | moveObject old new => exact absurd hpc (by simp [moveStage])
  | setPos old new =>
      rw [moveStage, if_neg (hset old new rfl)] at hpc
      exact absurd hpc (by simp)
  | tryClaim old new =>
      simp only [actMove, hclaim old new rfl]
      exact ⟨.refl w id, rfl⟩
  | getPlayer =>
      refine ⟨.refl w id, ?_⟩
      simp only [actMove]
      split <;> rfl
  | canMove =>
      refine ⟨.withPlayer fun p hp => .refl w id, ?_⟩
      simp only [actMove, withPlayer]
      split
      · rfl
      · dsimp only
        split <;> rfl
  | getPos =>
      refine ⟨.withPlayer fun p hp => .refl w id, ?_⟩
      simp only [actMove, withPlayer]
      split
      · rfl
      · dsimp only
        split
        · rfl
        · split
          · next hsame => rw [moveStage, if_pos hsame]
          · rfl
  | onMoved old new =>
      refine ⟨.withPlayer fun p hp => .setPlayer hp rfl rfl, ?_⟩
      simp only [actMove, withPlayer]
      split <;> rfl
  | processMoveView old new =>
      refine ⟨.withPlayer fun p hp => ⟨rfl, rfl⟩, ?_⟩
      simp only [actMove, withPlayer]
      split <;> rfl
  | activate new pc => exact still_activate_move new pc
  | ack new => exact ⟨⟨rfl, rfl⟩, rfl⟩
  | done => exact ⟨.refl w id, rfl⟩

theorem still_actTeleport {pc : TeleportPc} (hpc : teleportStage pc = none)
    (hrel : ∀ old, pc ≠ .release old) :
    Quiet w (actTeleport env session id w pc).1 id ∧
      teleportStage (actTeleport env session id w pc).2 = none := by
  cases pc with
  | release old => exact absurd rfl (hrel old)
  | sectorErase old => exact absurd hpc (by simp [teleportStage])
  | tryClaim old rest => exact absurd hpc (by simp [teleportStage])
  | tryClaimHome old rest => exact absurd hpc (by simp [teleportStage])
  | sectorInsert old new => exact absurd hpc (by simp [teleportStage])
  | setPos old new => exact absurd hpc (by simp [teleportStage])
  | getPlayer =>
      refine ⟨.refl w id, ?_⟩
      simp only [actTeleport]
      split <;> rfl
  | getPos =>
      refine ⟨.withPlayer fun p hp => .refl w id, ?_⟩
      simp only [actTeleport, withPlayer]
      split <;> rfl
  | processMoveView old new =>
      refine ⟨.withPlayer fun p hp => ⟨rfl, rfl⟩, ?_⟩
      simp only [actTeleport, withPlayer]
      split <;> rfl
  | activate new pc => exact still_activate_teleport new pc
  | ack new => exact ⟨⟨rfl, rfl⟩, rfl⟩
  | done => exact ⟨.refl w id, rfl⟩

/-- **A handler that writes nothing yet, or nothing any more.** -/
theorem still_act (hstage : stage t = none) (hwrite : firstWrite id w t = none) :
    Quiet w (act id w t).1 id ∧ stage (act id w t).2 = none := by
  cases t with
  | kill env m pc =>
      refine still_actKill hstage ?_
      rintro oldPos rfl
      exact absurd hwrite (by simp [firstWrite])
  | move env session data pc =>
      refine still_actMove hstage ?_ ?_
      · rintro old new rfl
        by_contra hsome
        obtain ⟨sm, hsm⟩ := Option.ne_none_iff_exists'.mp hsome
        exact absurd hwrite (by simp [firstWrite, hsm])
      · rintro old new rfl hsame
        exact absurd hwrite (by simp [firstWrite, hsame])
  | teleport env session pc =>
      refine still_actTeleport hstage ?_
      rintro old rfl
      exact absurd hwrite (by simp [firstWrite])

/-! ## What the writes do to the holding -/

section

variable {sm sm' : SectorManager}

/-- The first write of a move. -/
theorem holds_claim (hid : id ≠ invalidId) (hat : (sm.holding id).At (some old))
    (h : sm.tryClaim new id = some sm') : (Stage.claimed old new).Holds (sm'.holding id) := by
  have hfree := (SectorManager.tryClaim_eq_some h).2.1
  have hold : sm.getOccupant old = id := (hat.tiles old).mpr rfl
  refine ⟨?_, ?_⟩
  · rintro rfl
    exact hid (hold.symm.trans hfree)
  · rw [SectorManager.holding_claim hid h, if_pos rfl, Holding.at_some_iff.mp hat]

theorem holds_release_claimed (hid : id ≠ invalidId)
    (h : (Stage.claimed old new).Holds (sm.holding id)) :
    (Stage.released old new).Holds ((sm.release old id).holding id) := by
  obtain ⟨hne, hheld⟩ := h
  refine ⟨hne, ?_⟩
  rw [SectorManager.holding_release sm hid, if_pos rfl, hheld]
  refine Holding.ext (Set.ext fun q => ?_) rfl
  simp only [Set.mem_sdiff, Set.mem_insert_iff, Set.mem_singleton_iff]
  constructor
  · rintro ⟨rfl | rfl, hq⟩
    · rfl
    · exact absurd rfl hq
  · rintro rfl
    exact ⟨.inl rfl, Ne.symm hne⟩

/-- The last write to the sectors, when they differ. -/
theorem holds_moveObject (h : (Stage.released old new).Holds (sm.holding id)) :
    (Stage.standing new).Holds ((sm.moveObject id old new).holding id) := by
  rw [Stage.Holds, SectorManager.holding_moveObject, h.2]
  by_cases hs : getSectorCoord old = getSectorCoord new
  · rw [if_neg fun hc => hc.2 hs, zoneOf, hs, zoneOf]
  · rw [if_pos ⟨rfl, hs⟩, Set.sdiff_self]
    refine Holding.ext rfl ?_
    rw [insert_empty_eq]

/-- The first write of a teleport and of a death. -/
theorem holds_release (hid : id ≠ invalidId) (hat : (sm.holding id).At (some old)) :
    (Stage.lifted old).Holds ((sm.release old id).holding id) := by
  rw [Stage.Holds, SectorManager.holding_release sm hid, if_pos rfl, Holding.at_some_iff.mp hat,
    Set.sdiff_self]

theorem holds_sectorErase (h : (Stage.lifted old).Holds (sm.holding id)) :
    Stage.nowhere.Holds ((sm.sectorErase (getSectorCoord old) id).holding id) := by
  rw [Stage.Holds, SectorManager.holding_sectorErase, if_pos rfl, show sm.holding id = _ from h]
  refine Holding.ext rfl ?_
  rw [zoneOf, Set.sdiff_self]

theorem holds_tryClaim (hid : id ≠ invalidId) (hheld : Stage.nowhere.Holds (sm.holding id))
    (h : sm.tryClaim new id = some sm') : (Stage.landed new).Holds (sm'.holding id) := by
  rw [Stage.Holds, SectorManager.holding_claim hid h, if_pos rfl, show sm.holding id = _ from hheld,
    insert_empty_eq]

theorem holds_sectorInsert (h : (Stage.landed new).Holds (sm.holding id)) :
    (Stage.standing new).Holds ((sm.sectorInsert (getSectorCoord new) id).holding id) := by
  rw [Stage.Holds, SectorManager.holding_sectorInsert, if_pos rfl, show sm.holding id = _ from h]
  refine Holding.ext rfl ?_
  rw [insert_empty_eq, zoneOf]

end

/-! ## One handler at a time -/

/-- A handler that is changing has the player hold what its stage says. -/
structure Changing (id : ObjectID) (w : World) (t : Walker) (s : Stage) : Prop where
  stage : stage t = some s
  held : s.Holds (w.sectorManager.holding id)
  here : (w.getPlayer id).isSome

/-- Either it is changing, or the player stands on its tile. -/
def Placed (id : ObjectID) (w : World) (t : Walker) : Prop :=
  (∃ s, Changing id w t s) ∨ stage t = none ∧ Stands w id

/-- **The first write**, where the player is. -/
theorem placed_firstWrite (hid : id ≠ invalidId) (hwrite : firstWrite id w t = some old)
    (hpos : (w.getPlayer id).map (·.pos) = some old) (hs : Stands w id) :
    Placed id (act id w t).1 (act id w t).2 := by
  obtain ⟨p, hp, hat⟩ := hs
  have hold : p.pos = old := by
    rw [hp, Option.map_some] at hpos
    exact Option.some.inj hpos
  rw [hold] at hat
  have hsome : (w.getPlayer id).isSome := by rw [hp]; rfl
  unfold firstWrite at hwrite
  split at hwrite
  · next env m oldPos =>
      obtain rfl := Option.some.inj hwrite
      exact .inl ⟨.lifted oldPos, rfl, holds_release hid hat, hsome⟩
  · next env session data o n =>
      cases hclaim : w.sectorManager.tryClaim n id with
      | none => exact absurd hwrite (by simp [hclaim])
      | some sm =>
          have ho : o = old := by simpa [hclaim] using hwrite
          subst ho
          refine .inl ⟨.claimed o n, ?_, ?_, ?_⟩ <;> simp only [act, actMove, hclaim]
          · rfl
          · exact holds_claim hid hat hclaim
          · exact hsome
  · next env session data o n =>
      split at hwrite
      · next hsame =>
          obtain rfl := Option.some.inj hwrite
          subst hsame
          refine .inr ⟨?_, p.setPos o, ?_, ?_⟩ <;>
            simp only [act, actMove, Handler.withPlayer_some hp]
          · rfl
          · exact Handler.getPlayer_set (q := p.setPos o) (getPlayer_id (p := p) hp)
          · exact hat
      · exact absurd hwrite (by simp)
  · next env session o =>
      obtain rfl := Option.some.inj hwrite
      exact .inl ⟨.lifted o, rfl, holds_release hid hat, hsome⟩
  · exact absurd hwrite (by simp)

/-- The last write. -/
theorem stands_setPos (hp : w.getPlayer id = some p)
    (hheld : (Stage.standing new).Holds (w.sectorManager.holding id)) :
    Stands (w.setPlayer (p.setPos new)) id :=
  ⟨p.setPos new, Handler.getPlayer_set (q := p.setPos new) (getPlayer_id (p := p) hp),
    Holding.at_some_iff.mpr hheld⟩

theorem isSome_setPlayer (hp : w.getPlayer id = some p) (hid : q.id = p.id) :
    ((w.setPlayer q).getPlayer id).isSome := by
  rw [Handler.getPlayer_set (hid.trans (getPlayer_id hp))]
  rfl

/-- One attempt of a search that has not come to its end. -/
theorem claimNext_cons {α : Type} (w : World) (id : ObjectID) (again : List Position → α)
    (found : Position → α) (failed : α) (pos : Position) (rest : List Position) :
    claimNext id w again found failed (pos :: rest) = (w, again rest) ∨
      ∃ sm, w.sectorManager.tryClaim pos id = some sm ∧
        claimNext id w again found failed (pos :: rest) = (withSectors w sm, found pos) := by
  simp only [claimNext]
  cases h : w.sectorManager.tryClaim pos id with
  | none => exact .inl rfl
  | some sm => exact .inr ⟨sm, rfl, rfl⟩

/-- **A step of a kill that is changing.** -/
theorem placed_kill (hid : id ≠ invalidId) {pc : KillPc} {s : Stage}
    (h : Changing id w (.kill env m pc) s) (hroom : exhausted (.kill env m pc) = false) :
    Placed id (act id w (.kill env m pc)).1 (act id w (.kill env m pc)).2 := by
  obtain ⟨hstage, hheld, hsome⟩ := h
  obtain ⟨p, hp⟩ := Option.isSome_iff_exists.mp hsome
  cases pc with
  | sectorErase oldPos =>
      obtain rfl := (Option.some.inj hstage).symm
      exact .inl ⟨.nowhere, rfl, holds_sectorErase hheld, hsome⟩
  | sectorInsert respawn =>
      obtain rfl := (Option.some.inj hstage).symm
      exact .inl ⟨.standing respawn, rfl, holds_sectorInsert hheld, hsome⟩
  | tryClaim rest =>
      obtain rfl := (Option.some.inj hstage).symm
      cases rest with
      | nil => exact absurd hroom (by simp [exhausted])
      | cons pos rest =>
          simp only [act, actKill]
          rcases claimNext_cons w id KillPc.tryClaim .sectorInsert (.hit .done) pos
            rest with hnext | ⟨sm, hclaim, hnext⟩
          · rw [hnext]
            exact .inl ⟨.nowhere, rfl, hheld, hsome⟩
          · rw [hnext]
            exact .inl ⟨.landed pos, rfl, holds_tryClaim hid hheld hclaim, hsome⟩
  | hit pc =>
      cases pc with
      | die =>
          obtain rfl := (Option.some.inj hstage).symm
          simp only [act, actKill, Handler.actHit, Handler.withPlayer_some hp]
          exact .inl ⟨.nowhere, rfl, hheld, isSome_setPlayer hp rfl⟩
      | stopRegen =>
          obtain rfl := (Option.some.inj hstage).symm
          simp only [act, actKill, Handler.actHit, Handler.withPlayer_some hp]
          exact .inl ⟨.nowhere, rfl, hheld, isSome_setPlayer hp rfl⟩
      | addObject =>
          obtain rfl := (Option.some.inj hstage).symm
          exact .inl ⟨.nowhere, rfl, hheld, hsome⟩
      | setPos respawn =>
          obtain rfl := (Option.some.inj hstage).symm
          simp only [act, actKill, Handler.actHit, Handler.withPlayer_some hp]
          exact .inr ⟨rfl, stands_setPos hp hheld⟩
      | _ => exact absurd hstage (by simp [stage, killStage])

/-- **A step of a move that is changing.** -/
theorem placed_move (hid : id ≠ invalidId) {pc : MovePc} {s : Stage}
    (h : Changing id w (.move env session data pc) s) :
    Placed id (act id w (.move env session data pc)).1 (act id w (.move env session data pc)).2 := by
  obtain ⟨hstage, hheld, hsome⟩ := h
  obtain ⟨p, hp⟩ := Option.isSome_iff_exists.mp hsome
  cases pc with
  | release old new =>
      obtain rfl := (Option.some.inj hstage).symm
      exact .inl ⟨.released old new, rfl, holds_release_claimed hid hheld, hsome⟩
  | moveObject old new =>
      obtain rfl := (Option.some.inj hstage).symm
      exact .inl ⟨.standing new, if_neg hheld.1, holds_moveObject hheld, hsome⟩
  | setPos old new =>
      have hsame : old ≠ new := by
        rintro rfl
        exact absurd hstage (by simp [stage, moveStage])
      have hs : s = .standing new := by
        have hstage' := hstage
        rw [stage, moveStage, if_neg hsame] at hstage'
        exact (Option.some.inj hstage').symm
      subst hs
      simp only [act, actMove, Handler.withPlayer_some hp]
      exact .inr ⟨rfl, stands_setPos hp hheld⟩
  | _ => exact absurd hstage (by simp [stage, moveStage])

/-- **A step of a teleport that is changing.** -/
theorem placed_teleport (hid : id ≠ invalidId) {pc : TeleportPc} {s : Stage}
    (h : Changing id w (.teleport env session pc) s)
    (hroom : exhausted (.teleport env session pc) = false) :
    Placed id (act id w (.teleport env session pc)).1 (act id w (.teleport env session pc)).2 := by
  obtain ⟨hstage, hheld, hsome⟩ := h
  obtain ⟨p, hp⟩ := Option.isSome_iff_exists.mp hsome
  cases pc with
  | sectorErase old =>
      obtain rfl := (Option.some.inj hstage).symm
      exact .inl ⟨.nowhere, rfl, holds_sectorErase hheld, hsome⟩
  | sectorInsert old new =>
      obtain rfl := (Option.some.inj hstage).symm
      exact .inl ⟨.standing new, rfl, holds_sectorInsert hheld, hsome⟩
  | tryClaim old rest =>
      obtain rfl := (Option.some.inj hstage).symm
      cases rest with
      | nil => exact .inl ⟨.nowhere, rfl, hheld, hsome⟩
      | cons pos rest =>
          simp only [act, actTeleport]
          rcases claimNext_cons w id (TeleportPc.tryClaim old) (.sectorInsert old)
            (.tryClaimHome old (SectorManager.candidates ⟨0, 0⟩ w.map)) pos rest with
            hnext | ⟨sm, hclaim, hnext⟩
          · rw [hnext]
            exact .inl ⟨.nowhere, rfl, hheld, hsome⟩
          · rw [hnext]
            exact .inl ⟨.landed pos, rfl, holds_tryClaim hid hheld hclaim, hsome⟩
  | tryClaimHome old rest =>
      obtain rfl := (Option.some.inj hstage).symm
      cases rest with
      | nil => exact absurd hroom (by simp [exhausted])
      | cons pos rest =>
          simp only [act, actTeleport]
          rcases claimNext_cons w id (TeleportPc.tryClaimHome old)
            (.sectorInsert old) (.setPos old env.indeterminate) pos rest with
            hnext | ⟨sm, hclaim, hnext⟩
          · rw [hnext]
            exact .inl ⟨.nowhere, rfl, hheld, hsome⟩
          · rw [hnext]
            exact .inl ⟨.landed pos, rfl, holds_tryClaim hid hheld hclaim, hsome⟩
  | setPos old new =>
      obtain rfl := (Option.some.inj hstage).symm
      simp only [act, actTeleport, Handler.withPlayer_some hp]
      exact .inr ⟨rfl, stands_setPos hp hheld⟩
  | _ => exact absurd hstage (by simp [stage, teleportStage])

/-- **A step of the handler that is changing.** -/
theorem placed_changing (hid : id ≠ invalidId) {s : Stage} (h : Changing id w t s)
    (hroom : exhausted t = false) : Placed id (act id w t).1 (act id w t).2 := by
  cases t with
  | kill env m pc => exact placed_kill hid h hroom
  | move env session data pc => exact placed_move hid h
  | teleport env session pc => exact placed_teleport hid h hroom

/-! ## Whole runs -/

/-- At most one handler is changing, and what the player holds follows from it. -/
inductive Sound (id : ObjectID) (c : Config World Walker) : Prop
  | free (hfree : ∀ t ∈ c.threads, stage t = none) (hs : Stands c.shared id)
  | busy (i : ℕ) (t : Walker) (s : Stage) (ht : c.threads[i]? = some t)
      (h : Changing id c.shared t s)
      (hothers : ∀ j u, j ≠ i → c.threads[j]? = some u → stage u = none)

/-- After the step of a handler, when no other is changing. -/
theorem sound_of_placed (ht : c.threads[i]? = some t)
    (hothers : ∀ j u, j ≠ i → c.threads[j]? = some u → stage u = none)
    (h : Placed id (act id c.shared t).1 (act id c.shared t).2) :
    Sound id (step (act id) c i) := by
  have hget := getElem?_step (a := act id) ht
  rcases h with ⟨s, h⟩ | ⟨hnone, hs⟩
  · refine .busy i (act id c.shared t).2 s ?_ ?_ fun j u hji hu => ?_
    · rw [hget, if_pos rfl]
    · rw [shared_step ht]
      exact h
    · rw [hget, if_neg hji] at hu
      exact hothers j u hji hu
  · refine .free (fun u hu => ?_) ?_
    · obtain ⟨j, hj⟩ := List.getElem?_of_mem hu
      rw [hget] at hj
      split at hj
      · exact Option.some.inj hj ▸ hnone
      · next hji => exact hothers j u hji hj
    · rw [shared_step ht]
      exact hs

/-- **A step that is asked for.** -/
theorem sound_step (hid : id ≠ invalidId) (c : Config World Walker) (i : ℕ) (h : Sound id c)
    (hok : Roomy c i ∧ Apart id c i) : Sound id (step (act id) c i) := by
  obtain ⟨hroom, hapart⟩ := hok
  cases ht : c.threads[i]? with
  | none =>
      rw [step_none ht]
      exact h
  | some t =>
      rw [Roomy, ht] at hroom
      rw [Apart, ht, Option.bind_some] at hapart
      cases h with
      | free hfree hs =>
          refine sound_of_placed ht (fun j u _ hu => hfree u (List.mem_of_getElem? hu)) ?_
          cases hwrite : firstWrite id c.shared t with
          | some old =>
              rw [hwrite] at hapart
              exact placed_firstWrite hid hwrite hapart.1 hs
          | none =>
              have hstill := still_act (hfree t (List.mem_of_getElem? ht)) hwrite
              exact .inr ⟨hstill.2, hstill.1.stands hs⟩
      | busy k u s hu hchanging hothers =>
          by_cases hik : i = k
          · subst hik
            obtain rfl := Option.some.inj (ht.symm.trans hu)
            exact sound_of_placed ht hothers (placed_changing hid hchanging hroom)
          · -- somebody else is changing, so this is no first write
            have hwrite : firstWrite id c.shared t = none := by
              by_contra hsome
              obtain ⟨old, hold⟩ := Option.ne_none_iff_exists'.mp hsome
              rw [hold] at hapart
              have hidle := hapart.2 u (List.mem_of_getElem? hu)
              exact absurd (hidle.symm.trans hchanging.stage) (by simp)
            obtain ⟨hquiet, hnone⟩ := still_act (hothers i t hik ht) hwrite
            have hget := getElem?_step (a := act id) ht
            refine .busy k u s ?_ ?_ fun j v hjk hv => ?_
            · rw [hget, if_neg (Ne.symm hik), hu]
            · rw [shared_step ht]
              refine ⟨hchanging.stage, ?_, ?_⟩
              · rw [hquiet.sectorManager]
                exact hchanging.held
              · rw [hquiet.isSome]
                exact hchanging.here
            · rw [hget] at hv
              split at hv
              · exact Option.some.inj hv ▸ hnone
              · exact hothers j v hjk hv

theorem stage_of_finished (h : Finished t = true) : stage t = none := by
  cases t with
  | kill env m pc =>
      obtain rfl : pc = .hit .done := of_decide_eq_true h
      rfl
  | move env session data pc =>
      obtain rfl : pc = .done := of_decide_eq_true h
      rfl
  | teleport env session pc =>
      obtain rfl : pc = .done := of_decide_eq_true h
      rfl

theorem stage_walker (call : Call) : stage call.walker = none := by
  cases call <;> rfl

/-- **A player stands on one tile** when its handlers have finished, for every
interleaving in which each begins its writes where the player is and while no
other is changing. -/
theorem stands_run {calls : List Call} {is : List ℕ} (hs : Stands w id)
    (hroom : Along (step (act id)) Roomy (begin w calls) is)
    (hapart : Along (step (act id)) (Apart id) (begin w calls) is)
    (hend : ∀ t ∈ (run (step (act id)) (begin w calls) is).threads, Finished t = true) :
    Stands (run (step (act id)) (begin w calls) is).shared id := by
  have hid : id ≠ invalidId := by
    obtain ⟨p, -, hat⟩ := hs
    exact SectorManager.ne_invalidId_of_at hat
  have hstart : Sound id (begin w calls) := by
    refine .free (fun t ht => ?_) hs
    obtain ⟨call, -, rfl⟩ := List.mem_map.mp ht
    exact stage_walker call
  have hsound := invariant (sound_step hid) hstart (hroom.and hapart)
  cases hsound with
  | free _ hs => exact hs
  | busy i t s ht h _ =>
      have hnone := stage_of_finished (hend t (List.mem_of_getElem? ht))
      exact absurd (hnone.symm.trans h.stage) (by simp)

/-- A login leaves its player on one tile. -/
theorem stands_addPlayer {conn : ConnId} {row : PlayerRow} (hid : id ≠ invalidId)
    (hnone : (w.sectorManager.holding id).At none) (h : w.addPlayer id conn row = some w') :
    Stands w' id := by
  obtain ⟨sm, spawn, hadd, rfl⟩ := addPlayer_eq_some h
  refine ⟨_, Handler.getPlayer_set rfl, ?_⟩
  have hheld := SectorManager.holding_addObject hid hadd
  rw [if_pos rfl] at hheld
  exact hheld ▸ hnone.put

/-- A character with 50 hit points, at some distance from the origin. -/
def plaza : World :=
  let w := World.empty Server.openField 1000
  (w.addPlayer 0 0 ⟨1, [65], 1, 40, 50, 100, 5, 5⟩).getD w

/-- One step to a neighbouring tile. -/
def stepAside : Call := .move .plain 0 [13, 0, 0, 0, 3]

/-- A blow that kills. -/
def killingBlow : Call := .kill .plain Handler.troll

theorem stands_plaza : Stands plaza 0 := by
  have hlogin : ((World.empty Server.openField 1000).addPlayer 0 0
      ⟨1, [65], 1, 40, 50, 100, 5, 5⟩).isSome = true := by decide +kernel
  obtain ⟨w, hw⟩ := Option.isSome_iff_exists.mp hlogin
  have hplaza : plaza = w := by rw [plaza, hw, Option.getD_some]
  rw [hplaza]
  exact stands_addPlayer (by decide) (SectorManager.holding_init (by decide)) hw

/-- The character moves, and is killed on its new tile. -/
theorem stands_run_movedFirst :
    Stands (run (step (act 0)) (begin plaza [stepAside, killingBlow])
      (List.replicate 18 0 ++ List.replicate 20 1)).shared 0 :=
  stands_run stands_plaza (by decide +kernel) (by decide +kernel) (by decide +kernel)

/-- The character moves after its killer has read its position. -/
def strayMove : List ℕ := List.replicate 8 1 ++ List.replicate 18 0 ++ List.replicate 12 1

theorem strayMove_end :
    let c := run (step (act 0)) (begin plaza [stepAside, killingBlow]) strayMove
    Along (step (act 0)) Roomy (begin plaza [stepAside, killingBlow]) strayMove ∧
      (∀ t ∈ c.threads, Finished t = true) ∧
      c.shared.sectorManager.getOccupant ⟨0, 0⟩ = 0 ∧
      c.shared.sectorManager.getOccupant ⟨6, 5⟩ = 0 := by
  decide +kernel

/-- The character is left on two tiles. -/
theorem not_always_stands :
    ¬ ∀ (w : World) (id : ObjectID) (env env' : Env) (session : ConnId) (data : Bytes)
      (m : Monster) (is : List ℕ), Stands w id →
        Along (step (act id)) Roomy (begin w [.move env session data, .kill env' m]) is →
        (∀ t ∈ (run (step (act id)) (begin w [.move env session data, .kill env' m]) is).threads,
          Finished t = true) →
        Stands (run (step (act id)) (begin w [.move env session data, .kill env' m]) is).shared
          id := by
  intro hall
  obtain ⟨hroom, hend, hhome, haside⟩ := strayMove_end
  obtain ⟨p, -, hat⟩ := hall plaza 0 .plain .plain 0 [13, 0, 0, 0, 3] Handler.troll strayMove
    stands_plaza hroom hend
  have h1 := Option.some.inj ((hat.tiles ⟨0, 0⟩).mp hhome)
  have h2 := Option.some.inj ((hat.tiles ⟨6, 5⟩).mp haside)
  exact absurd (h1.symm.trans h2) (by decide)

end Mmorpg.Walker
