/-
`ProcessMove`, `ProcessTeleport` and `MonsterAttackPlayer` as threads.

The three change where a player stands, and they run on different workers. Here
every compare-exchange on a tile, every update of a sector and every method of
the player is a step of its own, in the order of the source; `MoveObject` holds
both sectors locked and is one step. The reads that go into one packet are one
step; monsters are woken in the steps of `Race/Wake`, but after a death in one.
A thread that runs by itself does what the handlers of `World` say.

All threads are about one player. Its handlers are found by its id, and the
`MONSTER_AI` handler found it before it attacks.
-/
import SimplestMmorpg.Game.Requests
import SimplestMmorpg.Race.Hit
import SimplestMmorpg.Race.Wake

set_option autoImplicit false

namespace Mmorpg

namespace SectorManager

/-- The tiles `TryClaimNearby` tries, in order. -/
def candidates (c : Position) (map : Map) : List Position :=
  (((List.range 21).flatMap ring).map (offset c)).filter fun p => map.isWalkable p.x p.y

/-- The first tile of a list that can be claimed. -/
def tryClaimFirst (sm : SectorManager) (id : ObjectID) (tiles : List Position) :
    Option (SectorManager × Position) :=
  tiles.findSome? fun p => (sm.tryClaim p id).map fun sm' => (sm', p)

/-- `TryClaimNearby` claims the first tile it can. -/
theorem tryClaimNearby_eq (sm : SectorManager) (id : ObjectID) (c : Position) (map : Map) :
    sm.tryClaimNearby id c 20 map = sm.tryClaimFirst id (candidates c map) := by
  unfold tryClaimNearby tryClaimFirst candidates
  -- the offsets, one after the other
  induction (List.range (20 + 1)).flatMap ring with
  | nil => rfl
  | cons d ds ih =>
      rw [List.findSome?_cons, List.map_cons, List.filter_cons, ih]
      dsimp only
      by_cases hw : map.isWalkable (offset c d).x (offset c d).y = true
      · rw [if_pos hw, if_pos hw, List.findSome?_cons]
      · rw [if_neg hw, if_neg hw]

end SectorManager

open SectorManager (candidates)

/-- What a call of `MonsterAttackPlayer` does next. The calls of `RemoveObject`
and `AddObject` have steps of their own. -/
inductive KillPc where
  | hit (pc : HitPc)
  | sectorErase (oldPos : Position)
  | tryClaim (rest : List Position)
  | sectorInsert (respawn : Position)
  deriving DecidableEq, Repr

/-- What `ProcessMove` does next. -/
inductive MovePc where
  | getPlayer
  | canMove
  | getPos
  | tryClaim (old new : Position)
  | release (old new : Position)
  | moveObject (old new : Position)
  | setPos (old new : Position)
  | onMoved (old new : Position)
  | processMoveView (old new : Position)
  | activate (new : Position) (pc : WakePc)
  | ack (new : Position)
  | done
  deriving DecidableEq, Repr

/-- What `ProcessTeleport` does next. -/
inductive TeleportPc where
  | getPlayer
  | getPos
  | release (old : Position)
  | sectorErase (old : Position)
  | tryClaim (old : Position) (rest : List Position)
  | tryClaimHome (old : Position) (rest : List Position)
  | sectorInsert (old new : Position)
  | setPos (old new : Position)
  | processMoveView (old new : Position)
  | activate (new : Position) (pc : WakePc)
  | ack (new : Position)
  | done
  deriving DecidableEq, Repr

/-- A handler that is about a player. -/
inductive Walker where
  | kill (env : Env) (attacker : Monster) (pc : KillPc)
  | move (env : Env) (session : ConnId) (data : Bytes) (pc : MovePc)
  | teleport (env : Env) (session : ConnId) (pc : TeleportPc)

namespace Walker

open Handler (withPlayer)

def withSectors (w : World) (sm : SectorManager) : World := { w with sectorManager := sm }

/-- One attempt of `TryClaimNearby`. -/
def claimNext {α : Type} (id : ObjectID) (w : World) (again : List Position → α)
    (found : Position → α) (failed : α) : List Position → World × α
  | [] => (w, failed)
  | p :: rest =>
    match w.sectorManager.tryClaim p id with
    | none => (w, again rest)
    | some sm => (withSectors w sm, found p)

/-- The next step of `MonsterAttackPlayer`. -/
def actKill (env : Env) (attacker : Monster) (id : ObjectID) (w : World) :
    KillPc → World × KillPc
  | .hit (.removeObject oldPos) =>
    (withSectors w (w.sectorManager.release oldPos id), .sectorErase oldPos)
  | .hit .addObject => (w, .tryClaim (candidates ⟨0, 0⟩ w.map))
  | .hit pc =>
    let out := Handler.actHit env attacker id w pc
    (out.1, .hit out.2)
  | .sectorErase oldPos =>
    (withSectors w (w.sectorManager.sectorErase (getSectorCoord oldPos) id), .hit .die)
  | .tryClaim rest => claimNext id w .tryClaim .sectorInsert (.hit .done) rest
  | .sectorInsert respawn =>
    (withSectors w (w.sectorManager.sectorInsert (getSectorCoord respawn) id),
      .hit (.setPos respawn))

/-- The next step of `ProcessMove`. -/
def actMove (env : Env) (session : ConnId) (data : Bytes) (id : ObjectID) (w : World)
    (pc : MovePc) : World × MovePc :=
  match pc with
  | .getPlayer => (w, if (w.getPlayer id).isSome then .canMove else .done)
  | .canMove => withPlayer w id pc fun p => (w, if p.canMove w.now then .getPos else .done)
  | .getPos =>
    withPlayer w id pc fun p =>
      let new := env.towards p.pos (byteAt data 4)
      -- the map is never written, and `TryMoveObject` has nothing to do for one tile
      (w, if ¬ w.map.isWalkable new.x new.y then .done
        else if p.pos = new then .setPos p.pos new
        else .tryClaim p.pos new)
  | .tryClaim old new =>
    match w.sectorManager.tryClaim new id with
    | none => (w, .done)
    | some sm => (withSectors w sm, .release old new)
  | .release old new =>
    (withSectors w (w.sectorManager.release old id), .moveObject old new)
  | .moveObject old new =>
    (withSectors w (w.sectorManager.moveObject id old new), .setPos old new)
  | .setPos old new => withPlayer w id pc fun p => (w.setPlayer (p.setPos new), .onMoved old new)
  | .onMoved old new =>
    withPlayer w id pc fun p => (w.setPlayer (p.onMoved w.now), .processMoveView old new)
  | .processMoveView old new =>
    withPlayer w id pc fun p =>
      (w.sendAll (ViewProcessor.processMoveView env w (ViewProcessor.ofPlayer p) old),
        .activate new (.first new))
  | .activate new .done => (w, .ack new)
  | .activate new pc =>
    let out := Wake.actWake env new w pc
    (out.1, .activate new out.2)
  | .ack new => (w.send session (.moveObject id new (readLE data 5 8)), .done)
  | .done => (w, .done)

/-- The next step of `ProcessTeleport`. -/
def actTeleport (env : Env) (session : ConnId) (id : ObjectID) (w : World) (pc : TeleportPc) :
    World × TeleportPc :=
  match pc with
  | .getPlayer => (w, if (w.getPlayer id).isSome then .getPos else .done)
  | .getPos => withPlayer w id pc fun p => (w, .release p.pos)
  | .release old => (withSectors w (w.sectorManager.release old id), .sectorErase old)
  | .sectorErase old =>
    (withSectors w (w.sectorManager.sectorErase (getSectorCoord old) id),
      .tryClaim old (candidates env.target w.map))
  | .tryClaim old rest =>
    claimNext id w (.tryClaim old) (.sectorInsert old)
      (.tryClaimHome old (candidates ⟨0, 0⟩ w.map)) rest
  | .tryClaimHome old rest =>
    claimNext id w (.tryClaimHome old) (.sectorInsert old) (.setPos old env.indeterminate) rest
  | .sectorInsert old new =>
    (withSectors w (w.sectorManager.sectorInsert (getSectorCoord new) id), .setPos old new)
  | .setPos old new =>
    withPlayer w id pc fun p => (w.setPlayer (p.setPos new), .processMoveView old new)
  | .processMoveView old new =>
    withPlayer w id pc fun p =>
      (w.sendAll (ViewProcessor.processMoveView env w (ViewProcessor.ofPlayer p) old),
        .activate new (.first new))
  | .activate new .done => (w, .ack new)
  | .activate new pc =>
    let out := Wake.actWake env new w pc
    (out.1, .activate new out.2)
  | .ack new => (w.send session (.moveObject id new 0), .done)
  | .done => (w, .done)

/-- The next step of a handler of this player. -/
def act (id : ObjectID) (w : World) : Walker → World × Walker
  | .kill env attacker pc =>
    let out := actKill env attacker id w pc
    (out.1, .kill env attacker out.2)
  | .move env session data pc =>
    let out := actMove env session data id w pc
    (out.1, .move env session data out.2)
  | .teleport env session pc =>
    let out := actTeleport env session id w pc
    (out.1, .teleport env session out.2)

/-! ## A handler by itself -/

open Interleave World
open Handler (withPlayer_some getPlayer_set setPlayer_setPlayer goes_monsterAttackPlayer)

variable {env : Env} {w v : World} {id : ObjectID} {p q : Player} {m : Monster} {session : ConnId}
  {data : Bytes}

/-- One step of `MonsterAttackPlayer`, and then the rest. -/
theorem goes_kill {pc n : KillPc} {y : World × Walker} (h : actKill env m id w pc = (v, n))
    (hrest : Goes (act id) (v, .kill env m n) y) : Goes (act id) (w, .kill env m pc) y := by
  apply Goes.head
  simp only [act, h]
  exact hrest

/-- One step of `ProcessMove`, and then the rest. -/
theorem goes_move {pc n : MovePc} {y : World × Walker}
    (h : actMove env session data id w pc = (v, n))
    (hrest : Goes (act id) (v, .move env session data n) y) :
    Goes (act id) (w, .move env session data pc) y := by
  apply Goes.head
  simp only [act, h]
  exact hrest

/-- One step of `ProcessTeleport`, and then the rest. -/
theorem goes_teleport {pc n : TeleportPc} {y : World × Walker}
    (h : actTeleport env session id w pc = (v, n))
    (hrest : Goes (act id) (v, .teleport env session n) y) :
    Goes (act id) (w, .teleport env session pc) y := by
  apply Goes.head
  simp only [act, h]
  exact hrest

/-- **The search for a tile** claims the first one it can. -/
theorem goes_search {α τ : Type} {act : World → τ → World × τ} (mk : α → τ)
    (again : List Position → α) (found : Position → α) (failed : α)
    (hstep : ∀ rest, act w (mk (again rest)) =
      ((claimNext id w again found failed rest).1,
        mk (claimNext id w again found failed rest).2)) (rest : List Position) :
    Goes act (w, mk (again rest))
      (match w.sectorManager.tryClaimFirst id rest with
      | none => (w, mk failed)
      | some (sm, p) => (withSectors w sm, mk (found p))) := by
  induction rest with
  | nil =>
      apply Goes.head
      simp only [hstep, claimNext]
      exact .refl _
  | cons p rest ih =>
      apply Goes.head
      simp only [hstep, claimNext, SectorManager.tryClaimFirst, List.findSome?_cons]
      cases hp : w.sectorManager.tryClaim p id with
      | none => exact ih
      | some sm => exact .refl _

/-- Each step of the coarser thread is one or more of this one. -/
theorem simulates_actHit (env : Env) (m : Monster) (w : World) (pc : HitPc) :
    Goes (act id) (w, .kill env m (.hit pc))
      ((Handler.actHit env m id w pc).1, .kill env m (.hit (Handler.actHit env m id w pc).2)) := by
  cases pc with
  | removeObject oldPos => exact goes_kill rfl (goes_kill rfl (.refl _))
  | addObject =>
      refine goes_kill rfl ?_
      refine (goes_search (kill env m) .tryClaim .sectorInsert (.hit .done)
        (fun _ => rfl) _).trans ?_
      simp only [Handler.actHit, SectorManager.addObject, SectorManager.tryClaimNearby_eq]
      cases w.sectorManager.tryClaimFirst id (candidates ⟨0, 0⟩ w.map) with
      | none => exact .refl _
      | some placed => exact goes_kill rfl (.refl _)
  | _ => exact goes_kill rfl (.refl _)

/-- The same call of `MonsterAttackPlayer`, with fewer steps and with more. -/
def SameCall (env : Env) (m : Monster) (id : ObjectID) (x : World × Handler)
    (y : World × Walker) : Prop :=
  ∃ v pc, x = (v, .hit env m id pc) ∧ y = (v, .kill env m (.hit pc))

theorem sameCall_act (x : World × Handler) (y : World × Walker) (h : SameCall env m id x y) :
    ∃ z, Goes (act id) y z ∧ SameCall env m id (Handler.act x.1 x.2) z := by
  obtain ⟨v, pc, rfl, rfl⟩ := h
  exact ⟨_, simulates_actHit env m v pc, _, _, rfl, rfl⟩

/-- **A kill that runs by itself is `MonsterAttackPlayer`.** -/
theorem goes_kill_alone (env : Env) (m : Monster) (hp : w.getPlayer p.id = some p) :
    Goes (act p.id) (w, .kill env m (.hit .isDead))
      (w.monsterAttackPlayer env m p, .kill env m (.hit .done)) := by
  have hstart : SameCall env m p.id (w, .hit env m p.id .isDead) (w, .kill env m (.hit .isDead)) :=
    ⟨w, .isDead, rfl, rfl⟩
  obtain ⟨z, hgo, v, pc, hv, rfl⟩ :=
    (goes_monsterAttackPlayer env m hp).simulate sameCall_act hstart
  obtain ⟨rfl, hpc⟩ := Prod.mk.inj hv
  cases hpc
  exact hgo

/-- Waking the monsters around the new tile. -/
theorem goes_activate_move (new : Position) :
    Goes (act id) (w, .move env session data (.activate new (.first new)))
      (w.activateNearbyMonsters env new, .move env session data (.ack new)) := by
  have hwake := (Wake.goes_activateNearbyMonsters env new w).map (b := act id)
    (fun pc => .move env session data (.activate new pc)) fun s pc => ?_
  · exact hwake.trans (goes_move rfl (.refl _))
  · cases pc with
    | done => exact .refl _
    | _ => exact goes_move rfl (.refl _)

/-- What `ProcessMove` does once the new tile is claimed. -/
theorem goes_moveTo {new : Position} {sm : SectorManager} (hp : w.getPlayer p.id = some p) :
    Goes (act p.id) (withSectors w sm, .move env session data (.setPos p.pos new))
      (w.moveTo env session p new (readLE data 5 8) sm, .move env session data .done) := by
  unfold moveTo
  have hp0 : (withSectors w sm).getPlayer p.id = some p := hp
  refine goes_move (withPlayer_some hp0) ?_
  have hp1 : ((withSectors w sm).setPlayer (p.setPos new)).getPlayer p.id =
      some (p.setPos new) := getPlayer_set rfl
  have hlast : ((withSectors w sm).setPlayer (p.setPos new)).setPlayer
      ((p.setPos new).onMoved w.now) =
        (withSectors w sm).setPlayer ((p.setPos new).onMoved w.now) := setPlayer_setPlayer rfl
  have hstep : actMove env session data p.id ((withSectors w sm).setPlayer (p.setPos new))
      (.onMoved p.pos new) = ((withSectors w sm).setPlayer ((p.setPos new).onMoved w.now),
        .processMoveView p.pos new) :=
    (withPlayer_some hp1).trans (congrArg (·, MovePc.processMoveView p.pos new) hlast)
  refine goes_move hstep ?_
  have hp2 : ((withSectors w sm).setPlayer ((p.setPos new).onMoved w.now)).getPlayer p.id =
      some ((p.setPos new).onMoved w.now) := getPlayer_set rfl
  refine goes_move (withPlayer_some hp2) ?_
  exact (goes_activate_move new).trans (goes_move rfl (.refl _))

/-- **A move that runs by itself is `ProcessMove`.** -/
theorem goes_processMove (env : Env) (session : ConnId) (data : Bytes) (id : ObjectID)
    (w : World) :
    Goes (act id) (w, .move env session data .getPlayer)
      (w.processMove env id session data, .move env session data .done) := by
  unfold processMove
  cases hp : w.getPlayer id with
  | none =>
      refine goes_move (n := .done) ?_ (.refl _)
      simp only [actMove, hp, Option.isSome_none, Bool.false_eq_true, if_false]
  | some p =>
      obtain rfl := getPlayer_id hp
      refine goes_move (v := w) (n := .canMove) ?_ ?_
      · simp only [actMove, hp, Option.isSome_some, if_true]
      refine goes_move (withPlayer_some hp) ?_
      by_cases hcan : p.canMove w.now = true
      · simp only [hcan, if_true, not_true_eq_false, if_false]
        refine goes_move (withPlayer_some hp) ?_
        generalize env.towards p.pos (byteAt data 4) = new
        by_cases hw : w.map.isWalkable new.x new.y = true
        · rw [if_neg (not_not.mpr hw), if_neg (not_not.mpr hw)]
          unfold SectorManager.tryMoveObject
          by_cases hsame : p.pos = new
          · rw [if_pos hsame, if_pos hsame]
            exact goes_moveTo hp
          · rw [if_neg hsame, if_neg hsame]
            cases hclaim : w.sectorManager.tryClaim new p.id with
            | none =>
                refine goes_move (n := .done) ?_ (.refl _)
                simp only [actMove, hclaim]
            | some sm =>
                refine goes_move (v := withSectors w sm) (n := .release p.pos new) ?_ ?_
                · simp only [actMove, hclaim]
                refine goes_move rfl (goes_move rfl ?_)
                exact goes_moveTo hp
        · rw [if_pos hw, if_pos hw]
          exact .refl _
      · simp only [hcan]
        exact .refl _

/-- And after a teleport. -/
theorem goes_activate_teleport (new : Position) :
    Goes (act id) (w, .teleport env session (.activate new (.first new)))
      (w.activateNearbyMonsters env new, .teleport env session (.ack new)) := by
  have hwake := (Wake.goes_activateNearbyMonsters env new w).map (b := act id)
    (fun pc => .teleport env session (.activate new pc)) fun s pc => ?_
  · exact hwake.trans (goes_teleport rfl (.refl _))
  · cases pc with
    | done => exact .refl _
    | _ => exact goes_teleport rfl (.refl _)

/-- What `ProcessTeleport` does once it has its tile. -/
theorem goes_arrive {new : Position} {sm : SectorManager} (hp : w.getPlayer p.id = some p)
    (old : Position) :
    Goes (act p.id) (withSectors w sm, .teleport env session (.setPos old new))
      ((((withSectors w sm).setPlayer (p.setPos new)).sendAll
          (ViewProcessor.processMoveView env ((withSectors w sm).setPlayer (p.setPos new))
            (ViewProcessor.ofPlayer (p.setPos new)) old)
        |>.activateNearbyMonsters env new).send session (.moveObject p.id new 0),
        .teleport env session .done) := by
  have hp0 : (withSectors w sm).getPlayer p.id = some p := hp
  refine goes_teleport (withPlayer_some hp0) ?_
  have hp1 : ((withSectors w sm).setPlayer (p.setPos new)).getPlayer p.id =
      some (p.setPos new) := getPlayer_set rfl
  refine goes_teleport (withPlayer_some hp1) ?_
  exact (goes_activate_teleport new).trans (goes_teleport rfl (.refl _))

/-- **A teleport that runs by itself is `ProcessTeleport`.** -/
theorem goes_processTeleport (env : Env) (session : ConnId) (id : ObjectID) (w : World) :
    Goes (act id) (w, .teleport env session .getPlayer)
      (w.processTeleport env id session, .teleport env session .done) := by
  unfold processTeleport
  cases hp : w.getPlayer id with
  | none =>
      refine goes_teleport (n := .done) ?_ (.refl _)
      simp only [actTeleport, hp, Option.isSome_none, Bool.false_eq_true, if_false]
  | some p =>
      obtain rfl := getPlayer_id hp
      refine goes_teleport (v := w) (n := .getPos) ?_ ?_
      · simp only [actTeleport, hp, Option.isSome_some, if_true]
      refine goes_teleport (withPlayer_some hp) ?_
      dsimp only
      refine goes_teleport rfl (goes_teleport rfl ?_)
      generalize hsm : w.sectorManager.removeObject p.id p.pos = sm
      have hw : withSectors (withSectors w (w.sectorManager.release p.pos p.id))
          ((withSectors w (w.sectorManager.release p.pos p.id)).sectorManager.sectorErase
            (getSectorCoord p.pos) p.id) = withSectors w sm := by
        rw [← hsm]
        rfl
      rw [hw]
      -- around the target, and then around the origin
      refine (goes_search (w := withSectors w sm) (teleport env session) (.tryClaim p.pos) (.sectorInsert p.pos)
        (.tryClaimHome p.pos (candidates ⟨0, 0⟩ w.map)) (fun _ => rfl) _).trans ?_
      simp only [placeTeleported, SectorManager.addObject, SectorManager.tryClaimNearby_eq]
      cases hfirst : sm.tryClaimFirst p.id (candidates env.target w.map) with
      | some placed =>
          simp only [withSectors, hfirst]
          exact goes_teleport rfl (goes_arrive hp p.pos)
      | none =>
          simp only [withSectors, hfirst]
          refine (goes_search (w := withSectors w sm) (teleport env session) (.tryClaimHome p.pos)
            (.sectorInsert p.pos) (.setPos p.pos env.indeterminate) (fun _ => rfl) _).trans ?_
          cases hhome : sm.tryClaimFirst p.id (candidates ⟨0, 0⟩ w.map) with
          | some placed =>
              simp only [withSectors, hhome]
              exact goes_teleport rfl (goes_arrive hp p.pos)
          | none =>
              simp only [withSectors, hhome]
              exact goes_arrive hp p.pos

end Walker

end Mmorpg
