/-
`Server/Game/ViewProcessor`: the packets that tell clients what they see.

Each function is the list of packets it sends, in order, each with the
connection it is sent on; the world is only read. `receiver` is never null in
the calls that are made, so the tests for it are left out.
-/
import SimplestMmorpg.Game.World

set_option autoImplicit false

namespace Mmorpg.ViewProcessor

/-- `IsInView`. -/
def isInView (p o : Position) : Bool :=
  (p.x - o.x).natAbs ≤ halfView ∧ (p.y - o.y).natAbs ≤ halfView

theorem isInView_comm (p o : Position) : isInView p o = isInView o p := by
  unfold isInView
  exact decide_eq_decide.mpr (by omega)

theorem close_of_isInView {p o : Position} (h : isInView p o = true) :
    (p.x - o.x).natAbs ≤ sectorSize ∧ (p.y - o.y).natAbs ≤ sectorSize := by
  have hv := of_decide_eq_true h
  unfold halfView at hv
  unfold sectorSize
  omega

/-- The sector of a tile in view is one of those around. -/
theorem getSectorCoord_mem_of_isInView {p o : Position} (ho : InMap o) (h : isInView p o = true) :
    getSectorCoord o ∈ SectorManager.nearbySectors p :=
  SectorManager.getSectorCoord_mem_nearbySectors ho (close_of_isInView h).1 (close_of_isInView h).2

/-! ## The three helpers -/

def sendAddObject (receiver : Player) (target : RemoteObject) : ConnId × ScPacket :=
  (receiver.session, .addObject target)

def sendRemoveObject (receiver : Player) (targetId : ObjectID) : ConnId × ScPacket :=
  (receiver.session, .removeObject targetId)

def sendMoveObject (receiver : Player) (target : RemoteObject) (moveTime : ℕ) : ConnId × ScPacket :=
  (receiver.session, .moveObject target.id target.pos moveTime)

/-- A `GameObject*`: the player it is, when it is one, and what is sent of it. -/
structure GameObject where
  asPlayer : Option Player
  remote : RemoteObject

def ofPlayer (p : Player) : GameObject := ⟨some p, p.remote⟩

def ofMonster (m : Monster) : GameObject := ⟨none, m.remote⟩

variable (env : Env) (w : World)

/-! ## Who sees a tile -/

/-- The players around a tile that have it in view. The loops that tell them
something differ in what they send. -/
def playersInView (p : Position) : List Player :=
  (w.getNearbyObjects env p).filterMap fun id =>
    if ¬ isPlayerId id then none
    else
      match w.getPlayer id with
      | none => none
      | some player => if isInView player.pos p then some player else none

/-- `SendFullView`: one step of the loop. -/
def fullViewOf (me : Player) (id : ObjectID) : List (ConnId × ScPacket) :=
  if id = me.id then []
  else if isPlayerId id then
    match w.getPlayer id with
    | none => []
    | some other =>
      if isInView me.pos other.pos then
        [sendAddObject me other.remote, sendAddObject other me.remote]
      else []
  else
    match w.getMonster id with
    | none => []
    | some monster => if isInView me.pos monster.pos then [sendAddObject me monster.remote] else []

def sendFullView (me : Player) : List (ConnId × ScPacket) :=
  (w.getNearbyObjects env me.pos).flatMap (fullViewOf w me)

/-- `SendDisappear`. -/
def sendDisappear (me : Player) : List (ConnId × ScPacket) :=
  (w.getNearbyObjects env me.pos).filterMap fun id =>
    if id = me.id then none
    else if ¬ isPlayerId id then none
    else
      match w.getPlayer id with
      | none => none
      | some other =>
        if isInView me.pos other.pos then some (sendRemoveObject other me.id) else none

/-! ## The difference of two views -/

/-- Is an object counted in the view from `p`? Monsters are not, for a monster. -/
def seenFrom (moved : GameObject) (p : Position) (id : ObjectID) : Bool :=
  if id = moved.remote.id then false
  else if isPlayerId id then
    match w.getPlayer id with
    | none => false
    | some other => isInView other.pos p
  else if moved.asPlayer.isNone then false
  else
    match w.getMonster id with
    | none => false
    | some monster => isInView p monster.pos

/-- `oldView` and `newView`, in the order in which the set is walked. -/
def viewFrom (moved : GameObject) (p : Position) : List ObjectID :=
  env.iter ((w.getNearbyObjects env p).filter (seenFrom w moved p)).dedup

/-- An object that comes into view: added in both directions. -/
def appear (moved : GameObject) (id : ObjectID) : List (ConnId × ScPacket) :=
  if isPlayerId id then
    match w.getPlayer id with
    | none => []
    | some other =>
      sendAddObject other moved.remote ::
        (moved.asPlayer.map fun me => sendAddObject me other.remote).toList
  else
    match moved.asPlayer, w.getMonster id with
    | some me, some monster => [sendAddObject me monster.remote]
    | _, _ => []

/-- An object that goes out of view: removed in both directions. -/
def vanish (moved : GameObject) (id : ObjectID) : List (ConnId × ScPacket) :=
  let own := (moved.asPlayer.map fun me => sendRemoveObject me id).toList
  if isPlayerId id then
    ((w.getPlayer id).map fun other => sendRemoveObject other moved.remote.id).toList ++ own
  else own

/-- An object that stays in view: the other side is told of the move. -/
def follow (moved : GameObject) (moveTime : ℕ) (id : ObjectID) : List (ConnId × ScPacket) :=
  if isPlayerId id then
    ((w.getPlayer id).map fun other => sendMoveObject other moved.remote moveTime).toList
  else []

/-- `ProcessMoveView`; no caller passes a `moveTime`, and the last loop does not
use the one it has. -/
def processMoveView (moved : GameObject) (old : Position) : List (ConnId × ScPacket) :=
  let oldView := viewFrom env w moved old
  let newView := viewFrom env w moved moved.remote.pos
  (newView.filter (· ∉ oldView)).flatMap (appear w moved) ++
    (oldView.filter (· ∉ newView)).flatMap (vanish w moved) ++
    (newView.filter (· ∈ oldView)).flatMap (follow w moved 0)

/-! ## Whom the packets go to -/

/-- A packet of `ProcessMoveView`: to another about the one that moved, or to the
one that moved about another. -/
inductive MoveViewPacket (moved : GameObject) : ConnId × ScPacket → Prop
  | appears (j : ObjectID) (other : Player) (ho : w.getPlayer j = some other) :
      MoveViewPacket moved (sendAddObject other moved.remote)
  | sees (me : Player) (hme : moved.asPlayer = some me) (obj : RemoteObject) :
      MoveViewPacket moved (sendAddObject me obj)
  | vanishes (j : ObjectID) (other : Player) (ho : w.getPlayer j = some other) :
      MoveViewPacket moved (sendRemoveObject other moved.remote.id)
  | loses (me : Player) (hme : moved.asPlayer = some me) (j : ObjectID) :
      MoveViewPacket moved (sendRemoveObject me j)
  | moves (j : ObjectID) (other : Player) (ho : w.getPlayer j = some other)
      (hview : j ∈ viewFrom env w moved moved.remote.pos) :
      MoveViewPacket moved (sendMoveObject other moved.remote 0)

variable {env w} {x : ConnId × ScPacket} {p : Player} {a : Position}

theorem of_mem_processMoveView {moved : GameObject} (hx : x ∈ processMoveView env w moved a) :
    MoveViewPacket env w moved x := by
  unfold processMoveView at hx
  simp only [List.mem_append, List.mem_flatMap] at hx
  rcases hx with (⟨j, -, hj⟩ | ⟨j, -, hj⟩) | ⟨j, hview, hj⟩
  · unfold appear at hj
    split at hj
    · split at hj
      · exact absurd hj List.not_mem_nil
      · next other ho =>
          rcases List.mem_cons.mp hj with rfl | hj
          · exact .appears j other ho
          · obtain ⟨me, hme, rfl⟩ := Option.map_eq_some_iff.mp (Option.mem_toList.mp hj)
            exact .sees me hme _
    · split at hj
      · next me monster hme _ =>
          rw [List.mem_singleton.mp hj]
          exact .sees me hme _
      · exact absurd hj List.not_mem_nil
  · unfold vanish at hj
    dsimp only at hj
    have hown : x ∈ (moved.asPlayer.map fun me => sendRemoveObject me j).toList →
        MoveViewPacket env w moved x := by
      intro hmem
      obtain ⟨me, hme, rfl⟩ := Option.map_eq_some_iff.mp (Option.mem_toList.mp hmem)
      exact .loses me hme j
    split at hj
    · rcases List.mem_append.mp hj with hj | hj
      · obtain ⟨other, ho, rfl⟩ := Option.map_eq_some_iff.mp (Option.mem_toList.mp hj)
        exact .vanishes j other ho
      · exact hown hj
    · exact hown hj
  · unfold follow at hj
    split at hj
    · obtain ⟨other, ho, rfl⟩ := Option.map_eq_some_iff.mp (Option.mem_toList.mp hj)
      exact .moves j other ho (List.mem_filter.mp hview).1
    · exact absurd hj List.not_mem_nil

/-- A packet of `SendFullView`: to the one that came about another, or to another
in view about the one that came. -/
inductive FullViewPacket (w : World) (me : Player) : ConnId × ScPacket → Prop
  | sees (obj : RemoteObject) : FullViewPacket w me (sendAddObject me obj)
  | seen (j : ObjectID) (other : Player) (ho : w.getPlayer j = some other)
      (hview : isInView me.pos other.pos = true) :
      FullViewPacket w me (sendAddObject other me.remote)

theorem of_mem_sendFullView (hx : x ∈ sendFullView env w p) : FullViewPacket w p x := by
  obtain ⟨j, -, hj⟩ := List.mem_flatMap.mp hx
  unfold fullViewOf at hj
  split at hj
  · exact absurd hj List.not_mem_nil
  · split at hj
    · split at hj
      · exact absurd hj List.not_mem_nil
      · next other ho =>
          split at hj
          · next hview =>
              rcases List.mem_cons.mp hj with rfl | hj
              · exact .sees _
              · rw [List.mem_singleton.mp hj]
                exact .seen j other ho hview
          · exact absurd hj List.not_mem_nil
    · split at hj
      · exact absurd hj List.not_mem_nil
      · split at hj
        · rw [List.mem_singleton.mp hj]
          exact .sees _
        · exact absurd hj List.not_mem_nil

/-- Going away is told to others. -/
theorem of_mem_sendDisappear (hx : x ∈ sendDisappear env w p) :
    ∃ j other, w.getPlayer j = some other ∧ j ≠ p.id ∧ x = sendRemoveObject other p.id := by
  obtain ⟨j, -, hj⟩ := List.mem_filterMap.mp hx
  split at hj
  · exact absurd hj (by simp)
  · next hne =>
      split at hj
      · exact absurd hj (by simp)
      · split at hj
        · exact absurd hj (by simp)
        · next other ho =>
            split at hj
            · exact ⟨j, other, ho, hne, (Option.some.inj hj).symm⟩
            · exact absurd hj (by simp)

end Mmorpg.ViewProcessor
