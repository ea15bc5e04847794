/-
`Monster::AITick`, what it calls in `GameWorld`, and `HandleTimerEvent`.
-/
import SimplestMmorpg.Game.Combat

set_option autoImplicit false

namespace Mmorpg.World

open ViewProcessor

variable (env : Env)

/-- `MoveMonster`. -/
def moveMonster (monster : Monster) (new : Position) (w : World) : World :=
  match w.sectorManager.tryMoveObject monster.id monster.pos new with
  | none => w
  | some sectorManager =>
    let moved := monster.setPos new
    let w := { w with sectorManager := sectorManager }
    let w := w.setMonster moved
    w.sendAll (processMoveView env w (ofMonster moved) monster.pos)

/-- `Monster::RoamingMove`. -/
def roamingMove (monster : Monster) (w : World) : World :=
  let new := env.towards monster.pos env.dir
  if ¬ monster.isInRoamingRange new then w
  else if ¬ w.map.isWalkable new.x new.y then w
  else w.moveMonster env monster new

/-- The larger of the two distances along the axes. -/
def distMax (p q : Position) : ℕ := max (p.x - q.x).natAbs (p.y - q.y).natAbs

/-- `FindNearestPlayerInRange`: one step of the loop, on the nearest player so
far with the square of its distance. -/
def nearerPlayer (w : World) (p : Position) (range : Int) (best : Option (Player × Int))
    (id : ObjectID) : Option (Player × Int) :=
  if ¬ isPlayerId id then best
  else
    match w.getPlayer id with
    | none => best
    | some player =>
      if player.isDead then best
      else if range < distMax player.pos p then best
      else
        let dx := player.pos.x - p.x
        let dy := player.pos.y - p.y
        let distSq := dx * dx + dy * dy
        match best with
        | none => some (player, distSq)
        | some (_, minDistSq) => if distSq < minDistSq then some (player, distSq) else best

/-- `FindNearestPlayerInRange`. -/
def findNearestPlayerInRange (p : Position) (range : Int) (w : World) : Option Player :=
  ((w.getNearbyObjects env p).foldl (w.nearerPlayer p range) none).map (·.1)

/-- `adjacentVictims`: the living players on the four tiles around a monster. -/
def adjacentVictims (monster : Monster) (w : World) : List ObjectID :=
  (List.range 4).filterMap fun i =>
    let occupant := w.sectorManager.getOccupant (env.towards monster.pos i)
    if occupant = invalidId ∨ monsterIdOffset ≤ occupant then none
    else
      match w.getPlayer occupant with
      | none => none
      | some p => if p.isDead then none else some occupant

/-- One round of the loop over the victims. -/
def attackVictim (monster : Monster) (w : World) (victimId : ObjectID) : World :=
  match w.getPlayer victimId with
  | none => w
  | some victim => w.monsterAttackPlayer env monster victim

/-- The attack on all adjacent players. -/
def attackAdjacent (monster : Monster) (victims : List ObjectID) (w : World) : World :=
  let w := victims.foldl (attackVictim env monster) w
  let w := w.broadcastAttackEffect env monster.id monster.pos
  w.modifyMonster monster.id (·.onAttackPerformed w.now)

/-- The free tile beside the target that is nearest to the monster: one step of
the loop, on `bestDist` and `goalPos`. `none` stands for `INT_MAX`. -/
def nearerGoal (w : World) (monster : Monster) (targetPos : Position)
    (best : Option ℕ × Position) (i : ℕ) : Option ℕ × Position :=
  let c := env.towards targetPos i
  if ¬ w.map.isWalkable c.x c.y then best
  else
    let occupant := w.sectorManager.getOccupant c
    if occupant ≠ invalidId ∧ occupant ≠ monster.id then best
    else
      let dist := (c.x - monster.pos.x).natAbs + (c.y - monster.pos.y).natAbs
      match best.1 with
      | none => (some dist, c)
      | some bestDist => if dist < bestDist then (some dist, c) else best

/-- One step along the path to the target. -/
def chase (monster : Monster) (targetPos : Position) (w : World) : World :=
  let goalPos := ((List.range 4).foldl (w.nearerGoal env monster targetPos) (none, targetPos)).2
  match Pathfinder.findPath env.queue w.map goalPos 25 monster.pos with
  | [] => w
  | next :: _ =>
    if ¬ monster.isInRoamingRange next then w
    else if ¬ w.map.isWalkable next.x next.y then w
    else w.moveMonster env monster next

/-- What is asked before a step. -/
structure MayEnter (w : World) (monster : Monster) (new : Position) : Prop where
  walkable : w.map.isWalkable new.x new.y = true
  inRange : monster.isInRoamingRange new = true

/-! Both end in one `MoveMonster` onto a tile the monster may enter, or in nothing. -/

theorem roamingMove_cases (monster : Monster) (w : World) : w.roamingMove env monster = w ∨
    ∃ new, w.MayEnter monster new ∧ new = env.towards monster.pos env.dir ∧
      w.roamingMove env monster = w.moveMonster env monster new := by
  unfold roamingMove
  dsimp only
  split
  · exact .inl rfl
  · next hrange =>
      split
      · exact .inl rfl
      · next hwalk => exact .inr ⟨_, ⟨not_not.mp hwalk, not_not.mp hrange⟩, rfl, rfl⟩

theorem chase_cases (monster : Monster) (targetPos : Position) (w : World) :
    w.chase env monster targetPos = w ∨ ∃ new, w.MayEnter monster new ∧
      (∃ goal, (Pathfinder.findPath env.queue w.map goal 25 monster.pos).head? = some new) ∧
      w.chase env monster targetPos = w.moveMonster env monster new := by
  unfold chase
  dsimp only
  split
  · exact .inl rfl
  · next new rest hpath =>
      split
      · exact .inl rfl
      · next hrange =>
          split
          · exact .inl rfl
          · next hwalk =>
              have hhead := congrArg List.head? hpath
              exact .inr ⟨new, ⟨not_not.mp hwalk, not_not.mp hrange⟩, ⟨_, hhead⟩, rfl⟩

/-! ## One tick

`AgroPursue` and `AITick` first read the world and then do one thing, so what
they decide is a value of its own. -/

inductive AiAction where
  | idle
  | clearTarget
  | attack (victims : List ObjectID)
  | chase (targetPos : Position)
  | setTarget (id : ObjectID)
  | roam
  deriving DecidableEq, Repr

/-- What `Monster::AgroPursue` decides. -/
def agroPursue (monster : Monster) (w : World) : AiAction :=
  match monster.targetPlayerId with
  | some targetId =>
    match w.getPlayer targetId with
    | none => .clearTarget
    | some target =>
      if target.isDead then .clearTarget
      else if halfAgro < distMax target.pos monster.pos then .clearTarget
      else
        let victims := w.adjacentVictims env monster
        if victims ≠ [] then if monster.canAttack w.now then .attack victims else .idle
        else .chase target.pos
  | none =>
    match w.findNearestPlayerInRange env monster.pos halfAgro with
    | some target => .setTarget target.id
    | none => .roam

/-- What `Monster::AITick` decides. -/
def aiAction (monster : Monster) (w : World) : AiAction :=
  if monster.isDead then .idle
  else if monster.movement = .fixed then .idle
  else
    match monster.behavior with
    | .peace => .roam
    | .agro => w.agroPursue env monster

def perform (monster : Monster) (w : World) : AiAction → World
  | .idle => w
  | .clearTarget => w.setMonster monster.clearTarget
  | .attack victims => w.attackAdjacent env monster victims
  | .chase targetPos => w.chase env monster targetPos
  | .setTarget id => w.setMonster (monster.setTargetPlayerId id)
  | .roam => w.roamingMove env monster

/-- `Monster::AITick`. -/
def aiTick (monster : Monster) (w : World) : World :=
  w.perform env monster (w.aiAction env monster)

/-- `HandleTimerEvent` for `MONSTER_AI`. -/
def monsterAi (targetId : ObjectID) (w : World) : World :=
  match w.getMonster targetId with
  | none => w
  | some monster =>
    if monster.isDead then w
    else if ¬ w.hasObserverNearby env monster then w.setMonster monster.deactivate
    else (w.aiTick env monster).addTimer .monsterAi targetId monsterAiTickMs none

/-! ## The hits of a tick -/

/-- A hit that is about to be made: the state it is made in, and on whom. -/
structure Hit where
  before : World
  attacker : Monster
  victimId : ObjectID

/-- The hits of the loop over the victims, each with the state it meets. -/
def hitsFrom (monster : Monster) : List ObjectID → World → List Hit
  | [], _ => []
  | victimId :: rest, w =>
    ⟨w, monster, victimId⟩ :: hitsFrom monster rest (attackVictim env monster w victimId)

/-- What every hit of a loop keeps, the loop keeps. -/
theorem attackVictims_induction {P : World → Prop} {w : World} {m : Monster}
    (victims : List ObjectID) (h : P w)
    (hhit : ∀ v victimId victim, ⟨v, m, victimId⟩ ∈ hitsFrom env m victims w → P v →
      v.getPlayer victimId = some victim → P (v.monsterAttackPlayer env m victim)) :
    P (victims.foldl (attackVictim env m) w) := by
  induction victims generalizing w with
  | nil => exact h
  | cons victimId rest ih =>
      refine ih ?_ fun v i victim hv => hhit v i victim (List.mem_cons_of_mem _ hv)
      unfold attackVictim
      split
      · exact h
      · next victim hp => exact hhit w victimId victim List.mem_cons_self h hp

/-- The hits a `MONSTER_AI` event makes. -/
def hitsOf (targetId : ObjectID) (w : World) : List Hit :=
  match w.getMonster targetId with
  | none => []
  | some monster =>
    if monster.isDead then []
    else if ¬ w.hasObserverNearby env monster then []
    else
      match w.aiAction env monster with
      | .attack victims => hitsFrom env monster victims w
      | _ => []

/-- What a `MONSTER_AI` event comes to: nothing, a monster that goes to sleep, or
a tick and the next event. The hits of a tick are those of its attack. -/
inductive Ticked (id : ObjectID) (w : World) : World → Prop
  | nothing : Ticked id w w
  | asleep (m : Monster) (hm : w.getMonster id = some m) : Ticked id w (w.setMonster m.deactivate)
  | tick (m : Monster) (hm : w.getMonster id = some m) (halive : m.isDead = false)
      (hhits : ∀ victims, w.aiAction env m = .attack victims →
        hitsOf env id w = hitsFrom env m victims w) :
      Ticked id w ((w.aiTick env m).addTimer .monsterAi id monsterAiTickMs none)

theorem monsterAi_spec (id : ObjectID) (w : World) : Ticked env id w (w.monsterAi env id) := by
  unfold monsterAi
  cases hm : w.getMonster id with
  | none => exact .nothing
  | some m =>
      dsimp only
      split
      · exact .nothing
      · next halive =>
          split
          · exact .asleep m hm
          · next hobs =>
              refine .tick m hm (by simpa using halive) fun victims hact => ?_
              unfold hitsOf
              rw [hm]
              dsimp only
              rw [if_neg halive, if_neg hobs, hact]

end Mmorpg.World
