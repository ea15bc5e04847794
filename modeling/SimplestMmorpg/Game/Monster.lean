/-
`Server/Game/Monster`, with what it inherits from `GameObject`. The AI is a
part of the world and follows there.
-/
import SimplestMmorpg.Common.Protocol

set_option autoImplicit false

namespace Mmorpg

/-- `MonsterSpawnData`: what the spawn script says of one monster. -/
structure MonsterSpawnData where
  name : Bytes
  level : UInt16
  maxHp : Int
  behavior : MonsterBehavior
  movement : MonsterMovement
  pos : Position
  deriving DecidableEq, Repr

structure Monster where
  id : ObjectID
  name : Bytes
  level : UInt16
  maxHp : Int
  behavior : MonsterBehavior
  movement : MonsterMovement
  spawnPos : Position
  pos : Position
  hp : Int
  isActive : Bool
  targetPlayerId : Option ObjectID
  lastAttackTime : ℕ
  deriving DecidableEq, Repr

namespace Monster

variable (m : Monster)

/-- The constructor. -/
def make (id : ObjectID) (data : MonsterSpawnData) (spawn : Position) : Monster where
  id := id
  name := data.name
  level := data.level
  maxHp := data.maxHp
  behavior := data.behavior
  movement := data.movement
  spawnPos := spawn
  pos := spawn
  hp := data.maxHp
  isActive := false
  targetPlayerId := none
  lastAttackTime := 0

def setPos (q : Position) : Monster := { m with pos := q }

def takeDamage (dmg : Int) : Monster :=
  { m with hp := if m.hp ≤ dmg then 0 else m.hp - dmg }

def isDead : Bool := m.hp ≤ 0

def respawn : Monster :=
  { m with hp := m.maxHp, pos := m.spawnPos, targetPlayerId := none, isActive := false }

def getExpReward : Int :=
  let base := toInt32 (m.level.toNat * m.level.toNat * 2)
  if m.behavior = .agro ∨ m.movement = .roaming then toInt32 (base * 2) else base

def setTargetPlayerId (id : ObjectID) : Monster := { m with targetPlayerId := some id }

def clearTarget : Monster := { m with targetPlayerId := none }

/-- `TryActivate` succeeds on a monster that is not active, and activates it. -/
def tryActivate : Option Monster :=
  if m.isActive then none else some { m with isActive := true }

def deactivate : Monster := { m with isActive := false }

def canAttack (now : ℕ) : Bool := attackCooldownMs ≤ now - m.lastAttackTime

def onAttackPerformed (now : ℕ) : Monster := { m with lastAttackTime := now }

def isInRoamingRange (q : Position) : Bool :=
  (q.x - m.spawnPos.x).natAbs ≤ roamingRange ∧ (q.y - m.spawnPos.y).natAbs ≤ roamingRange

/-- What `SC_AddObject` says of a monster. -/
def remote : RemoteObject where
  id := m.id
  pos := m.pos
  type := .monster
  level := m.level
  hp := m.hp
  maxHp := m.maxHp
  name := strncpyTruncate 32 m.name

/-! ## What the constructor fixes -/

/-- The `const` members, and the two that nothing writes after the
constructor. -/
structure Spec where
  id : ObjectID
  name : Bytes
  level : UInt16
  maxHp : Int
  behavior : MonsterBehavior
  movement : MonsterMovement
  spawnPos : Position
  deriving DecidableEq

def spec : Spec := ⟨m.id, m.name, m.level, m.maxHp, m.behavior, m.movement, m.spawnPos⟩

@[simp] theorem spec_setPos (q : Position) : (m.setPos q).spec = m.spec := rfl

@[simp] theorem spec_takeDamage (dmg : Int) : (m.takeDamage dmg).spec = m.spec := rfl

@[simp] theorem spec_respawn : m.respawn.spec = m.spec := rfl

@[simp] theorem spec_setTargetPlayerId (id : ObjectID) : (m.setTargetPlayerId id).spec = m.spec :=
  rfl

@[simp] theorem spec_clearTarget : m.clearTarget.spec = m.spec := rfl

@[simp] theorem spec_deactivate : m.deactivate.spec = m.spec := rfl

@[simp] theorem spec_onAttackPerformed (now : ℕ) : (m.onAttackPerformed now).spec = m.spec := rfl

end Monster

end Mmorpg
