/-
`Server/Game/Player`, with what it inherits from `GameObject`.

Every method is one critical section of the player's lock, so each is one
function here. Times are milliseconds of `steady_clock`, and the time the call
reads is passed in.

`serial` is not a field of the source. It numbers the objects made by
`make_shared<Player>`, so that two players which had the same id one after the
other can be told apart.
-/
import SimplestMmorpg.Common.Float
import SimplestMmorpg.Common.Protocol
import SimplestMmorpg.Db.PlayerRow

set_option autoImplicit false

namespace Mmorpg

structure Player where
  id : ObjectID
  session : ConnId
  dbId : Int
  name : Bytes
  pos : Position
  level : UInt16
  hp : Int
  maxHp : Int
  exp : Int
  lastMoveTime : ℕ
  lastAttackTime : ℕ
  lastChatTime : ℕ
  regenActive : Bool
  serial : ℕ
  deriving DecidableEq, Repr

namespace Player

variable (p : Player)

/-- The constructor, with the defaults of the members. -/
def make (id : ObjectID) (session : ConnId) (name : Bytes) (dbId : Int) (serial : ℕ) : Player where
  id := id
  session := session
  dbId := dbId
  name := name
  pos := ⟨0, 0⟩
  level := 1
  hp := 100
  maxHp := 100
  exp := 0
  lastMoveTime := 0
  lastAttackTime := 0
  lastChatTime := 0
  regenActive := false
  serial := serial

/-! ## `GameObject` -/

def setPos (q : Position) : Player := { p with pos := q }

def setHp (hp : Int) : Player := { p with hp := hp }

def setLevel (level : UInt16) : Player := { p with level := level }

def setMaxHp (maxHp : Int) : Player := { p with maxHp := maxHp }

def setExp (exp : Int) : Player := { p with exp := exp }

def takeDamage (dmg : Int) : Player :=
  { p with hp := if p.hp ≤ dmg then 0 else p.hp - dmg }

def isDead : Bool := p.hp ≤ 0

/-! ## Experience -/

/-- `100 * (1 << (m_level - 1))`. -/
def getLevelUpExp : Int := 100 * 2 ^ (p.level.toNat - 1)

/-- The loop of `GainExp`; each round is a level, so `MAX_LEVEL` rounds are enough. -/
def levelUp : ℕ → Player → Player
  | 0, p => p
  | fuel + 1, p =>
    if p.getLevelUpExp ≤ p.exp ∧ p.level.toNat < maxLevel then
      let level := p.level + 1
      let maxHp : Int := 100 + (level.toNat - 1) * 50
      levelUp fuel { p with exp := p.exp - p.getLevelUpExp, level := level, maxHp := maxHp, hp := maxHp }
    else p

def gainExp (amount : Int) : Player :=
  let q := levelUp maxLevel { p with exp := toInt32 (p.exp + amount) }
  if maxLevel ≤ q.level.toNat then { q with exp := 0 } else q

/-! ## Death and regeneration -/

def die : Player := { p with exp := expAfterDeath p.exp, pos := ⟨0, 0⟩, hp := p.maxHp }

def regenHP : Player := { p with hp := min (p.hp + regenAmount p.maxHp) p.maxHp }

/-- `TryStartRegen` succeeds on a flag that is clear, and sets it. -/
def tryStartRegen : Option Player :=
  if p.regenActive then none else some { p with regenActive := true }

def stopRegen : Player := { p with regenActive := false }

/-! ## Cooldowns -/

def canMove (now : ℕ) : Bool := moveCooldownMs ≤ now - p.lastMoveTime

def canAttack (now : ℕ) : Bool := attackCooldownMs ≤ now - p.lastAttackTime

def canChat (now : ℕ) : Bool := chatCooldownMs ≤ now - p.lastChatTime

def onMoved (now : ℕ) : Player := { p with lastMoveTime := now }

def onAttackPerformed (now : ℕ) : Player := { p with lastAttackTime := now }

def onChatPerformed (now : ℕ) : Player := { p with lastChatTime := now }

/-! ## Who the player is

No method touches the members below but `SetPos` and `Die`, which write the
position. -/

/-- What identifies a player, and where it is. -/
structure Ident where
  id : ObjectID
  session : ConnId
  dbId : Int
  name : Bytes
  serial : ℕ
  pos : Position
  deriving DecidableEq

def ident : Ident := ⟨p.id, p.session, p.dbId, p.name, p.serial, p.pos⟩

@[simp] theorem ident_setPos (q : Position) : (p.setPos q).ident = { p.ident with pos := q } := rfl

@[simp] theorem ident_takeDamage (dmg : Int) : (p.takeDamage dmg).ident = p.ident := rfl

@[simp] theorem ident_stopRegen : p.stopRegen.ident = p.ident := rfl

@[simp] theorem ident_regenHP : p.regenHP.ident = p.ident := rfl

@[simp] theorem ident_die : p.die.ident = { p.ident with pos := ⟨0, 0⟩ } := rfl

@[simp] theorem ident_onMoved (now : ℕ) : (p.onMoved now).ident = p.ident := rfl

@[simp] theorem ident_onAttackPerformed (now : ℕ) : (p.onAttackPerformed now).ident = p.ident := rfl

@[simp] theorem ident_onChatPerformed (now : ℕ) : (p.onChatPerformed now).ident = p.ident := rfl

theorem ident_levelUp (fuel : ℕ) : (levelUp fuel p).ident = p.ident := by
  induction fuel generalizing p with
  | zero => rfl
  | succ n ih =>
      rw [levelUp]
      split
      · exact ih _
      · rfl

@[simp] theorem ident_gainExp (amount : Int) : (p.gainExp amount).ident = p.ident := by
  have h := ident_levelUp { p with exp := toInt32 (p.exp + amount) } maxLevel
  unfold gainExp
  dsimp only
  split
  · exact h
  · exact h

theorem ident_tryStartRegen {p q : Player} (h : p.tryStartRegen = some q) :
    q.ident = p.ident := by
  unfold tryStartRegen at h
  split at h
  · exact absurd h (by simp)
  · rw [← Option.some.inj h]
    rfl

/-! ## The stored row -/

/-- `SnapshotPlayer`. -/
def snapshot : PlayerRow where
  id := p.dbId
  name := p.name
  level := p.level.toInt16
  exp := p.exp
  hp := p.hp
  maxHp := p.maxHp
  x := p.pos.x
  y := p.pos.y

/-- The part of `AddPlayer` that fills in a row. -/
def ofRow (id : ObjectID) (session : ConnId) (row : PlayerRow) (serial : ℕ) : Player :=
  ((((make id session row.name row.id serial).setLevel row.level.toUInt16).setExp row.exp).setMaxHp
    row.maxHp).setHp row.hp

/-- What `SC_AddObject` says of a player. -/
def remote : RemoteObject where
  id := p.id
  pos := p.pos
  type := .player
  level := p.level
  hp := p.hp
  maxHp := p.maxHp
  name := strncpyTruncate 32 p.name

/-- `SC_StatChange` about a player; `exp` is converted to `uint32_t`. -/
def statPkt : ScPacket := .statChange p.id p.hp p.maxHp (toUInt32 p.exp) p.level

end Player

end Mmorpg
