/-
`Client/GameState` and `NetworkClient::OnPacket`: what a client knows.

The console log, the attack effects and the names shown in combat messages
are not kept, since nothing here reads them.
-/
import SimplestMmorpg.Common.Protocol
import Mathlib.Logic.Function.Basic

set_option autoImplicit false

namespace Mmorpg

/-- `MyPlayer`. -/
structure MyPlayer where
  id : ObjectID
  pos : Position
  level : UInt16
  exp : Int
  hp : Int
  maxHp : Int
  deriving DecidableEq, Repr

/-- `GameState`, and the pending login failure of `NetworkClient`. -/
structure GameState where
  me : MyPlayer
  loggedIn : Bool
  objects : ObjectID → Option RemoteObject
  loginFail : Option LoginFailReason

namespace GameState

variable (state : GameState)

/-- The initial values of the members. -/
def init : GameState := ⟨⟨0, ⟨0, 0⟩, 0, 0, 0, 0⟩, false, fun _ => none, none⟩

def setMyPlayer (me : MyPlayer) : GameState := { state with me := me, loggedIn := true }

def addObject (obj : RemoteObject) : GameState :=
  { state with objects := Function.update state.objects obj.id (some obj) }

def moveObject (id : ObjectID) (pos : Position) : GameState :=
  { state with
    objects := Function.update state.objects id
      ((state.objects id).map fun obj => { obj with pos := pos }) }

def removeObject (id : ObjectID) : GameState :=
  { state with objects := Function.update state.objects id none }

def moveMyPlayer (pos : Position) : GameState := { state with me := { state.me with pos := pos } }

/-- `NetworkClient::OnPacket`. The experience is a `uint32_t` in the packets and an
`int32_t` in `MyPlayer`. -/
def onPacket : ScPacket → GameState
  | .loginOk myId pos level exp hp maxHp =>
    state.setMyPlayer ⟨myId, pos, level, toInt32 exp, hp, maxHp⟩
  | .loginFail reason => { state with loginFail := some reason }
  | .addObject obj => state.addObject obj
  | .removeObject id => state.removeObject id
  | .moveObject id pos _ =>
    if id = state.me.id then state.moveMyPlayer pos else state.moveObject id pos
  | .statChange id hp maxHp exp level =>
    if id = state.me.id then
      state.setMyPlayer
        { state.me with hp := hp, maxHp := maxHp, exp := toInt32 exp, level := level }
    else state
  | .chat _ _ _ _ => state
  | .combatMessage _ _ _ => state
  | .attackEffect _ _ => state

/-- A client that has applied these packets in order. -/
def after (pkts : List ScPacket) : GameState := pkts.foldl onPacket init

theorem after_append (pkts more : List ScPacket) :
    after (pkts ++ more) = more.foldl onPacket (after pkts) := by
  rw [after, List.foldl_append, ← after]

end GameState

end Mmorpg
