/-
`Common/Protocol.h`: the header every packet starts with, the requests a
client can send, and the packets the server answers with.

Requests are read from bytes, because what arrives is a byte stream; answers
are kept as data, because nothing modelled here depends on their encoding.
All multi-byte fields are little-endian and the structs are packed.
-/
import SimplestMmorpg.Common.Types
import Mathlib.Data.List.GetD

set_option autoImplicit false

namespace Mmorpg

/-! ## Bytes -/

def byteAt (bs : Bytes) (i : ℕ) : ℕ := (bs.getD i 0).toNat

def readU16 (bs : Bytes) (i : ℕ) : ℕ := byteAt bs i + 256 * byteAt bs (i + 1)

/-- `size` bytes from offset `i` on, least significant first. -/
def readLE (bs : Bytes) (i : ℕ) : ℕ → ℕ
  | 0 => 0
  | size + 1 => byteAt bs i + 256 * readLE bs (i + 1) size

/-- `sizeof(PacketHeader)`. -/
abbrev sizeofPacketHeader : ℕ := 4

/-- `PacketHeader::size`. -/
def headerSize (bs : Bytes) : ℕ := readU16 bs 0

/-- `PacketHeader::type`. -/
def headerType (bs : Bytes) : ℕ := readU16 bs 2

theorem byteAt_append {s : Bytes} {i : ℕ} (h : i < s.length) (t : Bytes) :
    byteAt (s ++ t) i = byteAt s i := by
  unfold byteAt
  rw [List.getD_append _ _ _ _ h]

/-- The size field lies in the first four bytes. -/
theorem headerSize_append (s t : Bytes) (h : sizeofPacketHeader ≤ s.length) :
    headerSize (s ++ t) = headerSize s := by
  unfold sizeofPacketHeader at h
  unfold headerSize readU16
  rw [byteAt_append (by omega), byteAt_append (by omega)]

/-- And so does the type field. -/
theorem headerType_append (s t : Bytes) (h : sizeofPacketHeader ≤ s.length) :
    headerType (s ++ t) = headerType s := by
  unfold sizeofPacketHeader at h
  unfold headerType readU16
  rw [byteAt_append (by omega), byteAt_append (by omega)]

/-! ## Requests -/

/-- `CS_LOGIN` … `CS_TELEPORT`. -/
inductive CsType where
  | login
  | move
  | attack
  | chat
  | teleport
  deriving DecidableEq, Repr

def CsType.code : CsType → ℕ
  | .login => 1001
  | .move => 1002
  | .attack => 1003
  | .chat => 1004
  | .teleport => 1005

/-- `sizeof(CS_Login)` … `sizeof(CS_Teleport)`. -/
def CsType.sizeof : CsType → ℕ
  | .login => 36
  | .move => 13
  | .attack => 4
  | .chat => 133
  | .teleport => 4

/-- `LoginFailReason`. -/
inductive LoginFailReason where
  | unknown
  | duplicateLogin
  | dbError
  | spawnFull
  deriving DecidableEq, Repr

/-! ## Answers -/

/-- What `SC_AddObject` says of an object; the client stores it as a
`RemoteObject`. -/
structure RemoteObject where
  id : ObjectID
  pos : Position
  type : ObjectType
  level : UInt16
  hp : Int
  maxHp : Int
  name : Bytes
  deriving DecidableEq, Repr

/-- `SC_LOGIN_OK` … `SC_ATTACK_EFFECT`. -/
inductive ScPacket where
  | loginOk (myId : ObjectID) (pos : Position) (level : UInt16) (exp hp maxHp : Int)
  | loginFail (reason : LoginFailReason)
  | addObject (obj : RemoteObject)
  | removeObject (objectId : ObjectID)
  | moveObject (objectId : ObjectID) (pos : Position) (moveTime : ℕ)
  | statChange (objectId : ObjectID) (hp maxHp exp : Int) (level : UInt16)
  | chat (senderId : ObjectID) (channel : ℕ) (name message : Bytes)
  | combatMessage (attackerId targetId : ObjectID) (damage : Int)
  | attackEffect (attackerId : ObjectID) (pos : Position)
  deriving DecidableEq, Repr

/-- `strncpy_s(dst, size, src, _TRUNCATE)`: up to the terminator, and one byte
of the destination for its own. -/
def strncpyTruncate (size : ℕ) (src : Bytes) : Bytes :=
  (src.takeWhile (· ≠ 0)).take (size - 1)

end Mmorpg
