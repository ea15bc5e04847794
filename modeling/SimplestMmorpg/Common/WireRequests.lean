/-
`Common/Protocol.h`: the packed structs of the requests, byte by byte.

The client and the bots fill in a struct and send its bytes. The server casts
what it has in `packetBuf` to the struct that the type calls for, once the size
is right, and each handler reads the members it needs; `CsPacket` is what all of
them together can read.
-/
import SimplestMmorpg.Common.Wire

set_option autoImplicit false

namespace Mmorpg

open Packed

/-- `CS_Login` … `CS_Teleport`. -/
inductive CsPacket where
  | login (name : Bytes)
  | move (direction moveTime : ℕ)
  | attack
  | chat (channel : ℕ) (message : Bytes)
  | teleport
  deriving DecidableEq, Repr

theorem CsType.sizeof_lt (t : CsType) : t.sizeof < 256 ^ 2 := by
  cases t <;> decide

theorem CsType.code_lt (t : CsType) : t.code < 256 ^ 2 := by
  cases t <;> decide

namespace CsPacket

def type : CsPacket → CsType
  | .login _ => .login
  | .move _ _ => .move
  | .attack => .attack
  | .chat _ _ => .chat
  | .teleport => .teleport

/-- The members behind the header. -/
def fields (junk : ℕ → UInt8) : CsPacket → List Bytes
  | .login name => [textField 32 name junk]
  | .move direction moveTime => [bytesLE 1 direction, bytesLE 8 moveTime]
  | .attack => []
  | .chat channel message => [bytesLE 1 channel, textField 128 message junk]
  | .teleport => []

/-- The struct, its header included. -/
def record (junk : ℕ → UInt8) (req : CsPacket) : List Bytes :=
  structOf req.type.sizeof req.type.code (req.fields junk)

/-- The bytes that are sent. -/
def encode (junk : ℕ → UInt8) (req : CsPacket) : Bytes := (req.record junk).flatten

/-- Every value fits its member. -/
def Fits : CsPacket → Prop
  | .login name => TextFits 32 name
  | .move direction moveTime => direction < 256 ∧ moveTime < 256 ^ 8
  | .attack => True
  | .chat channel message => channel < 256 ∧ TextFits 128 message
  | .teleport => True

variable {junk : ℕ → UInt8} {req : CsPacket}

/-- The struct has the size its header says. -/
theorem length_encode (junk : ℕ → UInt8) (req : CsPacket) :
    (req.encode junk).length = req.type.sizeof := by
  unfold encode
  rw [List.length_flatten]
  cases req <;> simp [record, structOf, fields, type, CsType.sizeof]

theorem header_encode (junk : ℕ → UInt8) (req : CsPacket) (rest : Bytes) :
    headerSize (req.encode junk ++ rest) = req.type.sizeof ∧
      headerType (req.encode junk ++ rest) = req.type.code :=
  header_structOf req.type.sizeof_lt req.type.code_lt _ rest

/-! ## What the handlers read -/

/-- The name is read up to its terminator. -/
theorem read_login {name : Bytes} (h : TextFits 32 name) (junk : ℕ → UInt8) (rest : Bytes) :
    (((CsPacket.login name).encode junk ++ rest).drop 4).takeWhile (· ≠ 0) = name := by
  have hat : At ((CsPacket.login name).encode junk ++ rest) 4 (textField 32 name junk) :=
    at_flatten (k := 2) rfl rfl rest
  exact cstring_of_at hat h.1 h.2

theorem read_move {direction moveTime : ℕ} (hdir : direction < 256) (htime : moveTime < 256 ^ 8)
    (junk : ℕ → UInt8) (rest : Bytes) :
    byteAt ((CsPacket.move direction moveTime).encode junk ++ rest) 4 = direction ∧
      readLE ((CsPacket.move direction moveTime).encode junk ++ rest) 5 8 = moveTime := by
  have hatdir : At ((CsPacket.move direction moveTime).encode junk ++ rest) 4
      (bytesLE 1 direction) := at_flatten (k := 2) rfl rfl rest
  have hattime : At ((CsPacket.move direction moveTime).encode junk ++ rest) 5
      (bytesLE 8 moveTime) := at_flatten (k := 3) rfl rfl rest
  exact ⟨byteAt_of_at hatdir hdir, readLE_of_at hattime htime⟩

/-- The message is copied out of its member, up to its terminator. -/
theorem read_chat {channel : ℕ} {message : Bytes} (hchannel : channel < 256)
    (h : TextFits 128 message) (junk : ℕ → UInt8) (rest : Bytes) :
    byteAt ((CsPacket.chat channel message).encode junk ++ rest) 4 = channel ∧
      strncpyTruncate 128 ((((CsPacket.chat channel message).encode junk ++ rest).drop 5).take 128) =
        message := by
  have hatchannel : At ((CsPacket.chat channel message).encode junk ++ rest) 4
      (bytesLE 1 channel) := at_flatten (k := 2) rfl rfl rest
  obtain ⟨more, hmore⟩ : At ((CsPacket.chat channel message).encode junk ++ rest) 5
      (textField 128 message junk) := at_flatten (k := 3) rfl rfl rest
  refine ⟨byteAt_of_at hatchannel hchannel, ?_⟩
  rw [hmore, List.take_left' (length_textField 128 message junk)]
  -- the copy ends at the terminator, which is inside the member
  have htext := cstring_textField h.1 h.2 junk []
  rw [List.append_nil] at htext
  rw [strncpyTruncate, show (textField 128 message junk).takeWhile (· ≠ 0) = message from htext]
  exact List.take_of_length_le (Nat.le_sub_one_of_lt h.1)

end CsPacket

end Mmorpg
