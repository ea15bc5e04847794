/-
`Common/Protocol.h`: the packed structs of the answers, byte by byte.

The server fills in a struct and sends its bytes; the client reads the members
of the struct the type calls for, whatever the size says. Both sides compile
the same header, so the layout is one list of fields (`ScPacket.fields`), and
an answer whose values fit their members is read as it was written
(`decode_encode`). The bytes behind the terminator of a text are those the
struct had on the stack.
-/
import SimplestMmorpg.Common.Protocol
import SimplestMmorpg.Lib.Packed

set_option autoImplicit false

namespace Mmorpg

open Packed

/-! ## Reading members -/

theorem readLE_eq_valueLE (bs : Bytes) (i size : ℕ) :
    readLE bs i size = valueLE ((bs.drop i).take size) := by
  induction size generalizing i with
  | zero => rfl
  | succ size ih =>
      rw [readLE, ih]
      by_cases hi : i < bs.length
      · rw [List.drop_eq_getElem_cons hi, List.take_succ_cons, valueLE, byteAt,
          List.getD_eq_getElem _ _ hi]
      · have hrest : bs.drop i = [] := List.drop_eq_nil_of_le (by omega)
        have hnext : bs.drop (i + 1) = [] := List.drop_eq_nil_of_le (by omega)
        have hbyte : byteAt bs i = 0 := by
          rw [byteAt, List.getD_eq_default _ _ (by omega)]
          rfl
        rw [hrest, hnext, hbyte, List.take_nil, List.take_nil]
        rfl

/-- A member of type `int16_t`. -/
def readS16 (bs : Bytes) (i : ℕ) : Int := ofBits 16 (readLE bs i 2)

/-- A member of type `int32_t`. -/
def readS32 (bs : Bytes) (i : ℕ) : Int := ofBits 32 (readLE bs i 4)

/-- A `char` array that is read as a `std::string`. -/
def readText (bs : Bytes) (i : ℕ) : Bytes := cstring (bs.drop i)

def writeS16 (v : Int) : Bytes := bytesLE 2 (toBits 16 v)

def writeS32 (v : Int) : Bytes := bytesLE 4 (toBits 32 v)

@[simp] theorem length_writeS16 (v : Int) : (writeS16 v).length = 2 := length_bytesLE 2 _

@[simp] theorem length_writeS32 (v : Int) : (writeS32 v).length = 4 := length_bytesLE 4 _

variable {bs : Bytes} {i n size : ℕ} {v : Int}

theorem readLE_of_at (h : At bs i (bytesLE size n)) (hn : n < 256 ^ size) :
    readLE bs i size = n := by
  rw [readLE_eq_valueLE]
  exact valueLE_of_at h hn

theorem byteAt_of_at (h : At bs i (bytesLE 1 n)) (hn : n < 256) : byteAt bs i = n := by
  have hread : readLE bs i 1 = byteAt bs i := by
    rw [readLE, readLE, Nat.mul_zero, Nat.add_zero]
  rw [← hread]
  exact readLE_of_at h hn

theorem readS16_of_at (h : At bs i (writeS16 v)) (hv : Signed 16 v) : readS16 bs i = v := by
  rw [readS16, readLE_of_at h (toBits_lt 16 v)]
  exact ofBits_toBits (by decide) hv

theorem readS32_of_at (h : At bs i (writeS32 v)) (hv : Signed 32 v) : readS32 bs i = v := by
  rw [readS32, readLE_of_at h (toBits_lt 32 v)]
  exact ofBits_toBits (by decide) hv

/-! ## Structs -/

/-- The members of a struct, those of its header first. -/
def structOf (size type : ℕ) (members : List Bytes) : List Bytes :=
  bytesLE 2 size :: bytesLE 2 type :: members

/-- The header of a struct is read as it was written. -/
theorem header_structOf {type : ℕ} (hsize : size < 256 ^ 2) (htype : type < 256 ^ 2)
    (members : List Bytes) (rest : Bytes) :
    headerSize ((structOf size type members).flatten ++ rest) = size ∧
      headerType ((structOf size type members).flatten ++ rest) = type :=
  have hfirst : (structOf size type members)[0]? = some (bytesLE 2 size) := rfl
  have hsecond : (structOf size type members)[1]? = some (bytesLE 2 type) := rfl
  ⟨readLE_of_at (at_flatten hfirst rfl rest) hsize,
    readLE_of_at (at_flatten hsecond (by simp [structOf]) rest) htype⟩

/-! ## Answers -/

/-- `SC_LOGIN_OK` … `SC_ATTACK_EFFECT`. -/
inductive ScType where
  | loginOk
  | loginFail
  | addObject
  | removeObject
  | moveObject
  | statChange
  | chat
  | combatMessage
  | attackEffect
  deriving DecidableEq, Repr

def ScType.code : ScType → ℕ
  | .loginOk => 2001
  | .loginFail => 2002
  | .addObject => 2003
  | .removeObject => 2004
  | .moveObject => 2005
  | .statChange => 2006
  | .chat => 2007
  | .combatMessage => 2008
  | .attackEffect => 2009

/-- `sizeof(SC_LoginOk)` … `sizeof(SC_AttackEffect)`. -/
def ScType.sizeof : ScType → ℕ
  | .loginOk => 26
  | .loginFail => 5
  | .addObject => 55
  | .removeObject => 8
  | .moveObject => 20
  | .statChange => 22
  | .chat => 169
  | .combatMessage => 16
  | .attackEffect => 12

theorem ScType.sizeof_lt (t : ScType) : t.sizeof < 256 ^ 2 := by
  cases t <;> decide

theorem ScType.code_lt (t : ScType) : t.code < 256 ^ 2 := by
  cases t <;> decide

def LoginFailReason.code : LoginFailReason → ℕ
  | .unknown => 0
  | .duplicateLogin => 1
  | .dbError => 2
  | .spawnFull => 3

/-- The `switch` over the reason; what it does not name is treated like the
unknown reason. -/
def LoginFailReason.ofCode : ℕ → LoginFailReason
  | 1 => .duplicateLogin
  | 2 => .dbError
  | 3 => .spawnFull
  | _ => .unknown

def ObjectType.code : ObjectType → ℕ
  | .player => 0
  | .monster => 1

/-- The client asks whether the type is that of a player. -/
def ObjectType.ofCode : ℕ → ObjectType
  | 0 => .player
  | _ => .monster

namespace ScPacket

def type : ScPacket → ScType
  | .loginOk .. => .loginOk
  | .loginFail .. => .loginFail
  | .addObject .. => .addObject
  | .removeObject .. => .removeObject
  | .moveObject .. => .moveObject
  | .statChange .. => .statChange
  | .chat .. => .chat
  | .combatMessage .. => .combatMessage
  | .attackEffect .. => .attackEffect

/-- The members behind the header, as they lie in the struct. -/
def fields (junk : ℕ → UInt8) : ScPacket → List Bytes
  | .loginOk myId pos level exp hp maxHp =>
    [bytesLE 4 myId, writeS16 pos.x, writeS16 pos.y, bytesLE 2 level.toNat, bytesLE 4 exp.toNat,
      writeS32 hp, writeS32 maxHp]
  | .loginFail reason => [bytesLE 1 reason.code]
  | .addObject obj =>
    [bytesLE 4 obj.id, writeS16 obj.pos.x, writeS16 obj.pos.y, bytesLE 1 obj.type.code,
      bytesLE 2 obj.level.toNat, writeS32 obj.hp, writeS32 obj.maxHp, textField 32 obj.name junk]
  | .removeObject objectId => [bytesLE 4 objectId]
  | .moveObject objectId pos moveTime =>
    [bytesLE 4 objectId, writeS16 pos.x, writeS16 pos.y, bytesLE 8 moveTime]
  | .statChange objectId hp maxHp exp level =>
    [bytesLE 4 objectId, writeS32 hp, writeS32 maxHp, bytesLE 4 exp.toNat, bytesLE 2 level.toNat]
  | .chat senderId channel name message =>
    [bytesLE 4 senderId, bytesLE 1 channel, textField 32 name junk,
      textField 128 message fun i => junk (32 + i)]
  | .combatMessage attackerId targetId damage =>
    [bytesLE 4 attackerId, bytesLE 4 targetId, writeS32 damage]
  | .attackEffect attackerId pos => [bytesLE 4 attackerId, writeS16 pos.x, writeS16 pos.y]

/-- The struct, its header included. -/
def record (junk : ℕ → UInt8) (pkt : ScPacket) : List Bytes :=
  structOf pkt.type.sizeof pkt.type.code (pkt.fields junk)

/-- The bytes that are sent. -/
def encode (junk : ℕ → UInt8) (pkt : ScPacket) : Bytes := (pkt.record junk).flatten

end ScPacket

/-- The members the client reads, each at its offset. -/
def ScType.read (data : Bytes) : ScType → ScPacket
  | .loginOk =>
    .loginOk (readLE data 4 4) ⟨readS16 data 8, readS16 data 10⟩ (.ofNat (readLE data 12 2))
      (readLE data 14 4) (readS32 data 18) (readS32 data 22)
  | .loginFail => .loginFail (.ofCode (byteAt data 4))
  | .addObject =>
    .addObject
      { id := readLE data 4 4
        pos := ⟨readS16 data 8, readS16 data 10⟩
        type := .ofCode (byteAt data 12)
        level := .ofNat (readLE data 13 2)
        hp := readS32 data 15
        maxHp := readS32 data 19
        name := readText data 23 }
  | .removeObject => .removeObject (readLE data 4 4)
  | .moveObject =>
    .moveObject (readLE data 4 4) ⟨readS16 data 8, readS16 data 10⟩ (readLE data 12 8)
  | .statChange =>
    .statChange (readLE data 4 4) (readS32 data 8) (readS32 data 12) (readLE data 16 4)
      (.ofNat (readLE data 20 2))
  | .chat => .chat (readLE data 4 4) (byteAt data 8) (readText data 9) (readText data 41)
  | .combatMessage => .combatMessage (readLE data 4 4) (readLE data 8 4) (readS32 data 12)
  | .attackEffect => .attackEffect (readLE data 4 4) ⟨readS16 data 8, readS16 data 10⟩

/-- The `switch` over the type of a packet. -/
def ScPacket.decode (data : Bytes) : Option ScPacket :=
  ([ScType.loginOk, .loginFail, .addObject, .removeObject, .moveObject, .statChange, .chat,
    .combatMessage, .attackEffect].find? fun t => headerType data = t.code).map (·.read data)

/-! ## Values that fit their members -/

/-- A text with room for its terminator, and none inside. -/
def TextFits (size : ℕ) (text : Bytes) : Prop := text.length < size ∧ 0 ∉ text

def Position.Fits (pos : Position) : Prop := Signed 16 pos.x ∧ Signed 16 pos.y

structure RemoteObject.Fits (obj : RemoteObject) : Prop where
  id : obj.id < 256 ^ 4
  pos : obj.pos.Fits
  hp : Signed 32 obj.hp
  maxHp : Signed 32 obj.maxHp
  name : TextFits 32 obj.name

/-- Every value fits its member. -/
def ScPacket.Fits : ScPacket → Prop
  | .loginOk myId pos _ exp hp maxHp =>
    myId < 256 ^ 4 ∧ pos.Fits ∧ (0 ≤ exp ∧ exp < 256 ^ 4) ∧ Signed 32 hp ∧ Signed 32 maxHp
  | .loginFail _ => True
  | .addObject obj => obj.Fits
  | .removeObject objectId => objectId < 256 ^ 4
  | .moveObject objectId pos moveTime => objectId < 256 ^ 4 ∧ pos.Fits ∧ moveTime < 256 ^ 8
  | .statChange objectId hp maxHp exp _ =>
    objectId < 256 ^ 4 ∧ Signed 32 hp ∧ Signed 32 maxHp ∧ 0 ≤ exp ∧ exp < 256 ^ 4
  | .chat senderId channel name message =>
    senderId < 256 ^ 4 ∧ channel < 256 ∧ TextFits 32 name ∧ TextFits 128 message
  | .combatMessage attackerId targetId damage =>
    attackerId < 256 ^ 4 ∧ targetId < 256 ^ 4 ∧ Signed 32 damage
  | .attackEffect attackerId pos => attackerId < 256 ^ 4 ∧ pos.Fits

/-! ## What is written is read -/

namespace ScPacket

variable {junk : ℕ → UInt8} {pkt : ScPacket} {f : Bytes} {k : ℕ}

/-- A member lies at its offset. -/
theorem at_member (rest : Bytes) (hk : (pkt.record junk)[k]? = some f)
    (hi : (((pkt.record junk).take k).map List.length).sum = i) :
    At (pkt.encode junk ++ rest) i f :=
  at_flatten hk hi rest

/-- The struct has the size its header says. -/
theorem length_encode (junk : ℕ → UInt8) (pkt : ScPacket) :
    (pkt.encode junk).length = pkt.type.sizeof := by
  unfold encode
  rw [List.length_flatten]
  cases pkt <;> simp [record, structOf, fields, type, ScType.sizeof]

theorem headerSize_encode (junk : ℕ → UInt8) (pkt : ScPacket) (rest : Bytes) :
    headerSize (pkt.encode junk ++ rest) = pkt.type.sizeof :=
  (header_structOf pkt.type.sizeof_lt pkt.type.code_lt _ rest).1

theorem headerType_encode (junk : ℕ → UInt8) (pkt : ScPacket) (rest : Bytes) :
    headerType (pkt.encode junk ++ rest) = pkt.type.code :=
  (header_structOf pkt.type.sizeof_lt pkt.type.code_lt _ rest).2

theorem ofCode_code (t : ObjectType) : ObjectType.ofCode t.code = t := by
  cases t <;> rfl

theorem ofCode_code_reason (reason : LoginFailReason) :
    LoginFailReason.ofCode reason.code = reason := by
  cases reason <;> rfl

/-- **The members are read as they were written.** -/
theorem read_encode (h : pkt.Fits) (junk : ℕ → UInt8) (rest : Bytes) :
    pkt.type.read (pkt.encode junk ++ rest) = pkt := by
  have hmember := fun (k : ℕ) (f : Bytes) (i : ℕ) (hk : (pkt.record junk)[k]? = some f)
    (hi : (((pkt.record junk).take k).map List.length).sum = i) => at_member rest hk hi
  cases pkt with
  | loginOk myId pos level exp hp maxHp =>
      obtain ⟨hid, ⟨hx, hy⟩, ⟨hexp, hlt⟩, hhp, hmax⟩ := h
      have hid := readLE_of_at (hmember 2 _ 4 rfl rfl) hid
      have hx := readS16_of_at (hmember 3 _ 8 rfl rfl) hx
      have hy := readS16_of_at (hmember 4 _ 10 rfl rfl) hy
      have hlevel := readLE_of_at (hmember 5 _ 12 rfl rfl) level.toNat_lt
      have hread := readLE_of_at (hmember 6 _ 14 rfl rfl) (by omega)
      have hhp := readS32_of_at (hmember 7 _ 18 rfl rfl) hhp
      have hmax := readS32_of_at (hmember 8 _ 22 rfl rfl) hmax
      simp only [type, ScType.read, hid, hx, hy, hlevel, hread, hhp, hmax, Int.toNat_of_nonneg hexp,
        UInt16.ofNat_toNat]
  | loginFail reason =>
      have hlt : reason.code < 256 := by cases reason <;> decide
      have hreason := byteAt_of_at (hmember 2 _ 4 rfl rfl) hlt
      simp only [type, ScType.read, hreason, ofCode_code_reason]
  | addObject obj =>
      have hlt : obj.type.code < 256 := by cases obj.type <;> decide
      have hid := readLE_of_at (hmember 2 _ 4 rfl rfl) h.id
      have hx := readS16_of_at (hmember 3 _ 8 rfl rfl) h.pos.1
      have hy := readS16_of_at (hmember 4 _ 10 rfl rfl) h.pos.2
      have htype := byteAt_of_at (hmember 5 _ 12 rfl rfl) hlt
      have hlevel := readLE_of_at (hmember 6 _ 13 rfl rfl) obj.level.toNat_lt
      have hhp := readS32_of_at (hmember 7 _ 15 rfl rfl) h.hp
      have hmax := readS32_of_at (hmember 8 _ 19 rfl rfl) h.maxHp
      have hname := cstring_of_at (hmember 9 _ 23 rfl rfl) h.name.1 h.name.2
      simp only [type, ScType.read, hid, hx, hy, htype, hlevel, hhp, hmax, readText, hname,
        ofCode_code, UInt16.ofNat_toNat]
  | removeObject objectId =>
      have hid := readLE_of_at (hmember 2 _ 4 rfl rfl) h
      simp only [type, ScType.read, hid]
  | moveObject objectId pos moveTime =>
      obtain ⟨hid, ⟨hx, hy⟩, htime⟩ := h
      have hid := readLE_of_at (hmember 2 _ 4 rfl rfl) hid
      have hx := readS16_of_at (hmember 3 _ 8 rfl rfl) hx
      have hy := readS16_of_at (hmember 4 _ 10 rfl rfl) hy
      have htime := readLE_of_at (hmember 5 _ 12 rfl rfl) htime
      simp only [type, ScType.read, hid, hx, hy, htime]
  | statChange objectId hp maxHp exp level =>
      obtain ⟨hid, hhp, hmax, hexp, hlt⟩ := h
      have hid := readLE_of_at (hmember 2 _ 4 rfl rfl) hid
      have hhp := readS32_of_at (hmember 3 _ 8 rfl rfl) hhp
      have hmax := readS32_of_at (hmember 4 _ 12 rfl rfl) hmax
      have hread := readLE_of_at (hmember 5 _ 16 rfl rfl) (by omega)
      have hlevel := readLE_of_at (hmember 6 _ 20 rfl rfl) level.toNat_lt
      simp only [type, ScType.read, hid, hhp, hmax, hread, hlevel, Int.toNat_of_nonneg hexp,
        UInt16.ofNat_toNat]
  | chat senderId channel name message =>
      obtain ⟨hid, hchannel, hname, hmessage⟩ := h
      have hid := readLE_of_at (hmember 2 _ 4 rfl rfl) hid
      have hchannel := byteAt_of_at (hmember 3 _ 8 rfl rfl) hchannel
      have hname := cstring_of_at (hmember 4 _ 9 rfl rfl) hname.1 hname.2
      have hmessage := cstring_of_at
        (hmember 5 (textField 128 message fun i => junk (32 + i)) 41 rfl (by simp [record, structOf, fields]))
        hmessage.1 hmessage.2
      simp only [type, ScType.read, hid, hchannel, readText, hname, hmessage]
  | combatMessage attackerId targetId damage =>
      obtain ⟨hattacker, htarget, hdamage⟩ := h
      have hattacker := readLE_of_at (hmember 2 _ 4 rfl rfl) hattacker
      have htarget := readLE_of_at (hmember 3 _ 8 rfl rfl) htarget
      have hdamage := readS32_of_at (hmember 4 _ 12 rfl rfl) hdamage
      simp only [type, ScType.read, hattacker, htarget, hdamage]
  | attackEffect attackerId pos =>
      obtain ⟨hattacker, hx, hy⟩ := h
      have hattacker := readLE_of_at (hmember 2 _ 4 rfl rfl) hattacker
      have hx := readS16_of_at (hmember 3 _ 8 rfl rfl) hx
      have hy := readS16_of_at (hmember 4 _ 10 rfl rfl) hy
      simp only [type, ScType.read, hattacker, hx, hy]

/-- **What is written is read**, whatever lies behind it. -/
theorem decode_encode (h : pkt.Fits) (junk : ℕ → UInt8) (rest : Bytes) :
    decode (pkt.encode junk ++ rest) = some pkt := by
  have hfind : ([ScType.loginOk, .loginFail, .addObject, .removeObject, .moveObject, .statChange,
      .chat, .combatMessage, .attackEffect].find? fun t =>
        headerType (pkt.encode junk ++ rest) = t.code) = some pkt.type := by
    rw [headerType_encode]
    cases pkt <;> rfl
  unfold decode
  rw [hfind, Option.map_some, read_encode h]

end ScPacket

end Mmorpg
