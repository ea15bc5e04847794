/-
Where a login name comes from.

`CS_Login` ends with `char name[32]`, and `ProcessLogin` makes a string of it up
to the first zero byte. `HandlePacket` has checked the size of the packet, not
what is in the field: with no zero among the 32 bytes the string goes on in
`packetBuf`, which holds 476 bytes more, of earlier packets or of whatever was
on the stack. `ProcessChat` ends its message within its field.
-/
import SimplestMmorpg.Server.Server
import Mathlib.Data.List.TakeWhile

set_option autoImplicit false

namespace Mmorpg.Server

/-- The bytes of `packetBuf` beyond a `CS_LOGIN`. -/
abbrev sizeofRest : ℕ := 476

/-- The name that `ProcessLogin` posts with its task. -/
def loginName (data : Bytes) : Bytes := (data.drop 4).takeWhile (· ≠ 0)

/-- One name comes out of a packet, whatever `packetBuf` holds beyond it, and
its length is at most that of the field. -/
def NameOwned (packet : Bytes) : Prop :=
  ∀ (s : Server) (env : Env) (id : ObjectID) (conn : ConnId) (rest rest' : Bytes),
    rest.length = sizeofRest → rest'.length = sizeofRest → ∃ name : Bytes, name.length ≤ 32 ∧
      (s.handlePacket env id conn (packet ++ rest) 36).loginQueue =
        s.loginQueue ++ [⟨id, name, conn⟩] ∧
      (s.handlePacket env id conn (packet ++ rest') 36).loginQueue =
        s.loginQueue ++ [⟨id, name, conn⟩]

variable {env : Env} {s : Server} {id : ObjectID} {conn : ConnId} {packet rest : Bytes}

theorem loginQueue_handlePacket (hreq : requestOf packet 36 = some .login)
    (hlen : packet.length = 36) :
    (s.handlePacket env id conn (packet ++ rest) 36).loginQueue =
      s.loginQueue ++ [⟨id, loginName (packet ++ rest), conn⟩] := by
  have happ := requestOf_append packet rest 36 (by rw [hlen]; decide)
  rw [handlePacket, happ, hreq]
  rfl

/-- With a zero in the field the name ends there. -/
theorem loginName_of_mem (hlen : packet.length = 36) (hzero : 0 ∈ packet.drop 4) :
    loginName (packet ++ rest) = (packet.drop 4).takeWhile (· ≠ 0) := by
  unfold loginName
  rw [List.drop_append_of_le_length (by omega), List.takeWhile_append]
  split
  · next hall =>
      -- all of the field would have to be taken
      have htake : (packet.drop 4).takeWhile (· ≠ 0) = packet.drop 4 :=
        (List.takeWhile_prefix _).eq_of_length hall
      rw [← htake] at hzero
      have hnonzero := List.mem_takeWhile_imp hzero
      exact absurd hnonzero (by simp)
  · rfl

/-- Without one it goes on in the rest of the buffer. -/
theorem loginName_of_notMem (hlen : packet.length = 36) (hzero : 0 ∉ packet.drop 4) :
    loginName (packet ++ rest) = packet.drop 4 ++ rest.takeWhile (· ≠ 0) := by
  unfold loginName
  have hall : ∀ b ∈ packet.drop 4, decide (b ≠ 0) = true := by
    intro b hb
    exact decide_eq_true fun h => hzero (h ▸ hb)
  rw [List.drop_append_of_le_length (by omega), List.takeWhile_append_of_pos hall]

/-- A field without a zero gives another name when the byte after it is another. -/
theorem not_nameOwned (hlen : packet.length = 36) (hreq : requestOf packet 36 = some .login)
    (hzero : 0 ∉ packet.drop 4) : ¬ NameOwned packet := by
  intro h
  obtain ⟨name, -, h1, h2⟩ := h (init ⟨fun _ => 0⟩ [] 0 .init) .plain 0 0
    (0 :: List.replicate 475 0) (65 :: List.replicate 475 0)
    (by rw [List.length_cons, List.length_replicate])
    (by rw [List.length_cons, List.length_replicate])
  rw [loginQueue_handlePacket hreq hlen, loginName_of_notMem hlen hzero] at h1 h2
  -- one name ends with the field, the other has a byte of the rest
  have heq := List.append_cancel_left (h1.trans h2.symm)
  rw [List.takeWhile_cons_of_neg (by decide), List.takeWhile_cons_of_pos (by decide),
    List.append_nil] at heq
  have hlength := congrArg List.length (LoginTask.mk.inj (List.singleton_inj.mp heq)).2.1
  rw [List.length_append, List.length_cons] at hlength
  omega

/-- **The name is the packet's own if and only if its field holds a zero.** -/
theorem nameOwned_iff (packet : Bytes) (hlen : packet.length = 36)
    (hreq : requestOf packet 36 = some .login) : NameOwned packet ↔ 0 ∈ packet.drop 4 := by
  constructor
  · intro h
    by_contra hzero
    exact not_nameOwned hlen hreq hzero h
  · intro hzero s env id conn rest rest' _ _
    refine ⟨_, ?_, loginQueue_handlePacket hreq hlen, ?_⟩
    · rw [loginName_of_mem hlen hzero]
      refine (List.takeWhile_prefix _).length_le.trans ?_
      rw [List.length_drop, hlen]
    · rw [loginQueue_handlePacket hreq hlen, loginName_of_mem hlen hzero,
        loginName_of_mem hlen hzero]

/-- A `CS_LOGIN` with the name `A`. -/
theorem nameOwned_iff_shortName :
    NameOwned ([36, 0, 233, 3, 65] ++ List.replicate 31 0) :=
  (nameOwned_iff _ (by decide) (by decide)).mpr (by decide)

/-- A `CS_LOGIN` that fills its field. -/
theorem not_always_nameOwned :
    ¬ ∀ packet : Bytes, packet.length = 36 → requestOf packet 36 = some .login →
      NameOwned packet := by
  intro hall
  have hlen : ([36, 0, 233, 3] ++ List.replicate 32 65 : Bytes).length = 36 := by decide
  have hreq : requestOf ([36, 0, 233, 3] ++ List.replicate 32 65) 36 = some .login := by decide
  exact not_nameOwned hlen hreq (by decide) (hall _ hlen hreq)

end Mmorpg.Server
