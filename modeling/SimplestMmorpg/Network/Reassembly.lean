/-
Framing undoes concatenation: what a client sends as packets reaches
`HandlePacket` as the same packets, however the stream is cut on the way.

`CutInto` says that a list of chunks can arrive: each is what the kernel can
store into the buffer that the `PostRecv` before it offered, so it depends on
the ring that the calls so far have left. `Completes` is the history of the
calls, and it is also where the two promises about every call stand: it leaves
its loop, and the `PostRecv` after it offers at least one byte.

The invariant is that the ring is in the middle of the stream (`Awaiting`): what
is unread, followed by what has not arrived yet, is the concatenation of the
packets that have not been handed over, and what is unread is a proper beginning
of the first of them. A packet has at most 512 bytes, so the ring never comes
near its capacity.
-/
import SimplestMmorpg.Network.RecvSafety

set_option autoImplicit false

namespace Mmorpg.Session

open Framing Loop

/-- A packet a client can send: its header announces its length. -/
structure WellFormed (p : Bytes) : Prop where
  size_eq : headerSize p = p.length
  header_le : sizeofPacketHeader ≤ p.length
  fits : p.length ≤ packetBufSize

/-- The chunks can arrive one after the other, from a ring `rb` on. -/
def CutInto : RingBuffer → List Bytes → Prop
  | _, [] => True
  | rb, bs :: chunks => Offered rb bs ∧
      ∀ st, Returns extractRound (entered rb bs) (.exit st) → CutInto st.recvBuffer chunks

/-- The loop was left with room for this many bytes. -/
def roomFor (n : ℕ) : Left → Bool
  | .exit st => n ≤ st.recvBuffer.getContiguousWriteSize
  | .overflow _ => false

/-- Two chunks can arrive, if the first leaves the loop with room for the second. -/
theorem cutInto_two {rb : RingBuffer} {bs more : Bytes} (hbs : Offered rb bs) (hmore : more ≠ [])
    (fuel : ℕ)
    (h : (iterate extractRound fuel (entered rb bs)).any (roomFor more.length) = true) :
    CutInto rb [bs, more] := by
  obtain ⟨left, hleft, hroom⟩ := (Option.any_eq_true _ _).mp h
  refine ⟨hbs, fun st hst => ⟨⟨hmore, ?_⟩, fun _ _ => trivial⟩⟩
  rw [← hst.unique ⟨fuel, hleft⟩] at hroom
  exact of_decide_eq_true hroom

/-- The arguments of the `HandlePacket` calls of a loop: the bytes copied to
`packetBuf`, and the size in the header that was copied with them. -/
def handlePacketCalls (st : Extract) : List (Bytes × ℕ) :=
  st.handled.map fun packetBuf => (packetBuf, headerSize packetBuf)

/-- The completions for the chunks, one after the other. Every `PostRecv` offers
room and every call leaves its loop; `calls` are the `HandlePacket` calls they
make, and `rb'` is the ring they leave. -/
inductive Completes : RingBuffer → List Bytes → List (Bytes × ℕ) → RingBuffer → Prop where
  | nil {rb : RingBuffer} : 1 ≤ rb.getContiguousWriteSize → Completes rb [] [] rb
  | cons {rb rb' : RingBuffer} {bs : Bytes} {st : Extract} {chunks : List Bytes}
      {calls : List (Bytes × ℕ)} :
      1 ≤ rb.getContiguousWriteSize → Returns extractRound (entered rb bs) (.exit st) →
      Completes st.recvBuffer chunks calls rb' →
      Completes rb (bs :: chunks) (handlePacketCalls st ++ calls) rb'

variable {rb : RingBuffer} {bs t : Bytes} {ps chunks : List Bytes} {p : Bytes}

theorem WellFormed.whole (h : WellFormed p) : Whole packets p := ⟨h.header_le, h.size_eq⟩

/-! ## Along the stream -/

/-- Less than one packet is unread, so the next `PostRecv` has room to offer. -/
theorem room_of_awaiting (h : Awaiting packets rb.contents t ps) (hps : ∀ p ∈ ps, WellFormed p) :
    1 ≤ rb.getContiguousWriteSize := by
  have hlt := h.length_lt (n := packetBufSize) (by decide) fun p hp => (hps p hp).fits
  rw [room_iff]
  unfold packetBufSize bufferSize at *
  omega

/-- **One completion.** It hands over the packets that the chunk completes. -/
theorem recv_of_awaiting (h : Awaiting packets rb.contents (bs ++ t) ps)
    (hps : ∀ p ∈ ps, WellFormed p) (ho : Offered rb bs) :
    ∃ st hs, Returns extractRound (entered rb bs) (.exit st) ∧ ps = st.handled ++ hs ∧
      Awaiting packets st.recvBuffer.contents t hs := by
  have hq : (entered rb bs).recvBuffer.contents = rb.contents ++ bs :=
    rb.contents_received ho.2
  obtain ⟨gs, hs, u, hsplit, hb, hnext⟩ := h.arrive (by decide)
  -- no packet is longer than `packetBuf`, so none sends the loop into `Close`
  have hgs : ∀ p ∈ gs, p.length ≤ packetBufSize := fun p hp =>
    (hps p (hsplit ▸ List.mem_append_left _ hp)).fits
  rw [← hq] at hb
  obtain ⟨rb', hret, hrb'⟩ := returns_exit hb hgs hnext.incomplete
  exact ⟨_, hs, hret, hsplit, hrb'.symm ▸ hnext⟩

/-- A well-formed packet is handed over with its own length. -/
theorem handlePacketCalls_eq {st : Extract} (h : ∀ p ∈ st.handled, WellFormed p) :
    handlePacketCalls st = st.handled.map fun p => (p, p.length) := by
  refine List.map_congr_left fun p hp => ?_
  rw [(h p hp).size_eq]

/-- **Every completion.** From a ring in the middle of the stream the calls hand
over exactly the packets that are still to come, and nothing stays unread. -/
theorem completes_of_awaiting (h : Awaiting packets rb.contents chunks.flatten ps)
    (hps : ∀ p ∈ ps, WellFormed p) (hcut : CutInto rb chunks) :
    ∃ rb', Completes rb chunks (ps.map fun p => (p, p.length)) rb' ∧ rb'.contents = [] := by
  induction chunks generalizing rb ps with
  | nil =>
      obtain ⟨rfl, hempty⟩ := h.finished
      exact ⟨rb, .nil (room_of_awaiting h hps), hempty⟩
  | cons bs chunks ih =>
      have hroom := room_of_awaiting h hps
      rw [List.flatten_cons] at h
      obtain ⟨st, hs, hret, hsplit, hnext⟩ := recv_of_awaiting h hps hcut.1
      obtain ⟨rb', hrest, hempty⟩ :=
        ih hnext (fun p hp => hps p (hsplit ▸ List.mem_append_right _ hp)) (hcut.2 st hret)
      have hcalls : handlePacketCalls st = st.handled.map fun p => (p, p.length) :=
        handlePacketCalls_eq fun p hp => hps p (hsplit ▸ List.mem_append_left _ hp)
      refine ⟨rb', ?_, hempty⟩
      rw [hsplit, List.map_append, ← hcalls]
      exact .cons hroom hret hrest

/-- Before the first byte of a stream of well-formed packets. -/
theorem awaiting_all {s : Bytes} (hps : ∀ p ∈ ps, WellFormed p) (hstream : s = ps.flatten) :
    Awaiting packets [] s ps where
  whole p hp := (hps p hp).whole
  stream := hstream
  incomplete := by decide

/-- **Framing undoes concatenation.** However the concatenation of well-formed
packets is cut into chunks that can arrive, the calls hand over exactly those
packets, in order and with their sizes; every `PostRecv` offers room, and
nothing stays unread. -/
theorem framing_undoes_concatenation (buffer : ℕ → UInt8) (ps chunks : List Bytes)
    (hps : ∀ p ∈ ps, WellFormed p) (hstream : chunks.flatten = ps.flatten)
    (hcut : CutInto (.init buffer) chunks) :
    ∃ rb, Completes (.init buffer) chunks (ps.map fun p => (p, p.length)) rb ∧
      rb.contents = [] := by
  have hstart := awaiting_all hps hstream
  rw [← RingBuffer.contents_init buffer] at hstart
  exact completes_of_awaiting hstart hps hcut

/-- A packet without a body that comes in two halves. -/
theorem framing_undoes_concatenation_halves :
    ∃ rb, Completes (.init fun _ => 0) [[4, 0], [235, 3]]
        ([[4, 0, 235, 3]].map fun p => (p, p.length)) rb ∧ rb.contents = [] := by
  refine framing_undoes_concatenation (fun _ => 0) [[4, 0, 235, 3]] [[4, 0], [235, 3]] ?_ rfl
    ⟨⟨by decide, by decide⟩, fun st hst => ⟨⟨by decide, ?_⟩, fun _ _ => trivial⟩⟩
  · intro p hp
    rw [List.mem_singleton.mp hp]
    exact ⟨by decide, by decide, by decide⟩
  · -- half a header leaves the loop as it was entered
    have hq : (entered (.init fun _ => 0) [4, 0]).recvBuffer.contents = [4, 0] :=
      RingBuffer.contents_received _ (by decide)
    have heq := hst.unique (returns_done (extractRound_of_none (by rw [hq]; decide)))
    rw [Left.exit.injEq] at heq
    rw [heq]
    decide

end Mmorpg.Session
