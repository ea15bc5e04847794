/-
When a receive completion is handled to its end, and when it stays inside
`packetBuf`.

`HandlePacket` refuses a packet whose size is below `sizeof(PacketHeader)`, but
it is called after the packet has been copied and popped, so it comes too late
for the two sizes that matter to `OnRecvComplete` itself: a packet of size 0
pops nothing, and a packet above 512 bytes does not fit `packetBuf`. A third
kind of size never gets that far: 8192 and more is never complete, and once
8191 of its bytes are unread the ring has no room left to offer.

Both results are equivalences over every history of completions, so they say
for each stream whether its next completion is handled well, not only that
the streams a friendly client sends are.
-/
import SimplestMmorpg.Network.Session

set_option autoImplicit false

namespace Mmorpg.Session

open Framing Loop

/-- The call with the chunk `bs` leaves the extraction loop, and `PostRecv` then
offers at least one byte. -/
def LeavesWithRoom (rb : RingBuffer) (bs : Bytes) : Prop :=
  ∃ st, Returns extractRound (entered rb bs) (.exit st) ∧
    1 ≤ st.recvBuffer.getContiguousWriteSize

/-- Every `Peek` into `packetBuf` the call makes is asked for what fits. -/
def PeeksFit (rb : RingBuffer) (bs : Bytes) : Prop :=
  ∀ st, Visits extractRound (entered rb bs) st → ∀ n, asked st = some n → n ≤ packetBufSize

/-- At every packet boundary of the stream: a complete packet has between 1 and
512 bytes, and of an incomplete one fewer than 8191 bytes have arrived. -/
structure WellFramed (s : Bytes) : Prop where
  fits : Every packets (fun f => 1 ≤ f.length ∧ f.length ≤ packetBufSize) s
  room : ∀ fs u, Boundary packets s fs u → frame packets u = none → u.length < bufferSize - 1

variable {chunks : List Bytes} {rb : RingBuffer} {bs : Bytes} {st : Extract}

theorem room_iff (rb : RingBuffer) :
    1 ≤ rb.getContiguousWriteSize ↔ rb.contents.length < bufferSize - 1 := by
  have h := rb.contiguousWriteSize_eq_zero_iff
  have hlt := rb.getUsedSize_lt
  rw [RingBuffer.length_contents] at h ⊢
  unfold bufferSize at *
  omega

/-- The stream so far, with the new chunk, has the unread bytes of the entered
loop as the rest of a boundary. -/
theorem Received.entered_boundary (h : Received chunks rb) (ho : Offered rb bs) :
    ∃ fs, Boundary packets (chunks.flatten ++ bs) fs (entered rb bs).recvBuffer.contents ∧
      ∀ f ∈ fs, f.length ≤ packetBufSize := by
  obtain ⟨fs, hb, hall, -⟩ := h.boundary
  refine ⟨fs, ?_, hall⟩
  rw [show (entered rb bs).recvBuffer.contents = rb.contents ++ bs from
    rb.contents_received ho.2]
  exact hb.append bs

/-- **A completion is handled to its end exactly on a well-framed stream.** In
any history, the call for the next chunk leaves its loop with room to receive
if and only if the stream up to and including the chunk is well framed. -/
theorem onRecvComplete_leaves_iff (h : Received chunks rb) (ho : Offered rb bs) :
    LeavesWithRoom rb bs ↔ WellFramed (chunks.flatten ++ bs) := by
  obtain ⟨fs, hb, hall⟩ := h.entered_boundary ho
  constructor
  · rintro ⟨st, hret, hroom⟩
    obtain ⟨gs, hgs, hgall, hnone, -⟩ := exit_boundary hret
    have hlast := hb.trans hgs
    refine ⟨?_, fun ks u hu hunone => ?_⟩
    · refine (every_iff_of_boundary hlast fun f hf => ⟨?_, ?_⟩).mpr (every_of_none hnone)
      · exact List.length_pos_of_ne_nil (hlast.ne_nil_of_mem hf)
      · rcases List.mem_append.mp hf with h1 | h1
        · exact hall f h1
        · exact hgall f h1
    · rw [Boundary.rest_unique hunone hnone hu hlast]
      exact (room_iff _).mp hroom
  · rintro ⟨hfits, hroom⟩
    have hq := hfits.of_boundary hb
    obtain ⟨gs, u, hgs, hu⟩ := exists_last packets (entered rb bs).recvBuffer.contents
    have hgall : ∀ f ∈ gs, f.length ≤ packetBufSize := fun f hf => (hq.of_mem hgs hf).2
    rcases hu with hu | ⟨v, hu⟩
    · obtain ⟨rb', hret, hrb'⟩ := returns_exit hgs hgall hu
      refine ⟨_, hret, (room_iff _).mpr ?_⟩
      rw [hrb']
      exact hroom _ u (hb.trans hgs) hu
    · -- a packet of size 0 would be a complete packet below one byte
      have h0 := (hq gs u hgs [] v hu).1
      simp at h0

/-- A packet of 4 bytes, which is all a `CS_ATTACK` request has. -/
def attackPacket : Bytes := [4, 0, 235, 3]

theorem onRecvComplete_leaves_iff_attack :
    LeavesWithRoom (.init fun _ => 0) attackPacket ↔ WellFramed ([].flatten ++ attackPacket) :=
  onRecvComplete_leaves_iff (.start _) ⟨by decide, by decide⟩

/-- Four zero bytes are a header of size 0: the first completion of the
connection never leaves the extraction loop. -/
theorem not_always_leaves :
    ¬ ∀ (chunks : List Bytes) (rb : RingBuffer) (bs : Bytes),
      Received chunks rb → Offered rb bs → LeavesWithRoom rb bs := by
  intro hall
  obtain ⟨st, hret, -⟩ := hall [] (.init fun _ => 0) [0, 0, 0, 0] (.start _)
    ⟨by decide, by decide⟩
  have hq : (entered (.init fun _ => 0) [0, 0, 0, 0]).recvBuffer.contents = [0, 0, 0, 0] :=
    RingBuffer.contents_received _ (by decide)
  have hzero : Diverges extractRound (entered (.init fun _ => 0) [0, 0, 0, 0]) :=
    diverges_of_zero (.start _) (List.forall_mem_nil _) (v := [0, 0, 0, 0]) (by rw [hq]; decide)
  exact hzero.not_returns hret

/-! ## Staying inside `packetBuf` -/

/-- Going along the boundaries of the unread bytes, a call that never asks for
too much visits each of them. -/
theorem visits_boundary {fs : List Bytes} {u : Bytes}
    (hfit : ∀ st', Visits extractRound st st' → ∀ n, asked st' = some n → n ≤ packetBufSize)
    (hb : Boundary packets st.recvBuffer.contents fs u) :
    ∃ st', Visits extractRound st st' ∧ st'.recvBuffer.contents = u := by
  induction fs generalizing st with
  | nil =>
      cases hb
      exact ⟨st, .start, rfl⟩
  | cons f fs ih =>
      obtain ⟨t, hf, -, ht⟩ := hb.head_frame
      obtain ⟨rb, hnext, hrb⟩ :=
        (extractRound_of_some hf).2 (hfit st .start f.length (asked_of_some hf))
      rw [← hrb] at ht
      obtain ⟨st', hv, hu⟩ := @ih ⟨rb, st.handled ++ [f]⟩
        (fun st' hv => hfit st' (hv.head hnext)) ht
      exact ⟨st', hv.head hnext, hu⟩

/-- A round of the loop goes from one boundary to the next, so what holds of
every packet ahead goes on holding. -/
theorem every_visits {P : Bytes → Prop} (h : Every packets P st.recvBuffer.contents)
    {st' : Extract} (hv : Visits extractRound st st') :
    Every packets P st'.recvBuffer.contents := by
  refine hv.invariant (I := fun s => Every packets P s.recvBuffer.contents) ?_ h
  intro s s' hs hnext
  rcases hf : frame packets s.recvBuffer.contents with _ | ⟨f, u⟩
  · rw [extractRound_of_none hf] at hnext
    exact absurd hnext (by simp)
  · by_cases hbig : packetBufSize < f.length
    · rw [(extractRound_of_some hf).1 hbig] at hnext
      exact absurd hnext (by simp)
    · obtain ⟨rb, hn, hrb⟩ := (extractRound_of_some hf).2 (by omega)
      rw [hn, Round.next.injEq] at hnext
      subst hnext
      dsimp only
      rw [hrb]
      by_cases hne : f = []
      · have hu := (frame_eq_some hf).1
        rw [hne, List.nil_append] at hu
        rwa [← hu]
      · exact hs.of_boundary (.cut hf hne (.start u))

/-- **A call stays inside `packetBuf` exactly when every complete packet fits.**
In any history, the call for the next chunk never asks `Peek` for more than
`packetBuf` holds if and only if at every boundary of the stream up to and
including the chunk a complete packet has at most 512 bytes. -/
theorem peeksFit_iff (h : Received chunks rb) (ho : Offered rb bs) :
    PeeksFit rb bs ↔ Every packets (fun f => f.length ≤ packetBufSize) (chunks.flatten ++ bs) := by
  obtain ⟨fs, hb, hall⟩ := h.entered_boundary ho
  rw [every_iff_of_boundary hb hall]
  constructor
  · intro hfit gs u hgs f v hf
    obtain ⟨st', hv, hu⟩ := visits_boundary hfit hgs
    exact hfit st' hv f.length (asked_of_some (by rw [hu]; exact hf))
  · intro hq st hv n hn
    rcases hf : frame packets st.recvBuffer.contents with _ | ⟨f, u⟩
    · rw [asked_of_none hf] at hn
      exact absurd hn (by simp)
    · rw [asked_of_some hf, Option.some.injEq] at hn
      exact hn ▸ every_visits hq hv [] _ (.start _) f u hf

theorem peeksFit_iff_attack :
    PeeksFit (.init fun _ => 0) attackPacket ↔
      Every packets (fun f => f.length ≤ packetBufSize) ([].flatten ++ attackPacket) :=
  peeksFit_iff (.start _) ⟨by decide, by decide⟩

/-- A packet that announces 513 bytes and has them. -/
def longPacket : Bytes := 1 :: 2 :: 0 :: 0 :: List.replicate 509 0

theorem length_longPacket : longPacket.length = 513 := by
  simp only [longPacket, List.length_cons, List.length_replicate]

/-- A packet of 513 bytes is copied to the 512 bytes of `packetBuf`. -/
theorem not_always_fits :
    ¬ ∀ (chunks : List Bytes) (rb : RingBuffer) (bs : Bytes),
      Received chunks rb → Offered rb bs → PeeksFit rb bs := by
  intro hall
  have ho : longPacket.length ≤ (RingBuffer.init fun _ => 0).getContiguousWriteSize := by
    rw [length_longPacket]; decide
  have hfit := hall [] (.init fun _ => 0) longPacket (.start _) ⟨List.cons_ne_nil _ _, ho⟩
  have hq : (entered (.init fun _ => 0) longPacket).recvBuffer.contents = longPacket :=
    RingBuffer.contents_received _ ho
  have hsize : packets.size longPacket = 513 := rfl
  have hf : frame packets longPacket = some (longPacket, []) := by
    rw [frame, hsize, length_longPacket, if_neg (by decide), if_neg (by decide)]
    rw [← length_longPacket, List.take_length, List.drop_length]
  have h513 := hfit (entered (.init fun _ => 0) longPacket) .start longPacket.length
    (asked_of_some (u := []) (by rw [hq]; exact hf))
  rw [length_longPacket] at h513
  exact absurd h513 (by decide)

end Mmorpg.Session
