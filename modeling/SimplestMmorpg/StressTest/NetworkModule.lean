/-
`StressTest/NetworkModule`: how a bot takes its packets out of what it receives.

A bot has no ring. A completion brings at most `MAX_BUFF_SIZE` bytes, which are
appended to `recv_accum`; packets are handed to `ProcessPacket` from the front,
and what is left is moved to the front. A completion that does not fit makes the
bot disconnect.

The bytes in use are `accumulated`, and a stream of whole packets is cut off
them as it is cut off the ring, so the two framers agree although nothing else
is alike (`framers_agree`). What a loop leaves is the beginning of one packet,
so there is always room for the next completion.
-/
import SimplestMmorpg.Client.NetworkClient

set_option autoImplicit false

namespace Mmorpg.NetworkModule

open Framing Loop Session

/-- `MAX_BUFF_SIZE`. -/
abbrev maxBuffSize : ℕ := 1024

/-- `RECV_ACCUM_CAP`. -/
abbrev recvAccumCap : ℕ := 2048

/-- The members of `CLIENT` that receiving uses. -/
structure Client where
  recvAccum : ℕ → UInt8
  recvAccumSize : ℕ

variable (c : Client)

/-! ## The completion -/

/-- The bytes in use. -/
def Client.accumulated : Bytes := (List.range c.recvAccumSize).map c.recvAccum

/-- `memcpy` behind the bytes in use, and the new size. -/
def Client.append (bs : Bytes) : Client where
  recvAccum i :=
    if c.recvAccumSize ≤ i ∧ i < c.recvAccumSize + bs.length then
      bs.getD (i - c.recvAccumSize) 0
    else c.recvAccum i
  recvAccumSize := c.recvAccumSize + bs.length

/-- `memmove` of the `remain` bytes behind the first `size` ones to the front, and
the new size. -/
def Client.dropFront (size : ℕ) : Client where
  recvAccum i := if i < c.recvAccumSize - size then c.recvAccum (size + i) else c.recvAccum i
  recvAccumSize := c.recvAccumSize - size

/-- The state of the extraction loop. -/
structure Extraction where
  client : Client
  processed : List Bytes

/-- One round of the extraction loop; `ProcessPacket` reads the packet where it
lies. -/
def extractRound (e : Extraction) : Round Extraction Extraction :=
  if e.client.recvAccumSize < sizeofPacketHeader then .done e
  else
    let size := headerSize ((List.range sizeofPacketHeader).map e.client.recvAccum)
    if e.client.recvAccumSize < size then .done e
    else
      .next ⟨e.client.dropFront size,
        e.processed ++ [(List.range size).map e.client.recvAccum]⟩

/-- Where the bot is after the last completion. -/
inductive BotEnd where
  | waiting (client : Client)
  | disconnected

/-- The `OP_RECV` branch of `WorkerThread` on the completions of one bot, with a
bound on the rounds of each extraction loop. -/
def workerThread (fuel : ℕ) : Client → List Bytes → Option (List Bytes × BotEnd)
  | c, [] => some ([], .waiting c)
  | c, bs :: chunks =>
    if c.recvAccumSize + bs.length ≤ recvAccumCap then
      match iterate extractRound fuel ⟨c.append bs, []⟩ with
      | none => none
      | some e => (workerThread fuel e.client chunks).map fun r => (e.processed ++ r.1, r.2)
    else some ([], .disconnected)

/-! ## The bytes in use -/

variable {c} {e : Extraction} {f u bs t : Bytes} {fs ps chunks : List Bytes}

@[simp] theorem length_accumulated : c.accumulated.length = c.recvAccumSize := by
  simp only [Client.accumulated, List.length_map, List.length_range]

theorem accumulated_append : (c.append bs).accumulated = c.accumulated ++ bs := by
  refine List.ext_getElem (by simp [Client.append]) fun i h1 h2 => ?_
  rw [length_accumulated] at h1
  simp only [Client.append] at h1
  simp only [Client.accumulated, Client.append, List.getElem_map, List.getElem_range]
  by_cases hi : i < c.recvAccumSize
  · -- the bytes in use are not touched
    rw [if_neg (by omega), List.getElem_append_left (by simpa using hi)]
    simp only [List.getElem_map, List.getElem_range]
  · rw [if_pos (by omega), List.getElem_append_right (by simpa using hi),
      List.getD_eq_getElem _ _ (by omega)]
    simp only [List.length_map, List.length_range]

/-- Going to the front, no byte is overwritten before it is moved. -/
theorem accumulated_dropFront (n : ℕ) :
    (c.dropFront n).accumulated = c.accumulated.drop n := by
  refine List.ext_getElem (by simp [Client.dropFront]) fun i h1 h2 => ?_
  rw [length_accumulated] at h1
  simp only [Client.dropFront] at h1
  simp only [Client.accumulated, Client.dropFront, List.getElem_drop, List.getElem_map,
    List.getElem_range]
  rw [if_pos h1]

theorem take_accumulated {n : ℕ} (hn : n ≤ c.recvAccumSize) :
    (List.range n).map c.recvAccum = c.accumulated.take n := by
  rw [Client.accumulated, ← List.map_take, List.take_range, Nat.min_eq_left hn]

/-! ## The extraction loop -/

theorem extractRound_of_none (h : frame packets e.client.accumulated = none) :
    extractRound e = .done e := by
  rw [frame_none_iff, length_accumulated] at h
  simp only [packets] at h
  rw [extractRound]
  by_cases h4 : e.client.recvAccumSize < sizeofPacketHeader
  · rw [if_pos h4]
  · rw [if_neg h4]
    dsimp only
    rw [take_accumulated (by omega), headerSize_take (by rw [length_accumulated]; omega),
      if_pos (by omega)]

theorem extractRound_of_some (h : frame packets e.client.accumulated = some (f, u)) :
    ∃ c, extractRound e = .next ⟨c, e.processed ++ [f]⟩ ∧ c.accumulated = u := by
  obtain ⟨hq, hf, hh⟩ := frame_eq_some h
  simp only [packets] at hf hh
  have hlen : f.length ≤ e.client.recvAccumSize := by
    have h1 := congrArg List.length hq
    rw [length_accumulated, List.length_append] at h1
    omega
  have hsize : headerSize ((List.range sizeofPacketHeader).map e.client.recvAccum) = f.length := by
    rw [length_accumulated] at hh
    rw [take_accumulated hh, headerSize_take (by rw [length_accumulated]; exact hh), hf]
  refine ⟨e.client.dropFront f.length, ?_, ?_⟩
  · rw [length_accumulated] at hh
    rw [extractRound, if_neg (by omega)]
    dsimp only
    rw [hsize, if_neg (by omega), take_accumulated hlen, hq, List.take_left]
  · rw [accumulated_dropFront, hq, List.drop_left]

/-- The loop hands over the packets up to an incomplete rest, and leaves there. -/
theorem returns_rest (hb : Boundary packets e.client.accumulated fs u)
    (hu : frame packets u = none) :
    ∃ c, Returns extractRound e ⟨c, e.processed ++ fs⟩ ∧ c.accumulated = u := by
  induction fs generalizing e with
  | nil =>
      cases hb
      refine ⟨e.client, ?_, rfl⟩
      rw [List.append_nil]
      exact returns_done (extractRound_of_none hu)
  | cons f fs ih =>
      obtain ⟨t, hf, -, ht⟩ := hb.head_frame
      obtain ⟨c, hnext, hc⟩ := extractRound_of_some hf
      rw [← hc] at ht
      obtain ⟨c', hret, hc'⟩ := @ih ⟨c, e.processed ++ [f]⟩ ht
      rw [List.append_assoc, List.singleton_append] at hret
      exact ⟨c', (returns_next hnext).mpr hret, hc'⟩

/-! ## Along the stream -/

/-- **Every completion.** In the middle of a stream of well-formed packets each
completion fits, and the bot hands over exactly the packets still to come. -/
theorem workerThread_of_awaiting (h : Awaiting packets c.accumulated chunks.flatten ps)
    (hps : ∀ p ∈ ps, WellFormed p) (hcut : ∀ bs ∈ chunks, bs.length ≤ maxBuffSize) :
    ∃ rounds c', ∀ fuel, rounds ≤ fuel → workerThread fuel c chunks = some (ps, .waiting c') := by
  induction chunks generalizing c ps with
  | nil =>
      obtain ⟨rfl, -⟩ := h.finished
      exact ⟨0, c, fun fuel _ => rfl⟩
  | cons bs chunks ih =>
      -- less than one packet is left from before
      have hleft := h.length_lt (n := packetBufSize) (by decide) fun p hp => (hps p hp).fits
      have hbs := hcut bs List.mem_cons_self
      have hfits : c.recvAccumSize + bs.length ≤ recvAccumCap := by
        rw [length_accumulated] at hleft
        unfold packetBufSize maxBuffSize recvAccumCap at *
        omega
      rw [List.flatten_cons] at h
      obtain ⟨gs, hs, u, hsplit, hb, hnext⟩ := h.arrive (by decide)
      rw [← accumulated_append] at hb
      obtain ⟨d, ⟨first, hfirst⟩, hd⟩ :=
        returns_rest (e := ⟨c.append bs, []⟩) hb hnext.incomplete
      rw [← hd] at hnext
      obtain ⟨rest, c', hrest⟩ :=
        ih hnext (fun p hp => hps p (hsplit ▸ List.mem_append_right _ hp))
          (fun b hb => hcut b (List.mem_cons_of_mem _ hb))
      -- one bound for the rounds of this completion and of all that follow
      refine ⟨max first rest, c', fun fuel hfuel => ?_⟩
      have hloop := iterate_mono (show first ≤ fuel by omega) hfirst
      rw [workerThread, if_pos hfits, hloop]
      dsimp only
      rw [hrest fuel (by omega), Option.map_some, List.nil_append, hsplit]

/-- **The two client-side framers agree.** However the concatenation of
well-formed packets is cut for `RecvThread`, and however it is cut for a bot, both
hand over the same packets in the same order. Both then wait for more: the ring
was never full, and no completion was too long for `recv_accum`. -/
theorem framers_agree (buffer recvAccum : ℕ → UInt8) (ps cut cut' : List Bytes)
    (hps : ∀ p ∈ ps, WellFormed p) (hstream : cut.flatten = ps.flatten)
    (hcut : CutInto (.init buffer) cut) (hstream' : cut'.flatten = ps.flatten)
    (hcut' : ∀ bs ∈ cut', 1 ≤ bs.length ∧ bs.length ≤ maxBuffSize) :
    ∃ rounds rb c, ∀ fuel, rounds ≤ fuel →
      NetworkClient.recvThread fuel (.init buffer) cut
        = some (ps.map fun p => (p, p.length), .waiting rb) ∧
      workerThread fuel ⟨recvAccum, 0⟩ cut' = some (ps, .waiting c) := by
  have hring := awaiting_all hps hstream
  rw [← RingBuffer.contents_init buffer] at hring
  obtain ⟨rb, hcomp, -⟩ := completes_of_awaiting hring hps hcut
  obtain ⟨first, hfirst⟩ := NetworkClient.recvThread_of_completes hcomp
  have hstart : Awaiting packets (Client.mk recvAccum 0).accumulated cut'.flatten ps :=
    awaiting_all hps hstream'
  obtain ⟨second, c, hsecond⟩ :=
    workerThread_of_awaiting hstart hps fun bs hbs => (hcut' bs hbs).2
  exact ⟨max first second, rb, c, fun fuel hfuel =>
    ⟨hfirst fuel (by omega), hsecond fuel (by omega)⟩⟩

/-- One packet, whole for the client and byte by byte for the bot. -/
theorem framers_agree_bytes :
    ∃ rounds rb c, ∀ fuel, rounds ≤ fuel →
      NetworkClient.recvThread fuel (.init fun _ => 0) [[4, 0, 210, 7]]
        = some ([[4, 0, 210, 7]].map fun p => (p, p.length), .waiting rb) ∧
      workerThread fuel ⟨fun _ => 0, 0⟩ [[4], [0], [210], [7]]
        = some ([[4, 0, 210, 7]], .waiting c) := by
  refine framers_agree (fun _ => 0) (fun _ => 0) [[4, 0, 210, 7]] [[4, 0, 210, 7]]
    [[4], [0], [210], [7]] ?_ rfl ⟨⟨by decide, by decide⟩, fun _ _ => trivial⟩ rfl (by decide)
  intro p hp
  rw [List.mem_singleton.mp hp]
  exact ⟨by decide, by decide, by decide⟩

end Mmorpg.NetworkModule
