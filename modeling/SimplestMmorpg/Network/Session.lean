/-
`Server/Network/Session`, the receive side: `OnRecvComplete` and the size of
the next `PostRecv`.

## What a call is

A completion delivers a chunk the kernel stored at `GetWritePtr()`; the call
announces it to the ring and runs the extraction loop. One round of the loop
is `extractRound`. It leaves when fewer than four bytes are unread or when the
packet the header announces is not complete; otherwise it copies the packet
to `packetBuf`, pops it and hands it to `HandlePacket`. The packets handed
over are collected in `handled`.

`packetBuf` has 512 bytes. A `Peek` that is asked for more writes past it,
which is undefined behaviour: that round ends the call with `overflow` and
nothing is said about what happens afterwards.

## What decides how a call ends

`extractRound` only looks at the unread bytes, so a call is governed by the
stream the client has sent so far and not by how it was cut. `Received` is a
history of completed calls, and `Received.boundary` ties the ring to the
stream: what is unread is what a boundary of the stream leaves.
-/
import SimplestMmorpg.Common.Protocol
import SimplestMmorpg.Lib.Framing
import SimplestMmorpg.Lib.Loop
import SimplestMmorpg.Network.RingBuffer

set_option autoImplicit false

namespace Mmorpg.Session

open Framing Loop

/-- `sizeof packetBuf`. -/
abbrev packetBufSize : ℕ := 512

/-- The state of the extraction loop. -/
structure Extract where
  recvBuffer : RingBuffer
  handled : List Bytes

/-- How the extraction loop ends: at one of its two exits, or in a `Peek` that
is asked for more than `packetBuf` holds. -/
inductive Left where
  | exit (st : Extract)
  | overflow (size : ℕ)

/-- The size a round asks `Peek` to copy to `packetBuf`; `none` when the round
leaves the loop at one of its two tests. -/
def asked (st : Extract) : Option ℕ :=
  if st.recvBuffer.getUsedSize < sizeofPacketHeader then none
  else
    -- the result of `Peek` is not checked by the source
    let header := (st.recvBuffer.peek sizeofPacketHeader).getD []
    if st.recvBuffer.getUsedSize < headerSize header then none
    else some (headerSize header)

/-- One round of the loop in `OnRecvComplete`. -/
def extractRound (st : Extract) : Round Extract Left :=
  match asked st with
  | none => .done (.exit st)
  | some size =>
    if packetBufSize < size then .done (.overflow size)
    else
      -- nor are those of this `Peek` and of `Pop`
      let packetBuf := (st.recvBuffer.peek size).getD []
      .next ⟨(st.recvBuffer.pop size).getD st.recvBuffer, st.handled ++ [packetBuf]⟩

/-- The loop state a completion with the bytes `bs` enters the loop with. -/
def entered (rb : RingBuffer) (bs : Bytes) : Extract :=
  ⟨(rb.write bs).onWrite bs.length, []⟩

/-- `OnRecvComplete`, with a bound on the rounds of its loop. -/
def onRecvComplete (fuel : ℕ) (rb : RingBuffer) (bs : Bytes) : Option Left :=
  iterate extractRound fuel (entered rb bs)

/-- A chunk the kernel can deliver into the buffer `PostRecv` offered. -/
def Offered (rb : RingBuffer) (bs : Bytes) : Prop :=
  bs ≠ [] ∧ bs.length ≤ rb.getContiguousWriteSize

/-- The chunks of the completions so far, and the ring their calls left. -/
inductive Received : List Bytes → RingBuffer → Prop where
  | start (buffer : ℕ → UInt8) : Received [] (.init buffer)
  | recv {chunks : List Bytes} {rb : RingBuffer} {bs : Bytes} {st : Extract} :
      Received chunks rb → Offered rb bs → Returns extractRound (entered rb bs) (.exit st) →
      Received (chunks ++ [bs]) st.recvBuffer

/-! ## The framing of the stream -/

/-- Packets announce their size in the header. -/
def packets : Format UInt8 where
  header := sizeofPacketHeader
  size := headerSize
  size_append := headerSize_append

variable {st st' : Extract} {f u v : Bytes} {fs : List Bytes}

theorem headerSize_take {q : Bytes} (h : sizeofPacketHeader ≤ q.length) :
    headerSize (q.take sizeofPacketHeader) = headerSize q := by
  conv_rhs => rw [← List.take_append_drop sizeofPacketHeader q]
  rw [headerSize_append]
  rw [List.length_take]
  omega

/-- The header a round reads is the header of the unread bytes. -/
theorem peek_header (rb : RingBuffer) (h : sizeofPacketHeader ≤ rb.contents.length) :
    headerSize ((rb.peek sizeofPacketHeader).getD []) = headerSize rb.contents := by
  rw [rb.peek_eq h, Option.getD_some, headerSize_take h]

theorem asked_of_none (h : frame packets st.recvBuffer.contents = none) : asked st = none := by
  rw [frame_none_iff] at h
  simp only [packets, RingBuffer.length_contents] at h
  unfold asked
  by_cases h4 : st.recvBuffer.getUsedSize < sizeofPacketHeader
  · rw [if_pos h4]
  · rw [if_neg h4]
    dsimp only
    rw [peek_header _ (by rw [RingBuffer.length_contents]; omega), if_pos (by omega)]

theorem asked_of_some (h : frame packets st.recvBuffer.contents = some (f, u)) :
    asked st = some f.length := by
  obtain ⟨hq, hf, hh⟩ := frame_eq_some h
  simp only [packets] at hf hh
  have hfq : f.length ≤ st.recvBuffer.contents.length := by
    rw [hq, List.length_append]; omega
  rw [RingBuffer.length_contents] at hfq
  unfold asked
  rw [if_neg (by rw [← RingBuffer.length_contents]; omega)]
  dsimp only
  rw [peek_header _ hh, ← hf, if_neg (by omega)]

theorem extractRound_of_none (h : frame packets st.recvBuffer.contents = none) :
    extractRound st = .done (.exit st) := by
  rw [extractRound, asked_of_none h]

/-- A complete packet: it is copied out and popped when it fits. -/
theorem extractRound_of_some (h : frame packets st.recvBuffer.contents = some (f, u)) :
    (packetBufSize < f.length → extractRound st = .done (.overflow f.length)) ∧
    (f.length ≤ packetBufSize → ∃ rb, extractRound st = .next ⟨rb, st.handled ++ [f]⟩ ∧
      rb.contents = u) := by
  have hq := (frame_eq_some h).1
  have hfq : f.length ≤ st.recvBuffer.contents.length := by
    rw [hq, List.length_append]; omega
  rw [extractRound, asked_of_some h]
  dsimp only
  refine ⟨fun hbig => by rw [if_pos hbig], fun hfits => ?_⟩
  obtain ⟨rb, hpop, hrb⟩ := st.recvBuffer.contents_pop hfq
  refine ⟨rb, ?_, ?_⟩
  · rw [if_neg (by omega), st.recvBuffer.peek_eq hfq, hpop, Option.getD_some, Option.getD_some,
      hq, List.take_left]
  · rw [hrb, hq, List.drop_left]

/-! ## How the loop ends -/

/-- An incomplete rest: the loop reaches it and leaves there. -/
theorem returns_exit (hb : Boundary packets st.recvBuffer.contents fs u)
    (hfs : ∀ f ∈ fs, f.length ≤ packetBufSize) (hu : frame packets u = none) :
    ∃ rb, Returns extractRound st (.exit ⟨rb, st.handled ++ fs⟩) ∧ rb.contents = u := by
  induction fs generalizing st with
  | nil =>
      cases hb
      refine ⟨st.recvBuffer, ?_, rfl⟩
      rw [List.append_nil]
      exact returns_done (extractRound_of_none hu)
  | cons f fs ih =>
      obtain ⟨t, hf, -, ht⟩ := hb.head_frame
      obtain ⟨rb, hnext, hrb⟩ := (extractRound_of_some hf).2 (hfs f (by simp))
      rw [← hrb] at ht
      obtain ⟨rb', hret, hrb'⟩ := @ih ⟨rb, st.handled ++ [f]⟩ ht
        (fun g hg => hfs g (List.mem_cons_of_mem _ hg))
      rw [List.append_assoc, List.singleton_append] at hret
      exact ⟨rb', (returns_next hnext).mpr hret, hrb'⟩

/-- A complete packet that does not fit: the loop reaches it and overflows. -/
theorem returns_overflow (hb : Boundary packets st.recvBuffer.contents fs u)
    (hfs : ∀ f ∈ fs, f.length ≤ packetBufSize) (hu : frame packets u = some (f, v))
    (hbig : packetBufSize < f.length) : Returns extractRound st (.overflow f.length) := by
  induction fs generalizing st with
  | nil =>
      cases hb
      exact returns_done ((extractRound_of_some hu).1 hbig)
  | cons g fs ih =>
      obtain ⟨t, hg, -, ht⟩ := hb.head_frame
      obtain ⟨rb, hnext, hrb⟩ := (extractRound_of_some hg).2 (hfs g (by simp))
      rw [← hrb] at ht
      exact (returns_next hnext).mpr
        (@ih ⟨rb, st.handled ++ [g]⟩ ht fun k hk => hfs k (List.mem_cons_of_mem _ hk))

/-- A header of size 0: the loop reaches it and never leaves. -/
theorem diverges_of_zero (hb : Boundary packets st.recvBuffer.contents fs u)
    (hfs : ∀ f ∈ fs, f.length ≤ packetBufSize) (hu : frame packets u = some ([], v)) :
    Diverges extractRound st := by
  induction fs generalizing st with
  | nil =>
      cases hb
      -- popping nothing leaves the same unread bytes
      refine diverges_of_invariant
        (I := fun s => frame packets s.recvBuffer.contents = some ([], v)) ?_ hu
      intro s hs
      obtain ⟨rb, hnext, hrb⟩ := (extractRound_of_some hs).2 (by simp)
      refine ⟨_, hnext, ?_⟩
      have hv := (frame_eq_some hs).1
      rw [List.nil_append] at hv
      dsimp only
      rw [hrb, ← hs, hv]
  | cons g fs ih =>
      obtain ⟨t, hg, -, ht⟩ := hb.head_frame
      obtain ⟨rb, hnext, hrb⟩ := (extractRound_of_some hg).2 (hfs g (by simp))
      rw [← hrb] at ht
      have hdiv := @ih ⟨rb, st.handled ++ [g]⟩ ht
        fun k hk => hfs k (List.mem_cons_of_mem _ hk)
      intro fuel
      cases fuel with
      | zero => rfl
      | succ n =>
          simp only [iterate, hnext]
          exact hdiv n

/-- Walking along the stream, the first packet that does not fit comes at some
boundary, or all packets fit up to the last boundary. -/
theorem fits_or_overflows (q : Bytes) :
    (∃ fs u f v, Boundary packets q fs u ∧ (∀ g ∈ fs, g.length ≤ packetBufSize) ∧
      frame packets u = some (f, v) ∧ packetBufSize < f.length) ∨
    ∃ fs u, Boundary packets q fs u ∧ (∀ g ∈ fs, g.length ≤ packetBufSize) ∧
      (frame packets u = none ∨ ∃ v, frame packets u = some ([], v)) := by
  obtain ⟨fs, u, hb, hu⟩ := exists_last packets q
  induction fs generalizing q with
  | nil => exact .inr ⟨[], u, hb, by simp, hu⟩
  | cons f fs ih =>
      obtain ⟨t, hf, hne, ht⟩ := hb.head_frame
      by_cases hbig : packetBufSize < f.length
      · exact .inl ⟨[], q, f, t, .start q, by simp, hf, hbig⟩
      · have hfit : f.length ≤ packetBufSize := by omega
        rcases ih t ht with ⟨gs, w, g, v, hgs, hall, hg, hgb⟩ | ⟨gs, w, hgs, hall, hw⟩
        · exact .inl ⟨f :: gs, w, g, v, .cut hf hne hgs, by simpa [hfit] using hall, hg, hgb⟩
        · exact .inr ⟨f :: gs, w, .cut hf hne hgs, by simpa [hfit] using hall, hw⟩

/-- What a call that leaves at an exit has done. -/
theorem exit_boundary (h : Returns extractRound st (.exit st')) :
    ∃ fs, Boundary packets st.recvBuffer.contents fs st'.recvBuffer.contents ∧
      (∀ f ∈ fs, f.length ≤ packetBufSize) ∧ frame packets st'.recvBuffer.contents = none ∧
      st'.handled = st.handled ++ fs := by
  rcases fits_or_overflows st.recvBuffer.contents with
    ⟨fs, u, f, v, hb, hall, hf, hbig⟩ | ⟨fs, u, hb, hall, hu⟩
  · exact absurd (h.unique (returns_overflow hb hall hf hbig)) (by simp)
  · rcases hu with hu | ⟨v, hu⟩
    · obtain ⟨rb, hret, hrb⟩ := returns_exit hb hall hu
      have heq := h.unique hret
      simp only [Left.exit.injEq] at heq
      subst heq
      dsimp only
      rw [hrb]
      exact ⟨fs, hb, hall, hu, rfl⟩
    · exact absurd h (diverges_of_zero hb hall hu).not_returns

/-! ## Histories -/

/-- **The ring holds what a boundary of the stream leaves.** Everything before
that boundary was cut off as packets that fit, and the rest is incomplete. -/
theorem Received.boundary {chunks : List Bytes} {rb : RingBuffer} (h : Received chunks rb) :
    ∃ fs, Boundary packets chunks.flatten fs rb.contents ∧
      (∀ f ∈ fs, f.length ≤ packetBufSize) ∧ frame packets rb.contents = none := by
  induction h with
  | start buffer =>
      rw [RingBuffer.contents_init]
      exact ⟨[], .start _, by simp, by rw [frame_none_iff]; simp [packets]⟩
  | @recv chunks rb bs st _ hoff hret ih =>
      obtain ⟨fs, hb, hall, -⟩ := ih
      obtain ⟨gs, hgs, hgall, hnone, -⟩ := exit_boundary hret
      have hq : (entered rb bs).recvBuffer.contents = rb.contents ++ bs :=
        rb.contents_received hoff.2
      rw [hq] at hgs
      refine ⟨fs ++ gs, ?_, ?_, hnone⟩
      · rw [List.flatten_append, List.flatten_singleton]
        exact (hb.append bs).trans hgs
      · intro f hf
        rcases List.mem_append.mp hf with h1 | h1
        · exact hall f h1
        · exact hgall f h1

end Mmorpg.Session
