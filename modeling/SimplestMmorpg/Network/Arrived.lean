/-
What has been handed over when only part of a stream has arrived.

`framing_undoes_concatenation` is about a stream that has arrived to its end.
Before that, the calls have handed over the packets that have arrived in full
and no other (`arrived`): what is left over waits in the ring, and is less than
the next packet.
-/
import SimplestMmorpg.Network.Reassembly

set_option autoImplicit false

namespace Mmorpg.Session

open Framing Loop

variable {rb : RingBuffer} {t : Bytes} {ps chunks : List Bytes}

/-- **What has arrived.** From a ring in the middle of the stream the calls hand
over the packets that have arrived in full, and the ring goes on waiting for the
others. -/
theorem completes_of_arrived (h : Awaiting packets rb.contents (chunks.flatten ++ t) ps)
    (hps : ∀ p ∈ ps, WellFormed p) (hcut : CutInto rb chunks) :
    ∃ gs hs rb', ps = gs ++ hs ∧ Completes rb chunks (gs.map fun p => (p, p.length)) rb' ∧
      Awaiting packets rb'.contents t hs := by
  induction chunks generalizing rb ps with
  | nil => exact ⟨[], ps, rb, rfl, .nil (room_of_awaiting h hps), h⟩
  | cons bs chunks ih =>
      have hroom := room_of_awaiting h hps
      rw [List.flatten_cons, List.append_assoc] at h
      obtain ⟨st, hs, hret, hsplit, hnext⟩ := recv_of_awaiting h hps hcut.1
      obtain ⟨gs, hs', rb', hsplit', hrest, hwait⟩ :=
        ih hnext (fun p hp => hps p (hsplit ▸ List.mem_append_right _ hp)) (hcut.2 st hret)
      have hcalls : handlePacketCalls st = st.handled.map fun p => (p, p.length) :=
        handlePacketCalls_eq fun p hp => hps p (hsplit ▸ List.mem_append_left _ hp)
      refine ⟨st.handled ++ gs, hs', rb', ?_, ?_, hwait⟩
      · rw [hsplit, hsplit', List.append_assoc]
      · rw [List.map_append, ← hcalls]
        exact .cons hroom hret hrest

/-- The packets that are left over have not arrived in full. -/
theorem not_prefix_of_awaiting {s : Bytes} {gs hs : List Bytes} {p : Bytes}
    (h : Awaiting packets rb.contents t (p :: hs)) (hstream : s ++ t = (gs ++ p :: hs).flatten) :
    ¬ (gs ++ [p]).flatten <+: s := by
  rintro ⟨v, hv⟩
  have hs : s = gs.flatten ++ rb.contents := by
    rw [List.flatten_append, ← h.stream, ← List.append_assoc] at hstream
    exact List.append_cancel_right hstream
  rw [List.flatten_append, List.flatten_singleton, hs, List.append_assoc] at hv
  -- the ring would hold the whole packet
  have hcontents := List.append_cancel_left hv
  have hcut := (h.whole p List.mem_cons_self).frame_append v
  rw [hcontents, h.incomplete] at hcut
  exact absurd hcut (by simp)

/-- **What has arrived is handed over.** Of a stream of packets of which the
chunks have arrived, the calls hand over the first `n`: these have arrived in
full and the next has not. -/
theorem arrived {rest : Bytes} (hps : ∀ p ∈ ps, WellFormed p) (buffer : ℕ → UInt8)
    (hstream : chunks.flatten ++ rest = ps.flatten) (hcut : CutInto (.init buffer) chunks) :
    ∃ n rb, Completes (.init buffer) chunks ((ps.take n).map fun p => (p, p.length)) rb ∧
      (ps.take n).flatten <+: chunks.flatten ∧
      (n < ps.length → ¬ (ps.take (n + 1)).flatten <+: chunks.flatten) ∧
      (rest = [] → n = ps.length) := by
  have hstart := awaiting_all hps hstream
  rw [← RingBuffer.contents_init buffer] at hstart
  obtain ⟨gs, hs, rb, rfl, hcomp, hwait⟩ := completes_of_arrived hstart hps hcut
  have htake : (gs ++ hs).take gs.length = gs := List.take_left
  refine ⟨gs.length, rb, ?_, ?_, ?_, ?_⟩
  · rw [htake]
    exact hcomp
  · rw [htake]
    have hall : gs.flatten ++ (rb.contents ++ rest) = chunks.flatten ++ rest := by
      rw [hwait.stream, hstream, List.flatten_append]
    rw [← List.append_assoc] at hall
    exact ⟨rb.contents, List.append_cancel_right hall⟩
  · intro hlt
    cases hs with
    | nil => exact absurd hlt (by simp)
    | cons p hs =>
        have hnext : (gs ++ p :: hs).take (gs.length + 1) = gs ++ [p] := by
          rw [List.take_length_add_append]
          rfl
        rw [hnext]
        exact not_prefix_of_awaiting hwait hstream
  · rintro rfl
    rw [(hwait.finished).1, List.append_nil]

end Mmorpg.Session
