/-
`Client/NetworkClient`: `RecvThread`.

The client's `RingBuffer` is the server's, file for file, and the extraction
loop of `RecvThread` is that of `Session::OnRecvComplete` with `OnPacket` in the
place of `HandlePacket`. What differs is the loop around it. Nothing is posted:
`RecvThread` asks the ring how much it can take before each `recv`, and leaves
for good when that is nothing.

The bytes that each `recv` returns are the input. Where they end the thread
waits in the next `recv`.
-/
import SimplestMmorpg.Network.Reassembly

set_option autoImplicit false

namespace Mmorpg.NetworkClient

open Loop Session

/-- One round of the extraction loop in `RecvThread`. -/
abbrev extractRound : Extract → Round Extract Left := Session.extractRound

/-- The arguments of the `OnPacket` calls of the loop. -/
abbrev onPacketCalls : Extract → List (Bytes × ℕ) := handlePacketCalls

/-- Where `RecvThread` is after the last bytes. -/
inductive RecvEnd where
  | waiting (recvBuffer : RingBuffer)
  | bufferFull
  | overflow (size : ℕ)

/-- `NetworkClient::RecvThread` on the results of its `recv` calls, with a bound
on the rounds of each extraction loop. -/
def recvThread (fuel : ℕ) : RingBuffer → List Bytes → Option (List (Bytes × ℕ) × RecvEnd)
  | rb, [] =>
    if rb.getContiguousWriteSize = 0 then some ([], .bufferFull) else some ([], .waiting rb)
  | rb, bs :: chunks =>
    if rb.getContiguousWriteSize = 0 then some ([], .bufferFull)
    else
      match iterate extractRound fuel (entered rb bs) with
      | none => none
      | some (.overflow size) => some ([], .overflow size)
      | some (.exit st) =>
        (recvThread fuel st.recvBuffer chunks).map fun r => (onPacketCalls st ++ r.1, r.2)

/-- Completions that all leave their loop with room are received by `RecvThread`
the same way. -/
theorem recvThread_of_completes {rb rb' : RingBuffer} {chunks : List Bytes}
    {calls : List (Bytes × ℕ)} (h : Completes rb chunks calls rb') :
    ∃ rounds, ∀ fuel, rounds ≤ fuel → recvThread fuel rb chunks = some (calls, .waiting rb') := by
  induction h with
  | nil hroom =>
      refine ⟨0, fun fuel _ => ?_⟩
      rw [recvThread, if_neg (by omega)]
  | cons hroom hret _ ih =>
      obtain ⟨first, hfirst⟩ := hret
      obtain ⟨rest, hrest⟩ := ih
      refine ⟨max first rest, fun fuel hfuel => ?_⟩
      have hloop := iterate_mono (show first ≤ fuel by omega) hfirst
      rw [recvThread, if_neg (by omega), hloop]
      dsimp only
      rw [hrest fuel (by omega), Option.map_some]

end Mmorpg.NetworkClient
