/-
From the server's packets to the client's state, through the bytes between them.

The server writes a packet as a struct and the stream is the structs one after
the other. `RecvThread` sees whatever part of it has arrived, in chunks that
end anywhere, and calls `OnPacket` with each struct that is complete. What it
then knows is what the packets say that have arrived in full: those that are
cut off at the end of what has arrived wait in the ring, and those that are
handed over are read as they were written, whatever `packetBuf` holds behind
them.
-/
import SimplestMmorpg.Client.NetworkClient
import SimplestMmorpg.Client.OwnPosition
import SimplestMmorpg.Network.Arrived
import SimplestMmorpg.Server.WireRun

set_option autoImplicit false

namespace Mmorpg

open Framing Loop Transition

namespace NetworkClient

open Session

/-- `OnPacket` on the bytes of `packetBuf`; a type it does not know is ignored. -/
def onPacket (state : GameState) (packetBuf : Bytes) : GameState :=
  (ScPacket.decode packetBuf).elim state state.onPacket

/-- The calls of `OnPacket` one after the other. Behind the packet of a call
`packetBuf` holds what it held before, or what the stack held. -/
def onPackets (beyond : ℕ → Bytes) (state : GameState) : List (Bytes × ℕ) → GameState
  | [] => state
  | call :: calls =>
    onPackets (fun i => beyond (i + 1)) (onPacket state (call.1 ++ beyond 0)) calls

/-- These are the structs of the packets; the unused bytes of a text may be
different ones each time. -/
def Structs (ps : List Bytes) (pkts : List ScPacket) : Prop :=
  List.Forall₂ (fun p pkt => ∃ junk, p = ScPacket.encode junk pkt) ps pkts

variable {ps chunks : List Bytes} {pkts : List ScPacket} {rest : Bytes}

theorem wellFormed_encode (junk : ℕ → UInt8) (pkt : ScPacket) : WellFormed (pkt.encode junk) := by
  have hsize := pkt.headerSize_encode junk []
  rw [List.append_nil] at hsize
  have hrange : sizeofPacketHeader ≤ pkt.type.sizeof ∧ pkt.type.sizeof ≤ packetBufSize := by
    generalize pkt.type = type
    cases type <;> decide
  rw [← pkt.length_encode junk] at hrange
  exact ⟨hsize.trans (pkt.length_encode junk).symm, hrange.1, hrange.2⟩

theorem Structs.wellFormed (h : Structs ps pkts) : ∀ p ∈ ps, WellFormed p := by
  induction h with
  | nil => exact fun p hp => absurd hp List.not_mem_nil
  | cons hp _ ih =>
      obtain ⟨junk, rfl⟩ := hp
      exact List.forall_mem_cons.mpr ⟨wellFormed_encode junk _, ih⟩

/-- **The calls say what the packets say.** -/
theorem onPackets_of_structs (h : Structs ps pkts) (hfits : ∀ pkt ∈ pkts, pkt.Fits)
    (beyond : ℕ → Bytes) (state : GameState) :
    onPackets beyond state (ps.map fun p => (p, p.length)) = pkts.foldl GameState.onPacket state := by
  induction h generalizing beyond state with
  | nil => rfl
  | cons hp _ ih =>
      obtain ⟨junk, rfl⟩ := hp
      obtain ⟨hpkt, hpkts⟩ := List.forall_mem_cons.mp hfits
      rw [List.map_cons, onPackets, onPacket, ScPacket.decode_encode hpkt, ih hpkts]
      rfl

/-- The structs of these packets, with the same unused bytes in all. -/
theorem structs_encode (junk : ℕ → UInt8) (pkts : List ScPacket) :
    Structs (pkts.map (ScPacket.encode junk)) pkts := by
  induction pkts with
  | nil => exact .nil
  | cons pkt pkts ih => exact .cons ⟨junk, rfl⟩ ih

/-- Whatever the client has received of a stream of structs, its thread goes on,
and its state is that of the packets that have arrived in full. -/
theorem state_of_arrived (hstructs : Structs ps pkts) (hfits : ∀ pkt ∈ pkts, pkt.Fits)
    (buffer : ℕ → UInt8) (hstream : chunks.flatten ++ rest = ps.flatten)
    (hcut : CutInto (.init buffer) chunks) (beyond : ℕ → Bytes) :
    ∃ n calls rb rounds,
      (∀ fuel, rounds ≤ fuel → recvThread fuel (.init buffer) chunks = some (calls, .waiting rb)) ∧
      onPackets beyond .init calls = GameState.after (pkts.take n) ∧
      (ps.take n).flatten <+: chunks.flatten ∧
      (n < ps.length → ¬ (ps.take (n + 1)).flatten <+: chunks.flatten) ∧
      (rest = [] → n = ps.length) := by
  obtain ⟨n, rb, hcomp, hpre, hmax, hall⟩ := arrived hstructs.wellFormed buffer hstream hcut
  obtain ⟨rounds, hrounds⟩ := recvThread_of_completes hcomp
  refine ⟨n, _, rb, rounds, hrounds, ?_, hpre, hmax, hall⟩
  have htake : Structs (ps.take n) (pkts.take n) := List.forall₂_take n hstructs
  exact onPackets_of_structs htake (fun pkt hpkt => hfits pkt (List.mem_of_mem_take hpkt)) beyond _

end NetworkClient

namespace Server

open NetworkClient World

/-- **The client is never confused by the wire.** In every run, on every
connection and for every way in which the bytes arrive, the client's thread goes
on receiving, and its state is exactly what the packets say that have arrived in
full; when all bytes have arrived it is what the server's packets say. -/
theorem client_of_bytes_run {map : Map} {spawns : List MonsterSpawnData} {now : ℕ}
    {store : PlayerStore} {es : List Event} (hstart : FitsAtStart spawns store)
    (henv : ∀ e ∈ es, e.Fits) (conn : ConnId)
    {ps chunks : List Bytes} {rest : Bytes} (buffer : ℕ → UInt8) (beyond : ℕ → Bytes)
    (hstructs : Structs ps (onConn conn (run step (init map spawns now store) es).game.world.sent))
    (hstream : chunks.flatten ++ rest = ps.flatten)
    (hcut : Session.CutInto (.init buffer) chunks) :
    ∃ n calls rb rounds,
      (∀ fuel, rounds ≤ fuel → recvThread fuel (.init buffer) chunks = some (calls, .waiting rb)) ∧
      onPackets beyond .init calls = GameState.after
        ((onConn conn (run step (init map spawns now store) es).game.world.sent).take n) ∧
      (ps.take n).flatten <+: chunks.flatten ∧
      (n < ps.length → ¬ (ps.take (n + 1)).flatten <+: chunks.flatten) ∧
      (rest = [] → onPackets beyond .init calls =
        (run step (init map spawns now store) es).game.world.client conn) := by
  have hfits : ∀ pkt ∈ onConn conn (run step (init map spawns now store) es).game.world.sent,
      pkt.Fits := fun pkt hpkt => fits_sent_run hstart henv _ (mem_onConn.mp hpkt)
  obtain ⟨n, calls, rb, rounds, hrecv, hstate, hpre, hmax, hall⟩ :=
    state_of_arrived hstructs hfits buffer hstream hcut beyond
  refine ⟨n, calls, rb, rounds, hrecv, hstate, hpre, hmax, fun hrest => ?_⟩
  have hlen := List.Forall₂.length_eq hstructs
  rw [hstate, hall hrest, hlen, List.take_length]
  rfl

/-- What the second of two players was sent. -/
def sentToSecond : List ScPacket :=
  onConn 1 (run step (init openField [pest] 0 .init) bitten).game.world.sent

/-- The bytes of it. -/
def streamToSecond : Bytes := (sentToSecond.map (ScPacket.encode fun _ => 0)).flatten

/-- Four packets in two chunks; the first ends inside the second packet. -/
theorem client_of_bytes_run_bitten :
    sentToSecond.map (fun pkt => (pkt.encode fun _ => 0).length) = [26, 55, 55, 12] ∧
      ∃ calls rb rounds,
        (∀ fuel, rounds ≤ fuel → recvThread fuel (.init fun _ => 0)
          [streamToSecond.take 50, streamToSecond.drop 50] = some (calls, .waiting rb)) ∧
        onPackets (fun _ => []) .init calls =
          (run step (init openField [pest] 0 .init) bitten).game.world.client 1 := by
  have hstart : FitsAtStart [pest] .init :=
    ⟨by decide, by simp [pest, Packed.Signed], fun e he => absurd he List.not_mem_nil⟩
  have henv : ∀ e ∈ bitten, e.Fits := by
    simp only [bitten, oneLogin, List.cons_append, List.nil_append, List.forall_mem_cons,
      List.not_mem_nil, false_imp_iff, implies_true, Event.Fits, Event.env?, Option.some.injEq,
      forall_eq', reduceCtorEq, and_true, true_and]
    exact ⟨fits_origin, fits_origin, fits_origin, fits_origin, fits_origin, fits_origin⟩
  have hcut : Session.CutInto (.init fun _ => 0) [streamToSecond.take 50, streamToSecond.drop 50] :=
    Session.cutInto_two ⟨by decide +kernel, by decide +kernel⟩ (by decide +kernel) 9
      (by decide +kernel)
  have hstream : [streamToSecond.take 50, streamToSecond.drop 50].flatten ++ [] =
      (sentToSecond.map (ScPacket.encode fun _ => 0)).flatten := by
    simp [streamToSecond]
  obtain ⟨n, calls, rb, rounds, hrecv, -, -, -, hall⟩ := client_of_bytes_run
    hstart henv 1 (fun _ => 0) (fun _ => []) (structs_encode _ _) hstream hcut
  exact ⟨by decide +kernel, calls, rb, rounds, hrecv, hall rfl⟩

end Server

end Mmorpg
