/-
Requests arrive as they were sent.

`Server.request` says what a request means, in terms of its values. The bytes of
a struct, with whatever `packetBuf` holds behind them, make `HandlePacket` do
just that (`handlePacket_encode`), and a stream of structs makes
`OnRecvComplete` call `HandlePacket` with the structs that have arrived in full,
however the stream was cut on its way.

The calls of one session are spread over a run: between two of them the server
handles other completions. `InPlaceOf` is the run in which each call is replaced
by the request it carries, and nothing else is changed.
-/
import SimplestMmorpg.Common.WireRequests
import SimplestMmorpg.Network.Arrived
import SimplestMmorpg.Lib.Transition
import SimplestMmorpg.Server.Server
import Mathlib.Data.List.Forall2

set_option autoImplicit false

namespace Mmorpg

open Transition Session

namespace World

variable (env : Env)

/-- A step of the player in a direction, at a time of its client. -/
def requestMove (id : ObjectID) (session : ConnId) (direction moveTime : ℕ) (w : World) : World :=
  match w.getPlayer id with
  | none => w
  | some player =>
    if ¬ player.canMove w.now then w
    else
      let new := env.towards player.pos direction
      if ¬ w.map.isWalkable new.x new.y then w
      else
        match w.sectorManager.tryMoveObject id player.pos new with
        | none => w
        | some sectorManager => w.moveTo env session player new moveTime sectorManager

/-- A line of the player on a channel. -/
def requestChat (id : ObjectID) (channel : ℕ) (message : Bytes) (w : World) : World :=
  match w.getPlayer id with
  | none => w
  | some sender =>
    if ¬ sender.canChat w.now then w
    else
      let sender := sender.onChatPerformed w.now
      let w := w.setPlayer sender
      if message = [] then w
      else
        let pkt : ScPacket := .chat id channel (strncpyTruncate 32 sender.name) message
        if channel = 1 then
          w.sendAll ((env.iter (w.players.entries.map (·.id))).filterMap fun id =>
            (w.getPlayer id).map fun player => (player.session, pkt))
        else w.broadcast env sender.pos pkt

variable {env}

theorem processMove_of_read {id : ObjectID} {session : ConnId} {data : Bytes}
    {direction moveTime : ℕ} (h : byteAt data 4 = direction ∧ readLE data 5 8 = moveTime)
    (w : World) :
    w.processMove env id session data = w.requestMove env id session direction moveTime := by
  obtain ⟨rfl, rfl⟩ := h
  rfl

theorem processChat_of_read {id : ObjectID} {data : Bytes} {channel : ℕ} {message : Bytes}
    (h : byteAt data 4 = channel ∧ strncpyTruncate 128 ((data.drop 5).take 128) = message)
    (w : World) : w.processChat env id data = w.requestChat env id channel message := by
  obtain ⟨rfl, rfl⟩ := h
  rfl

end World

namespace Server

/-- What a request asks of the server. -/
def request (env : Env) (id : ObjectID) (conn : ConnId) (s : Server) : CsPacket → Server
  | .login name => { s with loginQueue := s.loginQueue ++ [⟨id, name, conn⟩] }
  | .move direction moveTime => s.onWorld (·.requestMove env id conn direction moveTime)
  | .attack => s.onWorld (·.processAttack env id)
  | .chat channel message => s.onWorld (·.requestChat env id channel message)
  | .teleport => s.onWorld (·.processTeleport env id conn)

variable {s : Server} {id : ObjectID} {junk : ℕ → UInt8} {req : CsPacket}

/-- `HandlePacket` knows a request by the size and the type in its header. -/
theorem requestOf_encode (junk : ℕ → UInt8) (req : CsPacket) (beyond : Bytes) :
    requestOf (req.encode junk ++ beyond) req.type.sizeof = some req.type := by
  obtain ⟨hsize, htype⟩ := @CsPacket.header_encode junk req beyond
  unfold requestOf
  rw [hsize, htype]
  generalize req.type = type
  cases type <;> rfl

/-- **A struct means its values**, whatever follows it in `packetBuf`. -/
theorem handlePacket_encode (h : req.Fits) (env : Env) (id : ObjectID) (conn : ConnId)
    (s : Server) (junk : ℕ → UInt8) (beyond : Bytes) :
    s.handlePacket env id conn (req.encode junk ++ beyond) req.type.sizeof =
      s.request env id conn req := by
  unfold handlePacket
  rw [requestOf_encode]
  cases req with
  | login name =>
      simp only [CsPacket.type, processLogin, request]
      rw [CsPacket.read_login h]
  | move direction moveTime =>
      obtain ⟨hdirection, htime⟩ := h
      simp only [CsPacket.type, request]
      congr 1
      funext w
      exact World.processMove_of_read (CsPacket.read_move hdirection htime junk beyond) w
  | attack => rfl
  | chat channel message =>
      obtain ⟨hchannel, hmessage⟩ := h
      simp only [CsPacket.type, request]
      congr 1
      funext w
      exact World.processChat_of_read (CsPacket.read_chat hchannel hmessage junk beyond) w
  | teleport => rfl

/-! ## The calls of one session -/

/-- These are the structs of the requests; the unused bytes of a text may be
different ones each time. -/
def Requests (ps : List Bytes) (reqs : List CsPacket) : Prop :=
  List.Forall₂ (fun p req => ∃ junk, p = CsPacket.encode junk req) ps reqs

/-- What `HandlePacket` is called with for a packet: `packetBuf`, of which the
packet is the beginning, and the size of the packet. -/
def Buffered (packet call : Bytes × ℕ) : Prop := packet.1 <+: call.1 ∧ call.2 = packet.2

/-- The call that an event is, when it is one of the session. -/
def Event.call? (id : ObjectID) : Event → Option (Bytes × ℕ)
  | .packet k data size _ => if k = id then some (data, size) else none
  | _ => none

/-- The calls of the session in a run. -/
def callsOf (id : ObjectID) (es : List Event) : List (Bytes × ℕ) := es.filterMap (Event.call? id)

/-- A step of the server in which requests of the session have values. -/
inductive Asked where
  | event (e : Event)
  | request (env : Env) (req : CsPacket)

/-- The request that a step is. -/
def Asked.req? : Asked → Option CsPacket
  | .event _ => none
  | .request _ req => some req

/-- A request does what it asks, while its session is open. -/
def ask (id : ObjectID) (s : Server) : Asked → Server
  | .event e => s.step e
  | .request env req =>
    match s.sessions id with
    | none => s
    | some conn => s.request env id conn req

/-- The event is kept, or it is a call of the session and the request takes its
place. -/
inductive InPlaceOf (id : ObjectID) : Event → Asked → Prop where
  | event (e : Event) : e.call? id = none → InPlaceOf id e (.event e)
  | request (data : Bytes) (size : ℕ) (env : Env) (req : CsPacket) :
      InPlaceOf id (.packet id data size env) (.request env req)

/-- A call is an event of the session. -/
theorem Event.eq_packet_of_call {e : Event} {call : Bytes × ℕ} (h : e.call? id = some call) :
    ∃ env, e = .packet id call.1 call.2 env := by
  cases e with
  | packet k data size env =>
      simp only [Event.call?, Option.ite_none_right_eq_some, Option.some.injEq] at h
      obtain ⟨rfl, rfl⟩ := h
      exact ⟨env, rfl⟩
  | _ => exact absurd h (by simp [Event.call?])

/-- The call for a struct does what its request asks. -/
theorem step_of_buffered (id : ObjectID) {packet call : Bytes × ℕ} (hbuf : Buffered packet call)
    (hpacket : packet = (req.encode junk, (req.encode junk).length)) (hfits : req.Fits) (env : Env)
    (s : Server) : s.step (.packet id call.1 call.2 env) = s.ask id (.request env req) := by
  obtain ⟨⟨beyond, hdata⟩, hsize⟩ := hbuf
  rw [hpacket] at hdata hsize
  rw [req.length_encode junk] at hsize
  dsimp only [step, ask]
  rw [← hdata, hsize]
  cases s.sessions id with
  | none => rfl
  | some conn => exact handlePacket_encode hfits env id conn s junk beyond

/-- **A run means the requests that it carries.** -/
theorem run_of_requests {ps : List Bytes} {reqs : List CsPacket} {es : List Event}
    (hreqs : Requests ps reqs) (hfits : ∀ req ∈ reqs, req.Fits)
    (hcalls : List.Forall₂ Buffered (ps.map fun p => (p, p.length)) (callsOf id es)) (s : Server) :
    ∃ qs, List.Forall₂ (InPlaceOf id) es qs ∧ qs.filterMap Asked.req? = reqs ∧
      run step s es = run (ask id) s qs := by
  induction es generalizing s ps reqs with
  | nil =>
      have hps : ps = [] := List.map_eq_nil_iff.mp (List.forall₂_nil_right_iff.mp hcalls)
      rw [hps] at hreqs
      exact ⟨[], .nil, (List.forall₂_nil_left_iff.mp hreqs).symm, rfl⟩
  | cons e es ih =>
      unfold callsOf at hcalls
      cases hcall : e.call? id with
      | none =>
          rw [List.filterMap_cons_none hcall] at hcalls
          obtain ⟨qs, hqs, hasked, hrun⟩ := ih hreqs hfits hcalls (s.step e)
          exact ⟨.event e :: qs, .cons (.event e hcall) hqs, hasked, hrun⟩
      | some call =>
          rw [List.filterMap_cons_some hcall] at hcalls
          cases hreqs with
          | nil => exact absurd hcalls (by simp)
          | @cons p req ps reqs hp hreqs =>
              rw [List.map_cons, List.forall₂_cons] at hcalls
              obtain ⟨env, rfl⟩ := Event.eq_packet_of_call hcall
              obtain ⟨junk, rfl⟩ := hp
              obtain ⟨hreq, hfits⟩ := List.forall_mem_cons.mp hfits
              have hstep := step_of_buffered id hcalls.1 rfl hreq env s
              obtain ⟨qs, hqs, hasked, hrun⟩ := ih hreqs hfits hcalls.2 (s.ask id (.request env req))
              refine ⟨.request env req :: qs, .cons (.request _ _ env req) hqs, ?_, ?_⟩
              · exact congrArg (req :: ·) hasked
              · rw [run_cons, hstep]
                exact hrun

theorem wellFormed_encode (junk : ℕ → UInt8) (req : CsPacket) : WellFormed (req.encode junk) := by
  have hsize := (@CsPacket.header_encode junk req []).1
  rw [List.append_nil] at hsize
  have hrange : sizeofPacketHeader ≤ req.type.sizeof ∧ req.type.sizeof ≤ packetBufSize := by
    generalize req.type = type
    cases type <;> decide
  rw [← req.length_encode junk] at hrange
  exact ⟨hsize.trans (req.length_encode junk).symm, hrange.1, hrange.2⟩

theorem Requests.wellFormed {ps : List Bytes} {reqs : List CsPacket} (h : Requests ps reqs) :
    ∀ p ∈ ps, WellFormed p := by
  induction h with
  | nil => exact fun p hp => absurd hp List.not_mem_nil
  | cons hp _ ih =>
      obtain ⟨junk, rfl⟩ := hp
      exact List.forall_mem_cons.mpr ⟨wellFormed_encode junk _, ih⟩

/-- **Requests arrive as they were sent.** Of a stream of structs of which the
chunks have arrived, `OnRecvComplete` makes a call for each request that has
arrived in full, and every run of the server in which the calls of the session
are these, whatever it does between them, is the run in which those requests are
carried out. -/
theorem requests_of_bytes_run {ps chunks : List Bytes} {reqs : List CsPacket} {rest : Bytes}
    (hreqs : Requests ps reqs) (hfits : ∀ req ∈ reqs, req.Fits) (buffer : ℕ → UInt8)
    (hstream : chunks.flatten ++ rest = ps.flatten) (hcut : CutInto (.init buffer) chunks) :
    ∃ n calls rb, Completes (.init buffer) chunks calls rb ∧
      (ps.take n).flatten <+: chunks.flatten ∧
      (n < ps.length → ¬ (ps.take (n + 1)).flatten <+: chunks.flatten) ∧
      (rest = [] → n = ps.length) ∧
      ∀ id s es, List.Forall₂ Buffered calls (callsOf id es) →
        ∃ qs, List.Forall₂ (InPlaceOf id) es qs ∧ qs.filterMap Asked.req? = reqs.take n ∧
          run step s es = run (ask id) s qs := by
  obtain ⟨n, rb, hcomp, hpre, hmax, hall⟩ := arrived hreqs.wellFormed buffer hstream hcut
  refine ⟨n, _, rb, hcomp, hpre, hmax, hall, fun id s es hcalls => ?_⟩
  have htake : Requests (ps.take n) (reqs.take n) := List.forall₂_take n hreqs
  exact run_of_requests htake (fun req hreq => hfits req (List.mem_of_mem_take hreq)) hcalls s

/-- An attack, and the first half of another. -/
theorem requests_of_bytes_run_attack :
    ∃ n calls rb, Completes (.init fun _ => 0) [[4, 0, 235, 3, 4, 0]] calls rb ∧
      ∀ id s es, List.Forall₂ Buffered calls (callsOf id es) →
        ∃ qs, List.Forall₂ (InPlaceOf id) es qs ∧
          qs.filterMap Asked.req? = [CsPacket.attack, .attack].take n ∧
          run step s es = run (ask id) s qs := by
  have hreqs : Requests [[4, 0, 235, 3], [4, 0, 235, 3]] [.attack, .attack] :=
    .cons ⟨fun _ => 0, rfl⟩ (.cons ⟨fun _ => 0, rfl⟩ .nil)
  have hfits : ∀ req ∈ [CsPacket.attack, .attack], req.Fits := by simp [CsPacket.Fits]
  have hcut : CutInto (.init fun _ => 0) [[4, 0, 235, 3, 4, 0]] :=
    ⟨⟨by decide, by decide⟩, fun _ _ => trivial⟩
  have hstream : [[4, 0, 235, 3, 4, 0]].flatten ++ ([235, 3] : Bytes) =
      [[4, 0, 235, 3], [4, 0, 235, 3]].flatten := rfl
  obtain ⟨n, calls, rb, hcomp, -, -, -, hrun⟩ :=
    requests_of_bytes_run hreqs hfits (fun _ => 0) hstream hcut
  exact ⟨n, calls, rb, hcomp, hrun⟩

end Server

end Mmorpg
