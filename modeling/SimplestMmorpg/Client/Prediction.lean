/-
Client prediction: the move in `main.cpp` against `ProcessMove`.

## The machine

A running server, and the client at the other end of one connection. The client
has two threads, and a step of either is one access to what they share.

The main thread, on an arrow key: `CheckMoveCooldown`, `GetMyPlayer` and the
client's own map (`press`); then `GetAllObjects` and the loop over them, the
`SendPacket` and `MoveMyPlayer`, one `main` each. `RecvThread` hands the next
packet to `OnPacket` (`recv`). For an `SC_STAT_CHANGE` about the client this
reads `m_me` and writes it back in a second step.

What is sent on the connection is in `sent` of the server's world, in order; the
client has been handed the first `received` of it. `up` are the directions of
the `CS_MOVE`s on their way. The server handles the oldest (`move`), or does
anything else (`server`), a `CS_MOVE` from this connection apart. The clocks of
the two sides are not related.

`ahead` is not in the source: it says that the client has written a prediction
since it was last handed a packet that locates it.
-/
import SimplestMmorpg.Client.OwnPosition
import Mathlib.Tactic.FinCases

set_option autoImplicit false

namespace Mmorpg

/-- `GameState`, with a list of keys that covers `m_objects`. -/
structure Client where
  state : GameState
  keys : List ObjectID
  mem_keys : ∀ id, state.objects id ≠ none → id ∈ keys

namespace Client

variable (c : Client)

def init : Client := ⟨.init, [], fun _ h => absurd rfl h⟩

/-- `GetAllObjects`. -/
def getAllObjects : List RemoteObject := c.keys.filterMap c.state.objects

def moveMyPlayer (pos : Position) : Client := { c with state := c.state.moveMyPlayer pos }

def setMyPlayer (me : MyPlayer) : Client := { c with state := c.state.setMyPlayer me }

/-- The key of a packet that writes to `m_objects`. -/
def keysOf : ScPacket → List ObjectID
  | .addObject obj => [obj.id]
  | .removeObject id => [id]
  | .moveObject id _ _ => [id]
  | _ => []

/-- A packet changes no entry but that of its key. -/
theorem objects_onPacket (state : GameState) {pkt : ScPacket} {id : ObjectID}
    (h : id ∉ keysOf pkt) : (state.onPacket pkt).objects id = state.objects id := by
  cases pkt with
  | addObject obj =>
      have hne : id ≠ obj.id := by simpa [keysOf] using h
      exact Function.update_of_ne hne _ _
  | removeObject k =>
      have hne : id ≠ k := by simpa [keysOf] using h
      exact Function.update_of_ne hne _ _
  | moveObject k pos moveTime =>
      have hne : id ≠ k := by simpa [keysOf] using h
      simp only [GameState.onPacket]
      split
      · rfl
      · exact Function.update_of_ne hne _ _
  | statChange k hp maxHp exp level =>
      simp only [GameState.onPacket]
      split
      · rfl
      · rfl
  | _ => rfl

/-- `OnPacket`. -/
def onPacket (pkt : ScPacket) : Client where
  state := c.state.onPacket pkt
  keys := keysOf pkt ++ c.keys
  mem_keys id h := by
    by_cases hid : id ∈ keysOf pkt
    · exact List.mem_append_left _ hid
    · rw [objects_onPacket c.state hid] at h
      exact List.mem_append_right _ (c.mem_keys id h)

end Client

/-- Where the main thread is between two accesses to what it shares. -/
inductive MainPc where
  | idle
  | lookAround (dir : Fin 4) (new : Position)
  | sendPacket (dir : Fin 4) (new : Position)
  | moveMyPlayer (new : Position)
  deriving DecidableEq, Repr

structure Playing where
  server : Server
  conn : ConnId
  up : List (Fin 4)
  received : ℕ
  client : Client
  map : Map
  now : ℕ
  lastMoveTime : ℕ
  main : MainPc
  /-- What `SetMyPlayer` is about to write, in the middle of an `OnPacket`. -/
  setMyPlayer : Option MyPlayer
  ahead : Bool

namespace Playing

open Transition

variable (m : Playing)

/-- The client with its map and clock, before the server has accepted anybody. -/
def init (server : Server) (conn : ConnId) (map : Map) (now : ℕ) : Playing where
  server := server
  conn := conn
  up := []
  received := 0
  client := .init
  map := map
  now := now
  lastMoveTime := 0
  main := .idle
  setMyPlayer := none
  ahead := false

/-! ## The client -/

/-- `MyPlayer`, as `GetMyPlayer` returns it. -/
def me : MyPlayer := m.client.state.me

/-- The packets on their way to the client, oldest first. -/
def inFlight : List ScPacket := (onConn m.conn m.server.game.world.sent).drop m.received

/-- `CheckMoveCooldown`: the time of the last move when it succeeds. -/
def checkMoveCooldown : Option ℕ :=
  if m.now - m.lastMoveTime < moveCooldownMs then none else some m.now

/-- An arrow key, up to the test of the map. -/
def press (dir : Fin 4) : Playing :=
  match m.main with
  | .idle =>
    match m.checkMoveCooldown with
    | none => m
    | some lastMoveTime =>
      let new := SectorManager.offset m.me.pos (directions.getD dir (0, 0))
      let main := if m.map.isWalkable new.x new.y then .lookAround dir new else .idle
      { m with lastMoveTime := lastMoveTime, main := main }
  | _ => m

/-- The next access of the main thread. -/
def mainThread : Playing :=
  match m.main with
  | .idle => m
  | .lookAround dir new =>
    if m.client.getAllObjects.any fun obj => obj.pos = new then { m with main := .idle }
    else { m with main := .sendPacket dir new }
  | .sendPacket dir new => { m with up := m.up ++ [dir], main := .moveMyPlayer new }
  | .moveMyPlayer new =>
    { m with
      client := m.client.moveMyPlayer new
      main := .idle
      ahead := m.ahead || new ≠ m.me.pos }

/-- `OnPacket`; the second access of an `SC_STAT_CHANGE` is left for later. -/
def onPacket (pkt : ScPacket) : Playing :=
  match pkt with
  | .statChange id hp maxHp exp level =>
    if id = m.me.id then
      { m with
        setMyPlayer :=
          some { m.me with hp := hp, maxHp := maxHp, exp := toInt32 exp, level := level } }
    else m
  | pkt =>
    { m with client := m.client.onPacket pkt, ahead := m.ahead && ¬ pkt.Locates m.me.id }

/-- With nothing in between, the two accesses are one `OnPacket`. -/
theorem state_onPacket {m : Playing} (h : m.setMyPlayer = none) (pkt : ScPacket) :
    (m.onPacket pkt).setMyPlayer.elim (m.onPacket pkt).client.state
      (m.onPacket pkt).client.state.setMyPlayer = m.client.state.onPacket pkt := by
  cases pkt with
  | statChange id hp maxHp exp level =>
      by_cases hid : id = m.me.id
      · have hread : m.onPacket (.statChange id hp maxHp exp level) = { m with
            setMyPlayer := some { m.me with
              hp := hp, maxHp := maxHp, exp := toInt32 exp, level := level } } := if_pos hid
        have hwhole : m.client.state.onPacket (.statChange id hp maxHp exp level) =
            m.client.state.setMyPlayer { m.me with
              hp := hp, maxHp := maxHp, exp := toInt32 exp, level := level } := if_pos hid
        rw [hread, hwhole]
        rfl
      · have hread : m.onPacket (.statChange id hp maxHp exp level) = m := if_neg hid
        have hwhole : m.client.state.onPacket (.statChange id hp maxHp exp level) =
            m.client.state := if_neg hid
        rw [hread, hwhole, h, Option.elim_none]
  | _ =>
      simp only [onPacket, h, Option.elim_none]
      rfl

/-- The next access of `RecvThread`. -/
def recvThread : Playing :=
  match m.setMyPlayer with
  | some me => { m with client := m.client.setMyPlayer me, setMyPlayer := none }
  | none =>
    match m.inFlight with
    | [] => m
    | pkt :: _ => { m with received := m.received + 1 }.onPacket pkt

/-! ## The server -/

/-- `CS_Move`, with the `move_time` that `main.cpp` sends. -/
def csMove (dir : Fin 4) : Bytes := [13, 0, 234, 3, dir.val.toUInt8] ++ List.replicate 8 0

/-- The session of the connection is handed the oldest `CS_MOVE`. `rest` is what
`packetBuf` holds beyond it. -/
def handleMove (id : ObjectID) (rest : Bytes) (env : Env) : Playing :=
  match m.up with
  | [] => m
  | dir :: up =>
    if m.server.sessions id = some m.conn then
      { m with up := up, server := m.server.step (.packet id (csMove dir ++ rest) 13 env) }
    else m

/-- A `CS_MOVE` on the connection. -/
def OwnMove : Server.Event → Prop
  | .packet id data size _ =>
    m.server.sessions id = some m.conn ∧ Server.requestOf data size = some .move
  | _ => False

instance (e : Server.Event) : Decidable (m.OwnMove e) := by
  cases e <;> unfold OwnMove <;> infer_instance

inductive Event where
  | tick (ms : ℕ)
  | press (dir : Fin 4)
  | main
  | recv
  | move (id : ObjectID) (rest : Bytes) (env : Env)
  | server (e : Server.Event)

def step (m : Playing) : Event → Playing
  | .tick ms => { m with now := m.now + ms }
  | .press dir => m.press dir
  | .main => m.mainThread
  | .recv => m.recvThread
  | .move id rest env => m.handleMove id rest env
  | .server e => if m.OwnMove e then m else { m with server := m.server.step e }

/-- **The client is where the server has it**, when no `CS_MOVE` and no packet
to the client is on its way. -/
def Converged : Prop :=
  m.up = [] → m.inFlight = [] →
    ∀ id p, m.server.game.world.getPlayer id = some p → p.session = m.conn → m.me.pos = p.pos

/-! ## When it converges -/

/-- A packet that locates the client is on its way. -/
def Correcting : Prop := ∃ pkt ∈ m.inFlight, pkt.Locates m.me.id

/-- `ProcessMove` returns early: the cooldown, the map, or the tile. -/
def Refuses (env : Env) (w : World) (p : Player) (dir : Fin 4) : Prop :=
  let new := env.towards p.pos dir
  p.canMove w.now = false ∨ w.map.isWalkable new.x new.y = false ∨
    w.sectorManager.tryMoveObject p.id p.pos new = none

/-- **What keeps the two together.** When the server refuses the last `CS_MOVE` on
its way, a packet that locates the client is on its way too, or was handed to it
after its last prediction. When `MoveMyPlayer` writes another position than the
client has, the `CS_MOVE` is still on its way, or such a packet is. And a death
of the player finds a tile. -/
def Corrected (m : Playing) : Event → Prop
  | .main =>
    ∀ new, m.main = .moveMyPlayer new → new ≠ m.me.pos →
      ∀ id p, m.server.game.world.getPlayer id = some p → p.session = m.conn →
        m.up ≠ [] ∨ m.Correcting
  | .move id _ env =>
    ∀ dir p, m.up = [dir] → m.server.game.world.getPlayer id = some p → p.session = m.conn →
      Refuses env m.server.game.world p dir → m.Correcting ∨ m.ahead = false
  | .server e => m.server.DiesOnTile m.conn e
  | _ => True

/-- What the packets handed to the client say of it. -/
def base : Own :=
  told GameState.init.own ((onConn m.conn m.server.game.world.sent).take m.received)

/-- The invariant. A client that is not ahead is where it was last told to be, and
one that is ahead has a `CS_MOVE` or a correction on its way. -/
structure Inv : Prop where
  linked : m.server.Linked
  located : World.Located m.conn m.server.game.world
  received_le : m.received ≤ (onConn m.conn m.server.game.world.sent).length
  me_id : m.me.id = m.base.id
  me_pos : m.ahead = false → m.me.pos = m.base.pos
  pending : ∀ me, m.setMyPlayer = some me →
    me.id = m.base.id ∧ (m.ahead = false → me.pos = m.base.pos)
  quiet : ∀ id p, m.server.game.world.getPlayer id = some p → p.session = m.conn →
    m.up = [] → ¬ m.Correcting → m.ahead = false

variable {m}

/-- When no correction is on its way the client was told everything there is. -/
theorem told_sent (h : m.Inv) (hno : ¬ m.Correcting) :
    told GameState.init.own (onConn m.conn m.server.game.world.sent) = m.base := by
  rw [← List.take_append_drop m.received (onConn m.conn m.server.game.world.sent), told_append]
  refine told_of_not_locates fun pkt hpkt hlocates => hno ⟨pkt, hpkt, ?_⟩
  rw [h.me_id]
  exact hlocates

theorem Inv.converged (h : m.Inv) : m.Converged := by
  intro hup hnone id p hp hs
  have hno : ¬ m.Correcting := by
    rintro ⟨pkt, hpkt, -⟩
    rw [hnone] at hpkt
    exact absurd hpkt List.not_mem_nil
  have hbase := told_sent h hno
  rw [h.located id p hp hs] at hbase
  rw [h.me_pos (h.quiet id p hp hs hup hno), ← hbase]

/-! ## The steps of the client -/

theorem inv_press (h : m.Inv) (dir : Fin 4) : (m.press dir).Inv := by
  have hframe : ∀ last pc, ({ m with lastMoveTime := last, main := pc } : Playing).Inv :=
    fun _ _ => ⟨h.linked, h.located, h.received_le, h.me_id, h.me_pos, h.pending, h.quiet⟩
  unfold press
  split
  · split
    · exact h
    · exact hframe _ _
  · exact h

theorem inv_mainThread (h : m.Inv) (hok : Corrected m .main) : m.mainThread.Inv := by
  have hframe : ∀ pc, ({ m with main := pc } : Playing).Inv :=
    fun _ => ⟨h.linked, h.located, h.received_le, h.me_id, h.me_pos, h.pending, h.quiet⟩
  unfold mainThread
  split
  · exact h
  · split
    · exact hframe _
    · exact hframe _
  · next dir new hmain =>
      -- `SendPacket`: a request is on its way, so nothing is claimed of the position
      refine ⟨h.linked, h.located, h.received_le, h.me_id, h.me_pos, h.pending, ?_⟩
      intro id p _ _ hup
      exact absurd hup (by simp)
  · next new hmain =>
      -- the prediction: the client is ahead unless it writes the tile it is on
      refine ⟨h.linked, h.located, h.received_le, h.me_id, ?_, ?_, ?_⟩
      · intro hahead
        obtain ⟨hold, hnew⟩ := Bool.or_eq_false_iff.mp hahead
        have heq : new = m.me.pos := by simpa using hnew
        exact heq.trans (h.me_pos hold)
      · intro me hme
        obtain ⟨hid, hpos⟩ := h.pending me hme
        exact ⟨hid, fun hahead => hpos (Bool.or_eq_false_iff.mp hahead).1⟩
      · intro id p hp hs hup hno
        by_cases hnew : new = m.me.pos
        · have hold := h.quiet id p hp hs hup hno
          simp [hold, hnew]
        · -- the condition of the step: its request or a correction is still on its way
          rcases hok new hmain hnew id p hp hs with hne | hcorrecting
          · exact absurd hup hne
          · exact absurd hcorrecting hno

/-- The next packet is one the client has not been told. -/
theorem told_next {pkt : ScPacket} {rest : List ScPacket} (hnext : m.inFlight = pkt :: rest) :
    ({ m with received := m.received + 1 } : Playing).base = pkt.relocate m.base ∧
      ({ m with received := m.received + 1 } : Playing).inFlight = rest ∧
      m.received < (onConn m.conn m.server.game.world.sent).length := by
  have hlt : m.received < (onConn m.conn m.server.game.world.sent).length := by
    by_contra hge
    rw [inFlight, List.drop_eq_nil_of_le (by omega)] at hnext
    exact absurd hnext (by simp)
  have hget := List.drop_eq_getElem_cons hlt
  rw [← inFlight, hnext] at hget
  obtain ⟨hpkt, hrest⟩ := List.cons.inj hget
  refine ⟨?_, hrest.symm, hlt⟩
  unfold base
  dsimp only
  rw [List.take_add_one, List.getElem?_eq_getElem hlt, ← hpkt, told_append]
  rfl

/-- A packet that does not locate the client tells it nothing of itself. -/
theorem inv_skip (h : m.Inv) {pkt : ScPacket} {rest : List ScPacket}
    (hnext : m.inFlight = pkt :: rest) (hno : ¬ pkt.Locates m.me.id) :
    ({ m with received := m.received + 1 } : Playing).Inv := by
  obtain ⟨hbase, hrest, hlt⟩ := told_next hnext
  have hsame : ({ m with received := m.received + 1 } : Playing).base = m.base := by
    rw [hbase]
    exact ScPacket.relocate_of_not_locates (by rwa [← h.me_id])
  refine ⟨h.linked, h.located, hlt, ?_, ?_, ?_, ?_⟩
  · rw [hsame]
    exact h.me_id
  · rw [hsame]
    exact h.me_pos
  · rw [hsame]
    exact h.pending
  · intro id p hp hs hup hquiet
    refine h.quiet id p hp hs hup ?_
    rintro ⟨other, hother, hlocates⟩
    rw [hnext] at hother
    rcases List.mem_cons.mp hother with rfl | hother
    · exact hno hlocates
    · exact hquiet ⟨other, by rw [hrest]; exact hother, hlocates⟩

/-- A packet that locates the client puts it where it was last told to be. -/
theorem inv_locate (h : m.Inv) {pkt : ScPacket} {rest : List ScPacket}
    (hset : m.setMyPlayer = none) (hnext : m.inFlight = pkt :: rest)
    (hlocates : pkt.Locates m.me.id) {b : Bool} (hb : b = false) :
    ({ m with
      received := m.received + 1
      client := m.client.onPacket pkt
      ahead := b } : Playing).Inv := by
  obtain ⟨hbase, -, hlt⟩ := told_next hnext
  have hown : (m.client.onPacket pkt).state.own = pkt.relocate m.base :=
    (m.client.state.own_onPacket pkt).trans
      (ScPacket.relocate_of_locates (by rw [← h.me_id]; exact hlocates) h.me_id)
  rw [← hbase] at hown
  refine ⟨h.linked, h.located, hlt, congrArg Own.id hown, fun _ => congrArg Own.pos hown, ?_, ?_⟩
  · intro me hme
    exact absurd (hset.symm.trans hme) (by simp)
  · exact fun _ _ _ _ _ _ => hb

/-- Only what the client has of itself matters. -/
theorem inv_client (h : m.Inv) {c : Client} (hown : c.state.own = m.client.state.own) {b : Bool}
    (hb : b = m.ahead) : ({ m with client := c, ahead := b } : Playing).Inv := by
  have hid : c.state.me.id = m.me.id := congrArg Own.id hown
  have hpos : c.state.me.pos = m.me.pos := congrArg Own.pos hown
  subst hb
  refine ⟨h.linked, h.located, h.received_le, hid.trans h.me_id, fun ha => hpos.trans (h.me_pos ha),
    h.pending, ?_⟩
  intro id p hp hs hup hno
  refine h.quiet id p hp hs hup ?_
  rintro ⟨pkt, hpkt, hlocates⟩
  refine hno ⟨pkt, hpkt, ?_⟩
  rw [← hid] at hlocates
  exact hlocates

theorem inv_recvThread (h : m.Inv) : m.recvThread.Inv := by
  unfold recvThread
  split
  · next me hme =>
      -- the second half of `SC_STAT_CHANGE`: `SetMyPlayer` writes the copy back
      obtain ⟨hid, hpos⟩ := h.pending me hme
      refine ⟨h.linked, h.located, h.received_le, hid, hpos, fun _ hnone => by simp at hnone, ?_⟩
      intro id p hp hs hup hno
      refine h.quiet id p hp hs hup ?_
      rintro ⟨pkt, hpkt, hlocates⟩
      refine hno ⟨pkt, hpkt, ?_⟩
      rw [h.me_id, ← hid] at hlocates
      exact hlocates
  · next hset =>
      split
      · exact h
      · next pkt rest hnext =>
          unfold onPacket
          split
          · next id hp maxHp exp level =>
              have hskip := inv_skip h hnext not_false
              split
              · -- the copy that is taken is as right as the position it is taken from
                refine ⟨hskip.linked, hskip.located, hskip.received_le, hskip.me_id, hskip.me_pos,
                  fun me hme => ?_, hskip.quiet⟩
                rw [← Option.some.inj hme]
                exact ⟨hskip.me_id, hskip.me_pos⟩
              · exact hskip
          · by_cases hlocates : pkt.Locates m.me.id
            · refine inv_locate h hset hnext hlocates ?_
              show (m.ahead && decide (¬ pkt.Locates m.me.id)) = false
              rw [decide_eq_false (not_not.mpr hlocates), Bool.and_false]
            · -- a packet about others changes neither the position nor the mark
              refine inv_client (inv_skip h hnext hlocates) ?_ ?_
              · have hsame : pkt.relocate m.client.state.own = m.client.state.own :=
                  ScPacket.relocate_of_not_locates hlocates
                exact (m.client.state.own_onPacket pkt).trans hsame
              · show (m.ahead && decide (¬ pkt.Locates m.me.id)) = m.ahead
                rw [decide_eq_true hlocates, Bool.and_true]

/-! ## The steps of the server -/

/-- What the client was told does not change when more is sent. -/
theorem base_of_sent {s : Server} {pkts : List (ConnId × ScPacket)} (h : m.Inv)
    (hsent : s.game.world.sent = m.server.game.world.sent ++ pkts) (up : List (Fin 4)) :
    ({ m with server := s, up := up } : Playing).base = m.base ∧
      ({ m with server := s, up := up } : Playing).inFlight = m.inFlight ++ onConn m.conn pkts := by
  unfold base inFlight
  dsimp only
  rw [hsent, onConn_append, List.take_append_of_le_length h.received_le,
    List.drop_append_of_le_length h.received_le]
  exact ⟨rfl, rfl⟩

/-- A step of the server, up to what is on its way after it. -/
theorem inv_server (h : m.Inv) {e : Server.Event} (hok : m.server.DiesOnTile m.conn e)
    (up : List (Fin 4))
    (hquiet : ∀ id p q, m.server.game.world.getPlayer id = some p → p.session = m.conn →
      (m.server.step e).game.world.getPlayer id = some q → up = [] → ¬ m.Correcting →
      ¬ ({ m with server := m.server.step e, up := up } : Playing).Correcting → m.ahead = false) :
    ({ m with server := m.server.step e, up := up } : Playing).Inv := by
  have hlocated := Server.located_step h.linked h.located hok
  have hstep := Server.tracks_step h.linked hok
  -- whoever plays on the connection played on it before, or has just logged in
  have hsent : ∃ pkts, (m.server.step e).game.world.sent = m.server.game.world.sent ++ pkts ∧
      ∀ id q, (m.server.step e).game.world.getPlayer id = some q → q.session = m.conn →
        (∃ p, m.server.game.world.getPlayer id = some p ∧ p.session = m.conn) ∨
          ∃ pkt ∈ onConn m.conn pkts, ∀ self, pkt.Locates self := by
    rcases hstep with ⟨pkts, hsent, hlead⟩ | ⟨-, pkts, hsent, hlogin⟩
    · refine ⟨pkts, hsent, fun id q hq hs => .inl ?_⟩
      obtain ⟨p, hp, hps, -⟩ := hlead id q hq hs
      exact ⟨p, hp, hps⟩
    · exact ⟨pkts, hsent, fun _ _ _ _ => .inr hlogin⟩
  obtain ⟨pkts, hsent, hplayer⟩ := hsent
  obtain ⟨hbase, hflight⟩ := base_of_sent h hsent up
  refine ⟨Server.linked_step _ _ h.linked, hlocated, ?_, ?_, ?_, ?_, ?_⟩
  · dsimp only
    rw [hsent, onConn_append, List.length_append]
    exact Nat.le_add_right_of_le h.received_le
  · rw [hbase]
    exact h.me_id
  · rw [hbase]
    exact h.me_pos
  · rw [hbase]
    exact h.pending
  · intro id q hq hs hup hno
    rcases hplayer id q hq hs with ⟨p, hp, hps⟩ | ⟨pkt, hpkt, hlogin⟩
    · refine hquiet id p q hp hps hq hup ?_ hno
      rintro ⟨pkt, hpkt, hlocates⟩
      refine hno ⟨pkt, ?_, hlocates⟩
      rw [hflight]
      exact List.mem_append_left _ hpkt
    · -- a new player was just sent `SC_LOGIN_OK`
      refine absurd ⟨pkt, ?_, hlogin _⟩ hno
      rw [hflight]
      exact List.mem_append_right _ hpkt

/-- The last that a move sends is what the mover is told. -/
theorem sent_moveTo (env : Env) (conn : ConnId) (p : Player) (new : Position) (moveTime : ℕ)
    (sm : SectorManager) (w : World) :
    ∃ pkts, (w.moveTo env conn p new moveTime sm).sent =
      w.sent ++ pkts ++ [(conn, .moveObject p.id new moveTime)] := by
  unfold World.moveTo
  dsimp only
  generalize hv : ({ w with sectorManager := sm } : World).setPlayer _ = v
  have hsent : v.sent = w.sent := by rw [← hv]; rfl
  refine ⟨ViewProcessor.processMoveView env v (ViewProcessor.ofPlayer
    ((p.setPos new).onMoved w.now)) p.pos, ?_⟩
  rw [← hsent]
  exact congrArg (· ++ [(conn, ScPacket.moveObject p.id new moveTime)])
    (World.activateNearbyMonsters_frame env new _).1

/-- A `CS_MOVE` that is not refused is acknowledged. -/
theorem processMove_of_not_refuses {env : Env} {w : World} {p : Player} {dir : Fin 4}
    {data : Bytes} (hp : w.getPlayer p.id = some p) (hdir : byteAt data 4 = dir.val)
    (h : ¬ Refuses env w p dir) (conn : ConnId) :
    ∃ pkts pos moveTime, (w.processMove env p.id conn data).sent =
      w.sent ++ pkts ++ [(conn, .moveObject p.id pos moveTime)] := by
  simp only [Refuses, not_or] at h
  obtain ⟨hcan, hwalk, htile⟩ := h
  obtain ⟨sm, hsm⟩ := Option.ne_none_iff_exists'.mp htile
  unfold World.processMove
  rw [hp]
  dsimp only
  rw [hdir, if_neg (by simpa using hcan), if_neg (by simpa using hwalk), hsm]
  obtain ⟨pkts, hsent⟩ := sent_moveTo env conn p (env.towards p.pos dir) (readLE data 5 8) sm w
  exact ⟨pkts, _, _, hsent⟩

theorem csMove_fields (dir : Fin 4) : (csMove dir).length = 13 ∧ headerSize (csMove dir) = 13 ∧
    headerType (csMove dir) = 1002 ∧ byteAt (csMove dir) 4 = dir.val := by
  revert dir
  decide

/-- `HandlePacket` takes it for a `CS_MOVE`, whatever the buffer holds beyond it. -/
theorem requestOf_csMove (dir : Fin 4) (rest : Bytes) :
    Server.requestOf (csMove dir ++ rest) 13 = some .move ∧
      byteAt (csMove dir ++ rest) 4 = dir.val := by
  obtain ⟨hlen, hsize, htype, hdir⟩ := csMove_fields dir
  refine ⟨?_, by rw [byteAt_append (by omega), hdir]⟩
  rw [Server.requestOf_append _ _ _ (by rw [hlen]; decide)]
  unfold Server.requestOf
  rw [hsize, htype]
  decide

/-- **A `CS_MOVE` is handled.** -/
theorem inv_handleMove (h : m.Inv) {id : ObjectID} {rest : Bytes} {env : Env}
    (hok : Corrected m (.move id rest env)) : (m.handleMove id rest env).Inv := by
  unfold handleMove
  split
  · exact h
  · next dir up hup =>
      split
      · next hs =>
          refine inv_server (e := .packet id (csMove dir ++ rest) 13 env) h trivial up
            fun i p q hp hps hq hlast hno hno' => ?_
          obtain ⟨hreq, hdir⟩ := requestOf_csMove dir rest
          -- the connection has one session, so the mover is the player of this client
          have hi : i = id := h.linked.conn_inj i id m.conn
            (by rw [← hps]; exact h.linked.player i p hp) hs
          subst hi
          obtain rfl := World.getPlayer_id hp
          subst hlast
          by_cases hrefuse : Refuses env m.server.game.world p dir
          · -- nothing is sent; this is what the condition of the step is about
            rcases hok dir p hup hp hps hrefuse with hcorrecting | hahead
            · exact absurd hcorrecting hno
            · exact hahead
          · -- the acknowledgement is on its way
            obtain ⟨pkts, pos, moveTime, hsent⟩ :=
              processMove_of_not_refuses hp hdir hrefuse m.conn
            have hstep : (m.server.step (.packet p.id (csMove dir ++ rest) 13 env)).game.world =
                m.server.game.world.processMove env p.id m.conn (csMove dir ++ rest) := by
              simp only [Server.step, hs, Server.handlePacket, hreq]
              rfl
            rw [← hstep, List.append_assoc] at hsent
            obtain ⟨-, hflight⟩ := base_of_sent h hsent []
            have hself : m.me.id = p.id := by
              have hbase := told_sent h hno
              rw [h.located p.id p hp hps] at hbase
              rw [h.me_id, ← hbase]
            refine absurd ⟨.moveObject p.id pos moveTime, ?_, ?_⟩ hno'
            · rw [hflight]
              exact List.mem_append_right _ (mem_onConn.mpr (by simp))
            · exact hself.symm
      · exact h

/-- **Every step keeps the invariant**, under its condition. -/
theorem inv_step (m : Playing) (e : Event) (h : m.Inv) (hok : Corrected m e) : (m.step e).Inv := by
  cases e with
  | tick ms =>
      exact ⟨h.linked, h.located, h.received_le, h.me_id, h.me_pos, h.pending, h.quiet⟩
  | press dir => exact inv_press h dir
  | main => exact inv_mainThread h hok
  | recv => exact inv_recvThread h
  | move id rest env => exact inv_handleMove h hok
  | server e =>
      simp only [step]
      split
      · exact h
      · refine inv_server h hok m.up fun id p q hp hs _ hup hno _ => ?_
        exact h.quiet id p hp hs hup hno

/-! ## Whole runs -/

theorem inv_init (map : Map) (spawns : List MonsterSpawnData) (now : ℕ) (store : PlayerStore)
    (conn : ConnId) (clientMap : Map) (clientNow : ℕ) :
    (init (.init map spawns now store) conn clientMap clientNow).Inv := by
  have hlinked := Server.linked_init map spawns now store
  have hnobody : ∀ id p, (Server.init map spawns now store).game.world.getPlayer id ≠ some p := by
    intro id p hp
    exact absurd (hlinked.player id p hp) (by simp [Server.init])
  refine ⟨hlinked, fun id p hp => absurd hp (hnobody id p), Nat.zero_le _, rfl, fun _ => rfl,
    fun me hme => absurd hme (by simp [init]), fun id p hp => absurd hp (hnobody id p)⟩

/-- **Prediction converges in every run whose steps meet the condition.** From
server start on, for every map of either side, every stored rows and spawn
script, every connection and every order of every number of steps. -/
theorem converged_run {map : Map} {spawns : List MonsterSpawnData} {now : ℕ} {store : PlayerStore}
    {conn : ConnId} {clientMap : Map} {clientNow : ℕ} {es : List Event}
    (hok : Along step Corrected (init (.init map spawns now store) conn clientMap clientNow) es) :
    (run step (init (.init map spawns now store) conn clientMap clientNow) es).Converged :=
  (Transition.invariant inv_step (inv_init map spawns now store conn clientMap clientNow)
    hok).converged

instance (env : Env) (w : World) (p : Player) (dir : Fin 4) : Decidable (Refuses env w p dir) := by
  unfold Refuses
  infer_instance

/-- A client that logs in on the first connection, on an open field. -/
def newcomer : Playing := init (.init Server.openField [] 10000 .init) 0 Server.openField 10000

/-- It logs in, and is handed the answer. -/
def loggedIn : List Event := Server.oneLogin.map .server ++ [.recv]

/-- An arrow key to the right, and what the main thread does about it. -/
def stepRight : List Event := [.press (Fin.last 3), .main, .main, .main]

/-- A move that is accepted, and its acknowledgement. -/
def movedOnce : List Event := loggedIn ++ stepRight ++ [.move 0 [] .plain, .recv]

theorem movedOnce_accepted :
    let m := run step newcomer (loggedIn ++ stepRight)
    m.up = [3] ∧
      ∀ p ∈ m.server.game.world.getPlayer 0, ¬ Refuses .plain m.server.game.world p 3 := by
  decide +kernel

theorem converged_run_movedOnce : (run step newcomer movedOnce).Converged := by
  refine converged_run ⟨trivial, trivial, trivial, trivial, trivial, trivial, ?_, ?_, ?_, ?_,
    trivial, trivial⟩
  · intro new hmain
    have hstate := hmain.symm.trans (show _ = MainPc.lookAround 3 ⟨1, 0⟩ by decide +kernel)
    exact absurd hstate (by simp)
  · intro new hmain
    have hstate := hmain.symm.trans (show _ = MainPc.sendPacket 3 ⟨1, 0⟩ by decide +kernel)
    exact absurd hstate (by simp)
  · intro new _ _ id p _ _
    exact .inl (by decide +kernel)
  · intro dir p hup hp _ hrefuse
    obtain ⟨hup', haccept⟩ := movedOnce_accepted
    have hdir := (List.cons.inj (hup'.symm.trans hup)).1
    rw [← hdir] at hrefuse
    exact absurd hrefuse (haccept p hp)

/-- The second `CS_MOVE` was a millisecond less on its way than the first. -/
def tooSoon : List Event :=
  movedOnce ++ [.tick 1000] ++ stepRight ++ [.server (.tick 999), .move 0 [] .plain]

theorem tooSoon_apart :
    let m := run step newcomer tooSoon
    m.up = [] ∧ m.inFlight = [] ∧ m.me.pos = ⟨2, 0⟩ ∧
      (m.server.game.world.getPlayer 0).map (fun p => (p.session, p.pos)) = some (0, ⟨1, 0⟩) := by
  decide +kernel

/-- The server refuses it for its cooldown, and says nothing: the client stays a
tile ahead. -/
theorem not_always_converged :
    ¬ ∀ (map : Map) (spawns : List MonsterSpawnData) (now : ℕ) (store : PlayerStore)
      (conn : ConnId) (clientMap : Map) (clientNow : ℕ) (es : List Event),
      (run step (init (.init map spawns now store) conn clientMap clientNow) es).Converged := by
  intro hall
  have h := hall Server.openField [] 10000 .init 0 Server.openField 10000 tooSoon
  obtain ⟨hup, hflight, hme, hplayer⟩ := tooSoon_apart
  obtain ⟨p, hp, hfields⟩ := Option.map_eq_some_iff.mp hplayer
  obtain ⟨hsession, hpos⟩ := Prod.mk.inj hfields
  have heq := h hup hflight 0 p hp hsession
  rw [hpos] at heq
  exact absurd (hme.symm.trans heq) (by decide)

end Playing

end Mmorpg
