/-
What the two threads of a client make of what it has received.

`World.client` folds the packets of a connection. A client does more: the main
thread writes its predictions, and `RecvThread` writes back a copy of `m_me`
that it took before. So what a client keeps is what the packets it has been
handed say, in everything but its own position (`Synced`); and the position
too, unless the client has written a prediction since it was last told where
it is.

With the mirror of the stats and `Located` this is what the server has, as soon
as all that was sent has been received.
-/
import SimplestMmorpg.Client.OwnStats
import SimplestMmorpg.Client.Prediction

set_option autoImplicit false

namespace Mmorpg

/-- Where the client has put itself matters to no packet. -/
theorem GameState.onPacket_moveMyPlayer (state : GameState) (pos : Position) (pkt : ScPacket) :
    (state.moveMyPlayer pos).onPacket pkt =
      (state.onPacket pkt).moveMyPlayer ((state.moveMyPlayer pos).onPacket pkt).me.pos := by
  cases pkt with
  | moveObject id new moveTime =>
      by_cases hid : id = state.me.id
      · have hmoved : (state.moveMyPlayer pos).onPacket (.moveObject id new moveTime) =
            (state.moveMyPlayer pos).moveMyPlayer new := if_pos hid
        have hstate : state.onPacket (.moveObject id new moveTime) = state.moveMyPlayer new :=
          if_pos hid
        rw [hmoved, hstate]
        rfl
      · have hmoved : (state.moveMyPlayer pos).onPacket (.moveObject id new moveTime) =
            (state.moveMyPlayer pos).moveObject id new := if_neg hid
        have hstate : state.onPacket (.moveObject id new moveTime) = state.moveObject id new :=
          if_neg hid
        rw [hmoved, hstate]
        rfl
  | statChange id hp maxHp exp level =>
      by_cases hid : id = state.me.id
      · have hmoved : (state.moveMyPlayer pos).onPacket (.statChange id hp maxHp exp level) =
            (state.moveMyPlayer pos).setMyPlayer { (state.moveMyPlayer pos).me with
              hp := hp, maxHp := maxHp, exp := toInt32 exp, level := level } := if_pos hid
        have hstate : state.onPacket (.statChange id hp maxHp exp level) =
            state.setMyPlayer { state.me with
              hp := hp, maxHp := maxHp, exp := toInt32 exp, level := level } := if_pos hid
        rw [hmoved, hstate]
        rfl
      · have hmoved : (state.moveMyPlayer pos).onPacket (.statChange id hp maxHp exp level) =
            state.moveMyPlayer pos := if_neg hid
        have hstate : state.onPacket (.statChange id hp maxHp exp level) = state := if_neg hid
        rw [hmoved, hstate]
        rfl
  | _ => rfl

/-- A place for everybody is one for the player of the connection. -/
theorem Server.diesOnTile_of_placementOk {s : Server} {e : Server.Event} (h : s.PlacementOk e)
    (conn : ConnId) : Server.DiesOnTile conn s e := by
  cases e with
  | timer k env => exact fun ev hev htype hit hhit _ _ _ => h ev hev htype hit hhit
  | _ => trivial

namespace Playing

open Transition

variable {m : Playing}

/-! ## What the server is given -/

/-- The event of the server in a step. -/
def serves (m : Playing) : Event → Option Server.Event
  | .move id rest env =>
    match m.up with
    | [] => none
    | dir :: _ =>
      if m.server.sessions id = some m.conn then some (.packet id (csMove dir ++ rest) 13 env)
      else none
  | .server e => if m.OwnMove e then none else some e
  | _ => none

/-- A condition on the steps of the server. -/
def Serves (C : Server → Server.Event → Prop) (m : Playing) (e : Event) : Prop :=
  ∀ se ∈ m.serves e, C m.server se

instance (C : Server → Server.Event → Prop) [∀ s e, Decidable (C s e)] (m : Playing) (e : Event) :
    Decidable (Serves C m e) :=
  inferInstanceAs (Decidable (∀ se ∈ m.serves e, C m.server se))

theorem Serves.mono {C C' : Server → Server.Event → Prop} (hC : ∀ s e, C s e → C' s e) {e : Event}
    (h : Serves C m e) : Serves C' m e :=
  fun se hse => hC m.server se (h se hse)

/-! ## What the client has made of what it was handed -/

/-- What the packets handed to the client say. -/
def heard (m : Playing) : GameState :=
  .after ((onConn m.conn m.server.game.world.sent).take m.received)

/-- What the client keeps when `RecvThread` has written what it is about to write. -/
def settled (m : Playing) : GameState :=
  m.setMyPlayer.elim m.client.state m.client.state.setMyPlayer

/-- **The client keeps what it has heard**, up to its own position; and that too, unless
it is ahead. -/
structure Synced (m : Playing) : Prop where
  received_le : m.received ≤ (onConn m.conn m.server.game.world.sent).length
  settled : m.settled = m.heard.moveMyPlayer m.settled.me.pos
  located : m.ahead = false → m.settled.me.pos = m.heard.me.pos

theorem Synced.of_not_ahead (h : m.Synced) (hahead : m.ahead = false) : m.settled = m.heard := by
  rw [h.settled, h.located hahead]
  rfl

theorem synced_press (h : m.Synced) (dir : Fin 4) : (m.press dir).Synced := by
  unfold press
  split
  · split
    · exact h
    · exact ⟨h.received_le, h.settled, h.located⟩
  · exact h

/-- A prediction is lost when `SetMyPlayer` is about to write the old position back. -/
theorem settled_moveMyPlayer (m : Playing) (new : Position) (b : Bool) :
    ({ m with
      client := m.client.moveMyPlayer new
      main := .idle
      ahead := b } : Playing).settled =
        m.setMyPlayer.elim (m.client.state.moveMyPlayer new) m.client.state.setMyPlayer :=
  rfl

theorem synced_mainThread (h : m.Synced) : m.mainThread.Synced := by
  unfold mainThread
  split
  · exact h
  · split <;> exact ⟨h.received_le, h.settled, h.located⟩
  · exact ⟨h.received_le, h.settled, h.located⟩
  · next new hmain =>
      have hsame := settled_moveMyPlayer m new (m.ahead || new ≠ m.me.pos)
      obtain ⟨hle, hsettled, hlocated⟩ := h
      unfold Playing.settled at hsettled hlocated
      cases hset : m.setMyPlayer with
      | some me =>
          rw [hset, Option.elim_some] at hsettled hlocated hsame
          refine ⟨hle, ?_, fun hahead => ?_⟩
          · rw [hsame]
            exact hsettled
          · rw [hsame]
            exact hlocated (Bool.or_eq_false_iff.mp hahead).1
      | none =>
          rw [hset, Option.elim_none] at hsettled hlocated hsame
          refine ⟨hle, ?_, fun hahead => ?_⟩
          · rw [hsame, hsettled]
            rfl
          · -- it writes the position that is there
            obtain ⟨hold, hnew⟩ := Bool.or_eq_false_iff.mp hahead
            have heq : new = m.me.pos := by simpa using hnew
            rw [hsame]
            exact heq.trans (hlocated hold)

/-- The next packet is one the client has not heard of. -/
theorem heard_next {pkt : ScPacket} {rest : List ScPacket} (hnext : m.inFlight = pkt :: rest) :
    ({ m with received := m.received + 1 } : Playing).heard = m.heard.onPacket pkt := by
  have hget : (onConn m.conn m.server.game.world.sent)[m.received]? = some pkt := by
    have hhead := congrArg List.head? hnext
    rwa [inFlight, List.head?_drop] at hhead
  unfold heard
  dsimp only
  rw [List.take_add_one, hget, GameState.after_append]
  rfl

/-- What `OnPacket` leaves alone, and which packets end a prediction. -/
theorem onPacket_frame (m : Playing) (pkt : ScPacket) :
    ((m.onPacket pkt).server = m.server ∧ (m.onPacket pkt).conn = m.conn ∧
      (m.onPacket pkt).received = m.received) ∧
      ((m.onPacket pkt).ahead = false → m.ahead = false ∨ pkt.Locates m.me.id) := by
  unfold onPacket
  split
  · split <;> exact ⟨⟨rfl, rfl, rfl⟩, .inl⟩
  · refine ⟨⟨rfl, rfl, rfl⟩, fun hahead => ?_⟩
    have hand : (m.ahead && decide (¬ pkt.Locates m.me.id)) = false := hahead
    by_cases hlocates : pkt.Locates m.me.id
    · exact .inr hlocates
    · rw [decide_eq_true hlocates, Bool.and_true] at hand
      exact .inl hand

/-- **`OnPacket` on a client that keeps what it has heard**, up to its position: it then
keeps this packet too. -/
theorem synced_onPacket {heard : GameState} {pkt : ScPacket} (hset : m.setMyPlayer = none)
    (hsettled : m.client.state = heard.moveMyPlayer m.client.state.me.pos)
    (hlocated : m.ahead = false → m.client.state.me.pos = heard.me.pos)
    (hle : m.received ≤ (onConn m.conn m.server.game.world.sent).length)
    (hheard : m.heard = heard.onPacket pkt) : (m.onPacket pkt).Synced := by
  obtain ⟨⟨hserver, hconn, hreceived⟩, hahead⟩ := m.onPacket_frame pkt
  have hstate : (m.onPacket pkt).settled = m.client.state.onPacket pkt := state_onPacket hset pkt
  have hsame : (m.onPacket pkt).heard = heard.onPacket pkt := by
    rw [← hheard, Playing.heard, Playing.heard, hserver, hconn, hreceived]
  refine ⟨by rw [hserver, hconn, hreceived]; exact hle, ?_, fun hnot => ?_⟩
  · rw [hstate, hsame, hsettled]
    exact heard.onPacket_moveMyPlayer _ pkt
  · rw [hstate, hsame]
    rcases hahead hnot with hold | hlocates
    · rw [hsettled, hlocated hold]
      rfl
    · -- what it says does not depend on where the client has put itself
      have hown : heard.own.id = m.client.state.own.id := by rw [hsettled]; rfl
      have hsays := ScPacket.relocate_of_locates hlocates hown
      rw [← GameState.own_onPacket, ← GameState.own_onPacket] at hsays
      exact (congrArg Own.pos hsays).symm

theorem synced_recvThread (h : m.Synced) : m.recvThread.Synced := by
  unfold recvThread
  split
  · next me hme =>
      -- what it was about to write is written
      have hsame : ({ m with client := m.client.setMyPlayer me, setMyPlayer := none } :
          Playing).settled = m.settled := by
        simp only [Playing.settled, hme, Option.elim_none, Option.elim_some]
        rfl
      exact ⟨h.received_le, hsame.symm ▸ h.settled, hsame.symm ▸ h.located⟩
  · next hset =>
      split
      · exact h
      · next pkt rest hnext =>
          obtain ⟨-, hsettled, hlocated⟩ := h
          simp only [Playing.settled, hset, Option.elim_none] at hsettled hlocated
          exact synced_onPacket hset hsettled hlocated (told_next hnext).2.2 (heard_next hnext)

/-- The server has sent more. -/
theorem synced_server (h : m.Synced) {s : Server} {pkts : List (ConnId × ScPacket)}
    (hsent : s.game.world.sent = m.server.game.world.sent ++ pkts) (up : List (Fin 4)) :
    ({ m with server := s, up := up } : Playing).Synced := by
  have hheard : ({ m with server := s, up := up } : Playing).heard = m.heard := by
    unfold Playing.heard
    dsimp only
    rw [hsent, onConn_append, List.take_append_of_le_length h.received_le]
  refine ⟨?_, by rw [hheard]; exact h.settled, by rw [hheard]; exact h.located⟩
  dsimp only
  rw [hsent, onConn_append, List.length_append]
  exact Nat.le_add_right_of_le h.received_le

/-! ## Steps -/

theorem frame_press (m : Playing) (dir : Fin 4) :
    (m.press dir).server = m.server ∧ (m.press dir).conn = m.conn := by
  unfold press
  split
  · split <;> exact ⟨rfl, rfl⟩
  · exact ⟨rfl, rfl⟩

theorem frame_mainThread (m : Playing) :
    m.mainThread.server = m.server ∧ m.mainThread.conn = m.conn := by
  unfold mainThread
  split
  · exact ⟨rfl, rfl⟩
  · split <;> exact ⟨rfl, rfl⟩
  · exact ⟨rfl, rfl⟩
  · exact ⟨rfl, rfl⟩

theorem frame_recvThread (m : Playing) :
    m.recvThread.server = m.server ∧ m.recvThread.conn = m.conn := by
  unfold recvThread
  split
  · exact ⟨rfl, rfl⟩
  · split
    · exact ⟨rfl, rfl⟩
    · next pkt rest hnext =>
        obtain ⟨⟨hserver, hconn, -⟩, -⟩ := onPacket_frame { m with received := m.received + 1 } pkt
        exact ⟨hserver, hconn⟩

/-- **A step is one of the server, or one that leaves the server** and keeps the client
in step with what it has heard. -/
theorem step_cases (m : Playing) (e : Event) :
    (∃ se up, m.serves e = some se ∧ m.step e = { m with server := m.server.step se, up := up }) ∨
      ((m.step e).server = m.server ∧ (m.step e).conn = m.conn) ∧
        (m.Synced → (m.step e).Synced) := by
  cases e with
  | tick ms => exact .inr ⟨⟨rfl, rfl⟩, fun h => ⟨h.received_le, h.settled, h.located⟩⟩
  | press dir => exact .inr ⟨m.frame_press dir, fun h => synced_press h dir⟩
  | main => exact .inr ⟨m.frame_mainThread, synced_mainThread⟩
  | recv => exact .inr ⟨m.frame_recvThread, synced_recvThread⟩
  | move id rest env =>
      cases hup : m.up with
      | nil => exact .inr (by simp only [step, handleMove, hup, and_self, imp_self])
      | cons dir up =>
          by_cases hs : m.server.sessions id = some m.conn
          · left
            refine ⟨.packet id (csMove dir ++ rest) 13 env, up, ?_, ?_⟩
            · simp only [serves, hup, if_pos hs]
            · simp only [step, handleMove, hup, if_pos hs]
          · exact .inr (by simp only [step, handleMove, hup, if_neg hs, and_self, imp_self])
  | server e =>
      by_cases hown : m.OwnMove e
      · exact .inr (by simp only [step, if_pos hown, and_self, imp_self])
      · exact .inl ⟨e, m.up, if_neg hown, if_neg hown⟩

theorem conn_step (m : Playing) (e : Event) : (m.step e).conn = m.conn := by
  rcases step_cases m e with ⟨se, up, -, hstep⟩ | ⟨⟨-, hconn⟩, -⟩
  · rw [hstep]
  · exact hconn

/-- What holds of the server and of the client at the other end of the connection. -/
structure Knows (m : Playing) : Prop where
  linked : m.server.Linked
  located : World.Located m.conn m.server.game.world
  shows : Server.ShowsStats m.conn m.server
  synced : m.Synced

theorem knows_step (m : Playing) (e : Event) (h : m.Knows)
    (hok : Serves (Server.DiesOnTile m.conn) m e) : (m.step e).Knows := by
  rcases step_cases m e with ⟨se, up, hse, hstep⟩ | ⟨⟨hserver, hconn⟩, hsynced⟩
  · have hdies := hok se hse
    rw [hstep]
    have hsent : ∃ pkts, (m.server.step se).game.world.sent = m.server.game.world.sent ++ pkts := by
      rcases Server.tracks_step h.linked hdies with ⟨pkts, hsent, -⟩ | ⟨-, pkts, hsent, -⟩
      · exact ⟨pkts, hsent⟩
      · exact ⟨pkts, hsent⟩
    obtain ⟨pkts, hsent⟩ := hsent
    exact ⟨Server.linked_step _ _ h.linked, Server.located_step h.linked h.located hdies,
      Server.showsStats_step h.linked h.shows hdies, synced_server h.synced hsent up⟩
  · refine ⟨?_, ?_, ?_, hsynced h.synced⟩
    · rw [hserver]
      exact h.linked
    · rw [hserver, hconn]
      exact h.located
    · rw [hserver, hconn]
      exact h.shows

/-! ## Whole runs -/

/-- All that was sent on the connection has been received, and written. -/
structure UpToDate (m : Playing) : Prop where
  received : m.inFlight = []
  written : m.setMyPlayer = none

instance (m : Playing) : Decidable m.UpToDate :=
  decidable_of_iff (m.inFlight = [] ∧ m.setMyPlayer.isNone)
    ⟨fun h => ⟨h.1, Option.isNone_iff_eq_none.mp h.2⟩,
      fun h => ⟨h.received, Option.isNone_iff_eq_none.mpr h.written⟩⟩

/-- **A client that is up to date keeps what the packets of its connection say**, up to
its own position. -/
theorem Synced.upToDate (h : m.Synced) (hup : m.UpToDate) :
    m.client.state = (m.server.game.world.client m.conn).moveMyPlayer m.me.pos ∧
      (m.ahead = false → m.client.state = m.server.game.world.client m.conn) := by
  have hsettled : m.settled = m.client.state := by
    unfold Playing.settled
    rw [hup.written, Option.elim_none]
  have hheard : m.heard = m.server.game.world.client m.conn := by
    have hall : (onConn m.conn m.server.game.world.sent).length ≤ m.received :=
      List.drop_eq_nil_iff.mp hup.received
    rw [heard, List.take_of_length_le hall]
    rfl
  have hkept := h.settled
  rw [hsettled, hheard] at hkept
  refine ⟨hkept, fun hahead => ?_⟩
  rw [← hsettled, h.of_not_ahead hahead, hheard]

theorem knows_init (map : Map) (spawns : List MonsterSpawnData) (now : ℕ) (store : PlayerStore)
    (conn : ConnId) (clientMap : Map) (clientNow : ℕ) :
    (init (.init map spawns now store) conn clientMap clientNow).Knows := by
  obtain ⟨hlocated, hshows⟩ := Server.shows_init conn map spawns now store
  exact ⟨Server.linked_init map spawns now store, hlocated, hshows, Nat.zero_le _, rfl, fun _ => rfl⟩

theorem knows_run {m : Playing} {es : List Event} (h : m.Knows)
    (hok : Along step (Serves (Server.DiesOnTile m.conn)) m es) :
    (run step m es).Knows ∧ (run step m es).conn = m.conn :=
  Transition.invariant (I := fun n => n.Knows ∧ n.conn = m.conn)
    (fun n e hn hc => ⟨knows_step n e hn.1 (hn.2.symm ▸ hc), (conn_step n e).trans hn.2⟩)
    ⟨h, rfl⟩ hok

/-- **A client knows its own player.** In every run of the server and of the threads of a
client in which the deaths of its player find a tile: a client that is up to date has
the id, the level, the experience and the hit points that the server has; and its
position too, unless it has predicted a move since it was last told where it is. -/
theorem client_me_run {map : Map} {spawns : List MonsterSpawnData} {now : ℕ} {store : PlayerStore}
    {conn : ConnId} {clientMap : Map} {clientNow : ℕ} {es : List Event}
    (hok : Along step (Serves (Server.DiesOnTile conn))
      (init (.init map spawns now store) conn clientMap clientNow) es) :
    let m := run step (init (.init map spawns now store) conn clientMap clientNow) es
    m.UpToDate → ∀ id p, m.server.game.world.getPlayer id = some p → p.session = conn →
      m.me = { p.me with pos := m.me.pos } ∧ (m.ahead = false → m.me = p.me) := by
  intro m hup id p hp hs
  obtain ⟨hknows, hconn⟩ :=
    knows_run (knows_init map spawns now store conn clientMap clientNow) hok
  obtain ⟨hstate, hsame⟩ := hknows.synced.upToDate hup
  have hme := Server.client_me hknows.located hknows.shows hp (hs.trans hconn.symm)
  refine ⟨?_, fun hahead => ?_⟩
  · rw [← hme]
    exact congrArg GameState.me hstate
  · rw [← hme]
    exact congrArg GameState.me (hsame hahead)

/-- A client on an open field with the monster that bites. -/
def beginner : Playing :=
  init (.init Server.openField [Server.pest] 10000 .init) 0 Server.openField 10000

/-- A step down. -/
def stepDown : List Event := [.press ((Fin.last 1).castAdd 2), .main, .main, .main]

/-- It logs in and is bitten. Its `RecvThread` is in the middle of the `SC_STAT_CHANGE` when
the main thread steps down; the prediction is overwritten, and the acknowledgement
restores it. -/
def bittenInStep : List Event :=
  Server.oneLogin.map .server ++ [.recv, .recv, .server (.tick 1000), .server (.timer 1 .plain),
    .server (.tick 1000), .server (.timer 1 .plain), .recv, .recv] ++ stepDown ++
    [.recv, .recv, .move 0 [] .plain, .recv]

/-- The second client is still a tile ahead when its second move has been refused. -/
theorem client_me_run_bittenInStep :
    let m := run step beginner bittenInStep
    let m' := run step newcomer tooSoon
    (m.me = ⟨0, ⟨0, 1⟩, 1, 0, 90, 100⟩ ∧
      ∃ p, m.server.game.world.getPlayer 0 = some p ∧ m.me = p.me) ∧
    m'.me.pos = ⟨2, 0⟩ ∧
      ∃ p, m'.server.game.world.getPlayer 0 = some p ∧ m'.me = { p.me with pos := m'.me.pos } := by
  intro m m'
  have hplayers : [m, m'].map (fun m => (m.server.game.world.getPlayer 0).map (·.session)) =
      [some 0, some 0] := by decide +kernel
  obtain ⟨hplayer, hplayers⟩ := List.cons.inj hplayers
  obtain ⟨p, hp, hs⟩ := Option.map_eq_some_iff.mp hplayer
  obtain ⟨p', hp', hs'⟩ := Option.map_eq_some_iff.mp (List.cons.inj hplayers).1
  have hok : Along step (Serves Server.PlacementOk) beginner bittenInStep := by decide +kernel
  have hok' : Along step (Serves Server.PlacementOk) newcomer tooSoon := by decide +kernel
  have hknows := client_me_run (hok.mono fun _ _ h => h.mono fun _ _ hplace =>
    Server.diesOnTile_of_placementOk hplace 0) (by decide +kernel) 0 p hp hs
  have hknows' := client_me_run (hok'.mono fun _ _ h => h.mono fun _ _ hplace =>
    Server.diesOnTile_of_placementOk hplace 0) (by decide +kernel) 0 p' hp' hs'
  exact ⟨⟨by decide +kernel, p, hp, hknows.2 (by decide +kernel)⟩, by decide +kernel, p', hp',
    hknows'.1⟩

end Playing

end Mmorpg
