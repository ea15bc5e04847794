/-
Completions and the connections they belong to.

A worker finds the session of a completion by its key, the session id.
`DisconnectSession` puts the id back at once, while the kernel may still hold a
receive or a send of the old connection. When the id is handed out before that
operation has completed and was handled, the completion meets the new connection.
-/
import SimplestMmorpg.Lib.Transition
import SimplestMmorpg.Network.IocpTable

set_option autoImplicit false

namespace Mmorpg.IocpServer

open Transition

variable {s s' : IocpServer} {conn d : ConnId} {a : Answers} {c : IoCompletion} {e : Event}

/-- The completion of an operation of one connection leaves all others as they
are: in the table, not disconnected, with their receive buffer, and with nothing
taken from their send queue. -/
def StaysHome (s : IocpServer) (e : Event) : Prop :=
  ∀ k a c owner, e = .dequeue k a → s.port[k]? = some c → c.conn = some owner →
    ∀ d o, d ≠ owner → s.objects d = some o →
      (s.step e).sessions o.id = some d ∧ ∃ o', (s.step e).objects d = some o' ∧ ObjKept o o'

/-- The session id that `OnAccept` takes from the pool is the key of no receive
and no send that is in the kernel or waits for a worker. -/
def IdsQuiet (s : IocpServer) : Event → Prop
  | .dequeue k _ =>
    ∀ c, s.port[k]? = some c → c.ok = true → c.ioType = .accept →
      ∀ id rest, s.availableIds = id :: rest →
        (∀ op ∈ s.overlapped, op.key ≠ id) ∧
          ∀ c' ∈ s.port, c'.conn.isSome → c'.key ≠ id
  | _ => True

/-- A session with the key of an operation is the one that started it. -/
structure Homed (s : IocpServer) : Prop where
  table : Table s
  overlapped : ∀ op ∈ s.overlapped, op.ioType ≠ .accept ∧
    ∀ d, s.sessions op.key = some d → d = op.conn
  port : ∀ c ∈ s.port, ∀ owner, c.conn = some owner → c.ioType ≠ .accept ∧
    ∀ d, s.sessions c.key = some d → d = owner

/-! ## What a step does to the sessions and to the port -/

theorem finish_frame (conn : Option ConnId) (r : Except IocpServer IocpServer) :
    (finish conn r).sessions = (leaves r).sessions ∧
      (finish conn r).objects = (leaves r).objects ∧ (finish conn r).port = (leaves r).port := by
  cases r <;> exact ⟨rfl, rfl, rfl⟩

/-- A session in the table was there before, or was accepted in the step. -/
theorem sessions_step (s : IocpServer) (e : Event) {id : ObjectID}
    (hd : (s.step e).sessions id = some d) :
    s.sessions id = some d ∨ ∃ k a c rest, e = .dequeue k a ∧ s.port[k]? = some c ∧
      c.ok = true ∧ c.ioType = .accept ∧ s.availableIds = id :: rest ∧ d = s.nextConn := by
  cases e with
  | acceptDone ok =>
      simp only [step, acceptDone] at hd
      split at hd <;> exact .inl hd
  | ioDone k ok bytes =>
      simp only [step, ioDone] at hd
      split at hd
      · exact .inl hd
      · next op _ =>
          left
          split at hd
          · rwa [← (serves_store s op.conn (s.delivered op bytes)).sessions]
          · exact hd
  | dequeue k a =>
      cases hc : s.port[k]? with
      | none =>
          rw [step, dequeue_of_none hc] at hd
          exact .inl hd
      | some c =>
          have hdone := dequeue_of_some (a := a) hc
          rw [step] at hd
          -- a session comes with an accept and goes with a failure
          generalize s.dequeue k a = s' at hdone hd
          cases hdone with
          | ignored => exact .inl hd
          | accepted hok ht =>
              rw [(finish_frame _ _).1] at hd
              rcases onAccept_spec { s with port := s.port.eraseIdx k } a with
                ⟨-, heq⟩ | ⟨i, rest, m, havail, hs, -, heq⟩
              · rw [heq, leaves, (postAccept_frame _ _).2.1] at hd
                exact .inl hd
              · rw [heq, leaves, (postAccept_frame _ _).2.1, hs.sessions,
                  sessions_openSession] at hd
                split at hd
                · next hi =>
                    exact .inr ⟨k, a, c, rest, rfl, hc, hok, ht, by rw [hi]; exact havail,
                      (Option.some.inj hd).symm⟩
                · exact .inl hd
          | failed conn =>
              left
              rw [(finish_frame _ _).1] at hd
              have hspec := disconnectSession_spec conn { s with port := s.port.eraseIdx k } a
              generalize disconnectSession _ conn a = r at hspec hd
              cases hspec with
              | absent => exact hd
              | marked => exact hd
              | stuck o ho s' hs => exact hs.sessions ▸ hd
              | removed o ho m hs =>
                  rw [leaves, sessions_freeSession] at hd
                  split at hd
                  · exact absurd hd (by simp)
                  · exact hs.sessions ▸ hd
          | received conn =>
              rw [(finish_frame _ _).1, (serves_onRecvComplete _ _ _ _).sessions] at hd
              exact .inl hd
          | sent conn =>
              rw [(finish_frame _ _).1, (serves_onSendComplete _ _ _).sessions] at hd
              exact .inl hd
  | game login sends =>
      obtain ⟨players, hplayer⟩ := addPlayer_frame s login
      rw [step, (finish_frame _ _).1, (serves_sendAll 0 sends _).sessions, hplayer] at hd
      exact .inl hd

/-- A completion in the port was there before, or the kernel has put it there. -/
theorem port_step (s : IocpServer) (e : Event) :
    ∀ c ∈ (s.step e).port, c ∈ s.port ∨ c.conn = none ∨
      ∃ op ∈ s.overlapped, c.ioType = op.ioType ∧ c.key = op.key ∧ c.conn = some op.conn := by
  cases e with
  | acceptDone ok =>
      simp only [step, acceptDone]
      split
      · exact fun c hc => .inl hc
      · intro c hc
        rcases List.mem_append.mp hc with hc | hc
        · exact .inl hc
        · rw [List.mem_singleton.mp hc]
          exact .inr (.inl rfl)
  | ioDone k ok bytes =>
      simp only [step, ioDone]
      split
      · exact fun c hc => .inl hc
      · next op hop =>
          have hstore := (serves_store s op.conn (s.delivered op bytes)).port
          intro c hc
          -- the bytes go to the ring buffer of the session, not to the port
          have hport : (if (ok && s.socketOpen op.conn) = true ∧ op.ioType = .recv then
              s.store op.conn (s.delivered op bytes) else s).port = s.port := by
            split
            · exact hstore
            · rfl
          rcases List.mem_append.mp hc with hc | hc
          · exact .inl (hport ▸ hc)
          · rw [List.mem_singleton.mp hc]
            exact .inr (.inr ⟨op, List.mem_of_getElem? hop, rfl, rfl, rfl⟩)
  | dequeue k a =>
      cases hc : s.port[k]? with
      | none =>
          rw [step, dequeue_of_none hc]
          exact fun c hc => .inl hc
      | some c =>
          have hdone := dequeue_of_some (a := a) hc
          -- a worker takes one completion out and puts none in
          have hport : (s.step (.dequeue k a)).port = s.port.eraseIdx k := by
            rw [step]
            generalize s.dequeue k a = s' at hdone ⊢
            cases hdone with
            | ignored => rfl
            | accepted =>
                rw [(finish_frame _ _).2.2]
                rcases onAccept_spec { s with port := s.port.eraseIdx k } a with
                  ⟨-, heq⟩ | ⟨i, rest, m, havail, hs, -, heq⟩
                · rw [heq, leaves, (postAccept_frame _ _).2.2.2]
                · rw [heq, leaves, (postAccept_frame _ _).2.2.2, hs.port]
                  rfl
            | failed conn =>
                rw [(finish_frame _ _).2.2]
                have hspec := disconnectSession_spec conn { s with port := s.port.eraseIdx k } a
                generalize disconnectSession _ conn a = r at hspec ⊢
                cases hspec with
                | absent => rfl
                | marked => rfl
                | stuck o ho s' hs => exact hs.port
                | removed o ho m hs => exact hs.port
            | received conn =>
                rw [(finish_frame _ _).2.2, (serves_onRecvComplete _ _ _ _).port]
            | sent conn =>
                rw [(finish_frame _ _).2.2, (serves_onSendComplete _ _ _).port]
          rw [hport]
          exact fun c' hc' => .inl (mem_of_mem_eraseIdx hc')
  | game login sends =>
      obtain ⟨players, hplayer⟩ := addPlayer_frame s login
      rw [step, (finish_frame _ _).2.2, (serves_sendAll 0 sends _).port, hplayer]
      exact fun c hc => .inl hc

/-! ## One step -/

theorem homed_step (s : IocpServer) (e : Event) (h : Homed s) (hquiet : IdsQuiet s e) :
    Homed (s.step e) := by
  -- a key that is in use is not handed out
  have hkept : ∀ (key : ObjectID) (owner : ConnId),
      (∀ d, s.sessions key = some d → d = owner) →
      ((∃ op ∈ s.overlapped, op.key = key) ∨ ∃ c ∈ s.port, c.conn.isSome ∧ c.key = key) →
        ∀ d, (s.step e).sessions key = some d → d = owner := by
    intro key owner hown huse d hd
    rcases sessions_step s e hd with hold | ⟨k, a, c, rest, rfl, hc, hok, ht, havail, -⟩
    · exact hown d hold
    · obtain ⟨hops, hport⟩ := hquiet c hc hok ht key rest havail
      rcases huse with ⟨op, hop, hkey⟩ | ⟨c', hc', hconn, hkey⟩
      · exact absurd hkey (hops op hop)
      · exact absurd hkey (hport c' hc' hconn)
  refine ⟨table_step s e h.table, fun op hop => ?_, fun c hc owner howner => ?_⟩
  · rcases overlapped_step s e op hop with hold | ⟨hkind, hnew⟩
    · obtain ⟨hkind, hown⟩ := h.overlapped op hold
      exact ⟨hkind, hkept op.key op.conn hown (.inl ⟨op, hold, rfl⟩)⟩
    · refine ⟨hkind, fun d hd => ?_⟩
      rcases hnew with ⟨o, ho, hid⟩ | ⟨hconn, rest, havail⟩
      · have hslot := h.table.session op.conn o ho
        rw [hid] at hslot
        rcases sessions_step s e hd with hold | ⟨_, _, _, rest, -, -, -, -, havail, -⟩
        · exact Option.some.inj (hold.symm.trans hslot)
        · have hnone := h.table.available op.key (by rw [havail]; exact List.mem_cons_self)
          exact absurd (hnone.symm.trans hslot) (by simp)
      · have hnone := h.table.available op.key (by rw [havail]; exact List.mem_cons_self)
        rcases sessions_step s e hd with hold | ⟨_, _, _, _, -, -, -, -, -, hnext⟩
        · exact absurd (hnone.symm.trans hold) (by simp)
        · rw [hnext, hconn]
  · rcases port_step s e c hc with hold | hnone | ⟨op, hop, hkind, hkey, hconn⟩
    · obtain ⟨hkind, hown⟩ := h.port c hold owner howner
      exact ⟨hkind, hkept c.key owner hown (.inr ⟨c, hold, by rw [howner]; rfl, rfl⟩)⟩
    · exact absurd (hnone.symm.trans howner) (by simp)
    · obtain ⟨hk, hown⟩ := h.overlapped op hop
      obtain rfl := Option.some.inj (hconn.symm.trans howner)
      rw [hkind, hkey]
      exact ⟨hk, hkept op.key op.conn hown (.inl ⟨op, hop, rfl⟩)⟩

/-- Seen from another connection, a handler that serves one changes little. -/
theorem Serves.staysHome (ht : Table s) (h : Serves conn s s') {d : ConnId} {o : SessionObj}
    (hd : d ≠ conn) (ho : s.objects d = some o) :
    s'.sessions o.id = some d ∧ ∃ o', s'.objects d = some o' ∧ ObjKept o o' := by
  rw [h.sessions]
  exact ⟨ht.session d o ho, h.others d o hd ho⟩

/-- **One step**: where sessions and operations belong together, a completion
reaches its own connection or none. -/
theorem staysHome_step (h : Homed s) (e : Event) : StaysHome s e := by
  rintro k a c owner rfl hc howner d o hd ho
  obtain ⟨hkind, hown⟩ := h.port c (List.mem_of_getElem? hc) owner howner
  have ht : Table { s with port := s.port.eraseIdx k } :=
    ⟨h.table.nodup, h.table.available, h.table.object, h.table.session, h.table.fresh,
      h.table.player⟩
  have hdone := dequeue_of_some (a := a) hc
  rw [step]
  generalize s.dequeue k a = s' at hdone ⊢
  cases hdone with
  | ignored => exact ⟨h.table.session d o ho, o, ho, .refl o⟩
  | accepted _ hacc => exact absurd hacc hkind
  | failed conn hs =>
      obtain rfl := hown conn hs
      rw [(finish_frame _ _).1, (finish_frame _ _).2.1]
      have hspec := disconnectSession_spec conn { s with port := s.port.eraseIdx k } a
      generalize disconnectSession _ conn a = r at hspec ⊢
      cases hspec with
      | absent => exact ⟨h.table.session d o ho, o, ho, .refl o⟩
      | marked => exact ⟨h.table.session d o ho, o, ho, .refl o⟩
      | stuck r hr s' hserves => exact hserves.staysHome ht hd ho
      | removed r hr m hserves =>
          obtain ⟨hslot, o', ho', hkept⟩ := hserves.staysHome ht hd ho
          have hne : o.id ≠ r.id := by
            intro heq
            have hslot' := ht.session d o ho
            rw [heq, ht.session conn r hr] at hslot'
            exact hd (Option.some.inj hslot').symm
          refine ⟨?_, o', ?_, hkept⟩
          · rw [leaves, sessions_freeSession, if_neg hne, hslot]
          · rw [leaves, objects_freeSession, if_neg hd, ho']
  | received conn hs =>
      obtain rfl := hown conn hs
      rw [(finish_frame _ _).1, (finish_frame _ _).2.1]
      exact (serves_onRecvComplete conn _ _ a).staysHome ht hd ho
  | sent conn hs =>
      obtain rfl := hown conn hs
      rw [(finish_frame _ _).1, (finish_frame _ _).2.1]
      exact (serves_onSendComplete conn _ a).staysHome ht hd ho

/-! ## Whole runs -/

theorem homed_init (r : WsaResult) : Homed (init r) := by
  refine ⟨table_init r, fun op hop => ?_, fun c hc => ?_⟩
  · rw [init, (postAccept_frame _ _).1] at hop
    exact absurd hop List.not_mem_nil
  · rw [init, (postAccept_frame _ _).2.2.2] at hc
    exact absurd hc List.not_mem_nil

/-- **Completions stay with their connection in every run that hands out an id
only when nothing of its last connection is left**: for every order of every
number of steps. -/
theorem staysHome_run {r : WsaResult} {es : List Event}
    (hquiet : Along step IdsQuiet (init r) es) : Along step StaysHome (init r) es :=
  Along.of_invariant homed_step (fun _ e h _ => staysHome_step h e) (homed_init r) hquiet

/-- One client is accepted, and its connection is broken by the first receive. -/
theorem staysHome_run_oneClient :
    Along step StaysHome (init .pending)
      [.acceptDone true, .dequeue 0 .plain, .ioDone 0 true [], .dequeue 0 .plain] := by
  apply staysHome_run
  refine ⟨trivial, ?_, trivial, ?_, trivial⟩
  · -- nothing but the accept is outstanding
    intro c _ _ _ id rest _
    refine ⟨fun op hop => absurd hop List.not_mem_nil, fun c' hc' hconn => ?_⟩
    rw [List.mem_singleton.mp hc'] at hconn
    exact absurd hconn (by decide)
  · intro c hc _ haccept
    rw [← Option.some.inj hc] at haccept
    exact absurd haccept (by decide)

/-! ## An id that comes back too soon -/

/-- A client is accepted. -/
def newClient : List Event := [.acceptDone true, .dequeue 0 .plain]

/-- A client is sent a packet, and is gone before the send completes. -/
def leaveUnsent : List Event :=
  newClient ++ [.game none [⟨0, [1], .pending⟩], .ioDone 0 true [], .dequeue 0 .plain]

/-- The send to the first client is in the kernel, and no worker is needed. -/
structure Waiting (s : IocpServer) (ids : List ObjectID) : Prop where
  port : s.port = []
  acceptsPosted : s.acceptsPosted = 1
  availableIds : s.availableIds = ids
  send : s.overlapped[0]? = some ⟨.send, 0, 0⟩
  gone : s.objects 0 = none
  next : s.nextConn ≠ 0

theorem onAccept_plain {id : ObjectID} {ids : List ObjectID}
    (havail : s.availableIds = id :: ids) :
    s.onAccept .plain = .ok { s.openSession id ids with
      overlapped := s.overlapped ++ [⟨.recv, id, s.nextConn⟩]
      acceptsPosted := s.acceptsPosted + 1 } := by
  have hnew := (objects_openSession s id ids s.nextConn).trans (if_pos rfl)
  rw [onAccept, havail]
  dsimp only
  rw [postRecv, hnew]
  rfl

theorem dequeue_accept {id : ObjectID} {ids : List ObjectID}
    (hport : s.port = [⟨true, .accept, 0, [], none⟩]) (havail : s.availableIds = id :: ids) :
    s.dequeue 0 .plain = { s.openSession id ids with
      overlapped := s.overlapped ++ [⟨.recv, id, s.nextConn⟩]
      acceptsPosted := s.acceptsPosted + 1
      port := [] } := by
  rw [dequeue, hport]
  exact congrArg (finish none) (onAccept_plain (s := { s with port := [] }) havail)

theorem waiting_newClient {id : ObjectID} {ids : List ObjectID} (h : Waiting s (id :: ids)) :
    Waiting (run step s newClient) ids ∧
      (run step s newClient).sessions id = some s.nextConn ∧
      (run step s newClient).objects s.nextConn = some ⟨id, .init fun _ => 0, .init, false⟩ := by
  obtain ⟨hport, hposted, havail, hsend, hgone, hnext⟩ := h
  have hrun : run step s newClient = { s.openSession id ids with
      overlapped := s.overlapped ++ [⟨.recv, id, s.nextConn⟩]
      acceptsPosted := 1
      port := [] } := by
    rw [newClient, run_cons, run_cons, run_nil, step, acceptDone,
      if_neg (by rw [hposted]; exact Nat.one_ne_zero), hposted, hport, step]
    exact dequeue_accept (s := { s with
      acceptsPosted := 0
      port := [⟨true, .accept, 0, [], none⟩] }) rfl havail
  rw [hrun]
  refine ⟨⟨rfl, rfl, rfl, ?_, ?_, Nat.succ_ne_zero _⟩, ?_, ?_⟩
  · obtain ⟨hlen, -⟩ := List.getElem?_eq_some_iff.mp hsend
    rw [List.getElem?_append_left hlen, hsend]
  · rw [← hgone]
    exact (objects_openSession s id ids 0).trans (if_neg (Ne.symm hnext))
  · exact (sessions_openSession s id ids id).trans (if_pos rfl)
  · exact (objects_openSession s id ids _).trans (if_pos rfl)

theorem leaveUnsent_end : Waiting (run step (init .pending) leaveUnsent)
    (List.range' 1 14999 ++ [0]) :=
  ⟨rfl, rfl, rfl, rfl, rfl, Nat.one_ne_zero⟩

/-- Clients are accepted as long as there are ids. -/
theorem waiting_newClients {s : IocpServer} {i rest : List ObjectID}
    (h : Waiting s (i ++ rest)) :
    Waiting (run step s (List.replicate i.length newClient).flatten) rest := by
  induction i generalizing s with
  | nil => exact h
  | cons id i ih =>
      rw [List.length_cons, List.replicate_succ, List.flatten_cons, run_append]
      exact ih (waiting_newClient h).1

/-- A session on which nothing was sent can always be ended. -/
theorem disconnectSession_fresh {id : ObjectID}
    (ho : s.objects d = some ⟨id, .init fun _ => 0, .init, false⟩) :
    ∃ s', s.disconnectSession d .plain = .ok s' ∧ s'.sessions id = none := by
  have hmarked := (objects_setObject s d ⟨id, .init fun _ => 0, .init, true⟩ d).trans (if_pos rfl)
  rw [disconnectSession, ho]
  dsimp only
  rw [if_neg (by simp)]
  generalize s.setObject d ⟨id, .init fun _ => 0, .init, true⟩ = m at hmarked ⊢
  obtain ⟨t, ht, hobj⟩ : ∃ t, m.processDisconnect id Answers.plain.sends = .ok t ∧
      t.objects d = some ⟨id, .init fun _ => 0, .init, true⟩ := by
    rw [processDisconnect]
    split
    · exact ⟨m, rfl, hmarked⟩
    · exact ⟨_, rfl, hmarked⟩
  obtain ⟨u, hu⟩ : ∃ u, t.close d = .ok u := by
    rw [close, withSender, hobj]
    exact ⟨_, rfl⟩
  simp only [bind, Except.bind]
  rw [ht]
  dsimp only
  rw [hu]
  exact ⟨_, rfl, (sessions_freeSession u d id id).trans (if_pos rfl)⟩

theorem ioDone_send (h : Waiting s []) : s.step (.ioDone 0 false []) = { s with
    overlapped := s.overlapped.eraseIdx 0
    port := [⟨false, .send, 0, [], some 0⟩] } := by
  rw [step, ioDone, h.send]
  dsimp only [Bool.false_and]
  rw [if_neg (by simp), h.port]
  rfl

/-- The send completes, as failed, for the connection that has the id now. -/
theorem late_send (h : Waiting s []) (hslot : s.sessions 0 = some d)
    (ho : s.objects d = some ⟨0, .init fun _ => 0, .init, false⟩) :
    (run step s [.ioDone 0 false [], .dequeue 0 .plain]).sessions 0 = none := by
  rw [run_cons, run_cons, run_nil, ioDone_send h]
  obtain ⟨t, ht, hgone⟩ := disconnectSession_fresh (s := { s with
    overlapped := s.overlapped.eraseIdx 0
    port := [] }) ho
  rw [step, dequeue]
  dsimp only [List.getElem?_cons_zero, List.eraseIdx_cons_zero]
  rw [handleCompletion, if_pos (.inl rfl)]
  dsimp only
  rw [hslot]
  dsimp only
  rw [ht]
  exact hgone

/-- Whatever happened before, the late send disconnects the connection that has
the id now. -/
theorem not_staysHome_late {es : List Event} (hfill : Waiting (run step (init .pending) es) [0]) :
    ¬ Along step StaysHome (init .pending)
      (es ++ (newClient ++ [.ioDone 0 false [], .dequeue 0 .plain])) := by
  intro hdone
  obtain ⟨hwait, hslot, ho⟩ := waiting_newClient hfill
  have hlate := late_send hwait hslot ho
  rw [along_append, along_append] at hdone
  obtain ⟨-, -, -, hstays, -⟩ := hdone
  have hc : ((run step (run step (init .pending) es) newClient).step
      (.ioDone 0 false [])).port[0]? = some ⟨false, .send, 0, [], some 0⟩ := by
    rw [ioDone_send hwait]
    rfl
  have hother := hstays 0 .plain _ 0 rfl hc rfl _ _ hfill.next (by rw [ioDone_send hwait]; exact ho)
  exact absurd (hlate.symm.trans hother.1) (by simp)

/-- The first client leaves, and the ids are used up until its own comes back. -/
def lateSend : List Event := leaveUnsent ++ (List.replicate 14999 newClient).flatten

theorem lateSend_end : Waiting (run step (init .pending) lateSend) [0] := by
  have hfill := waiting_newClients (i := List.range' 1 14999) leaveUnsent_end
  rw [List.length_range'] at hfill
  rw [lateSend, run_append]
  exact hfill

/-- The late send of the first client disconnects another. -/
theorem not_always_staysHome :
    ¬ ∀ (es : List Event), Along step StaysHome (init .pending) es :=
  fun hall => not_staysHome_late lateSend_end (hall _)

end Mmorpg.IocpServer
