/-
Connections that nobody waits for.

A player is removed only when a completion of its connection comes to
`DisconnectSession`, so every open session should have a receive in the kernel or
in the port. `Session::Close`, called where `WSARecv` fails at once, knows nothing
of the table: it closes the socket, and no completion will come.

A failed `WSASend` also closes the socket, but it does so under the mutex, and
what closes the socket a second time then waits for ever. So the socket of an open
session that no handler works on is closed only by a failed `WSARecv`; `latched`
below is the part of this that the proofs need. But when the handler that waits for
ever is the session's own, its receive is gone with it, and the player stays: so
the sends have to be accepted too (`Live`).
-/
import SimplestMmorpg.Network.Dispatch

set_option autoImplicit false

namespace Mmorpg

namespace Sender

variable {s : Sender} {packet : Bytes} {r : WsaResult}

/-- The socket is open, or the mutex is taken for good. -/
def latched (s : Sender) : Prop := s.socketOpen = true ∨ s.sendMutex = true

/-- What every call on the send side does to these two. -/
structure Latches (s t : Sender) : Prop where
  closed : s.socketOpen = false → t.socketOpen = false
  latched : s.latched → t.latched

theorem latches_exec (s : Sender) (call : Call) : Latches s (leaves (s.exec call)) := by
  by_cases hlocked : s.sendMutex = true
  · rw [exec_of_locked hlocked]
    exact ⟨fun h => h, fun h => h⟩
  · have hfree : s.sendMutex = false := by simpa using hlocked
    by_cases hfails : s.FailsAtOnce call
    · obtain ⟨t, ht, hmutex, -, hclosed⟩ := exec_of_fails hfree hfails
      rw [ht]
      exact ⟨fun _ => hclosed, fun _ => .inr hmutex⟩
    · obtain ⟨t, ht, -, hsocket⟩ := exec_of_not_fails hfree hfails
      rw [ht]
      refine ⟨fun h => hsocket.trans h, fun h => ?_⟩
      rcases h with hopen | htaken
      · exact .inl (hsocket.trans hopen)
      · exact absurd htaken hlocked

/-- Without the mutex, `Close` does not come back. -/
theorem close_of_locked (h : s.sendMutex = true) :
    s.close = .error { s with socketOpen := false } := by
  rw [close, lock, if_pos (show _ = true from h)]
  rfl

end Sender

namespace IocpServer

open Transition

variable {s s' s'' : IocpServer} {conn d : ConnId} {a : Answers} {c : IoCompletion} {e : Event}

/-- A receive of the connection is in the kernel, or its completion waits for a worker. -/
def Awaited (s : IocpServer) (conn : ConnId) (id : ObjectID) : Prop :=
  (∃ op ∈ s.overlapped, op.ioType = .recv ∧ op.key = id ∧ op.conn = conn) ∨
    ∃ c ∈ s.port, c.ioType = .recv ∧ c.key = id ∧ c.conn = some conn

/-- Unless one of its handlers is executing, a session in the table that is not
marked is awaited. A player is awaited as soon as its socket is closed, also when a
handler of its session is executing and never comes back. -/
structure NoOrphan (s : IocpServer) : Prop where
  session : ∀ id conn o, s.sessions id = some conn → conn ∉ s.executing →
    s.objects conn = some o → o.disconnected = false → s.Awaited conn id
  player : ∀ id conn, s.players id = some conn →
    s.Awaited conn id ∨ conn ∈ s.executing ∧ s.socketOpen conn = true

/-- No `WSARecv` on an open socket fails at once. -/
def RecvsAccepted (s : IocpServer) : Event → Prop
  | .dequeue k a =>
    ∀ c, s.port[k]? = some c → c.ok = true → a.wsa = .error →
      (c.ioType = .accept → s.availableIds = []) ∧
        (c.ioType = .recv → c.bytes ≠ [] → ∀ conn o, s.sessions c.key = some conn →
          s.objects conn = some o → o.sender.socketOpen = false)
  | _ => True

/-- No `WSASend` that a handler makes fails at once. -/
def SendsAccepted (s : IocpServer) : Event → Prop
  | .dequeue k a => (∀ req ∈ a.sends, req.result ≠ .error) ∧
    ∀ c, s.port[k]? = some c → c.ok = true → c.ioType = .send → a.wsa ≠ .error
  | .game _ sends => ∀ req ∈ sends, req.result ≠ .error
  | _ => True

/-- The invariant of a run whose receives are accepted; `but` is the connection
whose receive has just been taken from the port. -/
structure Attended (but : Option ConnId) (s : IocpServer) : Prop where
  table : Table s
  latched : ∀ conn o, s.objects conn = some o → o.sender.latched
  marked : ∀ conn o, s.objects conn = some o → o.disconnected = true → conn ∈ s.executing
  awaited : ∀ conn o, s.objects conn = some o → o.disconnected = false → conn ∉ s.executing →
    but ≠ some conn → s.Awaited conn o.id

/-! ## The send side of the sessions -/

/-- A session that is there after a handler was there before; it was not marked
meanwhile, and it does not lose both its socket and its mutex. -/
def KeepsAt (d : ConnId) (s s' : IocpServer) : Prop :=
  ∀ o', s'.objects d = some o' → ∃ o, s.objects d = some o ∧ o'.id = o.id ∧
    o'.disconnected = o.disconnected ∧ o.sender.Latches o'.sender

def Keeps (s s' : IocpServer) : Prop := ∀ d, KeepsAt d s s'

theorem KeepsAt.refl (d : ConnId) (s : IocpServer) : KeepsAt d s s :=
  fun o ho => ⟨o, ho, rfl, rfl, fun h => h, fun h => h⟩

theorem Keeps.refl (s : IocpServer) : Keeps s s := fun d => .refl d s

theorem KeepsAt.trans (h : KeepsAt d s s') (h' : KeepsAt d s' s'') : KeepsAt d s s'' := by
  intro o'' ho''
  obtain ⟨o', ho', hid', hmark', hclosed', hlatched'⟩ := h' o'' ho''
  obtain ⟨o, ho, hid, hmark, hclosed, hlatched⟩ := h o' ho'
  exact ⟨o, ho, hid'.trans hid, hmark'.trans hmark, fun h => hclosed' (hclosed h),
    fun h => hlatched' (hlatched h)⟩

theorem Keeps.trans (h : Keeps s s') (h' : Keeps s' s'') : Keeps s s'' :=
  fun d => (h d).trans (h' d)

theorem keeps_setObject {o r : SessionObj} (ho : s.objects conn = some o) (hid : r.id = o.id)
    (hmark : r.disconnected = o.disconnected) (hsender : o.sender.Latches r.sender) :
    Keeps s (s.setObject conn r) := by
  intro d o' ho'
  rw [objects_setObject] at ho'
  split at ho'
  · next hd =>
      obtain rfl := Option.some.inj ho'
      exact ⟨o, hd ▸ ho, hid, hmark, hsender⟩
  · exact KeepsAt.refl d s o' ho'

/-- The object of another connection is not touched at all. -/
theorem keepsAt_setObject (s : IocpServer) (o' : SessionObj) (hd : d ≠ conn) :
    KeepsAt d s (s.setObject conn o') := by
  intro r hr
  rw [objects_setObject, if_neg hd] at hr
  exact KeepsAt.refl d s r hr

theorem keeps_withSender (conn : ConnId) (s : IocpServer) {f : Sender → Except Sender Sender}
    (hf : ∀ o, s.objects conn = some o → o.sender.Latches (Sender.leaves (f o.sender))) :
    Keeps s (leaves (s.withSender conn f)) := by
  unfold withSender
  split
  · exact .refl s
  · next o ho =>
      have hsender := hf o ho
      split
      · next t ht =>
          rw [ht] at hsender
          exact keeps_setObject (r := { o with sender := t }) ho rfl rfl hsender
      · next t ht =>
          rw [ht] at hsender
          exact keeps_setObject (r := { o with sender := t }) ho rfl rfl hsender

theorem keeps_sendAll (reqs : List SendReq) (s : IocpServer) :
    Keeps s (leaves (sendAll reqs s)) := by
  induction reqs generalizing s with
  | nil => exact .refl s
  | cons req reqs ih =>
      have hone : Keeps s (leaves (s.sendTo req)) :=
        keeps_withSender req.conn s fun o _ =>
          o.sender.latches_exec (.sendPacket req.packet req.result)
      rw [sendAll]
      simp only [bind, Except.bind]
      cases h : s.sendTo req with
      | error t =>
          rw [h] at hone
          exact hone
      | ok t =>
          rw [h] at hone
          exact hone.trans (ih t)

theorem keeps_onSendComplete (conn : ConnId) (s : IocpServer) (a : Answers) :
    Keeps s (leaves (s.onSendComplete conn a)) :=
  keeps_withSender conn s fun o _ => o.sender.latches_exec (.onSendComplete a.wsa)

/-- **A receive is posted, or the call does not return.** -/
theorem keeps_postRecv {o : SessionObj} {r : WsaResult} (ho : s.objects conn = some o)
    (hlatched : o.sender.latched) (hr : o.sender.socketOpen = true → r ≠ .error) :
    Keeps s (leaves (s.postRecv conn r)) ∧
      ∀ t, s.postRecv conn r = .ok t → t.overlapped = s.overlapped ++ [⟨.recv, o.id, conn⟩] := by
  unfold postRecv
  rw [ho]
  dsimp only
  by_cases herr : o.sender.answer r = .error
  · -- the socket is closed, so the mutex is taken and `Close` waits for it
    have hclosed : o.sender.socketOpen = false := by
      by_contra hopen
      have hopen : o.sender.socketOpen = true := by simpa using hopen
      rw [Sender.answer, if_pos hopen] at herr
      exact hr hopen herr
    have htaken : o.sender.sendMutex = true := by
      rcases hlatched with hopen | htaken
      · exact absurd (hclosed.symm.trans hopen) Bool.false_ne_true
      · exact htaken
    rw [if_pos herr]
    constructor
    · refine keeps_withSender conn s fun o' ho' => ?_
      obtain rfl := Option.some.inj (ho.symm.trans ho')
      rw [Sender.close_of_locked htaken]
      exact ⟨fun _ => rfl, fun _ => .inr htaken⟩
    · intro t ht
      rw [close, withSender, ho] at ht
      dsimp only at ht
      rw [Sender.close_of_locked htaken] at ht
      exact absurd ht (by simp)
  · rw [if_neg herr]
    refine ⟨.refl s, fun t ht => ?_⟩
    rw [← Except.ok.inj ht]

/-- The same for the handler that posts it. -/
theorem keeps_onRecvComplete {o : SessionObj} (bytes : ℕ) (ho : s.objects conn = some o)
    (hlatched : o.sender.latched) (hr : o.sender.socketOpen = true → a.wsa ≠ .error) :
    Keeps s (leaves (s.onRecvComplete conn bytes a)) ∧
      ∀ t, s.onRecvComplete conn bytes a = .ok t → ⟨.recv, o.id, conn⟩ ∈ t.overlapped := by
  have hset : ∀ rb : RingBuffer, Keeps s (s.setObject conn { o with recvBuffer := rb }) :=
    fun _ => keeps_setObject ho rfl rfl ⟨fun h => h, fun h => h⟩
  unfold onRecvComplete
  rw [ho]
  dsimp only
  split
  · next st _ =>
      have hsends := keeps_sendAll a.sends (s.setObject conn { o with recvBuffer := st.recvBuffer })
      have hserves := serves_sendAll conn a.sends
        (s.setObject conn { o with recvBuffer := st.recvBuffer })
      simp only [bind, Except.bind]
      split
      · next t ht =>
          rw [ht] at hsends
          exact ⟨(hset _).trans hsends, fun u hu => absurd hu (by simp)⟩
      · next t ht =>
          rw [ht] at hsends hserves
          obtain ⟨o', ho', -⟩ := hserves.own _ ((objects_setObject _ _ _ _).trans (if_pos rfl))
          obtain ⟨o₁, ho₁, hid, -, hclosed, hlatched'⟩ := hsends conn o' ho'
          rw [objects_setObject, if_pos rfl] at ho₁
          obtain rfl := Option.some.inj ho₁
          have hopen : o'.sender.socketOpen = true → a.wsa ≠ .error := by
            intro hopen
            apply hr
            by_contra hshut
            have hshut := hclosed (by simpa using hshut)
            exact absurd (hshut.symm.trans hopen) Bool.false_ne_true
          obtain ⟨hkeeps, hposted⟩ := keeps_postRecv ho' (hlatched' hlatched) hopen
          refine ⟨((hset _).trans hsends).trans hkeeps, fun u hu => ?_⟩
          rw [hposted u hu, hid]
          exact List.mem_append_right _ List.mem_cons_self
  · exact ⟨hset _, fun u hu => absurd hu (by simp)⟩

theorem keeps_processDisconnect (s : IocpServer) (id : ObjectID) (reqs : List SendReq) :
    Keeps s (leaves (s.processDisconnect id reqs)) := by
  unfold processDisconnect
  split
  · exact .refl s
  · have hsends := keeps_sendAll reqs s
    simp only [bind, Except.bind]
    cases h : sendAll reqs s with
    | error t =>
        rw [h] at hsends
        exact hsends
    | ok t =>
        rw [h] at hsends
        exact hsends

/-- `Close` that does not come back has found the mutex taken. -/
theorem keeps_close (conn : ConnId) (s : IocpServer) :
    (∀ d, d ≠ conn → KeepsAt d s (leaves (s.close conn))) ∧
      ∀ t, s.close conn = .error t → Keeps s t := by
  unfold close withSender
  split
  · exact ⟨fun d _ => .refl d s, fun t ht => absurd ht (by simp)⟩
  · next o ho =>
      split
      · next t ht =>
          exact ⟨fun d hd => keepsAt_setObject s _ hd, fun u hu => absurd hu (by simp)⟩
      · next t ht =>
          refine ⟨fun d hd => keepsAt_setObject s _ hd, fun u hu => ?_⟩
          rw [← Except.error.inj hu]
          refine keeps_setObject (r := { o with sender := t }) ho rfl rfl ?_
          by_cases htaken : o.sender.sendMutex = true
          · rw [Sender.close_of_locked htaken] at ht
            rw [← Except.error.inj ht]
            exact ⟨fun _ => rfl, fun _ => .inr htaken⟩
          · rw [Sender.close, Sender.lock, if_neg htaken] at ht
            exact absurd ht (by simp [bind, Except.bind, pure, Except.pure])

/-- What `DisconnectSession` does to the others, and to its own session when it
does not come to its end. -/
theorem keeps_disconnectSession (conn : ConnId) (s : IocpServer) (a : Answers) :
    (∀ d, d ≠ conn → KeepsAt d s (leaves (s.disconnectSession conn a))) ∧
      ∀ t, s.disconnectSession conn a = .error t →
        ∀ o', t.objects conn = some o' → ∃ o, s.objects conn = some o ∧
          o.sender.Latches o'.sender := by
  unfold disconnectSession
  split
  · exact ⟨fun d _ => .refl d s, fun t ht => absurd ht (by simp)⟩
  · next o ho =>
      split
      · exact ⟨fun d _ => .refl d s, fun t ht => absurd ht (by simp)⟩
      · have hgame := keeps_processDisconnect (s.setObject conn { o with disconnected := true })
          o.id a.sends
        have hset : ∀ d, d ≠ conn → KeepsAt d s (s.setObject conn { o with disconnected := true }) :=
          fun d hd => keepsAt_setObject s _ hd
        -- the session itself was marked before
        have hown : ∀ t, Keeps (s.setObject conn { o with disconnected := true }) t →
            ∀ o', t.objects conn = some o' → ∃ o, s.objects conn = some o ∧
              o.sender.Latches o'.sender := by
          intro t ht o' ho'
          obtain ⟨r, hr, -, -, hlatches⟩ := ht conn o' ho'
          rw [objects_setObject, if_pos rfl] at hr
          obtain rfl := Option.some.inj hr
          exact ⟨o, ho, hlatches⟩
        simp only [bind, Except.bind]
        split
        · next t ht =>
            rw [ht] at hgame
            refine ⟨fun d hd => (hset d hd).trans (hgame d), fun u hu => ?_⟩
            rw [← Except.error.inj hu]
            exact hown t hgame
        · next t ht =>
            rw [ht] at hgame
            obtain ⟨hothers, hstuck⟩ := keeps_close conn t
            split
            · next u hu =>
                rw [hu] at hothers
                refine ⟨fun d hd => ((hset d hd).trans (hgame d)).trans (hothers d hd),
                  fun v hv => ?_⟩
                rw [← Except.error.inj hv]
                exact hown u (hgame.trans (hstuck u hu))
            · next u hu =>
                rw [hu] at hothers
                refine ⟨fun d hd => ?_, fun v hv => absurd hv (by simp [pure, Except.pure])⟩
                have hclosed := ((hset d hd).trans (hgame d)).trans (hothers d hd)
                intro o' ho'
                have ho' : (u.freeSession conn o.id).objects d = some o' := ho'
                rw [objects_freeSession, if_neg hd] at ho'
                exact hclosed o' ho'

/-! ## One step -/

theorem Awaited.mono {id : ObjectID} (h : s.Awaited conn id)
    (hops : ∀ op ∈ s.overlapped, op ∈ s'.overlapped) (hport : ∀ c ∈ s.port, c ∈ s'.port) :
    s'.Awaited conn id := by
  rcases h with ⟨op, hop, hrest⟩ | ⟨c, hc, hrest⟩
  · exact .inl ⟨op, hops op hop, hrest⟩
  · exact .inr ⟨c, hport c hc, hrest⟩

namespace Attended

variable {but : Option ConnId}

theorem weaken (h : Attended none s) : Attended but s :=
  ⟨h.table, h.latched, h.marked, fun conn o ho hm hx _ => h.awaited conn o ho hm hx (by simp)⟩

/-- A handler after which all that was awaited still is. -/
theorem keeps (h : Attended but s) (ht : Table s') (hk : Keeps s s')
    (hawaited : ∀ conn id, s.Awaited conn id → s'.Awaited conn id)
    (hexec : ∀ d ∈ s.executing, d ∈ s'.executing) : Attended but s' where
  table := ht
  latched d o' ho' := by
    obtain ⟨o, ho, -, -, -, hlatched⟩ := hk d o' ho'
    exact hlatched (h.latched d o ho)
  marked d o' ho' hm := by
    obtain ⟨o, ho, -, hmark, -⟩ := hk d o' ho'
    exact hexec d (h.marked d o ho (hmark.symm.trans hm))
  awaited d o' ho' hm hx hne := by
    obtain ⟨o, ho, hid, hmark, -⟩ := hk d o' ho'
    rw [hid]
    exact hawaited d o.id
      (h.awaited d o ho (hmark.symm.trans hm) (fun hd => hx (hexec d hd)) hne)

theorem serves (h : Attended but s) (hs : Serves conn s s') (hk : Keeps s s') :
    Attended but s' := by
  obtain ⟨ops, hops, -⟩ := hs.overlapped
  refine h.keeps (h.table.serves hs) hk (fun d id hw => hw.mono (fun op hop => ?_) fun c hc => ?_)
    fun d hd => ?_
  · rw [hops]
    exact List.mem_append_left _ hop
  · rw [hs.port]
    exact hc
  · rw [hs.executing]
    exact hd

/-- A handler of one connection, after which nothing more is asked of the others
and that one is looked at by itself. -/
theorem handled (h : Attended (some conn) s) (ht : Table s')
    (hk : ∀ d, d ≠ conn → KeepsAt d s s')
    (hops : ∀ op ∈ s.overlapped, op ∈ s'.overlapped) (hport : s'.port = s.port)
    (hexec : ∀ d ∈ s.executing, d ∈ s'.executing)
    (hown : ∀ o', s'.objects conn = some o' → o'.sender.latched ∧
      (conn ∈ s'.executing ∨ o'.disconnected = false ∧ s'.Awaited conn o'.id)) :
    Attended none s' where
  table := ht
  latched d o' ho' := by
    by_cases hd : d = conn
    · exact (hown o' (hd ▸ ho')).1
    · obtain ⟨o, ho, -, -, -, hlatched⟩ := hk d hd o' ho'
      exact hlatched (h.latched d o ho)
  marked d o' ho' hm := by
    by_cases hd : d = conn
    · rcases (hown o' (hd ▸ ho')).2 with hin | ⟨hnot, -⟩
      · exact hd ▸ hin
      · exact absurd (hnot.symm.trans hm) Bool.false_ne_true
    · obtain ⟨o, ho, -, hmark, -⟩ := hk d hd o' ho'
      exact hexec d (h.marked d o ho (hmark.symm.trans hm))
  awaited d o' ho' hm hx _ := by
    by_cases hd : d = conn
    · rcases (hown o' (hd ▸ ho')).2 with hin | ⟨-, hawaited⟩
      · exact absurd (hd ▸ hin) hx
      · exact hd ▸ hawaited
    · obtain ⟨o, ho, hid, hmark, -⟩ := hk d hd o' ho'
      rw [hid]
      refine (h.awaited d o ho (hmark.symm.trans hm) (fun hin => hx (hexec d hin)) ?_).mono hops
        fun c hc => hport ▸ hc
      exact fun heq => hd (Option.some.inj heq).symm

/-- A completion is taken; only the receive of its own session can be missed. -/
theorem taken (h : Attended none s) {k : ℕ} (hc : s.port[k]? = some c) :
    Attended (if c.ioType = .recv then s.sessions c.key else none)
      { s with port := s.port.eraseIdx k } where
  table := ⟨h.table.nodup, h.table.available, h.table.object, h.table.session, h.table.fresh,
    h.table.player⟩
  latched := h.latched
  marked := h.marked
  awaited d o ho hm hx hne := by
    rcases h.awaited d o ho hm hx (by simp) with hop | ⟨c', hc', hkind, hkey, hconn⟩
    · exact .inl hop
    · rcases List.mem_cons.mp ((perm_eraseIdx hc).mem_iff.mp hc') with rfl | hleft
      · rw [if_pos hkind, hkey, h.table.session d o ho] at hne
        exact absurd rfl hne
      · exact .inr ⟨c', hleft, hkind, hkey, hconn⟩

theorem finish {but : Option ConnId} (conn : Option ConnId) {r : Except IocpServer IocpServer}
    (h : Attended but (leaves r)) : Attended but (finish conn r) := by
  cases r with
  | ok t => exact h
  | error t =>
      exact h.keeps (h.table.finish conn (r := .error t)) (.refl t) (fun _ _ hw => hw)
        fun _ hd => List.mem_append_left _ hd

theorem onAccept (h : Attended none s) (hr : a.wsa = .error → s.availableIds = []) :
    Attended none (leaves (s.onAccept a)) := by
  have hpost : ∀ t : IocpServer, (t.postAccept a.acceptEx).executing = t.executing := by
    intro t
    unfold IocpServer.postAccept
    split <;> rfl
  have htable := h.table.onAccept a
  rcases onAccept_spec s a with ⟨-, heq⟩ | ⟨id, rest, m, havail, hs, hm, heq⟩
  · rw [heq] at htable ⊢
    obtain ⟨hops, -, hobj, hport⟩ := postAccept_frame s a.acceptEx
    refine h.keeps htable (fun d => ?_) (fun conn id hw => ?_) fun d hd => ?_
    · rw [KeepsAt, leaves, hobj]
      exact KeepsAt.refl d s
    · rw [leaves, Awaited, hops, hport]
      exact hw
    · rw [leaves, hpost]
      exact hd
  · rw [heq] at htable ⊢
    obtain ⟨hops, -, hobj, hport⟩ := postAccept_frame m a.acceptEx
    have hnew := (objects_openSession s id rest s.nextConn).trans (if_pos rfl)
    have hfails : a.wsa ≠ .error := by
      intro herr
      rw [hr herr] at havail
      exact absurd havail (by simp)
    obtain ⟨hkeeps, hposted⟩ := keeps_postRecv hnew (.inl rfl) fun _ => hfails
    rw [hm] at hkeeps
    have hrecv := hposted m hm
    have hmost : Attended (some s.nextConn) s := h.weaken
    refine hmost.handled htable (fun d hd => ?_) (fun op hop => ?_) ?_
      (fun d hd => ?_) fun o' ho' => ?_
    · intro o' ho'
      rw [leaves, hobj] at ho'
      obtain ⟨o, ho, hrest⟩ := hkeeps d o' ho'
      rw [objects_openSession, if_neg hd] at ho
      exact ⟨o, ho, hrest⟩
    · rw [leaves, hops, hrecv]
      exact List.mem_append_left _ hop
    · rw [leaves, hport, hs.port]
      rfl
    · rw [leaves, hpost, hs.executing]
      exact hd
    · rw [leaves, hobj] at ho'
      obtain ⟨o, ho, hid, hmark, -, hlatched⟩ := hkeeps s.nextConn o' ho'
      obtain rfl := Option.some.inj (hnew.symm.trans ho)
      refine ⟨hlatched (.inl rfl), .inr ⟨hmark, .inl ⟨⟨.recv, id, s.nextConn⟩, ?_, rfl, ?_, rfl⟩⟩⟩
      · rw [leaves, hops, hrecv]
        exact List.mem_append_right _ List.mem_cons_self
      · exact hid.symm

theorem disconnectSession (h : Attended (some conn) s) (a : Answers) :
    Attended none (IocpServer.finish (some conn) (s.disconnectSession conn a)) := by
  have htable := (h.table.disconnectSession conn a).finish (some conn)
  have hspec := disconnectSession_spec conn s a
  obtain ⟨hothers, hown⟩ := keeps_disconnectSession conn s a
  generalize s.disconnectSession conn a = r at *
  cases hspec with
  | absent ho =>
      refine h.handled htable (fun d _ => .refl d s) (fun _ hop => hop) rfl (fun _ hd => hd) ?_
      exact fun o' ho' => absurd (ho.symm.trans ho') (by simp)
  | marked o ho hmark =>
      refine h.handled htable (fun d _ => .refl d s) (fun _ hop => hop) rfl (fun _ hd => hd) ?_
      intro o' ho'
      obtain rfl := Option.some.inj (ho.symm.trans ho')
      exact ⟨h.latched conn o ho, .inl (h.marked conn o ho hmark)⟩
  | stuck o ho s' hs =>
      obtain ⟨ops, hops, -⟩ := hs.overlapped
      refine h.handled htable hothers (fun op hop => ?_) hs.port (fun d hd => ?_) fun o' ho' => ?_
      · show op ∈ s'.overlapped
        rw [hops]
        exact List.mem_append_left _ hop
      · refine List.mem_append_left _ ?_
        rw [hs.executing]
        exact hd
      · obtain ⟨r, hr, -, hlatched⟩ := hown s' rfl o' ho'
        exact ⟨hlatched (h.latched conn r hr), .inl (List.mem_append_right _ List.mem_cons_self)⟩
  | removed o ho m hs hplayer =>
      obtain ⟨ops, hops, -⟩ := hs.overlapped
      refine h.handled htable hothers (fun op hop => ?_) hs.port (fun d hd => ?_) fun o' ho' => ?_
      · show op ∈ m.overlapped
        rw [hops]
        exact List.mem_append_left _ hop
      · show d ∈ m.executing
        rw [hs.executing]
        exact hd
      · have hgone := (objects_freeSession m conn o.id conn).trans (if_pos rfl)
        exact absurd (hgone.symm.trans ho') (by simp)

theorem onRecvComplete (h : Attended (some conn) s) (bytes : ℕ)
    (hr : ∀ o, s.objects conn = some o → o.sender.socketOpen = true → a.wsa ≠ .error) :
    Attended none (IocpServer.finish (some conn) (s.onRecvComplete conn bytes a)) := by
  have hs := serves_onRecvComplete conn s bytes a
  have htable := h.table.serves hs
  obtain ⟨ops, hops, -⟩ := hs.overlapped
  cases ho : s.objects conn with
  | none =>
      rw [IocpServer.onRecvComplete, ho]
      refine h.handled h.table (fun d _ => .refl d s) (fun _ hop => hop) rfl (fun _ hd => hd) ?_
      exact fun o' ho' => absurd (ho.symm.trans ho') (by simp)
  | some o =>
      obtain ⟨hkeeps, hposted⟩ := keeps_onRecvComplete bytes ho (h.latched conn o ho)
        (hr o ho)
      generalize s.onRecvComplete conn bytes a = r at *
      cases r with
      | error t =>
          refine h.handled (htable.finish (some conn) (r := .error t)) (fun d _ => hkeeps d)
            (fun op hop => ?_) hs.port (fun d hd => ?_) fun o' ho' => ?_
          · show op ∈ t.overlapped
            exact hops ▸ List.mem_append_left _ hop
          · refine List.mem_append_left _ ?_
            rw [show t.executing = s.executing from hs.executing]
            exact hd
          · obtain ⟨r, hr, -, -, -, hlatched⟩ := hkeeps conn o' ho'
            exact ⟨hlatched (h.latched conn r hr),
              .inl (List.mem_append_right _ List.mem_cons_self)⟩
      | ok t =>
          have hexec : t.executing = s.executing := hs.executing
          refine h.handled htable (fun d _ => hkeeps d) (fun op hop => ?_) hs.port (fun d hd => ?_)
            fun o' ho' => ?_
          · exact hops ▸ List.mem_append_left _ hop
          · show d ∈ t.executing
            rw [hexec]
            exact hd
          · obtain ⟨r, hr, hid, hmark, -, hlatched⟩ := hkeeps conn o' ho'
            obtain rfl := Option.some.inj (ho.symm.trans hr)
            refine ⟨hlatched (h.latched conn o ho), ?_⟩
            by_cases hm : o.disconnected = true
            · -- a marked session is still being disconnected by another worker
              left
              show conn ∈ t.executing
              rw [hexec]
              exact h.marked conn o ho hm
            · exact .inr ⟨by rw [hmark]; simpa using hm,
                .inl ⟨_, hposted t rfl, rfl, hid.symm, rfl⟩⟩

end Attended

theorem keeps_store (s : IocpServer) (conn : ConnId) (bytes : Bytes) :
    Keeps s (s.store conn bytes) := by
  unfold store
  split
  · exact .refl s
  · next o ho => exact keeps_setObject ho rfl rfl ⟨fun h => h, fun h => h⟩

/-- What the kernel takes from its list it puts into the port. -/
theorem awaited_ioDone {k : ℕ} {ok : Bool} {bytes : Bytes} {id : ObjectID}
    (h : s.Awaited conn id) : (s.ioDone k ok bytes).Awaited conn id := by
  unfold ioDone
  split
  · exact h
  · next op hop =>
      dsimp only
      have hframe : ∀ t, t = s ∨ t = s.store op.conn (s.delivered op bytes) →
          t.overlapped = s.overlapped ∧ t.port = s.port := by
        rintro t (rfl | rfl)
        · exact ⟨rfl, rfl⟩
        · unfold store
          split <;> exact ⟨rfl, rfl⟩
      generalize ht : (if (ok && s.socketOpen op.conn) = true ∧ op.ioType = .recv then
        s.store op.conn (s.delivered op bytes) else s) = t
      obtain ⟨hops, hport⟩ := hframe t (by rw [← ht]; split <;> simp)
      rw [Awaited, hops, hport]
      rcases h with ⟨op', hop', hkind, hkey, hconn⟩ | ⟨c, hc, hrest⟩
      · rcases List.mem_cons.mp ((perm_eraseIdx hop).mem_iff.mp hop') with rfl | hleft
        · exact .inr ⟨_, List.mem_append_right _ List.mem_cons_self, hkind, hkey, by rw [hconn]⟩
        · exact .inl ⟨op', hleft, hkind, hkey, hconn⟩
      · exact .inr ⟨c, List.mem_append_left _ hc, hrest⟩

theorem attended_step (s : IocpServer) (e : Event) (h : Attended none s)
    (hok : RecvsAccepted s e) : Attended none (s.step e) := by
  have htable := table_step s e h.table
  cases e with
  | acceptDone ok =>
      refine h.keeps htable (fun d => ?_) (fun conn id hw => ?_) fun d hd => ?_
      · simp only [step, acceptDone]
        split <;> exact KeepsAt.refl d s
      · simp only [step, acceptDone]
        split
        · exact hw
        · exact hw.mono (fun _ hop => hop) fun _ hc => List.mem_append_left _ hc
      · simp only [step, acceptDone]
        split <;> exact hd
  | ioDone k ok bytes =>
      refine h.keeps htable (fun d => ?_) (fun conn id hw => awaited_ioDone hw) fun d hd => ?_
      · simp only [step, ioDone]
        split
        · exact KeepsAt.refl d s
        · next op _ =>
            split
            · exact keeps_store s op.conn (s.delivered op bytes) d
            · exact KeepsAt.refl d s
      · simp only [step, ioDone]
        split
        · exact hd
        · next op _ =>
            split
            · rw [(serves_store s op.conn (s.delivered op bytes)).executing]
              exact hd
            · exact hd
  | dequeue k a =>
      cases hc : s.port[k]? with
      | none =>
          rw [step, dequeue_of_none hc]
          exact h
      | some c =>
          have htaken := h.taken hc
          have hok := hok c hc
          have hdone := dequeue_of_some (a := a) hc
          rw [step]
          -- by what the worker does with the completion it took
          generalize s.dequeue k a = s' at hdone ⊢
          cases hdone with
          | ignored hs _ =>
              rw [show s.sessions c.key = none from hs, ite_self] at htaken
              exact htaken
          | accepted hgood ht =>
              -- only a receive is awaited, so nobody has lost its receive here
              rw [ht, if_neg (by simp)] at htaken
              exact (htaken.onAccept fun herr => (hok hgood herr).1 ht).finish none
          | failed conn hs _ =>
              -- the session that failed may be without a receive until it is disconnected
              have hmost : Attended (some conn) { s with port := s.port.eraseIdx k } := by
                split at htaken
                · rw [show s.sessions c.key = some conn from hs] at htaken
                  exact htaken
                · exact htaken.weaken
              exact hmost.disconnectSession a
          | received conn hs ht hgood hbytes =>
              rw [ht, if_pos rfl, show s.sessions c.key = some conn from hs] at htaken
              refine htaken.onRecvComplete c.bytes.length fun o ho hopen herr => ?_
              -- a receive fails at once only on a closed socket
              have hclosed := (hok hgood herr).2 ht hbytes conn o hs ho
              exact absurd (hclosed.symm.trans hopen) Bool.false_ne_true
          | sent conn hs ht =>
              rw [ht, if_neg (by simp)] at htaken
              exact (htaken.serves (serves_onSendComplete conn _ a)
                (keeps_onSendComplete conn _ a)).finish _
  | game login sends =>
      have hplayer : Attended none (s.addPlayer login) := by
        have htable := h.table.addPlayer login
        obtain ⟨players, hframe⟩ := addPlayer_frame s login
        rw [hframe] at htable ⊢
        exact h.keeps htable (fun d => KeepsAt.refl d s) (fun _ _ hw => hw) fun _ hd => hd
      exact (hplayer.serves (serves_sendAll 0 sends _) (keeps_sendAll sends _)).finish none

/-! ## Sends that are accepted -/

/-- Every session has its socket, and nobody has taken a mutex and not given it back. -/
def Live (s : IocpServer) : Prop :=
  ∀ conn o, s.objects conn = some o → o.sender.socketOpen = true ∧ o.sender.sendMutex = false

theorem Live.setObject (h : Live s) {o : SessionObj}
    (ho : o.sender.socketOpen = true ∧ o.sender.sendMutex = false) :
    Live (s.setObject conn o) := by
  intro d r hr
  rw [objects_setObject] at hr
  split at hr
  · rw [← Option.some.inj hr]
    exact ho
  · exact h d r hr

/-- **A call that `WSASend` does not fail comes back**, and leaves the socket. -/
theorem Live.exec (h : Live s) (conn : ConnId) (call : Sender.Call)
    (hok : ∀ t : Sender, t.socketOpen = true → ¬ t.FailsAtOnce call) :
    ∃ t, s.withSender conn (·.exec call) = .ok t ∧ Live t := by
  unfold withSender
  cases ho : s.objects conn with
  | none => exact ⟨s, rfl, h⟩
  | some o =>
      obtain ⟨hopen, hfree⟩ := h conn o ho
      obtain ⟨t, ht, hunlocked, hsocket⟩ := Sender.exec_of_not_fails hfree (hok o.sender hopen)
      dsimp only
      rw [ht]
      exact ⟨_, rfl, h.setObject (o := { o with sender := t }) ⟨hsocket.trans hopen, hunlocked⟩⟩

theorem Live.sendAll (h : Live s) {reqs : List SendReq} (hok : ∀ req ∈ reqs, req.result ≠ .error) :
    ∃ t, IocpServer.sendAll reqs s = .ok t ∧ Live t := by
  induction reqs generalizing s with
  | nil => exact ⟨s, rfl, h⟩
  | cons req reqs ih =>
      obtain ⟨hreq, hreqs⟩ := List.forall_mem_cons.mp hok
      obtain ⟨t, ht, hlive⟩ := h.exec req.conn (.sendPacket req.packet req.result)
        fun u hopen hfails => hreq (by
          have herr := hfails.2
          rwa [Sender.answer, if_pos hopen] at herr)
      have hone : s.sendTo req = .ok t := ht
      obtain ⟨u, hu, hlive'⟩ := ih hlive hreqs
      refine ⟨u, ?_, hlive'⟩
      rw [IocpServer.sendAll]
      simp only [bind, Except.bind]
      rw [hone]
      exact hu

theorem Live.postRecv (h : Live s) (conn : ConnId) {r : WsaResult} (hr : r ≠ .error) :
    Live (leaves (s.postRecv conn r)) := by
  unfold IocpServer.postRecv
  cases ho : s.objects conn with
  | none => exact h
  | some o =>
      have hanswer : o.sender.answer r = r := by
        rw [Sender.answer, if_pos (h conn o ho).1]
      dsimp only
      rw [hanswer, if_neg hr]
      exact h

theorem Live.onRecvComplete (h : Live s) (bytes : ℕ) (hsends : ∀ req ∈ a.sends, req.result ≠ .error)
    (hr : ∀ o, s.objects conn = some o → a.wsa ≠ .error) :
    Live (leaves (s.onRecvComplete conn bytes a)) := by
  unfold IocpServer.onRecvComplete
  cases ho : s.objects conn with
  | none => exact h
  | some o =>
      have hset : ∀ rb : RingBuffer, Live (s.setObject conn { o with recvBuffer := rb }) :=
        fun _ => h.setObject (h conn o ho)
      dsimp only
      split
      · next st _ =>
          obtain ⟨t, ht, hlive⟩ := (hset st.recvBuffer).sendAll hsends
          simp only [bind, Except.bind]
          rw [ht]
          exact hlive.postRecv _ (hr o ho)
      · exact hset _

/-- The session whose socket is closed is also taken out of the table. -/
theorem Live.disconnectSession (h : Live s) (hsends : ∀ req ∈ a.sends, req.result ≠ .error) :
    Live (leaves (s.disconnectSession conn a)) := by
  unfold IocpServer.disconnectSession
  cases ho : s.objects conn with
  | none => exact h
  | some o =>
      dsimp only
      split
      · exact h
      · have hmarked : Live (s.setObject conn { o with disconnected := true }) :=
          h.setObject (h conn o ho)
        generalize s.setObject conn { o with disconnected := true } = m at hmarked ⊢
        obtain ⟨t, ht, hlive⟩ : ∃ t, m.processDisconnect o.id a.sends = .ok t ∧ Live t := by
          unfold processDisconnect
          split
          · exact ⟨m, rfl, hmarked⟩
          · obtain ⟨t, ht, hlive⟩ := hmarked.sendAll hsends
            simp only [bind, Except.bind]
            rw [ht]
            exact ⟨_, rfl, hlive⟩
        obtain ⟨u, hu, hothers⟩ : ∃ u, t.close conn = .ok u ∧
            ∀ d, d ≠ conn → u.objects d = t.objects d := by
          unfold close withSender
          cases ho' : t.objects conn with
          | none => exact ⟨t, rfl, fun _ _ => rfl⟩
          | some r =>
              dsimp only
              rw [Sender.close, Sender.lock, if_neg (by simp [(hlive conn r ho').2])]
              exact ⟨_, rfl, fun d hd => (objects_setObject _ _ _ d).trans (if_neg hd)⟩
        simp only [bind, Except.bind]
        rw [ht]
        dsimp only
        rw [hu]
        intro d r hr
        have hr : (u.freeSession conn o.id).objects d = some r := hr
        rw [objects_freeSession] at hr
        split at hr
        · exact absurd hr (by simp)
        · next hd => exact hlive d r (hothers d hd ▸ hr)

theorem live_finish {r : Except IocpServer IocpServer} (h : Live (leaves r)) (conn : ConnId) :
    Live (finish conn r) ∧ Live (finish none r) := by
  cases r with
  | ok t => exact ⟨h, h⟩
  | error t => exact ⟨h, h⟩

theorem Live.onAccept (h : Live s) (hr : a.wsa = .error → s.availableIds = []) :
    Live (leaves (s.onAccept a)) := by
  have hpost : ∀ {t : IocpServer}, Live t → Live (t.postAccept a.acceptEx) := by
    intro t ht d o ho
    rw [(postAccept_frame t a.acceptEx).2.2.1] at ho
    exact ht d o ho
  rcases onAccept_spec s a with ⟨-, heq⟩ | ⟨id, rest, m, havail, -, hm, heq⟩
  · rw [heq]
    exact hpost h
  · rw [heq]
    have hopened : Live (s.openSession id rest) := by
      intro d o ho
      rw [objects_openSession] at ho
      split at ho
      · rw [← Option.some.inj ho]
        exact ⟨rfl, rfl⟩
      · exact h d o ho
    have hrecv := hopened.postRecv s.nextConn fun (herr : a.wsa = .error) => by
      rw [hr herr] at havail
      exact absurd havail (by simp)
    rw [hm] at hrecv
    exact hpost hrecv

theorem live_step (s : IocpServer) (e : Event) (h : Live s) (hrecvs : RecvsAccepted s e)
    (hsends : SendsAccepted s e) : Live (s.step e) := by
  cases e with
  | acceptDone ok =>
      simp only [step, acceptDone]
      split <;> exact h
  | ioDone k ok bytes =>
      have hstore : ∀ conn bytes, Live (s.store conn bytes) := by
        intro conn bytes
        unfold store
        split
        · exact h
        · next o ho => exact h.setObject (h conn o ho)
      simp only [step, ioDone]
      split
      · exact h
      · next op _ =>
          split
          · exact hstore op.conn (s.delivered op bytes)
          · exact h
  | dequeue k a =>
      obtain ⟨hreqs, hwsa⟩ := hsends
      cases hc : s.port[k]? with
      | none =>
          rw [step, dequeue_of_none hc]
          exact h
      | some c =>
          have hrecvs := hrecvs c hc
          have hwsa := hwsa c hc
          have htaken : Live { s with port := s.port.eraseIdx k } := h
          have hdone := dequeue_of_some (a := a) hc
          rw [step]
          generalize s.dequeue k a = s' at hdone ⊢
          cases hdone with
          | ignored => exact h
          | accepted hgood ht =>
              exact (live_finish (htaken.onAccept fun herr => (hrecvs hgood herr).1 ht) 0).2
          | failed conn => exact (live_finish (htaken.disconnectSession hreqs) conn).1
          | received conn hs ht hgood hbytes =>
              refine (live_finish (htaken.onRecvComplete _ hreqs fun o ho herr => ?_) conn).1
              -- every socket is open, so the `WSARecv` is accepted
              have hclosed := (hrecvs hgood herr).2 ht hbytes conn o hs ho
              exact absurd (hclosed.symm.trans (h conn o ho).1) Bool.false_ne_true
          | sent conn hs ht hgood =>
              obtain ⟨t, hcall, hlive⟩ := htaken.exec conn
                (.onSendComplete a.wsa) fun u hopen hfails => hwsa hgood ht (by
                  have herr := hfails.2
                  rwa [Sender.answer, if_pos hopen] at herr)
              have hcall : IocpServer.onSendComplete
                  { s with port := s.port.eraseIdx k } conn a = .ok t := hcall
              rw [hcall]
              exact hlive
  | game login sends =>
      obtain ⟨players, hframe⟩ := addPlayer_frame s login
      have hplayer : Live (s.addPlayer login) := by
        rw [hframe]
        exact h
      obtain ⟨t, ht, hlive⟩ := hplayer.sendAll hsends
      rw [step, ht]
      exact hlive

/-! ## Whole runs -/

theorem attended_init (r : WsaResult) : Attended none (init r) := by
  have hobj : (init r).objects = fun _ => none := (postAccept_frame _ r).2.2.1
  refine ⟨table_init r, ?_, ?_, ?_⟩
  all_goals
    intro conn o ho
    rw [hobj] at ho
    exact absurd ho (by simp)

theorem live_init (r : WsaResult) : Live (init r) := by
  intro conn o ho
  rw [show (init r).objects = fun _ => none from (postAccept_frame _ r).2.2.1] at ho
  exact absurd ho (by simp)

theorem Attended.noOrphan (h : Attended none s) (hlive : Live s) : NoOrphan s where
  session id conn o hs hx ho hm := by
    obtain ⟨r, hr, hid⟩ := h.table.object id conn hs
    obtain rfl := Option.some.inj (ho.symm.trans hr)
    exact hid ▸ h.awaited conn o ho hm hx (by simp)
  player id conn hp := by
    obtain ⟨o, ho, hid⟩ := h.table.object id conn (h.table.player id conn hp)
    by_cases hx : conn ∈ s.executing
    · right
      refine ⟨hx, ?_⟩
      rw [socketOpen, ho]
      exact (hlive conn o ho).1
    · left
      refine hid ▸ h.awaited conn o ho ?_ hx (by simp)
      by_contra hm
      exact hx (h.marked conn o ho (by simpa using hm))

/-- **No session and no player is left without a receive in the runs whose
receives and sends are accepted**, for every order of every number of steps. -/
theorem noOrphan_run {r : WsaResult} {es : List Event}
    (hok : Along step (fun s e => RecvsAccepted s e ∧ SendsAccepted s e) (init r) es) :
    NoOrphan (run step (init r) es) := by
  obtain ⟨hattended, hlive⟩ := invariant (I := fun s => Attended none s ∧ Live s)
    (fun s e h hc => ⟨attended_step s e h.1 hc.1, live_step s e h.2 hc.1 hc.2⟩)
    ⟨attended_init r, live_init r⟩ hok
  exact hattended.noOrphan hlive

/-- A client logs in, is sent a packet, and sends a byte. -/
def talks : List Event :=
  [.acceptDone true, .dequeue 0 .plain, .game (some 0) [⟨0, [1], .pending⟩],
    .ioDone 0 true [1], .dequeue 0 ⟨1, [⟨0, [2], .pending⟩], .pending, .pending⟩]

theorem noOrphan_run_talks : NoOrphan (run step (init .pending) talks) := by
  apply noOrphan_run
  refine ⟨⟨trivial, trivial⟩, ⟨fun _ _ _ herr => absurd herr (by decide), by decide, ?_⟩,
    ⟨trivial, fun req hreq => ?_⟩, ⟨trivial, trivial⟩,
    ⟨fun _ _ _ herr => absurd herr (by decide), by decide, ?_⟩, trivial⟩
  · exact fun _ _ _ _ => by decide
  · rw [List.mem_singleton.mp hreq]
    decide
  · exact fun _ _ _ _ => by decide

/-- A client logs in, and the receive after its next byte fails at once. -/
def refusedRecv : List Event :=
  [.acceptDone true, .dequeue 0 .plain, .game (some 0) [], .ioDone 0 true [1],
    .dequeue 0 ⟨1, [], .error, .pending⟩]

/-- The player stays, and no completion of its connection will come. -/
theorem not_always_noOrphan :
    ¬ ∀ (es : List Event), NoOrphan (run step (init .pending) es) := by
  intro hall
  have hplayer : (run step (init .pending) refusedRecv).players 0 = some 0 := rfl
  have hexec : 0 ∉ (run step (init .pending) refusedRecv).executing := by decide +kernel
  have hend : (run step (init .pending) refusedRecv).overlapped = [] ∧
      (run step (init .pending) refusedRecv).port = [] := by
    decide +kernel
  rcases (hall refusedRecv).player 0 0 hplayer with (⟨op, hop, -⟩ | ⟨c, hc, -⟩) | ⟨hin, -⟩
  · rw [hend.1] at hop
    exact absurd hop List.not_mem_nil
  · rw [hend.2] at hc
    exact absurd hc List.not_mem_nil
  · exact hexec hin

end IocpServer

end Mmorpg
