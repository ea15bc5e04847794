/-
The table of sessions: what each handler does to it, and what always holds of it.

`Serves` is what the handlers of a receive and of a send have in common, and
every part of a disconnect but its end: no session is opened or ended, and other
sessions only get more packets to send. `Table` ties the table, the objects and the
pool of ids together; it holds in every run.
-/
import SimplestMmorpg.Network.IocpServer

set_option autoImplicit false

namespace Mmorpg

namespace Sender

/-- A packet goes to the end of the queue, however the call ends. -/
theorem sendPacket_prefix (s : Sender) (packet : Bytes) (r : WsaResult) :
    s.sendQueue <+: (leaves (s.sendPacket packet r)).sendQueue := by
  by_cases hlocked : s.sendMutex = true
  · rw [sendPacket, lock, if_pos hlocked]
    exact List.prefix_refl _
  · rw [sendPacket, lock, if_neg hlocked]
    simp only [bind, Except.bind]
    by_cases hidle : ¬ s.isSending = true
    · rw [if_pos hidle]
      by_cases herr : s.answer r = .error
      · have hpost := postSend_of_error { s with
          sendQueue := s.sendQueue ++ [packet], sendMutex := true, isSending := true } rfl herr
        rw [hpost]
        exact List.prefix_append _ _
      · have hpost := postSend_of_ne { s with
          sendQueue := s.sendQueue ++ [packet], sendMutex := true, isSending := true } herr
        rw [hpost]
        exact List.prefix_append _ _
    · rw [if_neg hidle]
      exact List.prefix_append _ _

end Sender

namespace IocpServer

variable {s s' s'' : IocpServer} {conn d : ConnId} {id : ObjectID} {o o' : SessionObj}
  {a : Answers} {reqs : List SendReq} {c : IoCompletion}

/-- The state a handler leaves, whether it returns or not. -/
def leaves : Except IocpServer IocpServer → IocpServer
  | .ok s => s
  | .error s => s

/-- Another handler only adds packets to the queue of a session. -/
structure ObjKept (o o' : SessionObj) : Prop where
  id : o'.id = o.id
  recvBuffer : o'.recvBuffer = o.recvBuffer
  disconnected : o'.disconnected = o.disconnected
  sendQueue : o.sender.sendQueue <+: o'.sender.sendQueue

/-- What a handler does that serves one connection. -/
structure Serves (conn : ConnId) (s s' : IocpServer) : Prop where
  sessions : s'.sessions = s.sessions
  availableIds : s'.availableIds = s.availableIds
  nextConn : s'.nextConn = s.nextConn
  acceptsPosted : s'.acceptsPosted = s.acceptsPosted
  port : s'.port = s.port
  executing : s'.executing = s.executing
  players : ∀ id c, s'.players id = some c → s.players id = some c
  gone : ∀ d, s.objects d = none → s'.objects d = none
  own : ∀ o, s.objects conn = some o → ∃ o', s'.objects conn = some o' ∧ o'.id = o.id ∧
    (o.disconnected = true → o'.disconnected = true)
  others : ∀ d o, d ≠ conn → s.objects d = some o → ∃ o', s'.objects d = some o' ∧ ObjKept o o'
  overlapped : ∃ ops, s'.overlapped = s.overlapped ++ ops ∧
    ∀ op ∈ ops, op.ioType ≠ .accept ∧ ∃ o, s.objects op.conn = some o ∧ o.id = op.key

namespace ObjKept

theorem refl (o : SessionObj) : ObjKept o o := ⟨rfl, rfl, rfl, List.prefix_refl _⟩

theorem trans {o'' : SessionObj} (h : ObjKept o o') (h' : ObjKept o' o'') : ObjKept o o'' :=
  ⟨h'.id.trans h.id, h'.recvBuffer.trans h.recvBuffer, h'.disconnected.trans h.disconnected,
    h.sendQueue.trans h'.sendQueue⟩

end ObjKept

namespace Serves

theorem refl (conn : ConnId) (s : IocpServer) : Serves conn s s where
  sessions := rfl
  availableIds := rfl
  nextConn := rfl
  acceptsPosted := rfl
  port := rfl
  executing := rfl
  players _ _ h := h
  gone _ h := h
  own o h := ⟨o, h, rfl, fun hd => hd⟩
  others _ o _ h := ⟨o, h, .refl o⟩
  overlapped := ⟨[], by simp, by simp⟩

/-- An object after it was there before, with the same id. -/
theorem object (h : Serves conn s s') (ho : s'.objects d = some o') :
    ∃ o, s.objects d = some o ∧ o'.id = o.id ∧ (o.disconnected = true → o'.disconnected = true) := by
  cases hold : s.objects d with
  | none =>
      rw [h.gone d hold] at ho
      exact absurd ho (by simp)
  | some o =>
      refine ⟨o, rfl, ?_⟩
      by_cases hd : d = conn
      · subst hd
        obtain ⟨r, hr, hid, hmark⟩ := h.own o hold
        obtain rfl := Option.some.inj (hr.symm.trans ho)
        exact ⟨hid, hmark⟩
      · obtain ⟨r, hr, hkept⟩ := h.others d o hd hold
        obtain rfl := Option.some.inj (hr.symm.trans ho)
        exact ⟨hkept.id, fun hm => hkept.disconnected.trans hm⟩

/-- And one before is there after it. -/
theorem object' (h : Serves conn s s') (ho : s.objects d = some o) :
    ∃ o', s'.objects d = some o' ∧ o'.id = o.id ∧
      (o.disconnected = true → o'.disconnected = true) := by
  by_cases hd : d = conn
  · subst hd
    exact h.own o ho
  · obtain ⟨o', ho', hkept⟩ := h.others d o hd ho
    exact ⟨o', ho', hkept.id, fun hm => hkept.disconnected.trans hm⟩

theorem trans (h : Serves conn s s') (h' : Serves conn s' s'') : Serves conn s s'' where
  sessions := h'.sessions.trans h.sessions
  availableIds := h'.availableIds.trans h.availableIds
  nextConn := h'.nextConn.trans h.nextConn
  acceptsPosted := h'.acceptsPosted.trans h.acceptsPosted
  port := h'.port.trans h.port
  executing := h'.executing.trans h.executing
  players id c hc := h.players id c (h'.players id c hc)
  gone d hd := h'.gone d (h.gone d hd)
  own o ho := by
    obtain ⟨o', ho', hid, hmark⟩ := h.own o ho
    obtain ⟨o'', ho'', hid', hmark'⟩ := h'.own o' ho'
    exact ⟨o'', ho'', hid'.trans hid, fun hd => hmark' (hmark hd)⟩
  others d o hd ho := by
    obtain ⟨o', ho', hkept⟩ := h.others d o hd ho
    obtain ⟨o'', ho'', hkept'⟩ := h'.others d o' hd ho'
    exact ⟨o'', ho'', hkept.trans hkept'⟩
  overlapped := by
    obtain ⟨a, ha, hops⟩ := h.overlapped
    obtain ⟨b, hb, hops'⟩ := h'.overlapped
    refine ⟨a ++ b, by rw [hb, ha, List.append_assoc], fun op hop => ?_⟩
    rcases List.mem_append.mp hop with hop | hop
    · exact hops op hop
    · obtain ⟨hkind, o', ho', hkey⟩ := hops' op hop
      obtain ⟨o, ho, hid, -⟩ := h.object ho'
      exact ⟨hkind, o, ho, hid.symm.trans hkey⟩

end Serves

/-! ## One session -/

theorem objects_setObject (s : IocpServer) (conn : ConnId) (o : SessionObj) (d : ConnId) :
    (s.setObject conn o).objects d = if d = conn then some o else s.objects d :=
  Function.update_apply _ _ _ _

/-- An object is written over one with its id. -/
theorem serves_setObject (ho : s.objects conn = some o) (hid : o'.id = o.id)
    (hmark : o.disconnected = true → o'.disconnected = true) :
    Serves conn s (s.setObject conn o') where
  sessions := rfl
  availableIds := rfl
  nextConn := rfl
  acceptsPosted := rfl
  port := rfl
  executing := rfl
  players _ _ h := h
  gone e he := by
    have hne : e ≠ conn := by
      rintro rfl
      exact absurd (ho.symm.trans he) (by simp)
    rw [objects_setObject, if_neg hne, he]
  own r hr := by
    obtain rfl := Option.some.inj (ho.symm.trans hr)
    exact ⟨o', by rw [objects_setObject, if_pos rfl], hid, hmark⟩
  others e r he hr := ⟨r, by rw [objects_setObject, if_neg he, hr], .refl r⟩
  overlapped := ⟨[], by simp [setObject], by simp⟩

/-- Operations of open sessions are added. -/
theorem serves_overlapped {ops : List Overlapped}
    (hops : ∀ op ∈ ops, op.ioType ≠ .accept ∧ ∃ o, s.objects op.conn = some o ∧ o.id = op.key) :
    Serves conn s { s with overlapped := s.overlapped ++ ops } :=
  { Serves.refl conn s with overlapped := ⟨ops, rfl, hops⟩ }

/-- Seen from a connection, whose send side may be the one that is written. -/
theorem serves_setSender (ho : s.objects d = some o) {t : Sender}
    (hqueue : d ≠ conn → o.sender.sendQueue <+: t.sendQueue) :
    Serves conn s (s.setSender d o t) := by
  have hset : Serves conn s (s.setObject d { o with sender := t }) := by
    by_cases hd : d = conn
    · subst hd
      exact serves_setObject ho rfl fun hm => hm
    · have hbase : Serves d s (s.setObject d { o with sender := t }) :=
        serves_setObject ho rfl fun hm => hm
      refine { hbase with own := ?_, others := ?_ }
      · intro r hr
        exact ⟨r, by rw [objects_setObject, if_neg (Ne.symm hd), hr], rfl, fun hm => hm⟩
      · intro e r he hr
        by_cases hed : e = d
        · subst hed
          obtain rfl := Option.some.inj (ho.symm.trans hr)
          exact ⟨{ o with sender := t }, by rw [objects_setObject, if_pos rfl],
            ⟨rfl, rfl, rfl, hqueue hd⟩⟩
        · exact ⟨r, by rw [objects_setObject, if_neg hed, hr], .refl r⟩
  refine hset.trans ?_
  have hops : ∀ op ∈ (if o.sender.posted.length < t.posted.length then
      [(⟨.send, o.id, d⟩ : Overlapped)] else []), op.ioType ≠ .accept ∧
      ∃ r, (s.setObject d { o with sender := t }).objects op.conn = some r ∧ r.id = op.key := by
    intro op hop
    split at hop
    · obtain rfl := List.mem_singleton.mp hop
      exact ⟨by simp, _, Function.update_self _ _ _, rfl⟩
    · exact absurd hop List.not_mem_nil
  exact serves_overlapped hops

theorem serves_withSender (conn d : ConnId) (s : IocpServer) {f : Sender → Except Sender Sender}
    (hqueue : d ≠ conn → ∀ t, t.sendQueue <+: (Sender.leaves (f t)).sendQueue) :
    Serves conn s (leaves (s.withSender d f)) := by
  unfold withSender
  split
  · exact .refl conn s
  · next o ho =>
      have hq := fun hd => hqueue hd o.sender
      split
      · next t ht =>
          rw [ht] at hq
          exact serves_setSender ho hq
      · next t ht =>
          rw [ht] at hq
          exact serves_setSender ho hq

theorem serves_close (conn : ConnId) (s : IocpServer) : Serves conn s (leaves (s.close conn)) :=
  serves_withSender conn conn s fun hd => absurd rfl hd

theorem serves_postRecv (conn : ConnId) (s : IocpServer) (r : WsaResult) :
    Serves conn s (leaves (s.postRecv conn r)) := by
  unfold postRecv
  split
  · exact .refl conn s
  · next o ho =>
      split
      · exact serves_close conn s
      · refine serves_overlapped fun op hop => ?_
        obtain rfl := List.mem_singleton.mp hop
        exact ⟨by simp, o, ho, rfl⟩

theorem serves_sendAll (conn : ConnId) (reqs : List SendReq) (s : IocpServer) :
    Serves conn s (leaves (sendAll reqs s)) := by
  induction reqs generalizing s with
  | nil => exact .refl conn s
  | cons req reqs ih =>
      have hone : Serves conn s (leaves (s.sendTo req)) :=
        serves_withSender conn req.conn s fun _ t => t.sendPacket_prefix req.packet req.result
      rw [sendAll]
      simp only [bind, Except.bind]
      cases h : s.sendTo req with
      | error t =>
          rw [h] at hone
          exact hone
      | ok t =>
          rw [h] at hone
          exact hone.trans (ih t)

/-! ## The handlers of a session -/

theorem serves_onRecvComplete (conn : ConnId) (s : IocpServer) (bytes : ℕ) (a : Answers) :
    Serves conn s (leaves (s.onRecvComplete conn bytes a)) := by
  unfold onRecvComplete
  split
  · exact .refl conn s
  · next o ho =>
      dsimp only
      split
      · next st _ =>
          have hset : Serves conn s (s.setObject conn { o with recvBuffer := st.recvBuffer }) :=
            serves_setObject ho rfl fun hm => hm
          have hsends := serves_sendAll conn a.sends
            (s.setObject conn { o with recvBuffer := st.recvBuffer })
          simp only [bind, Except.bind]
          split
          · next t ht =>
              rw [ht] at hsends
              exact hset.trans hsends
          · next t ht =>
              rw [ht] at hsends
              exact (hset.trans hsends).trans (serves_postRecv conn t a.wsa)
      · exact serves_setObject ho rfl fun hm => hm

theorem serves_onSendComplete (conn : ConnId) (s : IocpServer) (a : Answers) :
    Serves conn s (leaves (s.onSendComplete conn a)) :=
  serves_withSender conn conn s fun hd => absurd rfl hd

/-- How `DisconnectSession` ends. -/
inductive Disconnected (conn : ConnId) (s : IocpServer) : Except IocpServer IocpServer → Prop
  | absent (ho : s.objects conn = none) : Disconnected conn s (.ok s)
  | marked (o : SessionObj) (ho : s.objects conn = some o) (hmark : o.disconnected = true) :
      Disconnected conn s (.ok s)
  | stuck (o : SessionObj) (ho : s.objects conn = some o) (s' : IocpServer)
      (h : Serves conn s s') : Disconnected conn s (.error s')
  | removed (o : SessionObj) (ho : s.objects conn = some o) (m : IocpServer)
      (h : Serves conn s m) (hplayer : m.players o.id = none) :
      Disconnected conn s (.ok (m.freeSession conn o.id))

theorem serves_processDisconnect (conn : ConnId) (s : IocpServer) (id : ObjectID)
    (reqs : List SendReq) :
    Serves conn s (leaves (s.processDisconnect id reqs)) ∧
      ∀ t, s.processDisconnect id reqs = .ok t → t.players id = none := by
  unfold processDisconnect
  split
  · next hnone =>
      refine ⟨.refl conn s, fun t ht => ?_⟩
      rw [← Except.ok.inj ht, hnone]
  · have hsends := serves_sendAll conn reqs s
    simp only [bind, Except.bind]
    cases h : sendAll reqs s with
    | error t =>
        rw [h] at hsends
        exact ⟨hsends, fun u hu => absurd hu (by simp)⟩
    | ok t =>
        rw [h] at hsends
        refine ⟨hsends.trans { Serves.refl conn t with players := ?_ }, fun u hu => ?_⟩
        · intro i c hc
          by_cases hi : i = id
          · subst hi
            exact absurd hc (by simp [pure, Except.pure, leaves])
          · simpa [pure, Except.pure, leaves, Function.update_of_ne hi] using hc
        · rw [← Except.ok.inj hu]
          exact Function.update_self _ _ _

theorem disconnectSession_spec (conn : ConnId) (s : IocpServer) (a : Answers) :
    Disconnected conn s (s.disconnectSession conn a) := by
  unfold disconnectSession
  split
  · next ho => exact .absent ho
  · next o ho =>
      split
      · next hmark => exact .marked o ho hmark
      · have hset : Serves conn s (s.setObject conn { o with disconnected := true }) :=
          serves_setObject ho rfl fun _ => rfl
        obtain ⟨hgame, hplayer⟩ := serves_processDisconnect conn
          (s.setObject conn { o with disconnected := true }) o.id a.sends
        simp only [bind, Except.bind]
        split
        · next t ht =>
            rw [ht] at hgame
            exact .stuck o ho t (hset.trans hgame)
        · next t ht =>
            rw [ht] at hgame
            have hclose := serves_close conn t
            split
            · next u hu =>
                rw [hu] at hclose
                exact .stuck o ho u ((hset.trans hgame).trans hclose)
            · next u hu =>
                rw [hu] at hclose
                refine .removed o ho u ((hset.trans hgame).trans hclose) ?_
                cases hp : u.players o.id with
                | none => rfl
                | some c => exact absurd (hclose.players _ _ hp) (by simp [hplayer t ht])

/-! ## The handler of a completion -/

/-- What a worker does with a completion, in the state without it. -/
inductive Handled (s : IocpServer) (c : IoCompletion) (a : Answers) : IocpServer → Prop
  | ignored (hs : s.sessions c.key = none) (hfail : c.ok = true → c.ioType ≠ .accept) :
      Handled s c a s
  | accepted (hok : c.ok = true) (ht : c.ioType = .accept) :
      Handled s c a (finish none (s.onAccept a))
  | failed (conn : ConnId) (hs : s.sessions c.key = some conn)
      (hfail : c.ok = true → c.ioType ≠ .accept) :
      Handled s c a (finish (some conn) (s.disconnectSession conn a))
  | received (conn : ConnId) (hs : s.sessions c.key = some conn) (ht : c.ioType = .recv)
      (hok : c.ok = true) (hbytes : c.bytes ≠ []) :
      Handled s c a (finish (some conn) (s.onRecvComplete conn c.bytes.length a))
  | sent (conn : ConnId) (hs : s.sessions c.key = some conn) (ht : c.ioType = .send)
      (hok : c.ok = true) :
      Handled s c a (finish (some conn) (s.onSendComplete conn a))

theorem handled (s : IocpServer) (c : IoCompletion) (a : Answers) :
    Handled s c a (finish (s.target c) (s.handleCompletion c a)) := by
  unfold handleCompletion target
  by_cases hbad : c.ok = false ∨ (c.bytes = [] ∧ c.ioType ≠ .accept)
  · have hfail : c.ok = true → c.ioType ≠ .accept := by
      rcases hbad with hbad | hbad
      · intro hok
        rw [hbad] at hok
        exact absurd hok (by simp)
      · exact fun _ => hbad.2
    rw [if_pos hbad, if_neg fun h => hfail h.1 h.2]
    cases hs : s.sessions c.key with
    | none => exact .ignored hs hfail
    | some conn => exact .failed conn hs hfail
  · have hok : c.ok = true := by simpa using fun h => hbad (.inl h)
    rw [if_neg hbad]
    cases ht : c.ioType with
    | accept =>
        rw [if_pos ⟨hok, rfl⟩]
        exact .accepted hok ht
    | recv =>
        rw [if_neg (by simp)]
        cases hs : s.sessions c.key with
        | none => exact .ignored hs fun _ => by rw [ht]; simp
        | some conn =>
            exact .received conn hs ht hok fun hb => hbad (.inr ⟨hb, by rw [ht]; simp⟩)
    | send =>
        rw [if_neg (by simp)]
        cases hs : s.sessions c.key with
        | none => exact .ignored hs fun _ => by rw [ht]; simp
        | some conn => exact .sent conn hs ht hok

theorem dequeue_of_some {k : ℕ} (hc : s.port[k]? = some c) :
    Handled { s with port := s.port.eraseIdx k } c a (s.dequeue k a) := by
  unfold dequeue
  rw [hc]
  exact handled _ c a

theorem dequeue_of_none {k : ℕ} (hc : s.port[k]? = none) : s.dequeue k a = s := by
  rw [dequeue, hc]

/-! ## The table -/

/-- **What always holds of the table**: the ids in the pool have no session, every
session in the table is an object with the id of its slot, every object is in the
table, and a player's session is in the table. -/
structure Table (s : IocpServer) : Prop where
  nodup : s.availableIds.Nodup
  available : ∀ id ∈ s.availableIds, s.sessions id = none
  object : ∀ id c, s.sessions id = some c → ∃ o, s.objects c = some o ∧ o.id = id
  session : ∀ c o, s.objects c = some o → s.sessions o.id = some c
  fresh : ∀ c o, s.objects c = some o → c < s.nextConn
  player : ∀ id c, s.players id = some c → s.sessions id = some c

theorem objects_freeSession (s : IocpServer) (conn : ConnId) (id : ObjectID) (d : ConnId) :
    (s.freeSession conn id).objects d = if d = conn then none else s.objects d :=
  Function.update_apply _ _ _ _

theorem sessions_freeSession (s : IocpServer) (conn : ConnId) (id i : ObjectID) :
    (s.freeSession conn id).sessions i = if i = id then none else s.sessions i :=
  Function.update_apply _ _ _ _

theorem objects_openSession (s : IocpServer) (id : ObjectID) (rest : List ObjectID) (d : ConnId) :
    (s.openSession id rest).objects d =
      if d = s.nextConn then some ⟨id, .init fun _ => 0, .init, false⟩ else s.objects d :=
  objects_setObject s s.nextConn _ d

theorem sessions_openSession (s : IocpServer) (id : ObjectID) (rest : List ObjectID)
    (i : ObjectID) :
    (s.openSession id rest).sessions i = if i = id then some s.nextConn else s.sessions i :=
  Function.update_apply _ _ _ _

namespace Table

theorem serves (h : Table s) (hs : Serves conn s s') : Table s' where
  nodup := by rw [hs.availableIds]; exact h.nodup
  available := by rw [hs.availableIds, hs.sessions]; exact h.available
  object id c hc := by
    rw [hs.sessions] at hc
    obtain ⟨o, ho, hid⟩ := h.object id c hc
    obtain ⟨o', ho', hid', -⟩ := hs.object' ho
    exact ⟨o', ho', hid'.trans hid⟩
  session c o' ho' := by
    obtain ⟨o, ho, hid, -⟩ := hs.object ho'
    rw [hs.sessions, hid]
    exact h.session c o ho
  fresh c o' ho' := by
    obtain ⟨o, ho, -⟩ := hs.object ho'
    rw [hs.nextConn]
    exact h.fresh c o ho
  player id c hc := by
    rw [hs.sessions]
    exact h.player id c (hs.players id c hc)

/-- The end of a handler. -/
theorem finish (conn : Option ConnId) {r : Except IocpServer IocpServer} (h : Table (leaves r)) :
    Table (finish conn r) := by
  cases r with
  | ok t => exact h
  | error t => exact ⟨h.nodup, h.available, h.object, h.session, h.fresh, h.player⟩

theorem postAccept (h : Table s) (r : WsaResult) : Table (s.postAccept r) := by
  unfold IocpServer.postAccept
  split
  · exact h
  · exact ⟨h.nodup, h.available, h.object, h.session, h.fresh, h.player⟩

theorem freeSession (h : Table s) (ho : s.objects conn = some o)
    (hplayer : s.players o.id = none) : Table (s.freeSession conn o.id) := by
  have hslot := h.session conn o ho
  have hobject : ∀ c r, (s.freeSession conn o.id).objects c = some r →
      c ≠ conn ∧ s.objects c = some r := by
    intro c r hr
    rw [objects_freeSession] at hr
    split at hr
    · exact absurd hr (by simp)
    · next hne => exact ⟨hne, hr⟩
  refine ⟨?_, ?_, ?_, ?_, ?_, ?_⟩
  · have hnot : o.id ∉ s.availableIds := fun hmem =>
      absurd ((h.available _ hmem).symm.trans hslot) (by simp)
    exact List.nodup_append.mpr ⟨h.nodup, by simp, fun x hx y hy heq =>
      hnot (by rw [← List.mem_singleton.mp hy, ← heq]; exact hx)⟩
  · intro id hid
    rw [sessions_freeSession]
    split
    · rfl
    · next hne =>
        rcases List.mem_append.mp hid with hid | hid
        · exact h.available id hid
        · exact absurd (List.mem_singleton.mp hid) hne
  · intro id c hc
    rw [sessions_freeSession] at hc
    split at hc
    · exact absurd hc (by simp)
    · next hne =>
        obtain ⟨r, hr, hid⟩ := h.object id c hc
        have hcc : c ≠ conn := by
          rintro rfl
          obtain rfl := Option.some.inj (ho.symm.trans hr)
          exact hne hid.symm
        exact ⟨r, by rw [objects_freeSession, if_neg hcc, hr], hid⟩
  · intro c r hr
    obtain ⟨hcc, hr⟩ := hobject c r hr
    have hr' := h.session c r hr
    have hne : r.id ≠ o.id := by
      intro heq
      rw [heq, hslot] at hr'
      exact hcc (Option.some.inj hr').symm
    rw [sessions_freeSession, if_neg hne]
    exact hr'
  · intro c r hr
    exact h.fresh c r (hobject c r hr).2
  · intro id c hc
    have hp : s.players id = some c := hc
    have hne : id ≠ o.id := by
      rintro rfl
      exact absurd (hplayer.symm.trans hp) (by simp)
    rw [sessions_freeSession, if_neg hne]
    exact h.player id c hp

theorem openSession (h : Table s) {rest : List ObjectID} (havail : s.availableIds = id :: rest) :
    Table (s.openSession id rest) := by
  have hnodup := h.nodup
  rw [havail, List.nodup_cons] at hnodup
  have hfree := h.available id (by rw [havail]; exact List.mem_cons_self)
  have hnew : s.objects s.nextConn = none := by
    cases ho : s.objects s.nextConn with
    | none => rfl
    | some o => exact absurd (h.fresh _ o ho) (Nat.lt_irrefl _)
  have hobject := objects_openSession s id rest
  have hsession := sessions_openSession s id rest
  refine ⟨hnodup.2, ?_, ?_, ?_, ?_, ?_⟩
  · intro i hi
    have hne : i ≠ id := fun heq => hnodup.1 (heq ▸ hi)
    rw [hsession, if_neg hne]
    exact h.available i (by rw [havail]; exact List.mem_cons_of_mem _ hi)
  · intro i c hc
    rw [hsession] at hc
    split at hc
    · next hi =>
        rw [← Option.some.inj hc, hobject, if_pos rfl, hi]
        exact ⟨_, rfl, rfl⟩
    · obtain ⟨o, ho, hid⟩ := h.object i c hc
      have hne := Nat.ne_of_lt (h.fresh c o ho)
      exact ⟨o, by rw [hobject, if_neg hne, ho], hid⟩
  · intro c o ho
    rw [hobject] at ho
    split at ho
    · next hc =>
        rw [← Option.some.inj ho, hsession, if_pos rfl, hc]
    · have hslot := h.session c o ho
      have hne : o.id ≠ id := by
        intro heq
        rw [heq, hfree] at hslot
        exact absurd hslot (by simp)
      rw [hsession, if_neg hne]
      exact hslot
  · intro c o ho
    rw [hobject] at ho
    split at ho
    · next hc =>
        rw [hc]
        exact Nat.lt_succ_self _
    · exact Nat.lt_succ_of_lt (h.fresh c o ho)
  · intro i c hc
    have hslot := h.player i c hc
    have hne : i ≠ id := by
      rintro rfl
      exact absurd (hfree.symm.trans hslot) (by simp)
    rw [hsession, if_neg hne]
    exact hslot

theorem disconnectSession (h : Table s) (conn : ConnId) (a : Answers) :
    Table (leaves (s.disconnectSession conn a)) := by
  have hspec := disconnectSession_spec conn s a
  generalize s.disconnectSession conn a = r at hspec
  cases hspec with
  | absent ho => exact h
  | marked o ho hmark => exact h
  | stuck o ho s' hs => exact h.serves hs
  | removed o ho m hs hplayer =>
      obtain ⟨o', ho', hid, -⟩ := hs.object' ho
      rw [← hid] at hplayer ⊢
      exact (h.serves hs).freeSession ho' hplayer

end Table

/-- How `OnAccept` ends: it always returns. -/
theorem onAccept_spec (s : IocpServer) (a : Answers) :
    s.availableIds = [] ∧ s.onAccept a = .ok (s.postAccept a.acceptEx) ∨
      ∃ id rest m, s.availableIds = id :: rest ∧
        Serves s.nextConn (s.openSession id rest) m ∧
        (s.openSession id rest).postRecv s.nextConn a.wsa = .ok m ∧
        s.onAccept a = .ok (m.postAccept a.acceptEx) := by
  unfold onAccept
  split
  · next havail => exact .inl ⟨havail, rfl⟩
  · next id rest havail =>
      right
      have hnew : (s.openSession id rest).objects s.nextConn =
          some ⟨id, .init fun _ => 0, .init, false⟩ := Function.update_self _ _ _
      have hserves := serves_postRecv s.nextConn (s.openSession id rest) a.wsa
      have hok : ∃ m, (s.openSession id rest).postRecv s.nextConn a.wsa = .ok m := by
        unfold postRecv
        rw [hnew]
        dsimp only
        split
        · unfold close withSender
          rw [hnew]
          exact ⟨_, rfl⟩
        · exact ⟨_, rfl⟩
      obtain ⟨m, hm⟩ := hok
      rw [hm] at hserves
      refine ⟨id, rest, m, havail, hserves, hm, ?_⟩
      simp only [bind, Except.bind]
      rw [hm]
      rfl

theorem Table.onAccept (h : Table s) (a : Answers) : Table (leaves (s.onAccept a)) := by
  rcases onAccept_spec s a with ⟨-, heq⟩ | ⟨id, rest, m, havail, hs, -, heq⟩
  · rw [heq]
    exact h.postAccept a.acceptEx
  · rw [heq]
    exact ((h.openSession havail).serves hs).postAccept a.acceptEx

theorem Table.addPlayer (h : Table s) (login : Option ObjectID) : Table (s.addPlayer login) := by
  unfold IocpServer.addPlayer
  split
  · exact h
  · next id =>
      split
      · exact h
      · next conn hs =>
          refine ⟨h.nodup, h.available, h.object, h.session, h.fresh, ?_⟩
          intro i c hc
          dsimp only at hc
          by_cases hi : i = id
          · subst hi
            rw [Function.update_self] at hc
            rw [← Option.some.inj hc]
            exact hs
          · rw [Function.update_of_ne hi] at hc
            exact h.player i c hc

theorem serves_store (s : IocpServer) (conn : ConnId) (bytes : Bytes) :
    Serves conn s (s.store conn bytes) := by
  unfold store
  split
  · exact .refl conn s
  · next o ho => exact serves_setObject ho rfl fun hm => hm

/-- **The table holds in every run.** -/
theorem table_step (s : IocpServer) (e : Event) (h : Table s) : Table (s.step e) := by
  cases e with
  | acceptDone ok =>
      simp only [step, acceptDone]
      split
      · exact h
      · exact ⟨h.nodup, h.available, h.object, h.session, h.fresh, h.player⟩
  | ioDone k ok bytes =>
      simp only [step, ioDone]
      split
      · exact h
      · next op _ =>
          have hst := h.serves (serves_store s op.conn (s.delivered op bytes))
          split
          · exact ⟨hst.nodup, hst.available, hst.object, hst.session, hst.fresh, hst.player⟩
          · exact ⟨h.nodup, h.available, h.object, h.session, h.fresh, h.player⟩
  | dequeue k a =>
      cases hc : s.port[k]? with
      | none => rw [step, dequeue_of_none hc]; exact h
      | some c =>
          have ht : Table { s with port := s.port.eraseIdx k } :=
            ⟨h.nodup, h.available, h.object, h.session, h.fresh, h.player⟩
          have hdone := dequeue_of_some (a := a) hc
          rw [step]
          generalize s.dequeue k a = s' at hdone ⊢
          cases hdone with
          | ignored => exact ht
          | accepted => exact (ht.onAccept a).finish none
          | failed conn => exact (ht.disconnectSession conn a).finish _
          | received conn =>
              exact (ht.serves (serves_onRecvComplete conn _ c.bytes.length a)).finish _
          | sent conn => exact (ht.serves (serves_onSendComplete conn _ a)).finish _
  | game login sends =>
      exact (((h.addPlayer login).serves (serves_sendAll 0 sends _))).finish none

theorem table_init (r : WsaResult) : Table (init r) := by
  refine Table.postAccept ?_ r
  refine ⟨List.nodup_range', fun _ _ => rfl, ?_, ?_, ?_, ?_⟩
  · exact fun _ _ hc => absurd hc (by simp)
  · exact fun _ _ hc => absurd hc (by simp)
  · exact fun _ _ hc => absurd hc (by simp)
  · exact fun _ _ hc => absurd hc (by simp)

/-! ## What a step adds -/

/-- An operation that a step starts: of an open session, or of the one that was
accepted. -/
def NewOp (s : IocpServer) (op : Overlapped) : Prop :=
  op.ioType ≠ .accept ∧ ((∃ o, s.objects op.conn = some o ∧ o.id = op.key) ∨
    op.conn = s.nextConn ∧ ∃ rest, s.availableIds = op.key :: rest)

theorem Serves.newOp (h : Serves conn s s') :
    ∀ op ∈ s'.overlapped, op ∈ s.overlapped ∨ NewOp s op := by
  intro op hop
  obtain ⟨ops, hops, hnew⟩ := h.overlapped
  rw [hops] at hop
  rcases List.mem_append.mp hop with hop | hop
  · exact .inl hop
  · exact .inr ⟨(hnew op hop).1, .inl (hnew op hop).2⟩

/-- `AddPlayer` writes to the players, and to nothing else. -/
theorem addPlayer_frame (s : IocpServer) (login : Option ObjectID) :
    ∃ players, s.addPlayer login = { s with players := players } := by
  unfold IocpServer.addPlayer
  split
  · exact ⟨s.players, rfl⟩
  · split
    · exact ⟨s.players, rfl⟩
    · exact ⟨_, rfl⟩

theorem overlapped_finish (conn : Option ConnId) (r : Except IocpServer IocpServer) :
    (finish conn r).overlapped = (leaves r).overlapped := by
  cases r <;> rfl

theorem overlapped_disconnectSession (s : IocpServer) (conn : ConnId) (a : Answers) :
    ∀ op ∈ (leaves (s.disconnectSession conn a)).overlapped, op ∈ s.overlapped ∨ NewOp s op := by
  have hspec := disconnectSession_spec conn s a
  generalize s.disconnectSession conn a = r at hspec ⊢
  cases hspec with
  | absent ho => exact fun op hop => .inl hop
  | marked o ho hmark => exact fun op hop => .inl hop
  | stuck o ho s' hs => exact hs.newOp
  | removed o ho m hs hplayer => exact hs.newOp

theorem postAccept_frame (s : IocpServer) (r : WsaResult) :
    (s.postAccept r).overlapped = s.overlapped ∧ (s.postAccept r).sessions = s.sessions ∧
      (s.postAccept r).objects = s.objects ∧ (s.postAccept r).port = s.port := by
  unfold postAccept
  split <;> exact ⟨rfl, rfl, rfl, rfl⟩

theorem overlapped_onAccept (s : IocpServer) (a : Answers) :
    ∀ op ∈ (leaves (s.onAccept a)).overlapped, op ∈ s.overlapped ∨ NewOp s op := by
  rcases onAccept_spec s a with ⟨-, heq⟩ | ⟨id, rest, m, havail, hs, -, heq⟩
  · rw [heq, leaves, (postAccept_frame s _).1]
    exact fun op hop => .inl hop
  · rw [heq, leaves, (postAccept_frame m _).1]
    intro op hop
    obtain ⟨ops, hops, hnew⟩ := hs.overlapped
    rw [hops] at hop
    rcases List.mem_append.mp hop with hold | hop
    · exact .inl hold
    · obtain ⟨hkind, o, ho, hid⟩ := hnew op hop
      refine .inr ⟨hkind, ?_⟩
      rw [objects_openSession] at ho
      split at ho
      · next hconn =>
          rw [← Option.some.inj ho] at hid
          exact .inr ⟨hconn, rest, by rw [havail, ← hid]⟩
      · exact .inl ⟨o, ho, hid⟩

theorem overlapped_step (s : IocpServer) (e : Event) :
    ∀ op ∈ (s.step e).overlapped, op ∈ s.overlapped ∨ NewOp s op := by
  cases e with
  | acceptDone ok =>
      simp only [step, acceptDone]
      split <;> exact fun op hop => .inl hop
  | ioDone k ok bytes =>
      simp only [step, ioDone]
      split
      · exact fun op hop => .inl hop
      · next op _ =>
          have hstore : (s.store op.conn (s.delivered op bytes)).overlapped = s.overlapped := by
            unfold store
            split <;> rfl
          intro op' hop'
          -- a finished operation goes to the port, and none is started
          have hmem : op' ∈ s.overlapped.eraseIdx k := by
            split at hop'
            · dsimp only at hop'
              rwa [hstore] at hop'
            · exact hop'
          exact .inl (Transition.mem_of_mem_eraseIdx hmem)
  | dequeue k a =>
      cases hc : s.port[k]? with
      | none =>
          rw [step, dequeue_of_none hc]
          exact fun op hop => .inl hop
      | some c =>
          have hdone := dequeue_of_some (a := a) hc
          rw [step]
          generalize s.dequeue k a = s' at hdone ⊢
          cases hdone with
          | ignored => exact fun op hop => .inl hop
          | accepted =>
              rw [overlapped_finish]
              exact overlapped_onAccept { s with port := s.port.eraseIdx k } a
          | failed conn =>
              rw [overlapped_finish]
              exact overlapped_disconnectSession { s with port := s.port.eraseIdx k } conn a
          | received conn =>
              rw [overlapped_finish]
              exact (serves_onRecvComplete conn { s with port := s.port.eraseIdx k }
                c.bytes.length a).newOp
          | sent conn =>
              rw [overlapped_finish]
              exact (serves_onSendComplete conn { s with port := s.port.eraseIdx k } a).newOp
  | game login sends =>
      rw [step, overlapped_finish]
      -- the packets of the game start sends, its players start nothing
      obtain ⟨players, hplayer⟩ := addPlayer_frame s login
      rw [hplayer]
      exact (serves_sendAll 0 sends { s with players := players }).newOp

end IocpServer

end Mmorpg
