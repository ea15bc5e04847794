/-
The accept chain.

One `AcceptEx` is posted at the start, and `OnAccept` posts the next. A worker
hands an `ACCEPT` completion to `OnAccept` only when it succeeded: one that failed
goes the way of a broken session, with the key of the listen socket, which is the
id of the first session. Then nothing is posted any more, and the session with
id 0 is disconnected. `PostAccept` does not try again either when `AcceptEx`
fails at once.
-/
import SimplestMmorpg.Lib.Transition
import SimplestMmorpg.Network.IocpTable

set_option autoImplicit false

namespace Mmorpg.IocpServer

open Transition

variable {s s' : IocpServer} {conn : ConnId} {a : Answers} {c : IoCompletion}

/-- The `AcceptEx` calls that are outstanding, and the `ACCEPT` completions that
wait for a worker. -/
def accepts (s : IocpServer) : ℕ := s.acceptsPosted + s.port.countP fun c => c.ioType = .accept

/-- One `AcceptEx` is left, and an `ACCEPT` completion disconnects no session. -/
structure AcceptKept (s : IocpServer) (e : Event) : Prop where
  one : (s.step e).accepts = 1
  kept : ∀ k a c, e = .dequeue k a → s.port[k]? = some c → c.ioType = .accept →
    ∀ id d, s.sessions id = some d → (s.step e).sessions id = some d ∧
      ∀ o, s.objects d = some o →
        ∃ o', (s.step e).objects d = some o' ∧ o'.disconnected = o.disconnected

/-- An `ACCEPT` completion that is taken has succeeded, and so does the next `AcceptEx`. -/
def AcceptsOk (s : IocpServer) : Event → Prop
  | .dequeue k a =>
    ∀ c, s.port[k]? = some c → c.ioType = .accept → c.ok = true ∧ a.acceptEx ≠ .error
  | _ => True

/-- The invariant of a run whose accepts succeed. -/
structure Chained (s : IocpServer) : Prop where
  table : Table s
  one : s.accepts = 1
  kinds : ∀ op ∈ s.overlapped, op.ioType ≠ .accept

/-! ## What the steps do to the count -/

theorem Serves.accepts (h : Serves conn s s') : s'.accepts = s.accepts := by
  rw [IocpServer.accepts, h.acceptsPosted, h.port, IocpServer.accepts]

theorem accepts_finish (conn : Option ConnId) (r : Except IocpServer IocpServer) :
    (finish conn r).accepts = (leaves r).accepts := by
  cases r <;> rfl

theorem accepts_postAccept (s : IocpServer) (r : WsaResult) :
    (s.postAccept r).accepts = s.accepts + if r = .error then 0 else 1 := by
  unfold postAccept
  split
  · rfl
  · simp only [accepts]
    omega

theorem accepts_disconnectSession (s : IocpServer) (conn : ConnId) (a : Answers) :
    (leaves (s.disconnectSession conn a)).accepts = s.accepts := by
  have hspec := disconnectSession_spec conn s a
  generalize s.disconnectSession conn a = r at hspec ⊢
  cases hspec with
  | absent ho => rfl
  | marked o ho hmark => rfl
  | stuck o ho s' hs => exact hs.accepts
  | removed o ho m hs hplayer => exact hs.accepts

theorem accepts_onAccept (s : IocpServer) (a : Answers) :
    (leaves (s.onAccept a)).accepts = s.accepts + if a.acceptEx = .error then 0 else 1 := by
  rcases onAccept_spec s a with ⟨-, heq⟩ | ⟨id, rest, m, -, hs, -, heq⟩
  · rw [heq]
    exact accepts_postAccept s a.acceptEx
  · rw [heq, leaves, accepts_postAccept, hs.accepts]
    rfl

/-- A completion that is taken is one less. -/
theorem accepts_taken {k : ℕ} (hc : s.port[k]? = some c) :
    s.accepts = ({ s with port := s.port.eraseIdx k } : IocpServer).accepts +
      if c.ioType = .accept then 1 else 0 := by
  simp only [accepts]
  rw [(perm_eraseIdx hc).countP_eq, List.countP_cons]
  simp only [decide_eq_true_eq]
  omega

/-- **The count after a completion was handled.** -/
theorem accepts_dequeue {k : ℕ} (hc : s.port[k]? = some c) :
    (s.dequeue k a).accepts + (if c.ioType = .accept then 1 else 0) =
      s.accepts + if c.ioType = .accept ∧ c.ok = true ∧ a.acceptEx ≠ .error then 1 else 0 := by
  have htaken := accepts_taken hc
  have hdone := dequeue_of_some (a := a) hc
  generalize ({ s with port := s.port.eraseIdx k } : IocpServer) = t at *
  generalize s.dequeue k a = s' at hdone ⊢
  have hfail : (c.ok = true → c.ioType ≠ .accept) →
      ¬ (c.ioType = .accept ∧ c.ok = true ∧ a.acceptEx ≠ .error) :=
    fun h hall => h hall.2.1 hall.1
  cases hdone with
  | ignored hs hbad =>
      rw [if_neg (hfail hbad), htaken, Nat.add_zero]
  | accepted hok ht =>
      rw [accepts_finish, accepts_onAccept, htaken, if_pos ht]
      by_cases herr : a.acceptEx = .error
      · rw [if_pos herr, if_neg fun h => h.2.2 herr]
      · rw [if_neg herr, if_pos ⟨ht, hok, herr⟩]
  | failed conn hs hbad =>
      rw [accepts_finish, accepts_disconnectSession, if_neg (hfail hbad), htaken, Nat.add_zero]
  | received conn hs ht =>
      rw [accepts_finish, (serves_onRecvComplete conn t _ a).accepts, htaken, ht]
      simp
  | sent conn hs ht =>
      rw [accepts_finish, (serves_onSendComplete conn t a).accepts, htaken, ht]
      simp

/-- A new session changes no other. -/
theorem onAccept_keeps (h : Table s) (a : Answers) {id : ObjectID} {d : ConnId}
    (hd : s.sessions id = some d) :
    (leaves (s.onAccept a)).sessions id = some d ∧
      ∀ o, s.objects d = some o →
        ∃ o', (leaves (s.onAccept a)).objects d = some o' ∧ o'.disconnected = o.disconnected := by
  have hpost : ∀ t : IocpServer, (t.postAccept a.acceptEx).sessions = t.sessions ∧
      (t.postAccept a.acceptEx).objects = t.objects := by
    intro t
    unfold postAccept
    split <;> exact ⟨rfl, rfl⟩
  rcases onAccept_spec s a with ⟨-, heq⟩ | ⟨i, rest, m, havail, hs, -, heq⟩
  · rw [heq, leaves, (hpost s).1, (hpost s).2]
    exact ⟨hd, fun o ho => ⟨o, ho, rfl⟩⟩
  · rw [heq, leaves, (hpost m).1, (hpost m).2, hs.sessions]
    have hne : id ≠ i := by
      rintro rfl
      have hnone := h.available id (by rw [havail]; exact List.mem_cons_self)
      exact absurd (hnone.symm.trans hd) (by simp)
    refine ⟨by rw [sessions_openSession, if_neg hne, hd], fun o ho => ?_⟩
    have hlt := Nat.ne_of_lt (h.fresh d o ho)
    obtain ⟨o', ho', hkept⟩ := hs.others d o hlt (by rw [objects_openSession, if_neg hlt, ho])
    exact ⟨o', ho', hkept.disconnected⟩

/-! ## One step -/

theorem accepts_step (h : Chained s) {e : Event} (hother : ∀ k a, e ≠ .dequeue k a) :
    (s.step e).accepts = 1 := by
  rw [← h.one]
  cases e with
  | acceptDone ok =>
      simp only [step, acceptDone]
      split
      · rfl
      · next hpos =>
          simp only [accepts, List.countP_append, List.countP_singleton]
          simp only [decide_true, if_true]
          omega
  | ioDone k ok bytes =>
      simp only [step, ioDone]
      split
      · rfl
      · next op hop =>
          have hkind := h.kinds op (List.mem_of_getElem? hop)
          have hstore := (serves_store s op.conn (s.delivered op bytes)).accepts
          unfold accepts at hstore ⊢
          split
          · simp only [List.countP_append, List.countP_singleton, hkind, decide_false]
            simpa using hstore
          · simp only [List.countP_append, List.countP_singleton, hkind, decide_false]
            simp
  | dequeue k a => exact absurd rfl (hother k a)
  | game login sends =>
      obtain ⟨players, hplayer⟩ := addPlayer_frame s login
      rw [step, accepts_finish, (serves_sendAll 0 sends _).accepts, hplayer]
      rfl

/-- **One step.** The chain is kept exactly when the `ACCEPT` completion, if the
step takes one, has succeeded, and the next `AcceptEx` does. -/
theorem acceptKept_iff (h : Chained s) (e : Event) : AcceptKept s e ↔ AcceptsOk s e := by
  cases e with
  | dequeue k a =>
      constructor
      · intro hkept c hc ht
        -- one accept was on its way, and the worker takes it and posts the next, or not
        have hcount := accepts_dequeue (a := a) hc
        have hone : (s.dequeue k a).accepts = 1 := hkept.one
        rw [hone, h.one, if_pos ht] at hcount
        by_contra hnot
        rw [if_neg fun hall => hnot hall.2] at hcount
        omega
      · intro hok
        cases hc : s.port[k]? with
        | none =>
            refine ⟨by rw [step, dequeue_of_none hc, h.one], ?_⟩
            intro k' a' c he hc'
            obtain ⟨rfl, rfl⟩ := Event.dequeue.inj he
            exact absurd (hc.symm.trans hc') (by simp)
        | some c =>
            have hcount := accepts_dequeue (a := a) hc
            refine ⟨?_, ?_⟩
            · rw [step]
              by_cases ht : c.ioType = .accept
              · rw [if_pos ht, if_pos ⟨ht, hok c hc ht⟩, h.one] at hcount
                omega
              · rw [if_neg ht, if_neg fun hall => ht hall.1, h.one] at hcount
                omega
            · intro k' a' c' he hc' ht id d hd
              obtain ⟨rfl, rfl⟩ := Event.dequeue.inj he
              obtain rfl := Option.some.inj (hc.symm.trans hc')
              have htable : Table { s with port := s.port.eraseIdx k } :=
                ⟨h.table.nodup, h.table.available, h.table.object, h.table.session,
                  h.table.fresh, h.table.player⟩
              have hdone := dequeue_of_some (a := a) hc
              rw [step]
              generalize s.dequeue k a = s' at hdone ⊢
              have hgood := (hok c hc ht).1
              cases hdone with
              | ignored hs hbad => exact absurd ht (hbad hgood)
              | accepted _ _ =>
                  -- the id comes from the pool, so no other session has it
                  have hkeeps := onAccept_keeps htable a hd
                  cases hr : ({ s with port := s.port.eraseIdx k } : IocpServer).onAccept a with
                  | ok t =>
                      rw [hr] at hkeeps
                      exact hkeeps
                  | error t =>
                      rw [hr] at hkeeps
                      exact hkeeps
              | failed conn hs hbad => exact absurd ht (hbad hgood)
              | received conn hs hrecv => exact absurd (ht.symm.trans hrecv) (by simp)
              | sent conn hs hsend => exact absurd (ht.symm.trans hsend) (by simp)
  | _ =>
      refine ⟨fun _ => trivial, fun _ => ⟨accepts_step h ?_, ?_⟩⟩
      · intro k a he
        exact absurd he (by simp)
      · intro k a c he
        exact absurd he (by simp)

/-! ## Whole runs -/

theorem chained_step (s : IocpServer) (e : Event) (h : Chained s) (hok : AcceptsOk s e) :
    Chained (s.step e) where
  table := table_step s e h.table
  one := ((acceptKept_iff h e).mpr hok).one
  kinds op hop := by
    rcases overlapped_step s e op hop with hold | hnew
    · exact h.kinds op hold
    · exact hnew.1

theorem chained_init {r : WsaResult} (hr : r ≠ .error) : Chained (init r) where
  table := table_init r
  one := by
    rw [init, accepts_postAccept, if_neg hr]
    rfl
  kinds op hop := by
    rw [init, postAccept, if_neg hr] at hop
    exact absurd hop List.not_mem_nil

/-- **The accept chain is kept exactly in the runs whose accepts succeed**: for
every order of every number of steps, the first `AcceptEx` included. -/
theorem acceptKept_run {r : WsaResult} {es : List Event} :
    (init r).accepts = 1 ∧ Along step AcceptKept (init r) es ↔
      r ≠ .error ∧ Along step AcceptsOk (init r) es := by
  have hrun : r ≠ .error →
      (Along step AcceptKept (init r) es ↔ Along step AcceptsOk (init r) es) := fun hr =>
    along_iff_of_invariant chained_step (fun _ e h => acceptKept_iff h e) (chained_init hr)
  constructor
  · rintro ⟨hone, hkept⟩
    have hr : r ≠ .error := by
      rintro rfl
      exact absurd hone (by decide)
    exact ⟨hr, (hrun hr).mp hkept⟩
  · rintro ⟨hr, hok⟩
    exact ⟨(chained_init hr).one, (hrun hr).mpr hok⟩

/-- One client is accepted; the next `AcceptEx` fails later, as when a client
resets its connection while it is in the backlog. -/
def resetAccept : List Event :=
  [.acceptDone true, .dequeue 0 .plain, .acceptDone false, .dequeue 0 .plain]

theorem resetAccept_end :
    (run step (init .pending) (resetAccept.take 3)).sessions 0 = some 0 ∧
      (run step (init .pending) resetAccept).sessions 0 = none ∧
      (run step (init .pending) resetAccept).accepts = 0 := by
  decide +kernel

/-- The failed accept disconnects the first client, and none is accepted any more. -/
theorem not_always_acceptKept :
    ¬ ∀ (es : List Event), Along step AcceptKept (init .pending) es := by
  intro hall
  have hsplit : resetAccept = resetAccept.take 3 ++ [.dequeue 0 .plain] := rfl
  have h := hall resetAccept
  rw [hsplit, along_append] at h
  have hone := h.2.1.one
  have hend : (run step (init .pending) resetAccept).accepts = 0 := resetAccept_end.2.2
  rw [hsplit, run_append] at hend
  exact absurd (hone.symm.trans hend) (by simp)

end Mmorpg.IocpServer
