/-
Whom the result of a login is applied to.

A login is posted to the worker with the numeric session id, and its callback
looks the id up again. An id is free as soon as its session is closed, and the
pool hands it out again after all ids before it, so with few ids left a login
that is still in flight can meet another connection under its id. As long as
no accept hands out an id that a login in flight carries, each result finds
the connection that asked for it, or none.
-/
import SimplestMmorpg.Server.Linked

set_option autoImplicit false

namespace Mmorpg

open Transition ViewProcessor

/-- `SC_LOGIN_OK` and `SC_LOGIN_FAIL`. -/
def ScPacket.isLoginResult : ScPacket → Bool
  | .loginOk .. => true
  | .loginFail _ => true
  | _ => false

/-- The login results that were sent, each with its connection. -/
def World.loginResults (w : World) : List (ConnId × ScPacket) :=
  w.sent.filter fun x => x.2.isLoginResult

namespace Server

open World

variable {s s' : Server} {env : Env} {id : ObjectID} {conn : ConnId} {c : Completion}

/-- What the callback of a login should do. While the connection that sent the
login is open, exactly one result is sent, to it, and a player object that was
not there before is that of its session; once it is closed, the result is
dropped. -/
structure AppliedToOwner (s s' : Server) (c : Completion) : Prop where
  applied : ∀ i, s.sessions i = some c.conn →
    (∃ pkt, s'.game.world.loginResults = s.game.world.loginResults ++ [(c.conn, pkt)]) ∧
      ∀ j p, s'.game.world.getPlayer j = some p →
        (∃ q, s.game.world.getPlayer j = some q ∧ q.who = p.who) ∨ j = i ∧ p.session = c.conn
  dropped : (∀ i, s.sessions i ≠ some c.conn) → s'.game = s.game

/-- Every step that delivers a login result applies it to its owner. -/
def ResultOwned (s : Server) : Event → Prop
  | .complete k env => ∀ c, s.completions[k]? = some c →
      AppliedToOwner s (s.step (.complete k env)) c
  | _ => True

/-- No accept hands out an id that a login in flight carries. -/
def FreshIds (s : Server) : Event → Prop
  | .accept => ∀ id rest, s.availableIds = id :: rest →
      (∀ t ∈ s.loginQueue, t.sessionId ≠ id) ∧ ∀ c ∈ s.completions, c.sessionId ≠ id
  | _ => True

instance (s : Server) : ∀ e, Decidable (FreshIds s e)
  | .accept =>
    decidable_of_iff (∀ id ∈ s.availableIds.head?,
        (∀ t ∈ s.loginQueue, t.sessionId ≠ id) ∧ ∀ c ∈ s.completions, c.sessionId ≠ id)
      ⟨fun h id rest hid => h id (by rw [hid]; rfl), fun h id hid => by
        obtain ⟨rest, hrest⟩ := List.head?_eq_some_iff.mp hid
        exact h id rest hrest⟩
  | .tick _ | .close _ _ | .packet _ _ _ _ | .loginWorker _ _ | .saveWorker _ | .complete _ _
  | .timer _ _ => .isTrue trivial

/-! ## The owner of a login in flight -/

/-- The session id leads to this connection or to none, and no other id leads
to the connection. -/
structure OwnedBy (s : Server) (id : ObjectID) (conn : ConnId) : Prop where
  id_lt : id < maxPlayers
  lt : conn < s.nextConn
  session : ∀ c, s.sessions id = some c → c = conn
  unique : ∀ i, s.sessions i = some conn → i = id

/-- Each login in flight is owned by the connection that sent it. -/
structure Owned (s : Server) : Prop where
  tasks : ∀ t ∈ s.loginQueue, OwnedBy s t.sessionId t.conn
  results : ∀ c ∈ s.completions, OwnedBy s c.sessionId c.conn

theorem OwnedBy.congr (h : OwnedBy s id conn) (hs : s'.sessions = s.sessions)
    (hn : s'.nextConn = s.nextConn) : OwnedBy s' id conn := by
  refine ⟨h.id_lt, ?_, ?_, ?_⟩
  · rw [hn]
    exact h.lt
  · rw [hs]
    exact h.session
  · rw [hs]
    exact h.unique

/-- The session that sends a login owns it. -/
theorem Linked.ownedBy (h : Linked s) (hs : s.sessions id = some conn) : OwnedBy s id conn where
  id_lt := h.session_lt id conn hs
  lt := h.conn_lt id conn hs
  session _ hc := Option.some.inj (hc.symm.trans hs)
  unique i hi := h.conn_inj i id conn hi hs

/-- Another id is handed out: its connection is a new one. -/
theorem OwnedBy.onAccept (h : OwnedBy s id conn) {k : ObjectID} {rest : List ObjectID}
    (havail : s.availableIds = k :: rest) (hne : id ≠ k) : OwnedBy s.onAccept id conn := by
  rw [onAccept_cons havail]
  refine ⟨h.id_lt, Nat.lt_succ_of_lt h.lt, ?_, ?_⟩
  · intro c hc
    dsimp only at hc
    rw [Function.update_of_ne hne] at hc
    exact h.session c hc
  · intro i hi
    dsimp only at hi
    by_cases hik : i = k
    · subst hik
      rw [Function.update_self] at hi
      have hlt := h.lt
      rw [← Option.some.inj hi] at hlt
      exact absurd hlt (Nat.lt_irrefl _)
    · rw [Function.update_of_ne hik] at hi
      exact h.unique i hi

/-- A session is closed: nothing new is led to. -/
theorem OwnedBy.disconnectSession (h : OwnedBy s id conn) (env : Env) (k : ObjectID) :
    OwnedBy (s.disconnectSession env k) id conn := by
  unfold Server.disconnectSession
  split
  · exact h
  · have hold : ∀ i c, Function.update s.sessions k none i = some c → s.sessions i = some c := by
      intro i c hc
      by_cases hik : i = k
      · subst hik
        rw [Function.update_self] at hc
        exact absurd hc (by simp)
      · rwa [Function.update_of_ne hik] at hc
    exact ⟨h.id_lt, h.lt, fun c hc => h.session c (hold id c hc),
      fun i hi => h.unique i (hold i conn hi)⟩

/-! ## One step -/

theorem owned_init (map : Map) (spawns : List MonsterSpawnData) (now : ℕ) (store : PlayerStore) :
    Owned (init map spawns now store) :=
  ⟨fun _ ht => absurd ht List.not_mem_nil, fun _ hc => absurd hc List.not_mem_nil⟩

/-- While the sessions stay, it is enough to look at what is in flight. -/
theorem owned_of (hs : s'.sessions = s.sessions) (hn : s'.nextConn = s.nextConn)
    (htasks : ∀ t ∈ s'.loginQueue, OwnedBy s t.sessionId t.conn)
    (hresults : ∀ c ∈ s'.completions, OwnedBy s c.sessionId c.conn) : Owned s' where
  tasks t ht := (htasks t ht).congr hs hn
  results c hc := (hresults c hc).congr hs hn

theorem Owned.congr (h : Owned s) (hs : s'.sessions = s.sessions) (hn : s'.nextConn = s.nextConn)
    (htasks : ∀ t ∈ s'.loginQueue, t ∈ s.loginQueue)
    (hresults : ∀ c ∈ s'.completions, c ∈ s.completions) : Owned s' :=
  owned_of hs hn (fun t ht => h.tasks t (htasks t ht)) fun c hc => h.results c (hresults c hc)

theorem owned_handlePacket (h : Owned s) (hl : Linked s) (hs : s.sessions id = some conn)
    (env : Env) (data : Bytes) (size : ℕ) : Owned (s.handlePacket env id conn data size) := by
  unfold handlePacket
  split
  · exact h
  · -- the new task carries the session it was sent on
    refine owned_of (s := s) ?_ ?_ ?_ h.results
    · rfl
    · rfl
    · intro t ht
      rcases List.mem_append.mp ht with ht | ht
      · exact h.tasks t ht
      · rw [List.mem_singleton.mp ht]
        exact hl.ownedBy hs
  all_goals exact h.congr rfl rfl (fun _ ht => ht) fun _ hc => hc

theorem owned_loginWorker (h : Owned s) (loadOk createOk : Bool) :
    Owned (s.loginWorker loadOk createOk) := by
  unfold loginWorker
  split
  · exact h
  · next task rest hqueue =>
      refine owned_of (s := s) ?_ ?_ ?_ ?_
      · rfl
      · rfl
      · intro t ht
        apply h.tasks t
        rw [hqueue]
        exact List.mem_cons_of_mem _ ht
      · -- the result carries the session of its task
        intro c hc
        rcases List.mem_append.mp hc with hc | hc
        · exact h.results c hc
        · rw [List.mem_singleton.mp hc]
          exact h.tasks task (by rw [hqueue]; exact List.mem_cons_self)

/-- **Every step keeps the owners**, unless it hands an id out again too early. -/
theorem owned_step (s : Server) (e : Event) (hl : Linked s) (h : Owned s) (hok : FreshIds s e) :
    Owned (s.step e) := by
  cases e with
  | tick ms => exact h.congr rfl rfl (fun _ ht => ht) fun _ hc => hc
  | accept =>
      cases havail : s.availableIds with
      | nil =>
          simp only [step, onAccept, havail]
          exact h
      | cons k rest =>
          -- the id that is handed out is in no task and no result any more
          obtain ⟨htasks, hresults⟩ := hok k rest havail
          have hq : (s.step .accept).loginQueue = s.loginQueue ∧
              (s.step .accept).completions = s.completions := by
            simp only [step, onAccept_cons havail, and_self]
          refine ⟨?_, ?_⟩
          · intro t ht
            rw [hq.1] at ht
            exact (h.tasks t ht).onAccept havail (htasks t ht)
          · intro c hc
            rw [hq.2] at hc
            exact (h.results c hc).onAccept havail (hresults c hc)
  | close id env =>
      -- a login in flight stays where it is; its id leads to no connection now
      have hq : (s.disconnectSession env id).loginQueue = s.loginQueue ∧
          (s.disconnectSession env id).completions = s.completions := by
        unfold Server.disconnectSession
        split <;> exact ⟨rfl, rfl⟩
      refine ⟨?_, ?_⟩
      · intro t ht
        apply OwnedBy.disconnectSession
        exact h.tasks t (hq.1 ▸ ht)
      · intro c hc
        apply OwnedBy.disconnectSession
        exact h.results c (hq.2 ▸ hc)
  | packet id data size env =>
      simp only [step]
      split
      · exact h
      · next conn hs => exact owned_handlePacket h hl hs env data size
  | loginWorker loadOk createOk => exact owned_loginWorker h loadOk createOk
  | saveWorker saveOk =>
      simp only [step, saveWorker]
      split
      · exact h
      · split
        · split
          · unfold savePlayer
            split <;> exact h.congr rfl rfl (fun _ ht => ht) fun _ hc => hc
          · exact h.congr rfl rfl (fun _ ht => ht) fun _ hc => hc
        · exact h.congr rfl rfl (fun _ ht => ht) fun _ hc => hc
  | complete k env =>
      obtain ⟨h1, h2, h3, h4, -⟩ := sessions_deliver s env k
      exact h.congr h1 h2 (fun t ht => h3 ▸ ht) h4
  | timer k env =>
      simp only [step, fireTimer]
      split
      · exact h
      · exact h.congr rfl rfl (fun _ ht => ht) fun _ hc => hc

/-! ## The result of a login -/

theorem loginResults_send (w : World) (conn : ConnId) {pkt : ScPacket}
    (hpkt : pkt.isLoginResult = true) :
    (w.send conn pkt).loginResults = w.loginResults ++ [(conn, pkt)] := by
  have hone : [(conn, pkt)].filter (fun x => x.2.isLoginResult) = [(conn, pkt)] :=
    List.filter_cons_of_pos hpkt
  rw [loginResults, send, List.filter_append, hone, loginResults]

theorem loginResults_welcome (env : Env) (w : World) (conn : ConnId) (p : Player) :
    (w.welcome env conn p).loginResults = w.loginResults ++ [(conn, loginOkPkt p)] := by
  rw [loginResults, sent_welcome, List.filter_append, List.filter_append]
  have hview : (sendFullView env (w.send conn (loginOkPkt p)) p).filter
      (fun x => x.2.isLoginResult) = [] := by
    apply List.filter_eq_nil_iff.mpr
    intro x hx
    obtain ⟨obj, hobj⟩ := addObject_of_mem_sendFullView hx
    rw [hobj]
    simp [ScPacket.isLoginResult]
  rw [hview, List.append_nil]
  rfl

/-- The callback on the session it finds: one result, and at most one player,
for that session. -/
theorem runCallback_open (env : Env) (hs : s.getSession c.sessionId = some conn) :
    (∃ pkt, (s.runCallback env c).game.world.loginResults =
      s.game.world.loginResults ++ [(conn, pkt)]) ∧
      ∀ j p, (s.runCallback env c).game.world.getPlayer j = some p →
        (∃ q, s.game.world.getPlayer j = some q ∧ q.who = p.who) ∨
          j = c.sessionId ∧ p.session = conn := by
  unfold runCallback
  dsimp only
  rw [hs]
  cases c.result with
  | failed reason =>
      refine ⟨⟨_, loginResults_send _ conn rfl⟩, ?_⟩
      intro j p hp
      exact .inl ⟨p, hp, rfl⟩
  | loaded row =>
      dsimp only
      have hspec := GameWorld.onLoginDBLoaded_spec env s.game c.sessionId conn row
      generalize s.game.onLoginDBLoaded env c.sessionId (some conn) row = gw at hspec ⊢
      cases hspec with
      | duplicate => exact ⟨⟨_, loginResults_send _ conn rfl⟩, fun j p hp => .inl ⟨p, hp, rfl⟩⟩
      | full => exact ⟨⟨_, loginResults_send _ conn rfl⟩, fun j p hp => .inl ⟨p, hp, rfl⟩⟩
      | added _ v q hadd hq =>
          refine ⟨⟨loginOkPkt q, ?_⟩, ?_⟩
          · dsimp only
            rw [loginResults_welcome, loginResults, sent_addPlayer hadd, loginResults]
          · intro j p hp
            obtain ⟨spawn, hget⟩ := getPlayer_addPlayer hadd
            have hid := getPlayer_id hq
            obtain rfl := session_of_addPlayer hadd hq
            have hsteady := (calm_welcome (w := v) (by rw [hid, hq]) env).toSteady
            obtain ⟨p', hp', hwho⟩ := hsteady.player hp
            -- the new player is the one under the id of the session
            by_cases hj : j = c.sessionId
            · right
              rw [hj, hq] at hp'
              rw [Option.some.inj hp']
              exact ⟨hj, (congrArg Player.Who.session hwho).symm⟩
            · left
              rw [hget, if_neg hj] at hp'
              exact ⟨p', hp', hwho⟩

theorem runCallback_closed (env : Env) (hs : s.getSession c.sessionId = none) :
    (s.runCallback env c).game = s.game := by
  unfold runCallback
  dsimp only
  rw [hs]
  cases c.result <;> rfl

/-- **A login result whose id still leads to its connection is applied to it**,
and one whose id leads nowhere is dropped. -/
theorem OwnedBy.appliedToOwner (h : OwnedBy s c.sessionId c.conn) (env : Env) : AppliedToOwner s (s.runCallback env c) c := by
  have hsession : s.getSession c.sessionId = s.sessions c.sessionId := by
    rw [getSession, if_pos h.id_lt]
  refine ⟨?_, ?_⟩
  · intro i hi
    obtain rfl := h.unique i hi
    exact runCallback_open env (hsession.trans hi)
  · intro hclosed
    apply runCallback_closed
    rw [hsession]
    cases ho : s.sessions c.sessionId with
    | none => rfl
    | some conn =>
        rw [h.session conn ho] at ho
        exact absurd ho (hclosed c.sessionId)

/-! ## Whole runs -/

theorem resultOwned_step (s : Server) (e : Event) (h : Owned s) : ResultOwned s e := by
  cases e with
  | complete k env =>
      intro c hc
      -- the session is looked up after the completion is taken from the port
      have htaken : OwnedBy { s with completions := s.completions.eraseIdx k } c.sessionId c.conn :=
        (h.results c (List.mem_of_getElem? hc)).congr rfl rfl
      have happly := htaken.appliedToOwner env
      have hstep : s.step (.complete k env) =
          { s with completions := s.completions.eraseIdx k }.runCallback env c := by
        simp only [step, deliver, hc]
      rw [hstep]
      exact ⟨happly.applied, happly.dropped⟩
  | _ => trivial

/-- **Login results reach only their requester**, in every run in which no
accept hands out an id that a login in flight carries. -/
theorem resultOwned_run {map : Map} {spawns : List MonsterSpawnData} {now : ℕ} {store : PlayerStore}
    {es : List Event} (hok : Along step FreshIds (init map spawns now store) es) :
    Along step ResultOwned (init map spawns now store) es := by
  apply Along.of_invariant (I := fun s => Linked s ∧ Owned s) (C := FreshIds)
  · intro s e h hfresh
    exact ⟨linked_step s e h.1, owned_step s e h.1 h.2 hfresh⟩
  · intro s e h _
    exact resultOwned_step s e h.2
  · exact ⟨linked_init map spawns now store, owned_init map spawns now store⟩
  · exact hok

/-- The first client leaves while its login is queued, behind it waits the login of
a second one, and a third connects before either result is there. -/
def leavesEarly : List Event :=
  [.accept, .packet 0 (loginPacket [65]) 36 .plain, .accept, .packet 1 (loginPacket [66]) 36 .plain,
    .close 0 .plain, .accept, .loginWorker true true, .loginWorker true true,
    .complete 0 .plain, .complete 0 .plain]

/-- The first result is dropped, and the second reaches its client. -/
theorem resultOwned_run_leavesEarly :
    Along step ResultOwned (init openField [] 0 .init) leavesEarly ∧
      [0, 1, 2].map (fun i => ((run step (init openField [] 0 .init)
        leavesEarly).game.world.getPlayer i).map fun p => (p.name, p.session)) =
        [none, some ([66], 1), none] :=
  ⟨resultOwned_run (by decide +kernel), by decide +kernel⟩

/-! ## An id that is handed out too early -/

/-- A server whose sessions are all open. -/
def crowded : Server :=
  { init openField [] 0 .init with
    availableIds := []
    sessions := fun i => if i < maxPlayers then some i else none
    nextConn := maxPlayers }

/-- The first sessions are handed out in the order of their ids. -/
theorem run_accepts (s : Server) (n m : ℕ) (havail : s.availableIds = List.range' s.nextConn (n + m))
    (hsessions : s.sessions = fun i => if i < s.nextConn then some i else none) :
    run step s (List.replicate n .accept) =
      { s with
        availableIds := List.range' (s.nextConn + n) m
        sessions := fun i => if i < s.nextConn + n then some i else none
        nextConn := s.nextConn + n } := by
  induction n generalizing s with
  | zero =>
      rw [Nat.zero_add] at havail
      simp only [List.replicate_zero, run_nil, Nat.add_zero, ← havail, ← hsessions]
  | succ n ih =>
      rw [Nat.add_right_comm, List.range'_succ] at havail
      rw [List.replicate_succ, run_cons, step, onAccept_cons havail, ih]
      · simp only [Nat.add_assoc, Nat.add_comm 1 n]
      · rfl
      · -- the new session is the next one
        funext i
        dsimp only
        by_cases hi : i = s.nextConn
        · rw [hi, Function.update_self, if_pos (Nat.lt_succ_self _)]
        · rw [Function.update_of_ne hi, hsessions]
          dsimp only
          by_cases hlt : i < s.nextConn
          · rw [if_pos hlt, if_pos (Nat.lt_succ_of_lt hlt)]
          · rw [if_neg hlt, if_neg]
            intro hle
            exact hi (Nat.le_antisymm (Nat.le_of_lt_succ hle) (Nat.le_of_not_lt hlt))

theorem run_accepts_crowded :
    run step (init openField [] 0 .init) (List.replicate maxPlayers .accept) = crowded := by
  rw [run_accepts (init openField [] 0 .init) maxPlayers 0 rfl]
  · simp only [crowded, init, Nat.zero_add]
    rfl
  · funext i
    simp [init]

/-- The first client sends its login and leaves, and another gets its id before
the login is done. -/
def overtaken : List Event :=
  [.packet 0 (loginPacket [65]) 36 .plain, .close 0 .plain, .accept, .loginWorker true true]

theorem overtaken_login :
    let s := run step crowded overtaken
    s.completions.map (fun c => (c.sessionId, c.conn)) = [(0, 0)] ∧
      (s.game.world.getPlayer 0).map (·.session) = none ∧
      ((s.step (.complete 0 .plain)).game.world.getPlayer 0).map (·.session) = some maxPlayers := by
  decide +kernel

theorem overtaken_sessions : (run step crowded overtaken).sessions =
    Function.update (Function.update crowded.sessions 0 none) 0 (some maxPlayers) := rfl

/-- The player made for the login of a closed connection is another client's. -/
theorem not_always_resultOwned :
    ¬ ∀ (map : Map) (spawns : List MonsterSpawnData) (now : ℕ) (store : PlayerStore)
      (es : List Event), Along step ResultOwned (init map spawns now store) es := by
  intro hall
  have h := hall openField [] 0 .init
    (List.replicate maxPlayers .accept ++ (overtaken ++ [.complete 0 .plain]))
  rw [along_append, along_append, run_accepts_crowded] at h
  obtain ⟨-, -, hlast, -⟩ := h
  obtain ⟨hone, hbefore, hafter⟩ := overtaken_login
  generalize hs : run step crowded overtaken = s at *
  obtain ⟨c, hc, hcid⟩ : ∃ c, s.completions[0]? = some c ∧ (c.sessionId, c.conn) = (0, 0) := by
    have hget := congrArg (fun l => l[0]?) hone
    rw [List.getElem?_map] at hget
    exact Option.map_eq_some_iff.mp hget
  have hconn : c.conn = 0 := (Prod.mk.inj hcid).2
  -- the connection that sent the login has no session any more
  have hclosed : ∀ i, s.sessions i ≠ some c.conn := by
    intro i hi
    rw [← hs, overtaken_sessions, hconn] at hi
    by_cases hi0 : i = 0
    · rw [hi0, Function.update_self] at hi
      exact absurd hi (by decide)
    · rw [Function.update_of_ne hi0, Function.update_of_ne hi0] at hi
      dsimp only [crowded] at hi
      split at hi
      · exact hi0 (Option.some.inj hi)
      · exact absurd hi (by simp)
  rw [(hlast c hc).dropped hclosed, hbefore] at hafter
  exact absurd hafter (by simp)

end Server

end Mmorpg
