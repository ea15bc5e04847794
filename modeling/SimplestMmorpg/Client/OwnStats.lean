/-
What a client shows of its own player.

`SC_LOGIN_OK` and `SC_STAT_CHANGE` fill in the level, the experience and the
hit points of `m_myPlayer`. The server changes them in `TakeDamage`, `GainExp`,
`RegenHP` and `Die`, and sends `SC_STAT_CHANGE` after each, but for a death
that finds no tile, which returns before. So the client of a connection is a
mirror (`Lib/Mirror`) of the player that has the connection: a login resets it,
and every effect of a handler leads it on.

With `Located` for the position, the packets say of `m_myPlayer` all that the
server has.
-/
import SimplestMmorpg.Client.OwnPosition
import SimplestMmorpg.Client.View
import SimplestMmorpg.Lib.Mirror
import SimplestMmorpg.Server.StepEffects

set_option autoImplicit false

namespace Mmorpg

/-! ## The stats and their mirror -/

/-- `MyPlayer` without the position. -/
structure OwnStats where
  id : ObjectID
  level : UInt16
  exp : Int
  hp : Int
  maxHp : Int
  deriving DecidableEq, Repr

def GameState.ownStats (state : GameState) : OwnStats :=
  ⟨state.me.id, state.me.level, state.me.exp, state.me.hp, state.me.maxHp⟩

/-- The stats of a player as its client is told them. -/
def Player.ownStats (p : Player) : OwnStats := ⟨p.id, p.level, toInt32 p.exp, p.hp, p.maxHp⟩

/-- All a client keeps of its own player. The server's experience is an `int32_t` too. -/
def Player.me (p : Player) : MyPlayer := ⟨p.id, p.pos, p.level, toInt32 p.exp, p.hp, p.maxHp⟩

/-- What the packets say of the experience as a `uint32_t` is read back as it was. -/
@[simp] theorem toInt32_toUInt32 (v : Int) : toInt32 (toUInt32 v) = toInt32 v := by
  unfold toInt32 toUInt32
  omega

/-- What a packet makes of the stats. -/
def ScPacket.restate (stats : OwnStats) : ScPacket → OwnStats
  | .loginOk myId _ level exp hp maxHp => ⟨myId, level, toInt32 exp, hp, maxHp⟩
  | .statChange id hp maxHp exp level =>
    if id = stats.id then ⟨stats.id, level, toInt32 exp, hp, maxHp⟩ else stats
  | _ => stats

theorem GameState.ownStats_onPacket (state : GameState) (pkt : ScPacket) :
    (state.onPacket pkt).ownStats = pkt.restate state.ownStats := by
  cases pkt with
  | statChange id hp maxHp exp level =>
      by_cases hid : id = state.me.id
      · have hstate : state.onPacket (.statChange id hp maxHp exp level) =
            state.setMyPlayer
              { state.me with hp := hp, maxHp := maxHp, exp := toInt32 exp, level := level } :=
          if_pos hid
        have hstats : (ScPacket.statChange id hp maxHp exp level).restate state.ownStats =
            ⟨state.ownStats.id, level, toInt32 exp, hp, maxHp⟩ := if_pos hid
        rw [hstate, hstats]
        rfl
      · have hstate : state.onPacket (.statChange id hp maxHp exp level) = state := if_neg hid
        have hstats : (ScPacket.statChange id hp maxHp exp level).restate state.ownStats =
            state.ownStats := if_neg hid
        rw [hstate, hstats]
  | moveObject id pos moveTime =>
      simp only [onPacket, ScPacket.restate]
      split
      · rfl
      · rfl
  | _ => rfl

namespace World

open Mirror

variable {sc : Scope} {env : Env} {w w' v : World} {conn c : ConnId} {p q : Player} {pkt : ScPacket}
  {pkts : List (ConnId × ScPacket)} {stats : OwnStats}

/-- **The client of a connection as a mirror** of the player that has it. -/
def statMirror (conn : ConnId) : Mirror World OwnStats ScPacket where
  log w := onConn conn w.sent
  holds w stats := ∃ p, w.getPlayer p.id = some p ∧ p.session = conn ∧ p.ownStats = stats
  apply stats pkt := pkt.restate stats

/-- Packets that are not about the stats of the receiver. -/
def Plain (pkts : List (ConnId × ScPacket)) : Prop :=
  ∀ x ∈ pkts, ∀ stats, x.2.restate stats = stats

theorem Plain.foldl (h : Plain pkts) (conn : ConnId) (stats : OwnStats) :
    (onConn conn pkts).foldl (statMirror conn).apply stats = stats :=
  foldl_of_fixed fun _ hpkt => h (conn, _) (mem_onConn.mp hpkt) stats

/-- A player keeps its stats and its connection, and what is sent is about
other things. -/
theorem leads_plain (w' : World) (pkts : List (ConnId × ScPacket))
    (hsent : w'.sent = w.sent ++ pkts) (hplain : Plain pkts)
    (hplayers : ∀ q, w'.getPlayer q.id = some q →
      ∃ p, w.getPlayer p.id = some p ∧ p.session = q.session ∧ p.ownStats = q.ownStats)
    (conn : ConnId) : (statMirror conn).Leads w w' := by
  refine ⟨onConn conn pkts, ?_, ?_⟩
  · exact (congrArg (onConn conn) hsent).trans (onConn_append conn _ _)
  · rintro stats ⟨q, hq, hqs, rfl⟩
    obtain ⟨p, hp, hps, hpq⟩ := hplayers q hq
    exact ⟨p.ownStats, ⟨p, hp, hps.trans hqs, rfl⟩, (hplain.foldl conn _).trans hpq⟩

/-- A player is written, and keeps its stats. -/
theorem leads_setPlayer (hp : w.getPlayer p.id = some p) (hs : q.session = p.session)
    (hstats : q.ownStats = p.ownStats) (conn : ConnId) :
    (statMirror conn).Leads w (w.setPlayer q) := by
  refine leads_plain (w.setPlayer q) [] (List.append_nil w.sent).symm
    (fun x hx => absurd hx List.not_mem_nil) (fun r hr => ?_) conn
  rw [getPlayer_setPlayer] at hr
  split at hr
  · obtain rfl := Option.some.inj hr
    exact ⟨p, hp, hs.symm, hstats.symm⟩
  · exact ⟨r, hr, rfl, rfl⟩

/-- **A player is written, and its client is told.** -/
theorem leads_report (hp : w.getPlayer p.id = some p) (hs : q.session = p.session)
    (hid : q.id = p.id) (conn : ConnId) :
    (statMirror conn).Leads w ((w.setPlayer q).send q.session q.statPkt) := by
  refine ⟨onConn conn [(q.session, q.statPkt)], onConn_append conn _ _, ?_⟩
  rintro stats ⟨r, hr, hrs, rfl⟩
  have hr' : (w.setPlayer q).getPlayer r.id = some r := hr
  rw [getPlayer_setPlayer] at hr'
  split at hr'
  · -- the one that is written: the packet is about it, and on its connection
    obtain rfl := Option.some.inj hr'
    refine ⟨p.ownStats, ⟨p, hp, hs.symm.trans hrs, rfl⟩, ?_⟩
    have honly : onConn conn [(q.session, q.statPkt)] = [q.statPkt] := by simp [onConn, hrs]
    rw [honly]
    have hself : q.statPkt.restate p.ownStats =
        ⟨p.id, q.level, toInt32 (toUInt32 q.exp), q.hp, q.maxHp⟩ := if_pos hid
    exact hself.trans (by rw [← hid, toInt32_toUInt32]; rfl)
  · -- another one: its client would be told of an id that is not its own
    next hne =>
    refine ⟨r.ownStats, ⟨r, hr', hrs, rfl⟩, foldl_of_fixed fun pkt hpkt => ?_⟩
    have hpkt' := List.mem_singleton.mp (mem_onConn.mp hpkt)
    rw [(Prod.mk.inj hpkt').2]
    exact if_neg fun heq => hne heq.symm

/-! ## Effects -/

theorem Says.restate (h : w.Says pkt) (stats : OwnStats) : pkt.restate stats = stats := by
  cases h <;> rfl

theorem sessionStats_of_tweaked {map : Map} {now : ℕ} (h : p.Tweaked sc map now q) :
    q.session = p.session ∧ q.ownStats = p.ownStats := by
  cases h <;> exact ⟨rfl, rfl⟩

theorem who_of_restated {map : Map} {slain : Monster → Prop} (h : p.Restated map slain q) :
    q.session = p.session ∧ q.id = p.id := by
  cases h with
  | damaged dmg => exact ⟨rfl, rfl⟩
  | rewarded m =>
      have hident := p.ident_gainExp m.getExpReward
      exact ⟨congrArg Player.Ident.session hident, congrArg Player.Ident.id hident⟩
  | healed _ _ => exact ⟨rfl, rfl⟩
  | revived pos => exact ⟨rfl, rfl⟩

/-- **Every effect leads the client of the connection on**, if no death on this
connection goes without a tile. -/
theorem leads_effect (hlost : ∀ c, sc.lost c → c ≠ conn) (h : Effect sc w w') :
    (statMirror conn).Leads w w' := by
  cases h with
  | placed sm _ => exact .of_eq rfl fun _ hr => hr
  | edited m m' => exact .of_eq rfl fun _ hr => hr
  | timer type id delayMs owner => exact .of_eq rfl fun _ hr => hr
  | said c pkt hsaid =>
      refine leads_plain (w.send c pkt) [(c, pkt)] rfl (fun x hx stats => ?_)
        (fun q hq => ⟨q, hq, rfl, rfl⟩) conn
      rw [List.mem_singleton.mp hx]
      exact hsaid.restate stats
  | tweaked p q hp htweak =>
      obtain ⟨hs, hstats⟩ := sessionStats_of_tweaked htweak
      exact leads_setPlayer hp hs hstats conn
  | restated p q hp hrestated =>
      obtain ⟨hs, hid⟩ := who_of_restated hrestated
      exact leads_report hp hs hid conn
  | fallen p hp hfall =>
      -- the player that is written has another connection
      refine ⟨[], (List.append_nil _).symm, ?_⟩
      rintro stats ⟨r, hr, hrs, rfl⟩
      refine ⟨r.ownStats, ⟨r, ?_, hrs, rfl⟩, rfl⟩
      rw [getPlayer_setPlayer] at hr
      split at hr
      · obtain rfl := Option.some.inj hr
        exact absurd hrs (hlost _ hfall)
      · exact hr

theorem leads_effects (conn : ConnId) (hlost : ∀ c, sc.lost c → c ≠ conn) (h : Effects sc w w') :
    (statMirror conn).Leads w w' :=
  h.keeps (P := fun v => (statMirror conn).Leads w v)
    (fun _ _ hu he => hu.trans (leads_effect hlost he)) (.refl w)

/-! ## Logins -/

theorem plain_sendFullView (env : Env) (w : World) (p : Player) :
    Plain (ViewProcessor.sendFullView env w p) := by
  intro x hx stats
  obtain ⟨obj, hobj⟩ := addObject_of_mem_sendFullView hx
  rw [hobj]
  rfl

theorem plain_sendDisappear (env : Env) (w : World) (p : Player) :
    Plain (ViewProcessor.sendDisappear env w p) := by
  intro x hx stats
  obtain ⟨j, other, -, -, rfl⟩ := ViewProcessor.of_mem_sendDisappear hx
  rfl

/-- A login resets the client whose it is, and says nothing to the others. -/
theorem welcome_leads_or_resets (hp : v.getPlayer p.id = some p)
    (hget : ∀ i, i ≠ p.id → v.getPlayer i = w.getPlayer i) (hsent : v.sent = w.sent)
    (hc : p.session = c) (hown : ∀ i q, i ≠ p.id → w.getPlayer i = some q → q.session ≠ c)
    (env : Env) (conn : ConnId) :
    (statMirror conn).Leads w (v.welcome env c p) ∨
      (statMirror conn).Resets w (v.welcome env c p) := by
  have hall : (v.welcome env c p).sent = w.sent ++ ([(c, loginOkPkt p)] ++
      ViewProcessor.sendFullView env (v.send c (loginOkPkt p)) p) := by
    rw [sent_welcome, hsent, List.append_assoc]
  have hview := plain_sendFullView env (v.send c (loginOkPkt p)) p
  generalize ViewProcessor.sendFullView env (v.send c (loginOkPkt p)) p = view at hall hview
  by_cases hconn : c = conn
  · -- the client that logs in: only the new player has its connection
    right
    refine ⟨_, (congrArg (onConn conn) hall).trans (onConn_append conn _ _), ?_⟩
    rintro stats ⟨r, hr, hrs, rfl⟩ old
    rw [getPlayer_welcome] at hr
    have hi : r.id = p.id := by
      by_contra hi
      rw [hget _ hi] at hr
      exact hown r.id r hi hr (hrs.trans hconn.symm)
    rw [hi] at hr
    obtain rfl := Option.some.inj (hp.symm.trans hr)
    rw [onConn_append, List.foldl_append, hview.foldl]
    simp [onConn, statMirror, hconn, loginOkPkt, ScPacket.restate, Player.ownStats]
  · -- any other client: nothing of it is on its connection but what is plain
    left
    refine ⟨_, (congrArg (onConn conn) hall).trans (onConn_append conn _ _), ?_⟩
    rintro stats ⟨r, hr, hrs, rfl⟩
    rw [getPlayer_welcome] at hr
    have hi : r.id ≠ p.id := by
      intro hi
      rw [hi] at hr
      obtain rfl := Option.some.inj (hp.symm.trans hr)
      exact hconn (hc.symm.trans hrs)
    rw [hget _ hi] at hr
    refine ⟨r.ownStats, ⟨r, hr, hrs, rfl⟩, ?_⟩
    rw [onConn_append, List.foldl_append, hview.foldl]
    simp [onConn, hconn]

end World

namespace Server

open World Transition Mirror

variable {s : Server} {e : Event} {conn : ConnId}

theorem hitFitsOr_of_on {hit : Hit} (h : HitFitsOn conn hit) (env : Env) :
    HitFitsOr (timerScope env (· ≠ conn)) hit := by
  intro victim hv
  by_cases hs : victim.session = conn
  · exact .inl (h victim hv hs)
  · exact .inr hs

/-- **What a step says on a connection about the stats**, if a death of its
player finds a tile. -/
theorem stats_step (hl : Linked s) (hok : DiesOnTile conn s e) :
    (statMirror conn).Leads s.game.world (s.step e).game.world ∨
      (statMirror conn).Resets s.game.world (s.step e).game.world := by
  have hstep := worldStep s e
  generalize (s.step e).game.world = w at hstep ⊢
  cases hstep with
  | idle => exact .inl (.refl _)
  | tick ms => exact .inl (.of_eq rfl fun _ hr => hr)
  | left id env c p hs hp =>
      refine .inl (leads_plain _ _ (sent_leave env _ p) (plain_sendDisappear env _ p)
        (fun q hq => ?_) conn)
      have hq' : (s.game.world.leave env p).getPlayer q.id = some q := hq
      rw [getPlayer_leave] at hq'
      split at hq'
      · exact absurd hq' (by simp)
      · exact ⟨q, hq', rfl, rfl⟩
  | packet id data size env c hs =>
      exact .inl (leads_effects conn (fun _ h => h)
        (effects_handlePacket s env (· ≠ conn) id c data size))
  | refused k env c con reason =>
      refine .inl (leads_plain (s.game.world.send con (.loginFail reason))
        [(con, .loginFail reason)] rfl (fun x hx stats => ?_)
        (fun q hq => ⟨q, hq, rfl, rfl⟩) conn)
      rw [List.mem_singleton.mp hx]
      rfl
  | joined k env c con row v p hc hrow ho hfree hadd hp =>
      obtain ⟨hothers, hown⟩ := hl.others_joined (getSession_eq_some ho).2 hadd hp
      have hhere : v.getPlayer p.id = some p := by rw [getPlayer_id hp, hp]
      exact welcome_leads_or_resets hhere hothers (sent_addPlayer hadd) (session_of_addPlayer hadd hp) hown
        env conn
  | fired k env ev hev =>
      have htaken : (statMirror conn).Leads s.game.world
          { s.game.world with timers := s.game.world.timers.eraseIdx k } :=
        .of_eq rfl fun _ hr => hr
      refine .inl (htaken.trans ?_)
      by_cases htype : ev.type = .dbSave
      · rw [htype, world_handleTimerEvent_dbSave]
        exact .of_eq rfl fun _ hr => hr
      · exact leads_effects conn (fun _ h => h) (effects_handleTimerEvent (g := { s.game with
          world := { s.game.world with timers := s.game.world.timers.eraseIdx k } }) htype
          ev.targetId fun hai hit hhit => hitFitsOr_of_on (hok ev hev hai hit hhit) env)

/-- The client of the connection shows the stats of the player that has it. -/
def ShowsStats (conn : ConnId) (s : Server) : Prop :=
  (statMirror conn).Faithful GameState.init.ownStats s.game.world

theorem showsStats_step (hl : Linked s) (h : ShowsStats conn s) (hok : DiesOnTile conn s e) :
    ShowsStats conn (s.step e) := by
  rcases stats_step hl hok with hleads | hresets
  · exact Faithful.leads h hleads
  · exact hresets.faithful

/-! ## Whole runs -/

theorem ownStats_client (w : World) (conn : ConnId) :
    (w.client conn).ownStats = (statMirror conn).shown GameState.init.ownStats w := by
  have hfold : ∀ (pkts : List ScPacket) (state : GameState),
      (pkts.foldl GameState.onPacket state).ownStats =
        pkts.foldl (fun stats pkt => pkt.restate stats) state.ownStats := by
    intro pkts
    induction pkts with
    | nil => exact fun _ => rfl
    | cons pkt pkts ih =>
        intro state
        rw [List.foldl_cons, List.foldl_cons, ih, GameState.ownStats_onPacket]
  exact hfold (onConn conn w.sent) .init

theorem own_client (w : World) (conn : ConnId) :
    (w.client conn).own = told GameState.init.own (onConn conn w.sent) := by
  have hfold : ∀ (pkts : List ScPacket) (state : GameState),
      (pkts.foldl GameState.onPacket state).own = told state.own pkts := by
    intro pkts
    induction pkts with
    | nil => exact fun _ => rfl
    | cons pkt pkts ih =>
        intro state
        rw [List.foldl_cons, ih, GameState.own_onPacket]
        rfl
  exact hfold (onConn conn w.sent) .init

/-- A client that shows the position and the stats of its player shows all it
keeps of it. -/
theorem client_me {s : Server} (hlocated : Located conn s.game.world) (hshows : ShowsStats conn s)
    {id : ObjectID} {p : Player} (hp : s.game.world.getPlayer id = some p)
    (hs : p.session = conn) : (s.game.world.client conn).me = p.me := by
  have hself : s.game.world.getPlayer p.id = some p := by
    rw [getPlayer_id hp]
    exact hp
  have hown : (s.game.world.client conn).own = ⟨id, p.pos⟩ :=
    (own_client _ _).trans (hlocated id p hp hs)
  have hstats : (s.game.world.client conn).ownStats = p.ownStats :=
    (ownStats_client _ _).trans (hshows _ ⟨p, hself, hs, rfl⟩)
  generalize (s.game.world.client conn) = state at hown hstats
  have hpos : state.me.pos = p.pos := congrArg Own.pos hown
  obtain ⟨⟨mid, mpos, mlevel, mexp, mhp, mmax⟩, loggedIn, objects, loginFail⟩ := state
  simp only [GameState.ownStats, Player.ownStats, OwnStats.mk.injEq] at hstats hpos
  simp only [Player.me, MyPlayer.mk.injEq]
  exact ⟨hstats.1, hpos, hstats.2.1, hstats.2.2.1, hstats.2.2.2.1, hstats.2.2.2.2⟩

/-- At the start nobody plays. -/
theorem shows_init (conn : ConnId) (map : Map) (spawns : List MonsterSpawnData) (now : ℕ)
    (store : PlayerStore) : Located conn (init map spawns now store).game.world ∧
      ShowsStats conn (init map spawns now store) := by
  have hnobody : ∀ i p, (init map spawns now store).game.world.getPlayer i ≠ some p := by
    intro i p hp
    exact absurd ((linked_init map spawns now store).player i p hp) (by simp [init])
  refine ⟨fun i p hp => absurd hp (hnobody i p), ?_⟩
  rintro stats ⟨p, hp, -⟩
  exact absurd hp (hnobody p.id p)

end Server

end Mmorpg
