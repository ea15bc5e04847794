/-
What a client is told of its own position.

`SC_LOGIN_OK` says where the receiver is, and so does an `SC_MOVE_OBJECT` with
its own id: these are the packets that locate it. `told` reads them off the
packets of a connection, one after the other. `Located` is that the last of
them names the tile the player is on.

Most of what a handler does leaves the position of everybody alone and locates
nobody (`Stays`). `Tracks` is what is left for the rest: whoever moves is sent
its new position last. The one handler that moves a player and does not say so
is the death of a player that finds no tile; `DiesOnTile` excludes it for the
player of one connection.
-/
import SimplestMmorpg.Client.GameState
import SimplestMmorpg.Client.ViewDelta
import SimplestMmorpg.Game.PlacementHandlers
import SimplestMmorpg.Server.Leaving

set_option autoImplicit false

namespace Mmorpg

/-! ## Packets that locate the receiver -/

/-- The id and the position a client has for itself. -/
structure Own where
  id : ObjectID
  pos : Position
  deriving DecidableEq, Repr

def GameState.own (state : GameState) : Own := ⟨state.me.id, state.me.pos⟩

/-- What a packet makes of them. -/
def ScPacket.relocate (own : Own) : ScPacket → Own
  | .loginOk myId pos _ _ _ _ => ⟨myId, pos⟩
  | .moveObject id pos _ => if id = own.id then ⟨own.id, pos⟩ else own
  | _ => own

/-- The packet says where the receiver is. -/
def ScPacket.Locates (self : ObjectID) : ScPacket → Prop
  | .loginOk .. => True
  | .moveObject id _ _ => id = self
  | _ => False

instance (self : ObjectID) (pkt : ScPacket) : Decidable (pkt.Locates self) := by
  cases pkt <;> unfold ScPacket.Locates <;> infer_instance

theorem GameState.own_onPacket (state : GameState) (pkt : ScPacket) :
    (state.onPacket pkt).own = pkt.relocate state.own := by
  cases pkt with
  | moveObject id pos moveTime =>
      by_cases hid : id = state.me.id
      · have hstate : state.onPacket (.moveObject id pos moveTime) = state.moveMyPlayer pos :=
          if_pos hid
        have hown : (ScPacket.moveObject id pos moveTime).relocate state.own =
            ⟨state.own.id, pos⟩ := if_pos hid
        rw [hstate, hown]
        rfl
      · have hstate : state.onPacket (.moveObject id pos moveTime) = state.moveObject id pos :=
          if_neg hid
        have hown : (ScPacket.moveObject id pos moveTime).relocate state.own = state.own :=
          if_neg hid
        rw [hstate, hown]
        rfl
  | statChange id hp maxHp exp level =>
      simp only [onPacket, ScPacket.relocate, own]
      split
      · rfl
      · rfl
  | _ => rfl

theorem ScPacket.relocate_of_not_locates {own : Own} {pkt : ScPacket} (h : ¬ pkt.Locates own.id) :
    pkt.relocate own = own := by
  cases pkt with
  | loginOk => exact absurd trivial h
  | moveObject id pos moveTime => exact if_neg h
  | _ => rfl

/-- What a packet that locates the receiver says does not depend on where it was. -/
theorem ScPacket.relocate_of_locates {own own' : Own} {pkt : ScPacket} (h : pkt.Locates own.id)
    (hid : own'.id = own.id) : pkt.relocate own' = pkt.relocate own := by
  cases pkt with
  | loginOk => rfl
  | moveObject id pos moveTime =>
      have hself : id = own.id := h
      simp only [relocate, hid, if_pos hself]
  | _ => exact h.elim

/-- The packets of one connection. -/
def onConn (conn : ConnId) (pkts : List (ConnId × ScPacket)) : List ScPacket :=
  (pkts.filter fun x => x.1 = conn).map (·.2)

/-- What the packets make of the id and the position, one after the other. -/
def told (own : Own) (pkts : List ScPacket) : Own := pkts.foldl ScPacket.relocate own

theorem onConn_append (conn : ConnId) (pkts more : List (ConnId × ScPacket)) :
    onConn conn (pkts ++ more) = onConn conn pkts ++ onConn conn more := by
  unfold onConn
  rw [List.filter_append, List.map_append]

theorem told_append (own : Own) (pkts more : List ScPacket) :
    told own (pkts ++ more) = told (told own pkts) more := by
  unfold told
  rw [List.foldl_append]

theorem mem_onConn {conn : ConnId} {pkts : List (ConnId × ScPacket)} {pkt : ScPacket} :
    pkt ∈ onConn conn pkts ↔ (conn, pkt) ∈ pkts := by
  unfold onConn
  rw [List.mem_map]
  constructor
  · rintro ⟨x, hx, rfl⟩
    obtain ⟨hx, hc⟩ := List.mem_filter.mp hx
    rw [← of_decide_eq_true hc]
    exact hx
  · intro h
    exact ⟨(conn, pkt), List.mem_filter.mpr ⟨h, by simp⟩, rfl⟩

/-- Packets that do not locate the receiver change nothing. -/
theorem told_of_not_locates {own : Own} {pkts : List ScPacket}
    (h : ∀ pkt ∈ pkts, ¬ pkt.Locates own.id) : told own pkts = own := by
  induction pkts with
  | nil => rfl
  | cons pkt pkts ih =>
      obtain ⟨hpkt, hpkts⟩ := List.forall_mem_cons.mp h
      unfold told at ih ⊢
      rw [List.foldl_cons, ScPacket.relocate_of_not_locates hpkt]
      exact ih hpkts

namespace World

open ViewProcessor

variable {env : Env} {w w' w'' v : World} {id : ObjectID} {conn : ConnId} {p q : Player}
  {m : Monster} {pos a : Position} {sm : SectorManager} {pkts more : List (ConnId × ScPacket)}
  {x : ConnId × ScPacket}

/-! ## Changes that move nobody -/

/-- The packets locate nobody. -/
def Silent (pkts : List (ConnId × ScPacket)) : Prop := ∀ x ∈ pkts, ∀ self, ¬ x.2.Locates self

/-- What is sent locates nobody. -/
def SendsSilent (w w' : World) : Prop := ∃ pkts, w'.sent = w.sent ++ pkts ∧ Silent pkts

/-- The players stay where they are, and what is sent locates nobody. -/
structure Stays (w w' : World) : Prop where
  players : ∀ id, (w'.getPlayer id).map Player.ident = (w.getPlayer id).map Player.ident
  sent : SendsSilent w w'

namespace SendsSilent

theorem of_eq (h : w'.sent = w.sent) : SendsSilent w w' :=
  ⟨[], by rw [h, List.append_nil], fun _ hx => absurd hx List.not_mem_nil⟩

theorem trans (h : SendsSilent w w') (h' : SendsSilent w' w'') : SendsSilent w w'' := by
  obtain ⟨a, ha, hsa⟩ := h
  obtain ⟨b, hb, hsb⟩ := h'
  refine ⟨a ++ b, by rw [hb, ha, List.append_assoc], fun x hx => ?_⟩
  rcases List.mem_append.mp hx with hx | hx
  · exact hsa x hx
  · exact hsb x hx

theorem send (w : World) (conn : ConnId) (pkt : ScPacket) (h : ∀ self, ¬ pkt.Locates self) :
    SendsSilent w (w.send conn pkt) := by
  refine ⟨[(conn, pkt)], rfl, fun x hx => ?_⟩
  rw [List.mem_singleton.mp hx]
  exact h

theorem broadcast (env : Env) (pos : Position) (pkt : ScPacket) (h : ∀ self, ¬ pkt.Locates self)
    (w : World) : SendsSilent w (w.broadcast env pos pkt) := by
  refine ⟨_, rfl, fun x hx => ?_⟩
  obtain ⟨p, -, rfl⟩ := List.mem_map.mp hx
  exact h

end SendsSilent

namespace Stays

theorem refl (w : World) : Stays w w := ⟨fun _ => rfl, .of_eq rfl⟩

theorem trans (h : Stays w w') (h' : Stays w' w'') : Stays w w'' :=
  ⟨fun id => (h'.players id).trans (h.players id), h.sent.trans h'.sent⟩

/-- The players and the packets are what matters. -/
theorem of_eq (hp : w'.players = w.players) (hs : w'.sent = w.sent) : Stays w w' where
  players id := by rw [getPlayer, getPlayer, hp]
  sent := .of_eq hs

theorem sendAll (w : World) (h : Silent pkts) : Stays w (w.sendAll pkts) :=
  ⟨fun _ => rfl, pkts, rfl, h⟩

theorem send (w : World) (conn : ConnId) (pkt : ScPacket) (h : ∀ self, ¬ pkt.Locates self) :
    Stays w (w.send conn pkt) :=
  ⟨fun _ => rfl, .send w conn pkt h⟩

theorem broadcast (env : Env) (pos : Position) (pkt : ScPacket) (h : ∀ self, ¬ pkt.Locates self)
    (w : World) : Stays w (w.broadcast env pos pkt) :=
  ⟨fun _ => rfl, .broadcast env pos pkt h w⟩

theorem setPlayer (hp : w.getPlayer q.id = some p) (hi : q.ident = p.ident) :
    Stays w (w.setPlayer q) :=
  ⟨(inert_setPlayer hp hi).players, .of_eq rfl⟩

end Stays

theorem not_locates_statPkt (p : Player) (self : ObjectID) : ¬ p.statPkt.Locates self := id

theorem silent_sendFullView (env : Env) (w : World) (p : Player) :
    Silent (sendFullView env w p) := by
  intro x hx self
  obtain ⟨obj, hobj⟩ := addObject_of_mem_sendFullView hx
  rw [hobj]
  exact id

theorem silent_sendDisappear (env : Env) (w : World) (p : Player) :
    Silent (sendDisappear env w p) := by
  intro x hx self
  obtain ⟨j, other, -, -, rfl⟩ := of_mem_sendDisappear hx
  exact id

theorem stays_activateNearbyMonsters (env : Env) (pos : Position) (w : World) :
    Stays w (w.activateNearbyMonsters env pos) :=
  .of_eq (activateNearbyMonsters_frame env pos w).2 (activateNearbyMonsters_frame env pos w).1

theorem stays_rewardKiller (hp : w.getPlayer p.id = some p) :
    Stays w (w.rewardKiller m p) :=
  ⟨(inert_rewardKiller hp).players,
    (SendsSilent.of_eq rfl).trans (.send (w.setPlayer (p.gainExp m.getExpReward)) _ _
      (not_locates_statPkt _))⟩

theorem stays_buryMonster (env : Env) (m : Monster) (w : World) : Stays w (w.buryMonster env m) :=
  (Stays.broadcast env m.pos (.removeObject m.id) (fun _ => not_false) w).trans (.of_eq rfl rfl)

theorem stays_strike (env : Env) (id : ObjectID) (damage : Int) (m : Monster) (w : World) :
    Stays w (w.strike env id damage m) := by
  unfold strike
  dsimp only
  rw [getPlayer_setMonster]
  have hset : Stays w (w.setMonster (m.takeDamage damage)) := .of_eq rfl rfl
  split
  · exact hset
  · next p hp =>
      obtain rfl := getPlayer_id hp
      have hmsg := hset.trans (.send _ p.session (.combatMessage p.id (m.takeDamage damage).id
        damage) fun _ => not_false)
      split
      · exact hmsg.trans ((stays_rewardKiller (by exact hp)).trans (stays_buryMonster env _ _))
      · exact hmsg

theorem sent_modifyPlayer (w : World) (id : ObjectID) (f : Player → Player) :
    (w.modifyPlayer id f).sent = w.sent := by
  unfold modifyPlayer
  split
  · rfl
  · rfl

theorem stays_processAttack (env : Env) (id : ObjectID) (w : World) :
    Stays w (w.processAttack env id) := by
  apply processAttack_induction (.refl w)
  case strike =>
    intro v _ target _ _ _ hv damage
    exact hv.trans (stays_strike env id damage target v)
  case effect =>
    intro v pos hv
    exact hv.trans (Stays.broadcast env pos (.attackEffect id pos) (fun _ => not_false) v)
  case performed =>
    intro v now hv
    exact hv.trans ⟨(inert_modifyPlayer fun p => Player.ident_onAttackPerformed p _).players,
      .of_eq (sent_modifyPlayer _ _ _)⟩

theorem stays_processChat (env : Env) (id : ObjectID) (data : Bytes) (w : World) :
    Stays w (w.processChat env id data) := by
  refine ⟨(inert_processChat env id data w).players, ?_⟩
  unfold processChat
  split
  · exact .of_eq rfl
  · next sender _ =>
      split
      · exact .of_eq rfl
      · have hset : SendsSilent w (w.setPlayer (sender.onChatPerformed w.now)) := .of_eq rfl
        dsimp only
        split
        · exact hset
        · split
          · refine hset.trans ⟨_, rfl, fun x hx => ?_⟩
            obtain ⟨k, -, hk⟩ := List.mem_filterMap.mp hx
            obtain ⟨p, -, rfl⟩ := Option.map_eq_some_iff.mp hk
            exact fun _ => not_false
          · refine hset.trans (.broadcast env _ _ ?_ _)
            exact fun _ => not_false

/-! ## Regeneration and hits -/

theorem sent_startRegen (p : Player) (w : World) : (w.startRegen p).sent = w.sent := by
  unfold startRegen
  split
  · rfl
  · rfl

theorem stays_startRegen (hp : w.getPlayer p.id = some p) : Stays w (w.startRegen p) := by
  refine ⟨fun i => ?_, .of_eq (sent_startRegen p w)⟩
  rcases inert_startRegen hp with heq | ⟨v, hv, q, -, heq⟩
  · rw [heq]
  · rw [heq]
    exact hv.players i

theorem sent_stopRegenAndMaybeRestart (p : Player) (w : World) :
    (w.stopRegenAndMaybeRestart p).sent = w.sent := by
  unfold stopRegenAndMaybeRestart
  dsimp only
  split
  · exact sent_startRegen p.stopRegen (w.setPlayer p.stopRegen)
  · rfl

theorem stays_hpRegen (w : World) (id : ObjectID) : Stays w (w.hpRegen id) := by
  refine ⟨fun i => ?_, ?_⟩
  · obtain ⟨v, hv, heq | ⟨-, q, -, -, heq⟩⟩ := inert_hpRegen w id
    · rw [heq]
      exact hv.players i
    · rw [heq]
      exact hv.players i
  · unfold hpRegen
    split
    · exact .of_eq rfl
    · next player _ =>
        split
        · exact .of_eq rfl
        · split
          · exact .of_eq (sent_stopRegenAndMaybeRestart player w)
          · have htell : SendsSilent w ((w.setPlayer player.regenHP).send player.session
                player.regenHP.statPkt) := .send (w.setPlayer player.regenHP) _ _
              (not_locates_statPkt _)
            dsimp only
            split
            · exact htell.trans (.of_eq (sent_stopRegenAndMaybeRestart player.regenHP _))
            · exact htell.trans (.of_eq rfl)

/-- What a hit does before it comes to the question of life and death. -/
theorem stays_wound (hp : w.getPlayer p.id = some p) (damage : Int) (attackerId : ObjectID) :
    Stays w ((((w.setPlayer (p.takeDamage damage)).sendCombatMessage (p.takeDamage damage)
      attackerId (p.takeDamage damage).id damage)).send (p.takeDamage damage).session
        (p.takeDamage damage).statPkt) := by
  refine ⟨(inert_wound hp damage attackerId).players, ?_⟩
  have hset : SendsSilent w (w.setPlayer (p.takeDamage damage)) := .of_eq rfl
  refine hset.trans (.trans (.send _ p.session _ fun _ => ?_) (.send _ p.session _ ?_))
  · exact not_false
  · exact not_locates_statPkt (p.takeDamage damage)

theorem stays_respawnMonster (env : Env) (id : ObjectID) (w : World) :
    Stays w (w.respawnMonster env id) := by
  rcases respawnMonster_cases env id w with
    heq | ⟨monster, -, -, heq⟩ | ⟨monster, sm, out, v, -, -, hv, heq⟩
  · rw [heq]
    exact .refl w
  · rw [heq]
    exact .of_eq rfl rfl
  · have hset : Stays w ({ w with sectorManager := sm }.setMonster
        (monster.respawn.setPos out)) := .of_eq rfl rfl
    have hcast : Stays w v := by
      rw [hv]
      exact hset.trans (.broadcast env out (.addObject (monster.respawn.setPos out).remote)
        (fun _ => not_false) _)
    rcases heq with heq | ⟨monster', -, heq⟩
    · rw [heq]
      exact hcast
    · rw [heq]
      exact hcast.trans (.of_eq rfl rfl)

/-! ## Changes that are told to the client -/

/-- Whoever has the connection after the change had it before, and what is sent
on it leads from its old position to the new one. -/
def Tracks (conn : ConnId) (w w' : World) : Prop :=
  ∃ pkts, w'.sent = w.sent ++ pkts ∧
    ∀ id q, w'.getPlayer id = some q → q.session = conn →
      ∃ p, w.getPlayer id = some p ∧ p.session = conn ∧
        told ⟨id, p.pos⟩ (onConn conn pkts) = ⟨id, q.pos⟩

namespace Tracks

theorem trans (h : Tracks conn w w') (h' : Tracks conn w' w'') : Tracks conn w w'' := by
  obtain ⟨pkts, hsent, hlead⟩ := h
  obtain ⟨more, hsent', hlead'⟩ := h'
  refine ⟨pkts ++ more, by rw [hsent', hsent, List.append_assoc], fun id r hr hs => ?_⟩
  obtain ⟨q, hq, hqs, hqr⟩ := hlead' id r hr hs
  obtain ⟨p, hp, hps, hpq⟩ := hlead id q hq hqs
  refine ⟨p, hp, hps, ?_⟩
  rw [onConn_append, told_append, hpq, hqr]

/-- The players and the packets are what matters. -/
theorem congr (h : Tracks conn w w') (hp : w''.players = w'.players) (hs : w''.sent = w'.sent) :
    Tracks conn w w'' := by
  obtain ⟨pkts, hsent, hlead⟩ := h
  refine ⟨pkts, hs.trans hsent, fun id q hq => hlead id q ?_⟩
  rw [getPlayer, hp] at hq
  exact hq

end Tracks

theorem Silent.told (h : Silent pkts) (own : Own) : told own (onConn conn pkts) = own :=
  told_of_not_locates fun pkt hpkt => h (conn, pkt) (mem_onConn.mp hpkt) own.id

theorem Stays.tracks (h : Stays w w') (conn : ConnId) : Tracks conn w w' := by
  obtain ⟨pkts, hsent, hsilent⟩ := h.sent
  refine ⟨pkts, hsent, fun id q hq hs => ?_⟩
  have hident := h.players id
  rw [hq] at hident
  obtain ⟨p, hp, hi⟩ := Option.map_eq_some_iff.mp hident.symm
  have hsession : p.session = q.session := congrArg Player.Ident.session hi
  have hpos : p.pos = q.pos := congrArg Player.Ident.pos hi
  refine ⟨p, hp, hsession.trans hs, ?_⟩
  rw [hsilent.told, hpos]

/-- The packet locates no player on whose connection it is sent. -/
def Aside (w : World) (x : ConnId × ScPacket) : Prop :=
  ∀ r, w.getPlayer r.id = some r → r.session = x.1 → ¬ x.2.Locates r.id

/-- Whoever stays in view is another than the one that moved, so what it is sent
does not locate it. -/
theorem aside_processMoveView (ha : Apart w) {moved : GameObject}
    (hx : x ∈ processMoveView env w moved a) : w.Aside x := by
  intro r hr hs
  cases of_mem_processMoveView hx with
  | appears => exact id
  | sees => exact id
  | vanishes => exact id
  | loses => exact id
  | moves j other ho hview =>
      -- the range query leaves out the object it is made around
      intro hlocates
      have hmoved : moved.remote.id = r.id := hlocates
      have hself : r.id = j := ha r.id j r other hr ho hs
      have hseen := (mem_viewFrom.mp hview).2
      unfold seenFrom at hseen
      rw [if_pos (hself.symm.trans hmoved.symm)] at hseen
      exact absurd hseen (by simp)

/-- **A player that moves.** It is written with its new position, and that is
the last it is sent. -/
theorem tracks_put (pkts : List (ConnId × ScPacket)) (hp : w.getPlayer q.id = some p)
    (hs : q.session = p.session)
    (hv : ∀ i, v.getPlayer i = if i = q.id then some q else w.getPlayer i) (hsent : v.sent = w.sent)
    (haside : ∀ x ∈ pkts, v.Aside x) (moveTime : ℕ) (conn : ConnId) :
    Tracks conn w ((v.sendAll pkts).send q.session (.moveObject q.id q.pos moveTime)) := by
  refine ⟨pkts ++ [(q.session, .moveObject q.id q.pos moveTime)], ?_, fun id r hr hrs => ?_⟩
  · rw [← List.append_assoc, ← hsent]
    rfl
  · have hr' : v.getPlayer id = some r := hr
    obtain rfl := getPlayer_id hr'
    have hview : ∀ pos, told ⟨r.id, pos⟩ (onConn conn pkts) = ⟨r.id, pos⟩ := fun pos =>
      told_of_not_locates fun pkt hpkt =>
        haside (conn, pkt) (mem_onConn.mp hpkt) r hr' hrs
    rw [hv] at hr'
    split at hr'
    · next hid =>
        -- the mover: the packets before the last one are about others
        obtain rfl := Option.some.inj hr'
        refine ⟨p, hp, hs.symm.trans hrs, ?_⟩
        rw [onConn_append, told_append, hview]
        simp [onConn, told, ScPacket.relocate, hrs]
    · next hid =>
        -- another player on this connection would be told of an id that is not its own
        refine ⟨r, hr', hrs, ?_⟩
        rw [onConn_append, told_append, hview]
        refine told_of_not_locates fun pkt hpkt hlocates => ?_
        have hpkt' := List.mem_singleton.mp (mem_onConn.mp hpkt)
        rw [(Prod.mk.inj hpkt').2] at hlocates
        exact hid hlocates.symm

theorem Steady.apart (h : Steady w w') (ha : Apart w) : Apart w' := by
  intro i j p q hp hq hs
  obtain ⟨p₀, hp₀, hip⟩ := h.player hp
  obtain ⟨q₀, hq₀, hiq⟩ := h.player hq
  have h1 : p₀.session = p.session := congrArg Player.Who.session hip
  have h2 : q₀.session = q.session := congrArg Player.Who.session hiq
  exact ha i j p₀ q₀ hp₀ hq₀ (by rw [h1, h2, hs])

/-- What `ProcessMove` and `ProcessTeleport` do once they have a tile. -/
theorem tracks_arrive (ha : Apart w) (hp : w.getPlayer q.id = some p) (hwho : q.who = p.who)
    (env : Env) (sm : SectorManager) (a pos : Position) (moveTime : ℕ) (conn : ConnId) :
    Tracks conn w (((({ w with sectorManager := sm }.setPlayer q).sendAll (processMoveView env
      ({ w with sectorManager := sm }.setPlayer q) (ofPlayer q) a)).activateNearbyMonsters env
        pos).send p.session (.moveObject q.id q.pos moveTime)) := by
  have hs : q.session = p.session := congrArg Player.Who.session hwho
  have hapart := (calm_place hp hwho sm).toSteady.apart ha
  have hget := getPlayer_setPlayer (w := { w with sectorManager := sm }) q
  have hsent : ({ w with sectorManager := sm }.setPlayer q).sent = w.sent := rfl
  generalize ({ w with sectorManager := sm } : World).setPlayer q = v at *
  have hput := tracks_put (processMoveView env v (ofPlayer q) a) hp hs hget hsent
    (fun x hx => aside_processMoveView hapart hx) moveTime conn
  obtain ⟨hmore, hplayers⟩ := activateNearbyMonsters_frame env pos
    (v.sendAll (processMoveView env v (ofPlayer q) a))
  refine hput.congr hplayers ?_
  unfold send
  dsimp only
  rw [hmore, hs]

theorem tracks_processMove (ha : Apart w) {session : ConnId} (data : Bytes)
    (hsession : ∀ p, w.getPlayer id = some p → p.session = session) (env : Env) (conn : ConnId) :
    Tracks conn w (w.processMove env id session data) := by
  rcases processMove_cases env id session data w with
    heq | ⟨player, new, sm, hp, -, -, -, -, heq⟩
  · rw [heq]
    exact (Stays.refl w).tracks conn
  · rw [heq]
    obtain rfl := getPlayer_id hp
    obtain rfl := hsession player hp
    exact tracks_arrive (p := player) (q := (player.setPos new).onMoved w.now) ha hp rfl env sm
      player.pos _ _ conn

theorem tracks_processTeleport (ha : Apart w) {session : ConnId}
    (hsession : ∀ p, w.getPlayer id = some p → p.session = session) (env : Env) (conn : ConnId) :
    Tracks conn w (w.processTeleport env id session) := by
  rcases processTeleport_cases env id session w with heq | ⟨player, sm, new, hp, -, heq⟩
  · rw [heq]
    exact (Stays.refl w).tracks conn
  · rw [heq]
    obtain rfl := getPlayer_id hp
    obtain rfl := hsession player hp
    exact tracks_arrive (p := player) (q := player.setPos new) ha hp rfl env sm player.pos _ 0 conn

theorem tracks_moveMonster (ha : Apart w) (env : Env) (m : Monster) (pos : Position)
    (conn : ConnId) : Tracks conn w (w.moveMonster env m pos) := by
  unfold moveMonster
  split
  · exact (Stays.refl w).tracks conn
  · next sm _ =>
      refine ⟨_, rfl, fun i q hq hs => ⟨q, hq, hs, told_of_not_locates fun pkt hpkt => ?_⟩⟩
      have hq' : w.getPlayer i = some q := hq
      obtain rfl := getPlayer_id hq'
      have hapart : Apart ({ w with sectorManager := sm }.setMonster (m.setPos pos)) := ha
      exact aside_processMoveView hapart (mem_onConn.mp hpkt) q hq hs

theorem tracks_roamingMove (ha : Apart w) (env : Env) (m : Monster) (conn : ConnId) :
    Tracks conn w (w.roamingMove env m) := by
  rcases roamingMove_cases env m w with heq | ⟨new, -, -, heq⟩
  · rw [heq]
    exact (Stays.refl w).tracks conn
  · rw [heq]
    exact tracks_moveMonster ha env m _ conn

theorem tracks_chase (ha : Apart w) (env : Env) (m : Monster) (pos : Position) (conn : ConnId) :
    Tracks conn w (w.chase env m pos) := by
  rcases chase_cases env m pos w with heq | ⟨new, -, -, heq⟩
  · rw [heq]
    exact (Stays.refl w).tracks conn
  · rw [heq]
    exact tracks_moveMonster ha env m _ conn

/-! ## Deaths -/

/-- The hit does not kill the player of the connection, or a tile around the
origin is free for it. -/
def HitFitsOn (conn : ConnId) (hit : Hit) : Prop :=
  ∀ victim, hit.before.getPlayer hit.victimId = some victim → victim.session = conn → HitFits hit

/-- The victim is sent the tile it comes back to. -/
theorem tracks_comeBack (hp : w.getPlayer p.id = some p) {respawn : Position}
    (hadd : (w.sectorManager.removeObject p.id p.pos).addObject p.id ⟨0, 0⟩ w.map =
      some (sm, respawn)) (env : Env) (conn : ConnId) : Tracks conn w (w.onPlayerDied env p) := by
  rw [onPlayerDied_of_some hadd]
  -- it leaves the views of the others, is told its tile, and sees who is there
  have hgone : Stays w (w.sendAll (sendDisappear env w p)) :=
    .sendAll w (silent_sendDisappear env w p)
  have hp' : (w.sendAll (sendDisappear env w p)).getPlayer (afterDeath p respawn).id = some p := hp
  have hback := tracks_put (v := { w.sendAll (sendDisappear env w p) with
      sectorManager := sm }.setPlayer (afterDeath p respawn))
    [(p.session, (afterDeath p respawn).statPkt)] hp' rfl
    (getPlayer_setPlayer (afterDeath p respawn)) rfl (fun x hx r _ _ => by
      rw [List.mem_singleton.mp hx]
      exact not_locates_statPkt _ _) 0 conn
  have hview : ∀ u, Stays u ((u.sendAll (sendFullView env u (afterDeath p respawn))
      ).activateNearbyMonsters env respawn) := fun u =>
    (Stays.sendAll u (silent_sendFullView env u _)).trans
      (stays_activateNearbyMonsters env respawn _)
  exact ((hgone.tracks conn).trans hback).trans ((hview _).tracks conn)

/-- The death of a player with another connection. -/
theorem tracks_otherDied (hp : w.getPlayer p.id = some p) (hs : p.session ≠ conn) (env : Env) :
    Tracks conn w (w.onPlayerDied env p) := by
  cases hadd : (w.sectorManager.removeObject p.id p.pos).addObject p.id ⟨0, 0⟩ w.map with
  | some placed => exact tracks_comeBack hp hadd env conn
  | none =>
      -- no tile is free: `OnPlayerDied` returns before it tells the victim anything
      rw [onPlayerDied_of_none hadd]
      refine ⟨_, rfl, fun i q hq hqs => ?_⟩
      rw [getPlayer_setPlayer] at hq
      split at hq
      · rw [← Option.some.inj hq] at hqs
        exact absurd hqs hs
      · exact ⟨q, hq, hqs, (silent_sendDisappear env w p).told _⟩

theorem tracks_monsterAttackPlayer (hp : w.getPlayer id = some p)
    (hfit : HitFitsOn conn ⟨w, m, id⟩) (env : Env) :
    Tracks conn w (w.monsterAttackPlayer env m p) := by
  obtain rfl := getPlayer_id hp
  unfold monsterAttackPlayer
  split
  · exact (Stays.refl w).tracks conn
  · next halive =>
      have hwound := stays_wound hp (m.level.toNat * 5) m.id
      have hplace := inert_wound hp (m.level.toNat * 5) m.id
      dsimp only
      split
      · next hdead =>
          refine (hwound.tracks conn).trans ?_
          by_cases hs : p.session = conn
          · have hsome := hfit p hp hs p hp (by simpa using halive) hdead
            rw [← hplace.sectorManager, ← hplace.map] at hsome
            obtain ⟨⟨sm, respawn⟩, hadd⟩ := Option.isSome_iff_exists.mp hsome
            refine tracks_comeBack (p := p.takeDamage (m.level.toNat * 5)) ?_ hadd env conn
            exact getPlayer_setPlayer_self _ _
          · refine tracks_otherDied (p := p.takeDamage (m.level.toNat * 5)) ?_ hs env
            exact getPlayer_setPlayer_self _ _
      · refine (hwound.trans (stays_startRegen (p := p.takeDamage (m.level.toNat * 5))
          ?_)).tracks conn
        exact getPlayer_setPlayer_self _ _

/-- The hits of a tick one after the other: each meets the world the hits
before it left. -/
theorem tracks_attackVictims (env : Env) (victims : List ObjectID)
    (hfits : ∀ hit ∈ hitsFrom env m victims w, HitFitsOn conn hit) :
    Tracks conn w (victims.foldl (attackVictim env m) w) := by
  apply attackVictims_induction env victims ((Stays.refl w).tracks conn)
  intro v _ victim hmem hv hp
  exact hv.trans (tracks_monsterAttackPlayer hp (hfits _ hmem) env)

theorem sent_modifyMonster (w : World) (id : ObjectID) (f : Monster → Monster) :
    (w.modifyMonster id f).sent = w.sent ∧ (w.modifyMonster id f).players = w.players := by
  unfold modifyMonster
  split
  · exact ⟨rfl, rfl⟩
  · exact ⟨rfl, rfl⟩

theorem tracks_perform (ha : Apart w) (env : Env) (action : AiAction)
    (hfits : ∀ victims, action = .attack victims →
      ∀ hit ∈ hitsFrom env m victims w, HitFitsOn conn hit) :
    Tracks conn w (w.perform env m action) := by
  cases action with
  | idle => exact (Stays.refl w).tracks conn
  | clearTarget => exact (Stays.of_eq rfl rfl).tracks conn
  | attack victims =>
      refine (tracks_attackVictims env victims (hfits victims rfl)).trans (Stays.tracks ?_ conn)
      refine (Stays.broadcast env m.pos (.attackEffect m.id m.pos) (fun _ => not_false) _).trans ?_
      exact .of_eq (sent_modifyMonster _ _ _).2 (sent_modifyMonster _ _ _).1
  | chase targetPos => exact tracks_chase ha env m targetPos conn
  | setTarget t => exact (Stays.of_eq rfl rfl).tracks conn
  | roam => exact tracks_roamingMove ha env m conn

theorem tracks_monsterAi (ha : Apart w) (env : Env)
    (hfits : ∀ hit ∈ hitsOf env id w, HitFitsOn conn hit) :
    Tracks conn w (w.monsterAi env id) := by
  have hspec := monsterAi_spec env id w
  generalize w.monsterAi env id = v at hspec
  cases hspec with
  | nothing => exact (Stays.refl w).tracks conn
  | asleep m hm => exact (Stays.of_eq rfl rfl).tracks conn
  | tick m hm halive hhits =>
      refine (tracks_perform ha env _ fun victims hact => ?_).trans
        ((Stays.of_eq rfl rfl).tracks conn)
      rw [← hhits victims hact]
      exact hfits

/-! ## Where the client was told to be -/

/-- **The client of the connection was last told where its player is.** -/
def Located (conn : ConnId) (w : World) : Prop :=
  ∀ id p, w.getPlayer id = some p → p.session = conn →
    told GameState.init.own (onConn conn w.sent) = ⟨id, p.pos⟩

theorem Located.tracks (h : Located conn w) (ht : Tracks conn w w') : Located conn w' := by
  obtain ⟨pkts, hsent, hlead⟩ := ht
  intro id q hq hs
  obtain ⟨p, hp, hps, hpq⟩ := hlead id q hq hs
  rw [hsent, onConn_append, told_append, h id p hp hps, hpq]

/-- The client is sent `SC_LOGIN_OK`, and told where its player is. -/
def Welcomed (conn : ConnId) (w w' : World) : Prop :=
  Located conn w' ∧ ∃ pkts, w'.sent = w.sent ++ pkts ∧
    ∃ pkt ∈ onConn conn pkts, ∀ self, pkt.Locates self

/-- A login, for the client whose it is and for the others. No other player has
the connection. -/
theorem tracks_welcome {c : ConnId} (hp : v.getPlayer p.id = some p)
    (hget : ∀ i, i ≠ p.id → v.getPlayer i = w.getPlayer i) (hsent : v.sent = w.sent)
    (hc : p.session = c) (hown : ∀ i q, i ≠ p.id → w.getPlayer i = some q → q.session ≠ c)
    (env : Env) (conn : ConnId) :
    Tracks conn w (v.welcome env c p) ∨ Welcomed conn w (v.welcome env c p) := by
  have hview : ∀ own, told own (onConn conn (sendFullView env (v.send c (loginOkPkt p)) p)) = own :=
    (silent_sendFullView env _ p).told
  have hall : (v.welcome env c p).sent = w.sent ++ ([(c, loginOkPkt p)] ++
      sendFullView env (v.send c (loginOkPkt p)) p) := by
    rw [sent_welcome, hsent, List.append_assoc]
  by_cases hconn : c = conn
  · -- the client that logs in: only the new player has its connection
    right
    refine ⟨fun i q hq hs => ?_, _, hall, loginOkPkt p, ?_, fun _ => trivial⟩
    · rw [getPlayer_welcome] at hq
      have hi : i = p.id := by
        by_contra hi
        rw [hget i hi] at hq
        exact hown i q hi hq (hs.trans hconn.symm)
      rw [hi] at hq ⊢
      obtain rfl := Option.some.inj (hp.symm.trans hq)
      rw [hall, onConn_append, told_append, onConn_append, told_append, hview]
      simp [onConn, told, ScPacket.relocate, loginOkPkt, hconn]
    · rw [mem_onConn, hconn]
      exact List.mem_cons_self
  · -- any other client: nothing is sent on its connection
    left
    refine ⟨_, hall, fun i q hq hs => ?_⟩
    rw [getPlayer_welcome] at hq
    have hi : i ≠ p.id := by
      rintro rfl
      obtain rfl := Option.some.inj (hp.symm.trans hq)
      exact hconn (hc.symm.trans hs)
    rw [hget i hi] at hq
    refine ⟨q, hq, hs, ?_⟩
    rw [onConn_append, told_append, hview]
    simp [onConn, told, hconn]

end World

namespace Server

open World

variable {env : Env} {s : Server} {conn : ConnId}

theorem Linked.apart (h : Linked s) : Apart s.game.world := by
  intro i j p q hp hq hs
  have hi := h.player i p hp
  rw [hs] at hi
  exact h.conn_inj i j q.session hi (h.player j q hq)

/-- A death of the player of the connection finds a tile to come back to. -/
def DiesOnTile (conn : ConnId) (s : Server) : Event → Prop
  | .timer k env =>
    ∀ ev, s.game.world.timers[k]? = some ev → ev.type = .monsterAi →
      ∀ hit ∈ hitsOf env ev.targetId { s.game.world with timers := s.game.world.timers.eraseIdx k },
        HitFitsOn conn hit
  | _ => True

theorem tracks_handlePacket (hl : Linked s) {id : ObjectID} {c : ConnId}
    (hs : s.sessions id = some c) (env : Env) (data : Bytes) (size : ℕ) (conn : ConnId) :
    Tracks conn s.game.world (s.handlePacket env id c data size).game.world := by
  unfold handlePacket
  split
  · exact (Stays.refl _).tracks conn
  · exact (Stays.refl _).tracks conn
  · exact tracks_processMove hl.apart data (hl.session_of_player hs) env conn
  · exact (stays_processAttack env id _).tracks conn
  · exact (stays_processChat env id data _).tracks conn
  · exact tracks_processTeleport hl.apart (hl.session_of_player hs) env conn

theorem tracks_handleTimerEvent {g : GameWorld} (ha : Apart g.world) {type : TimerType}
    {targetId : ObjectID} (hfits : type = .monsterAi →
      ∀ hit ∈ hitsOf env targetId g.world, HitFitsOn conn hit) :
    Tracks conn g.world (g.handleTimerEvent env type targetId).world := by
  cases type with
  | hpRegen => exact (stays_hpRegen _ _).tracks conn
  | monsterAi => exact tracks_monsterAi ha env (hfits rfl)
  | monsterRespawn => exact (stays_respawnMonster env _ _).tracks conn
  | dbSave =>
      simp only [GameWorld.handleTimerEvent]
      rw [world_saveAllPlayers]
      exact (Stays.of_eq rfl rfl).tracks conn

/-- A player that joins leaves the others as they are, and has its connection alone. -/
theorem Linked.others_joined (hl : Linked s) {id : ObjectID} {c : ConnId} {row : PlayerRow}
    {v : World} {p : Player} (hs : s.sessions id = some c)
    (hadd : s.game.world.addPlayer id c row = some v) (hp : v.getPlayer id = some p) :
    (∀ i, i ≠ p.id → v.getPlayer i = s.game.world.getPlayer i) ∧
      ∀ i q, i ≠ p.id → s.game.world.getPlayer i = some q → q.session ≠ c := by
  obtain ⟨spawn, hget⟩ := getPlayer_addPlayer hadd
  have hid := getPlayer_id hp
  refine ⟨fun i hi => ?_, fun i q hi hq heq => ?_⟩
  · rw [hget, if_neg (by rw [← hid]; exact hi)]
  · -- the session of another player has another connection
    have hi' := hl.player i q hq
    rw [heq] at hi'
    exact hi (by rw [hid, hl.conn_inj i id c hi' hs])

/-- **What a step sends on a connection.** It leads the client from where its
player was to where it is, or logs it in, if a death of this player finds a tile. -/
theorem tracks_step (hl : Linked s) {e : Event} (hok : DiesOnTile conn s e) :
    Tracks conn s.game.world (s.step e).game.world ∨
      Welcomed conn s.game.world (s.step e).game.world := by
  have hstep := worldStep s e
  generalize (s.step e).game.world = w at hstep ⊢
  cases hstep with
  | idle => exact .inl ((Stays.refl _).tracks conn)
  | tick ms => exact .inl ((Stays.of_eq rfl rfl).tracks conn)
  | left id env c p hs hp =>
      refine .inl ⟨_, sent_leave env s.game.world p, fun i q hq hs => ?_⟩
      have hq' : (s.game.world.leave env p).getPlayer i = some q := hq
      rw [getPlayer_leave] at hq'
      split at hq'
      · exact absurd hq' (by simp)
      · exact ⟨q, hq', hs, (silent_sendDisappear env _ p).told _⟩
  | packet id data size env c hs => exact .inl (tracks_handlePacket hl hs env data size conn)
  | refused k env c con reason =>
      have hfail : Stays s.game.world (s.game.world.send con (.loginFail reason)) :=
        .send _ con (.loginFail reason) fun _ => not_false
      exact .inl (hfail.tracks conn)
  | joined k env c con row v p hc hrow ho hfree hadd hp =>
      obtain ⟨hothers, hown⟩ := hl.others_joined (getSession_eq_some ho).2 hadd hp
      have hhere : v.getPlayer p.id = some p := by rw [getPlayer_id hp, hp]
      exact tracks_welcome hhere hothers (sent_addPlayer hadd) (session_of_addPlayer hadd hp) hown
        env conn
  | fired k env ev hev =>
      have htaken : Stays s.game.world
          { s.game.world with timers := s.game.world.timers.eraseIdx k } := .of_eq rfl rfl
      exact .inl ((htaken.tracks conn).trans (tracks_handleTimerEvent (g := { s.game with
        world := { s.game.world with timers := s.game.world.timers.eraseIdx k } })
        hl.apart (hok ev hev)))

/-- **Every step tells the client of the connection where its player is**, if a
death of this player finds a tile. -/
theorem located_step (hl : Linked s) (h : Located conn s.game.world) {e : Event}
    (hok : DiesOnTile conn s e) : Located conn (s.step e).game.world := by
  rcases tracks_step hl hok with htracks | hwelcomed
  · exact h.tracks htracks
  · exact hwelcomed.1

end Server

end Mmorpg
