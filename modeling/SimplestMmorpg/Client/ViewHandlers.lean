/-
Every handler keeps the views exact, but for the death of a player.

Each operation that moves somebody is told to the onlookers by one of the
functions of `ViewProcessor` (`Client/ViewDelta`), so `Exact.update` applies,
and the rest of a handler is inert. A death tells the victim's client what is
around the tile it comes back to, and not that what was around the old one is
out of view: `DeathFits` is the condition that nothing is.
-/
import SimplestMmorpg.Client.ViewDelta
import SimplestMmorpg.Game.Login
import SimplestMmorpg.Game.PlacementHandlers

set_option autoImplicit false

namespace Mmorpg.World

open ViewSync ViewProcessor

variable {env : Env} {w w' v : World} {p q o : Player} {m m' : Monster} {id j : ObjectID}
  {pos a : Position} {sm : SectorManager} {x : ConnId × ScPacket}

/-! ## View packets log nobody in -/

theorem noLogin_processMoveView (p : Player) (moved : GameObject) :
    NoLogin p (processMoveView env w moved a) := by
  intro x hx _
  cases of_mem_processMoveView hx with
  | appears => exact id
  | sees => exact id
  | vanishes => exact id
  | loses => exact id
  | moves => exact id

theorem noLogin_sendFullView (p me : Player) : NoLogin p (sendFullView env w me) := by
  intro x hx _
  obtain ⟨obj, hobj⟩ := addObject_of_mem_sendFullView hx
  rw [hobj]
  exact not_false

theorem noLogin_sendDisappear (p me : Player) : NoLogin p (sendDisappear env w me) := by
  intro x hx _
  obtain ⟨j, other, -, -, rfl⟩ := of_mem_sendDisappear hx
  exact id

/-! ## Players that move -/

theorem msgsTo_congr (hid : q.id = p.id) (hs : q.session = p.session)
    (pkts : List (ConnId × ScPacket)) : msgsTo q pkts = msgsTo p pkts := by
  rw [msgsTo, msgsTo, hid, hs]

/-- What a player's own client makes of its move. -/
theorem turns_processMoveView_own (env : Env) (h : Placed w) (ha : Apart w) (hq : w.getPlayer q.id = some q)
    (a : Position) (i : ObjectID) :
    Turns (msgsTo q (processMoveView env w (ofPlayer q) a)) i
      (if i = q.id then none else (w.place i).filter (isInView a))
      (if i = q.id then none else (w.place i).filter (isInView q.pos)) := by
  have hmem := mem_processMoveView_own h.sectored ha hq env a
  by_cases hi : i = q.id
  · rw [if_pos hi, if_pos hi]
    refine .unchanged fun msg hmsg heq => ?_
    rcases (hmem msg).mp hmsg with ⟨k, r, hne, -, -, -, rfl⟩ | ⟨k, r, hne, -, -, -, rfl⟩ <;>
      exact hne (heq.trans hi)
  · rw [if_neg hi, if_neg hi]
    cases hr : w.place i with
    | none =>
        refine .unchanged fun msg hmsg heq => ?_
        rcases (hmem msg).mp hmsg with ⟨k, r, -, hk, -, -, rfl⟩ | ⟨k, r, -, hk, -, -, rfl⟩ <;>
          · obtain rfl : k = i := heq
            exact absurd (hr.symm.trans hk) (by simp)
    | some r =>
        -- the messages about this object, by which of the two views it is in
        have habout : ∀ msg ∈ msgsTo q (processMoveView env w (ofPlayer q) a), msg.about = i →
            (isInView q.pos r = true ∧ ¬ isInView a r = true ∧ msg = .appear i r) ∨
              (isInView a r = true ∧ ¬ isInView q.pos r = true ∧ msg = .vanish i) := by
          intro msg hmsg heq
          rcases (hmem msg).mp hmsg with ⟨k, r', -, hk, hv, hv', rfl⟩ |
            ⟨k, r', -, hk, hv, hv', rfl⟩ <;>
          · obtain rfl : k = i := heq
            obtain rfl := Option.some.inj (hr.symm.trans hk)
            simp [hv, hv']
        simp only [Option.filter_some]
        by_cases hn : isInView q.pos r = true <;> by_cases ho : isInView a r = true
        · rw [if_pos hn, if_pos ho]
          exact .unchanged fun msg hmsg heq => by simpa [hn, ho] using habout msg hmsg heq
        · rw [if_pos hn, if_neg ho]
          exact .appears (fun msg hmsg heq => by simpa [hn, ho] using habout msg hmsg heq)
            ((hmem _).mpr (.inl ⟨i, r, hi, hr, hn, ho, rfl⟩))
        · rw [if_neg hn, if_pos ho]
          exact .vanishes (fun msg hmsg heq => by simpa [hn, ho] using habout msg hmsg heq)
            ((hmem _).mpr (.inr ⟨i, r, hi, hr, ho, hn, rfl⟩))
        · rw [if_neg hn, if_neg ho]
          exact .unchanged fun msg hmsg heq => by simpa [hn, ho] using habout msg hmsg heq

/-- **A player that is written with a new position and told of by
`ProcessMoveView`** leaves the views exact. -/
theorem exact_movePlayer (env : Env) (h : Exact w) (hp : w.getPlayer q.id = some p)
    (hident : q.ident = { p.ident with pos := q.pos })
    (hplaced : Placed ({ w with sectorManager := sm }.setPlayer q)) :
    Exact (({ w with sectorManager := sm }.setPlayer q).sendAll
      (processMoveView env ({ w with sectorManager := sm }.setPlayer q) (ofPlayer q) p.pos)) := by
  -- `v` is the world in which the views are computed: the player has moved in it
  generalize hv : ({ w with sectorManager := sm } : World).setPlayer q = v at *
  have hid : q.id = p.id := congrArg Player.Ident.id hident
  have hs : q.session = p.session := congrArg Player.Ident.session hident
  have hget : ∀ i, v.getPlayer i = if i = q.id then some q else w.getPlayer i := fun i => by
    rw [← hv]
    exact getPlayer_setPlayer q i
  have hq : v.getPlayer q.id = some q := by rw [hget, if_pos rfl]
  have hplace : v.place = Function.update w.place q.id (some q.pos) := by
    rw [← hv]
    exact place_setPlayer (h.placed.isPlayerId hp)
  have hat : w.place q.id = some p.pos := h.placed.place_player hp
  have hothers : ∀ i, i ≠ q.id →
      (v.getPlayer i).map Player.ident = (w.getPlayer i).map Player.ident := fun i hi => by
    rw [hget, if_neg hi]
  -- no two players share a connection
  have hown : ∀ q', v.getPlayer q.id = some q' → ∀ i o, i ≠ q.id → w.getPlayer i = some o →
      q'.session ≠ o.session := by
    intro q' hq' i o hi ho heq
    obtain rfl := Option.some.inj (hq.symm.trans hq')
    exact hi (h.apart i q.id o p ho hp (heq.symm.trans hs))
  have hapart := h.apart.of_others hothers hown
  have hsent : v.sent = w.sent := by rw [← hv]; rfl
  refine h.update (processMoveView env v (ofPlayer q) p.pos) (k := q.id) (y := some q.pos)
    (hplaced.sendAll _) hplace ?_ hothers hown ?_ ?_
  · rw [← hsent]
    rfl
  · intro o ho hne
    -- the others: what they are told of the player is its move
    have ho' : v.getPlayer o.id = some o := by rw [hget, if_neg hne, ho]
    have htold := told_processMoveView hplaced.sectored hapart ho'
      (show o.id ≠ (ofPlayer q).remote.id from hne)
      (fun me hme heq => ?_) env p.pos
    · rw [hat]
      exact htold
    · obtain rfl : q = me := Option.some.inj hme
      exact hne (hapart _ _ _ _ ho' hq heq.symm)
  · intro q' hq'
    obtain rfl := Option.some.inj (hq.symm.trans hq')
    refine (h.sees _ p hp).update (processMoveView env v (ofPlayer q) p.pos) ?_
      (noLogin_processMoveView p _) hid hs fun i => ?_
    · rw [← hsent]
      rfl
    · have hturns := turns_processMoveView_own env hplaced hapart hq p.pos i
      rw [msgsTo_congr hid hs] at hturns
      have hexp : w.expected p i = if i = q.id then none else (v.place i).filter (isInView p.pos) := by
        rw [expected, hid, hplace]
        split
        · rfl
        · next hi => rw [Function.update_of_ne (hid ▸ hi)]
      rw [hexp]
      exact hturns

/-- What follows a move in the handler of a request: monsters are woken, and
the player is told of its new position. -/
theorem inert_activate_send (hp : w.getPlayer p.id = some p) (pkt : ScPacket)
    (hq : pkt.Quiet p.id) :
    Inert w ((w.activateNearbyMonsters env pos).send p.session pkt) := by
  have hact := inert_activateNearbyMonsters env pos w
  obtain ⟨p', hp', hident⟩ := getPlayer_of_ident hp (hact.players p.id)
  have hid : p'.id = p.id := congrArg Player.Ident.id hident
  have hs : p'.session = p.session := congrArg Player.Ident.session hident
  rw [← hs]
  exact hact.trans (inert_send (by rw [hid, hp']) (by rwa [hid]))

/-- **A move request keeps the views exact.** -/
theorem exact_processMove (h : Exact w) {session : ConnId} (data : Bytes)
    (hsession : ∀ p, w.getPlayer id = some p → p.session = session) :
    Exact (w.processMove env id session data) := by
  rcases processMove_cases env id session data w with
    heq | ⟨player, new, sm, hp, -, -, hwalk, hmove, heq⟩
  · rw [heq]
    exact h
  · rw [heq]
    obtain rfl := getPlayer_id hp
    obtain rfl := hsession player hp
    have hsm := h.placed.agrees.tryMoveObject (h.placed.player_ne_invalid hp)
      (h.placed.place_player hp) hmove
    have hset := h.placed.setPlayer (q := (player.setPos new).onMoved w.now)
      (h.placed.playerId _ player hp) hsm hwalk
    have hmoved := exact_movePlayer env h (q := (player.setPos new).onMoved w.now) hp rfl hset
    refine hmoved.inert (inert_activate_send (p := (player.setPos new).onMoved w.now) ?_
      (.moveObject player.id _ _) (Eq.refl player.id))
    exact getPlayer_setPlayer_self _ _

/-- **A teleport that finds a tile keeps the views exact.** -/
theorem exact_processTeleport (h : Exact w) {session : ConnId} (hfit : TeleportFits env id w)
    (hsession : ∀ p, w.getPlayer id = some p → p.session = session) :
    Exact (w.processTeleport env id session) := by
  rcases processTeleport_cases env id session w with heq | ⟨player, sm, new, hp, hplaced, heq⟩
  · rw [heq]
    exact h
  · rw [heq]
    obtain rfl := getPlayer_id hp
    obtain rfl := hsession player hp
    have hne := h.placed.player_ne_invalid hp
    have hgone := h.placed.agrees.removeObject hne (h.placed.place_player hp)
    obtain ⟨hsm, hwalk⟩ := agrees_placeTeleported hgone hne (Function.update_self _ _ _)
      (hfit player hp) hplaced
    rw [Function.update_idem] at hsm
    have hset := h.placed.setPlayer (q := player.setPos new) (h.placed.playerId _ player hp) hsm
      hwalk
    have hmoved := exact_movePlayer env h (q := player.setPos new) hp rfl hset
    refine hmoved.inert (inert_activate_send (p := player.setPos new)
      ?_ (.moveObject player.id new 0) (Eq.refl player.id))
    exact getPlayer_setPlayer_self _ _

/-! ## Monsters that move, die and come back -/

/-- A monster's change leaves the players as they are. -/
theorem Exact.monster (h : Exact w) (pkts : List (ConnId × ScPacket)) {k : ObjectID}
    {y : Option Position} (hk : monsterIdOffset ≤ k) (hplaced : Placed w')
    (hplace : w'.place = Function.update w.place k y) (hsent : w'.sent = w.sent ++ pkts)
    (hplayers : ∀ i, (w'.getPlayer i).map Player.ident = (w.getPlayer i).map Player.ident)
    (htold : ∀ o, w.getPlayer o.id = some o → o.id ≠ k →
      Told o pkts k ((w.place k).filter (isInView o.pos)) (y.filter (isInView o.pos))) :
    Exact w' := by
  have hnone : ∀ p, w'.getPlayer k ≠ some p := fun p hp =>
    absurd (hplaced.sectored.lt_monsterIdOffset hp) (Nat.not_lt.mpr hk)
  exact h.update pkts hplaced hplace hsent (fun i _ => hplayers i) (fun p hp => absurd hp (hnone p)) htold
    fun p hp => absurd hp (hnone p)

theorem exact_moveMonster (h : Exact w) (hm : w.getMonster m.id = some m)
    (halive : m.isDead = false) (hwalk : w.map.isWalkable pos.x pos.y = true) :
    Exact (w.moveMonster env m pos) := by
  have hplaced := placed_moveMonster env h.placed hm halive hwalk
  unfold moveMonster at *
  cases hmove : w.sectorManager.tryMoveObject m.id m.pos pos with
  | none => exact h
  | some sm =>
      rw [hmove] at hplaced
      dsimp only at *
      generalize hv : ({ w with sectorManager := sm } : World).setMonster (m.setPos pos) = v at *
      have hat : w.place m.id = some m.pos := by
        rw [place_of_getMonster hm, halive, if_neg (by simp)]
      have hplace : v.place = Function.update w.place m.id (some pos) := by
        have hset := place_setMonster (w := { w with sectorManager := sm }) (m := m.setPos pos) hm
        rw [hv, show (m.setPos pos).isDead = false from halive, if_neg (by simp)] at hset
        exact hset
      have hpv : Placed v := by
        rw [← hv]
        exact h.placed.setMonster (m := m.setPos pos) hm rfl halive (h.placed.pending_eq_zero hat)
          (h.placed.agrees.tryMoveObject (h.placed.monster_ne_invalid hm) hat hmove) hwalk
      have hget : v.getPlayer = w.getPlayer := by rw [← hv]; rfl
      refine h.monster (processMoveView env v (ofMonster (m.setPos pos)) m.pos)
        (monsterIdOffset_le_of_getMonster hm) hplaced hplace
        (by rw [← hv]; rfl) (fun i => by rw [show (v.sendAll _).getPlayer i = v.getPlayer i from rfl,
          hget]) fun o ho hne => ?_
      have hapart : Apart v := by
        unfold Apart
        rw [hget]
        exact h.apart
      rw [hat]
      exact told_processMoveView hpv.sectored hapart (by rw [hget, ho])
        (show o.id ≠ (ofMonster (m.setPos pos)).remote.id from hne)
        (fun me hme => absurd hme (by simp [ofMonster])) env m.pos

theorem exact_roamingMove (h : Exact w) (hm : w.getMonster m.id = some m)
    (halive : m.isDead = false) : Exact (w.roamingMove env m) := by
  rcases roamingMove_cases env m w with heq | ⟨new, hmay, -, heq⟩
  · rw [heq]
    exact h
  · rw [heq]
    exact exact_moveMonster h hm halive hmay.walkable

theorem exact_chase (h : Exact w) (hm : w.getMonster m.id = some m)
    (halive : m.isDead = false) : Exact (w.chase env m pos) := by
  rcases chase_cases env m pos w with heq | ⟨new, hmay, -, heq⟩
  · rw [heq]
    exact h
  · rw [heq]
    exact exact_moveMonster h hm halive hmay.walkable

/-- Timers are not seen. -/
theorem Exact.withTimers (h : Exact w) {ts : List TimerEvent}
    (hp : Placed { w with timers := ts }) : Exact { w with timers := ts } :=
  ⟨hp, h.apart, fun id p hp => ⟨(h.sees id p hp).me, (h.sees id p hp).table⟩⟩

/-- One packet about an object to everyone who has its tile in view. -/
theorem told_broadcast (env : Env) (h : Placed w) (ha : Apart w') (ho : w.getPlayer o.id = some o)
    (hplayers : (w'.getPlayer o.id).map Player.ident = (w.getPlayer o.id).map Player.ident)
    (hsm : w'.sectorManager = w.sectorManager) (pos : Position) (pkt₀ : ScPacket)
    (m₀ : Msg ObjectID Position) (hmsg : pkt₀.msg o.id = some m₀) (y : Option Position) :
    Told o ((playersInView env w' pos).map fun player => (player.session, pkt₀)) m₀.about
      y (if isInView o.pos pos = true then m₀.entry y else y) := by
  obtain ⟨o', ho', hident⟩ := getPlayer_of_ident ho hplayers
  have hid : o'.id = o.id := congrArg Player.Ident.id hident
  have hview : o'.pos = o.pos := congrArg Player.Ident.pos hident
  rw [← hid] at ho' hmsg
  rw [← hview]
  refine (Told.of_mem_iff pkt₀ m₀ (fun pkt => mem_broadcast_observer ha ho' env ?_ ?_) hmsg).congr
    hid.symm (congrArg Player.Ident.session hident).symm
  · rw [hid]
    exact h.isPlayerId ho
  · rw [hid, hview, getNearbyObjects, hsm]
    intro hv
    exact nearby_of_view h.sectored (h.place_player ho) (by rw [isInView_comm]; exact hv)

/-- **A monster that was just killed** is taken out at everybody who has it in
view. -/
theorem exact_buryMonster (h : Exact w) (hm : w.getMonster m.id = some m)
    (halive : m.isDead = false) (hspec : m'.spec = m.spec) (hpos : m'.pos = m.pos)
    (hdead : m'.isDead = true) (hi : Inert (w.setMonster m') w') :
    Exact (w'.buryMonster env m') := by
  have hid : m'.id = m.id := congrArg Monster.Spec.id hspec
  have hat : w.place m.id = some m.pos := by
    rw [place_of_getMonster hm, halive, if_neg (by simp)]
  obtain ⟨quiet, hsent, hquiet⟩ := hi.sent
  refine h.monster
    (quiet ++ (playersInView env w' m'.pos).map fun player =>
      (player.session, .removeObject m'.id))
    (monsterIdOffset_le_of_getMonster hm) (placed_buryMonster h.placed hm halive hspec hpos hdead hi)
    (place_buryMonster env hm hspec hdead hi) ?_ hi.players fun o ho hne => ?_
  · rw [← List.append_assoc]
    exact congrArg (· ++ _) hsent
  · obtain ⟨hmsgs, hlogin⟩ := msgsTo_quiet h.apart ho hquiet
    have htold := told_broadcast env h.placed (hi.apart h.apart) ho (hi.players o.id)
      hi.sectorManager m'.pos (.removeObject m'.id) (.vanish m'.id) rfl
      ((some m.pos).filter (isInView o.pos))
    rw [hat]
    refine (Told.of_nil hlogin hmsgs).append ?_
    rw [hpos] at htold ⊢
    rw [← hid]
    by_cases hv : isInView o.pos m.pos = true
    · rwa [if_pos hv] at htold
    · rw [if_neg hv, Option.filter_some, if_neg hv] at htold
      rwa [Option.filter_some, if_neg hv]

theorem exact_strike {target : Monster} (h : Exact w) (hp : w.getPlayer id = some p)
    (hm : w.getMonster target.id = some target) (halive : target.isDead = false)
    (damage : Int) : Exact (w.strike env id damage target) := by
  obtain rfl := getPlayer_id hp
  unfold strike
  dsimp only
  rw [getPlayer_setMonster, hp]
  dsimp only
  have hp1 : (w.setMonster (target.takeDamage damage)).getPlayer p.id = some p := hp
  have hmsg := inert_sendCombatMessage hp1 p.id (target.takeDamage damage).id damage
  split
  · next hdead =>
      exact exact_buryMonster h hm halive rfl rfl hdead (hmsg.trans (inert_rewardKiller hp1))
  · next hlive =>
      have hb := takeDamage_body halive (by simpa using hlive)
      exact h.inert ((inert_setMonster (m := target.takeDamage damage) hm hb).trans hmsg)

/-- **An attack keeps the views exact.** -/
theorem exact_processAttack (h : Exact w) : Exact (w.processAttack env id) := by
  apply processAttack_of_inert h
  case strike =>
    intro v player target hp hm halive hv damage
    exact exact_strike hv hp hm halive damage
  case inert =>
    intro v v' hv hi
    exact hv.inert hi

/-- **A respawn that is due keeps the views exact.** -/
theorem exact_respawnMonster (h : Exact w) (hid : monsterIdOffset ≤ id)
    (hpend : w.pendingRespawns id = 0) (hplace : w.place id = none) :
    Exact (w.respawnMonster env id) := by
  have hplaced := placed_respawnMonster env h.placed hid hpend hplace
  rcases respawnMonster_cases env id w with
    heq | ⟨monster, -, -, heq⟩ | ⟨monster, sm, out, v, hm, hadd, hv, heq⟩
  · rw [heq]
    exact h
  · rw [heq] at hplaced ⊢
    exact h.withTimers hplaced
  · obtain rfl := getMonster_id hm
    have hne := h.placed.monster_ne_invalid hm
    obtain ⟨hsm, hwalk, -⟩ := h.placed.agrees.addObject hne hplace hadd
    -- it comes back with all its hit points
    have halive : (monster.respawn.setPos out).isDead = false := by
      have hpos := h.placed.maxHp monster (MonsterTable.mem_of_find hm)
      exact decide_eq_false (Int.not_le.mpr hpos)
    have hset := h.placed.setMonster (m := monster.respawn.setPos out) hm rfl halive hpend hsm
      hwalk
    have hput : ({ w with sectorManager := sm }.setMonster
        (monster.respawn.setPos out)).place = Function.update w.place monster.id (some out) := by
      have h1 := place_setMonster (w := { w with sectorManager := sm })
        (m := monster.respawn.setPos out) hm
      rw [halive, if_neg (by simp)] at h1
      exact h1
    -- the broadcast tells those in view of the new tile, to whom it was gone
    have hcast : Exact v := by
      rw [hv]
      refine h.monster
        ((playersInView env ({ w with sectorManager := sm }.setMonster
          (monster.respawn.setPos out)) out).map fun player =>
            (player.session, .addObject (monster.respawn.setPos out).remote))
        (monsterIdOffset_le_of_getMonster hm) (hset.sendAll _) hput rfl (fun _ => rfl)
        fun o ho _ => ?_
      have htold := told_broadcast env hset (show Apart ({ w with sectorManager := sm }.setMonster
        (monster.respawn.setPos out)) from h.apart) ho rfl rfl
        out (.addObject (monster.respawn.setPos out).remote)
        (.appear monster.id out) rfl none
      rw [hplace, Option.filter_some]
      exact htold
    rcases heq with heq | ⟨monster', hact, heq⟩
    · rw [heq]
      exact hcast
    · rw [heq]
      -- waking up changes nothing that a client sees
      exact hcast.inert (inert_wake (hv ▸ getMonster_respawned hm sm out) hact _)

/-! ## Coming into the world -/

/-- What the full view makes of a client that shows, of everybody, no more
than what is in it. -/
theorem turns_sendFullView_own (h : Placed w) (ha : Apart w) (hq : w.getPlayer q.id = some q)
    (env : Env) (i : ObjectID) (y : Option Position)
    (hself : i = q.id → y = none)
    (hout : i ≠ q.id → (∀ r, w.place i = some r → isInView q.pos r = false) → y = none) :
    Turns (msgsTo q (sendFullView env w q)) i y
      (if i = q.id then none else (w.place i).filter (isInView q.pos)) := by
  have hmem := mem_sendFullView_own h.sectored ha hq env
  have hnone : (∀ r, i ≠ q.id → w.place i = some r → isInView q.pos r = false) →
      ∀ msg ∈ msgsTo q (sendFullView env w q), msg.about ≠ i := by
    intro hno msg hmsg heq
    obtain ⟨k, r, hne, hk, hv, rfl⟩ := (hmem msg).mp hmsg
    obtain rfl : k = i := heq
    rw [hno r hne hk] at hv
    exact absurd hv (by simp)
  by_cases hi : i = q.id
  · rw [if_pos hi, hself hi]
    exact .unchanged (hnone fun r hne => absurd hi hne)
  · rw [if_neg hi]
    cases hr : w.place i with
    | none =>
        rw [hout hi fun r hr' => absurd (hr.symm.trans hr') (by simp)]
        exact .unchanged (hnone fun r _ hr' => absurd (hr.symm.trans hr') (by simp))
    | some r =>
        by_cases hv : isInView q.pos r = true
        · rw [Option.filter_some, if_pos hv]
          refine .appears (fun msg hmsg heq => ?_) ((hmem _).mpr ⟨i, r, hi, hr, hv, rfl⟩)
          obtain ⟨k, r', -, hk, -, rfl⟩ := (hmem msg).mp hmsg
          obtain rfl : k = i := heq
          rw [Option.some.inj (hr.symm.trans hk)]
        · have hno : ∀ r', w.place i = some r' → isInView q.pos r' = false := by
            intro r' hr'
            rw [← Option.some.inj (hr.symm.trans hr')]
            simpa using hv
          rw [Option.filter_some, if_neg hv, hout hi hno]
          exact .unchanged (hnone fun r' _ => hno r')

/-- The packets of a login on a connection that was only sent refusals. -/
theorem client_loginOk (conn : ConnId)
    (hsilent : ∀ x ∈ w.sent, x.1 = conn → ∃ reason, x.2 = .loginFail reason) (p : Player)
    (i : ObjectID) :
    ((w.send conn (loginOkPkt p)).client conn).me.id = p.id ∧
      ((w.send conn (loginOkPkt p)).client conn).table i = none := by
  have hpkts : ∀ pkt ∈ (w.sent.filter fun x => x.1 = conn).map (·.2),
      ∃ reason, pkt = .loginFail reason := by
    intro pkt hpkt
    obtain ⟨x, hx, rfl⟩ := List.mem_map.mp hpkt
    obtain ⟨hx, hc⟩ := List.mem_filter.mp hx
    exact hsilent x hx (by simpa using hc)
  have htab : (w.client conn).table = fun _ => none := by
    have h := GameState.table_foldl .init ((w.sent.filter fun x => x.1 = conn).map (·.2))
      (fun pkt hpkt => by obtain ⟨reason, rfl⟩ := hpkts pkt hpkt; exact id)
    rw [client, GameState.after, h.2, List.filterMap_eq_nil_iff.mpr]
    · rfl
    · intro pkt hpkt
      obtain ⟨reason, rfl⟩ := hpkts pkt hpkt
      rfl
  have hclient : (w.send conn (loginOkPkt p)).client conn =
      (w.client conn).onPacket (loginOkPkt p) := by
    rw [client_append (show (w.send conn (loginOkPkt p)).sent = w.sent ++ [(conn, loginOkPkt p)]
      from rfl)]
    simp
  rw [hclient]
  exact ⟨rfl, congrFun htab i⟩

/-- **A login keeps the views exact**, on a session without a player and a
connection that was only sent refusals. -/
theorem exact_login (h : Exact w) (env : Env) {conn : ConnId} {row : PlayerRow}
    (hid : id < maxPlayers) (hnew : w.getPlayer id = none)
    (hadd : w.addPlayer id conn row = some v) (hp : v.getPlayer id = some p)
    (hfresh : ∀ i o, w.getPlayer i = some o → o.session ≠ conn)
    (hsilent : ∀ x ∈ w.sent, x.1 = conn → ∃ reason, x.2 = .loginFail reason) :
    Exact (v.welcome env conn p) := by
  have hpv := placed_addPlayer h.placed hid hnew hadd
  obtain rfl := getPlayer_id hp
  unfold addPlayer at hadd
  dsimp only at hadd
  split at hadd
  · exact absurd hadd (by simp)
  · next sm spawn hsm =>
      have hv := Option.some.inj hadd
      have hget : ∀ i, v.getPlayer i = if i = p.id then some p else w.getPlayer i := by
        intro i
        have hset : v.getPlayer i = if i = p.id then
            some ((Player.ofRow p.id conn row w.nextSerial).setPos spawn) else w.getPlayer i := by
          rw [← hv]
          exact getPlayer_setPlayer _ _
        split
        · next hi => rw [hi, hp]
        · next hi => rw [hset, if_neg hi]
      have hpeq : p = (Player.ofRow p.id conn row w.nextSerial).setPos spawn := by
        have hset : v.getPlayer p.id =
            some ((Player.ofRow p.id conn row w.nextSerial).setPos spawn) := by
          rw [← hv]
          exact getPlayer_setPlayer_self _ _
        exact Option.some.inj (hp.symm.trans hset)
      have hsession : p.session = conn := by rw [hpeq]; rfl
      have hpos : p.pos = spawn := by rw [hpeq]; rfl
      have hplace : v.place = Function.update w.place p.id (some p.pos) := by
        rw [← hv, hpos]
        exact place_setPlayer (q := (Player.ofRow p.id conn row w.nextSerial).setPos spawn)
          (isPlayerId_of_lt hid)
      have hsent : v.sent = w.sent := by rw [← hv]; rfl
      have hgone : w.place p.id = none := by
        rw [place_player (isPlayerId_of_lt hid), hnew]
        rfl
      have hothers : ∀ i, i ≠ p.id →
          (v.getPlayer i).map Player.ident = (w.getPlayer i).map Player.ident := fun i hi => by
        rw [hget, if_neg hi]
      have hown : ∀ q, v.getPlayer p.id = some q → ∀ i o, i ≠ p.id → w.getPlayer i = some o →
          q.session ≠ o.session := by
        intro q hq i o _ ho heq
        obtain rfl := Option.some.inj (hp.symm.trans hq)
        exact hfresh i o ho (heq.symm.trans hsession)
      have hapart : Apart (v.send conn (loginOkPkt p)) := h.apart.of_others hothers hown
      have hplaced := hpv.send conn (loginOkPkt p)
      -- the world of the full view; the monsters are woken after it
      refine Exact.inert ?_ (inert_activateNearbyMonsters env _ _)
      refine h.update ((conn, loginOkPkt p) :: sendFullView env (v.send conn (loginOkPkt p)) p)
        (k := p.id) (y := some p.pos) (hplaced.sendAll _) hplace ?_ hothers hown ?_ ?_
      · rw [← hsent]
        exact List.append_assoc _ [(conn, loginOkPkt p)] _
      · intro o ho hne
        rw [hgone]
        have hother : ∀ x ∈ [(conn, loginOkPkt p)], x.1 ≠ o.session := by
          intro x hx heq
          rw [List.mem_singleton.mp hx] at heq
          exact hfresh _ o ho heq.symm
        exact (Told.other hother).append (told_sendFullView hapart
          (show (v.send conn (loginOkPkt p)).getPlayer o.id = some o by
            exact (hget o.id).trans ((if_neg hne).trans ho)) hplaced.sectored hne hp env)
      · intro q hq
        obtain rfl := Option.some.inj (hp.symm.trans hq)
        have hclient := client_loginOk (w := v) conn (by rw [hsent]; exact hsilent) p
        refine sees_of_turns (w := v.send conn (loginOkPkt p)) (p := p)
          (sendFullView env (v.send conn (loginOkPkt p)) p) ?_ rfl (noLogin_sendFullView p p) rfl rfl
          fun i => ?_
        · rw [hsession]
          exact (hclient 0).1
        · have hempty := (hclient i).2
          rw [← hsession] at hempty ⊢
          exact turns_sendFullView_own hplaced hapart hp env i _ (fun _ => hempty)
            (fun _ _ => hempty)

/-- **A logout keeps the views exact.** -/
theorem exact_leave (h : Exact w) (env : Env) (hp : w.getPlayer id = some p) :
    Exact (w.leave env p) := by
  have hplaced := (placed_leave h.placed hp : Placed (w.leave env p))
  obtain rfl := getPlayer_id hp
  have hget : ∀ i, (w.leave env p).getPlayer i = if i = p.id then none else w.getPlayer i :=
    fun i => getPlayer_removePlayer p.id i
  have hnone : ∀ q, (w.leave env p).getPlayer p.id ≠ some q := by
    intro q hq
    rw [hget, if_pos rfl] at hq
    exact absurd hq (by simp)
  refine h.update (sendDisappear env w p) (k := p.id) (y := none) hplaced
    (place_removePlayer (h.placed.isPlayerId hp)) rfl (fun i hi => by rw [hget, if_neg hi])
    (fun q hq => absurd hq (hnone q)) (fun o ho hne => ?_) (fun q hq => absurd hq (hnone q))
  rw [h.placed.place_player hp]
  exact told_sendDisappear h.apart ho h.placed.sectored hne env

/-! ## The death of a player -/

/-- **A death keeps the views exact** when all that was in the victim's view
where it died is in view of the tile it comes back to. -/
theorem exact_onPlayerDied (h : Exact w) (env : Env) (hp : w.getPlayer p.id = some p)
    {respawn : Position}
    (hadd : (w.sectorManager.removeObject p.id p.pos).addObject p.id ⟨0, 0⟩ w.map =
      some (sm, respawn))
    (hview : ∀ j r, j ≠ p.id → w.place j = some r → isInView p.pos r = true →
      isInView respawn r = true) : Exact (w.onPlayerDied env p) := by
  have hne := h.placed.player_ne_invalid hp
  have hgone := h.placed.agrees.removeObject hne (h.placed.place_player hp)
  obtain ⟨hsm, hwalk, -⟩ := hgone.addObject hne (Function.update_self _ _ _) hadd
  rw [Function.update_idem] at hsm
  rw [onPlayerDied_of_some hadd]
  have hset := (h.placed.sendAll (sendDisappear env w p)).setPlayer
    (q := afterDeath p respawn) (h.placed.playerId _ p hp) hsm hwalk
  dsimp only
  generalize hv : ({ w.sendAll (sendDisappear env w p) with sectorManager := sm } :
    World).setPlayer (afterDeath p respawn) = v at *
  generalize hq : afterDeath p respawn = q at *
  have hid : q.id = p.id := by rw [← hq]; rfl
  have hs : q.session = p.session := by rw [← hq]; rfl
  have hpos : q.pos = respawn := by rw [← hq]; rfl
  have hget : ∀ i, v.getPlayer i = if i = p.id then some q else w.getPlayer i := fun i => by
    rw [← hv, ← hid]
    exact getPlayer_setPlayer q i
  have hplace : v.place = Function.update w.place p.id (some respawn) := by
    rw [← hv, ← hid, ← hpos]
    exact place_setPlayer (by rw [hid]; exact h.placed.isPlayerId hp)
  have hothers : ∀ i, i ≠ p.id →
      (v.getPlayer i).map Player.ident = (w.getPlayer i).map Player.ident := fun i hi => by
    rw [hget, if_neg hi]
  have hown : ∀ q', v.getPlayer p.id = some q' → ∀ i o, i ≠ p.id → w.getPlayer i = some o →
      q'.session ≠ o.session := by
    intro q' hq' i o hi ho heq
    rw [hget, if_pos rfl] at hq'
    obtain rfl := Option.some.inj hq'
    exact hi (h.apart i p.id o p ho hp (heq.symm.trans hs))
  generalize ht : (v.send p.session q.statPkt).send p.session (.moveObject p.id respawn 0) = t
  have htold : t.sent = w.sent ++ sendDisappear env w p ++
      [(p.session, q.statPkt), (p.session, .moveObject p.id respawn 0)] := by
    rw [← ht, ← hv]
    exact List.append_assoc _ _ _
  have htget : ∀ i, t.getPlayer i = v.getPlayer i := fun i => by rw [← ht]; rfl
  have htplaced : Placed t := by
    rw [← ht]
    exact (hset.send _ _).send _ _
  have htplace : t.place = v.place := by rw [← ht]; rfl
  have hapart : Apart t := (h.apart.of_others hothers hown).of_others (k := p.id)
    (fun i _ => by rw [htget]) fun q' hq' i o hi ho => by
      rw [htget] at hq'
      exact fun heq => hi ((h.apart.of_others hothers hown) i p.id o q' ho hq' heq.symm)
  have htq : t.getPlayer q.id = some q := by rw [htget, hget, if_pos hid]
  refine Exact.inert ?_ (inert_activateNearbyMonsters env _ _)
  refine h.update (sendDisappear env w p ++ [(p.session, q.statPkt),
      (p.session, .moveObject p.id respawn 0)] ++ sendFullView env t q)
    (k := p.id) (y := some respawn) (htplaced.sendAll _) ?_ ?_ ?_ ?_ ?_ ?_
  · exact htplace.trans hplace
  · rw [show (t.sendAll (sendFullView env t q)).sent = t.sent ++ sendFullView env t q from rfl,
      htold]
    simp only [List.append_assoc]
  · exact fun i hi => by rw [← hothers i hi]; exact congrArg _ (htget i)
  · exact fun q' hq' => hown q' ((htget _).symm.trans hq')
  · -- the onlookers: taken out at the old tile, put in at the new one
    intro o ho hne'
    have hother : ∀ x ∈ [(p.session, q.statPkt), (p.session, .moveObject p.id respawn 0)],
        x.1 ≠ o.session := by
      intro x hx heq
      have hxs : x.1 = p.session := by
        simp only [List.mem_cons, List.not_mem_nil, or_false] at hx
        rcases hx with rfl | rfl <;> rfl
      exact hne' (h.apart _ _ _ _ ho hp (heq.symm.trans hxs))
    have ho' : t.getPlayer o.id = some o := by rw [htget, hget, if_neg hne', ho]
    have hfull := told_sendFullView hapart ho' htplaced.sectored (by rw [hid]; exact hne') htq env
    rw [hid, hpos] at hfull
    rw [h.placed.place_player hp]
    exact ((told_sendDisappear h.apart ho h.placed.sectored hne' env).append
      (.other hother)).append hfull
  · -- the victim: only told what appears
    intro q' hq'
    obtain rfl : q = q' := Option.some.inj (by
      rw [← hid] at hq'
      exact htq.symm.trans hq')
    have hmsgs : msgsTo p (sendDisappear env w p ++ [(p.session, q.statPkt),
        (p.session, .moveObject p.id respawn 0)] ++ sendFullView env t q) =
          msgsTo q (sendFullView env t q) := by
      rw [msgsTo_append, msgsTo_append, msgsTo_sendDisappear_own h.apart hp, msgsTo_congr hid hs]
      simp [msgsTo, ScPacket.msg, Player.statPkt]
    have hlogin : NoLogin p (sendDisappear env w p ++ [(p.session, q.statPkt),
        (p.session, .moveObject p.id respawn 0)] ++ sendFullView env t q) := by
      intro x hx hc
      rcases List.mem_append.mp hx with hx | hx
      · rcases List.mem_append.mp hx with hx | hx
        · exact noLogin_sendDisappear p p x hx hc
        · simp only [List.mem_cons, List.not_mem_nil, or_false] at hx
          rcases hx with rfl | rfl <;> exact id
      · exact noLogin_sendFullView p q x hx hc
    have hback : ∀ i, i ≠ q.id → t.place i = w.place i := fun i hi => by
      rw [htplace, hplace, Function.update_of_ne (hid ▸ hi)]
    refine (h.sees _ p hp).update _ ?_ hlogin hid hs fun i => ?_
    · rw [show (t.sendAll (sendFullView env t q)).sent = t.sent ++ sendFullView env t q from rfl,
        htold]
      simp only [List.append_assoc]
    · rw [hmsgs]
      refine turns_sendFullView_own htplaced hapart htq env i _ (fun hi => ?_) fun hi hout => ?_
      · rw [expected, if_pos (hi.trans hid)]
      · rw [expected, if_neg (hid ▸ hi)]
        cases hr : w.place i with
        | none => rfl
        | some r =>
            have hfar := hout r (by rw [hback i hi, hr])
            rw [Option.filter_some, if_neg]
            intro hv'
            rw [hpos, hview i r (hid ▸ hi) hr hv'] at hfar
            exact absurd hfar (by simp)

/-- When the hit kills, a tile around the origin is free for the victim, and
everything in the victim's view is in view of that tile. -/
def HitKeepsView (hit : Hit) : Prop :=
  ∀ victim, hit.before.getPlayer hit.victimId = some victim → victim.isDead = false →
    (victim.takeDamage (hit.attacker.level.toNat * 5)).isDead = true →
      ∃ sm respawn, (hit.before.sectorManager.removeObject victim.id victim.pos).addObject victim.id
          ⟨0, 0⟩ hit.before.map = some (sm, respawn) ∧
        ∀ j r, j ≠ victim.id → hit.before.place j = some r → isInView victim.pos r = true →
          isInView respawn r = true

/-- The hit kills nobody. -/
def Hit.Spares (hit : Hit) : Prop :=
  ∀ victim ∈ hit.before.getPlayer hit.victimId,
    (victim.takeDamage (hit.attacker.level.toNat * 5)).isDead = false

instance (hit : Hit) : Decidable hit.Spares :=
  inferInstanceAs (Decidable (∀ victim ∈ hit.before.getPlayer hit.victimId,
    (victim.takeDamage (hit.attacker.level.toNat * 5)).isDead = false))

theorem Hit.Spares.keepsView {hit : Hit} (h : hit.Spares) : HitKeepsView hit := by
  intro victim hv _ hdies
  rw [h victim hv] at hdies
  exact absurd hdies (by simp)

theorem Exact.addRegenTimer (h : Exact w) (p : Player) : Exact (w.addRegenTimer p) :=
  h.withTimers (h.placed.addRegenTimer p)

theorem exact_startRegen (h : Exact w) (hp : w.getPlayer p.id = some p) :
    Exact (w.startRegen p) := by
  rcases inert_startRegen hp with heq | ⟨v, hv, q, -, heq⟩
  · rw [heq]
    exact h
  · rw [heq]
    exact (h.inert hv).addRegenTimer q

theorem exact_monsterAttackPlayer (h : Exact w) (env : Env) (hp : w.getPlayer id = some p)
    (hkeeps : HitKeepsView ⟨w, m, id⟩) : Exact (w.monsterAttackPlayer env m p) := by
  obtain rfl := getPlayer_id hp
  unfold monsterAttackPlayer
  split
  · exact h
  · next halive =>
      have hwound := inert_wound hp (m.level.toNat * 5) m.id
      have hw := h.inert hwound
      dsimp only
      split
      · next hdead =>
          obtain ⟨sm, respawn, hadd, hview⟩ := hkeeps p hp (by simpa using halive) hdead
          refine exact_onPlayerDied hw env (getPlayer_setPlayer_self _ _)
            (by rw [hwound.sectorManager, hwound.map]; exact hadd) ?_
          intro j r hj hr
          rw [hwound.place] at hr
          exact hview j r hj hr
      · exact exact_startRegen hw (getPlayer_setPlayer_self _ _)

theorem exact_attackVictims (env : Env) (victims : List ObjectID) (h : Exact w)
    (hkeeps : ∀ hit ∈ hitsFrom env m victims w, HitKeepsView hit) :
    Exact (victims.foldl (attackVictim env m) w) := by
  apply attackVictims_induction env victims h
  intro v _ victim hmem hv hp
  exact exact_monsterAttackPlayer hv env hp (hkeeps _ hmem)

theorem exact_perform (h : Exact w) (hm : w.getMonster m.id = some m)
    (halive : m.isDead = false) (action : AiAction)
    (hkeeps : ∀ victims, action = .attack victims →
      ∀ hit ∈ hitsFrom env m victims w, HitKeepsView hit) :
    Exact (w.perform env m action) := by
  cases action with
  | idle => exact h
  | clearTarget => exact h.inert (inert_setMonster (m := m.clearTarget) hm rfl)
  | attack victims =>
      exact ((exact_attackVictims env victims h (hkeeps victims rfl)).inert
        (inert_broadcastAttackEffect _ _ _)).inert (inert_modifyMonster fun _ => rfl)
  | chase targetPos => exact exact_chase h hm halive
  | setTarget t => exact h.inert (inert_setMonster (m := m.setTargetPlayerId t) hm rfl)
  | roam => exact exact_roamingMove h hm halive

/-- **A tick of a monster keeps the views exact** when every hit that kills does. -/
theorem exact_monsterAi (h : Exact w) (hkeeps : ∀ hit ∈ hitsOf env id w, HitKeepsView hit) :
    Exact (w.monsterAi env id) := by
  have hspec := monsterAi_spec env id w
  generalize w.monsterAi env id = v at hspec
  cases hspec with
  | nothing => exact h
  | asleep m hm =>
      obtain rfl := getMonster_id hm
      exact h.inert (inert_setMonster (m := m.deactivate) hm rfl)
  | tick m hm halive hhits =>
      obtain rfl := getMonster_id hm
      refine (exact_perform h hm halive _ fun victims hact => ?_).inert (inert_addTimer (.inl rfl) _)
      rw [← hhits victims hact]
      exact hkeeps

/-- **Regeneration is not seen.** -/
theorem exact_hpRegen (h : Exact w) : Exact (w.hpRegen id) := by
  obtain ⟨v, hv, heq | ⟨-, q, -, -, heq⟩⟩ := inert_hpRegen w id
  · rw [heq]
    exact h.inert hv
  · rw [heq]
    exact (h.inert hv).addRegenTimer q

end Mmorpg.World
