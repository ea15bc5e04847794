/-
What a handler does to a monster that nobody has in view.

Whoever arrives somewhere wakes what it has in view, and then stands there; a
monster acts in its tick, which does nothing but put it to sleep when nobody has
it in view; and an attack reaches the tiles beside the attacker, which the
attacker has in view. So a monster that is in nobody's view before and after a
handler is left as it is (`Undisturbed`), but for falling asleep.

A tick may kill several players, and each wakes what is in view of the tile it
comes back to. That tile is still its own at the end of the tick, since a player
stands on one tile and so is hit once (`nodup_adjacentVictims`).
-/
import SimplestMmorpg.Game.AttackRound
import SimplestMmorpg.Game.LifeCycleHandlers

set_option autoImplicit false

namespace Mmorpg.World

open ViewProcessor
open Pathfinder (manhattan)

/-- A player has the tile in view. -/
def HasInView (w : World) (k : ObjectID) (pos : Position) : Prop :=
  ∃ p, w.getPlayer k = some p ∧ isInView p.pos pos = true

/-- Somebody has. -/
def InSight (w : World) (pos : Position) : Prop := ∃ k, w.HasInView k pos

/-- Nothing of one monster changes, and no tick of it is scheduled. -/
structure Undisturbed (id : ObjectID) (w w' : World) : Prop where
  monster : w'.getMonster id = w.getMonster id
  ticks : ∀ ev ∈ w'.timers, ev.type = .monsterAi → ev.targetId = id → ev ∈ w.timers

variable {env : Env} {w w' v : World} {id k : ObjectID} {conn : ConnId} {p q : Player}
  {m n : Monster} {pos a : Position} {sm : SectorManager} {pkts : List (ConnId × ScPacket)}

namespace Undisturbed

theorem refl (id : ObjectID) (w : World) : Undisturbed id w w := ⟨rfl, fun _ hev _ _ => hev⟩

theorem trans (h : Undisturbed id w v) (h' : Undisturbed id v w') : Undisturbed id w w' where
  monster := h'.monster.trans h.monster
  ticks ev hev htype hid := h.ticks ev (h'.ticks ev hev htype hid) htype hid

/-- What concerns neither the monsters nor the timers. -/
theorem of_eq (hmonsters : w'.monsters = w.monsters) (htimers : w'.timers = w.timers) :
    Undisturbed id w w' where
  monster := by rw [getMonster, hmonsters, getMonster]
  ticks ev hev _ _ := by rwa [htimers] at hev

/-- A write to another monster. -/
theorem setMonster (hm : w.getMonster m.id = some n) (hne : id ≠ m.id) :
    Undisturbed id w (w.setMonster m) where
  monster := by rw [getMonster_setMonster hm, if_neg hne]
  ticks _ hev _ _ := hev

/-- An event that is no tick of the monster. -/
theorem addTimer {type : TimerType} (h : type = .monsterAi → k ≠ id) (w : World) (delayMs : ℕ)
    (owner : Option ℕ) : Undisturbed id w (w.addTimer type k delayMs owner) where
  monster := rfl
  ticks ev hev htype hid := by
    rcases List.mem_append.mp hev with hev | hev
    · exact hev
    · rw [List.mem_singleton.mp hev] at htype hid
      exact absurd hid (h htype)

theorem foldl {α : Type} {f : World → α → World} (hf : ∀ v x, Undisturbed id w v →
    Undisturbed id v (f v x)) (xs : List α) : Undisturbed id w (xs.foldl f w) :=
  List.foldlRecOn (motive := Undisturbed id w) xs f (.refl id w)
    fun v hv x _ => hv.trans (hf v x hv)

end Undisturbed

/-! ## Waking -/

/-- **Only what is in view is woken.** -/
theorem undisturbed_activateNearbyMonsters (env : Env) (hm : w.getMonster id = some m)
    (hfar : isInView pos m.pos = false) : Undisturbed id w (w.activateNearbyMonsters env pos) := by
  refine Undisturbed.foldl (fun v j hv => ?_) _
  have hstill : v.getMonster id = some m := hv.monster.trans hm
  unfold activateMonster
  split
  · exact .refl id v
  · next monster hj =>
      split
      · exact .refl id v
      · split
        · exact .refl id v
        · next hview =>
            have hne : id ≠ j := by
              rintro rfl
              rw [hstill] at hj
              rw [← Option.some.inj hj, hfar] at hview
              exact hview (by simp)
            split
            · exact .refl id v
            · next awake hact =>
                have hid := getMonster_id hj
                have hsame : awake.id = monster.id :=
                  congrArg (fun b : Monster.Body => b.spec.id) (body_tryActivate hact)
                refine (Undisturbed.setMonster (m := awake) (n := monster) ?_ ?_).trans
                  (.addTimer (fun _ => hne.symm) _ _ _)
                · rw [hsame, hid, hj]
                · rw [hsame, hid]
                  exact hne

/-- **Who arrives somewhere.** The player is written, something is sent, and the
monsters around it are woken: all but those that it has in view are left alone. -/
theorem undisturbed_arrive (env : Env) (hm : w.getMonster id = some m)
    (hmonsters : v.monsters = w.monsters) (htimers : v.timers = w.timers)
    (hq : v.getPlayer q.id = some q)
    (hunseen : ¬ (v.activateNearbyMonsters env q.pos).InSight m.pos) :
    Undisturbed id w (v.activateNearbyMonsters env q.pos) := by
  have hput : Undisturbed id w v := .of_eq hmonsters htimers
  refine hput.trans (undisturbed_activateNearbyMonsters env (hput.monster.trans hm) ?_)
  by_contra hview
  refine hunseen ⟨q.id, q, ?_, by simpa using hview⟩
  rw [getPlayer_activateNearbyMonsters, hq]

theorem undisturbed_arrive_send (env : Env) (hm : w.getMonster id = some m)
    (hmonsters : v.monsters = w.monsters) (htimers : v.timers = w.timers)
    (hq : v.getPlayer q.id = some q) (pkt : ScPacket)
    (hunseen : ¬ ((v.activateNearbyMonsters env q.pos).send conn pkt).InSight m.pos) :
    Undisturbed id w ((v.activateNearbyMonsters env q.pos).send conn pkt) :=
  (undisturbed_arrive env hm hmonsters htimers hq hunseen).trans (.of_eq rfl rfl)

/-! ## Requests -/

theorem undisturbed_processMove (env : Env) (session : ConnId) (data : Bytes)
    (hm : w.getMonster id = some m) (hunseen : ¬ (w.processMove env k session data).InSight m.pos) :
    Undisturbed id w (w.processMove env k session data) := by
  rcases processMove_cases env k session data w with
    heq | ⟨player, new, sm, hp, -, -, -, -, heq⟩
  · rw [heq]
    exact .refl id w
  · rw [heq] at hunseen ⊢
    refine undisturbed_arrive_send (q := (player.setPos new).onMoved w.now) env hm ?_ ?_ ?_ _
      hunseen
    · rfl
    · rfl
    · exact getPlayer_setPlayer_self _ _

theorem undisturbed_processTeleport (env : Env) (session : ConnId) (hm : w.getMonster id = some m)
    (hunseen : ¬ (w.processTeleport env k session).InSight m.pos) :
    Undisturbed id w (w.processTeleport env k session) := by
  rcases processTeleport_cases env k session w with heq | ⟨player, sm, new, hp, -, heq⟩
  · rw [heq]
    exact .refl id w
  · rw [heq] at hunseen ⊢
    refine undisturbed_arrive_send (q := player.setPos new) env hm ?_ ?_ ?_ _ hunseen
    · rfl
    · rfl
    · exact getPlayer_setPlayer_self _ _

theorem undisturbed_processChat (env : Env) (data : Bytes) (w : World) :
    Undisturbed id w (w.processChat env k data) := by
  unfold processChat
  split
  · exact .refl id w
  · next sender hp =>
      split
      · exact .refl id w
      · dsimp only
        split
        · exact .of_eq rfl rfl
        · split
          · exact .of_eq rfl rfl
          · exact .of_eq rfl rfl

/-- A tile beside another is in view of it. -/
theorem isInView_of_manhattan {p t : Position} (h : manhattan p t = 1) : isInView p t = true := by
  refine decide_eq_true ?_
  simp only [manhattan] at h
  unfold halfView
  omega

/-- **An attack hits what the attacker has in view.** -/
theorem undisturbed_processAttack (env : Env) (hc : Consistent w) (hm : w.getMonster id = some m)
    (hunseen : ¬ w.InSight m.pos) : Undisturbed id w (w.processAttack env k) := by
  unfold processAttack
  split
  · exact .refl id w
  · next player hp =>
      obtain rfl := getPlayer_id hp
      split
      · exact .refl id w
      · have hloop := struck_foldl env (player.level.toNat * 10) hc hp
          (nodup_towards env (hc.inMap_player hp))
        have hstruck : Undisturbed id w ((List.range 4).foldl
            (attackDirection env player.id player.pos (player.level.toNat * 10)) w) := by
          refine ⟨?_, fun ev hev htype _ => ?_⟩
          · rw [hloop.monsters, hm, Option.map_some, if_neg]
            intro hin
            have hbeside := (mem_targets_four hc (hc.inMap_player hp)).mp hin
            exact hunseen ⟨_, player, hp, isInView_of_manhattan hbeside.2.2⟩
          · rw [hloop.timers] at hev
            rcases List.mem_append.mp hev with hev | hev
            · exact hev
            · obtain ⟨n, -, rfl⟩ := List.mem_map.mp hev
              exact absurd htype (by simp [respawnEvent])
        refine hstruck.trans ?_
        unfold modifyPlayer
        dsimp only
        split
        · exact .of_eq rfl rfl
        · exact .of_eq rfl rfl

/-! ## Deaths -/

theorem getPlayer_startRegen_of_ne (hk : k ≠ p.id) (w : World) :
    (w.startRegen p).getPlayer k = w.getPlayer k := by
  unfold startRegen
  split
  · rfl
  · next q hq =>
      have hid : q.id = p.id := congrArg Player.Ident.id (Player.ident_tryStartRegen hq)
      exact (getPlayer_setPlayer q k).trans (if_neg (hid ▸ hk))

/-- A death moves nobody else. -/
theorem getPlayer_onPlayerDied_of_ne (env : Env) (hk : k ≠ p.id) (w : World) :
    (w.onPlayerDied env p).getPlayer k = w.getPlayer k := by
  cases hadd : (w.sectorManager.removeObject p.id p.pos).addObject p.id ⟨0, 0⟩ w.map with
  | none =>
      rw [onPlayerDied_of_none hadd]
      exact (getPlayer_setPlayer p.die.stopRegen k).trans (if_neg hk)
  | some found =>
      obtain ⟨sm, respawn⟩ := found
      rw [onPlayerDied_of_some hadd]
      dsimp only
      rw [getPlayer_activateNearbyMonsters]
      exact (getPlayer_setPlayer (afterDeath p respawn) k).trans (if_neg hk)

/-- A hit is about its victim. -/
theorem getPlayer_monsterAttackPlayer_of_ne (env : Env) (n : Monster) (hk : k ≠ p.id) (w : World) :
    (w.monsterAttackPlayer env n p).getPlayer k = w.getPlayer k := by
  have hset : (w.setPlayer (p.takeDamage (n.level.toNat * 5))).getPlayer k = w.getPlayer k :=
    (getPlayer_setPlayer (p.takeDamage (n.level.toNat * 5)) k).trans (if_neg hk)
  unfold monsterAttackPlayer
  split
  · rfl
  · dsimp only
    split
    · exact (getPlayer_onPlayerDied_of_ne (p := p.takeDamage (n.level.toNat * 5)) env hk _).trans
        hset
    · exact (getPlayer_startRegen_of_ne (p := p.takeDamage (n.level.toNat * 5)) hk _).trans hset

/-- Who is not hit is left where it is. -/
theorem getPlayer_attackVictims (env : Env) (n : Monster) {victims : List ObjectID}
    (hk : k ∉ victims) (w : World) :
    (victims.foldl (attackVictim env n) w).getPlayer k = w.getPlayer k := by
  induction victims generalizing w with
  | nil => rfl
  | cons i rest ih =>
      obtain ⟨hki, hrest⟩ := not_or.mp (mt List.mem_cons.mpr hk)
      rw [List.foldl_cons, ih hrest]
      unfold attackVictim
      split
      · rfl
      · next p hp => exact getPlayer_monsterAttackPlayer_of_ne env n (getPlayer_id hp ▸ hki) w

/-- **A death wakes what is in view of the tile it leads to**, and nothing else. -/
theorem undisturbed_onPlayerDied (env : Env) (hm : w.getMonster id = some m) (p : Player) :
    Undisturbed id w (w.onPlayerDied env p) ∨ (w.onPlayerDied env p).HasInView p.id m.pos := by
  cases hadd : (w.sectorManager.removeObject p.id p.pos).addObject p.id ⟨0, 0⟩ w.map with
  | none =>
      rw [onPlayerDied_of_none hadd]
      exact .inl (.of_eq rfl rfl)
  | some found =>
      obtain ⟨sm, respawn⟩ := found
      rw [onPlayerDied_of_some hadd]
      dsimp only
      generalize hv : sendAll _ _ = v
      have hq : v.getPlayer p.id = some (afterDeath p respawn) := by
        rw [← hv]
        exact getPlayer_setPlayer_self _ (afterDeath p respawn)
      by_cases hview : isInView respawn m.pos = true
      · refine .inr ⟨afterDeath p respawn, ?_, hview⟩
        rw [getPlayer_activateNearbyMonsters, hq]
      · have hput : Undisturbed id w v := by
          rw [← hv]
          exact .of_eq rfl rfl
        exact .inl (hput.trans (undisturbed_activateNearbyMonsters env (hput.monster.trans hm)
          (by simpa using hview)))

theorem undisturbed_monsterAttackPlayer (env : Env) (hm : w.getMonster id = some m) (n : Monster)
    (p : Player) : Undisturbed id w (w.monsterAttackPlayer env n p) ∨
      (w.monsterAttackPlayer env n p).HasInView p.id m.pos := by
  unfold monsterAttackPlayer
  split
  · exact .inl (.refl id w)
  · dsimp only
    generalize hv : send _ _ _ = v
    have hput : Undisturbed id w v := by
      rw [← hv]
      exact .of_eq rfl rfl
    split
    · exact (undisturbed_onPlayerDied env (hput.monster.trans hm)
        (p.takeDamage (n.level.toNat * 5))).imp_left hput.trans
    · left
      unfold startRegen
      split
      · exact hput
      · next q hq =>
          have hset : Undisturbed id v (v.setPlayer q) := .of_eq rfl rfl
          exact (hput.trans hset).trans (.addTimer (by simp) _ _ _)

theorem undisturbed_attackVictim (env : Env) (hm : w.getMonster id = some m) (n : Monster)
    (k : ObjectID) : Undisturbed id w (attackVictim env n w k) ∨
      (attackVictim env n w k).HasInView k m.pos := by
  unfold attackVictim
  split
  · exact .inl (.refl id w)
  · next p hp =>
      obtain rfl := getPlayer_id hp
      exact undisturbed_monsterAttackPlayer env hm n p

/-- **The hits of a tick.** At the end the monster is left alone, or a victim has it in view. -/
theorem undisturbed_attackVictims (env : Env) (n : Monster) {victims : List ObjectID}
    (hnodup : victims.Nodup) (hm : w.getMonster id = some m) :
    Undisturbed id w (victims.foldl (attackVictim env n) w) ∨
      (victims.foldl (attackVictim env n) w).InSight m.pos := by
  induction victims generalizing w with
  | nil => exact .inl (.refl id w)
  | cons k rest ih =>
      obtain ⟨hk, hrest⟩ := List.nodup_cons.mp hnodup
      rcases undisturbed_attackVictim env hm n k with hput | ⟨q, hq, hview⟩
      · exact (ih hrest (hput.monster.trans hm)).imp_left hput.trans
      · -- the others that are hit do not move this one
        refine .inr ⟨k, q, ?_, hview⟩
        rw [List.foldl_cons, getPlayer_attackVictims env n hk, hq]

/-! ## Ticks -/

/-- The living player on a tile, by the tiles. -/
def victimOn (w : World) (t : Position) : Option ObjectID :=
  let occupant := w.sectorManager.getOccupant t
  if occupant = invalidId ∨ monsterIdOffset ≤ occupant then none
  else
    match w.getPlayer occupant with
    | none => none
    | some p => if p.isDead then none else some occupant

theorem adjacentVictims_eq (env : Env) (n : Monster) (w : World) : w.adjacentVictims env n =
    ((List.range 4).map (env.towards n.pos)).filterMap w.victimOn := by
  rw [List.filterMap_map]
  rfl

/-- The victim on a tile is placed there. -/
theorem place_of_victimOn {t : Position} (hc : Consistent w) (h : w.victimOn t = some k) :
    w.place k = some t := by
  unfold victimOn at h
  dsimp only at h
  split at h
  · exact absurd h (by simp)
  · next hfree =>
      split at h
      · exact absurd h (by simp)
      · split at h
        · exact absurd h (by simp)
        · rw [← Option.some.inj h]
          exact (hc.agrees.getOccupant_eq_iff fun hid => hfree (.inl hid)).mp rfl

/-- **Nobody is hit twice in a tick**: a player is on one of the four tiles. -/
theorem nodup_adjacentVictims (env : Env) (hc : Consistent w) (hin : InMap n.pos) :
    (w.adjacentVictims env n).Nodup := by
  rw [adjacentVictims_eq]
  exact (nodup_towards env hin).filterMap fun a a' b hb hb' =>
    Option.some.inj ((place_of_victimOn hc hb).symm.trans (place_of_victimOn hc hb'))

theorem victims_of_aiAction {victims : List ObjectID} (h : w.aiAction env n = .attack victims) :
    victims = w.adjacentVictims env n := by
  unfold aiAction agroPursue at h
  grind

theorem undisturbed_moveMonster (env : Env) (hn : w.getMonster n.id = some n) (hne : id ≠ n.id)
    (new : Position) : Undisturbed id w (w.moveMonster env n new) := by
  unfold moveMonster
  split
  · exact .refl id w
  · next sm hmove =>
      have hput : Undisturbed id w { w with sectorManager := sm } := .of_eq rfl rfl
      exact (hput.trans (.setMonster (m := n.setPos new) hn hne)).trans (.of_eq rfl rfl)

theorem undisturbed_modifyMonster {f : Monster → Monster} (hf : ∀ m, (f m).id = m.id)
    (hne : id ≠ k) (w : World) : Undisturbed id w (w.modifyMonster k f) := by
  unfold modifyMonster
  split
  · exact .refl id w
  · next n hn =>
      have hid : (f n).id = k := (hf n).trans (getMonster_id hn)
      exact .setMonster (by rw [hid]; exact hn) (hid ▸ hne)

/-- **What another monster does in its tick.** -/
theorem undisturbed_perform (env : Env) (hc : Consistent w) (hm : w.getMonster id = some m)
    (hn : w.getMonster n.id = some n) (halive : n.isDead = false) (hne : id ≠ n.id) :
    Undisturbed id w (w.perform env n (w.aiAction env n)) ∨
      (w.perform env n (w.aiAction env n)).InSight m.pos := by
  cases hact : w.aiAction env n with
  | idle => exact .inl (.refl id w)
  | clearTarget => exact .inl (.setMonster (m := n.clearTarget) hn hne)
  | setTarget t => exact .inl (.setMonster (m := n.setTargetPlayerId t) hn hne)
  | chase targetPos =>
      left
      rcases chase_cases env n targetPos w with heq | ⟨new, -, -, heq⟩
      · rw [perform, heq]
        exact .refl id w
      · rw [perform, heq]
        exact undisturbed_moveMonster env hn hne new
  | roam =>
      left
      rcases roamingMove_cases env n w with heq | ⟨new, -, -, heq⟩
      · rw [perform, heq]
        exact .refl id w
      · rw [perform, heq]
        exact undisturbed_moveMonster env hn hne new
  | attack victims =>
      have hnodup : victims.Nodup := by
        rw [victims_of_aiAction hact]
        have hplace := place_of_alive hn halive
        exact nodup_adjacentVictims env hc (SectorManager.inMap_of_getOccupant
          (hc.placed_ne_invalid hplace)
          ((hc.agrees.getOccupant_eq_iff (hc.placed_ne_invalid hplace)).mpr hplace))
      rcases undisturbed_attackVictims env n hnodup hm with hput | hsight
      · left
        unfold perform attackAdjacent
        dsimp only
        refine hput.trans (.trans ?_ (undisturbed_modifyMonster ?_ hne _))
        · exact .of_eq rfl rfl
        · exact fun _ => rfl
      · right
        obtain ⟨j, p, hp, hview⟩ := hsight
        refine ⟨j, p, ?_, hview⟩
        unfold perform attackAdjacent modifyMonster
        dsimp only
        split
        · exact hp
        · exact hp

theorem inSight_of_hasObserverNearby (h : w.hasObserverNearby env m = true) : w.InSight m.pos := by
  have hne : playersInView env w m.pos ≠ [] := by
    simpa [hasObserverNearby] using h
  obtain ⟨p, hp⟩ := List.exists_mem_of_ne_nil _ hne
  obtain ⟨j, -, hj⟩ := List.mem_filterMap.mp hp
  split at hj
  · exact absurd hj (by simp)
  · split at hj
    · exact absurd hj (by simp)
    · next player hplayer =>
        split at hj
        · next hview => exact ⟨j, player, hplayer, hview⟩
        · exact absurd hj (by simp)

/-- **The monster itself** falls asleep in its tick. -/
theorem monsterAi_unseen (env : Env) (hm : w.getMonster id = some m) (halive : m.isDead = false)
    (hunseen : ¬ w.InSight m.pos) : w.monsterAi env id = w.setMonster m.deactivate := by
  have hobs : ¬ w.hasObserverNearby env m = true := mt inSight_of_hasObserverNearby hunseen
  unfold monsterAi
  rw [hm]
  dsimp only
  rw [halive, if_neg (by simp), if_pos hobs]

theorem undisturbed_monsterAi (env : Env) (hc : Consistent w) (hm : w.getMonster id = some m)
    (hne : id ≠ k) (hunseen : ¬ (w.monsterAi env k).InSight m.pos) :
    Undisturbed id w (w.monsterAi env k) := by
  have hspec := monsterAi_spec env k w
  generalize w.monsterAi env k = v at hspec hunseen
  cases hspec with
  | nothing => exact .refl id w
  | asleep n hn =>
      obtain rfl := getMonster_id hn
      exact .setMonster (m := n.deactivate) hn hne
  | tick n hn halive =>
      obtain rfl := getMonster_id hn
      rcases undisturbed_perform env hc hm hn halive hne with hput | hsight
      · exact hput.trans (.addTimer (fun _ => hne.symm) _ _ _)
      · exact absurd hsight hunseen

/-- **A monster that comes back** is another one. -/
theorem undisturbed_respawnMonster (env : Env) (hne : id ≠ k) (w : World) :
    Undisturbed id w (w.respawnMonster env k) := by
  rcases respawnMonster_cases env k w with
    heq | ⟨n, -, -, heq⟩ | ⟨n, sm, out, v, hn, -, hv, heq⟩
  · rw [heq]
    exact .refl id w
  · rw [heq]
    exact .addTimer (by simp) _ _ _
  · obtain rfl := getMonster_id hn
    have hput : Undisturbed id w { w with sectorManager := sm } := .of_eq rfl rfl
    have hback : Undisturbed id w v := by
      rw [hv]
      exact (hput.trans (.setMonster (m := n.respawn.setPos out) hn hne)).trans (.of_eq rfl rfl)
    rcases heq with heq | ⟨awake, hact, heq⟩
    · rw [heq]
      exact hback
    · have hsame : awake.id = n.id :=
        congrArg (fun b : Monster.Body => b.spec.id) (body_tryActivate hact)
      have hget : v.getMonster awake.id = some (n.respawn.setPos out) := by
        rw [hsame, hv]
        exact getMonster_write (m := n.respawn.setPos out) rfl hn
      rw [heq]
      exact (hback.trans (.setMonster hget (hsame ▸ hne))).trans
        (.addTimer (fun _ => hne.symm) _ _ _)

theorem undisturbed_hpRegen (w : World) (k : ObjectID) : Undisturbed id w (w.hpRegen k) := by
  have hrestart : ∀ (v : World) (p : Player),
      Undisturbed id v (v.stopRegenAndMaybeRestart p) := by
    intro v p
    have hset : Undisturbed id v (v.setPlayer p.stopRegen) := .of_eq rfl rfl
    unfold stopRegenAndMaybeRestart
    dsimp only
    split
    · unfold startRegen
      split
      · exact hset
      · next q hq =>
          have hstart : Undisturbed id (v.setPlayer p.stopRegen)
              ((v.setPlayer p.stopRegen).setPlayer q) := .of_eq rfl rfl
          exact (hset.trans hstart).trans (.addTimer (by simp) _ _ _)
    · exact hset
  unfold hpRegen
  split
  · exact .refl id w
  · next p hp =>
      split
      · exact .of_eq rfl rfl
      · split
        · exact hrestart w p
        · have htell : Undisturbed id w ((w.setPlayer p.regenHP).send p.regenHP.session
              p.regenHP.statPkt) := .of_eq rfl rfl
          dsimp only
          split
          · exact htell.trans (hrestart _ p.regenHP)
          · exact htell.trans (.addTimer (by simp) _ _ _)

end Mmorpg.World
