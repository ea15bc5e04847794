/-
`ProcessAttack` as a thread.

The handlers of different players run on different workers. What one of them
does is cut at every lock: each step below is one critical section, or reads
that nothing here can change together with the packet made of them. The order
of the steps is that of `ProcessAttack` and `OnMonsterDied`. A handler that runs
by itself does what `World.processAttack` says.
-/
import SimplestMmorpg.Game.Inert
import SimplestMmorpg.Lib.Interleave

set_option autoImplicit false

namespace Mmorpg

/-- The locals of `ProcessAttack`: where the player was, what it deals, and the
round of the loop. -/
structure Aim where
  pos : Position
  damage : ℕ
  d : ℕ
  deriving DecidableEq

/-- What a handler does next. -/
inductive AttackPc where
  | getPlayer
  | canAttack
  | getPos
  | getLevel (pos : Position)
  | getOccupant (aim : Aim)
  | isDead (aim : Aim) (target : ObjectID)
  | takeDamage (aim : Aim) (target : ObjectID)
  | combatMessage (aim : Aim) (target : ObjectID)
  | isDeadAgain (aim : Aim) (target : ObjectID)
  | gainExp (aim : Aim) (target : ObjectID)
  | statChange (aim : Aim) (target : ObjectID)
  | sendRemove (aim : Aim) (target : ObjectID)
  | removeObject (aim : Aim) (target : ObjectID) (monsterPos : Position)
  | addTimer (aim : Aim) (target : ObjectID)
  | attackEffect (aim : Aim)
  | onAttackPerformed
  | done
  deriving DecidableEq

/-- A handler of `ProcessAttack` for the player with this id. -/
structure Attacker where
  env : Env
  id : ObjectID
  pc : AttackPc

/-- The loop goes on with the round it is in, or ends. -/
def Aim.round (aim : Aim) : AttackPc := if aim.d < 4 then .getOccupant aim else .attackEffect aim

/-- `continue`, and the end of a round. -/
def Aim.next (aim : Aim) : AttackPc := Aim.round { aim with d := aim.d + 1 }

namespace Attacker

variable (t : Attacker)

def goto (pc : AttackPc) : Attacker := { t with pc := pc }

/-- A method call through the `shared_ptr` the handler got from `GetPlayer`. No
handler takes a player out of the table, so it is found there. -/
def withPlayer (w : World) (f : Player → World × Attacker) : World × Attacker :=
  match w.getPlayer t.id with
  | none => (w, t)
  | some player => f player

/-- A method call through a pointer to a monster; none is ever deleted. -/
def withMonster (w : World) (id : ObjectID) (f : Monster → World × Attacker) : World × Attacker :=
  match w.getMonster id with
  | none => (w, t)
  | some monster => f monster

/-- The next step of a handler. -/
def act (w : World) (t : Attacker) : World × Attacker :=
  match t.pc with
  | .getPlayer => (w, t.goto (if (w.getPlayer t.id).isSome then .canAttack else .done))
  | .canAttack =>
    t.withPlayer w fun player => (w, t.goto (if player.canAttack w.now then .getPos else .done))
  | .getPos => t.withPlayer w fun player => (w, t.goto (.getLevel player.pos))
  | .getLevel pos =>
    t.withPlayer w fun player => (w, t.goto (Aim.round ⟨pos, player.level.toNat * 10, 0⟩))
  | .getOccupant aim =>
    let targetId := w.sectorManager.getOccupant (t.env.towards aim.pos aim.d)
    if targetId = invalidId then (w, t.goto aim.next)
    else if targetId < monsterIdOffset then (w, t.goto aim.next)
    else
      match w.getMonster targetId with
      | none => (w, t.goto aim.next)
      | some _ => (w, t.goto (.isDead aim targetId))
  | .isDead aim target =>
    t.withMonster w target fun monster =>
      (w, t.goto (if monster.isDead then aim.next else .takeDamage aim target))
  | .takeDamage aim target =>
    (w.modifyMonster target (·.takeDamage aim.damage), t.goto (.combatMessage aim target))
  | .combatMessage aim target =>
    t.withPlayer w fun player =>
      (w.sendCombatMessage player t.id target aim.damage, t.goto (.isDeadAgain aim target))
  | .isDeadAgain aim target =>
    t.withMonster w target fun monster =>
      (w, t.goto (if monster.isDead then .gainExp aim target else aim.next))
  -- `OnMonsterDied`
  | .gainExp aim target =>
    t.withMonster w target fun monster =>
      (w.modifyPlayer t.id (·.gainExp monster.getExpReward), t.goto (.statChange aim target))
  | .statChange aim target =>
    t.withPlayer w fun player =>
      (w.send player.session player.statPkt, t.goto (.sendRemove aim target))
  | .sendRemove aim target =>
    t.withMonster w target fun monster =>
      (w.broadcast t.env monster.pos (.removeObject target),
        t.goto (.removeObject aim target monster.pos))
  | .removeObject aim target monsterPos =>
    ({ w with sectorManager := w.sectorManager.removeObject target monsterPos },
      t.goto (.addTimer aim target))
  | .addTimer aim target =>
    (w.addTimer .monsterRespawn target monsterRespawnMs none, t.goto aim.next)
  -- after the loop
  | .attackEffect aim =>
    (w.broadcastAttackEffect t.env t.id aim.pos, t.goto .onAttackPerformed)
  | .onAttackPerformed => (w.modifyPlayer t.id (·.onAttackPerformed w.now), t.goto .done)
  | .done => (w, t)

end Attacker

/-! ## A handler by itself -/

namespace Attacker

open Interleave World

variable {env : Env} {w : World} {id target : ObjectID} {p : Player} {m : Monster} {aim : Aim}

/-- `OnMonsterDied`. -/
theorem goes_onMonsterDied (hp : w.getPlayer id = some p) (hm : w.getMonster target = some m) :
    Goes act (w, ⟨env, id, .gainExp aim target⟩)
      (w.onMonsterDied env m p, ⟨env, id, aim.next⟩) := by
  obtain rfl := getPlayer_id hp
  obtain rfl := getMonster_id hm
  generalize hv : w.setPlayer (p.gainExp m.getExpReward) = v
  have hid : (p.gainExp m.getExpReward).id = p.id :=
    congrArg Player.Ident.id (Player.ident_gainExp p _)
  have hp1 : v.getPlayer p.id = some (p.gainExp m.getExpReward) := by
    rw [← hv, getPlayer_setPlayer, if_pos hid.symm]
  have hm1 : v.getMonster m.id = some m := by
    rw [← hv]
    exact hm
  apply Goes.head
  have hreward : act w ⟨env, p.id, .gainExp aim m.id⟩ = (v, ⟨env, p.id, .statChange aim m.id⟩) := by
    simp only [act, withMonster, hm, modifyPlayer, hp, hv, goto]
  rw [hreward]
  apply Goes.head
  generalize hu : v.send (p.gainExp m.getExpReward).session (p.gainExp m.getExpReward).statPkt = u
  have hstat : act v ⟨env, p.id, .statChange aim m.id⟩ = (u, ⟨env, p.id, .sendRemove aim m.id⟩) := by
    simp only [act, withPlayer, hp1, hu, goto]
  rw [hstat]
  have hm2 : u.getMonster m.id = some m := by
    rw [← hu]
    exact hm1
  apply Goes.head
  have hremove : act u ⟨env, p.id, .sendRemove aim m.id⟩ =
      (u.broadcast env m.pos (.removeObject m.id), ⟨env, p.id, .removeObject aim m.id m.pos⟩) := by
    simp only [act, withMonster, hm2, goto]
  rw [hremove]
  apply Goes.head
  apply Goes.head
  have hend : w.onMonsterDied env m p = u.buryMonster env m := by
    rw [onMonsterDied, rewardKiller, hv, hu]
  rw [hend]
  exact .refl _

/-- What follows a test that found the monster alive. -/
theorem goes_strike (hp : w.getPlayer id = some p) (hm : w.getMonster target = some m) :
    Goes act (w, ⟨env, id, .takeDamage aim target⟩)
      (w.strike env id aim.damage m, ⟨env, id, aim.next⟩) := by
  obtain rfl := getPlayer_id hp
  obtain rfl := getMonster_id hm
  have hm1 : (w.setMonster (m.takeDamage aim.damage)).getMonster m.id =
      some (m.takeDamage aim.damage) :=
    (getMonster_setMonster (m := m.takeDamage aim.damage) hm m.id).trans (if_pos rfl)
  have hp1 : (w.setMonster (m.takeDamage aim.damage)).getPlayer p.id = some p := hp
  apply Goes.head
  have hdamage : act w ⟨env, p.id, .takeDamage aim m.id⟩ =
      (w.setMonster (m.takeDamage aim.damage), ⟨env, p.id, .combatMessage aim m.id⟩) := by
    simp only [act, modifyMonster, hm, goto]
  rw [hdamage]
  apply Goes.head
  generalize hv : (w.setMonster (m.takeDamage aim.damage)).sendCombatMessage p p.id m.id
    aim.damage = v
  have hmessage : act (w.setMonster (m.takeDamage aim.damage)) ⟨env, p.id, .combatMessage aim m.id⟩ =
      (v, ⟨env, p.id, .isDeadAgain aim m.id⟩) := by
    simp only [act, withPlayer, hp1, hv, goto]
  rw [hmessage]
  have hp2 : v.getPlayer p.id = some p := by
    rw [← hv]
    exact hp1
  have hm2 : v.getMonster m.id = some (m.takeDamage aim.damage) := by
    rw [← hv]
    exact hm1
  have hstrike : w.strike env p.id aim.damage m =
      if (m.takeDamage aim.damage).isDead then v.onMonsterDied env (m.takeDamage aim.damage) p
      else v := by
    have hid : (m.takeDamage aim.damage).id = m.id := rfl
    unfold strike
    simp only [hid, hp1, hv]
  apply Goes.head
  have hagain : act v ⟨env, p.id, .isDeadAgain aim m.id⟩ =
      (v, ⟨env, p.id, if (m.takeDamage aim.damage).isDead then .gainExp aim m.id else aim.next⟩) := by
    simp only [act, withMonster, hm2, goto]
  rw [hagain, hstrike]
  split
  · exact goes_onMonsterDied hp2 hm2
  · exact .refl _

/-- One round of the loop. -/
theorem goes_attackDirection (aim : Aim) (hp : w.getPlayer id = some p) :
    Goes act (w, ⟨env, id, .getOccupant aim⟩)
      (w.attackDirection env id aim.pos aim.damage aim.d, ⟨env, id, aim.next⟩) := by
  apply Goes.head
  unfold attackDirection
  simp only [act, goto]
  split
  · exact .refl _
  · split
    · exact .refl _
    · cases hm : w.getMonster (w.sectorManager.getOccupant (env.towards aim.pos aim.d)) with
      | none => exact .refl _
      | some m =>
          dsimp only
          apply Goes.head
          have htest : act w ⟨env, id, .isDead aim (w.sectorManager.getOccupant
              (env.towards aim.pos aim.d))⟩ = (w, ⟨env, id, if m.isDead then aim.next else
              .takeDamage aim (w.sectorManager.getOccupant (env.towards aim.pos aim.d))⟩) := by
            simp only [act, withMonster, hm, goto]
          rw [htest]
          split
          · exact .refl _
          · exact goes_strike hp hm

/-- The loop from any round on. -/
theorem goes_loop (n d : ℕ) (hd : d + n = 4) (hp : w.getPlayer id = some p) {pos : Position}
    {damage : ℕ} :
    Goes act (w, ⟨env, id, Aim.round ⟨pos, damage, d⟩⟩)
      ((List.range' d n).foldl (attackDirection env id pos damage) w,
        ⟨env, id, .attackEffect ⟨pos, damage, 4⟩⟩) := by
  induction n generalizing d w p with
  | zero =>
      obtain rfl : d = 4 := by omega
      exact .refl _
  | succ n ih =>
      have hround : Aim.round ⟨pos, damage, d⟩ = .getOccupant ⟨pos, damage, d⟩ :=
        if_pos (show d < 4 by omega)
      obtain ⟨q, hq⟩ := getPlayer_attackDirection env hp pos damage d
      rw [hround, List.range'_succ, List.foldl_cons]
      exact (goes_attackDirection ⟨pos, damage, d⟩ hp).trans (ih (d + 1) (by omega) hq)

/-- **A handler that runs by itself is `ProcessAttack`.** -/
theorem goes_processAttack (env : Env) (id : ObjectID) (w : World) :
    Goes act (w, ⟨env, id, .getPlayer⟩) (w.processAttack env id, ⟨env, id, .done⟩) := by
  unfold processAttack
  apply Goes.head
  cases hp : w.getPlayer id with
  | none =>
      have hnone : act w ⟨env, id, .getPlayer⟩ = (w, ⟨env, id, .done⟩) := by
        simp [act, hp, goto]
      rw [hnone]
      exact .refl _
  | some p =>
      have hsome : act w ⟨env, id, .getPlayer⟩ = (w, ⟨env, id, .canAttack⟩) := by
        simp [act, hp, goto]
      rw [hsome]
      apply Goes.head
      have hcan : act w ⟨env, id, .canAttack⟩ =
          (w, ⟨env, id, if p.canAttack w.now then .getPos else .done⟩) := by
        simp only [act, withPlayer, hp, goto]
      rw [hcan]
      by_cases hready : p.canAttack w.now
      · rw [if_pos hready]
        have hpos : act w ⟨env, id, .getPos⟩ = (w, ⟨env, id, .getLevel p.pos⟩) := by
          simp only [act, withPlayer, hp, goto]
        have hlevel : act w ⟨env, id, .getLevel p.pos⟩ =
            (w, ⟨env, id, Aim.round ⟨p.pos, p.level.toNat * 10, 0⟩⟩) := by
          simp only [act, withPlayer, hp, goto]
        apply Goes.head
        rw [hpos]
        apply Goes.head
        rw [hlevel]
        refine (goes_loop 4 0 rfl hp).trans ?_
        apply Goes.head
        apply Goes.head
        obtain rfl := getPlayer_id hp
        have hrange : List.range 4 = List.range' 0 4 := rfl
        have hdamage : ((p.level.toNat * 10 : ℕ) : Int) = p.level.toNat * 10 :=
          Int.natCast_mul _ _
        rw [hdamage]
        simp only [hready, not_true_eq_false, if_false, hrange]
        exact .refl _
      · rw [if_neg hready]
        dsimp only
        rw [if_pos hready]
        exact .refl _

end Attacker

end Mmorpg
