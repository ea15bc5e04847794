/-
`MonsterAttackPlayer` and the `HP_REGEN` event as threads.

`MONSTER_AI` events of different monsters, and the `HP_REGEN` event of a player,
are handled on different workers. Each step below is one critical section of
`MonsterAttackPlayer`, of `OnPlayerDied` or of the `HP_REGEN` branch of
`HandleTimerEvent`, or the reads that go into one packet; the order is that of
the source. A `MONSTER_AI` handler makes its calls of `MonsterAttackPlayer` one
after the other; here every call is a thread of its own, which allows more
interleavings. A thread that runs by itself does what `World.monsterAttackPlayer`
and `World.hpRegen` say.
-/
import SimplestMmorpg.Game.MonsterAi
import SimplestMmorpg.Lib.Interleave

set_option autoImplicit false

namespace Mmorpg

/-- What a call of `MonsterAttackPlayer` does next. -/
inductive HitPc where
  | isDead
  | takeDamage
  | combatMessage
  | statChange
  | isDeadForRegen
  | tryStartRegen
  | addRegenTimer
  | isDeadAgain
  | getPos
  | sendDisappear (oldPos : Position)
  | removeObject (oldPos : Position)
  | die
  | stopRegen
  | addObject
  | setPos (respawn : Position)
  | sendStat (respawn : Position)
  | sendMove (respawn : Position)
  | sendFullView (respawn : Position)
  | activate (respawn : Position)
  | done
  deriving DecidableEq, Repr

/-- What the handler of an `HP_REGEN` event does next. -/
inductive RegenPc where
  | getPlayer
  | isDead
  | stopDead
  | isFull
  | regenHP
  | statChange
  | isFullAgain
  | addTimer
  | stopRegen
  | isHurt
  | tryStartRegen
  | done
  deriving DecidableEq, Repr

/-- A call of `MonsterAttackPlayer`, or a handler of `HP_REGEN`. Of the attacker
only what its constructor fixed is read. -/
inductive Handler where
  | hit (env : Env) (attacker : Monster) (victim : ObjectID) (pc : HitPc)
  | regen (id : ObjectID) (pc : RegenPc)

namespace Handler

/-- A method call through the `shared_ptr` of the victim. No handler takes a
player out of the table, so it is found there. -/
def withPlayer {α : Type} (w : World) (id : ObjectID) (stay : α) (f : Player → World × α) :
    World × α :=
  match w.getPlayer id with
  | none => (w, stay)
  | some player => f player

/-- The next step of `MonsterAttackPlayer`. -/
def actHit (env : Env) (attacker : Monster) (victim : ObjectID) (w : World) (pc : HitPc) :
    World × HitPc :=
  let damage : ℕ := attacker.level.toNat * 5
  match pc with
  | .isDead => withPlayer w victim pc fun p => (w, if p.isDead then .done else .takeDamage)
  | .takeDamage => withPlayer w victim pc fun p => (w.setPlayer (p.takeDamage damage), .combatMessage)
  | .combatMessage =>
    withPlayer w victim pc fun p => (w.sendCombatMessage p attacker.id victim damage, .statChange)
  | .statChange => withPlayer w victim pc fun p => (w.send p.session p.statPkt, .isDeadForRegen)
  | .isDeadForRegen =>
    withPlayer w victim pc fun p => (w, if p.isDead then .isDeadAgain else .tryStartRegen)
  | .tryStartRegen =>
    withPlayer w victim pc fun p =>
      match p.tryStartRegen with
      | none => (w, .isDeadAgain)
      | some p => (w.setPlayer p, .addRegenTimer)
  | .addRegenTimer => withPlayer w victim pc fun p => (w.addRegenTimer p, .isDeadAgain)
  | .isDeadAgain => withPlayer w victim pc fun p => (w, if p.isDead then .getPos else .done)
  -- `OnPlayerDied`
  | .getPos => withPlayer w victim pc fun p => (w, .sendDisappear p.pos)
  | .sendDisappear oldPos =>
    withPlayer w victim pc fun p =>
      (w.sendAll (ViewProcessor.sendDisappear env w p), .removeObject oldPos)
  | .removeObject oldPos =>
    ({ w with sectorManager := w.sectorManager.removeObject victim oldPos }, .die)
  | .die => withPlayer w victim pc fun p => (w.setPlayer p.die, .stopRegen)
  | .stopRegen => withPlayer w victim pc fun p => (w.setPlayer p.stopRegen, .addObject)
  | .addObject =>
    match w.sectorManager.addObject victim ⟨0, 0⟩ w.map with
    | none => (w, .done)
    | some (sectorManager, respawn) => ({ w with sectorManager := sectorManager }, .setPos respawn)
  | .setPos respawn =>
    withPlayer w victim pc fun p => (w.setPlayer (p.setPos respawn), .sendStat respawn)
  | .sendStat respawn =>
    withPlayer w victim pc fun p => (w.send p.session p.statPkt, .sendMove respawn)
  | .sendMove respawn =>
    withPlayer w victim pc fun p =>
      (w.send p.session (.moveObject victim respawn 0), .sendFullView respawn)
  | .sendFullView respawn =>
    withPlayer w victim pc fun p =>
      (w.sendAll (ViewProcessor.sendFullView env w p), .activate respawn)
  | .activate respawn => (w.activateNearbyMonsters env respawn, .done)
  | .done => (w, .done)

/-- The next step of the `HP_REGEN` branch of `HandleTimerEvent`. -/
def actRegen (id : ObjectID) (w : World) (pc : RegenPc) : World × RegenPc :=
  match pc with
  | .getPlayer => (w, if (w.getPlayer id).isSome then .isDead else .done)
  | .isDead => withPlayer w id pc fun p => (w, if p.isDead then .stopDead else .isFull)
  | .stopDead => withPlayer w id pc fun p => (w.setPlayer p.stopRegen, .done)
  | .isFull => withPlayer w id pc fun p => (w, if p.maxHp ≤ p.hp then .stopRegen else .regenHP)
  | .regenHP => withPlayer w id pc fun p => (w.setPlayer p.regenHP, .statChange)
  | .statChange => withPlayer w id pc fun p => (w.send p.session p.statPkt, .isFullAgain)
  | .isFullAgain =>
    withPlayer w id pc fun p => (w, if p.maxHp ≤ p.hp then .stopRegen else .addTimer)
  | .addTimer => withPlayer w id pc fun p => (w.addRegenTimer p, .done)
  -- `StopRegenAndMaybeRestart`
  | .stopRegen => withPlayer w id pc fun p => (w.setPlayer p.stopRegen, .isHurt)
  | .isHurt => withPlayer w id pc fun p => (w, if p.hp < p.maxHp then .tryStartRegen else .done)
  | .tryStartRegen =>
    withPlayer w id pc fun p =>
      match p.tryStartRegen with
      | none => (w, .done)
      | some p => (w.setPlayer p, .addTimer)
  | .done => (w, .done)

/-- The next step of a handler. -/
def act (w : World) : Handler → World × Handler
  | .hit env attacker victim pc =>
    let out := actHit env attacker victim w pc
    (out.1, .hit env attacker victim out.2)
  | .regen id pc =>
    let out := actRegen id w pc
    (out.1, .regen id out.2)

/-! ## A handler by itself -/

open Interleave World

variable {env : Env} {w v : World} {id : ObjectID} {p q : Player} {m : Monster}

theorem withPlayer_some {α : Type} {stay : α} {f : Player → World × α}
    (hp : w.getPlayer id = some p) : withPlayer w id stay f = f p := by
  rw [withPlayer, hp]

theorem getPlayer_set (hid : q.id = id) : (w.setPlayer q).getPlayer id = some q :=
  (getPlayer_setPlayer q id).trans (if_pos hid.symm)

/-- One step of `MonsterAttackPlayer`, and then the rest. -/
theorem goes_hit {pc n : HitPc} {y : World × Handler} (h : actHit env m id w pc = (v, n))
    (hrest : Goes act (v, .hit env m id n) y) : Goes act (w, .hit env m id pc) y := by
  apply Goes.head
  simp only [act, h]
  exact hrest

/-- One step of an `HP_REGEN` handler, and then the rest. -/
theorem goes_regen {pc n : RegenPc} {y : World × Handler} (h : actRegen id w pc = (v, n))
    (hrest : Goes act (v, .regen id n) y) : Goes act (w, .regen id pc) y := by
  apply Goes.head
  simp only [act, h]
  exact hrest

/-- Only the last of two writes to a player counts. -/
theorem setPlayer_setPlayer (hid : q.id = p.id) :
    (w.setPlayer p).setPlayer q = w.setPlayer q := by
  have hins : (w.players.insert p).insert q = w.players.insert q :=
    PlayerTable.insert_insert hid.symm
  simp only [setPlayer, hins]

/-- `OnPlayerDied`. -/
theorem goes_onPlayerDied (hp : w.getPlayer p.id = some p) :
    Goes act (w, .hit env m p.id .getPos) (w.onPlayerDied env p, .hit env m p.id .done) := by
  unfold onPlayerDied
  refine goes_hit (withPlayer_some hp) ?_
  refine goes_hit (withPlayer_some hp) ?_
  dsimp only
  generalize hu : w.sendAll (ViewProcessor.sendDisappear env w p) = u
  have hp1 : u.getPlayer p.id = some p := by
    rw [← hu]
    exact hp
  refine goes_hit rfl ?_
  generalize hr : { u with sectorManager := u.sectorManager.removeObject p.id p.pos } = r
  have hp2 : r.getPlayer p.id = some p := by
    rw [← hr]
    exact hp1
  -- `Die` and `StopRegen`
  refine goes_hit (withPlayer_some hp2) ?_
  refine goes_hit (withPlayer_some (getPlayer_set rfl)) ?_
  rw [setPlayer_setPlayer (p := p.die) (q := p.die.stopRegen) rfl]
  generalize hd : r.setPlayer p.die.stopRegen = d
  have hp3 : d.getPlayer p.id = some p.die.stopRegen := by
    rw [← hd]
    exact getPlayer_set rfl
  cases hadd : d.sectorManager.addObject p.die.stopRegen.id ⟨0, 0⟩ d.map with
  | none =>
      have hnone : actHit env m p.id d .addObject = (d, .done) := by
        have hadd' : d.sectorManager.addObject p.id ⟨0, 0⟩ d.map = none := hadd
        simp only [actHit, hadd']
      exact goes_hit hnone (.refl _)
  | some placed =>
      obtain ⟨sm, respawn⟩ := placed
      dsimp only
      generalize he : { d with sectorManager := sm } = e
      have hplaced : actHit env m p.id d .addObject = (e, .setPos respawn) := by
        have hadd' : d.sectorManager.addObject p.id ⟨0, 0⟩ d.map = some (sm, respawn) := hadd
        simp only [actHit, hadd', he]
      refine goes_hit hplaced ?_
      have hp4 : e.getPlayer p.id = some p.die.stopRegen := by
        rw [← he]
        exact hp3
      -- the victim is written on its tile, and everybody is told
      refine goes_hit (withPlayer_some hp4) ?_
      generalize hf : e.setPlayer (p.die.stopRegen.setPos respawn) = f
      have hp5 : f.getPlayer p.id = some (p.die.stopRegen.setPos respawn) := by
        rw [← hf]
        exact getPlayer_set rfl
      refine goes_hit (withPlayer_some hp5) ?_
      refine goes_hit (withPlayer_some (p := p.die.stopRegen.setPos respawn) ?_) ?_
      · exact hp5
      refine goes_hit (withPlayer_some (p := p.die.stopRegen.setPos respawn) ?_) ?_
      · exact hp5
      exact goes_hit rfl (.refl _)

/-- `TryStartRegen`, and the timer when it succeeds. -/
theorem goes_startRegen (env : Env) (m : Monster) (hp : w.getPlayer p.id = some p) :
    ∃ q, (w.startRegen p).getPlayer p.id = some q ∧ q.hp = p.hp ∧
      Goes act (w, .hit env m p.id .tryStartRegen) (w.startRegen p, .hit env m p.id .isDeadAgain) := by
  unfold startRegen
  cases hq : p.tryStartRegen with
  | none =>
      refine ⟨p, hp, rfl, goes_hit (v := w) (n := .isDeadAgain) ?_ (.refl _)⟩
      rw [actHit, withPlayer_some hp, hq]
  | some q =>
      have hid : q.id = p.id := congrArg Player.Ident.id (Player.ident_tryStartRegen hq)
      have hhp : q.hp = p.hp := by
        unfold Player.tryStartRegen at hq
        split at hq
        · exact absurd hq (by simp)
        · rw [← Option.some.inj hq]
      refine ⟨q, getPlayer_set hid, hhp, ?_⟩
      refine goes_hit (v := w.setPlayer q) (n := .addRegenTimer) ?_ ?_
      · rw [actHit, withPlayer_some hp, hq]
      · exact goes_hit (withPlayer_some (getPlayer_set hid)) (.refl _)

/-- **A call that runs by itself is `MonsterAttackPlayer`.** -/
theorem goes_monsterAttackPlayer (env : Env) (m : Monster) (hp : w.getPlayer p.id = some p) :
    Goes act (w, .hit env m p.id .isDead)
      (w.monsterAttackPlayer env m p, .hit env m p.id .done) := by
  unfold monsterAttackPlayer
  refine goes_hit (withPlayer_some hp) ?_
  split
  · exact .refl _
  · dsimp only
    refine goes_hit (withPlayer_some hp) ?_
    have hcast : ((m.level.toNat * 5 : ℕ) : Int) = m.level.toNat * 5 := Int.natCast_mul _ _
    rw [hcast]
    generalize hq : p.takeDamage (m.level.toNat * 5) = q
    obtain hid : q.id = p.id := by rw [← hq]; rfl
    have hp1 : (w.setPlayer q).getPlayer p.id = some q := getPlayer_set hid
    refine goes_hit (withPlayer_some hp1) ?_
    rw [hcast, ← hid] at *
    generalize hu : (w.setPlayer q).sendCombatMessage q m.id q.id (m.level.toNat * 5) = u
    have hp2 : u.getPlayer q.id = some q := by
      rw [← hu]
      exact hp1
    refine goes_hit (withPlayer_some hp2) ?_
    generalize hv : u.send q.session q.statPkt = v
    have hp3 : v.getPlayer q.id = some q := by
      rw [← hv]
      exact hp2
    refine goes_hit (withPlayer_some hp3) ?_
    split
    · next hdead =>
        -- dead at both tests
        refine goes_hit (v := v) (n := .getPos) ?_ (goes_onPlayerDied hp3)
        rw [actHit, withPlayer_some hp3, if_pos hdead]
    · next halive =>
        obtain ⟨r, hr, hhp, hgo⟩ := goes_startRegen env m hp3
        refine hgo.trans (goes_hit (n := .done) ?_ (.refl _))
        have hlive : ¬ r.isDead = true := by
          rw [Player.isDead, hhp]
          exact halive
        rw [actHit, withPlayer_some hr, if_neg hlive]

/-- `StopRegenAndMaybeRestart`. -/
theorem goes_stopRegen (hp : w.getPlayer p.id = some p) :
    Goes act (w, .regen p.id .stopRegen) (w.stopRegenAndMaybeRestart p, .regen p.id .done) := by
  unfold stopRegenAndMaybeRestart
  refine goes_regen (withPlayer_some hp) ?_
  dsimp only
  have hp1 : (w.setPlayer p.stopRegen).getPlayer p.id = some p.stopRegen := getPlayer_set rfl
  refine goes_regen (withPlayer_some hp1) ?_
  split
  · unfold startRegen
    cases hq : p.stopRegen.tryStartRegen with
    | none =>
        refine goes_regen (n := .done) ?_ (.refl _)
        rw [actRegen, withPlayer_some hp1, hq]
    | some q =>
        have hid : q.id = p.id := congrArg Player.Ident.id (Player.ident_tryStartRegen hq)
        refine goes_regen (v := (w.setPlayer p.stopRegen).setPlayer q) (n := .addTimer) ?_ ?_
        · rw [actRegen, withPlayer_some hp1, hq]
        · exact goes_regen (withPlayer_some (getPlayer_set hid)) (.refl _)
  · exact .refl _

/-- **A handler that runs by itself is the `HP_REGEN` branch.** -/
theorem goes_hpRegen (id : ObjectID) (w : World) :
    Goes act (w, .regen id .getPlayer) (w.hpRegen id, .regen id .done) := by
  unfold hpRegen
  cases hp : w.getPlayer id with
  | none =>
      refine goes_regen (n := .done) ?_ (.refl _)
      rw [actRegen, hp]
      rfl
  | some p =>
      obtain rfl := getPlayer_id hp
      refine goes_regen (v := w) (n := .isDead) ?_ ?_
      · rw [actRegen, hp]
        rfl
      refine goes_regen (withPlayer_some hp) ?_
      dsimp only
      split
      · exact goes_regen (withPlayer_some hp) (.refl _)
      · refine goes_regen (withPlayer_some hp) ?_
        split
        · exact goes_stopRegen hp
        · refine goes_regen (withPlayer_some hp) ?_
          have hp1 : (w.setPlayer p.regenHP).getPlayer p.id = some p.regenHP := getPlayer_set rfl
          refine goes_regen (withPlayer_some hp1) ?_
          generalize hv : (w.setPlayer p.regenHP).send p.regenHP.session p.regenHP.statPkt = v
          have hp2 : v.getPlayer p.id = some p.regenHP := by
            rw [← hv]
            exact hp1
          refine goes_regen (withPlayer_some hp2) ?_
          split
          · exact goes_stopRegen (p := p.regenHP) hp2
          · exact goes_regen (withPlayer_some hp2) (.refl _)

end Handler

end Mmorpg
