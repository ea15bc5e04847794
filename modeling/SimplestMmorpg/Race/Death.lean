/-
How often a death is counted.

A call of `MonsterAttackPlayer` tests whether the victim is dead, deals its
damage, and tests again; whoever finds the victim dead at the second test
processes the death. `Die`, which gives the hit points back, comes only later,
so until then everybody else who is past the first test finds it dead too; and
`RegenHP` can bring the victim back between the blow and the test, so that
nobody does.
-/
import SimplestMmorpg.Game.Login
import SimplestMmorpg.Race.Hit
import SimplestMmorpg.Server.PlacementRun

set_option autoImplicit false

namespace Mmorpg

open Transition Interleave

/-- The player is there and has hit points. -/
def World.playerAlive (w : World) (v : ObjectID) : Bool := (w.getPlayer v).any fun p => ¬ p.isDead

namespace Handler

open World

variable {env : Env} {w w' : World} {m : Monster} {v id : ObjectID} {p q : Player} {h : Handler}
  {c : Config World Handler} {i : ℕ}

/-! ## What a step does to the players -/

/-- At most one player is written, and this is how. -/
inductive Touches (R : Player → Player → Prop) (w w' : World) (id : ObjectID) : Prop
  | nobody (hplayers : w'.players = w.players)
  | one (p q : Player) (hp : w.getPlayer id = some p) (hid : q.id = id) (hr : R p q)
      (hplayers : w'.players = w.players.insert q)

/-- A player keeps its maximal hit points. -/
def KeepsMax (p q : Player) : Prop := q.maxHp = p.maxHp

/-- And its hit points too. -/
def Keeps (p q : Player) : Prop := q.maxHp = p.maxHp ∧ q.hp = p.hp

namespace Touches

variable {R S : Player → Player → Prop}

theorem withPlayer {α : Type} {stay : α} {f : Player → World × α}
    (hf : ∀ p, w.getPlayer id = some p → Touches R w (f p).1 id) :
    Touches R w (withPlayer w id stay f).1 id := by
  unfold Handler.withPlayer
  split
  · exact .nobody rfl
  · next p hp => exact hf p hp

theorem setPlayer (hp : w.getPlayer id = some p) (hid : q.id = p.id) (hr : R p q) :
    Touches R w (w.setPlayer q) id :=
  .one p q hp (hid.trans (getPlayer_id hp)) hr rfl

theorem mono (h : Touches R w w' id) (hRS : ∀ p q, R p q → S p q) : Touches S w w' id := by
  cases h with
  | nobody hplayers => exact .nobody hplayers
  | one p q hp hid hr hplayers => exact .one p q hp hid (hRS p q hr) hplayers

/-- A player after the step is the one that was written, or was there before. -/
theorem getPlayer (h : Touches R w w' id) (hp : w'.getPlayer v = some q) :
    w.getPlayer v = some q ∨ v = id ∧ ∃ p, w.getPlayer v = some p ∧ R p q := by
  cases h with
  | nobody hplayers =>
      rw [World.getPlayer, hplayers] at hp
      exact .inl hp
  | one p r hp0 hid hr hplayers =>
      have hget : w'.getPlayer v = (w.setPlayer r).getPlayer v :=
        congrArg (fun t => PlayerTable.find t v) hplayers
      rw [hget, getPlayer_setPlayer] at hp
      split at hp
      · next hv =>
          right
          rw [hid] at hv
          subst hv
          exact ⟨rfl, p, hp0, Option.some.inj hp ▸ hr⟩
      · exact .inl hp

/-- Nobody is brought into the table, or taken out. -/
theorem isSome (h : Touches R w w' id) (v : ObjectID) :
    (w'.getPlayer v).isSome = (w.getPlayer v).isSome := by
  cases h with
  | nobody hplayers => rw [World.getPlayer, hplayers, World.getPlayer]
  | one p r hp0 hid _ hplayers =>
      have hget : w'.getPlayer v = (w.setPlayer r).getPlayer v :=
        congrArg (fun t => PlayerTable.find t v) hplayers
      rw [hget, getPlayer_setPlayer]
      split
      · next hv => rw [hv, hid, hp0]; rfl
      · rfl

theorem other (h : Touches R w w' id) (hv : v ≠ id) : w'.getPlayer v = w.getPlayer v := by
  cases h with
  | nobody hplayers => rw [World.getPlayer, hplayers, World.getPlayer]
  | one p r _ hid _ hplayers =>
      have hget : w'.getPlayer v = (w.setPlayer r).getPlayer v :=
        congrArg (fun t => PlayerTable.find t v) hplayers
      rw [hget, getPlayer_setPlayer, if_neg (by rw [hid]; exact hv)]

theorem playerAlive (h : Touches Keeps w w' id) (v : ObjectID) :
    w'.playerAlive v = w.playerAlive v := by
  have hsome := h.isSome v
  unfold World.playerAlive
  cases hq : w'.getPlayer v with
  | none =>
      have hnone : w.getPlayer v = none := by
        rw [hq] at hsome
        exact Option.not_isSome_iff_eq_none.mp (by rw [← hsome]; exact Bool.false_ne_true)
      rw [hnone]
  | some q =>
      rcases h.getPlayer hq with hp | ⟨-, p, hp, -, hhp⟩
      · rw [hp]
      · rw [hp, Option.any_some, Option.any_some, Player.isDead, hhp, Player.isDead]

end Touches

theorem keeps_tryStartRegen (hq : p.tryStartRegen = some q) : q.id = p.id ∧ Keeps p q := by
  refine ⟨congrArg Player.Ident.id (Player.ident_tryStartRegen hq), ?_⟩
  unfold Player.tryStartRegen at hq
  split at hq
  · exact absurd hq (by simp)
  · rw [← Option.some.inj hq]
    exact ⟨rfl, rfl⟩

/-- **`MonsterAttackPlayer` writes hit points in two places only.** -/
theorem touches_actHit (env : Env) (m : Monster) (v : ObjectID) (w : World) {pc : HitPc}
    (hdamage : pc ≠ .takeDamage) (hdie : pc ≠ .die) :
    Touches Keeps w (actHit env m v w pc).1 v := by
  cases pc with
  | takeDamage => exact absurd rfl hdamage
  | die => exact absurd rfl hdie
  | tryStartRegen =>
      apply Touches.withPlayer
      intro p hp
      cases hq : p.tryStartRegen with
      | none => exact .nobody rfl
      | some q => exact .setPlayer hp (keeps_tryStartRegen hq).1 (keeps_tryStartRegen hq).2
  | stopRegen =>
      apply Touches.withPlayer
      intro p hp
      exact .setPlayer hp rfl ⟨rfl, rfl⟩
  | setPos respawn =>
      apply Touches.withPlayer
      intro p hp
      exact .setPlayer hp rfl ⟨rfl, rfl⟩
  | removeObject oldPos => exact .nobody rfl
  | addObject =>
      simp only [actHit]
      split <;> exact .nobody rfl
  | activate respawn => exact .nobody (activateNearbyMonsters_frame env respawn w).2
  | done => exact .nobody rfl
  | _ => exact .withPlayer fun p hp => .nobody rfl

/-- **`HP_REGEN` writes hit points in one place only.** -/
theorem touches_actRegen (w : World) (id : ObjectID) {pc : RegenPc} (hregen : pc ≠ .regenHP) :
    Touches Keeps w (actRegen id w pc).1 id := by
  cases pc with
  | regenHP => exact absurd rfl hregen
  | getPlayer => exact .nobody rfl
  | tryStartRegen =>
      apply Touches.withPlayer
      intro p hp
      cases hq : p.tryStartRegen with
      | none => exact .nobody rfl
      | some q => exact .setPlayer hp (keeps_tryStartRegen hq).1 (keeps_tryStartRegen hq).2
  | stopDead =>
      apply Touches.withPlayer
      intro p hp
      exact .setPlayer hp rfl ⟨rfl, rfl⟩
  | stopRegen =>
      apply Touches.withPlayer
      intro p hp
      exact .setPlayer hp rfl ⟨rfl, rfl⟩
  | done => exact .nobody rfl
  | _ => exact .withPlayer fun p hp => .nobody rfl

/-- **No step writes the maximal hit points.** -/
theorem touches_actHit_max (env : Env) (m : Monster) (v : ObjectID) (w : World) (pc : HitPc) :
    Touches KeepsMax w (actHit env m v w pc).1 v := by
  by_cases hdamage : pc = .takeDamage
  · subst hdamage
    apply Touches.withPlayer
    intro p hp
    exact .setPlayer hp rfl rfl
  · by_cases hdie : pc = .die
    · subst hdie
      apply Touches.withPlayer
      intro p hp
      exact .setPlayer hp rfl rfl
    · exact (touches_actHit env m v w hdamage hdie).mono fun _ _ h => h.1

theorem touches_actRegen_max (w : World) (id : ObjectID) (pc : RegenPc) :
    Touches KeepsMax w (actRegen id w pc).1 id := by
  by_cases hregen : pc = .regenHP
  · subst hregen
    apply Touches.withPlayer
    intro p hp
    exact .setPlayer hp rfl rfl
  · exact (touches_actRegen w id hregen).mono fun _ _ h => h.1

/-! ## How far a call is with a player -/

/-- Between the two tests, before the penalty, before the new tile, or busy
with something else. -/
inductive Phase where
  | elsewhere
  | striking
  | dying
  | placing
  deriving DecidableEq, Repr

def hitPhase : HitPc → Phase
  | .takeDamage | .combatMessage | .statChange | .isDeadForRegen | .tryStartRegen
  | .addRegenTimer | .isDeadAgain => .striking
  | .getPos | .sendDisappear _ | .removeObject _ | .die => .dying
  | .stopRegen | .addObject => .placing
  | _ => .elsewhere

def phase (v : ObjectID) : Handler → Phase
  | .hit _ _ k pc => if k = v then hitPhase pc else .elsewhere
  | .regen _ _ => .elsewhere

/-- What a step means to a player: what it does to its life, and how far the
handler is with it before and after. -/
inductive Moves (v : ObjectID) (w w' : World) : Phase → Phase → Prop
  | stay (f : Phase) (halive : w'.playerAlive v = w.playerAlive v) : Moves v w w' f f
  | enter (halive : w.playerAlive v = true) (hworld : w' = w) : Moves v w w' .elsewhere .striking
  | hit (hdead : w.playerAlive v = false → w'.playerAlive v = false) :
      Moves v w w' .striking .striking
  | heal (halive : w.playerAlive v = true → w'.playerAlive v = true) :
      Moves v w w' .elsewhere .elsewhere
  | spare (halive : w.playerAlive v = true) (hworld : w' = w) : Moves v w w' .striking .elsewhere
  | decide (hdead : w.playerAlive v = false) (hworld : w' = w) : Moves v w w' .striking .dying
  | die (halive : w.playerAlive v = true → w'.playerAlive v = true) : Moves v w w' .dying .placing
  | place (halive : w'.playerAlive v = w.playerAlive v) : Moves v w w' .placing .elsewhere

theorem playerAlive_of_getPlayer (hp : w.getPlayer v = some p) : w.playerAlive v = !p.isDead := by
  rw [playerAlive, hp, Option.any_some]
  cases p.isDead <;> rfl

theorem playerAlive_setPlayer (hp : w.getPlayer v = some p) (hq : q.id = p.id) :
    (w.setPlayer q).playerAlive v = !q.isDead :=
  playerAlive_of_getPlayer (getPlayer_set (hq.trans (getPlayer_id hp)))

/-- Where the phase is left alone, the hit points are. -/
theorem hitPhase_actHit (env : Env) (m : Monster) (v : ObjectID) (w : World) {pc : HitPc}
    (hpc : pc ≠ .isDead ∧ pc ≠ .takeDamage ∧ pc ≠ .isDeadAgain ∧ pc ≠ .die ∧ pc ≠ .addObject) :
    hitPhase (actHit env m v w pc).2 = hitPhase pc := by
  obtain ⟨h1, h2, h3, h4, h5⟩ := hpc
  cases pc with
  | isDead => exact absurd rfl h1
  | takeDamage => exact absurd rfl h2
  | isDeadAgain => exact absurd rfl h3
  | die => exact absurd rfl h4
  | addObject => exact absurd rfl h5
  | isDeadForRegen =>
      simp only [actHit, withPlayer]
      split
      · rfl
      · dsimp only
        split <;> rfl
  | tryStartRegen =>
      simp only [actHit, withPlayer]
      split
      · rfl
      · split <;> rfl
  | removeObject oldPos => rfl
  | activate respawn => rfl
  | done => rfl
  | _ =>
      simp only [actHit, withPlayer]
      split <;> rfl

/-- **What one step of `MonsterAttackPlayer` can do to its victim.** -/
theorem actHit_moves (env : Env) (m : Monster)
    (hmax : ∀ p, w.getPlayer v = some p → 0 < p.maxHp) (pc : HitPc) :
    Moves v w (actHit env m v w pc).1 (hitPhase pc) (hitPhase (actHit env m v w pc).2) := by
  by_cases hpc : pc ≠ .isDead ∧ pc ≠ .takeDamage ∧ pc ≠ .isDeadAgain ∧ pc ≠ .die ∧ pc ≠ .addObject
  · rw [hitPhase_actHit env m v w hpc]
    exact .stay _ ((touches_actHit env m v w hpc.2.1 hpc.2.2.2.1).playerAlive v)
  · have hcases : pc = .isDead ∨ pc = .takeDamage ∨ pc = .isDeadAgain ∨ pc = .die ∨
        pc = .addObject := by
      by_contra hnot
      simp only [not_or] at hnot
      exact hpc hnot
    -- the first test, the damage, the second test, the death, the new tile
    rcases hcases with rfl | rfl | rfl | rfl | rfl
    · simp only [actHit, withPlayer]
      split
      · exact .stay _ rfl
      · next p hp =>
          dsimp only
          split
          · exact .stay _ rfl
          · next hlive =>
              exact .enter (by rw [playerAlive_of_getPlayer hp]; simpa using hlive) rfl
    · simp only [actHit, withPlayer]
      split
      · exact .stay _ rfl
      · next p hp =>
          apply Moves.hit
          -- damage brings nobody back
          intro hdead
          rw [playerAlive_of_getPlayer hp, Bool.not_eq_false', Player.isDead,
            decide_eq_true_eq] at hdead
          dsimp only
          rw [playerAlive_setPlayer (q := p.takeDamage _) hp rfl, Bool.not_eq_false',
            Player.isDead, decide_eq_true_eq]
          simp only [Player.takeDamage]
          split <;> omega
    · simp only [actHit, withPlayer]
      split
      · exact .stay _ rfl
      · next p hp =>
          have hal := playerAlive_of_getPlayer hp
          dsimp only
          split
          · next hdead => exact .decide (by rw [hal, hdead]; rfl) rfl
          · next hlive => exact .spare (by rw [hal]; simpa using hlive) rfl
    · simp only [actHit, withPlayer]
      split
      · exact .stay _ rfl
      · next p hp =>
          apply Moves.die
          intro _
          dsimp only
          rw [playerAlive_setPlayer (q := p.die) hp rfl, Bool.not_eq_true',
            Player.isDead, decide_eq_false_iff_not, Int.not_le]
          -- who dies has its hit points back at once
          exact hmax p hp
    · simp only [actHit]
      split
      · exact .place rfl
      · exact .place rfl

/-- A step of `HP_REGEN` may bring a player back, and takes nobody's life. -/
theorem actRegen_moves (hmax : ∀ p, w.getPlayer v = some p → 0 < p.maxHp) (id : ObjectID)
    (pc : RegenPc) : Moves v w (actRegen id w pc).1 .elsewhere .elsewhere := by
  by_cases hregen : pc = .regenHP
  · subst hregen
    simp only [actRegen, withPlayer]
    split
    · exact .stay _ rfl
    · next p hp =>
        dsimp only
        by_cases hv : v = id
        · subst hv
          apply Moves.heal
          intro halive
          rw [playerAlive_of_getPlayer hp, Bool.not_eq_true', Player.isDead,
            decide_eq_false_iff_not] at halive
          rw [playerAlive_setPlayer (q := p.regenHP) hp rfl, Bool.not_eq_true',
            Player.isDead, decide_eq_false_iff_not]
          have hpos := hmax p hp
          have hamount := regenAmount_nonneg (Int.le_of_lt hpos)
          simp only [Player.regenHP]
          omega
        · refine .stay _ ?_
          have hid : p.id = id := getPlayer_id hp
          have hne : ¬ v = p.regenHP.id := fun heq => hv (heq.trans hid)
          rw [playerAlive, getPlayer_setPlayer, if_neg hne, playerAlive]
  · exact .stay _ ((touches_actRegen w id hregen).playerAlive v)

theorem act_moves (hmax : ∀ p, w.getPlayer v = some p → 0 < p.maxHp) (h : Handler) :
    Moves v w (act w h).1 (h.phase v) ((act w h).2.phase v) := by
  cases h with
  | regen id pc => exact actRegen_moves hmax id pc
  | hit env m k pc =>
      simp only [act, phase]
      by_cases hk : k = v
      · rw [if_pos hk, if_pos hk, hk]
        exact actHit_moves env m hmax pc
      · rw [if_neg hk, if_neg hk]
        refine .stay _ ?_
        have hother := (touches_actHit_max env m k w pc).other (Ne.symm hk)
        rw [playerAlive, hother, playerAlive]

/-! ## The account of a player -/

/-- How many calls are so far with the player. -/
def inPhase (v : ObjectID) (f : Phase) (c : Config World Handler) : ℕ :=
  count (fun h => h.phase v = f) c

/-- How many other calls are past their first test and not at the second. -/
def overlap (v : ObjectID) (c : Config World Handler) (i : ℕ) : ℕ :=
  others (fun h => h.phase v = .striking) c i

/-- Whether the step takes the player's hit points from positive to none. -/
def drops (v : ObjectID) (c : Config World Handler) (i : ℕ) : ℕ :=
  if c.shared.playerAlive v = true ∧ (step act c i).shared.playerAlive v = false then 1 else 0

/-- Whether the step gives hit points to a player that has none. -/
def revives (v : ObjectID) (c : Config World Handler) (i : ℕ) : ℕ :=
  if c.shared.playerAlive v = false ∧ (step act c i).shared.playerAlive v = true then 1 else 0

/-- Whether the step takes a call from one phase to another. -/
def passes (v : ObjectID) (f g : Phase) (c : Config World Handler) (i : ℕ) : ℕ :=
  if (c.threads[i]?).any fun h => h.phase v = f ∧ (act c.shared h).2.phase v = g then 1 else 0

/-- The second test that finds the player dead: `OnPlayerDied` begins. -/
def decisions (v : ObjectID) := passes v .striking .dying

/-- `Die`. -/
def penalties (v : ObjectID) := passes v .dying .placing

/-- `AddObject` at the place of respawn. -/
def placements (v : ObjectID) := passes v .placing .elsewhere

/-- The calls that will find the player dead at their second test, as things are. -/
def owedDeaths (v : ObjectID) (c : Config World Handler) : ℕ :=
  if c.shared.playerAlive v then 0 else inPhase v .striking c

/-- Every player that is there has positive maximal hit points. -/
def Hearty (c : Config World Handler) : Prop :=
  ∀ v p, c.shared.getPlayer v = some p → 0 < p.maxHp

theorem hearty_step (hc : Hearty c) (i : ℕ) : Hearty (step act c i) := by
  cases h : c.threads[i]? with
  | none =>
      rw [step_none h]
      exact hc
  | some t =>
      intro v q hq
      rw [shared_step h] at hq
      have htouch : ∃ id, Touches KeepsMax c.shared (act c.shared t).1 id := by
        cases t with
        | hit env m k pc => exact ⟨k, touches_actHit_max env m k c.shared pc⟩
        | regen id pc => exact ⟨id, touches_actRegen_max c.shared id pc⟩
      obtain ⟨id, htouch⟩ := htouch
      rcases htouch.getPlayer hq with hp | ⟨-, p, hp, hmax⟩
      · exact hc v q hp
      · rw [hmax]
        exact hc v p hp

theorem inPhase_eq (hi : c.threads[i]? = some h) (v : ObjectID) (f : Phase) :
    inPhase v f c = others (fun h => h.phase v = f) c i + if h.phase v = f then 1 else 0 := by
  rw [inPhase, count_eq hi]
  simp only [decide_eq_true_eq]

theorem inPhase_step (hi : c.threads[i]? = some h) (v : ObjectID) (f : Phase) :
    inPhase v f (step act c i) = others (fun h => h.phase v = f) c i +
      if (act c.shared h).2.phase v = f then 1 else 0 := by
  rw [inPhase, count_step hi]
  simp only [decide_eq_true_eq]

/-- **One step.** A blow that kills adds the killer and everybody who is past the
first test to those who will process the death, a decision takes one away, and
hit points that come back release the rest. -/
theorem account_step (hc : Hearty c) (v : ObjectID) (i : ℕ) :
    owedDeaths v (step act c i) + decisions v c i + revives v c i * inPhase v .striking c =
        owedDeaths v c + drops v c i * (1 + overlap v c i) ∧
      inPhase v .dying (step act c i) + penalties v c i = inPhase v .dying c + decisions v c i ∧
      inPhase v .placing (step act c i) + placements v c i =
        inPhase v .placing c + penalties v c i := by
  cases hi : c.threads[i]? with
  | none =>
      -- a thread that is not there does nothing
      have hdrops : drops v c i = 0 := by
        rw [drops, step_none hi]
        exact if_neg (by simp)
      have hrevives : revives v c i = 0 := by
        rw [revives, step_none hi]
        exact if_neg (by simp)
      rw [step_none hi, hdrops, hrevives, decisions, penalties, placements, passes, passes, passes, hi]
      simp
  | some t =>
      have hmoves := act_moves (hc v) t
      have hstriking := inPhase_eq hi v .striking
      have hstriking' := inPhase_step hi v .striking
      have hdying := inPhase_eq hi v .dying
      have hdying' := inPhase_step hi v .dying
      have hplacing := inPhase_eq hi v .placing
      have hplacing' := inPhase_step hi v .placing
      unfold owedDeaths decisions penalties placements passes drops revives overlap
      rw [shared_step hi, hi, Option.any_some, Option.any_some, Option.any_some]
      generalize (act c.shared t).1 = w' at hmoves ⊢
      generalize (act c.shared t).2.phase v = f' at hmoves hstriking' hdying' hplacing' ⊢
      generalize t.phase v = f at hmoves hstriking hdying hplacing ⊢
      generalize inPhase v .striking (step act c i) = s' at hstriking' ⊢
      generalize inPhase v .dying (step act c i) = d' at hdying' ⊢
      generalize inPhase v .placing (step act c i) = p' at hplacing' ⊢
      -- one case for each move; what is left is to count heads
      cases hmoves with
      | stay _ halive =>
          rw [halive]
          cases c.shared.playerAlive v <;> cases f' <;> simp_all
      | enter halive hworld =>
          rw [hworld, halive]
          simp_all
      | hit hdead =>
          cases hw : c.shared.playerAlive v <;> cases hw' : w'.playerAlive v <;> simp_all
          omega
      | heal halive =>
          cases hw : c.shared.playerAlive v <;> cases hw' : w'.playerAlive v <;> simp_all
      | spare halive hworld =>
          rw [hworld, halive]
          simp_all
      | decide hdead hworld =>
          rw [hworld, hdead]
          simp_all
      | die halive =>
          cases hw : c.shared.playerAlive v <;> cases hw' : w'.playerAlive v <;> simp_all
      | place halive =>
          rw [halive]
          cases c.shared.playerAlive v <;> simp_all

/-! ## Whole runs -/

/-- A call of `MonsterAttackPlayer` or an `HP_REGEN` event, before it is handled. -/
inductive Call where
  | attack (env : Env) (attacker : Monster) (victim : ObjectID)
  | regen (id : ObjectID)

def Call.start : Call → Handler
  | .attack env attacker victim => .hit env attacker victim .isDead
  | .regen id => .regen id .getPlayer

/-- Handlers that have not begun, in the world they meet. -/
def begin (w : World) (calls : List Call) : Config World Handler := ⟨w, calls.map Call.start⟩

def isDone : Handler → Bool
  | .hit _ _ _ pc => pc = .done
  | .regen _ pc => pc = .done

/-- All handlers have ended. -/
def Ended (c : Config World Handler) : Prop := ∀ h ∈ c.threads, h.isDone = true

/-- One more `OnPlayerDied` for the last drop. -/
def oneMore : List ℕ → List ℕ
  | [] => []
  | n :: counts => (n + 1) :: counts

/-- How often `OnPlayerDied` has begun for each drop of the player's hit points
from positive to none, the last drop first. -/
def deaths (v : ObjectID) : List ℕ → Config World Handler → List ℕ → List ℕ
  | counts, _, [] => counts
  | counts, c, i :: is =>
    let counts :=
      if drops v c i = 1 then 0 :: counts
      else if decisions v c i = 1 then oneMore counts
      else counts
    deaths v counts (step act c i) is

/-- **Every death is counted once**: `OnPlayerDied` begins once for each drop, and
in total there is one penalty and one placement for each. -/
structure DiedOnce (w : World) (calls : List Call) (is : List ℕ) : Prop where
  each : ∀ v, ∀ n ∈ deaths v [] (begin w calls) is, n = 1
  penalty : ∀ v, total (step act) (penalties v) (begin w calls) is =
    total (step act) (drops v) (begin w calls) is
  placement : ∀ v, total (step act) (placements v) (begin w calls) is =
    total (step act) (drops v) (begin w calls) is

/-- The step is a blow that takes the player's last hit points. -/
def Kills (v : ObjectID) (c : Config World Handler) (i : ℕ) : Prop :=
  ∃ env m p, c.threads[i]? = some (.hit env m v .takeDamage) ∧ c.shared.getPlayer v = some p ∧
    p.isDead = false ∧ p.hp ≤ m.level.toNat * 5

/-- The step is `Die` or `RegenHP` of a player that has no hit points. -/
def Restores (v : ObjectID) (c : Config World Handler) (i : ℕ) : Prop :=
  ∃ p, c.shared.getPlayer v = some p ∧ p.isDead = true ∧
    ((∃ env m, c.threads[i]? = some (.hit env m v .die)) ∨
      c.threads[i]? = some (.regen v .regenHP))

/-- At a blow that kills, and at a step that gives the hit points back, no other
call is between its two tests of the player. -/
def HitsAlone (c : Config World Handler) (i : ℕ) : Prop :=
  ∀ v, (Kills v c i → overlap v c i = 0) ∧ (Restores v c i → inPhase v .striking c = 0)

theorem isDead_iff : p.isDead = true ↔ p.hp ≤ 0 := by
  rw [Player.isDead, decide_eq_true_eq]

theorem isDead_eq_false_iff : p.isDead = false ↔ 0 < p.hp := by
  rw [Player.isDead, decide_eq_false_iff_not, Int.not_le]

theorem isDead_of_playerAlive {b : Bool} (hp : w.getPlayer v = some p)
    (h : w.playerAlive v = b) : p.isDead = !b := by
  rw [playerAlive_of_getPlayer hp] at h
  rw [← h, Bool.not_not]

/-- A step that changes whether the player lives is one of the three that write
hit points. -/
theorem writes_of_playerAlive {t : Handler}
    (hne : (act w t).1.playerAlive v ≠ w.playerAlive v) :
    (∃ env m, t = .hit env m v .takeDamage) ∨ (∃ env m, t = .hit env m v .die) ∨
      t = .regen v .regenHP := by
  cases t with
  | hit env m k pc =>
      have hk : k = v := by
        by_contra hk
        have hother := (touches_actHit_max env m k w pc).other (Ne.symm hk)
        exact hne (by rw [act, playerAlive, hother, playerAlive])
      subst hk
      by_cases hdamage : pc = .takeDamage
      · exact .inl ⟨env, m, by rw [hdamage]⟩
      · by_cases hdie : pc = .die
        · exact .inr (.inl ⟨env, m, by rw [hdie]⟩)
        · exact absurd ((touches_actHit env m k w hdamage hdie).playerAlive k) hne
  | regen id pc =>
      have hid : id = v := by
        by_contra hid
        have hother := (touches_actRegen_max w id pc).other (Ne.symm hid)
        exact hne (by rw [act, playerAlive, hother, playerAlive])
      subst hid
      by_cases hregen : pc = .regenHP
      · exact .inr (.inr (by rw [hregen]))
      · exact absurd ((touches_actRegen w id hregen).playerAlive id) hne

/-- A player whose life a step changes is there. -/
theorem getPlayer_of_playerAlive {t : Handler}
    (hne : (act w t).1.playerAlive v ≠ w.playerAlive v) : ∃ p, w.getPlayer v = some p := by
  cases hp : w.getPlayer v with
  | some p => exact ⟨p, rfl⟩
  | none =>
      exfalso
      apply hne
      rcases writes_of_playerAlive hne with ⟨env, m, rfl⟩ | ⟨env, m, rfl⟩ | rfl
      · rw [act, actHit, withPlayer, hp]
      · rw [act, actHit, withPlayer, hp]
      · rw [act, actRegen, withPlayer, hp]

theorem kills_of_drops (hc : Hearty c) (h : drops v c i ≠ 0) : Kills v c i := by
  unfold drops at h
  split at h
  · next hal =>
      cases hi : c.threads[i]? with
      | none =>
          rw [step_none hi, hal.1] at hal
          exact absurd hal.2 (by simp)
      | some t =>
          obtain ⟨hlive, hdead⟩ := hal
          rw [shared_step hi] at hdead
          have hne : (act c.shared t).1.playerAlive v ≠ c.shared.playerAlive v := by
            rw [hlive, hdead]
            exact Bool.false_ne_true
          obtain ⟨p, hp⟩ := getPlayer_of_playerAlive hne
          have hid : p.id = v := getPlayer_id hp
          have hmax : 0 < p.maxHp := hc v p hp
          have hpos : p.isDead = false := isDead_of_playerAlive hp hlive
          rcases writes_of_playerAlive hne with ⟨env, m, rfl⟩ | ⟨env, m, rfl⟩ | rfl
          · refine ⟨env, m, p, hi, hp, hpos, ?_⟩
            have hafter : (act c.shared (.hit env m v .takeDamage)).1.getPlayer v =
                some (p.takeDamage ((m.level.toNat * 5 : ℕ) : Int)) := by
              rw [act, actHit, withPlayer_some hp]
              exact getPlayer_set hid
            have hzero := isDead_iff.mp (isDead_of_playerAlive hafter hdead)
            rw [isDead_eq_false_iff] at hpos
            simp only [Player.takeDamage] at hzero
            split at hzero <;> omega
          · have hafter : (act c.shared (.hit env m v .die)).1.getPlayer v = some p.die := by
              rw [act, actHit, withPlayer_some hp]
              exact getPlayer_set hid
            have hzero := isDead_iff.mp (isDead_of_playerAlive hafter hdead)
            simp only [Player.die] at hzero
            omega
          · have hafter : (act c.shared (.regen v .regenHP)).1.getPlayer v = some p.regenHP := by
              rw [act, actRegen, withPlayer_some hp]
              exact getPlayer_set hid
            have hzero := isDead_iff.mp (isDead_of_playerAlive hafter hdead)
            have hamount := regenAmount_nonneg (Int.le_of_lt hmax)
            rw [isDead_eq_false_iff] at hpos
            simp only [Player.regenHP] at hzero
            omega
  · exact absurd rfl h

theorem restores_of_revives (h : revives v c i ≠ 0) : Restores v c i := by
  unfold revives at h
  split at h
  · next hal =>
      cases hi : c.threads[i]? with
      | none =>
          rw [step_none hi, hal.1] at hal
          exact absurd hal.2 (by simp)
      | some t =>
          obtain ⟨hdead, hlive⟩ := hal
          rw [shared_step hi] at hlive
          have hne : (act c.shared t).1.playerAlive v ≠ c.shared.playerAlive v := by
            rw [hlive, hdead]
            exact Bool.noConfusion
          obtain ⟨p, hp⟩ := getPlayer_of_playerAlive hne
          have hzero : p.isDead = true := isDead_of_playerAlive hp hdead
          rcases writes_of_playerAlive hne with ⟨env, m, rfl⟩ | ⟨env, m, rfl⟩ | rfl
          · have hid : p.id = v := getPlayer_id hp
            have hafter : (act c.shared (.hit env m v .takeDamage)).1.getPlayer v =
                some (p.takeDamage ((m.level.toNat * 5 : ℕ) : Int)) := by
              rw [act, actHit, withPlayer_some hp]
              exact getPlayer_set hid
            have hpos := isDead_eq_false_iff.mp (isDead_of_playerAlive hafter hlive)
            rw [isDead_iff] at hzero
            simp only [Player.takeDamage] at hpos
            split at hpos <;> omega
          · exact ⟨p, hp, hzero, .inl ⟨env, m, hi⟩⟩
          · exact ⟨p, hp, hzero, .inr hi⟩
  · exact absurd rfl h

/-- Every drop but the last has been processed once, and the last one has been or
will be. -/
def Tally (v : ObjectID) (c : Config World Handler) (counts : List ℕ) : Prop :=
  owedDeaths v c = 0 ∧ (∀ n ∈ counts, n = 1) ∨
    owedDeaths v c = 1 ∧ ∃ rest, counts = 0 :: rest ∧ ∀ n ∈ rest, n = 1

theorem owedDeaths_step (hc : Hearty c) (hok : HitsAlone c i) (v : ObjectID) :
    owedDeaths v (step act c i) + decisions v c i = owedDeaths v c + drops v c i := by
  obtain ⟨hone, -⟩ := account_step hc v i
  have hover : drops v c i * overlap v c i = 0 := by
    by_cases h : drops v c i = 0
    · rw [h, Nat.zero_mul]
    · rw [(hok v).1 (kills_of_drops hc h), Nat.mul_zero]
  have hback : revives v c i * inPhase v .striking c = 0 := by
    by_cases h : revives v c i = 0
    · rw [h, Nat.zero_mul]
    · rw [(hok v).2 (restores_of_revives h), Nat.mul_zero]
  rw [hback, Nat.mul_add, Nat.mul_one, hover] at hone
  omega

/-- The test that decides writes nothing, so it is not the blow. -/
theorem decisions_of_drops (hc : Hearty c) (hdrop : drops v c i = 1) :
    decisions v c i = 0 ∧ owedDeaths v c = 0 := by
  have hal : c.shared.playerAlive v = true ∧ (step act c i).shared.playerAlive v = false := by
    by_contra hnot
    rw [drops, if_neg hnot] at hdrop
    exact absurd hdrop (by simp)
  refine ⟨?_, by rw [owedDeaths, if_pos hal.1]⟩
  cases hi : c.threads[i]? with
  | none =>
      rw [step_none hi, hal.1] at hal
      exact absurd hal.2 (by simp)
  | some t =>
      rw [shared_step hi] at hal
      have hmoves := act_moves (hc v) t
      rw [decisions, passes, hi, Option.any_some]
      generalize (act c.shared t).1 = w' at hmoves hal
      generalize (act c.shared t).2.phase v = f' at hmoves ⊢
      generalize t.phase v = f at hmoves ⊢
      cases hmoves with
      | decide hdead _ =>
          rw [hal.1] at hdead
          exact absurd hdead (by simp)
      | stay _ _ => cases f' <;> simp
      | _ => simp

theorem tally_step (hc : Hearty c) (hok : HitsAlone c i) {counts : List ℕ} (h : Tally v c counts) :
    Tally v (step act c i) (if drops v c i = 1 then 0 :: counts
      else if decisions v c i = 1 then oneMore counts else counts) := by
  have hone := owedDeaths_step hc hok v
  split
  · next hdrop =>
      obtain ⟨hnone, hzero⟩ := decisions_of_drops hc hdrop
      rcases h with ⟨-, hall⟩ | ⟨howed, -⟩
      · exact .inr ⟨by omega, counts, rfl, hall⟩
      · omega
  · next hdrop =>
      have hdrops : drops v c i = 0 := by
        unfold drops at hdrop ⊢
        split at hdrop
        · exact absurd rfl hdrop
        · next hno => exact if_neg hno
      split
      · next hdecide =>
          rcases h with ⟨howed, -⟩ | ⟨howed, rest, rfl, hall⟩
          · omega
          · exact .inl ⟨by omega, List.forall_mem_cons.mpr ⟨rfl, hall⟩⟩
      · next hdecide =>
          have hdecisions : decisions v c i = 0 := by
            unfold decisions passes at hdecide ⊢
            split at hdecide
            · exact absurd rfl hdecide
            · next hno => exact if_neg hno
          have hsame : owedDeaths v (step act c i) = owedDeaths v c := by omega
          rw [Tally, hsame]
          exact h

theorem tally_run {is : List ℕ} (hc : Hearty c) (hok : Along (step act) HitsAlone c is)
    {counts : List ℕ} (h : Tally v c counts) :
    Tally v (run (step act) c is) (deaths v counts c is) := by
  induction is generalizing c counts with
  | nil => exact h
  | cons i is ih => exact ih (hearty_step hc i) hok.2 (tally_step hc hok.1 h)

theorem inPhase_eq_zero {f : Phase} (h : ∀ t ∈ c.threads, t.phase v ≠ f) : inPhase v f c = 0 := by
  apply count_eq_zero
  intro t ht
  exact decide_eq_false (h t ht)

/-- Handlers that have not begun, or have ended, are with nobody. -/
theorem phase_begin (w : World) (calls : List Call) (v : ObjectID) :
    ∀ t ∈ (begin w calls).threads, t.phase v = .elsewhere := by
  intro t ht
  obtain ⟨call, -, rfl⟩ := List.mem_map.mp ht
  cases call with
  | attack env m k => exact ite_self _
  | regen id => rfl

theorem Ended.phase (h : Ended c) (v : ObjectID) : ∀ t ∈ c.threads, t.phase v = .elsewhere := by
  intro t ht
  have hdone := h t ht
  cases t with
  | hit env m k pc =>
      rw [isDone, decide_eq_true_eq] at hdone
      rw [hdone]
      exact ite_self _
  | regen id pc => rfl

theorem inPhase_of_elsewhere {f : Phase} (h : ∀ t ∈ c.threads, t.phase v = .elsewhere)
    (hf : f ≠ .elsewhere) : inPhase v f c = 0 := by
  apply inPhase_eq_zero
  intro t ht heq
  exact hf (heq.symm.trans (h t ht))

theorem owedDeaths_of_elsewhere (h : ∀ t ∈ c.threads, t.phase v = .elsewhere) :
    owedDeaths v c = 0 := by
  rw [owedDeaths, inPhase_of_elsewhere h (by simp)]
  exact ite_self _

/-- **A death counts once** if at each blow that kills, and at each step that
gives the hit points back, no other call is between its two tests: for any
number of calls and regeneration events, from any world, in any interleaving,
once all have ended. -/
theorem diedOnce_run {w : World} {calls : List Call} {is : List ℕ}
    (hmax : ∀ v p, w.getPlayer v = some p → 0 < p.maxHp)
    (hend : Ended (run (step act) (begin w calls) is))
    (hok : Along (step act) HitsAlone (begin w calls) is) : DiedOnce w calls is := by
  have hc : Hearty (begin w calls) := hmax
  have hI : ∀ c i, Hearty c → HitsAlone c i → Hearty (step act c i) :=
    fun c i h _ => hearty_step h i
  have htotals : ∀ v, total (step act) (decisions v) (begin w calls) is =
        total (step act) (drops v) (begin w calls) is ∧
      total (step act) (penalties v) (begin w calls) is =
        total (step act) (decisions v) (begin w calls) is ∧
      total (step act) (placements v) (begin w calls) is =
        total (step act) (penalties v) (begin w calls) is := by
    intro v
    have hstart := phase_begin w calls v
    have hdone := hend.phase v
    have hdecided := account (Φ := owedDeaths v) hI
      (fun c i h hok => owedDeaths_step h hok v) hc hok
    have hdied := account (Φ := inPhase v .dying) hI
      (fun c i h _ => (account_step h v i).2.1) hc hok
    have hplaced := account (Φ := inPhase v .placing) hI
      (fun c i h _ => (account_step h v i).2.2) hc hok
    rw [owedDeaths_of_elsewhere hstart, owedDeaths_of_elsewhere hdone] at hdecided
    rw [inPhase_of_elsewhere hstart (by simp), inPhase_of_elsewhere hdone (by simp)] at hdied hplaced
    omega
  refine ⟨?_, ?_, ?_⟩
  · intro v
    have hstart : Tally v (begin w calls) [] :=
      .inl ⟨owedDeaths_of_elsewhere (phase_begin w calls v), List.forall_mem_nil _⟩
    rcases tally_run hc hok hstart with ⟨-, hall⟩ | ⟨howed, -⟩
    · exact hall
    · rw [owedDeaths_of_elsewhere (hend.phase v)] at howed
      exact absurd howed (by simp)
  · intro v
    obtain ⟨h1, h2, -⟩ := htotals v
    exact h2.trans h1
  · intro v
    obtain ⟨h1, h2, h3⟩ := htotals v
    exact h3.trans (h2.trans h1)

/-- A call by itself is alone. -/
theorem hitsAlone_one {t : Handler} (ht : c.threads = [t]) (i : ℕ) : HitsAlone c i := by
  have hthread : ∀ t', c.threads[i]? = some t' → i = 0 ∧ t' = t := by
    intro t' hi
    rw [ht, List.getElem?_singleton] at hi
    split at hi
    · next h0 => exact ⟨h0, (Option.some.inj hi).symm⟩
    · exact absurd hi (by simp)
  intro v
  refine ⟨?_, ?_⟩
  · rintro ⟨env, m, p, hi, -⟩
    obtain ⟨rfl, -⟩ := hthread _ hi
    rw [overlap, others, ht]
    rfl
  · rintro ⟨p, hp, hdead, ⟨env, m, hi⟩ | hi⟩
    · obtain ⟨rfl, rfl⟩ := hthread _ hi
      rw [inPhase_eq hi, others, ht, phase, if_pos rfl]
      rfl
    · obtain ⟨rfl, rfl⟩ := hthread _ hi
      rw [inPhase_eq hi, others, ht]
      rfl

theorem hitsAlone_along {is : List ℕ} {t : Handler} (ht : c.threads = [t]) :
    Along (step act) HitsAlone c is := by
  induction is generalizing c t with
  | nil => trivial
  | cons i is ih =>
      refine ⟨hitsAlone_one ht i, ?_⟩
      cases hi : c.threads[i]? with
      | none =>
          rw [step_none hi]
          exact ih ht
      | some t' =>
          have hnext : (step act c i).threads = [(act c.shared t').2] := by
            rw [step_some hi, ht]
            rw [ht, List.getElem?_singleton] at hi
            split at hi
            · next h0 => rw [h0]; rfl
            · exact absurd hi (by simp)
          exact ih hnext

/-- A monster of level 10, whose blows take 50 hit points. -/
def troll : Monster := .make 1000000 ⟨[84], 10, 100, .agro, .roaming, ⟨1, 0⟩⟩ ⟨1, 0⟩

/-- A character with 50 hit points. -/
def arena : World :=
  let w := World.empty Server.openField 1000
  (w.addPlayer 0 0 ⟨1, [65], 1, 40, 50, 100, 0, 0⟩).getD w

theorem arena_maxHp : ∀ v p, arena.getPlayer v = some p → 0 < p.maxHp := by
  intro v p hp
  have hall : ∀ p ∈ arena.players.entries, 0 < p.maxHp := by decide +kernel
  exact hall p (PlayerTable.mem_of_find hp)

/-- One blow, and the death it deals. -/
theorem diedOnce_run_oneBlow :
    DiedOnce arena [.attack .plain troll 0] (List.replicate 19 0) :=
  diedOnce_run arena_maxHp (by unfold Ended; decide +kernel)
    (hitsAlone_along (t := .hit .plain troll 0 .isDead) rfl)

/-- Two monsters attack; each makes its first test before the other's blow. -/
def twoBlows : List Call := [.attack .plain troll 0, .attack .plain troll 0]

def bothTest : List ℕ :=
  [0, 1] ++ List.replicate 5 0 ++ List.replicate 5 1 ++ List.replicate 11 0 ++ List.replicate 11 1

theorem bothTest_end :
    Ended (run (step act) (begin arena twoBlows) bothTest) ∧
      deaths 0 [] (begin arena twoBlows) bothTest = [2] := by
  unfold Ended
  decide +kernel

/-- One drop to no hit points is processed twice. -/
theorem not_always_diedOnce :
    ¬ ∀ (w : World) (calls : List Call) (is : List ℕ),
      (∀ v p, w.getPlayer v = some p → 0 < p.maxHp) →
        Ended (run (step act) (begin w calls) is) → DiedOnce w calls is := by
  intro hall
  obtain ⟨hend, hdeaths⟩ := bothTest_end
  have h := (hall arena twoBlows bothTest arena_maxHp hend).each 0 2
  rw [hdeaths] at h
  exact absurd (h List.mem_cons_self) (by decide)

end Handler

end Mmorpg
