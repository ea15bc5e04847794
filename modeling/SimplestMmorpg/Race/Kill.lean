/-
How often a kill is counted.

A handler of `ProcessAttack` tests whether the monster is dead, deals its
damage, and tests again; whoever finds it dead at the second test processes the
death. The damage does not say whether it was the one that killed, so every
handler that was past its first test at the killing blow finds the monster dead
at the second: the death is processed once for each of them. `kill_account`
says so for every interleaving of any number of handlers, and it is once if and
only if there was nobody but the killer.
-/
import SimplestMmorpg.Race.Attack
import SimplestMmorpg.Server.PlacementRun

set_option autoImplicit false

namespace Mmorpg

open Transition Interleave

/-- The monster is there and has hit points. -/
def World.alive (w : World) (m : ObjectID) : Bool := (w.getMonster m).any fun k => ¬ k.isDead

namespace Attacker

open World

variable {w : World} {t : Attacker} {m : ObjectID} {c : Config World Attacker} {i : ℕ}

/-! ## How far a handler is with a monster -/

/-- Between the two tests, before the reward, before the respawn event, or busy
with something else. -/
inductive Phase where
  | elsewhere
  | striking
  | rewarding
  | burying
  deriving DecidableEq, Repr

def phase (m : ObjectID) (t : Attacker) : Phase :=
  match t.pc with
  | .takeDamage _ k | .combatMessage _ k | .isDeadAgain _ k => if k = m then .striking else .elsewhere
  | .gainExp _ k => if k = m then .rewarding else .elsewhere
  | .statChange _ k | .sendRemove _ k | .removeObject _ k _ | .addTimer _ k =>
    if k = m then .burying else .elsewhere
  | _ => .elsewhere

theorem phase_next (t : Attacker) (aim : Aim) (m : ObjectID) :
    (t.goto aim.next).phase m = .elsewhere := by
  unfold goto Aim.next Aim.round
  split <;> rfl

/-- What a step means to a monster: what it does to its life and to the respawn
events, and how far the handler is with it before and after. -/
inductive Moves (m : ObjectID) (w w' : World) : Phase → Phase → Prop
  | stay (f : Phase) (halive : w'.alive m = w.alive m)
      (hpending : w'.pendingRespawns m = w.pendingRespawns m) : Moves m w w' f f
  | enter (halive : w.alive m = true) (hworld : w' = w) : Moves m w w' .elsewhere .striking
  | hit (hdead : w.alive m = false → w'.alive m = false)
      (hpending : w'.pendingRespawns m = w.pendingRespawns m) : Moves m w w' .striking .striking
  | spare (halive : w.alive m = true) (hworld : w' = w) : Moves m w w' .striking .elsewhere
  | kill (hdead : w.alive m = false) (hworld : w' = w) : Moves m w w' .striking .rewarding
  | reward (halive : w'.alive m = w.alive m)
      (hpending : w'.pendingRespawns m = w.pendingRespawns m) : Moves m w w' .rewarding .burying
  | bury (halive : w'.alive m = w.alive m)
      (hpending : w'.pendingRespawns m = w.pendingRespawns m + 1) : Moves m w w' .burying .elsewhere

theorem Moves.revivesNobody {w' : World} {f f' : Phase} (h : Moves m w w' f f')
    (hdead : w.alive m = false) : w'.alive m = false := by
  cases h with
  | stay _ halive _ => rw [halive, hdead]
  | hit hstill _ => exact hstill hdead
  | reward halive _ => rw [halive, hdead]
  | bury halive _ => rw [halive, hdead]
  | enter _ hworld => rw [hworld, hdead]
  | spare _ hworld => rw [hworld, hdead]
  | kill _ hworld => rw [hworld, hdead]

theorem alive_of_getMonster {k : Monster} (hk : w.getMonster m = some k) :
    w.alive m = !k.isDead := by
  rw [alive, hk, Option.any_some]
  cases k.isDead <;> rfl

/-- Damage revives nobody. -/
theorem isDead_takeDamage {k : Monster} (h : k.isDead = true) (damage : ℕ) :
    (k.takeDamage damage).isDead = true := by
  rw [Monster.isDead, decide_eq_true_eq] at h ⊢
  simp only [Monster.takeDamage]
  split <;> omega

theorem alive_takeDamage (w : World) (k m : ObjectID) (damage : ℕ) :
    (w.modifyMonster k (·.takeDamage damage)).alive m = w.alive m ∨
      k = m ∧ (w.alive m = false → (w.modifyMonster k (·.takeDamage damage)).alive m = false) := by
  unfold modifyMonster
  cases hk : w.getMonster k with
  | none => exact .inl rfl
  | some target =>
      obtain rfl := getMonster_id hk
      dsimp only
      have hget := getMonster_setMonster (m := target.takeDamage damage) hk
      have hid : (target.takeDamage damage).id = target.id := rfl
      by_cases hm : m = target.id
      · subst hm
        refine .inr ⟨rfl, ?_⟩
        intro hdead
        rw [alive_of_getMonster hk, Bool.not_eq_false'] at hdead
        rw [alive_of_getMonster ((hget _).trans (if_pos hid.symm)), Bool.not_eq_false']
        exact isDead_takeDamage hdead damage
      · left
        rw [alive, hget, if_neg (by rw [hid]; exact hm), alive]

/-- **What one step of a handler can do to a monster.** -/
theorem act_moves (w : World) (t : Attacker) (m : ObjectID) :
    Moves m w (act w t).1 (t.phase m) ((act w t).2.phase m) := by
  obtain ⟨env, id, pc⟩ := t
  have hsame : ∀ f, Moves m w w f f := fun f => .stay f rfl rfl
  cases pc with
  | getPlayer =>
      simp only [act, goto]
      split <;> exact hsame _
  | canAttack =>
      simp only [act, withPlayer, goto]
      split
      · exact hsame _
      · split <;> exact hsame _
  | getPos =>
      simp only [act, withPlayer, goto]
      split <;> exact hsame _
  | getLevel pos =>
      simp only [act, withPlayer]
      split
      · exact hsame _
      · unfold goto Aim.round
        split <;> exact hsame _
  | getOccupant aim =>
      simp only [act]
      split
      · rw [phase_next]
        exact hsame _
      · split
        · rw [phase_next]
          exact hsame _
        · split
          · rw [phase_next]
            exact hsame _
          · exact hsame _
  | isDead aim k =>
      simp only [act, withMonster]
      split
      · exact hsame _
      · next monster hk =>
          split
          · rw [phase_next]
            exact hsame _
          · next halive =>
              -- the test lets the handler in
              simp only [phase, goto]
              split
              · next hkm =>
                  subst hkm
                  exact .enter (by rw [alive_of_getMonster hk]; simpa using halive) rfl
              · exact hsame _
  | takeDamage aim k =>
      simp only [act, phase, goto]
      have hpending : (w.modifyMonster k (·.takeDamage aim.damage)).pendingRespawns m =
          w.pendingRespawns m := by
        unfold modifyMonster
        split <;> rfl
      rcases alive_takeDamage w k m aim.damage with halive | ⟨rfl, hdead⟩
      · exact .stay _ halive hpending
      · rw [if_pos rfl]
        exact .hit hdead hpending
  | combatMessage aim k =>
      simp only [act, withPlayer, phase, goto]
      split
      · exact hsame _
      · exact .stay _ rfl rfl
  | isDeadAgain aim k =>
      simp only [act, withMonster]
      split
      · exact hsame _
      · next monster hk =>
          have hal := alive_of_getMonster hk
          split
          · next hdead =>
              simp only [phase, goto]
              split
              · next hkm =>
                  subst hkm
                  exact .kill (by rw [hal, hdead]; rfl) rfl
              · exact hsame _
          · next halive =>
              rw [phase_next]
              simp only [phase]
              split
              · next hkm =>
                  subst hkm
                  exact .spare (by rw [hal]; simpa using halive) rfl
              · exact hsame _
  | gainExp aim k =>
      simp only [act, withMonster]
      split
      · exact hsame _
      · next monster hk =>
          have hworld : ∀ f, ((w.modifyPlayer id f).alive m = w.alive m) ∧
              (w.modifyPlayer id f).pendingRespawns m = w.pendingRespawns m := by
            intro f
            unfold modifyPlayer
            split <;> exact ⟨rfl, rfl⟩
          simp only [phase, goto]
          split
          · exact .reward (hworld _).1 (hworld _).2
          · exact .stay _ (hworld _).1 (hworld _).2
  | statChange aim k =>
      simp only [act, withPlayer, phase, goto]
      split
      · exact hsame _
      · exact .stay _ rfl rfl
  | sendRemove aim k =>
      simp only [act, withMonster, phase, goto]
      split
      · exact hsame _
      · exact .stay _ rfl rfl
  | removeObject aim k pos =>
      simp only [act, phase, goto]
      exact .stay _ rfl rfl
  | addTimer aim k =>
      simp only [act]
      rw [phase_next]
      have hpending : (w.addTimer .monsterRespawn k monsterRespawnMs none).pendingRespawns m =
          w.pendingRespawns m + if k = m then 1 else 0 := by
        simp [pendingRespawns, World.addTimer, List.countP_append, List.countP_cons]
      simp only [phase]
      split
      · next hkm =>
          rw [if_pos hkm] at hpending
          exact .bury rfl hpending
      · next hkm =>
          rw [if_neg hkm] at hpending
          exact .stay _ rfl hpending
  | attackEffect aim =>
      simp only [act, phase, goto]
      exact .stay _ rfl rfl
  | onAttackPerformed =>
      simp only [act, phase, goto]
      unfold modifyPlayer
      split
      · exact hsame _
      · exact .stay _ rfl rfl
  | done => exact hsame _

/-! ## The account of a monster -/

/-- How many handlers are so far with the monster. -/
def inPhase (m : ObjectID) (f : Phase) (c : Config World Attacker) : ℕ :=
  count (fun t => t.phase m = f) c

/-- How many other handlers are past their first test and not at the second. -/
def overlap (m : ObjectID) (c : Config World Attacker) (i : ℕ) : ℕ :=
  others (fun t => t.phase m = .striking) c i

/-- Whether the step takes the monster's hit points from positive to none. -/
def kills (m : ObjectID) (c : Config World Attacker) (i : ℕ) : ℕ :=
  if c.shared.alive m = true ∧ (step act c i).shared.alive m = false then 1 else 0

/-- Whether the step is the `GainExp` of an `OnMonsterDied` for the monster. -/
def rewards (m : ObjectID) (c : Config World Attacker) (i : ℕ) : ℕ :=
  if (c.threads[i]?).any fun t =>
    t.phase m = .rewarding ∧ (act c.shared t).2.phase m = .burying then 1 else 0

/-- The handlers that will process the death of the monster, as things are. -/
def owedRewards (m : ObjectID) (c : Config World Attacker) : ℕ :=
  (if c.shared.alive m then 0 else inPhase m .striking c) + inPhase m .rewarding c

/-- The respawn events there are or will be. -/
def owedRespawns (m : ObjectID) (c : Config World Attacker) : ℕ :=
  owedRewards m c + inPhase m .burying c + c.shared.pendingRespawns m

theorem inPhase_eq (h : c.threads[i]? = some t) (m : ObjectID) (f : Phase) :
    inPhase m f c = others (fun t => t.phase m = f) c i + if t.phase m = f then 1 else 0 := by
  rw [inPhase, count_eq h]
  simp only [decide_eq_true_eq]

theorem inPhase_step (h : c.threads[i]? = some t) (m : ObjectID) (f : Phase) :
    inPhase m f (step act c i) = others (fun t => t.phase m = f) c i +
      if (act c.shared t).2.phase m = f then 1 else 0 := by
  rw [inPhase, count_step h]
  simp only [decide_eq_true_eq]

/-- **One step.** A killing blow adds the killer and everybody who is past the
first test to those who will process the death; a reward takes one away, and a
respawn event is put in the place of one. -/
theorem account_step (m : ObjectID) (c : Config World Attacker) (i : ℕ) :
    owedRewards m (step act c i) + rewards m c i =
        owedRewards m c + kills m c i * (1 + overlap m c i) ∧
      owedRespawns m (step act c i) = owedRespawns m c + kills m c i * (1 + overlap m c i) := by
  cases h : c.threads[i]? with
  | none =>
      have hkills : kills m c i = 0 := by
        rw [kills, step_none h]
        exact if_neg (by simp)
      rw [step_none h, hkills, rewards, h]
      simp
  | some t =>
      have hmoves := act_moves c.shared t m
      have hstriking := inPhase_eq h m .striking
      have hstriking' := inPhase_step h m .striking
      have hrewarding := inPhase_eq h m .rewarding
      have hrewarding' := inPhase_step h m .rewarding
      have hburying := inPhase_eq h m .burying
      have hburying' := inPhase_step h m .burying
      unfold owedRespawns owedRewards kills rewards overlap
      rw [shared_step h, h, Option.any_some]
      generalize (act c.shared t).1 = w' at hmoves ⊢
      generalize (act c.shared t).2.phase m = f' at hmoves hstriking' hrewarding' hburying' ⊢
      generalize t.phase m = f at hmoves hstriking hrewarding hburying ⊢
      generalize inPhase m .striking (step act c i) = s' at hstriking' ⊢
      generalize inPhase m .rewarding (step act c i) = r' at hrewarding' ⊢
      generalize inPhase m .burying (step act c i) = b' at hburying' ⊢
      cases hmoves with
      | stay _ halive hpending =>
          rw [halive, hpending]
          cases c.shared.alive m <;> cases f' <;> simp_all
      | enter halive hworld =>
          rw [hworld, halive]
          simp_all
      | hit hdead hpending =>
          rw [hpending]
          cases hw : c.shared.alive m <;> cases hw' : w'.alive m <;> simp_all
          omega
      | spare halive hworld =>
          rw [hworld, halive]
          simp_all
      | kill hdead hworld =>
          rw [hworld, hdead]
          simp_all
          omega
      | reward halive hpending =>
          rw [halive, hpending]
          cases c.shared.alive m <;> simp_all <;> omega
      | bury halive hpending =>
          rw [halive, hpending]
          cases c.shared.alive m <;> simp_all <;> omega

/-! ## Whole runs -/

/-- Handlers of `ProcessAttack` that have not begun, in the world they meet. -/
def begin (w : World) (hs : List (Env × ObjectID)) : Config World Attacker :=
  ⟨w, hs.map fun h => ⟨h.1, h.2, .getPlayer⟩⟩

/-- All handlers have ended. -/
def Ended (c : Config World Attacker) : Prop := ∀ t ∈ c.threads, t.pc = .done

/-- **Every kill is counted once**: each time a monster's hit points go from
positive to none, one `OnMonsterDied` rewards its killer and schedules one
respawn. -/
def KilledOnce (w : World) (hs : List (Env × ObjectID)) (is : List ℕ) : Prop :=
  ∀ m, total (step act) (rewards m) (begin w hs) is = total (step act) (kills m) (begin w hs) is ∧
    (run (step act) (begin w hs) is).shared.pendingRespawns m =
      w.pendingRespawns m + total (step act) (kills m) (begin w hs) is

/-- At a killing blow nobody else is between the two tests. -/
def StrikesAlone (c : Config World Attacker) (i : ℕ) : Prop :=
  ∀ m, kills m c i * overlap m c i = 0

theorem inPhase_eq_zero {f : Phase} (h : ∀ t ∈ c.threads, t.phase m ≠ f) : inPhase m f c = 0 := by
  apply count_eq_zero
  intro t ht
  exact decide_eq_false (h t ht)

/-- Handlers that have not begun, or have ended, owe nothing. -/
theorem owed_of_elsewhere (h : ∀ t ∈ c.threads, t.phase m = .elsewhere) :
    owedRewards m c = 0 ∧ owedRespawns m c = c.shared.pendingRespawns m := by
  have hzero : ∀ f, f ≠ .elsewhere → inPhase m f c = 0 := by
    intro f hf
    apply inPhase_eq_zero
    intro t ht heq
    exact hf (heq.symm.trans (h t ht))
  have hrewards : owedRewards m c = 0 := by
    rw [owedRewards, hzero .striking (by simp), hzero .rewarding (by simp)]
    simp
  refine ⟨hrewards, ?_⟩
  rw [owedRespawns, hrewards, hzero .burying (by simp), Nat.zero_add]

theorem phase_begin (w : World) (hs : List (Env × ObjectID)) (m : ObjectID) :
    ∀ t ∈ (begin w hs).threads, t.phase m = .elsewhere := by
  intro t ht
  obtain ⟨h, -, rfl⟩ := List.mem_map.mp ht
  rfl

theorem Ended.phase (h : Ended c) (m : ObjectID) : ∀ t ∈ c.threads, t.phase m = .elsewhere := by
  intro t ht
  rw [Attacker.phase, h t ht]

/-- **The account of a kill.** Over a run of any handlers in any interleaving,
each kill is rewarded, and its respawn scheduled, once for the killer and once
for every other handler that was past its first test. -/
theorem kill_account {w : World} {hs : List (Env × ObjectID)} {is : List ℕ}
    (hend : Ended (run (step act) (begin w hs) is)) (m : ObjectID) :
    let K := total (step act) (kills m) (begin w hs) is
    let O := total (step act) (fun c i => kills m c i * overlap m c i) (begin w hs) is
    total (step act) (rewards m) (begin w hs) is = K + O ∧
      (run (step act) (begin w hs) is).shared.pendingRespawns m = w.pendingRespawns m + (K + O) := by
  have hsum : total (step act) (fun c i => kills m c i * (1 + overlap m c i)) (begin w hs) is =
      total (step act) (kills m) (begin w hs) is +
        total (step act) (fun c i => kills m c i * overlap m c i) (begin w hs) is := by
    rw [← total_add]
    simp only [Nat.mul_add, Nat.mul_one]
  obtain ⟨hr0, hb0⟩ := owed_of_elsewhere (phase_begin w hs m)
  obtain ⟨hr1, hb1⟩ := owed_of_elsewhere (hend.phase m)
  have hrewards := account (I := fun _ => True) (C := fun _ _ => True) (Φ := owedRewards m)
    (fun _ _ _ _ => trivial) (fun c i _ _ => (account_step m c i).1) trivial
    (along_true : Along (step act) (fun _ _ => True) (begin w hs) is)
  have hrespawns := account (I := fun _ => True) (C := fun _ _ => True) (Φ := owedRespawns m)
    (g := fun _ _ => 0) (fun _ _ _ _ => trivial) (fun c i _ _ => (account_step m c i).2) trivial
    (along_true : Along (step act) (fun _ _ => True) (begin w hs) is)
  have hnone : total (step act) (fun _ _ => 0) (begin w hs) is = 0 :=
    total_eq_zero_iff.mpr (along_true.mono fun _ _ _ => rfl)
  have hshared : (begin w hs).shared = w := rfl
  rw [hr0, hr1, hsum] at hrewards
  rw [hb0, hb1, hnone, hsum, hshared] at hrespawns
  dsimp only
  omega

/-- Nothing here brings a monster back, so it is killed at most once. -/
theorem kills_total (m : ObjectID) (c : Config World Attacker) (is : List ℕ) :
    ((run (step act) c is).shared.alive m).toNat + total (step act) (kills m) c is =
      (c.shared.alive m).toNat := by
  have hstep : ∀ (c : Config World Attacker) (i : ℕ),
      ((step act c i).shared.alive m).toNat + kills m c i = (c.shared.alive m).toNat := by
    intro c i
    have hrevive : c.shared.alive m = false → (step act c i).shared.alive m = false := by
      intro hdead
      cases h : c.threads[i]? with
      | none =>
          rw [step_none h]
          exact hdead
      | some t =>
          rw [shared_step h]
          exact (act_moves c.shared t m).revivesNobody hdead
    unfold kills
    cases hw : c.shared.alive m with
    | false => simp [hrevive hw]
    | true => cases (step act c i).shared.alive m <;> rfl
  have hrun := account (I := fun _ => True) (C := fun _ _ => True) (f := fun _ _ => 0)
    (Φ := fun c => (c.shared.alive m).toNat) (fun _ _ _ _ => trivial)
    (fun c i _ _ => hstep c i) trivial
      (along_true : Along (step act) (fun _ _ => True) c is)
  rw [hrun, total_eq_zero_iff.mpr (along_true.mono fun _ _ _ => rfl), Nat.add_zero]

/-- **A kill counts once if and only if** nobody else is between the two tests
at a killing blow: for any number of handlers, from any world, in any
interleaving, once all have ended. -/
theorem killedOnce_iff {w : World} {hs : List (Env × ObjectID)} {is : List ℕ}
    (hend : Ended (run (step act) (begin w hs) is)) :
    KilledOnce w hs is ↔ Along (step act) StrikesAlone (begin w hs) is := by
  have hzero : Along (step act) StrikesAlone (begin w hs) is ↔
      ∀ m, total (step act) (fun c i => kills m c i * overlap m c i) (begin w hs) is = 0 := by
    constructor
    · intro h m
      exact total_eq_zero_iff.mpr (h.mono fun c i hc => hc m)
    · intro h
      have hall : ∀ m, Along (step act) (fun c i => kills m c i * overlap m c i = 0)
          (begin w hs) is := fun m => total_eq_zero_iff.mp (h m)
      exact along_forall hall
  rw [hzero]
  constructor
  · intro h m
    obtain ⟨hrewards, -⟩ := kill_account hend m
    have hone := (h m).1
    omega
  · intro h m
    obtain ⟨hrewards, hrespawns⟩ := kill_account hend m
    rw [h m, Nat.add_zero] at hrewards hrespawns
    exact ⟨hrewards, hrespawns⟩

/-- A monster that dies of one hit of a new character. -/
def sheep : MonsterSpawnData := ⟨[83], 1, 10, .peace, .fixed, ⟨1, 0⟩⟩

/-- Two new characters, one on each side of it. -/
def meadow : World :=
  let w := (World.empty Server.openField 1000).spawnMonsters [sheep]
  ((w.addPlayer 0 0 ⟨1, [65], 1, 0, 100, 100, 0, 0⟩).bind
    (addPlayer 1 1 ⟨2, [66], 1, 0, 100, 100, 2, 0⟩)).getD w

/-- Both attack. -/
def bothAttack : List (Env × ObjectID) := [(.plain, 0), (.plain, 1)]

/-- One after the other. -/
def inTurn : List ℕ := List.replicate 19 0 ++ List.replicate 19 1

theorem killedOnce_iff_inTurn :
    KilledOnce meadow bothAttack inTurn ↔
      Along (step act) StrikesAlone (begin meadow bothAttack) inTurn :=
  killedOnce_iff (by unfold Ended; decide +kernel)

/-- Each makes its first test before the other has dealt its damage. -/
def bothTest : List ℕ :=
  List.replicate 9 0 ++ List.replicate 8 1 ++ List.replicate 10 0 ++ List.replicate 11 1

theorem bothTest_end :
    Ended (run (step act) (begin meadow bothAttack) bothTest) ∧
      total (step act) (kills 1000000) (begin meadow bothAttack) bothTest = 1 ∧
      total (step act) (rewards 1000000) (begin meadow bothAttack) bothTest = 2 := by
  unfold Ended
  decide +kernel

/-- One kill is rewarded twice. -/
theorem not_always_killedOnce :
    ¬ ∀ (w : World) (hs : List (Env × ObjectID)) (is : List ℕ), (hs.map Prod.snd).Nodup →
      Ended (run (step act) (begin w hs) is) → KilledOnce w hs is := by
  intro hall
  obtain ⟨hend, hkills, hrewards⟩ := bothTest_end
  have h := (hall meadow bothAttack bothTest (by decide) hend 1000000).1
  rw [hkills, hrewards] at h
  exact absurd h (by decide)

end Attacker

end Mmorpg
