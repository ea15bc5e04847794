/-
The arithmetic of a reward, from the level of the monster to the experience of
the killer.

`GetExpReward` and `GainExp` compute in `int32_t`, where an overflow is
undefined; the model wraps around there. `expRewardValues` and `gainExpValues`
list every value the two compute on the way, as long as none has overflowed. The
level of a monster comes from the script and is bounded by its type alone, so its
square need not fit. It does, and with it all that follows, exactly when the
experience before the level-ups fits: the thresholds and the hit points of
`GainExp` stay far below the bound.
-/
import SimplestMmorpg.Game.Experience
import SimplestMmorpg.Lua.LuaManager

set_option autoImplicit false

namespace Mmorpg

def FitsInt32 (v : Int) : Prop := -2 ^ 31 ≤ v ∧ v < 2 ^ 31

instance (v : Int) : Decidable (FitsInt32 v) := by
  unfold FitsInt32; infer_instance

namespace Monster

variable (m : Monster)

/-- What `GetExpReward` computes, in turn. -/
def expRewardValues : List Int :=
  let square : Int := m.level.toNat * m.level.toNat
  let base := square * 2
  [square, base] ++ if m.behavior = .agro ∨ m.movement = .roaming then [base * 2] else []

/-- How many times the square of the level the reward is. -/
def rewardFactor : Int := if m.behavior = .agro ∨ m.movement = .roaming then 4 else 2

/-- The reward before it is made an `int32_t`. -/
def fullReward : Int := m.rewardFactor * m.level.toNat ^ 2

theorem fullReward_eq : m.fullReward =
    if m.behavior = .agro ∨ m.movement = .roaming then 4 * ((m.level.toNat : Int) * m.level.toNat)
    else 2 * ((m.level.toNat : Int) * m.level.toNat) := by
  have hsq : (m.level.toNat : Int) ^ 2 = m.level.toNat * m.level.toNat := by
    rw [Int.pow_succ, Int.pow_succ, Int.pow_zero, Int.one_mul]
  unfold fullReward rewardFactor
  rw [hsq]
  split <;> rfl

theorem fullReward_nonneg : 0 ≤ m.fullReward := by
  have hsq : (0 : Int) ≤ m.level.toNat * m.level.toNat :=
    Int.mul_nonneg (Int.natCast_nonneg _) (Int.natCast_nonneg _)
  rw [fullReward_eq]
  split <;> omega

theorem getExpReward_eq : m.getExpReward = toInt32 m.fullReward := by
  rw [fullReward_eq]
  unfold getExpReward toInt32
  dsimp only
  split
  · omega
  · omega

theorem getExpReward_of_fits (h : m.fullReward < 2 ^ 31) : m.getExpReward = m.fullReward := by
  have hnonneg := m.fullReward_nonneg
  rw [getExpReward_eq, toInt32_of_range (by omega) h]

/-- The reward is the largest of the values. -/
theorem fits_expRewardValues_iff :
    (∀ v ∈ m.expRewardValues, FitsInt32 v) ↔ m.fullReward < 2 ^ 31 := by
  have hsq : (0 : Int) ≤ m.level.toNat * m.level.toNat :=
    Int.mul_nonneg (Int.natCast_nonneg _) (Int.natCast_nonneg _)
  rw [fullReward_eq]
  unfold expRewardValues FitsInt32
  dsimp only
  split
  · simp only [List.cons_append, List.nil_append, List.forall_mem_cons, List.not_mem_nil,
      false_imp_iff, implies_true, and_true]
    omega
  · simp only [List.cons_append, List.nil_append, List.forall_mem_cons, List.not_mem_nil,
      false_imp_iff, implies_true, and_true]
    omega

end Monster

namespace Player

variable {p : Player}

/-- What the loop of `GainExp` computes: the shift and the threshold for each
test, and in each round the experience and the hit points. -/
def levelUpValues : ℕ → Player → List Int
  | 0, _ => []
  | fuel + 1, p =>
    [2 ^ (p.level.toNat - 1), p.getLevelUpExp] ++
      if p.getLevelUpExp ≤ p.exp ∧ p.level.toNat < maxLevel then
        let level := p.level + 1
        let maxHp : Int := 100 + (level.toNat - 1) * 50
        [p.exp - p.getLevelUpExp, (level.toNat - 1) * 50, maxHp] ++
          levelUpValues fuel
            { p with exp := p.exp - p.getLevelUpExp, level := level, maxHp := maxHp, hp := maxHp }
      else []

/-- What `GainExp` computes, in turn. -/
def gainExpValues (p : Player) (amount : Int) : List Int :=
  (p.exp + amount) :: levelUpValues maxLevel { p with exp := p.exp + amount }

theorem fits_levelUpValues (fuel : ℕ) (p : Player) (hmin : 1 ≤ p.level.toNat)
    (hmax : p.level.toNat ≤ maxLevel) (hexp : 0 ≤ p.exp ∧ p.exp < 2 ^ 31) :
    ∀ v ∈ levelUpValues fuel p, FitsInt32 v := by
  induction fuel generalizing p with
  | zero => exact fun v hv => absurd hv List.not_mem_nil
  | succ n ih =>
      -- the last threshold is `100 * 2 ^ 19`
      have hpow : (2 : Int) ^ (p.level.toNat - 1) ≤ 2 ^ 19 := by
        exact_mod_cast Nat.pow_le_pow_right (by decide) (by unfold maxLevel at hmax; omega)
      have hpos : (0 : Int) < 2 ^ (p.level.toNat - 1) := Int.pow_pos (by decide)
      have hcost : p.getLevelUpExp = 100 * 2 ^ (p.level.toNat - 1) := rfl
      intro v hv
      rw [levelUpValues, List.mem_append] at hv
      rcases hv with hv | hv
      · simp only [List.mem_cons, List.not_mem_nil, or_false] at hv
        unfold FitsInt32
        omega
      · split at hv
        · next hup =>
            have hlevel := level_succ hup.2
            unfold maxLevel at hmax hup ih
            dsimp only at hv
            rcases List.mem_append.mp hv with hv | hv
            · simp only [List.mem_cons, List.not_mem_nil, or_false] at hv
              unfold FitsInt32
              omega
            · refine ih _ ?_ ?_ ?_ v hv
              · dsimp only
                omega
              · dsimp only
                omega
              · dsimp only
                omega
        · exact absurd hv List.not_mem_nil

/-- The sum of experience after a reward is that before it, or all that the
last level counts. -/
theorem le_levelTotal_gainExp (h : ValidStats p) {amount : Int} (ha : 0 ≤ amount)
    (hfits : p.exp + amount < 2 ^ 31) :
    p.level.toNat ≤ (p.gainExp amount).level.toNat ∧
      levelTotal p.level.toNat + p.exp ≤
        levelTotal (p.gainExp amount).level.toNat + (p.gainExp amount).exp := by
  obtain ⟨L, e, hadv, hr⟩ := gainExp_reaches h.level.1 h.level.2 h.exp.1 ha hfits
  rw [hadv, level_advance, exp_advance]
  refine ⟨hr.from_level, ?_⟩
  rcases Nat.lt_or_eq_of_le hr.le_max with hlt | heq
  · have := (hr.below hlt).2
    omega
  · have hzero := hr.top heq
    rcases Nat.lt_or_eq_of_le h.level.2 with hlt | htop
    · -- below the cap a player has less than the next level takes
      have hnext := levelTotal_succ h.level.1
      have hmono : levelTotal (p.level.toNat + 1) ≤ levelTotal L.toNat :=
        levelTotal_mono (by omega)
      have hexp := h.exp.2
      omega
    · rw [h.capped htop, hzero, heq, htop]

end Player

/-! ## A kill -/

/-- What a kill may not do to the arithmetic, nor to the killer. -/
structure RewardFits (m : Monster) (p : Player) : Prop where
  fits : ∀ v ∈ m.expRewardValues ++ p.gainExpValues m.getExpReward, FitsInt32 v
  level : p.level.toNat ≤ (p.gainExp m.getExpReward).level.toNat
  total : p.level.toNat < maxLevel → Player.levelTotal p.level.toNat + p.exp ≤
    Player.levelTotal (p.gainExp m.getExpReward).level.toNat + (p.gainExp m.getExpReward).exp

/-- **A reward fits if and only if the experience fits that it is added to**:
twice or four times the square of the monster's level, on top of what the
killer has. -/
theorem rewardFits_iff (m : Monster) {p : Player} (h : p.ValidStats) :
    RewardFits m p ↔ p.exp + m.rewardFactor * m.level.toNat ^ 2 < 2 ^ 31 := by
  show RewardFits m p ↔ p.exp + m.fullReward < 2 ^ 31
  have hexp := h.exp.1
  have hfull := m.fullReward_nonneg
  constructor
  · intro hfits
    -- the reward fits by itself, and then it is added to the experience
    have hreward : m.fullReward < 2 ^ 31 :=
      m.fits_expRewardValues_iff.mp fun v hv => hfits.fits v (List.mem_append_left _ hv)
    rw [← m.getExpReward_of_fits hreward]
    exact (hfits.fits _ (List.mem_append_right _ List.mem_cons_self)).2
  · intro hlt
    have hreward := m.getExpReward_of_fits (by omega)
    rw [← hreward] at hlt hfull
    obtain ⟨hlevel, htotal⟩ := Player.le_levelTotal_gainExp h hfull hlt
    refine ⟨fun v hv => ?_, hlevel, fun _ => htotal⟩
    rcases List.mem_append.mp hv with hv | hv
    · exact m.fits_expRewardValues_iff.mpr (by omega) v hv
    · rcases List.mem_cons.mp hv with rfl | hv
      · exact ⟨by omega, hlt⟩
      · exact Player.fits_levelUpValues maxLevel { p with exp := p.exp + m.getExpReward }
          h.level.1 h.level.2 ⟨Int.add_nonneg hexp hfull, hlt⟩ v hv

/-- A roaming monster of level 100, killed by a new character. -/
theorem rewardFits_iff_roaming :
    RewardFits (.make 1000000 ⟨[], 100, 50, .peace, .roaming, ⟨0, 0⟩⟩ ⟨0, 0⟩) (.make 0 0 [] 1 0) :=
  (rewardFits_iff _ (Player.validStats_make 0 0 [] 1 0)).mpr (by decide)

/-- A script with a monster of the highest level that its type has. -/
def highestLevel : LuaManager.LuaMonster :=
  ⟨[], 65535, 50, LuaManager.agro, LuaManager.roaming, some [(0, 0)]⟩

theorem mem_highestLevel : ⟨[], 65535, 50, .agro, .roaming, ⟨0, 0⟩⟩ ∈
    LuaManager.loadMonsterSpawns (some [highestLevel]) := by
  decide

/-- The square of its level alone does not fit. -/
theorem not_always_rewardFits :
    ¬ ∀ script, ∀ data ∈ LuaManager.loadMonsterSpawns script, ∀ id spawn (p : Player),
      p.ValidStats → RewardFits (.make id data spawn) p := by
  intro hall
  have hfits := (hall _ _ mem_highestLevel 1000000 ⟨0, 0⟩ _
    (Player.validStats_make 0 0 [] 1 0)).fits (65535 * 65535) List.mem_cons_self
  exact absurd hfits (by decide)

end Mmorpg
