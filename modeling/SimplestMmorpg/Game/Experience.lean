/-
What `GainExp` adds up to.

Counted from level 1, the experience of a player is `levelTotal` of its level
and what it has on top. The loop of `GainExp` moves from one to the other and
keeps the sum, so where it ends is fixed by the sum alone (`Reaches`): the
highest level that the sum pays for, and the rest, or nothing at the last
level. The hit points are refilled if there was a level at all, which is
`advance`. Two rewards in turn are then the same as their sum.

`m_exp += amount` is `int32_t` arithmetic. All this is about sums that fit.
-/
import SimplestMmorpg.Game.Player
import Mathlib.Order.Bounds.Basic

set_option autoImplicit false

namespace Mmorpg.Player

variable {p : Player} {L L' : UInt16} {e e' : Int}

/-! ## Levels and their cost -/

/-- The experience it takes to get from level 1 to `level`. -/
def levelTotal (level : ℕ) : Int := 100 * (2 ^ (level - 1) - 1)

theorem getLevelUpExp_pos (p : Player) : 0 < p.getLevelUpExp := by
  have hpow : (0 : Int) < 2 ^ (p.level.toNat - 1) := Int.pow_pos (by decide)
  exact Int.mul_pos (by decide) hpow

/-- `GetLevelUpExp` is what the next level takes. -/
theorem levelTotal_succ {level : ℕ} (h : 1 ≤ level) :
    levelTotal (level + 1) = levelTotal level + 100 * 2 ^ (level - 1) := by
  have hpow : (2 : Int) ^ level = 2 * 2 ^ (level - 1) := by
    rw [← Int.pow_succ', Nat.sub_add_cancel h]
  simp only [levelTotal, Nat.add_sub_cancel, hpow]
  omega

theorem levelTotal_mono {l l' : ℕ} (h : l ≤ l') : levelTotal l ≤ levelTotal l' := by
  have hpow : (2 : Int) ^ (l - 1) ≤ 2 ^ (l' - 1) := by
    exact_mod_cast Nat.pow_le_pow_right (by decide) (Nat.sub_le_sub_right h 1)
  unfold levelTotal
  omega

theorem level_succ (h : p.level.toNat < maxLevel) :
    (p.level + 1).toNat = p.level.toNat + 1 := by
  rw [UInt16.toNat_add]
  have hone : (1 : UInt16).toNat = 1 := rfl
  unfold maxLevel at h
  rw [hone]
  omega

/-! ## Stats -/

/-- What the stats of a player are at any time. -/
structure ValidStats (p : Player) : Prop where
  level : 1 ≤ p.level.toNat ∧ p.level.toNat ≤ maxLevel
  maxHp : p.maxHp = 100 + 50 * ((p.level.toNat : Int) - 1)
  hp : 0 ≤ p.hp ∧ p.hp ≤ p.maxHp
  exp : 0 ≤ p.exp ∧ p.exp < 100 * 2 ^ (p.level.toNat - 1)
  capped : p.level.toNat = maxLevel → p.exp = 0

/-- The defaults of the members are valid. -/
theorem validStats_make (id : ObjectID) (session : ConnId) (name : Bytes) (dbId : Int)
    (serial : ℕ) : ValidStats (make id session name dbId serial) where
  level := (by decide : 1 ≤ (1 : UInt16).toNat ∧ (1 : UInt16).toNat ≤ maxLevel)
  maxHp := rfl
  hp := (by decide : (0 : Int) ≤ 100 ∧ (100 : Int) ≤ 100)
  exp := ⟨le_rfl, (by decide : (0 : Int) < 100 * 2 ^ ((1 : UInt16).toNat - 1))⟩
  capped _ := rfl

/-! ## Where a sum leads -/

/-- A sum of `T` leads from `level` to the level `l` with `e` on top. -/
structure Reaches (T : Int) (level l : ℕ) (e : Int) : Prop where
  from_level : level ≤ l
  le_max : l ≤ maxLevel
  paid : levelTotal l ≤ T
  below : l < maxLevel → T < levelTotal (l + 1) ∧ e = T - levelTotal l
  top : l = maxLevel → e = 0

variable {T : Int} {level l l' : ℕ}

theorem Reaches.isGreatest (h : Reaches T level l e) :
    IsGreatest {k | level ≤ k ∧ k ≤ maxLevel ∧ levelTotal k ≤ T} l := by
  refine ⟨⟨h.from_level, h.le_max, h.paid⟩, ?_⟩
  rintro k ⟨-, hk, hpaid⟩
  by_contra hlt
  rw [Nat.not_le] at hlt
  -- a higher level would have to be paid for too
  have hbelow := (h.below (Nat.lt_of_lt_of_le hlt hk)).1
  have hmono : levelTotal (l + 1) ≤ levelTotal k := levelTotal_mono hlt
  omega

theorem Reaches.unique (h : Reaches T level l e) (h' : Reaches T level l' e') :
    l = l' ∧ e = e' := by
  obtain rfl := h.isGreatest.unique h'.isGreatest
  refine ⟨rfl, ?_⟩
  -- below the last level the rest is fixed by the sum, at the last one it is zero
  rcases Nat.lt_or_eq_of_le h.le_max with hlt | heq
  · rw [(h.below hlt).2, (h'.below hlt).2]
  · rw [h.top heq, h'.top heq]

/-- Going on from where a sum led to is going there with both sums. -/
theorem Reaches.more {l₁ : ℕ} {e₁ b : Int} (h : Reaches T level l₁ e₁) (hb : 0 ≤ b)
    (h' : Reaches (levelTotal l₁ + e₁ + b) l₁ l e) : Reaches (T + b) level l e := by
  rcases Nat.lt_or_eq_of_le h.le_max with hlt | heq
  · have hsum : levelTotal l₁ + e₁ + b = T + b := by
      rw [(h.below hlt).2]
      omega
    rw [hsum] at h'
    exact ⟨h.from_level.trans h'.from_level, h'.le_max, h'.paid, h'.below, h'.top⟩
  · -- whoever is at the last level stays there, and what comes on top is lost
    have hl : l = maxLevel := le_antisymm h'.le_max (heq ▸ h'.from_level)
    have hpaid := h.paid
    rw [heq] at hpaid
    refine ⟨h.from_level.trans h'.from_level, h'.le_max, ?_, fun hlt => ?_, h'.top⟩
    · rw [hl]
      omega
    · omega

/-! ## The loop -/

/-- The player at another level, with the hit points of that level; at the
same level only the experience is another. -/
def advance (p : Player) (L : UInt16) (e : Int) : Player :=
  if L = p.level then { p with exp := e }
  else
    { p with
      exp := e
      level := L
      maxHp := 100 + (L.toNat - 1) * 50
      hp := 100 + (L.toNat - 1) * 50 }

@[simp] theorem level_advance (p : Player) (L : UInt16) (e : Int) :
    (p.advance L e).level = L := by
  unfold advance
  split
  · next h => exact h.symm
  · rfl

@[simp] theorem exp_advance (p : Player) (L : UInt16) (e : Int) : (p.advance L e).exp = e := by
  unfold advance
  split <;> rfl

theorem advance_self (p : Player) : p.advance p.level p.exp = p := if_pos rfl

/-- Only the last of two advances counts, as levels are never lost. -/
theorem advance_advance (h : p.level.toNat ≤ L.toNat) (h' : L.toNat ≤ L'.toNat) :
    (p.advance L e).advance L' e' = p.advance L' e' := by
  -- the hit points are those of the last level, unless there was no level
  by_cases hL : L = p.level
  · subst hL
    unfold advance
    rw [if_pos rfl]
  · have hL' : L' ≠ p.level := by
      rintro rfl
      exact hL (UInt16.toNat_inj.mp (Nat.le_antisymm h' h))
    unfold advance
    rw [if_neg hL, if_neg hL']
    dsimp only
    split
    · next heq => rw [heq]
    · rfl

/-- The loop keeps the sum, and with enough rounds it ends below the next level
or at the last one. -/
theorem levelUp_eq (fuel : ℕ) (p : Player) (hmin : 1 ≤ p.level.toNat)
    (hmax : p.level.toNat ≤ maxLevel) (hexp : 0 ≤ p.exp) (hfuel : maxLevel ≤ p.level.toNat + fuel) :
    ∃ L e, levelUp fuel p = p.advance L e ∧ p.level.toNat ≤ L.toNat ∧ L.toNat ≤ maxLevel ∧
      0 ≤ e ∧ levelTotal L.toNat + e = levelTotal p.level.toNat + p.exp ∧
      (L.toNat < maxLevel → e < 100 * 2 ^ (L.toNat - 1)) := by
  -- a round gains one level, so `maxLevel` rounds are enough
  induction fuel generalizing p with
  | zero =>
      refine ⟨p.level, p.exp, (advance_self p).symm, le_rfl, hmax, hexp, rfl, fun hlt => ?_⟩
      omega
  | succ n ih =>
      rw [levelUp]
      split
      · next hup =>
          have hlevel := level_succ hup.2
          have htotal := levelTotal_succ hmin
          have hcost : p.getLevelUpExp = 100 * 2 ^ (p.level.toNat - 1) := rfl
          -- one level of the loop is one advance
          have hone : { p with
              exp := p.exp - p.getLevelUpExp
              level := p.level + 1
              maxHp := 100 + (((p.level + 1).toNat : Int) - 1) * 50
              hp := 100 + (((p.level + 1).toNat : Int) - 1) * 50 } =
              p.advance (p.level + 1) (p.exp - p.getLevelUpExp) := by
            have hne : p.level + 1 ≠ p.level := by
              intro he
              rw [he] at hlevel
              omega
            rw [advance, if_neg hne]
          dsimp only
          rw [hone]
          obtain ⟨L, e, hrun, hle, hL, he, hsum, hend⟩ := ih
            (p.advance (p.level + 1) (p.exp - p.getLevelUpExp))
            (by rw [level_advance]; omega) (by rw [level_advance]; omega)
            (by rw [exp_advance]; omega) (by rw [level_advance]; omega)
          rw [level_advance] at hle hsum
          rw [exp_advance, hlevel] at hsum
          refine ⟨L, e, ?_, by omega, hL, he, by omega, hend⟩
          rw [hrun]
          exact advance_advance (by omega) hle
      · next hstop =>
          refine ⟨p.level, p.exp, (advance_self p).symm, le_rfl, hmax, hexp, rfl, fun hlt => ?_⟩
          exact Int.not_le.mp fun hle => hstop ⟨hle, hlt⟩

/-- **`GainExp`** takes a player to where its sum leads. -/
theorem gainExp_reaches (hmin : 1 ≤ p.level.toNat) (hmax : p.level.toNat ≤ maxLevel)
    (hexp : 0 ≤ p.exp) {amount : Int} (ha : 0 ≤ amount) (hfits : p.exp + amount < 2 ^ 31) :
    ∃ L e, p.gainExp amount = p.advance L e ∧
      Reaches (levelTotal p.level.toNat + p.exp + amount) p.level.toNat L.toNat e := by
  obtain ⟨L, e, hrun, hle, hL, he, hsum, hend⟩ := levelUp_eq maxLevel
    { p with exp := p.exp + amount } hmin hmax (Int.add_nonneg hexp ha) (Nat.le_add_left _ _)
  dsimp only at hle hsum
  have hadv : ({ p with exp := p.exp + amount } : Player).advance L e = p.advance L e := rfl
  rw [hadv] at hrun
  unfold gainExp
  dsimp only
  rw [toInt32_of_range (by omega) hfits, hrun]
  -- at the last level the rest is dropped after the loop
  split
  · next htop =>
      rw [level_advance] at htop
      refine ⟨L, 0, ?_, hle, hL, by omega, fun hlt => absurd htop (by omega), fun _ => rfl⟩
      unfold advance
      split <;> rfl
  · next htop =>
      rw [level_advance] at htop
      have hbelow := hend (Nat.not_le.mp htop)
      have hnext := levelTotal_succ (hmin.trans hle)
      exact ⟨L, e, rfl, hle, hL, by omega, fun _ => ⟨by omega, by omega⟩,
        fun heq => absurd heq.ge htop⟩

/-- Two rewards leave the player that their sum leaves. -/
theorem gainExp_add (hmin : 1 ≤ p.level.toNat) (hmax : p.level.toNat ≤ maxLevel)
    (hexp : 0 ≤ p.exp) {a b : Int} (ha : 0 ≤ a) (hb : 0 ≤ b) (hfits : p.exp + a + b < 2 ^ 31) :
    (p.gainExp a).gainExp b = p.gainExp (a + b) := by
  obtain ⟨L₁, e₁, h₁, hr₁⟩ := gainExp_reaches hmin hmax hexp ha (by omega)
  obtain ⟨L, e, h, hr⟩ := gainExp_reaches hmin hmax hexp (Int.add_nonneg ha hb) (by omega)
  have hle := hr₁.from_level
  -- the second reward starts from valid experience again, and no more than there was
  have he₁ : 0 ≤ e₁ ∧ e₁ ≤ p.exp + a := by
    rcases Nat.lt_or_eq_of_le hr₁.le_max with hlt | heq
    · have := (hr₁.below hlt).2
      have := hr₁.paid
      have := levelTotal_mono hle
      omega
    · have := hr₁.top heq
      omega
  obtain ⟨L₂, e₂, h₂, hr₂⟩ := gainExp_reaches (p := p.advance L₁ e₁)
    (by rw [level_advance]; omega) (by rw [level_advance]; exact hr₁.le_max)
    (by rw [exp_advance]; exact he₁.1) hb (by rw [exp_advance]; omega)
  rw [level_advance, exp_advance] at hr₂
  have hmore := hr₁.more hb hr₂
  rw [Int.add_assoc _ a b] at hmore
  obtain ⟨hlevel, rfl⟩ := hmore.unique hr
  obtain rfl := UInt16.toNat_inj.mp hlevel
  rw [h₁, h₂, h]
  exact advance_advance hle hr₂.from_level

/-- **Experience adds up**: two rewards in turn give the level, the experience
and the hit points of one reward, the level is the highest that the sum pays
for, and the experience is the rest. -/
theorem gainExp_twice (p : Player) (a b : ℕ) (hmin : 1 ≤ p.level.toNat)
    (hmax : p.level.toNat ≤ maxLevel) (hexp : 0 ≤ p.exp) (hfits : p.exp + a + b < 2 ^ 31) :
    let q := (p.gainExp a).gainExp b
    let r := p.gainExp (a + b)
    let T := levelTotal p.level.toNat + p.exp + a + b
    (q.level = r.level ∧ q.exp = r.exp ∧ q.hp = r.hp ∧ q.maxHp = r.maxHp) ∧
      IsGreatest {L | p.level.toNat ≤ L ∧ L ≤ maxLevel ∧ levelTotal L ≤ T} r.level.toNat ∧
      r.exp = if r.level.toNat < maxLevel then T - levelTotal r.level.toNat else 0 := by
  have ha : (0 : Int) ≤ a := Int.natCast_nonneg a
  have hb : (0 : Int) ≤ b := Int.natCast_nonneg b
  intro q r T
  have hq : q = r := gainExp_add hmin hmax hexp ha hb hfits
  obtain ⟨L, e, h, hr⟩ := gainExp_reaches hmin hmax hexp (Int.add_nonneg ha hb) (by omega)
  have hT : levelTotal p.level.toNat + p.exp + (a + b : Int) = T := (Int.add_assoc _ _ _).symm
  rw [hT] at hr
  have hlevel : r.level = L := by rw [show r = p.advance L e from h, level_advance]
  have hrexp : r.exp = e := by rw [show r = p.advance L e from h, exp_advance]
  rw [hq, hlevel, hrexp]
  refine ⟨⟨rfl, rfl, rfl, rfl⟩, hr.isGreatest, ?_⟩
  split
  · next hlt => exact (hr.below hlt).2
  · next hge => exact hr.top (le_antisymm hr.le_max (Nat.not_lt.mp hge))

/-- A new character that gains 250 and then 60: two levels, at 100 and at 300
in all. -/
theorem gainExp_twice_newcomer :
    let p := make 0 0 [] 1 0
    (p.gainExp 250).gainExp 60 = p.gainExp 310 ∧ (p.gainExp 310).level = 3 ∧
      (p.gainExp 310).exp = 10 := by
  have h := gainExp_twice (make 0 0 [] 1 0) 250 60 (by decide) (by decide) (by decide) (by decide)
  refine ⟨by decide, UInt16.toNat_inj.mp (h.2.1.unique ⟨by decide, fun k hk => ?_⟩), by decide⟩
  have hpaid : levelTotal k ≤ 310 := hk.2.2
  by_contra hlt
  have hmono : levelTotal 4 ≤ levelTotal k := levelTotal_mono (Nat.not_le.mp hlt)
  have hfour : levelTotal 4 = 700 := by decide
  omega

end Mmorpg.Player
