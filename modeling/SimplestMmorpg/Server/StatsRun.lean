/-
The stats of every character, and the arithmetic of every reward, on a running
server.

`Server/CharacterStats` follows one character from method to method. Here it is
one among all the others of a server: its stats are valid while it plays, while
its save waits, in the store, and in the result of a login that is on its way,
whatever the clients send and whichever database operation fails.

The experience of a player stays below what the last level takes. If the levels
in the script leave room for that in an `int32_t`, no reward overflows.
-/
import SimplestMmorpg.Server.CharacterStats
import SimplestMmorpg.Server.DataFlow

set_option autoImplicit false

namespace Mmorpg

open Transition

/-- The stats a row makes a player with. -/
def PlayerRow.ValidStats (row : PlayerRow) : Prop := (Player.ofRow 0 0 row 0).ValidStats

/-- The largest reward of a level, on top of the experience of any player, fits
an `int32_t`. -/
def MonsterSpawnData.RewardFits (data : MonsterSpawnData) : Prop :=
  4 * (data.level.toNat : Int) ^ 2 + 100 * 2 ^ (maxLevel - 1) ≤ 2 ^ 31

/-- The same for a monster with its own factor. -/
def Monster.RewardBounded (m : Monster) : Prop :=
  m.fullReward + 100 * 2 ^ (maxLevel - 1) ≤ 2 ^ 31

/-- Stats are valid, and rewards are bounded. -/
def statRules (map : Map) : Rules where
  map := map
  player := Player.ValidStats
  monster := Monster.RewardBounded
  row := PlayerRow.ValidStats
  packet := fun _ => True
  env := fun _ => True

variable {map : Map} {p q : Player} {m m' : Monster} {row : PlayerRow}

/-! ## The rules are closed -/

theorem PlayerRow.ValidStats.ofRow (h : row.ValidStats) (id : ObjectID) (conn : ConnId)
    (serial : ℕ) (pos : Position) : ((Player.ofRow id conn row serial).setPos pos).ValidStats :=
  Player.ValidStats.congr h ⟨rfl, rfl, rfl, rfl⟩

theorem validStats_snapshot (h : p.ValidStats) : p.snapshot.ValidStats :=
  have hsame : p.snapshot.SameState p.snapshot := rfl
  h.congr (Player.sameStats_ofRow p hsame 0 0 0 ⟨0, 0⟩)

theorem validStats_tweaked {c : Scope} {now : ℕ} (h : p.ValidStats)
    (htweak : p.Tweaked c map now q) : q.ValidStats := by
  apply h.congr
  cases htweak <;> exact ⟨rfl, rfl, rfl, rfl⟩

theorem validStats_die (h : p.ValidStats) : p.die.ValidStats := by
  rw [← p.die_single]
  exact h.dieWith

/-- A player with valid stats has less experience than the last level takes, so
a bounded reward can be added to it. -/
theorem fits_gain (h : p.ValidStats) (hm : m.RewardBounded) :
    m.getExpReward = m.fullReward ∧ p.exp + m.getExpReward < 2 ^ 31 := by
  have hpow : (2 : Int) ^ (p.level.toNat - 1) ≤ 2 ^ (maxLevel - 1) := by
    exact_mod_cast Nat.pow_le_pow_right (by decide) (Nat.sub_le_sub_right h.level.2 1)
  have hexp := h.exp
  unfold Monster.RewardBounded at hm
  have hreward := m.getExpReward_of_fits (by omega)
  exact ⟨hreward, by omega⟩

theorem validStats_restated (h : p.ValidStats)
    (hrestated : p.Restated map Monster.RewardBounded q) : q.ValidStats := by
  cases hrestated with
  | damaged dmg hdmg =>
      obtain ⟨n, rfl⟩ := Int.eq_ofNat_of_zero_le hdmg
      exact h.takeDamage n
  | rewarded m hm =>
      obtain ⟨hreward, hfits⟩ := fits_gain h hm
      exact h.gainExp (hreward ▸ m.fullReward_nonneg) hfits
  | healed halive hlow =>
      rw [← p.regenHP_single]
      exact h.regenHPWith
  | revived pos hpos => exact (validStats_die h).congr ⟨rfl, rfl, rfl, rfl⟩

/-- A monster keeps its level and its ways. -/
theorem rewardBounded_edited (h : m.RewardBounded) (hedit : m.Edited map m') :
    m'.RewardBounded := by
  have hspec := hedit.spec
  have hreward : m'.fullReward = m.fullReward := by
    unfold Monster.fullReward Monster.rewardFactor
    rw [show m'.level = m.level from congrArg Monster.Spec.level hspec,
      show m'.behavior = m.behavior from congrArg Monster.Spec.behavior hspec,
      show m'.movement = m.movement from congrArg Monster.Spec.movement hspec]
  unfold Monster.RewardBounded
  rw [hreward]
  exact h

theorem rewardBounded_make {data : MonsterSpawnData} (h : data.RewardFits) (id : ObjectID)
    (spawn : Position) : (Monster.make id data spawn).RewardBounded := by
  have hsq : (0 : Int) ≤ (data.level.toNat : Int) * data.level.toNat :=
    Int.mul_nonneg (Int.natCast_nonneg _) (Int.natCast_nonneg _)
  have hpow : (data.level.toNat : Int) ^ 2 = data.level.toNat * data.level.toNat := by
    rw [Int.pow_succ, Int.pow_succ, Int.pow_zero, Int.one_mul]
  unfold MonsterSpawnData.RewardFits at h
  rw [hpow] at h
  unfold Monster.RewardBounded
  rw [Monster.fullReward_eq]
  unfold Monster.make
  dsimp only
  split <;> omega

theorem statRules_closed (map : Map) : (statRules map).Closed where
  tweaked _ _ _ _ _ h htweak := validStats_tweaked h htweak
  restated _ _ h hrestated := validStats_restated h hrestated
  died _ h := (validStats_die h).congr ⟨rfl, rfl, rfl, rfl⟩
  edited _ _ h hedit := rewardBounded_edited h hedit
  said _ _ _ _ := trivial
  stat _ _ := trivial
  loginOk _ _ := trivial
  loginFail _ := trivial
  loaded _ id conn serial pos h _ _ := h.ofRow id conn serial pos
  saved _ h := validStats_snapshot h
  renamed _ _ h := h.congr ⟨rfl, rfl, rfl, rfl⟩
  created id name := (Player.validStats_make 0 0 name id 0).congr ⟨rfl, rfl, rfl, rfl⟩

/-! ## Runs -/

/-- A bounded reward overflows nowhere. -/
theorem fits_reward (h : p.ValidStats) (hm : m.RewardBounded) :
    ∀ v ∈ m.expRewardValues ++ p.gainExpValues m.getExpReward, FitsInt32 v := by
  have hbound := hm
  unfold Monster.RewardBounded at hbound
  have hexp := h.exp.1
  have hfull := m.fullReward_nonneg
  obtain ⟨hreward, hlt⟩ := fits_gain h hm
  have hsum : 0 ≤ p.exp + m.getExpReward ∧ p.exp + m.getExpReward < 2 ^ 31 := by omega
  intro v hv
  rcases List.mem_append.mp hv with hv | hv
  · exact m.fits_expRewardValues_iff.mpr (by omega) v hv
  · rcases List.mem_cons.mp hv with rfl | hv
    · exact ⟨by omega, hsum.2⟩
    · exact Player.fits_levelUpValues maxLevel { p with exp := p.exp + m.getExpReward } h.level.1
        h.level.2 hsum v hv

namespace Server

/-- The stats are valid wherever there are any, and no kill overflows. -/
structure StatsSound (s : Server) : Prop where
  playing : ∀ i p, s.game.world.getPlayer i = some p → p.ValidStats
  stored : ∀ e ∈ s.store.rows, e.2.ValidStats
  loaded : ∀ c ∈ s.completions, ∀ row, c.result = .loaded row → row.ValidStats
  waiting : ∀ row stamp, SaveTask.savePlayer row stamp ∈ s.game.saveQueue → row.ValidStats
  reward : ∀ i p k m, s.game.world.getPlayer i = some p → s.game.world.getMonster k = some m →
    ∀ v ∈ m.expRewardValues ++ p.gainExpValues m.getExpReward, FitsInt32 v

/-- **The stats of every character are valid in every reachable state**, in the
world, in the queues and in the store, and no reward can overflow, if the rows
at the start are valid and the script leaves room for the rewards. -/
theorem statsSound_run (map : Map) {spawns : List MonsterSpawnData} (now : ℕ)
    {store : PlayerStore} (hspawns : ∀ data ∈ spawns, data.RewardFits)
    (hrows : ∀ e ∈ store.rows, e.2.ValidStats) (es : List Event) :
    StatsSound (run step (init map spawns now store) es) := by
  have hmeets : Meets (statRules map) (run step (init map spawns now store) es) :=
    meets_run (statRules_closed map)
      (fun data hdata k spawn _ _ => rewardBounded_make (hspawns data hdata) _ spawn) hrows
      fun _ _ _ _ => trivial
  exact ⟨hmeets.world.players, hmeets.stored, hmeets.loaded, hmeets.tasks,
    fun i p k m hp hm => fits_reward (hmeets.world.players i p hp) (hmeets.world.monsters k m hm)⟩

/-- A character logs in next to a rat of level 20 000. -/
theorem statsSound_run_oneLogin :
    let rat : MonsterSpawnData := ⟨[114, 97, 116], 20000, 60, .agro, .fixed, ⟨5, 5⟩⟩
    StatsSound (run step (init openField [rat] 0 .init) oneLogin) :=
  statsSound_run openField 0 (by
    intro data hdata
    rw [List.mem_singleton.mp hdata]
    unfold MonsterSpawnData.RewardFits
    decide) (fun e he => absurd he List.not_mem_nil) oneLogin

end Server

end Mmorpg
