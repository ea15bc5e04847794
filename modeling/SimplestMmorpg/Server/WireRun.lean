/-
Everything a server sends fits its packet.

The members of a packet have the types of the members they are filled from, so
nothing is lost on the way as long as the values are in the range of those
types. Positions come from walkable tiles, ids from the sessions and from the
script, and hit points only ever fall, or rise up to the maximum, which a row,
the script or a level gives. So it is enough that the rows and the script are in
range at the start (`fits_sent_run`).
-/
import SimplestMmorpg.Common.Wire
import SimplestMmorpg.Server.DataFlow

set_option autoImplicit false

namespace Mmorpg

open Packed Transition World

/-! ## In range -/

structure Player.Fits (p : Player) : Prop where
  id : p.id < 256 ^ 4
  pos : p.pos.Fits
  hp : Signed 32 p.hp
  maxHp : Signed 32 p.maxHp

structure Monster.Fits (m : Monster) : Prop where
  id : m.id < 256 ^ 4
  pos : m.pos.Fits
  hp : Signed 32 m.hp
  maxHp : Signed 32 m.maxHp

/-- The members of a row that a packet is filled from. -/
def PlayerRow.Fits (row : PlayerRow) : Prop := Signed 32 row.hp ∧ Signed 32 row.maxHp

/-- Everything is in the range of its type. -/
def fitRules (map : Map) : Rules where
  map := map
  player := Player.Fits
  monster := Monster.Fits
  row := PlayerRow.Fits
  packet := ScPacket.Fits
  env := fun env => env.indeterminate.Fits

variable {map : Map} {p q : Player} {m m' : Monster} {row : PlayerRow} {pos : Position} {w : World}
  {pkt : ScPacket} {obj : RemoteObject}

theorem fits_of_isWalkable (h : map.isWalkable pos.x pos.y = true) : pos.Fits := by
  have hin := map.inMap_of_isWalkable h
  unfold InMap mapWidth mapHeight at hin
  dsimp only at hin
  unfold Position.Fits Signed
  omega

theorem fits_origin : (⟨0, 0⟩ : Position).Fits := by
  unfold Position.Fits Signed
  decide

/-- The hit points of a new character. -/
theorem signed_hundred : Signed 32 100 ∧ Signed 32 100 := by
  unfold Signed
  decide

theorem textFits_strncpyTruncate {size : ℕ} (hsize : 0 < size) (src : Bytes) :
    TextFits size (strncpyTruncate size src) := by
  constructor
  · unfold strncpyTruncate
    rw [List.length_take]
    omega
  · intro hmem
    have hne := List.mem_takeWhile_imp (List.mem_of_mem_take hmem)
    simp at hne

/-- Damage leaves hit points between nothing and what there was. -/
theorem signed_takeDamage {hp dmg : Int} (h : Signed 32 hp) (hdmg : 0 ≤ dmg) :
    Signed 32 (if hp ≤ dmg then 0 else hp - dmg) := by
  unfold Signed at *
  split <;> omega

/-! ## Players -/

/-- A level gives its own hit points. -/
theorem signed_levelUp (fuel : ℕ) (h : Signed 32 p.hp ∧ Signed 32 p.maxHp) :
    Signed 32 (Player.levelUp fuel p).hp ∧ Signed 32 (Player.levelUp fuel p).maxHp := by
  induction fuel generalizing p with
  | zero => exact h
  | succ fuel ih =>
      rw [Player.levelUp]
      split
      · next hup =>
          have hlevel := Player.level_succ hup.2
          have hmax : Signed 32 (100 + (((p.level + 1).toNat : Int) - 1) * 50) := by
            unfold Signed
            unfold maxLevel at hup
            omega
          exact ih ⟨hmax, hmax⟩
      · exact h

theorem fits_restated {slain : Monster → Prop} (h : p.Fits) (hrestated : p.Restated map slain q) :
    q.Fits := by
  cases hrestated with
  | damaged dmg hdmg => exact ⟨h.id, h.pos, signed_takeDamage h.hp hdmg, h.maxHp⟩
  | rewarded m _ =>
      generalize m.getExpReward = amount
      have hident := p.ident_gainExp amount
      have hlevel := signed_levelUp (p := { p with exp := toInt32 (p.exp + amount) }) maxLevel
        ⟨h.hp, h.maxHp⟩
      have hstats : Signed 32 (p.gainExp amount).hp ∧ Signed 32 (p.gainExp amount).maxHp := by
        unfold Player.gainExp
        dsimp only
        split <;> exact hlevel
      refine ⟨?_, ?_, hstats.1, hstats.2⟩
      · rw [show (p.gainExp amount).id = p.id from congrArg Player.Ident.id hident]
        exact h.id
      · rw [show (p.gainExp amount).pos = p.pos from congrArg Player.Ident.pos hident]
        exact h.pos
  | healed halive hlow =>
      -- what is gained on top of positive hit points stops at the maximum
      have hregen : 0 ≤ regenAmount p.maxHp := regenAmount_nonneg (by omega)
      refine ⟨h.id, h.pos, ?_, h.maxHp⟩
      have hmax := h.maxHp
      unfold Signed at *
      unfold Player.regenHP
      dsimp only
      omega
  | revived pos hpos => exact ⟨h.id, fits_of_isWalkable hpos, h.maxHp, h.maxHp⟩

theorem fits_tweaked {c : Scope} {now : ℕ} (henv : c.env.indeterminate.Fits) (h : p.Fits)
    (htweak : p.Tweaked c map now q) : q.Fits := by
  cases htweak with
  | teleported pos hpos =>
      rcases hpos with hwalk | rfl
      · exact ⟨h.id, fits_of_isWalkable hwalk, h.hp, h.maxHp⟩
      · exact ⟨h.id, henv, h.hp, h.maxHp⟩
  | moved pos hact hpos => exact ⟨h.id, fits_of_isWalkable hpos, h.hp, h.maxHp⟩
  | attacked hact => exact ⟨h.id, h.pos, h.hp, h.maxHp⟩
  | chatted hact => exact ⟨h.id, h.pos, h.hp, h.maxHp⟩
  | regen active => exact ⟨h.id, h.pos, h.hp, h.maxHp⟩

/-! ## Monsters -/

theorem fits_edited (h : m.Fits) (hedit : m.Edited map m') : m'.Fits := by
  have hspec := hedit.spec
  have hmax : m'.maxHp = m.maxHp := congrArg Monster.Spec.maxHp hspec
  refine ⟨?_, ?_, ?_, ?_⟩
  · rw [hedit.id]
    exact h.id
  · rcases hedit.pos with hpos | hwalk
    · rw [hpos]
      exact h.pos
    · exact fits_of_isWalkable hwalk
  · rcases hedit.hp with hhp | hhp | ⟨dmg, hdmg, hhp⟩
    · rw [hhp]
      exact h.hp
    · rw [hhp]
      exact h.maxHp
    · rw [hhp]
      exact signed_takeDamage h.hp hdmg
  · rw [hmax]
    exact h.maxHp

/-! ## Packets -/

theorem Player.Fits.remote (h : p.Fits) : p.remote.Fits :=
  ⟨h.id, h.pos, h.hp, h.maxHp, textFits_strncpyTruncate (by decide) p.name⟩

theorem Monster.Fits.remote (h : m.Fits) : m.remote.Fits :=
  ⟨h.id, h.pos, h.hp, h.maxHp, textFits_strncpyTruncate (by decide) m.name⟩

theorem toUInt32_range (v : Int) : 0 ≤ toUInt32 v ∧ toUInt32 v < 256 ^ 4 := by
  unfold toUInt32
  omega

theorem fits_has (h : w.Meets (fitRules map)) (hobj : w.Has obj) : obj.Fits := by
  cases hobj with
  | player p hp => exact (h.players p.id p hp).remote
  | monster m hm => exact (h.monsters m.id m hm).remote

theorem fits_says (h : w.Meets (fitRules map)) (hsaid : w.Says pkt) : pkt.Fits := by
  cases hsaid with
  | add obj hobj => exact fits_has h hobj
  | remove obj hobj => exact (fits_has h hobj).id
  | move obj hobj moveTime ht =>
      have hfits := fits_has h hobj
      exact ⟨hfits.id, hfits.pos, ht⟩
  | effect obj hobj =>
      have hfits := fits_has h hobj
      exact ⟨hfits.id, hfits.pos⟩
  | combat attacker target ha ht level factor hlevel hfactor =>
      refine ⟨(fits_has h ha).id, (fits_has h ht).id, ?_⟩
      have hmul : level * factor ≤ 65535 * 10 := Nat.mul_le_mul (by omega) hfactor
      unfold Signed
      omega
  | chat p hp channel hc text =>
      exact ⟨(h.players p.id p hp).id, hc, textFits_strncpyTruncate (by decide) _,
        textFits_strncpyTruncate (by decide) _⟩

theorem fitRules_closed (map : Map) : (fitRules map).Closed where
  tweaked _ _ _ _ henv h htweak := fits_tweaked henv h htweak
  restated _ _ h hrestated := fits_restated h hrestated
  died _ h := ⟨h.id, fits_origin, h.maxHp, h.maxHp⟩
  edited _ _ h hedit := fits_edited h hedit
  said _ _ h hsaid := fits_says h hsaid
  stat p h := ⟨h.id, h.hp, h.maxHp, toUInt32_range p.exp⟩
  loginOk p h := ⟨h.id, h.pos, toUInt32_range p.exp, h.hp, h.maxHp⟩
  loginFail _ := trivial
  loaded row id conn serial pos h hid hwalk := by
    refine ⟨?_, fits_of_isWalkable hwalk, h.1, h.2⟩
    have hlt : id < 256 ^ 4 := Nat.lt_trans hid (by decide)
    exact hlt
  saved _ h := ⟨h.hp, h.maxHp⟩
  renamed _ _ h := h
  created _ _ := signed_hundred

namespace Server

/-- The script and the rows are in the range of their types, and no id of a
monster is beyond that of an object id. -/
structure FitsAtStart (spawns : List MonsterSpawnData) (store : PlayerStore) : Prop where
  ids : monsterIdOffset + spawns.length ≤ 256 ^ 4
  script : ∀ data ∈ spawns, Signed 32 data.maxHp
  rows : ∀ e ∈ store.rows, Signed 32 e.2.hp ∧ Signed 32 e.2.maxHp

/-- A coordinate that nothing was written to holds a value of its type. -/
def Event.Fits (e : Event) : Prop := ∀ env, e.env? = some env → env.indeterminate.Fits

theorem fits_sent_run {spawns : List MonsterSpawnData} {now : ℕ} {store : PlayerStore}
    {es : List Event} (hstart : FitsAtStart spawns store)
    (henv : ∀ e ∈ es, e.Fits) :
    ∀ x ∈ (run step (init map spawns now store) es).game.world.sent, x.2.Fits := by
  have hmeets : Meets (fitRules map) (run step (init map spawns now store) es) := by
    refine meets_run (fitRules_closed map) (fun data hdata k spawn hk hwalk => ?_) hstart.rows henv
    have hids := hstart.ids
    have hid : monsterIdOffset + k < 256 ^ 4 := by omega
    exact ⟨hid, fits_of_isWalkable hwalk, hstart.script data hdata, hstart.script data hdata⟩
  exact hmeets.world.sent

end Server

end Mmorpg
