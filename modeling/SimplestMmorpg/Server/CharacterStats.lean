/-
The stats of a character from its creation on, through fights and logins.

A `Career` is a player and the store its row is in. A step of it is one of the
methods that change what is saved, each under the player's lock, or a login
again: a snapshot that is saved, loaded and made a player, with nothing in
between. In which order the methods of several workers come is thereby any
order. Between them the rows of other characters come and change.

Of the two products with a `float` only the bounds are used, so they are a
parameter. The products in single precision keep to the bounds, and with them
the methods are those of the player (`die_single`, `regenHP_single`).
-/
import SimplestMmorpg.Game.Login
import SimplestMmorpg.Race.Snapshots

set_option autoImplicit false

namespace Mmorpg

/-- The two products of an integer and a `float`, truncated. -/
structure FloatProducts where
  /-- `static_cast<int32_t>(m_maxHp * HP_REGEN_RATE)` -/
  regen : Int → Int
  /-- `static_cast<int32_t>(m_exp * (1.0f - DEATH_EXP_PENALTY))` -/
  left : Int → Int
  regen_bounds : ∀ n, 0 ≤ n → 0 ≤ regen n ∧ regen n ≤ n
  left_bounds : ∀ n, 0 ≤ n → 0 ≤ left n ∧ left n ≤ n

theorem regenAmount_le {n : Int} (h : 0 ≤ n) : regenAmount n ≤ n := by
  obtain ⟨k, rfl⟩ := Int.eq_ofNat_of_zero_le h
  unfold regenAmount
  rcases Nat.eq_zero_or_pos k with rfl | hpos
  · decide
  · -- each of the two roundings at most doubles
    have hinner := roundBits_le k
    have houter := roundBits_le (roundBits k * hpRegenRate)
    rw [Int.sign_eq_one_of_pos (by omega), Int.natAbs_natCast, Int.one_mul]
    unfold hpRegenRate at *
    omega

/-- The products in single precision. -/
def FloatProducts.single : FloatProducts where
  regen := regenAmount
  left := expAfterDeath
  regen_bounds _ h := ⟨regenAmount_nonneg h, regenAmount_le h⟩
  left_bounds _ h := expAfterDeath_bounds h

namespace Player

variable (p : Player) (fp : FloatProducts)

/-- `Die`. -/
def dieWith : Player := { p with exp := fp.left p.exp, pos := ⟨0, 0⟩, hp := p.maxHp }

/-- `RegenHP`. -/
def regenHPWith : Player := { p with hp := min (p.hp + fp.regen p.maxHp) p.maxHp }

theorem die_single : p.dieWith .single = p.die := rfl

theorem regenHP_single : p.regenHPWith .single = p.regenHP := rfl

/-- The stats of `q` are those of `p`. -/
structure SameStats (q p : Player) : Prop where
  level : q.level = p.level
  exp : q.exp = p.exp
  hp : q.hp = p.hp
  maxHp : q.maxHp = p.maxHp

namespace ValidStats

variable {p q : Player} {fp : FloatProducts}

theorem sound (h : ValidStats p) : Sound p := ⟨h.level, h.hp, h.maxHp, h.exp⟩

theorem of_sound (h : Sound p) (hcap : p.level.toNat = maxLevel → p.exp = 0) : ValidStats p :=
  ⟨h.level, h.maxHp, h.hp, h.exp, hcap⟩

theorem congr (h : ValidStats p) (hq : SameStats q p) : ValidStats q := by
  obtain ⟨hlevel, hexp, hhp, hmaxHp⟩ := hq
  constructor
  · rw [hlevel]
    exact h.level
  · rw [hmaxHp, hlevel]
    exact h.maxHp
  · rw [hhp, hmaxHp]
    exact h.hp
  · rw [hexp, hlevel]
    exact h.exp
  · rw [hexp, hlevel]
    exact h.capped

theorem gainExp (h : ValidStats p) {amount : Int} (hamount : 0 ≤ amount)
    (hfits : p.exp + amount < 2 ^ 31) : ValidStats (p.gainExp amount) := by
  refine of_sound (h.sound.gainExp hamount hfits) fun htop => ?_
  obtain ⟨L, e, hadv, hr⟩ := gainExp_reaches h.level.1 h.level.2 h.exp.1 hamount hfits
  rw [hadv, level_advance] at htop
  rw [hadv, exp_advance]
  exact hr.top htop

theorem takeDamage (h : ValidStats p) (dmg : ℕ) : ValidStats (p.takeDamage dmg) :=
  of_sound (h.sound.takeDamage dmg) h.capped

theorem regenHPWith (h : ValidStats p) : ValidStats (p.regenHPWith fp) := by
  have hhp := h.hp
  have hregen := fp.regen_bounds p.maxHp (hhp.1.trans hhp.2)
  refine ⟨h.level, h.maxHp, ?_, h.exp, h.capped⟩
  unfold Player.regenHPWith
  dsimp only
  omega

theorem dieWith (h : ValidStats p) : ValidStats (p.dieWith fp) := by
  have hexp := h.exp
  have hleft := fp.left_bounds p.exp hexp.1
  refine ⟨h.level, h.maxHp, ⟨h.hp.1.trans h.hp.2, le_rfl⟩,
    ⟨hleft.1, lt_of_le_of_lt hleft.2 hexp.2⟩, fun htop => ?_⟩
  -- half of nothing is nothing
  have hzero := h.capped htop
  show fp.left p.exp = 0
  omega

end ValidStats

/-- A row with what was saved of a player makes a player with the same stats. -/
theorem sameStats_ofRow {row : PlayerRow} (h : row.SameState p.snapshot) (id : ObjectID)
    (conn : ConnId) (serial : ℕ) (spawn : Position) :
    SameStats ((ofRow id conn row serial).setPos spawn) p := by
  have hrow : row = { p.snapshot with name := row.name } := by
    rw [← h]
  rw [hrow]
  exact ⟨rfl, rfl, rfl, rfl⟩

end Player

/-! ## Careers -/

/-- A character: its player, and the store with its row. -/
structure Career where
  player : Player
  store : PlayerStore

namespace Career

/-- One method of the player, a login again, or a write of another character. -/
inductive Step (fp : FloatProducts) (c : Career) : Career → Prop where
  | gainExp (amount : ℕ) (hfits : c.player.exp + amount < 2 ^ 31) :
      Step fp c { c with player := c.player.gainExp amount }
  | takeDamage (dmg : ℕ) : Step fp c { c with player := c.player.takeDamage dmg }
  | regenHP : Step fp c { c with player := c.player.regenHPWith fp }
  | die : Step fp c { c with player := c.player.dieWith fp }
  | login {store : PlayerStore} {row : PlayerRow} {w v : World} {id : ObjectID} {conn : ConnId}
      {q : Player} (hsave : c.store.savePlayer c.player.snapshot = some store)
      (hload : store.loadPlayerByName c.player.name = some row)
      (hadd : w.addPlayer id conn row = some v) (hq : v.getPlayer id = some q) :
      Step fp c ⟨q, store⟩
  | otherCreated {store : PlayerStore} {name : Bytes} {newId : Int}
      (hcreate : c.store.createPlayer name = some (store, newId)) :
      Step fp c { c with store := store }
  | otherSaved {store : PlayerStore} {row : PlayerRow} (hne : row.id ≠ c.player.dbId)
      (hsave : c.store.savePlayer row = some store) : Step fp c { c with store := store }

/-- The player made from the row of a character that was just created. -/
def IsNew (c : Career) : Prop :=
  ∃ (store : PlayerStore) (name : Bytes) (newId : Int) (w v : World) (id : ObjectID)
    (conn : ConnId),
    store.createPlayer name = some (c.store, newId) ∧
    w.addPlayer id conn ⟨newId, name, 1, 0, 100, 100, 0, 0⟩ = some v ∧
    v.getPlayer id = some c.player

/-- Under the player's name stands the player's row. -/
def OwnsRow (c : Career) : Prop :=
  ∃ row, (c.player.name, row) ∈ c.store.rows ∧ row.id = c.player.dbId

variable {fp : FloatProducts} {c c' : Career}

/-- **A character that logs in again is who it was**, with the stats it had. -/
theorem login_same (h : c.OwnsRow) {store : PlayerStore} {row : PlayerRow} {w v : World}
    {id : ObjectID} {conn : ConnId} {q : Player}
    (hsave : c.store.savePlayer c.player.snapshot = some store)
    (hload : store.loadPlayerByName c.player.name = some row)
    (hadd : w.addPlayer id conn row = some v) (hq : v.getPlayer id = some q) :
    Player.SameStats q c.player ∧ (Career.mk q store).OwnsRow := by
  obtain ⟨old, hold, hid⟩ := h
  have hmem := PlayerStore.mem_of_loadPlayerByName hload
  have hstate : row.SameState c.player.snapshot := by
    rcases (PlayerStore.savePlayer_eq_some hsave).2 _ hmem with ⟨hstate, -⟩ | ⟨hmem', hne⟩
    · exact hstate
    · -- the row under the name was the character's before the save
      obtain rfl := (Prod.mk.inj (PlayerStore.eq_of_name hold hmem' rfl)).2
      exact absurd hid hne
  have hname : row.name = c.player.name := PlayerStore.name_of_savePlayer hsave hmem hstate.id
  -- the spawn tile is all that the login adds to the row
  obtain ⟨spawn, hget⟩ := World.getPlayer_addPlayer hadd
  have hplayer := (hget id).symm.trans hq
  rw [if_pos rfl] at hplayer
  obtain rfl := Option.some.inj hplayer
  refine ⟨Player.sameStats_ofRow c.player hstate id conn _ spawn, row, ?_, rfl⟩
  have hkey : ((Player.ofRow id conn row w.nextSerial).setPos spawn).name = c.player.name := hname
  rw [hkey]
  exact hmem

theorem IsNew.ownsRow (h : c.IsNew) : c.OwnsRow := by
  obtain ⟨store, name, newId, w, v, id, conn, hcreate, hadd, hq⟩ := h
  obtain ⟨-, -, hrows⟩ := PlayerStore.createPlayer_eq_some hcreate
  obtain ⟨spawn, hget⟩ := World.getPlayer_addPlayer hadd
  have hplayer := (hget id).symm.trans hq
  rw [if_pos rfl] at hplayer
  rw [OwnsRow, hrows, ← Option.some.inj hplayer]
  exact ⟨_, List.mem_append_right _ (List.mem_singleton_self _), rfl⟩

theorem IsNew.validStats (h : c.IsNew) : c.player.ValidStats := by
  obtain ⟨store, name, newId, w, v, id, conn, -, hadd, hq⟩ := h
  obtain ⟨spawn, hget⟩ := World.getPlayer_addPlayer hadd
  have hplayer := (hget id).symm.trans hq
  rw [if_pos rfl] at hplayer
  rw [← Option.some.inj hplayer]
  exact (Player.validStats_make 0 0 [] 0 0).congr ⟨rfl, rfl, rfl, rfl⟩

/-- One step keeps the stats valid, and takes no level. -/
theorem Step.keeps (hs : c.Step fp c') (howns : c.OwnsRow) (h : c.player.ValidStats) :
    c'.OwnsRow ∧ c'.player.ValidStats ∧ c.player.level.toNat ≤ c'.player.level.toNat := by
  cases hs with
  | gainExp amount hfits =>
      have hamount := Int.natCast_nonneg amount
      have hident := Player.ident_gainExp c.player amount
      rw [Player.ident, Player.ident, Player.Ident.mk.injEq] at hident
      obtain ⟨-, -, hdbId, hname, -⟩ := hident
      obtain ⟨L, e, hadv, hr⟩ := Player.gainExp_reaches h.level.1 h.level.2 h.exp.1
        hamount hfits
      refine ⟨?_, h.gainExp hamount hfits, ?_⟩
      · rw [OwnsRow, hname, hdbId]
        exact howns
      · rw [hadv, Player.level_advance]
        exact hr.from_level
  | takeDamage dmg => exact ⟨howns, h.takeDamage dmg, le_rfl⟩
  | regenHP => exact ⟨howns, h.regenHPWith, le_rfl⟩
  | die => exact ⟨howns, h.dieWith, le_rfl⟩
  | login hsave hload hadd hq =>
      obtain ⟨hsame, howns'⟩ := login_same howns hsave hload hadd hq
      exact ⟨howns', h.congr hsame, (congrArg UInt16.toNat hsame.level).ge⟩
  | otherCreated hcreate =>
      obtain ⟨row, hmem, hid⟩ := howns
      obtain ⟨-, -, hrows⟩ := PlayerStore.createPlayer_eq_some hcreate
      refine ⟨⟨row, ?_, hid⟩, h, le_rfl⟩
      rw [hrows]
      exact List.mem_append_left _ hmem
  | otherSaved hne hsave =>
      obtain ⟨row, hmem, hid⟩ := howns
      have hkeep := PlayerStore.mem_savePlayer_of_ne hsave hmem (hid.trans_ne hne.symm)
      exact ⟨⟨row, hkeep, hid⟩, h, le_rfl⟩

/-- Along a whole career. -/
theorem keeps_run (hrun : Relation.ReflTransGen (Step fp) c c') (howns : c.OwnsRow)
    (h : c.player.ValidStats) :
    c'.OwnsRow ∧ c'.player.ValidStats ∧ c.player.level.toNat ≤ c'.player.level.toNat := by
  induction hrun with
  | refl => exact ⟨howns, h, le_rfl⟩
  | tail _ hstep ih =>
      obtain ⟨howns', h', hle⟩ := ih
      obtain ⟨howns'', h'', hle'⟩ := hstep.keeps howns' h'
      exact ⟨howns'', h'', hle.trans hle'⟩

/-- **The stats of a character stay valid** from its creation on, whatever
methods run in whatever order and however often it is saved and loaded, and a
level is never lost. -/
theorem stats_stay_valid (fp : FloatProducts) {c₀ c c' : Career} (hnew : c₀.IsNew)
    (hrun : Relation.ReflTransGen (Step fp) c₀ c) (hrun' : Relation.ReflTransGen (Step fp) c c') :
    c.player.ValidStats ∧ c.player.level.toNat ≤ c'.player.level.toNat := by
  obtain ⟨howns, hvalid, -⟩ := keeps_run hrun hnew.ownsRow hnew.validStats
  exact ⟨hvalid, (keeps_run hrun' howns hvalid).2.2⟩

/-! ## A career -/

/-- A store with one character. -/
def oneRow : PlayerStore := PlayerStore.init.insert [65] List.not_mem_nil

/-- What its login makes on a map without obstacles. -/
def newcomer : Career := ⟨(Player.ofRow 0 0 ⟨1, [65], 1, 0, 100, 100, 0, 0⟩ 0).setPos ⟨0, 0⟩, oneRow⟩

/-- A row at the origin makes a player there. -/
theorem login_openMap (level : Int16) (exp hp maxHp : Int) :
    ∃ v, (World.empty ⟨fun _ => 0⟩ 0).addPlayer 0 0 ⟨1, [65], level, exp, hp, maxHp, 0, 0⟩ = some v ∧
      v.getPlayer 0 =
        some ((Player.ofRow 0 0 ⟨1, [65], level, exp, hp, maxHp, 0, 0⟩ 0).setPos ⟨0, 0⟩) :=
  ⟨_, rfl, rfl⟩

theorem newcomer_isNew : newcomer.IsNew := by
  obtain ⟨v, hadd, hq⟩ := login_openMap 1 0 100 100
  exact ⟨.init, [65], 1, _, v, 0, 0, rfl, hadd, hq⟩

/-- Two levels and 50 on top, a login again, and a death. -/
theorem stats_stay_valid_levelsAndDeath :
    ∃ c c' : Career, Relation.ReflTransGen (Step .single) newcomer c ∧
      Relation.ReflTransGen (Step .single) c c' ∧ c.player.level = 3 ∧ c.player.exp = 50 ∧
      c'.player.exp = 25 ∧ c.player.ValidStats ∧
      c.player.level.toNat ≤ c'.player.level.toNat := by
  have hrow : ((oneRow.savePlayer (newcomer.player.gainExp 350).snapshot).bind
      (·.loadPlayerByName [65])) = some ⟨1, [65], 3, 50, 200, 200, 0, 0⟩ := by decide
  obtain ⟨store, hsave, hload⟩ := Option.bind_eq_some_iff.mp hrow
  obtain ⟨v, hadd, hq⟩ := login_openMap 3 50 200 200
  have hgain : Step .single newcomer { newcomer with player := newcomer.player.gainExp 350 } :=
    .gainExp 350 (by decide)
  have hlogin : Step .single { newcomer with player := newcomer.player.gainExp 350 }
      ⟨(Player.ofRow 0 0 ⟨1, [65], 3, 50, 200, 200, 0, 0⟩ 0).setPos ⟨0, 0⟩, store⟩ :=
    .login hsave hload hadd hq
  have hrun := (Relation.ReflTransGen.single hgain).tail hlogin
  have hdie : Step .single
      ⟨(Player.ofRow 0 0 ⟨1, [65], 3, 50, 200, 200, 0, 0⟩ 0).setPos ⟨0, 0⟩, store⟩ _ := .die
  exact ⟨_, _, hrun, .single hdie, rfl, rfl, (by decide : expAfterDeath 50 = 25),
    stats_stay_valid .single newcomer_isNew hrun (.single hdie)⟩

end Career

end Mmorpg
