/-
Rows put together while the player changes.

`SnapshotPlayer` takes the fields of a player one after the other, and takes the
lock anew for each. The handlers of other workers call `GainExp`, `TakeDamage`,
`RegenHP`, `Die` and `SetPos` in between. A row is then made of fields of
different states: the level before a level-up and the experience after it, or
no hit points from before a death and the position from after it. It is saved,
and the character is loaded from it.

What is followed here is one character, from `CreatePlayer` on, through any
number of logins. A login takes the row that was created or any row that was
handed to `SavePlayer` since; which one the store holds is the matter of
`Race/SaveOrder`. Several snapshots may be under way at once. None is when the
player leaves the table: `SaveAllPlayers` holds `m_playersMutex` for the whole of
its snapshots, and a disconnect takes its own before.

With each snapshot go the states the player went through while it was taken.
They are not in the source.
-/
import SimplestMmorpg.Game.Experience
import SimplestMmorpg.Lib.Collect
import SimplestMmorpg.Lib.Transition

set_option autoImplicit false

namespace Mmorpg

/-! ## The fields of a row -/

/-- The reads of `SnapshotPlayer`, each by itself. -/
inductive RowField where
  | id
  | name
  | level
  | exp
  | hp
  | maxHp
  | pos
  deriving DecidableEq, Repr

inductive RowValue where
  | number (n : Int)
  | text (b : Bytes)
  | place (x y : Int)
  deriving DecidableEq, Repr

namespace RowField

/-- The order in which they are made. -/
def order : List RowField := [.id, .name, .level, .exp, .hp, .maxHp, .pos]

def get : RowField → PlayerRow → RowValue
  | .id, row => .number row.id
  | .name, row => .text row.name
  | .level, row => .number row.level.toInt
  | .exp, row => .number row.exp
  | .hp, row => .number row.hp
  | .maxHp, row => .number row.maxHp
  | .pos, row => .place row.x row.y

/-- One read: the field is copied to the row. -/
def read (p : Player) (row : PlayerRow) : RowField → PlayerRow
  | .id => { row with id := p.dbId }
  | .name => { row with name := p.name }
  | .level => { row with level := p.level.toInt16 }
  | .exp => { row with exp := p.exp }
  | .hp => { row with hp := p.hp }
  | .maxHp => { row with maxHp := p.maxHp }
  | .pos => { row with x := p.pos.x, y := p.pos.y }

theorem mem_order (f : RowField) : f ∈ order := by cases f <;> decide

instance : Fintype RowField := ⟨⟨order, by decide⟩, mem_order⟩

theorem get_read (p : Player) (row : PlayerRow) (f : RowField) :
    f.get (f.read p row) = f.get p.snapshot := by
  cases f <;> rfl

theorem get_read_of_ne (p : Player) (row : PlayerRow) {f g : RowField} (h : g ≠ f) :
    g.get (f.read p row) = g.get row := by
  cases f <;> cases g <;> first | rfl | exact absurd rfl h

/-- A row is its fields. -/
theorem row_ext (a b : PlayerRow) (h : ∀ f : RowField, f.get a = f.get b) : a = b := by
  have hid := h .id
  have hname := h .name
  have hlevel := h .level
  have hexp := h .exp
  have hhp := h .hp
  have hmaxHp := h .maxHp
  have hpos := h .pos
  simp only [get, RowValue.number.injEq, RowValue.text.injEq, RowValue.place.injEq,
    Int16.toInt_inj] at *
  cases a
  cases b
  simp_all

end RowField

/-- What the claim of a stored row is: a living character with the hit points of its
level, and less experience than the next level takes. -/
structure PlayerRow.WellFormed (row : PlayerRow) : Prop where
  level : 1 ≤ row.level.toInt ∧ row.level.toInt ≤ maxLevel
  hp : 1 ≤ row.hp ∧ row.hp ≤ row.maxHp
  maxHp : row.maxHp = 100 + 50 * (row.level.toInt - 1)
  exp : 0 ≤ row.exp ∧ row.exp < 100 * 2 ^ (row.level.toInt - 1).toNat

/-! ## The methods -/

/-- The methods that change what is saved. The callers pass `level * 5` as the damage,
which is not negative, and what `GetExpReward` computes as the reward, which is negative
when it has overflowed. -/
inductive PlayerCall where
  | gainExp (amount : Int)
  | takeDamage (dmg : ℕ)
  | regenHP
  | die
  | setPos (pos : Position)
  deriving DecidableEq, Repr

def PlayerCall.run (p : Player) : PlayerCall → Player
  | .gainExp amount => p.gainExp amount
  | .takeDamage dmg => p.takeDamage dmg
  | .regenHP => p.regenHP
  | .die => p.die
  | .setPos pos => p.setPos pos

/-- The reward has not overflowed, nor does the experience it is added to. -/
def PlayerCall.Fits (p : Player) : PlayerCall → Prop
  | .gainExp amount => 0 ≤ amount ∧ p.exp + amount < 2 ^ 31
  | _ => True

instance (p : Player) : ∀ c : PlayerCall, Decidable (c.Fits p)
  | .gainExp _ => by
      unfold PlayerCall.Fits
      infer_instance
  | .takeDamage _ => .isTrue trivial
  | .regenHP => .isTrue trivial
  | .die => .isTrue trivial
  | .setPos _ => .isTrue trivial

namespace Player

variable {p : Player}

/-- What the methods keep of a player. It may be dead: `TakeDamage` and `Die` are two
calls. -/
structure Sound (p : Player) : Prop where
  level : 1 ≤ p.level.toNat ∧ p.level.toNat ≤ maxLevel
  hp : 0 ≤ p.hp ∧ p.hp ≤ p.maxHp
  maxHp : p.maxHp = 100 + 50 * ((p.level.toNat : Int) - 1)
  exp : 0 ≤ p.exp ∧ p.exp < p.getLevelUpExp

/-- Sound but for the experience, as in the loop of `GainExp`. -/
structure Climbing (p : Player) : Prop where
  level : 1 ≤ p.level.toNat ∧ p.level.toNat ≤ maxLevel
  hp : 0 ≤ p.hp ∧ p.hp ≤ p.maxHp
  maxHp : p.maxHp = 100 + 50 * ((p.level.toNat : Int) - 1)
  exp : 0 ≤ p.exp

/-- The loop keeps climbing, and with enough rounds it ends below the next level or at
the last one. -/
theorem levelUp_spec (fuel : ℕ) (p : Player) (h : Climbing p)
    (hfuel : maxLevel ≤ p.level.toNat + fuel) :
    Climbing (levelUp fuel p) ∧
      ((levelUp fuel p).exp < (levelUp fuel p).getLevelUpExp ∨
        maxLevel ≤ (levelUp fuel p).level.toNat) := by
  induction fuel generalizing p with
  | zero => exact ⟨h, .inr hfuel⟩
  | succ n ih =>
      rw [levelUp]
      split
      · next hup =>
          have hlevel := level_succ hup.2
          apply ih
          · refine ⟨?_, ?_, ?_, ?_⟩
            · dsimp only
              omega
            · dsimp only
              omega
            · dsimp only
              omega
            · dsimp only
              omega
          · dsimp only
            omega
      · next hstop =>
          -- the `while` ends for one of its two conditions
          refine ⟨h, ?_⟩
          by_cases hexp : p.exp < p.getLevelUpExp
          · exact .inl hexp
          · right
            by_cases hmax : p.level.toNat < maxLevel
            · exact absurd ⟨Int.not_lt.mp hexp, hmax⟩ hstop
            · exact Nat.not_lt.mp hmax

namespace Sound

theorem gainExp (h : Sound p) {amount : Int} (hamount : 0 ≤ amount)
    (hfits : p.exp + amount < 2 ^ 31) : Sound (p.gainExp amount) := by
  have hsum := Int.add_nonneg h.exp.1 hamount
  have hclimb : Climbing { p with exp := p.exp + amount } := ⟨h.level, h.hp, h.maxHp, hsum⟩
  obtain ⟨hup, hend⟩ := levelUp_spec maxLevel _ hclimb (Nat.le_add_left _ _)
  unfold Player.gainExp
  rw [toInt32_of_range (by omega) hfits]
  dsimp only
  split
  · -- at the last level the experience is cut to 0
    exact ⟨hup.level, hup.hp, hup.maxHp, Int.le_refl 0, getLevelUpExp_pos _⟩
  · next hmax => exact ⟨hup.level, hup.hp, hup.maxHp, hup.exp, hend.resolve_right hmax⟩

theorem takeDamage (h : Sound p) (dmg : ℕ) : Sound (p.takeDamage dmg) := by
  have hhp := h.hp
  refine ⟨h.level, ?_, h.maxHp, h.exp⟩
  unfold Player.takeDamage
  dsimp only
  split
  · omega
  · omega

theorem regenHP (h : Sound p) : Sound p.regenHP := by
  have hhp := h.hp
  have hamount := regenAmount_nonneg (Int.le_trans hhp.1 hhp.2)
  refine ⟨h.level, ?_, h.maxHp, h.exp⟩
  unfold Player.regenHP
  dsimp only
  omega

theorem die (h : Sound p) : Sound p.die := by
  have hexp := h.exp
  have hafter := expAfterDeath_bounds hexp.1
  exact ⟨h.level, ⟨Int.le_trans h.hp.1 h.hp.2, Int.le_refl _⟩, h.maxHp, hafter.1,
    Int.lt_of_le_of_lt hafter.2 hexp.2⟩

/-- **Every method keeps a player sound**, if nothing overflows. -/
theorem run (h : Sound p) (c : PlayerCall) (hfits : c.Fits p) : Sound (c.run p) := by
  cases c with
  | gainExp amount => exact h.gainExp hfits.1 hfits.2
  | takeDamage dmg => exact h.takeDamage dmg
  | regenHP => exact h.regenHP
  | die => exact h.die
  | setPos pos => exact ⟨h.level, h.hp, h.maxHp, h.exp⟩

/-- The level is far from where `int16_t` ends. -/
theorem level_toInt16 (h : Sound p) : p.level.toInt16.toInt = p.level.toNat := by
  have hlevel := h.level.2
  unfold maxLevel at hlevel
  have hsmall : 2 * p.level.toBitVec.toNat < 2 ^ 16 := by
    rw [UInt16.toNat_toBitVec]
    omega
  have hint : p.level.toInt16.toInt = p.level.toBitVec.toInt := rfl
  rw [hint, BitVec.toInt_eq_toNat_of_lt hsmall, UInt16.toNat_toBitVec]

/-- What is saved of a sound player that is alive. -/
theorem wellFormed (h : Sound p) (halive : 1 ≤ p.hp) : p.snapshot.WellFormed := by
  have hlevel := h.level_toInt16
  have hbounds := h.level
  refine ⟨?_, ⟨halive, h.hp.2⟩, ?_, h.exp.1, ?_⟩
  · rw [snapshot, hlevel]
    omega
  · rw [snapshot, hlevel]
    exact h.maxHp
  · have hexp := h.exp.2
    have hsub : ((p.level.toNat : Int) - 1).toNat = p.level.toNat - 1 := by omega
    rw [snapshot, hlevel, hsub]
    exact hexp

end Sound

/-- A player that is made from a well-formed row is sound. -/
theorem sound_ofRow {row : PlayerRow} (h : row.WellFormed) (id : ObjectID) (session : ConnId)
    (serial : ℕ) (spawn : Position) : Sound ((ofRow id session row serial).setPos spawn) := by
  have hlevel := h.level
  have hhp := h.hp
  have hmax := h.maxHp
  have hexp := h.exp
  have hnonneg : (0 : Int16) ≤ row.level := by
    rw [Int16.le_iff_toInt_le, Int16.toInt_zero]
    omega
  have hnat : row.level.toUInt16.toNat = row.level.toInt.toNat := by
    rw [Int16.toNat_toUInt16_of_le hnonneg, Int16.toNat_toInt]
  unfold maxLevel at hlevel
  have hsub : (row.level.toInt - 1).toNat = row.level.toInt.toNat - 1 := by omega
  rw [hsub] at hexp
  refine ⟨?_, ?_, ?_, hexp.1, ?_⟩
  · simp only [ofRow, setPos, setHp, setMaxHp, setExp, setLevel, hnat]
    unfold maxLevel
    omega
  · simp only [ofRow, setPos, setHp, setMaxHp]
    omega
  · simp only [ofRow, setPos, setHp, setMaxHp, setExp, setLevel, hnat]
    omega
  · simp only [getLevelUpExp, ofRow, setPos, setHp, setMaxHp, setExp, setLevel, hnat]
    exact hexp.2

end Player

/-! ## The machine -/

/-- A `SnapshotPlayer` under way: its local `row`, the reads still to make, and the
states of the player since it began. -/
structure SnapshotCall where
  row : PlayerRow
  todo : List RowField
  seen : List Player

/-- A character: the row it was created with, its player when it is logged in, and
the rows that were handed to `SavePlayer`. -/
structure Character where
  created : PlayerRow
  player : Option Player
  calls : List SnapshotCall
  rows : List (PlayerRow × List Player)

namespace Character

variable (s : Character)

/-- `CreatePlayer`. -/
def init (id : Int) (name : Bytes) : Character where
  created := ⟨id, name, 1, 0, 100, 100, 0, 0⟩
  player := none
  calls := []
  rows := []

inductive Event where
  | login (k : ℕ) (id : ObjectID) (session : ConnId) (serial : ℕ) (spawn : Position)
  | logout
  | call (c : PlayerCall)
  /-- `SnapshotPlayer` begins; the members of its row are indeterminate. -/
  | snapshot (row : PlayerRow)
  | read (k : ℕ)

/-- `AddPlayer` with one of the rows there have been. -/
def login (k : ℕ) (id : ObjectID) (session : ConnId) (serial : ℕ) (spawn : Position) : Character :=
  match s.player, (s.created :: s.rows.map Prod.fst)[k]? with
  | none, some row => { s with player := some ((Player.ofRow id session row serial).setPos spawn) }
  | _, _ => s

/-- `RemovePlayer`. -/
def logout : Character := if s.calls.isEmpty then { s with player := none } else s

/-- A method is called on the player. -/
def call (c : PlayerCall) : Character :=
  match s.player with
  | none => s
  | some p =>
    { s with
      player := some (c.run p)
      calls := s.calls.map fun call => { call with seen := call.seen ++ [c.run p] } }

def snapshot (row : PlayerRow) : Character :=
  match s.player with
  | none => s
  | some p => { s with calls := s.calls ++ [⟨row, RowField.order, [p]⟩] }

/-- The next read of a `SnapshotPlayer`, or its return. -/
def read (k : ℕ) : Character :=
  match s.player, s.calls[k]? with
  | some p, some call =>
    match call.todo with
    | [] => { s with calls := s.calls.eraseIdx k, rows := s.rows ++ [(call.row, call.seen)] }
    | f :: todo =>
      { s with calls := s.calls.set k { call with row := f.read p call.row, todo := todo } }
  | _, _ => s

def step (s : Character) : Event → Character
  | .login k id session serial spawn => s.login k id session serial spawn
  | .logout => s.logout
  | .call c => s.call c
  | .snapshot row => s.snapshot row
  | .read k => s.read k

/-! ## The property -/

/-- Every row is the state of the player at one instant while it was put together, and
well-formed. -/
def Consistent (s : Character) : Prop :=
  ∀ x ∈ s.rows, (∃ p ∈ x.2, x.1 = p.snapshot) ∧ x.1.WellFormed

/-- No call of a method tears a snapshot that is under way: what it has read is still
so after the call, or what it has not read is not changed. And no snapshot reads the
hit points of a dead player. -/
def Untorn (s : Character) : Event → Prop
  | .call c => ∀ p ∈ s.player, ∀ call ∈ s.calls,
      Collect.Whole RowField.get call.todo call.row p.snapshot (c.run p).snapshot
  | .read k => ∀ p ∈ s.player, ∀ call ∈ s.calls[k]?, call.todo.head? = some .hp → 1 ≤ p.hp
  | _ => True

instance (s : Character) : ∀ e, Decidable (Untorn s e)
  | .call c => by
      unfold Untorn
      infer_instance
  | .read k => by
      unfold Untorn
      infer_instance
  | .login _ _ _ _ _ => .isTrue trivial
  | .logout => .isTrue trivial
  | .snapshot _ => .isTrue trivial

/-- No reward overflows. -/
def Fitting (s : Character) : Event → Prop
  | .call c => ∀ p ∈ s.player, c.Fits p
  | _ => True

instance (s : Character) : ∀ e, Decidable (Fitting s e)
  | .call c => by
      unfold Fitting
      infer_instance
  | .read _ => .isTrue trivial
  | .login _ _ _ _ _ => .isTrue trivial
  | .logout => .isTrue trivial
  | .snapshot _ => .isTrue trivial

/-! ## The invariant -/

/-- What is known of a snapshot that is under way. -/
structure CallOk (p : Player) (call : SnapshotCall) : Prop where
  instant : Collect.OfInstant RowField.get call.todo call.row p.snapshot
    (call.seen.map Player.snapshot)
  sound : ∀ q ∈ call.seen, q.Sound
  alive : RowField.hp ∉ call.todo → 1 ≤ call.row.hp

structure Ok (s : Character) : Prop where
  created : s.created.WellFormed
  player : ∀ p, s.player = some p → p.Sound
  calls : ∀ p, s.player = some p → ∀ call ∈ s.calls, CallOk p call
  idle : s.player = none → s.calls = []
  rows : Consistent s

namespace CallOk

variable {p : Player} {call : SnapshotCall} {f : RowField} {todo : List RowField}

theorem start (h : p.Sound) (row : PlayerRow) : CallOk p ⟨row, RowField.order, [p]⟩ where
  -- the row is indeterminate, and nothing of it is taken yet
  instant := Collect.OfInstant.start RowField.mem_order
  sound := by
    intro q hq
    rw [List.mem_singleton.mp hq]
    exact h
  alive := fun hno => absurd (RowField.mem_order .hp) hno

theorem change (h : CallOk p call) (c : PlayerCall) (hrun : (c.run p).Sound)
    (hw : Collect.Whole RowField.get call.todo call.row p.snapshot (c.run p).snapshot) :
    CallOk (c.run p) { call with seen := call.seen ++ [c.run p] } where
  instant := by
    have hchange := h.instant.change hw
    rw [List.map_append]
    exact hchange
  sound := by
    intro q hq
    rcases List.mem_append.mp hq with hq | hq
    · exact h.sound q hq
    · rw [List.mem_singleton.mp hq]
      exact hrun
  alive := h.alive

/-- A read; the hit points are read from a player that is alive. -/
theorem read (h : CallOk p call) (htodo : call.todo = f :: todo) (halive : f = .hp → 1 ≤ p.hp) :
    CallOk p { call with row := f.read p call.row, todo := todo } where
  instant := by
    have hinstant := h.instant
    rw [htodo] at hinstant
    exact hinstant.read (RowField.get_read p call.row f)
      fun g hg => RowField.get_read_of_ne p call.row hg
  sound := h.sound
  alive := by
    intro hno
    by_cases hf : f = .hp
    · rw [hf]
      exact halive hf
    · -- the hit points were read before, and this read is of another member
      have hsame := RowField.get_read_of_ne p call.row (Ne.symm hf)
      have hhp : (f.read p call.row).hp = call.row.hp := RowValue.number.inj hsame
      dsimp only
      rw [hhp]
      apply h.alive
      rw [htodo]
      simp [hno, Ne.symm hf]

/-- The row that is returned. -/
theorem finish (h : CallOk p call) (htodo : call.todo = []) :
    (∃ q ∈ call.seen, call.row = q.snapshot) ∧ call.row.WellFormed := by
  have hinstant := h.instant
  rw [htodo] at hinstant
  obtain ⟨q, hq, hrow⟩ := List.mem_map.mp (hinstant.finish RowField.row_ext)
  have halive := h.alive (by rw [htodo]; exact List.not_mem_nil)
  refine ⟨⟨q, hq, hrow.symm⟩, ?_⟩
  rw [← hrow] at halive ⊢
  exact (h.sound q hq).wellFormed halive

end CallOk

namespace Ok

variable {s : Character}

theorem login (h : Ok s) (k : ℕ) (id : ObjectID) (session : ConnId) (serial : ℕ)
    (spawn : Position) : Ok (s.login k id session serial spawn) := by
  unfold Character.login
  split
  · next row hnone hrow =>
      -- the row is the one of `CreatePlayer`, or one that was saved
      have hwell : row.WellFormed := by
        rcases List.mem_cons.mp (List.mem_of_getElem? hrow) with rfl | hmem
        · exact h.created
        · obtain ⟨x, hx, rfl⟩ := List.mem_map.mp hmem
          exact (h.rows x hx).2
      -- no snapshot is under way while nobody is logged in
      have hidle := h.idle hnone
      refine ⟨h.created, ?_, ?_, fun hno => absurd hno (by simp), h.rows⟩
      · intro p hp
        rw [← Option.some.inj hp]
        exact Player.sound_ofRow hwell id session serial spawn
      · intro p _ call hcall
        rw [hidle] at hcall
        exact absurd hcall List.not_mem_nil
  · exact h

theorem logout (h : Ok s) : Ok s.logout := by
  unfold Character.logout
  split
  · next hnone =>
      exact ⟨h.created, fun p hp => absurd hp (by simp), fun p hp => absurd hp (by simp),
        fun _ => List.isEmpty_iff.mp hnone, h.rows⟩
  · exact h

theorem call (h : Ok s) (c : PlayerCall) (huntorn : Untorn s (.call c))
    (hfits : Fitting s (.call c)) : Ok (s.call c) := by
  unfold Character.call
  split
  · exact h
  · next p hp =>
      have hrun := (h.player p hp).run c (hfits p hp)
      refine ⟨h.created, ?_, ?_, fun hno => absurd hno (by simp), h.rows⟩
      · intro q hq
        rw [← Option.some.inj hq]
        exact hrun
      · intro q hq call hcall
        rw [← Option.some.inj hq]
        obtain ⟨call', hmem, rfl⟩ := List.mem_map.mp hcall
        exact (h.calls p hp call' hmem).change c hrun (huntorn p hp call' hmem)

theorem snapshot (h : Ok s) (row : PlayerRow) : Ok (s.snapshot row) := by
  unfold Character.snapshot
  split
  · exact h
  · next p hp =>
      refine ⟨h.created, h.player, ?_, fun hno => absurd hno (by rw [hp]; simp), h.rows⟩
      intro q hq call hcall
      have hqp : q = p := Option.some.inj (hq.symm.trans hp)
      rw [hqp]
      rcases List.mem_append.mp hcall with hmem | hmem
      · exact h.calls p hp call hmem
      · rw [List.mem_singleton.mp hmem]
        exact .start (h.player p hp) row

theorem read (h : Ok s) (k : ℕ) (huntorn : Untorn s (.read k)) : Ok (s.read k) := by
  unfold Character.read
  split
  · next p call hp hk =>
      have hok := h.calls p hp call (List.mem_of_getElem? hk)
      split
      · next htodo =>
          refine ⟨h.created, h.player, ?_, fun hno => absurd hno (by rw [hp]; simp), ?_⟩
          · intro q hq other hother
            exact h.calls q hq other (Transition.mem_of_mem_eraseIdx hother)
          · intro x hx
            rcases List.mem_append.mp hx with hx | hx
            · exact h.rows x hx
            · rw [List.mem_singleton.mp hx]
              exact hok.finish htodo
      · next f todo htodo =>
          refine ⟨h.created, h.player, ?_, fun hno => absurd hno (by rw [hp]; simp), h.rows⟩
          intro q hq other hother
          have hqp : q = p := Option.some.inj (hq.symm.trans hp)
          rw [hqp]
          rcases List.mem_or_eq_of_mem_set hother with hmem | rfl
          · exact h.calls p hp other hmem
          · apply hok.read htodo
            rintro rfl
            exact huntorn p hp call hk (by rw [htodo]; rfl)
  · exact h

end Ok

theorem ok_step (s : Character) (e : Event) (h : Ok s) (hsafe : Untorn s e ∧ Fitting s e) :
    Ok (s.step e) := by
  obtain ⟨huntorn, hfits⟩ := hsafe
  cases e with
  | login k id session serial spawn => exact h.login k id session serial spawn
  | logout => exact h.logout
  | call c => exact h.call c huntorn hfits
  | snapshot row => exact h.snapshot row
  | read k => exact h.read k huntorn

theorem ok_init (id : Int) (name : Bytes) : Ok (init id name) where
  created := by
    unfold init
    refine ⟨?_, ?_, ?_, ?_⟩
    · dsimp only
      decide
    · dsimp only
      decide
    · dsimp only
      decide
    · dsimp only
      decide
  player := fun p hp => absurd hp (by simp [init])
  calls := fun p hp => absurd hp (by simp [init])
  idle := fun _ => rfl
  rows := fun x hx => absurd hx List.not_mem_nil

/-! ## Runs -/

open Transition

/-- **Snapshots are consistent** in every run in which no method tears a snapshot that
is under way, none reads the hit points of a dead player, and no reward overflows. -/
theorem consistent_run {id : Int} {name : Bytes} {es : List Event}
    (h : Along step (fun s e => Untorn s e ∧ Fitting s e) (init id name) es) :
    Consistent (run step (init id name) es) :=
  (Transition.invariant (I := Ok) ok_step (ok_init id name) h).rows

/-- A snapshot from beginning to end, with a call between two of its reads. -/
def snapshotAround (before after : ℕ) (cs : List PlayerCall) : List Event :=
  .snapshot ⟨0, [], 0, 0, 0, 0, 0, 0⟩ :: List.replicate before (.read 0) ++ cs.map .call ++
    List.replicate after (.read 0)

/-- The player gains a level; it moves while its level and its experience are read, and
is hit after its hit points have been read. -/
def harmless : List Event :=
  [.login 0 0 0 0 ⟨0, 0⟩, .call (.gainExp 130)] ++ snapshotAround 3 1 [.setPos ⟨0, 1⟩] ++
    [.read 0, .read 0, .read 0, .call (.takeDamage 5), .read 0]

theorem consistent_run_harmless : Consistent (run step (init 1 [65]) harmless) :=
  consistent_run (by decide +kernel)

/-- The player reaches level 2 after its level was read. -/
def levelUpBetween : List Event :=
  [.login 0 0 0 0 ⟨0, 0⟩] ++ snapshotAround 3 5 [.gainExp 100]

theorem levelUpBetween_rows :
    (run step (init 1 [65]) levelUpBetween).rows.map Prod.fst =
      [⟨1, [65], 1, 0, 150, 150, 0, 0⟩] := by
  decide +kernel

/-- The row has the hit points of level 2 and the level 1. -/
theorem not_always_consistent :
    ¬ ∀ (id : Int) (name : Bytes) (es : List Event), Consistent (run step (init id name) es) := by
  intro hall
  have h := hall 1 [65] levelUpBetween
  have hmem : (⟨1, [65], 1, 0, 150, 150, 0, 0⟩ : PlayerRow) ∈
      (run step (init 1 [65]) levelUpBetween).rows.map Prod.fst := by
    rw [levelUpBetween_rows]
    exact List.mem_singleton_self _
  obtain ⟨x, hx, hrow⟩ := List.mem_map.mp hmem
  have hmax := (h x hx).2.maxHp
  rw [hrow] at hmax
  exact absurd hmax (by decide)

end Character

end Mmorpg
