/-
`Scripts/monster_spawn.lua`: the spawn script that comes with the server.

The script draws a tile and a kind for each cell of 5 by 4 tiles, and collects
the tiles of each kind; `LoadMonsterSpawns` reads kind after kind. So the entries
are those of the cells in another order, whatever `math.random` returns within
its bounds: each cell has one, and each sector, which is made of twenty cells,
has twenty.
-/
import SimplestMmorpg.Game.Spawn
import SimplestMmorpg.Lib.Buckets
import SimplestMmorpg.Lua.LuaManager
import Mathlib.Data.Finset.Prod
import Mathlib.Order.Interval.Finset.Nat

set_option autoImplicit false

namespace Mmorpg

/-- `math.random(lo, hi)`, for each call of it. -/
structure Random where
  next : ℕ → Int → Int → Int
  mem : ∀ k lo hi, lo ≤ hi → lo ≤ next k lo hi ∧ next k lo hi ≤ hi

namespace Script

abbrev cellsX : ℕ := 400
abbrev cellsY : ℕ := 500
abbrev cellW : ℕ := mapWidth / cellsX
abbrev cellH : ℕ := mapHeight / cellsY

/-- What `pick_type` returns. -/
inductive Piece where
  | pawn
  | knight
  | rook
  | bishop
  | queen
  deriving DecidableEq, Repr

def pickType (r : Int) : Piece :=
  if r ≤ 60 then .pawn
  else if r ≤ 80 then .knight
  else if r ≤ 92 then .rook
  else if r ≤ 99 then .bishop
  else .queen

/-- The five tables of tiles, and how many numbers have been drawn. -/
structure Locals where
  draws : ℕ
  spawns : Piece → List (Int × Int)

variable (rand : Random)

/-- The body of the loops. -/
def spawnCell (cy : ℕ) (s : Locals) (cx : ℕ) : Locals :=
  let yMin : Int := cy * cellH
  let yMax : Int := (cy + 1) * cellH - 1
  let xMin : Int := cx * cellW
  let xMax : Int := (cx + 1) * cellW - 1
  let x := rand.next s.draws xMin xMax
  let y := rand.next (s.draws + 1) yMin yMax
  let t := pickType (rand.next (s.draws + 2) 1 100)
  ⟨s.draws + 3, Function.update s.spawns t (s.spawns t ++ [(x, y)])⟩

/-- The two loops. -/
def spawnCells : Locals :=
  (List.range cellsY).foldl
    (fun s cy => (List.range cellsX).foldl (spawnCell rand cy) s) ⟨0, fun _ => []⟩

/-- `"peace"` -/
def peace : Bytes := [112, 101, 97, 99, 101]

/-- `"fixed"` -/
def fixed : Bytes := [102, 105, 120, 101, 100]

/-- The entry of a kind in `monster_spawns`. -/
def entry (spawns : List (Int × Int)) : Piece → LuaManager.LuaMonster
  | .pawn => ⟨[80, 97, 119, 110], 2, 50, peace, LuaManager.roaming, some spawns⟩
  | .knight =>
    ⟨[75, 110, 105, 103, 104, 116], 5, 120, LuaManager.agro, LuaManager.roaming, some spawns⟩
  | .rook => ⟨[82, 111, 111, 107], 8, 1000, peace, fixed, some spawns⟩
  | .bishop =>
    ⟨[66, 105, 115, 104, 111, 112], 8, 500, LuaManager.agro, LuaManager.roaming, some spawns⟩
  | .queen => ⟨[81, 117, 101, 101, 110], 10, 1000, LuaManager.agro, LuaManager.roaming, some spawns⟩

/-- The kinds in the order of `monster_spawns`. -/
def pieces : List Piece := [.pawn, .knight, .rook, .bishop, .queen]

/-- The table that the script leaves. -/
def monsterSpawns : List LuaManager.LuaMonster :=
  pieces.map fun t => entry ((spawnCells rand).spawns t) t

/-- What the server loads. -/
def loaded : List MonsterSpawnData := LuaManager.loadMonsterSpawns (some (monsterSpawns rand))

/-! ## The cells -/

/-- What is drawn for a cell. -/
structure Spot where
  piece : Piece
  coord : Int × Int

/-- What is drawn for a cell from a number on. -/
def spot (k : ℕ) (c : ℕ × ℕ) : Spot where
  piece := pickType (rand.next (k + 2) 1 100)
  coord := (rand.next k (c.1 * cellW) ((c.1 + 1) * cellW - 1),
    rand.next (k + 1) (c.2 * cellH) ((c.2 + 1) * cellH - 1))

def spotsFrom : ℕ → List (ℕ × ℕ) → List Spot
  | _, [] => []
  | k, c :: cs => spot rand k c :: spotsFrom (k + 3) cs

/-- The cells in the order of the loops. -/
def cells : List (ℕ × ℕ) :=
  (List.range cellsY).flatMap fun cy => (List.range cellsX).map fun cx => (cx, cy)

/-- All that is drawn. -/
def spots : List Spot := spotsFrom rand 0 cells

/-- A tile of a cell. -/
def InCell (c : ℕ × ℕ) (p : Int × Int) : Prop :=
  c.1 * cellW ≤ p.1 ∧ p.1 < (c.1 + 1) * cellW ∧ c.2 * cellH ≤ p.2 ∧ p.2 < (c.2 + 1) * cellH

instance (c : ℕ × ℕ) (p : Int × Int) : Decidable (InCell c p) := by unfold InCell; infer_instance

variable {rand}

theorem cellW_eq : cellW = 5 := rfl

theorem cellH_eq : cellH = 4 := rfl

theorem inCell_spot (k : ℕ) (c : ℕ × ℕ) : InCell c (spot rand k c).coord := by
  have hx := rand.mem k (c.1 * cellW) ((c.1 + 1) * cellW - 1) (by rw [cellW_eq]; omega)
  have hy := rand.mem (k + 1) (c.2 * cellH) ((c.2 + 1) * cellH - 1) (by rw [cellH_eq]; omega)
  exact ⟨hx.1, Int.lt_of_le_sub_one hx.2, hy.1, Int.lt_of_le_sub_one hy.2⟩

theorem mem_cells {c : ℕ × ℕ} : c ∈ cells ↔ c.1 < cellsX ∧ c.2 < cellsY := by
  unfold cells
  rw [List.mem_flatMap]
  constructor
  · rintro ⟨cy, hy, hc⟩
    obtain ⟨cx, hx, rfl⟩ := List.mem_map.mp hc
    exact ⟨List.mem_range.mp hx, List.mem_range.mp hy⟩
  · rintro ⟨hx, hy⟩
    exact ⟨c.2, List.mem_range.mpr hy, List.mem_map.mpr ⟨c.1, List.mem_range.mpr hx, rfl⟩⟩

theorem nodup_cells : cells.Nodup := by
  refine List.nodup_flatMap.mpr ⟨fun cy _ => ?_, ?_⟩
  · refine List.nodup_range.map fun a b hab => ?_
    exact congrArg Prod.fst hab
  · refine List.nodup_range.imp fun hne c hc hc' => ?_
    obtain ⟨a, -, rfl⟩ := List.mem_map.mp hc
    obtain ⟨b, -, hb⟩ := List.mem_map.mp hc'
    exact hne (congrArg Prod.snd hb).symm

/-- A cell of the map, and what was drawn for it. -/
def Drawn (c : ℕ × ℕ) (s : Spot) : Prop := c ∈ cells ∧ InCell c s.coord

theorem forall₂_spotsFrom (k : ℕ) {cs : List (ℕ × ℕ)} (hcs : ∀ c ∈ cs, c ∈ cells) :
    List.Forall₂ Drawn cs (spotsFrom rand k cs) := by
  induction cs generalizing k with
  | nil => exact .nil
  | cons c cs ih =>
      obtain ⟨hc, hcs⟩ := List.forall_mem_cons.mp hcs
      exact .cons ⟨hc, inCell_spot k c⟩ (ih (k + 3) hcs)

theorem forall₂_spots : List.Forall₂ Drawn cells (spots rand) :=
  forall₂_spotsFrom 0 fun _ hc => hc

/-- A tile is in one cell at most. -/
theorem InCell.unique {c c' : ℕ × ℕ} {p : Int × Int} (h : InCell c p) (h' : InCell c' p) :
    c = c' := by
  obtain ⟨cx, cy⟩ := c
  obtain ⟨cx', cy'⟩ := c'
  unfold InCell at h h'
  rw [cellW_eq, cellH_eq] at h h'
  rw [Prod.mk.injEq]
  dsimp only at h h'
  omega

/-- **The loops put what is drawn into the table of its kind.** -/
theorem foldl_spawnCell (cs : List (ℕ × ℕ)) (s : Locals) :
    cs.foldl (fun s c => spawnCell rand c.2 s c.1) s =
      ⟨s.draws + 3 * cs.length,
        (spotsFrom rand s.draws cs).foldl (Buckets.put Spot.piece Spot.coord) s.spawns⟩ := by
  induction cs generalizing s with
  | nil => rfl
  | cons c cs ih =>
      rw [List.foldl_cons, ih, spotsFrom, List.foldl_cons]
      have hlen : (spawnCell rand c.2 s c.1).draws + 3 * cs.length =
          s.draws + 3 * (c :: cs).length := by
        rw [List.length_cons, spawnCell]
        dsimp only
        omega
      rw [hlen]
      rfl

theorem spawns_spawnCells (t : Piece) :
    (spawnCells rand).spawns t = ((spots rand).filter fun s => s.piece = t).map Spot.coord := by
  have hloops : spawnCells rand =
      cells.foldl (fun s c => spawnCell rand c.2 s c.1) ⟨0, fun _ => []⟩ := by
    unfold spawnCells cells
    rw [List.foldl_flatMap]
    simp only [List.foldl_map]
  rw [hloops, foldl_spawnCell]
  dsimp only
  rw [Buckets.foldl_put, List.nil_append, spots]

/-! ## What is loaded -/

/-- The entry that is loaded for what was drawn. -/
def Spot.data (s : Spot) : MonsterSpawnData :=
  let monster := entry [] s.piece
  { name := monster.name
    level := UInt16.ofNat (toUInt16 monster.level).toNat
    maxHp := toInt32 monster.hp
    behavior := LuaManager.parseBehavior monster.behavior
    movement := LuaManager.parseMovement monster.movement
    pos := ⟨toInt16 s.coord.1, toInt16 s.coord.2⟩ }

theorem loaded_eq : loaded rand =
    (pieces.flatMap fun t => (spots rand).filter fun s => s.piece = t).map Spot.data := by
  unfold loaded LuaManager.loadMonsterSpawns monsterSpawns
  dsimp only
  rw [List.flatMap_map, List.map_flatMap]
  refine List.flatMap_congr fun t _ => ?_
  rw [spawns_spawnCells]
  have hkind : ∀ s ∈ (spots rand).filter fun s => s.piece = t, s.piece = t :=
    fun s hs => by simpa using (List.mem_filter.mp hs).2
  generalize (spots rand).filter (fun s => s.piece = t) = here at hkind
  have hentry : ∀ spawns, (entry spawns t).spawns = some spawns := by
    intro spawns
    cases t <;> rfl
  rw [hentry]
  dsimp only
  rw [List.map_map]
  refine List.map_congr_left fun s hs => ?_
  unfold Spot.data
  rw [hkind s hs]
  cases t <;> rfl

/-- **What is loaded is what was drawn for the cells**, in another order. -/
theorem loaded_perm : (loaded rand).Perm ((spots rand).map Spot.data) := by
  rw [loaded_eq]
  refine (Buckets.flatMap_filter_perm (by decide) fun s _ => ?_).map Spot.data
  cases s.piece <;> decide

/-! ## One entry for each cell -/

theorem Drawn.pos {c : ℕ × ℕ} {s : Spot} (h : Drawn c s) :
    s.data.pos = ⟨s.coord.1, s.coord.2⟩ := by
  obtain ⟨hc, hin⟩ := h
  have hlt := mem_cells.mp hc
  unfold cellsX cellsY InCell at *
  rw [cellW_eq, cellH_eq] at hin
  have hx : toInt16 s.coord.1 = s.coord.1 := toInt16_of_range (by omega) (by omega)
  have hy : toInt16 s.coord.2 = s.coord.2 := toInt16_of_range (by omega) (by omega)
  unfold Spot.data
  dsimp only
  rw [hx, hy]

/-- What holds of an entry because of its cell can be counted over the cells. -/
theorem countP_loaded {P : Position → Bool} {Q : ℕ × ℕ → Bool}
    (h : ∀ c ∈ cells, ∀ p, InCell c p → P ⟨p.1, p.2⟩ = Q c) :
    (loaded rand).countP (fun data => P data.pos) = cells.countP Q := by
  have hspots : ∀ {cs : List (ℕ × ℕ)} {ss : List Spot}, List.Forall₂ Drawn cs ss →
      ss.countP (fun s => P s.data.pos) = cs.countP Q := by
    intro cs ss hall
    induction hall with
    | nil => rfl
    | cons hdrawn _ ih =>
        rw [List.countP_cons, List.countP_cons, ih, hdrawn.pos, h _ hdrawn.1 _ hdrawn.2]
  rw [loaded_perm.countP_eq, List.countP_map]
  exact hspots forall₂_spots

/-- **Each cell has one entry.** -/
theorem countP_cell {c : ℕ × ℕ} (hc : c ∈ cells) :
    (loaded rand).countP (fun data => InCell c (data.pos.x, data.pos.y)) = 1 := by
  rw [countP_loaded (P := fun p => InCell c (p.x, p.y)) (Q := (· == c)) fun c' _ p hp => ?_]
  · rw [← List.count_eq_countP, List.count_eq_one_of_mem nodup_cells hc]
  · rw [Bool.eq_iff_iff, decide_eq_true_eq, beq_iff_eq]
    constructor
    · exact fun h => hp.unique h
    · rintro rfl
      exact hp

/-- The cells of which something holds, as a set. -/
theorem countP_cells (Q : ℕ × ℕ → Prop) [DecidablePred Q] :
    cells.countP (fun c => Q c) =
      ((Finset.range cellsX ×ˢ Finset.range cellsY).filter Q).card := by
  rw [List.countP_eq_length_filter, ← List.toFinset_card_of_nodup (nodup_cells.filter _)]
  refine congrArg Finset.card (Finset.ext fun c => ?_)
  simp only [List.mem_toFinset, List.mem_filter, mem_cells, decide_eq_true_eq, Finset.mem_filter,
    Finset.mem_product, Finset.mem_range]

theorem length_loaded : (loaded rand).length = cellsX * cellsY := by
  have hcount := @countP_loaded rand (fun _ => true) (fun _ => decide True) fun _ _ _ _ => rfl
  rw [countP_cells (fun _ => True), Finset.filter_true, Finset.card_product, Finset.card_range,
    Finset.card_range] at hcount
  rw [← hcount, List.countP_true]

/-- **Each sector has twenty.** -/
theorem countP_sector {sx sy : ℕ} (hx : sx < sectorCountX) (hy : sy < sectorCountY) :
    (loaded rand).countP (fun data => getSectorCoord data.pos = ⟨sx, sy⟩) = 20 := by
  rw [countP_loaded (P := fun p => getSectorCoord p = ⟨sx, sy⟩)
    (Q := fun c => decide (c.1 / 4 = sx ∧ c.2 / 5 = sy)) fun c hc p hp => ?_]
  · have hset : (Finset.range cellsX ×ˢ Finset.range cellsY).filter
        (fun c => c.1 / 4 = sx ∧ c.2 / 5 = sy) =
        Finset.Ico (4 * sx) (4 * sx + 4) ×ˢ Finset.Ico (5 * sy) (5 * sy + 5) := by
      ext c
      simp only [Finset.mem_filter, Finset.mem_product, Finset.mem_range, Finset.mem_Ico]
      unfold sectorCountX sectorCountY cellsX cellsY at *
      omega
    rw [countP_cells (fun c => c.1 / 4 = sx ∧ c.2 / 5 = sy), hset, Finset.card_product,
      Nat.card_Ico, Nat.card_Ico, Nat.add_sub_cancel_left, Nat.add_sub_cancel_left]
  · obtain ⟨h1, h2, h3, h4⟩ := hp
    rw [cellW_eq] at h1 h2
    rw [cellH_eq] at h3 h4
    refine decide_eq_decide.mpr ?_
    have hx' : (0 : Int) ≤ p.1 := by omega
    have hy' : (0 : Int) ≤ p.2 := by omega
    simp only [getSectorCoord, SectorCoord.mk.injEq, Int.tdiv_eq_ediv_of_nonneg hx',
      Int.tdiv_eq_ediv_of_nonneg hy']
    unfold sectorSize
    omega

theorem exists_drawn {cs : List (ℕ × ℕ)} {ss : List Spot} (h : List.Forall₂ Drawn cs ss) {s : Spot}
    (hs : s ∈ ss) : ∃ c ∈ cs, Drawn c s := by
  induction h with
  | nil => exact absurd hs List.not_mem_nil
  | cons hdrawn _ ih =>
      rcases List.mem_cons.mp hs with rfl | hs
      · exact ⟨_, List.mem_cons_self .., hdrawn⟩
      · obtain ⟨c, hc, hcs⟩ := ih hs
        exact ⟨c, List.mem_cons_of_mem _ hc, hcs⟩

/-- Every entry is on the map. -/
theorem inMap_of_mem {data : MonsterSpawnData} (h : data ∈ loaded rand) : InMap data.pos := by
  obtain ⟨s, hs, rfl⟩ := List.mem_map.mp (loaded_perm.mem_iff.mp h)
  obtain ⟨c, -, hdrawn⟩ := exists_drawn forall₂_spots hs
  have hlt := mem_cells.mp hdrawn.1
  have hin := hdrawn.2
  rw [hdrawn.pos]
  unfold cellsX cellsY InCell at *
  rw [cellW_eq, cellH_eq] at hin
  unfold InMap mapWidth mapHeight
  dsimp only
  omega

theorem coord_of_pos {a b : Int × Int} (h : (⟨a.1, a.2⟩ : Position) = ⟨b.1, b.2⟩) : a = b :=
  Prod.ext (congrArg Position.x h) (congrArg Position.y h)

/-- No two entries name the same tile. -/
theorem nodup_loaded : ((loaded rand).map MonsterSpawnData.pos).Nodup := by
  have hspots : ∀ {cs : List (ℕ × ℕ)} {ss : List Spot}, List.Forall₂ Drawn cs ss → cs.Nodup →
      (ss.map fun s => s.data.pos).Nodup := by
    intro cs ss hall hnodup
    induction hall with
    | nil => exact List.nodup_nil
    | cons hdrawn hrest ih =>
        obtain ⟨hnot, hnodup⟩ := List.nodup_cons.mp hnodup
        refine List.nodup_cons.mpr ⟨fun hmem => hnot ?_, ih hnodup⟩
        obtain ⟨s', hs', hpos⟩ := List.mem_map.mp hmem
        obtain ⟨c', hc', hdrawn'⟩ := exists_drawn hrest hs'
        have hin := hdrawn'.2
        have hcoord : s'.coord = _ := coord_of_pos (hdrawn'.pos.symm.trans (hpos.trans hdrawn.pos))
        rw [hcoord] at hin
        rw [hdrawn.2.unique hin]
        exact hc'
  rw [(loaded_perm.map _).nodup_iff, List.map_map]
  exact hspots forall₂_spots nodup_cells

end Script

end Mmorpg
