/-
`Common/Map`: the file of the map, and the map that is made when there is none.

The server loads the file when it starts, and otherwise makes a map and saves it;
a client loads the same file. Nothing checks that a save reaches the disk, so
`written` is how many bytes of it do, or `none` when the file cannot be opened.

A file is loaded when its header has the size of the map and all bytes are there,
so a save that is cut short is not loaded, and one that is loaded says what the
map says that was saved.
-/
import SimplestMmorpg.Common.Map
import SimplestMmorpg.Common.Wire
import SimplestMmorpg.Lib.Transition
import Mathlib.Logic.Function.Basic

set_option autoImplicit false

namespace Mmorpg

open Packed Transition

namespace Map

/-- `m_obstacle.size()`. -/
abbrev obstacleSize : ℕ := mapWidth * mapHeight

/-- `TryLoad`, on the bytes of the file. -/
def tryLoad (file : Bytes) : Option Map :=
  if file.length < 8 ∨ readLE file 0 4 ≠ mapWidth ∨ readLE file 4 4 ≠ mapHeight then none
  else if file.length < 8 + obstacleSize then none
  else some ⟨fun i => file.getD (8 + i) 0⟩

/-- `SaveToFile`: the bytes that are written. -/
def saveToFile (map : Map) : Bytes :=
  [bytesLE 4 mapWidth, bytesLE 4 mapHeight, (List.range obstacleSize).map map.obstacle].flatten

/-- What `GenerateDefault` has filled in, and how many numbers it has drawn. -/
structure Drawn where
  obstacle : ℕ → UInt8
  draws : ℕ

/-- One tile; `draw k` is whether the number drawn as the `k`-th is below the
threshold. -/
def generateTile (draw : ℕ → Bool) (y : ℕ) (drawn : Drawn) (x : ℕ) : Drawn :=
  if x < 20 ∧ y < 20 then drawn
  else if draw drawn.draws then
    ⟨Function.update drawn.obstacle (y * mapWidth + x) 1, drawn.draws + 1⟩
  else ⟨drawn.obstacle, drawn.draws + 1⟩

/-- `GenerateDefault`. -/
def generateDefault (draw : ℕ → Bool) : Drawn :=
  (List.range mapHeight).foldl
    (fun drawn y => (List.range mapWidth).foldl (generateTile draw y) drawn) ⟨fun _ => 0, 0⟩

/-- `CreateDefault`. -/
def createDefault (draw : ℕ → Bool) : Map := ⟨(generateDefault draw).obstacle⟩

/-- A start of the server. -/
structure Start where
  draw : ℕ → Bool
  written : Option ℕ

/-- `GameWorld::Init`: the map of the world, and the file it leaves. -/
def initWorld (file : Option Bytes) (start : Start) : Map × Option Bytes :=
  match file.bind tryLoad with
  | some map => (map, file)
  | none =>
    let map := createDefault start.draw
    (map, (start.written.map fun n => map.saveToFile.take n).or file)

/-! ## The file -/

/-- The same tiles can be walked on. -/
def Agrees (map map' : Map) : Prop := ∀ x y, map.isWalkable x y = map'.isWalkable x y

variable {map map' : Map} {file : Bytes} {draw : ℕ → Bool}

theorem agrees_of_obstacle (h : ∀ i < obstacleSize, map.obstacle i = map'.obstacle i) :
    map.Agrees map' := by
  intro x y
  unfold isWalkable
  split
  · rfl
  · next hin =>
      have hindex : tileIndex ⟨x, y⟩ < obstacleSize := by
        simp only [tileIndex, obstacleSize, mapWidth, mapHeight] at *
        omega
      rw [h _ hindex]

theorem length_saveToFile (map : Map) : map.saveToFile.length = 8 + obstacleSize := by
  unfold saveToFile
  rw [List.length_flatten, List.map_cons, List.map_cons, List.map_cons, List.map_nil,
    List.sum_cons, List.sum_cons, List.sum_cons, List.sum_nil, length_bytesLE, List.length_map,
    List.length_range]
  omega

/-- **A file that is loaded** has the right header and all bytes. -/
theorem tryLoad_eq_some_iff : tryLoad file = some map ↔
    readLE file 0 4 = mapWidth ∧ readLE file 4 4 = mapHeight ∧ 8 + obstacleSize ≤ file.length ∧
      map = ⟨fun i => file.getD (8 + i) 0⟩ := by
  unfold tryLoad
  split
  · next hbad =>
      simp only [reduceCtorEq, false_iff]
      rintro ⟨hw, hh, hlen, -⟩
      rcases hbad with hshort | hw' | hh'
      · omega
      · exact hw' hw
      · exact hh' hh
  · next hgood =>
      simp only [not_or, not_not] at hgood
      split
      · next hshort =>
          simp only [reduceCtorEq, false_iff]
          rintro ⟨-, -, hlen, -⟩
          omega
      · next hlong =>
          rw [Option.some.injEq]
          constructor
          · rintro rfl
            exact ⟨hgood.2.1, hgood.2.2, by omega, rfl⟩
          · rintro ⟨-, -, -, rfl⟩
            rfl

/-- A save that is cut short is not loaded. -/
theorem tryLoad_take_of_lt {n : ℕ} (h : n < 8 + obstacleSize) (file : Bytes) :
    tryLoad (file.take n) = none := by
  rw [Option.eq_none_iff_forall_ne_some]
  intro map hmap
  obtain ⟨-, -, hlen, -⟩ := tryLoad_eq_some_iff.mp hmap
  rw [List.length_take] at hlen
  omega

/-- **What is saved is loaded again.** -/
theorem tryLoad_saveToFile (map : Map) :
    ∃ map', tryLoad map.saveToFile = some map' ∧ map'.Agrees map := by
  have hwidth : At map.saveToFile 0 (bytesLE 4 mapWidth) := by
    rw [← List.append_nil map.saveToFile]
    exact at_flatten (k := 0) rfl rfl []
  have hheight : At map.saveToFile 4 (bytesLE 4 mapHeight) := by
    rw [← List.append_nil map.saveToFile]
    exact at_flatten (k := 1) rfl rfl []
  have hdata : At map.saveToFile 8 ((List.range obstacleSize).map map.obstacle) := by
    rw [← List.append_nil map.saveToFile]
    exact at_flatten (k := 2) rfl rfl []
  refine ⟨_, tryLoad_eq_some_iff.mpr ⟨readLE_of_at hwidth (by decide),
    readLE_of_at hheight (by decide), (length_saveToFile map).ge, rfl⟩,
    agrees_of_obstacle fun i hi => ?_⟩
  have hlen : i < ((List.range obstacleSize).map map.obstacle).length := by
    rw [List.length_map, List.length_range]
    exact hi
  dsimp only
  rw [List.getD_eq_getElem?_getD, getElem?_of_at hdata hlen, List.getElem?_eq_getElem hlen,
    Option.getD_some, List.getElem_map, List.getElem_range]

/-- A save that reaches the disk in part or in full says nothing but what was saved. -/
theorem agrees_of_take {n : ℕ} (h : tryLoad (map.saveToFile.take n) = some map') :
    map'.Agrees map := by
  by_cases hn : n < 8 + obstacleSize
  · rw [tryLoad_take_of_lt hn] at h
    exact absurd h (by simp)
  · rw [List.take_of_length_le (by rw [length_saveToFile]; omega)] at h
    obtain ⟨map'', hload, hagrees⟩ := tryLoad_saveToFile map
    rw [hload] at h
    rw [← Option.some.inj h]
    exact hagrees

/-! ## The default map -/

/-- No obstacle in the corner where new characters start. -/
def Cleared (drawn : Drawn) : Prop :=
  ∀ x < 20, ∀ y < 20, drawn.obstacle (y * mapWidth + x) = 0

theorem cleared_generateTile {drawn : Drawn} (h : Cleared drawn) {x : ℕ} (hx : x < mapWidth)
    (y : ℕ) : Cleared (generateTile draw y drawn x) := by
  unfold generateTile
  split
  · exact h
  · next hout =>
      split
      · intro x' hx' y' hy'
        -- the tile that is filled in is another one
        have hne : y' * mapWidth + x' ≠ y * mapWidth + x := by
          simp only [mapWidth] at *
          omega
        dsimp only
        rw [Function.update_of_ne hne]
        exact h x' hx' y' hy'
      · exact h

theorem cleared_generateDefault (draw : ℕ → Bool) : Cleared (generateDefault draw) := by
  unfold generateDefault
  refine List.foldlRecOn (motive := Cleared) _ _ (fun _ _ _ _ => rfl) fun drawn h y _ => ?_
  refine List.foldlRecOn (motive := Cleared) _ _ h fun drawn h x hx => ?_
  exact cleared_generateTile h (List.mem_range.mp hx) y

/-- Every tile of the corner can be walked on. -/
theorem isWalkable_createDefault (draw : ℕ → Bool) {x y : ℕ} (hx : x < 20) (hy : y < 20) :
    (createDefault draw).isWalkable x y = true := by
  unfold isWalkable
  rw [if_neg (by simp only [mapWidth, mapHeight]; omega)]
  have hclear := cleared_generateDefault draw x hx y hy
  simp only [createDefault, tileIndex, Int.toNat_natCast, hclear, beq_self_eq_true]

/-! ## Starts of the server -/

variable {start : Start} {starts : List Start} {file? : Option Bytes}

/-- A start that finds a map leaves the file as it is. -/
theorem initWorld_of_loaded (h : file?.bind tryLoad = some map) (start : Start) :
    initWorld file? start = (map, file?) := by
  unfold initWorld
  rw [h]

/-- What is loaded afterwards is the map of the world. -/
theorem agrees_initWorld (h : (initWorld file? start).2.bind tryLoad = some map) :
    map.Agrees (initWorld file? start).1 := by
  cases hload : file?.bind tryLoad with
  | some found =>
      rw [initWorld_of_loaded hload] at h ⊢
      rw [hload] at h
      rw [Option.some.inj h]
      exact fun _ _ => rfl
  | none =>
      unfold initWorld at h ⊢
      rw [hload] at h ⊢
      dsimp only at h ⊢
      cases hwritten : start.written with
      | none =>
          rw [hwritten, Option.map_none, Option.none_or, hload] at h
          exact absurd h (by simp)
      | some n =>
          rw [hwritten, Option.map_some, Option.some_or, Option.bind_some] at h
          exact agrees_of_take h

/-- Once a map can be loaded, no start writes the file again. -/
theorem file_run (h : file?.bind tryLoad = some map) (starts : List Start) :
    run (fun file? start => (initWorld file? start).2) file? starts = file? := by
  induction starts with
  | nil => rfl
  | cons start starts ih => rw [run_cons, initWorld_of_loaded h, ih]

/-- **One map for all.** After any starts of the server, on whatever file there was
and whatever became of the saves: if the file can be loaded after a start, then
whoever loads it, a client or the server at any later start, can walk on the same
tiles as the players of the world that was started, and the file stays as it is.
A world that found no map has no obstacle where new characters start. -/
theorem oneMap_run (file? : Option Bytes) (before after : List Start) (start later : Start) :
    let found := run (fun file? start => (initWorld file? start).2) file? before
    let world := (initWorld found start).1
    let left := (initWorld found start).2
    (∀ map, left.bind tryLoad = some map → map.Agrees world ∧
      run (fun file? start => (initWorld file? start).2) left after = left ∧
      (initWorld left later).1.Agrees world) ∧
    (∀ n, start.written = some n → 8 + obstacleSize ≤ n → (left.bind tryLoad).isSome) ∧
    (found.bind tryLoad = none → ∀ x y : ℕ, x < 20 → y < 20 → world.isWalkable x y = true) := by
  intro found world left
  refine ⟨fun map hmap => ?_, fun n hn hall => ?_, fun hnone x y hx hy => ?_⟩
  · have hagrees := agrees_initWorld hmap
    refine ⟨hagrees, file_run hmap after, ?_⟩
    rw [initWorld_of_loaded hmap]
    exact hagrees
  · cases hload : found.bind tryLoad with
    | some map =>
        have hleft : left = found := congrArg Prod.snd (initWorld_of_loaded hload start)
        rw [hleft, hload]
        rfl
    | none =>
        obtain ⟨map', hmap', -⟩ := tryLoad_saveToFile (createDefault start.draw)
        have hleft : left = some (createDefault start.draw).saveToFile := by
          simp only [left, initWorld, hload, hn, Option.map_some, Option.some_or]
          rw [List.take_of_length_le (by rw [length_saveToFile]; exact hall)]
        rw [hleft, Option.bind_some, hmap']
        rfl
  · have hworld : world = createDefault start.draw := by simp only [world, initWorld, hnone]
    rw [hworld]
    exact isWalkable_createDefault start.draw hx hy

/-- The first start of all, whose save reaches the disk. -/
theorem oneMap_run_first :
    ∃ map, (initWorld none ⟨fun _ => false, some (8 + obstacleSize)⟩).2.bind tryLoad = some map ∧
      map.Agrees (initWorld none ⟨fun _ => false, some (8 + obstacleSize)⟩).1 := by
  obtain ⟨hagrees, hloads, -⟩ := oneMap_run none [] [] ⟨fun _ => false, some (8 + obstacleSize)⟩
    ⟨fun _ => true, none⟩
  obtain ⟨map, hmap⟩ := Option.isSome_iff_exists.mp (hloads _ rfl (Nat.le_refl _))
  exact ⟨map, hmap, (hagrees map hmap).1⟩

end Map

end Mmorpg
