/-
`Client/Renderer`: what the screen shows of the game.

`RenderGame` fills `m_buffer` from the empty screen on: the viewport with the map,
the objects, the own player and the attack effects one over the other, the HUD,
the log box, and the chat line in chat mode. `RecvThread` adds lines to the log
and effects to `GameState` at any time; what `GetMyPlayer` and `GetAllObjects`
return is an input of a frame.

The main menu is not modelled: its letters move by a sine.
-/
import SimplestMmorpg.Client.Main
import SimplestMmorpg.Common.Map
import SimplestMmorpg.Lib.LastWrite
import SimplestMmorpg.Lib.Transition

set_option autoImplicit false

namespace Mmorpg

/-! ## Cells -/

/-- `wchar_t`. -/
def wide (c : Char) : UInt16 := c.toNat.toUInt16

/-- A wide string literal. -/
def wideText (s : String) : List UInt16 := s.toList.map wide

/-- `static_cast<wchar_t>` of a `char`, which is signed. -/
def wideByte (b : UInt8) : UInt16 := if b < 128 then b.toUInt16 else 65280 + b.toUInt16

/-- `%d`. -/
def decimal (n : Int) : List UInt16 := wideText (toString n)

/-- `CHAR_INFO`. -/
structure CharInfo where
  ch : UInt16
  attributes : UInt16
  deriving DecidableEq, Repr

namespace Renderer

open LastWrite

/-! ## Constants -/

abbrev screenW : ℕ := 120
abbrev screenH : ℕ := 30

abbrev foregroundBlue : UInt16 := 1
abbrev foregroundGreen : UInt16 := 2
abbrev foregroundRed : UInt16 := 4
abbrev foregroundIntensity : UInt16 := 8

abbrev viewportTiles : ℕ := 21
abbrev tileWidth : ℕ := 2
abbrev viewportBorderW : ℕ := 57
abbrev viewportBorderH : ℕ := 29
abbrev tileOffsetX : ℕ := 1 + ((viewportBorderW - 2) - viewportTiles * tileWidth + 1) / 2
abbrev tileOffsetY : ℕ := 1 + ((viewportBorderH - 2) - viewportTiles + 1) / 2

/-- `CENTER_TILE_X`, `CENTER_TILE_Y`. -/
abbrev centerTile : ℕ := viewportTiles / 2

abbrev hudX : ℕ := 58
abbrev hudY : ℕ := 0
abbrev hudW : ℕ := 62
abbrev hudH : ℕ := 12
abbrev logX : ℕ := 58
abbrev logY : ℕ := 12
abbrev logW : ℕ := 62
abbrev logH : ℕ := 17
abbrev maxLogLines : ℕ := 14

/-! ## Drawing -/

/-- `m_buffer`, row by row. -/
abbrev Buffer := ℕ → CharInfo

/-- `Clear`. -/
def clear : Buffer := fun _ => ⟨wide ' ', 0⟩

def setChar (buf : Buffer) (x y : Int) (ch attr : UInt16) : Buffer :=
  if x < 0 ∨ screenW ≤ x ∨ y < 0 ∨ screenH ≤ y then buf
  else Function.update buf (y * screenW + x).toNat ⟨ch, attr⟩

/-- `DrawString`: up to the terminator. -/
def drawString (buf : Buffer) (x y : ℕ) (str : List UInt16) (attr : UInt16) : Buffer :=
  (str.takeWhile (· ≠ 0)).zipIdx.foldl (fun buf c => setChar buf (x + c.2) y c.1 attr) buf

/-- `DrawBorder`. -/
def drawBorder (buf : Buffer) (x y w h : ℕ) : Buffer :=
  let attr := foregroundRed ||| foregroundGreen ||| foregroundIntensity
  let buf := setChar buf x y (wide '+') attr
  let buf := setChar buf (x + w - 1) y (wide '+') attr
  let buf := setChar buf x (y + h - 1) (wide '+') attr
  let buf := setChar buf (x + w - 1) (y + h - 1) (wide '+') attr
  let buf := (List.range' 1 (w - 2)).foldl (fun buf (i : ℕ) =>
    setChar (setChar buf (x + i) y (wide '-') attr) (x + i) (y + h - 1) (wide '-') attr) buf
  (List.range' 1 (h - 2)).foldl (fun buf (j : ℕ) =>
    setChar (setChar buf x (y + j) (wide '|') attr) (x + w - 1) (y + j) (wide '|') attr) buf

def drawTile (buf : Buffer) (tileX tileY : Int) (look : CharInfo) : Buffer :=
  let col := tileOffsetX + tileX * tileWidth
  let row := tileOffsetY + tileY
  setChar (setChar buf col row look.ch look.attributes) (col + 1) row (wide ' ') look.attributes

/-! ## The viewport -/

/-- What the map has on a tile. -/
def mapLook (map : Map) (worldX worldY : Int) : CharInfo :=
  if worldX < 0 ∨ mapWidth ≤ worldX ∨ worldY < 0 ∨ mapHeight ≤ worldY then ⟨wide ' ', 0⟩
  else if map.isWalkable worldX worldY then ⟨wide '.', foregroundIntensity⟩
  else ⟨wide '♣', foregroundGreen ||| foregroundIntensity⟩

/-- `GetMonsterVisual`. -/
def getMonsterVisual (name : Bytes) : CharInfo :=
  if name = [80, 97, 119, 110] then ⟨wide '♟', foregroundGreen ||| foregroundIntensity⟩
  else if name = [75, 110, 105, 103, 104, 116] then
    ⟨wide '♞', foregroundRed ||| foregroundGreen ||| foregroundIntensity⟩
  else if name = [82, 111, 111, 107] then ⟨wide '♜', foregroundRed ||| foregroundGreen⟩
  else if name = [66, 105, 115, 104, 111, 112] then
    ⟨wide '♝', foregroundRed ||| foregroundBlue ||| foregroundIntensity⟩
  else if name = [81, 117, 101, 101, 110] then
    ⟨wide '♛', foregroundRed ||| foregroundGreen ||| foregroundBlue⟩
  else ⟨wide 'M', foregroundRed ||| foregroundIntensity⟩

/-- How an object is drawn. -/
def objectLook (type : ObjectType) (name : Bytes) : CharInfo :=
  if type = .player then ⟨wide '☻', foregroundBlue ||| foregroundIntensity⟩
  else getMonsterVisual name

/-- How the own player is drawn. -/
def myLook : CharInfo :=
  ⟨wide '☻', foregroundRed ||| foregroundGreen ||| foregroundBlue ||| foregroundIntensity⟩

/-- `AttackEffect`; the clock counts nanoseconds. -/
structure AttackEffect where
  pos : Position
  startTime : ℕ
  deriving DecidableEq, Repr

/-- A call of `plot` in `DrawAttackEffect`. -/
structure Plot where
  dx : Int
  dy : Int
  look : CharInfo

def bright : UInt16 := foregroundRed ||| foregroundGreen ||| foregroundIntensity

def dim : UInt16 := foregroundRed ||| foregroundIntensity

/-- The calls of `plot` for a frame. -/
def plots : ℕ → List Plot
  | 0 => [⟨0, -1, ⟨wide '.', bright⟩⟩, ⟨-1, 0, ⟨wide '.', bright⟩⟩, ⟨1, 0, ⟨wide '.', bright⟩⟩,
      ⟨0, 1, ⟨wide '.', bright⟩⟩]
  | 1 => [⟨0, -1, ⟨wide '*', bright⟩⟩, ⟨-1, 0, ⟨wide '*', bright⟩⟩, ⟨1, 0, ⟨wide '*', bright⟩⟩,
      ⟨0, 1, ⟨wide '*', bright⟩⟩]
  | 2 => [⟨0, -1, ⟨wide '|', bright⟩⟩, ⟨-1, 0, ⟨wide '-', bright⟩⟩, ⟨1, 0, ⟨wide '-', bright⟩⟩,
      ⟨0, 1, ⟨wide '|', bright⟩⟩, ⟨0, -2, ⟨wide '^', bright⟩⟩, ⟨-2, 0, ⟨wide '<', bright⟩⟩,
      ⟨2, 0, ⟨wide '>', bright⟩⟩, ⟨0, 2, ⟨wide 'v', bright⟩⟩]
  | 3 => [⟨0, -1, ⟨wide '.', dim⟩⟩, ⟨-1, 0, ⟨wide '.', dim⟩⟩, ⟨1, 0, ⟨wide '.', dim⟩⟩,
      ⟨0, 1, ⟨wide '.', dim⟩⟩, ⟨0, -2, ⟨wide '*', dim⟩⟩, ⟨-2, 0, ⟨wide '*', dim⟩⟩,
      ⟨2, 0, ⟨wide '*', dim⟩⟩, ⟨0, 2, ⟨wide '*', dim⟩⟩]
  | 4 => [⟨0, -2, ⟨wide '.', dim⟩⟩, ⟨-2, 0, ⟨wide '.', dim⟩⟩, ⟨2, 0, ⟨wide '.', dim⟩⟩,
      ⟨0, 2, ⟨wide '.', dim⟩⟩]
  | _ => []

/-- The coordinates that are passed to `plot`; they are narrowed to `int16_t`. -/
def Plot.pos (center : Position) (p : Plot) : Position :=
  ⟨toInt16 (center.x + p.dx), toInt16 (center.y + p.dy)⟩

def plot (center me : Position) (buf : Buffer) (p : Plot) : Buffer :=
  let w := p.pos center
  if w = center then buf
  else
    let tx := w.x - me.x + centerTile
    let ty := w.y - me.y + centerTile
    if tx < 0 ∨ viewportTiles ≤ tx then buf
    else if ty < 0 ∨ viewportTiles ≤ ty then buf
    else drawTile buf tx ty p.look

/-- `DrawAttackEffect`. -/
def drawAttackEffect (buf : Buffer) (center : Position) (frame : ℕ) (me : Position) : Buffer :=
  (plots frame).foldl (plot center me) buf

abbrev frameMs : ℕ := 80
abbrev totalFrames : ℕ := 5
abbrev lifetimeMs : ℕ := frameMs * totalFrames

/-- `duration_cast<milliseconds>(now - startTime)`. -/
def AttackEffect.elapsed (e : AttackEffect) (now : ℕ) : ℕ := (now - e.startTime) / 1000000

/-- The last loop of `DrawViewport`. -/
def drawEffect (me : Position) (now : ℕ) (buf : Buffer) (e : AttackEffect) : Buffer :=
  if lifetimeMs ≤ e.elapsed now then buf
  else drawAttackEffect buf e.pos (e.elapsed now / frameMs) me

/-- The loop over the objects. -/
def drawObject (me : Position) (buf : Buffer) (obj : RemoteObject) : Buffer :=
  let tileX := obj.pos.x - me.x + centerTile
  let tileY := obj.pos.y - me.y + centerTile
  if tileX < 0 ∨ viewportTiles ≤ tileX ∨ tileY < 0 ∨ viewportTiles ≤ tileY then buf
  else drawTile buf tileX tileY (objectLook obj.type obj.name)

/-- The fog around the tiles. -/
def drawFog (buf : Buffer) : Buffer :=
  (List.range' 1 (viewportBorderH - 2)).foldl (fun buf (y : ℕ) =>
    (List.range' 1 (viewportBorderW - 2)).foldl (fun buf (x : ℕ) =>
      setChar buf x y (wide '░') foregroundIntensity) buf) buf

/-- The tiles of the map. -/
def drawMap (map : Map) (me : Position) (buf : Buffer) : Buffer :=
  (List.range viewportTiles).foldl (fun buf (ty : ℕ) =>
    (List.range viewportTiles).foldl (fun buf (tx : ℕ) =>
      drawTile buf tx ty (mapLook map (tx - centerTile + me.x)
        (ty - centerTile + me.y))) buf) buf

/-- `DrawViewport`, when the effects and the clock have been read. -/
def drawViewport (buf : Buffer) (map : Map) (me : Position) (objects : List RemoteObject)
    (effects : List AttackEffect) (now : ℕ) : Buffer :=
  let buf := drawBorder buf 0 0 viewportBorderW viewportBorderH
  let buf := drawMap map me (drawFog buf)
  let buf := objects.foldl (drawObject me) buf
  let buf := drawTile buf centerTile centerTile myLook
  effects.foldl (drawEffect me now) buf

/-! ## The HUD -/

/-- `100 * (1 << (level - 1))` on `int`s. The count of a shift is taken modulo 32, as
the processor does it, and what does not fit wraps. -/
def levelUpExp (level : UInt16) : Int := toInt32 (100 * 2 ^ ((level.toNat + 31) % 32))

/-- For the levels of players nothing wraps. -/
theorem levelUpExp_of_le {level : UInt16} (h : 1 ≤ level.toNat) (hmax : level.toNat ≤ maxLevel) :
    levelUpExp level = 100 * 2 ^ (level.toNat - 1) := by
  have hmax' : level.toNat ≤ 20 := hmax
  have hcount : (level.toNat + 31) % 32 = level.toNat - 1 := by omega
  have hpow : 2 ^ (level.toNat - 1) ≤ 2 ^ 19 :=
    Nat.pow_le_pow_right (by decide) (by omega)
  have hcast : (2 : Int) ^ (level.toNat - 1) = ((2 ^ (level.toNat - 1) : ℕ) : Int) := by simp
  rw [levelUpExp, hcount, hcast]
  generalize 2 ^ (level.toNat - 1) = n at hpow ⊢
  exact toInt32_of_range (by omega) (by omega)

/-- The value of each line of the HUD, with its row. -/
def hudLines (name : Bytes) (me : MyPlayer) : List (ℕ × String × List UInt16) :=
  [(1, "Name:", (name.take 31).map wideByte),
    (3, "Level:", wideText "Lv " ++ decimal me.level.toNat),
    (5, "HP:", decimal me.hp ++ wideText " / " ++ decimal me.maxHp),
    (7, "Exp:", decimal me.exp ++ wideText " / " ++ decimal (levelUpExp me.level)),
    (9, "Pos:", wideText "(" ++ decimal me.pos.x ++ wideText ", " ++ decimal me.pos.y ++
      wideText ")")]

/-- One line of it. -/
def drawHudLine (buf : Buffer) (line : ℕ × String × List UInt16) : Buffer :=
  let titleColor := foregroundGreen ||| foregroundBlue ||| foregroundIntensity
  let valueColor :=
    if line.1 = 5 then foregroundRed ||| foregroundIntensity
    else foregroundRed ||| foregroundGreen ||| foregroundBlue ||| foregroundIntensity
  drawString (drawString buf (hudX + 2) (hudY + line.1) (wideText line.2.1) titleColor)
    (hudX + 10) (hudY + line.1) line.2.2 valueColor

/-- `DrawHUD`. -/
def drawHud (buf : Buffer) (name : Bytes) (me : MyPlayer) : Buffer :=
  (hudLines name me).foldl drawHudLine (drawBorder buf hudX hudY hudW hudH)

/-! ## The log and the chat line -/

structure LogLine where
  text : List UInt16
  color : UInt16
  deriving DecidableEq, Repr

/-- `DrawLogBox`. -/
def drawLogBox (buf : Buffer) (logLines : List LogLine) : Buffer :=
  let buf := drawBorder buf logX logY logW logH
  let buf := drawString buf (logX + 2) logY (wideText " [ LOG / CHAT ] ")
    (foregroundGreen ||| foregroundBlue ||| foregroundIntensity)
  let maxContentH := logH - 3
  let startIdx := logLines.length - maxContentH
  (logLines.drop startIdx).zipIdx.foldl (fun buf entry =>
    drawString buf (logX + 1) (logY + 1 + entry.2) (entry.1.text.take (logW - 2))
      entry.1.color) buf

/-- `DrawChatInputBar`, when `m_frameCount` is `frameCount` after it is counted up. -/
def drawChatInputBar (buf : Buffer) (chatChannel : ChatChannel) (chatBuffer : List UInt16)
    (frameCount : ℕ) : Buffer :=
  let label := wideText (if chatChannel = .global then "[GLOBAL] > " else "[VIEW]   > ")
  let color :=
    if chatChannel = .global then foregroundRed ||| foregroundGreen ||| foregroundIntensity
    else foregroundRed ||| foregroundGreen ||| foregroundBlue ||| foregroundIntensity
  let barY := logY + logH - 2
  let barX := logX + 1
  let buf := drawString buf barX barY label color
  let textX := barX + label.length
  let buf := drawString buf textX barY chatBuffer color
  if frameCount % 30 < 20 then setChar buf (textX + chatBuffer.length) barY (wide '_') color
  else buf

/-! ## Reading the screen -/

/-- What the console shows in a cell. -/
def Buffer.at (buf : Buffer) (x y : ℕ) : CharInfo := buf (y * screenW + x)

/-- The two cells of a tile. -/
def Buffer.tile (buf : Buffer) (tx ty : ℕ) : CharInfo × CharInfo :=
  (buf.at (tileOffsetX + tx * tileWidth) (tileOffsetY + ty),
    buf.at (tileOffsetX + tx * tileWidth + 1) (tileOffsetY + ty))

/-- A look on a tile, with the blank beside it. -/
def tileOf (look : CharInfo) : CharInfo × CharInfo := (look, ⟨wide ' ', look.attributes⟩)

/-- A string can be read from a cell on, up to its terminator, as far as the
screen goes. -/
def Buffer.Shows (buf : Buffer) (x y : ℕ) (str : List UInt16) : Prop :=
  ∀ i ch, (str.takeWhile (· ≠ 0))[i]? = some ch → x + i < screenW → (buf.at (x + i) y).ch = ch

variable {buf : Buffer} {x y : ℕ} {str : List UInt16} {attr : UInt16}

/-- A cell that is written shows what was written last. -/
theorem at_setChar (buf : Buffer) (a b : Int) (ch attr : UInt16) (hx : x < screenW)
    (hy : y < screenH) :
    (setChar buf a b ch attr).at x y = if a = x ∧ b = y then ⟨ch, attr⟩ else buf.at x y := by
  unfold setChar Buffer.at
  split
  · rw [if_neg]
    rintro ⟨rfl, rfl⟩
    omega
  · next hin =>
      rw [Function.update_apply]
      have hcell : y * screenW + x = (b * screenW + a).toNat ↔ a = x ∧ b = y := by
        unfold screenW screenH at *
        omega
      rw [if_congr hcell rfl rfl]

theorem at_setChar_of_ne {buf : Buffer} {a b : Int} (ch attr : UInt16) (hx : x < screenW)
    (hy : y < screenH) (h : a = x → b ≠ y) : (setChar buf a b ch attr).at x y = buf.at x y := by
  rw [at_setChar buf a b ch attr hx hy, if_neg fun hab => h hab.1 hab.2]

/-- What a string puts in a cell. -/
def stringAt (x₀ y₀ : ℕ) (str : List UInt16) (attr : UInt16) (x y : ℕ) : Option CharInfo :=
  if y = y₀ ∧ x₀ ≤ x then ((str.takeWhile (· ≠ 0))[x - x₀]?).map fun ch => ⟨ch, attr⟩ else none

theorem at_drawString (buf : Buffer) (x₀ y₀ : ℕ) (str : List UInt16) (attr : UInt16)
    (hx : x < screenW) (hy : y < screenH) :
    (drawString buf x₀ y₀ str attr).at x y = (stringAt x₀ y₀ str attr x y).getD (buf.at x y) := by
  have hwrites : Writes (fun buf : Buffer => buf.at x y)
      (fun (buf : Buffer) (c : UInt16 × ℕ) => setChar buf (x₀ + c.2) y₀ c.1 attr)
      fun c => if x₀ + c.2 = x ∧ y₀ = y then some ⟨c.1, attr⟩ else none := by
    intro buf c
    dsimp only
    rw [at_setChar buf _ _ _ _ hx hy]
    split
    · rw [if_pos (by omega), Option.getD_some]
    · rw [if_neg (by omega), Option.getD_none]
  unfold drawString
  rw [hwrites.foldl, stringAt]
  congr 1
  generalize str.takeWhile (· ≠ 0) = chars
  cases hch : chars[x - x₀]? with
  | none =>
      have hlen : chars.length ≤ x - x₀ := List.getElem?_eq_none_iff.mp hch
      rw [Option.map_none, ite_self]
      refine last_eq_none_iff.mpr fun c hc => if_neg fun hat => ?_
      have hlt := List.snd_lt_of_mem_zipIdx hc
      omega
  | some ch =>
      rw [Option.map_some]
      split
      · next hat =>
          refine last_of_agree (a := (ch, x - x₀)) ?_ (if_pos (by omega)) fun c hc u hu => ?_
          · exact List.mem_zipIdx_iff_getElem?.mpr hch
          · split at hu
            · next hc' =>
                have hget : chars[c.2]? = some c.1 := List.mem_zipIdx_iff_getElem?.mp hc
                have hidx : c.2 = x - x₀ := by omega
                rw [hidx, hch, Option.some.injEq] at hget
                rw [← Option.some.inj hu, hget]
            · exact absurd hu (by simp)
      · next hat =>
          refine last_eq_none_iff.mpr fun c hc => if_neg ?_
          omega

/-- A string leaves the other rows and what is to the left of it. -/
theorem at_drawString_of_ne {x₀ y₀ : ℕ} (hx : x < screenW) (hy : y < screenH)
    (h : y = y₀ → x < x₀) : (drawString buf x₀ y₀ str attr).at x y = buf.at x y := by
  rw [at_drawString _ _ _ _ _ hx hy, stringAt, if_neg (by omega), Option.getD_none]

/-- **A string can be read where it was drawn.** -/
theorem shows_drawString (buf : Buffer) (x₀ : ℕ) {y₀ : ℕ} (str : List UInt16) (attr : UInt16)
    (hy : y₀ < screenH) : (drawString buf x₀ y₀ str attr).Shows x₀ y₀ str := by
  intro i ch hch hx
  rw [at_drawString _ _ _ _ _ hx hy, stringAt, if_pos ⟨rfl, Nat.le_add_right _ _⟩,
    Nat.add_sub_cancel_left, hch]
  rfl

/-- It can be read as long as its cells are left alone. -/
theorem Buffer.Shows.kept {buf' : Buffer} (h : buf.Shows x y str)
    (hkept : ∀ x', x ≤ x' → x' < x + str.length → x' < screenW → buf'.at x' y = buf.at x' y) :
    buf'.Shows x y str := by
  intro i ch hch hx
  obtain ⟨hi, -⟩ := List.getElem?_eq_some_iff.mp hch
  have hlen : i < str.length := Nat.lt_of_lt_of_le hi (List.takeWhile_prefix _).length_le
  rw [hkept (x + i) (Nat.le_add_right _ _) (Nat.add_lt_add_left hlen x) hx]
  exact h i ch hch hx

/-- A line of the HUD: its title, and its value to the right of it. -/
structure Buffer.ShowsLine (buf : Buffer) (line : ℕ × String × List UInt16) : Prop where
  title : buf.Shows (hudX + 2) (hudY + line.1) (wideText line.2.1)
  value : buf.Shows (hudX + 10) (hudY + line.1) line.2.2

/-- A border leaves what is inside it and what is outside. -/
theorem at_drawBorder {x₀ y₀ w h : ℕ} (hx : x < screenW) (hy : y < screenH)
    (hoff : x < x₀ ∨ x₀ + w ≤ x ∨ y < y₀ ∨ y₀ + h ≤ y ∨
      (x₀ < x ∧ x + 1 < x₀ + w ∧ y₀ < y ∧ y + 1 < y₀ + h)) (hw : 2 ≤ w) (hh : 2 ≤ h) :
    (drawBorder buf x₀ y₀ w h).at x y = buf.at x y := by
  unfold drawBorder
  dsimp only
  rw [get_foldl_of_kept (fun buf : Buffer => buf.at x y) (fun buf j hj => ?_),
    get_foldl_of_kept (fun buf : Buffer => buf.at x y) (fun buf i hi => ?_)]
  · rw [at_setChar_of_ne _ _ hx hy (by omega), at_setChar_of_ne _ _ hx hy (by omega),
      at_setChar_of_ne _ _ hx hy (by omega), at_setChar_of_ne _ _ hx hy (by omega)]
  · have hrange := List.mem_range'_1.mp hi
    rw [at_setChar_of_ne _ _ hx hy (by omega), at_setChar_of_ne _ _ hx hy (by omega)]
  · have hrange := List.mem_range'_1.mp hj
    rw [at_setChar_of_ne _ _ hx hy (by omega), at_setChar_of_ne _ _ hx hy (by omega)]

/-! ## Tiles -/

variable {tx ty : ℕ} {me : Position} {now : ℕ}

/-- The tiles are on the screen. -/
theorem tile_onScreen (hx : tx < viewportTiles) (hy : ty < viewportTiles) :
    tileOffsetX + tx * tileWidth + 1 < screenW ∧ tileOffsetY + ty < screenH := by
  unfold tileOffsetX tileOffsetY tileWidth viewportBorderW viewportBorderH viewportTiles screenW
    screenH at *
  omega

/-- A tile that is drawn shows its look. -/
theorem tile_drawTile (buf : Buffer) (a b : Int) (look : CharInfo) (hx : tx < viewportTiles)
    (hy : ty < viewportTiles) :
    (drawTile buf a b look).tile tx ty =
      if a = tx ∧ b = ty then tileOf look else buf.tile tx ty := by
  obtain ⟨hcol, hrow⟩ := tile_onScreen hx hy
  have hcol' := Nat.lt_of_succ_lt hcol
  unfold drawTile Buffer.tile
  dsimp only
  rw [at_setChar _ _ _ _ _ hcol' hrow, at_setChar _ _ _ _ _ hcol' hrow,
    at_setChar _ _ _ _ _ hcol hrow, at_setChar _ _ _ _ _ hcol hrow]
  unfold tileWidth
  by_cases hab : a = tx ∧ b = ty
  · rw [if_pos hab, if_neg (by omega), if_pos (by omega), if_pos (by omega)]
    rfl
  · rw [if_neg hab, if_neg (by omega), if_neg (by omega), if_neg (by omega), if_neg (by omega)]

/-- Loops of tiles in terms of looks. -/
theorem tile_foldl {α : Type} {f : Buffer → α → Buffer} {look : α → Option CharInfo}
    (h : Writes (fun buf : Buffer => buf.tile tx ty) f fun a => (look a).map tileOf)
    (buf : Buffer) (l : List α) {under : CharInfo} (hunder : buf.tile tx ty = tileOf under) :
    (l.foldl f buf).tile tx ty = tileOf ((last look l).getD under) := by
  rw [h.foldl, last_map, hunder]
  cases last look l with
  | none => rfl
  | some v => rfl

/-- What the map has where a tile is. -/
theorem tile_drawMap (map : Map) (me : Position) (buf : Buffer) (hx : tx < viewportTiles)
    (hy : ty < viewportTiles) :
    (drawMap map me buf).tile tx ty =
      tileOf (mapLook map (tx - centerTile + me.x) (ty - centerTile + me.y)) := by
  have hrow : ∀ b : ℕ, Writes (fun buf : Buffer => buf.tile tx ty)
      (fun (buf : Buffer) (a : ℕ) => drawTile buf a b (mapLook map (a - centerTile + me.x)
        (b - centerTile + me.y)))
      fun a => if a = tx ∧ b = ty then
        some (tileOf (mapLook map (a - centerTile + me.x) (b - centerTile + me.y))) else none := by
    intro b buf a
    dsimp only
    rw [tile_drawTile _ _ _ _ hx hy]
    by_cases hab : a = tx ∧ b = ty
    · rw [if_pos (by omega), if_pos hab, Option.getD_some]
    · rw [if_neg (by omega), if_neg hab, Option.getD_none]
  unfold drawMap
  rw [(Writes.loop hrow).foldl]
  have hlast : last (fun b : ℕ => last (fun a : ℕ => if a = tx ∧ b = ty then
      some (tileOf (mapLook map (a - centerTile + me.x) (b - centerTile + me.y))) else none)
      (List.range viewportTiles)) (List.range viewportTiles) =
      some (tileOf (mapLook map (tx - centerTile + me.x) (ty - centerTile + me.y))) := by
    refine last_of_agree (List.mem_range.mpr hy) ?_ fun b _ u hu => ?_
    · refine last_of_agree (List.mem_range.mpr hx) (if_pos ⟨rfl, rfl⟩) fun a _ u hu => ?_
      split at hu
      · next hab => rw [← Option.some.inj hu, hab.1]
      · exact absurd hu (by simp)
    · obtain ⟨a, -, ha⟩ := exists_of_last hu
      split at ha
      · next hab => rw [← Option.some.inj ha, hab.1, hab.2]
      · exact absurd ha (by simp)
  rw [hlast, Option.getD_some]

/-- What an object puts on a tile. -/
def objectAt (me : Position) (tx ty : ℕ) (obj : RemoteObject) : Option CharInfo :=
  if obj.pos.x - me.x + centerTile = tx ∧ obj.pos.y - me.y + centerTile = ty then
    some (objectLook obj.type obj.name)
  else none

theorem writes_drawObject (me : Position) (hx : tx < viewportTiles) (hy : ty < viewportTiles) :
    Writes (fun buf : Buffer => buf.tile tx ty) (drawObject me)
      fun obj => (objectAt me tx ty obj).map tileOf := by
  intro buf obj
  unfold drawObject objectAt
  dsimp only
  split
  · rw [if_neg (by omega)]
    rfl
  · rw [tile_drawTile _ _ _ _ hx hy]
    split
    · rfl
    · rfl

/-- What a `plot` puts on a tile. -/
def plotAt (center me : Position) (tx ty : ℕ) (p : Plot) : Option CharInfo :=
  let w := p.pos center
  if w ≠ center ∧ w.x - me.x + centerTile = tx ∧ w.y - me.y + centerTile = ty then some p.look
  else none

theorem writes_plot (center me : Position) (hx : tx < viewportTiles) (hy : ty < viewportTiles) :
    Writes (fun buf : Buffer => buf.tile tx ty) (plot center me)
      fun p => (plotAt center me tx ty p).map tileOf := by
  intro buf p
  unfold plot plotAt
  dsimp only
  generalize p.pos center = w
  split
  · next hw =>
      rw [if_neg fun h => h.1 hw]
      rfl
  · next hw =>
      split
      · rw [if_neg (by omega)]
        rfl
      · split
        · rw [if_neg (by omega)]
          rfl
        · rw [tile_drawTile _ _ _ _ hx hy]
          by_cases hat : w.x - me.x + centerTile = tx ∧ w.y - me.y + centerTile = ty
          · rw [if_pos hat, if_pos ⟨hw, hat⟩]
            rfl
          · rw [if_neg hat, if_neg fun h => hat h.2]
            rfl

/-- What an effect puts on a tile. -/
def effectAt (me : Position) (now tx ty : ℕ) (e : AttackEffect) : Option CharInfo :=
  if lifetimeMs ≤ e.elapsed now then none
  else last (plotAt e.pos me tx ty) (plots (e.elapsed now / frameMs))

theorem writes_drawEffect (me : Position) (now : ℕ) (hx : tx < viewportTiles)
    (hy : ty < viewportTiles) :
    Writes (fun buf : Buffer => buf.tile tx ty) (drawEffect me now)
      fun e => (effectAt me now tx ty e).map tileOf := by
  intro buf e
  unfold drawEffect effectAt
  dsimp only
  by_cases hover : lifetimeMs ≤ e.elapsed now
  · rw [if_pos hover, if_pos hover]
    rfl
  · rw [if_neg hover, if_neg hover, drawAttackEffect, (writes_plot e.pos me hx hy).foldl, last_map]

/-- What the viewport shows on a tile: an attack effect over the own player over
the objects over the map. -/
def shownAt (map : Map) (me : Position) (objects : List RemoteObject) (effects : List AttackEffect)
    (now tx ty : ℕ) : CharInfo :=
  (last (effectAt me now tx ty) effects).getD
    (if tx = centerTile ∧ ty = centerTile then myLook
    else (last (objectAt me tx ty) objects).getD
      (mapLook map (tx - centerTile + me.x) (ty - centerTile + me.y)))

/-- **Every tile of the viewport shows what is on top of it.** -/
theorem tile_drawViewport (buf : Buffer) (map : Map) (me : Position) (objects : List RemoteObject)
    (effects : List AttackEffect) (now : ℕ) (hx : tx < viewportTiles) (hy : ty < viewportTiles) :
    (drawViewport buf map me objects effects now).tile tx ty =
      tileOf (shownAt map me objects effects now tx ty) := by
  unfold drawViewport shownAt
  dsimp only
  refine tile_foldl (writes_drawEffect me now hx hy) _ effects ?_
  rw [tile_drawTile _ _ _ _ hx hy]
  by_cases hcenter : tx = centerTile ∧ ty = centerTile
  · rw [if_pos hcenter, if_pos (by omega)]
  · rw [if_neg hcenter, if_neg (by omega)]
    exact tile_foldl (writes_drawObject me hx hy) _ objects (tile_drawMap map me _ hx hy)

end Renderer

end Mmorpg
