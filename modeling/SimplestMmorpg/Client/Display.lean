/-
The frames that `RenderGame` draws, one after the other.

`RecvThread` pushes lines to the log and adds attack effects while frames are
drawn, and `GetActiveEffects` forgets effects that are old. What a frame shows
depends on the frames before it only through the two lists: the log has the
last lines of all that were pushed, and no effect that is forgotten would have
been drawn again.

## What is not in the source

`pushed` and `added` are all lines and all effects there have been. Nothing
depends on them.
-/
import SimplestMmorpg.Client.Renderer

set_option autoImplicit false

namespace Mmorpg

open Renderer LastWrite

/-- What a frame reads: `IsLoggedIn`, `GetMyPlayer` and `GetAllObjects` in
`DrawViewport`, the time from `GetActiveEffects` to the clock, `GetMyPlayer` in
`DrawHUD`, and the arguments. -/
structure Reads where
  loggedIn : Bool
  me : MyPlayer
  objects : List RemoteObject
  lag : ℕ
  name : Bytes
  hud : MyPlayer
  chatMode : Bool
  chatChannel : ChatChannel
  chatBuffer : List UInt16

/-- The members of `Renderer` and `GameState` that frames and `RecvThread` share,
and what the console shows. -/
structure Display where
  logLines : List LogLine
  frameCount : ℕ
  effects : List AttackEffect
  now : ℕ
  console : Buffer
  pushed : List LogLine
  added : List AttackEffect

namespace Display

open Transition

variable (map : Map) (d : Display)

def init (now : ℕ) : Display := ⟨[], 0, [], now, clear, [], []⟩

/-- `PushLog`. -/
def pushLog (line : LogLine) : Display :=
  let logLines := d.logLines ++ [line]
  { d with
    logLines := logLines.drop (logLines.length - maxLogLines)
    pushed := d.pushed ++ [line] }

def addAttackEffect (pos : Position) : Display :=
  { d with
    effects := d.effects ++ [⟨pos, d.now⟩]
    added := d.added ++ [⟨pos, d.now⟩] }

/-- `remove_if` in `GetActiveEffects`: older than 400 ms. -/
def isOld (now : ℕ) (e : AttackEffect) : Bool := 400 * 1000000 < now - e.startTime

def getActiveEffects : Display :=
  { d with effects := d.effects.filter fun e => !isOld d.now e }

/-- What happens beside the frames. -/
inductive Write where
  | tick (ns : ℕ)
  | log (line : LogLine)
  | effect (pos : Position)

def write (d : Display) : Write → Display
  | .tick ns => { d with now := d.now + ns }
  | .log line => d.pushLog line
  | .effect pos => d.addAttackEffect pos

/-- `DrawViewport` and `DrawHUD`. -/
def drawWorld (reads : Reads) : Buffer :=
  drawHud (drawViewport clear map reads.me.pos reads.objects d.getActiveEffects.effects
    (d.now + reads.lag)) reads.name reads.hud

/-- `DrawLogBox` and what follows it. -/
def finishFrame (reads : Reads) (buf : Buffer) : Display :=
  let buf := drawLogBox buf d.logLines
  if reads.chatMode then
    { d with
      console := drawChatInputBar buf reads.chatChannel reads.chatBuffer (d.frameCount + 1)
      frameCount := d.frameCount + 1 }
  else { d with console := buf }

/-- `RenderGame`, with what happens before `DrawLogBox` reads the log. -/
def renderGame (reads : Reads) (during : List Write) : Display :=
  if ¬ reads.loggedIn then during.foldl write d
  else (during.foldl write d.getActiveEffects).finishFrame reads (d.drawWorld map reads)

inductive Event where
  | write (w : Write)
  | render (reads : Reads) (during : List Write)

def step (d : Display) : Event → Display
  | .write w => d.write w
  | .render reads during => d.renderGame map reads during

/-! ## Which cells are left alone -/

variable {map d} {buf : Buffer} {x y tx ty : ℕ} {reads : Reads} {during : List Write}

/-- The HUD is to the right of the viewport. -/
theorem at_drawHud (name : Bytes) (me : MyPlayer) (hx : x < hudX) (hy : y < screenH) :
    (drawHud buf name me).at x y = buf.at x y := by
  have hx' : x < screenW := Nat.lt_trans hx (by decide)
  unfold drawHud
  rw [get_foldl_of_kept (fun buf : Buffer => buf.at x y) fun buf line _ => ?_]
  · exact at_drawBorder hx' hy (.inl hx) (by decide) (by decide)
  · unfold drawHudLine
    dsimp only
    unfold hudX at *
    rw [at_drawString_of_ne hx' hy (by omega), at_drawString_of_ne hx' hy (by omega)]

/-- The log box is to the right of the viewport, below the HUD. -/
theorem at_drawLogBox (lines : List LogLine) (hx : x < screenW) (hy : y < screenH)
    (hoff : x < logX ∨ y < logY) : (drawLogBox buf lines).at x y = buf.at x y := by
  unfold drawLogBox
  dsimp only
  unfold logX logY at *
  rw [get_foldl_of_kept (fun buf : Buffer => buf.at x y) fun buf entry _ => ?_]
  · rw [at_drawString_of_ne hx hy (by omega)]
    exact at_drawBorder hx hy (by omega) (by decide) (by decide)
  · exact at_drawString_of_ne hx hy (by omega)

/-- The chat line is a row of the log box, below its last line. -/
theorem at_drawChatInputBar (channel : ChatChannel) (text : List UInt16) (count : ℕ)
    (hx : x < screenW) (hy : y < screenH) (hoff : x ≤ logX ∨ y ≠ logY + logH - 2) :
    (drawChatInputBar buf channel text count).at x y = buf.at x y := by
  unfold drawChatInputBar
  dsimp only
  generalize wideText (if channel = .global then "[GLOBAL] > " else "[VIEW]   > ") = label
  generalize (if channel = .global then foregroundRed ||| foregroundGreen ||| foregroundIntensity
    else foregroundRed ||| foregroundGreen ||| foregroundBlue ||| foregroundIntensity) = color
  unfold logX logY logH at *
  split
  · rw [at_setChar_of_ne _ _ hx hy (by omega), at_drawString_of_ne hx hy (by omega),
      at_drawString_of_ne hx hy (by omega)]
  · rw [at_drawString_of_ne hx hy (by omega), at_drawString_of_ne hx hy (by omega)]

/-- What is drawn last keeps away from the viewport and the HUD. -/
theorem at_finishFrame (reads : Reads) (buf : Buffer) (hx : x < screenW) (hy : y < screenH)
    (hoff : x < logX ∨ y < logY) : (d.finishFrame reads buf).console.at x y = buf.at x y := by
  unfold finishFrame
  dsimp only
  split
  · have hchat : x ≤ logX ∨ y ≠ logY + logH - 2 := by
      unfold logX logY logH at *
      omega
    rw [at_drawChatInputBar _ _ _ hx hy hchat, at_drawLogBox _ hx hy hoff]
  · exact at_drawLogBox _ hx hy hoff

/-! ## Texts -/

/-- A line shows its title and its value, if the title leaves room for it. -/
theorem showsLine_drawHudLine {line : ℕ × String × List UInt16}
    (hshort : (wideText line.2.1).length ≤ 8) (hlow : hudY + line.1 < screenH) (buf : Buffer) :
    (drawHudLine buf line).ShowsLine line where
  title := by
    have htitle := shows_drawString buf (hudX + 2) (wideText line.2.1)
      (foregroundGreen ||| foregroundBlue ||| foregroundIntensity) hlow
    -- the value is drawn after the title, and does not reach it
    exact htitle.kept fun x' _ hend hx' => at_drawString_of_ne hx' hlow (by omega)
  value := shows_drawString _ _ _ _ hlow

/-- Lines of the HUD on rows of their own can all be read. -/
theorem showsLine_foldl_drawHudLine {lines : List (ℕ × String × List UInt16)}
    (hrows : lines.Pairwise fun a b => a.1 ≠ b.1)
    (hshort : ∀ line ∈ lines, (wideText line.2.1).length ≤ 8)
    (hlow : ∀ line ∈ lines, hudY + line.1 < screenH) (buf : Buffer) :
    ∀ line ∈ lines, (lines.foldl drawHudLine buf).ShowsLine line := by
  induction lines generalizing buf with
  | nil => exact fun line hline => absurd hline List.not_mem_nil
  | cons a lines ih =>
      obtain ⟨hne, hrows⟩ := List.pairwise_cons.mp hrows
      obtain ⟨hshort, hshorts⟩ := List.forall_mem_cons.mp hshort
      obtain ⟨hlow, hlows⟩ := List.forall_mem_cons.mp hlow
      intro line hline
      rcases List.mem_cons.mp hline with rfl | hline
      · -- it is drawn first, and the others have other rows
        have hdrawn := showsLine_drawHudLine hshort hlow buf
        have hkept : ∀ x', x' < screenW → (lines.foldl drawHudLine (drawHudLine buf line)).at x'
            (hudY + line.1) = (drawHudLine buf line).at x' (hudY + line.1) := by
          intro x' hx'
          refine get_foldl_of_kept (fun buf : Buffer => buf.at x' (hudY + line.1))
            (fun buf b hb => ?_) (drawHudLine buf line)
          have hrow := hne b hb
          unfold drawHudLine
          dsimp only
          rw [at_drawString_of_ne hx' hlow (by omega), at_drawString_of_ne hx' hlow (by omega)]
        rw [List.foldl_cons]
        exact ⟨hdrawn.title.kept fun x' _ _ hx' => hkept x' hx',
          hdrawn.value.kept fun x' _ _ hx' => hkept x' hx'⟩
      · exact ih hrows hshorts hlows _ line hline

theorem showsLine_drawHud (buf : Buffer) (name : Bytes) (me : MyPlayer) :
    ∀ line ∈ hudLines name me, (drawHud buf name me).ShowsLine line :=
  showsLine_foldl_drawHudLine (by simp [hudLines]) (by simp [hudLines, wideText])
    (by simp [hudLines, hudY, screenH]) _

/-- The HUD stays when the frame is finished. -/
theorem showsLine_finishFrame (d : Display) (reads : Reads) (buf : Buffer) (name : Bytes)
    (me : MyPlayer) : ∀ line ∈ hudLines name me,
      (d.finishFrame reads (drawHud buf name me)).console.ShowsLine line := by
  intro line hline
  have hlow : hudY + line.1 < logY := by
    have hrows : ∀ line ∈ hudLines name me, hudY + line.1 < logY := by
      simp [hudLines, hudY, logY]
    exact hrows line hline
  have hdrawn := showsLine_drawHud buf name me line hline
  have hkept : ∀ x', x' < screenW → (d.finishFrame reads (drawHud buf name me)).console.at x'
      (hudY + line.1) = (drawHud buf name me).at x' (hudY + line.1) := fun x' hx' =>
    at_finishFrame reads _ hx' (Nat.lt_trans hlow (by decide)) (.inr hlow)
  exact ⟨hdrawn.title.kept fun x' _ _ hx' => hkept x' hx',
    hdrawn.value.kept fun x' _ _ hx' => hkept x' hx'⟩

/-- **The log box has the last lines, one on each row.** -/
theorem shows_drawLogBox (buf : Buffer) (lines : List LogLine) {r : ℕ} {line : LogLine}
    (hline : (lines.drop (lines.length - (logH - 3)))[r]? = some line) :
    (drawLogBox buf lines).Shows (logX + 1) (logY + 1 + r) (line.text.take (logW - 2)) := by
  have hrow : logY + 1 + r < screenH := by
    obtain ⟨hr, -⟩ := List.getElem?_eq_some_iff.mp hline
    rw [List.length_drop] at hr
    unfold logY logH screenH at *
    omega
  intro i ch hch hx
  have hwrites : Writes (fun buf : Buffer => buf.at (logX + 1 + i) (logY + 1 + r))
      (fun (buf : Buffer) (entry : LogLine × ℕ) => drawString buf (logX + 1) (logY + 1 + entry.2)
        (entry.1.text.take (logW - 2)) entry.1.color)
      fun entry => stringAt (logX + 1) (logY + 1 + entry.2) (entry.1.text.take (logW - 2))
        entry.1.color (logX + 1 + i) (logY + 1 + r) :=
    fun buf entry => at_drawString _ _ _ _ _ hx hrow
  have hlast : last (fun entry : LogLine × ℕ => stringAt (logX + 1) (logY + 1 + entry.2)
      (entry.1.text.take (logW - 2)) entry.1.color (logX + 1 + i) (logY + 1 + r))
      (lines.drop (lines.length - (logH - 3))).zipIdx = some ⟨ch, line.color⟩ := by
    have hself : stringAt (logX + 1) (logY + 1 + r) (line.text.take (logW - 2)) line.color
        (logX + 1 + i) (logY + 1 + r) = some ⟨ch, line.color⟩ := by
      rw [stringAt, if_pos ⟨rfl, Nat.le_add_right _ _⟩, Nat.add_sub_cancel_left, hch]
      rfl
    refine last_of_agree (a := (line, r)) (List.mem_zipIdx_iff_getElem?.mpr hline) hself
      fun entry hentry u hu => ?_
    -- another entry has another row
    have hsame : entry.2 = r := by
      by_contra hne
      rw [stringAt, if_neg (by omega)] at hu
      exact absurd hu (by simp)
    have hget := List.mem_zipIdx_iff_getElem?.mp hentry
    rw [hsame, hline, Option.some.injEq] at hget
    rw [hsame, ← hget, hself] at hu
    exact (Option.some.inj hu).symm
  unfold drawLogBox
  dsimp only
  rw [hwrites.foldl, hlast]
  rfl

/-! ## What is kept of all there has been -/

/-- The log has the last lines, and the effects are those that were not old at
some time. -/
structure Kept (d : Display) : Prop where
  log : d.logLines = d.pushed.drop (d.pushed.length - maxLogLines)
  effects : ∃ t ≤ d.now, d.effects = d.added.filter fun e => !isOld t e

theorem kept_init (now : ℕ) : Kept (init now) := ⟨rfl, now, Nat.le_refl _, rfl⟩

theorem kept_write (h : Kept d) (w : Write) : Kept (d.write w) := by
  obtain ⟨hlog, t, ht, heffects⟩ := h
  cases w with
  | tick ns => exact ⟨hlog, t, Nat.le_add_right_of_le ht, heffects⟩
  | log line =>
      refine ⟨?_, t, ht, heffects⟩
      unfold write pushLog
      dsimp only
      -- dropping again from what was dropped to
      rw [hlog, ← List.drop_append_of_le_length (Nat.sub_le _ _), List.drop_drop]
      congr 1
      simp only [List.length_drop, List.length_append, List.length_singleton]
      omega
  | effect pos =>
      refine ⟨hlog, t, ht, ?_⟩
      have hnew : isOld t ⟨pos, d.now⟩ = false := by
        unfold isOld
        rw [Nat.sub_eq_zero_of_le ht]
        rfl
      have hsplit := List.filter_append (p := fun e => !isOld t e) d.added [⟨pos, d.now⟩]
      rw [List.filter_singleton, hnew] at hsplit
      exact (congrArg (· ++ [_]) heffects).trans hsplit.symm

/-- What is old stays old. -/
theorem isOld_mono {t now : ℕ} (h : t ≤ now) {e : AttackEffect} (hold : isOld t e = true) :
    isOld now e = true := by
  unfold isOld at *
  rw [decide_eq_true_eq] at *
  omega

theorem effects_getActiveEffects (h : Kept d) :
    d.getActiveEffects.effects = d.added.filter fun e => !isOld d.now e := by
  obtain ⟨-, t, ht, heffects⟩ := h
  unfold getActiveEffects
  dsimp only
  rw [heffects, List.filter_filter]
  refine List.filter_congr fun e _ => ?_
  cases hnow : isOld d.now e with
  | true => rfl
  | false =>
      cases hold : isOld t e with
      | true => rw [isOld_mono ht hold] at hnow; exact absurd hnow (by simp)
      | false => rfl

theorem kept_getActiveEffects (h : Kept d) : Kept d.getActiveEffects :=
  ⟨h.log, d.now, Nat.le_refl _, effects_getActiveEffects h⟩

theorem kept_writes (h : Kept d) (during : List Write) : Kept (during.foldl write d) := by
  induction during generalizing d with
  | nil => exact h
  | cons w during ih => exact ih (kept_write h w)

theorem kept_finishFrame (h : Kept d) (reads : Reads) (buf : Buffer) :
    Kept (d.finishFrame reads buf) := by
  unfold finishFrame
  dsimp only
  split
  · exact ⟨h.log, h.effects⟩
  · exact ⟨h.log, h.effects⟩

theorem kept_step (d : Display) (e : Event) (h : Kept d) : Kept (step map d e) := by
  cases e with
  | write w => exact kept_write h w
  | render reads during =>
      have hstep : step map d (.render reads during) = d.renderGame map reads during := rfl
      rw [hstep, renderGame]
      split
      · exact kept_writes h during
      · exact kept_finishFrame (kept_writes (kept_getActiveEffects h) during) reads _

theorem pushed_finishFrame (d : Display) (reads : Reads) (buf : Buffer) :
    (d.finishFrame reads buf).pushed = d.pushed := by
  unfold finishFrame
  dsimp only
  split
  · rfl
  · rfl

/-- **What is forgotten would not be drawn.** -/
theorem effectAt_of_isOld {me : Position} {now : ℕ} {e : AttackEffect} (h : isOld now e = true)
    (lag : ℕ) : effectAt me (now + lag) tx ty e = none := by
  unfold isOld at h
  rw [decide_eq_true_eq] at h
  refine if_pos ?_
  unfold lifetimeMs frameMs totalFrames AttackEffect.elapsed
  omega

/-- The tiles of a frame, in terms of all effects there have been. -/
theorem tile_renderGame (h : Kept d) (hlogin : reads.loggedIn = true) (during : List Write)
    (hx : tx < viewportTiles) (hy : ty < viewportTiles) :
    (d.renderGame map reads during).console.tile tx ty =
      tileOf (shownAt map reads.me.pos reads.objects d.added (d.now + reads.lag) tx ty) := by
  obtain ⟨hcol, hrow⟩ := tile_onScreen hx hy
  have hleft : tileOffsetX + tx * tileWidth + 1 < hudX := by
    unfold tileOffsetX tileWidth viewportTiles viewportBorderW hudX at *
    omega
  rw [renderGame, if_neg (by simp [hlogin])]
  generalize during.foldl write d.getActiveEffects = d'
  have hworld : (d'.finishFrame reads (d.drawWorld map reads)).console.tile tx ty =
      (drawViewport clear map reads.me.pos reads.objects d.getActiveEffects.effects
        (d.now + reads.lag)).tile tx ty := by
    unfold Buffer.tile drawWorld
    rw [at_finishFrame reads _ (Nat.lt_of_succ_lt hcol) hrow (.inl (Nat.lt_of_succ_lt hleft)),
      at_finishFrame reads _ hcol hrow (.inl hleft),
      at_drawHud _ _ (Nat.lt_of_succ_lt hleft) hrow, at_drawHud _ _ hleft hrow]
  rw [hworld, tile_drawViewport _ _ _ _ _ _ hx hy, effects_getActiveEffects h, shownAt, shownAt,
    last_filter fun e _ hold => effectAt_of_isOld (by simpa using hold) reads.lag]

/-! ## Whole runs -/

/-- The log of a frame that is finished has the lines that were pushed last. -/
theorem shows_log_finishFrame (h : Kept d) (reads : Reads) (buf : Buffer) {r : ℕ} {line : LogLine}
    (hline : (d.pushed.drop (d.pushed.length - maxLogLines))[r]? = some line) :
    (d.finishFrame reads buf).console.Shows (logX + 1) (logY + 1 + r)
      (line.text.take (logW - 2)) := by
  rw [← h.log] at hline
  obtain ⟨hr, -⟩ := List.getElem?_eq_some_iff.mp hline
  have hlen : d.logLines.length ≤ maxLogLines := by
    rw [h.log, List.length_drop]
    omega
  have hdrop : d.logLines.drop (d.logLines.length - (logH - 3)) = d.logLines := by
    have hall : logH - 3 = maxLogLines := rfl
    rw [hall, Nat.sub_eq_zero_of_le hlen, List.drop_zero]
  rw [← hdrop] at hline
  have hbox := shows_drawLogBox buf d.logLines hline
  have hrow : logY + 1 + r < screenH ∧ logY + 1 + r ≠ logY + logH - 2 := by
    unfold logY logH screenH maxLogLines at *
    omega
  unfold finishFrame
  dsimp only
  split
  · exact hbox.kept fun x' _ _ hx' => at_drawChatInputBar _ _ _ hx' hrow.1 (.inr hrow.2)
  · exact hbox

theorem kept_run (map : Map) (now : ℕ) (es : List Event) : Kept (run (step map) (init now) es) :=
  Transition.invariant (I := Kept) (C := fun _ _ => True) (fun d e h _ => kept_step d e h)
    (kept_init now) (along_of_forall fun _ _ _ => trivial)

/-- The three parts of a frame. -/
theorem frame_renderGame (h : Kept d) (hlogin : reads.loggedIn = true) (map : Map)
    (during : List Write) :
    (∀ tx ty, tx < viewportTiles → ty < viewportTiles →
      (d.renderGame map reads during).console.tile tx ty =
        tileOf (shownAt map reads.me.pos reads.objects d.added (d.now + reads.lag) tx ty)) ∧
    (∀ line ∈ hudLines reads.name reads.hud,
      (d.renderGame map reads during).console.ShowsLine line) ∧
    (∀ r line, ((d.renderGame map reads during).pushed.drop
        ((d.renderGame map reads during).pushed.length - maxLogLines))[r]? = some line →
      (d.renderGame map reads during).console.Shows (logX + 1) (logY + 1 + r)
        (line.text.take (logW - 2))) := by
  have hafter : d.renderGame map reads during =
      (during.foldl write d.getActiveEffects).finishFrame reads (d.drawWorld map reads) :=
    if_neg (by simp [hlogin])
  refine ⟨fun tx ty hx hy => tile_renderGame h hlogin during hx hy, ?_, ?_⟩
  · rw [hafter]
    exact showsLine_finishFrame _ reads _ reads.name reads.hud
  · rw [hafter, pushed_finishFrame]
    exact fun r line hline =>
      shows_log_finishFrame (kept_writes (kept_getActiveEffects h) during) reads _ hline

/-- **What a frame shows.** After any lines, effects and frames, a frame shows on
each tile what is on top of it, where the effects are all that there have been;
in the HUD the own player; and in the log box the last lines of all that were
pushed before it is drawn, each up to its width. -/
theorem frame_run (map : Map) (now : ℕ) (es : List Event) (reads : Reads) (during : List Write)
    (hlogin : reads.loggedIn = true) :
    let d := run (step map) (init now) es
    let after := d.renderGame map reads during
    (∀ tx ty, tx < viewportTiles → ty < viewportTiles → after.console.tile tx ty =
      tileOf (shownAt map reads.me.pos reads.objects d.added (d.now + reads.lag) tx ty)) ∧
    (∀ line ∈ hudLines reads.name reads.hud, after.console.ShowsLine line) ∧
    (∀ r line, (after.pushed.drop (after.pushed.length - maxLogLines))[r]? = some line →
      after.console.Shows (logX + 1) (logY + 1 + r) (line.text.take (logW - 2))) :=
  frame_renderGame (kept_run map now es) hlogin map during

/-- A player that attacks, next to a tree. -/
theorem frame_run_attack :
    let d := run (step ⟨fun _ => 1⟩) (init 0) [.write (.effect ⟨5, 5⟩), .write (.tick 1000)]
    let reads : Reads := ⟨true, ⟨0, ⟨5, 5⟩, 1, 0, 100, 100⟩, [], 0, [], ⟨0, ⟨5, 5⟩, 1, 0, 100, 100⟩,
      false, .view, []⟩
    let console := (d.renderGame ⟨fun _ => 1⟩ reads []).console
    console.tile 11 10 = tileOf ⟨wide '.', bright⟩ ∧
      console.tile 11 11 = tileOf ⟨wide '♣', foregroundGreen ||| foregroundIntensity⟩ := by
  intro d reads console
  have hframe := (frame_run ⟨fun _ => 1⟩ 0 [.write (.effect ⟨5, 5⟩), .write (.tick 1000)] reads []
    rfl).1
  refine ⟨(hframe 11 10 (by decide) (by decide)).trans ?_,
    (hframe 11 11 (by decide) (by decide)).trans ?_⟩
  · decide
  · decide

end Display

end Mmorpg
