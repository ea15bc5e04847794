/-
`Client/InputHandler`: what the keyboard makes of a name, a line and a move.

`_kbhit` says whether a code is waiting and `_getch` takes it; the input of each
function is the list of codes that are waiting or come while it reads. A
function or arrow key is two codes, of which the first is 0 or 0xE0. The second
`_getch` for it waits, so the list does not end between the two; the functions
are defined there all the same, and drop the first.

The two cooldowns read the clock at each test: `clock k` is what it says when
the code `k` has been read.
-/
import SimplestMmorpg.Common.Types

set_option autoImplicit false

namespace Mmorpg

structure InputHandler where
  isChatMode : Bool
  lastMoveTime : ℕ
  lastAttackTime : ℕ
  deriving DecidableEq, Repr

/-- `Direction`. -/
inductive Direction where
  | up
  | down
  | left
  | right
  deriving DecidableEq, Repr

def Direction.code : Direction → ℕ
  | .up => 0
  | .down => 1
  | .left => 2
  | .right => 3

namespace InputHandler

structure MenuInputResult where
  enterPressed : Bool
  escPressed : Bool
  deriving DecidableEq, Repr

structure ChatInputResult where
  submit : Bool
  cancel : Bool
  channelToggled : Bool
  deriving DecidableEq, Repr

/-- `moveDir` has its default when there is no move. -/
structure GameInputResult where
  hasMove : Bool
  moveDir : Direction
  attackPressed : Bool
  escPressed : Bool
  chatModeEntered : Bool
  deriving DecidableEq, Repr

/-- The initial values of the members. -/
def init : InputHandler := ⟨false, 0, 0⟩

def enterChatMode (input : InputHandler) : InputHandler := { input with isChatMode := true }

def exitChatMode (input : InputHandler) : InputHandler := { input with isChatMode := false }

/-! ## Text -/

/-- Letters and digits. -/
def IsNameChar (ch : UInt8) : Prop :=
  (97 ≤ ch ∧ ch ≤ 122) ∨ (65 ≤ ch ∧ ch ≤ 90) ∨ (48 ≤ ch ∧ ch ≤ 57)

/-- Letters, digits, blanks and punctuation. -/
def IsChatChar (ch : UInt8) : Prop := 32 ≤ ch ∧ ch < 127

instance (ch : UInt8) : Decidable (IsNameChar ch) := by unfold IsNameChar; infer_instance

instance (ch : UInt8) : Decidable (IsChatChar ch) := by unfold IsChatChar; infer_instance

/-- `ProcessMainMenuInput`: the result, the name, and the codes that are still
waiting. -/
def processMainMenuInput (nameInput : Bytes) :
    List UInt8 → MenuInputResult × Bytes × List UInt8
  | [] => (⟨false, false⟩, nameInput, [])
  | ch :: codes =>
    if ch = 27 then (⟨false, true⟩, nameInput, codes)
    else if ch = 13 then (⟨true, false⟩, nameInput, codes)
    else if ch = 8 then processMainMenuInput nameInput.dropLast codes
    else if ch = 0 ∨ ch = 0xE0 then
      match codes with
      | [] => (⟨false, false⟩, nameInput, [])
      | _ :: codes => processMainMenuInput nameInput codes
    else if nameInput.length < 16 ∧ IsNameChar ch then
      processMainMenuInput (nameInput ++ [ch]) codes
    else processMainMenuInput nameInput codes

/-- `ProcessChatInput`, from a result on. -/
def processChatInput (result : ChatInputResult) (message : Bytes) :
    List UInt8 → ChatInputResult × Bytes × List UInt8
  | [] => (result, message, [])
  | ch :: codes =>
    if ch = 27 then ({ result with cancel := true }, message, codes)
    else if ch = 13 then ({ result with submit := true }, message, codes)
    else if ch = 9 then processChatInput { result with channelToggled := true } message codes
    else if ch = 8 then processChatInput result message.dropLast codes
    else if ch = 0 ∨ ch = 0xE0 then
      match codes with
      | [] => (result, message, [])
      | _ :: codes => processChatInput result message codes
    else if message.length < 100 ∧ IsChatChar ch then
      processChatInput result (message ++ [ch]) codes
    else processChatInput result message codes

/-! ## The game -/

/-- `CheckMoveCooldown`; the time is kept when it succeeds. -/
def checkMoveCooldown (input : InputHandler) (now : ℕ) : Option InputHandler :=
  if now - input.lastMoveTime < moveCooldownMs then none
  else some { input with lastMoveTime := now }

/-- `CheckAttackCooldown`. -/
def checkAttackCooldown (input : InputHandler) (now : ℕ) : Option InputHandler :=
  if now - input.lastAttackTime < attackCooldownMs then none
  else some { input with lastAttackTime := now }

/-- The direction of an arrow key, by its second code. -/
def arrowDir (arrow : UInt8) : Option Direction :=
  if arrow = 72 then some .up
  else if arrow = 80 then some .down
  else if arrow = 75 then some .left
  else if arrow = 77 then some .right
  else none

/-- An arrow key. -/
def onArrow (arrow : UInt8) (now : ℕ) (result : GameInputResult) (input : InputHandler) :
    GameInputResult × InputHandler :=
  match arrowDir arrow with
  | none => (result, input)
  | some dir =>
    match input.checkMoveCooldown now with
    | none => (result, input)
    | some input => ({ result with hasMove := true, moveDir := dir }, input)

/-- The space bar. -/
def onSpace (now : ℕ) (result : GameInputResult) (input : InputHandler) :
    GameInputResult × InputHandler :=
  match input.checkAttackCooldown now with
  | none => (result, input)
  | some input => ({ result with attackPressed := true }, input)

/-- A key that is one code, when it is not ESC. -/
def onKey (ch : UInt8) (now : ℕ) (result : GameInputResult) (input : InputHandler) :
    GameInputResult × InputHandler :=
  let read := if ch = 32 then onSpace now result input else (result, input)
  if ch = 13 then ({ read.1 with chatModeEntered := true }, read.2) else read

/-- `ProcessGameInput`, from a result on. It reads all codes. -/
def processGameInput (clock : ℕ → ℕ) (result : GameInputResult) (input : InputHandler) :
    List UInt8 → GameInputResult × InputHandler
  | [] => (result, input)
  | ch :: codes =>
    if ch = 27 then
      processGameInput (fun k => clock (k + 1)) { result with escPressed := true } input codes
    else if ch = 0 ∨ ch = 0xE0 then
      match codes with
      | [] => (result, input)
      | arrow :: codes =>
        let (result, input) := onArrow arrow (clock 1) result input
        processGameInput (fun k => clock (k + 2)) result input codes
    else
      let (result, input) := onKey ch (clock 0) result input
      processGameInput (fun k => clock (k + 1)) result input codes

/-! ## What is typed

`edit` is a line of text under the keys, with no notion of when it is read. What
the two functions leave is the line under the codes they have read. -/

section Edit

variable (size : ℕ) (ok : UInt8 → Prop)

/-- At most so many characters, and all of them allowed. -/
def IsLine (line : Bytes) : Prop := line.length ≤ size ∧ ∀ ch ∈ line, ok ch

variable {size ok} {line : Bytes} {ch : UInt8} {codes : List UInt8}

variable (size ok) in
theorem isLine_nil : IsLine size ok [] :=
  ⟨Nat.zero_le _, fun _ hch => absurd hch List.not_mem_nil⟩

theorem IsLine.dropLast (h : IsLine size ok line) : IsLine size ok line.dropLast :=
  ⟨Nat.le_trans line.dropLast_sublist.length_le h.1,
    fun ch hch => h.2 ch (List.dropLast_subset line hch)⟩

theorem IsLine.concat (h : IsLine size ok line) (hch : line.length < size ∧ ok ch) :
    IsLine size ok (line ++ [ch]) := by
  refine ⟨?_, List.forall_mem_append.mpr ⟨h.2, List.forall_mem_singleton.mpr hch.2⟩⟩
  rw [List.length_append, List.length_singleton]
  exact hch.1

variable (size ok) [DecidablePred ok]

/-- A line of at most `size` characters under the keys: backspace takes the last
one away, and what is not a character of the line is ignored. -/
def edit (line : Bytes) : List UInt8 → Bytes
  | [] => line
  | ch :: codes =>
    if ch = 8 then edit line.dropLast codes
    else if ch = 0 ∨ ch = 0xE0 then
      match codes with
      | [] => line
      | _ :: codes => edit line codes
    else if line.length < size ∧ ok ch then edit (line ++ [ch]) codes
    else edit line codes

variable {size ok}

/-- It stays a line, whatever is typed. -/
theorem isLine_edit (h : IsLine size ok line) (codes : List UInt8) :
    IsLine size ok (edit size ok line codes) := by
  fun_induction edit size ok line codes with
  | case1 | case3 => exact h
  | case2 line codes ih => exact ih h.dropLast
  | case4 line ch _ _ _ codes ih => exact ih h
  | case5 line ch codes _ _ hch ih => exact ih (h.concat hch)
  | case6 line ch codes _ _ _ ih => exact ih h

theorem edit_backspace (line : Bytes) (codes : List UInt8) :
    edit size ok line (8 :: codes) = edit size ok line.dropLast codes := by
  rw [edit.eq_def]
  rfl

theorem edit_extended (h : ch = 0 ∨ ch = 0xE0) (line : Bytes) (code : UInt8) (codes : List UInt8) :
    edit size ok line (ch :: code :: codes) = edit size ok line codes := by
  rw [edit, if_neg (by rintro rfl; simp at h), if_pos h]

theorem edit_char (h8 : ch ≠ 8) (hextended : ¬ (ch = 0 ∨ ch = 0xE0))
    (hch : line.length < size ∧ ok ch) (codes : List UInt8) :
    edit size ok line (ch :: codes) = edit size ok (line ++ [ch]) codes := by
  rw [edit.eq_def]
  dsimp only
  rw [if_neg h8, if_neg hextended, if_pos hch]

theorem edit_other (h8 : ch ≠ 8) (hextended : ¬ (ch = 0 ∨ ch = 0xE0))
    (hch : ¬ (line.length < size ∧ ok ch)) (codes : List UInt8) :
    edit size ok line (ch :: codes) = edit size ok line codes := by
  rw [edit.eq_def]
  dsimp only
  rw [if_neg h8, if_neg hextended, if_neg hch]

/-! ### What is read of the codes -/

/-- No key is cut in half. -/
inductive Whole : List UInt8 → Prop where
  | nil : Whole []
  | key {ch : UInt8} {codes : List UInt8} : ¬ (ch = 0 ∨ ch = 0xE0) → Whole codes →
      Whole (ch :: codes)
  | extended {ch code : UInt8} {codes : List UInt8} : ch = 0 ∨ ch = 0xE0 → Whole codes →
      Whole (ch :: code :: codes)

theorem Whole.append {more : List UInt8} (h : Whole codes) (hmore : Whole more) :
    Whole (codes ++ more) := by
  induction h with
  | nil => exact hmore
  | key hch _ ih => exact .key hch ih
  | extended hch _ ih => exact .extended hch ih

theorem Whole.tail (h : Whole (ch :: codes)) (hch : ¬ (ch = 0 ∨ ch = 0xE0)) : Whole codes := by
  cases h with
  | key _ h => exact h
  | extended hextended _ => exact absurd hextended hch

theorem Whole.drop {code : UInt8} (h : Whole (ch :: code :: codes)) (hch : ch = 0 ∨ ch = 0xE0) :
    Whole codes := by
  cases h with
  | key hkey _ => exact absurd hch hkey
  | extended _ h => exact h

/-- Keys are typed one after the other. -/
theorem edit_append (h : Whole codes) (line : Bytes) (more : List UInt8) :
    edit size ok line (codes ++ more) = edit size ok (edit size ok line codes) more := by
  induction h generalizing line with
  | nil => rfl
  | @key ch codes hch _ ih =>
      by_cases h8 : ch = 8
      · rw [h8, List.cons_append, edit_backspace, edit_backspace, ih]
      · by_cases hok : line.length < size ∧ ok ch
        · rw [List.cons_append, edit_char h8 hch hok, edit_char h8 hch hok, ih]
        · rw [List.cons_append, edit_other h8 hch hok, edit_other h8 hch hok, ih]
  | extended hch _ ih =>
      rw [List.cons_append, List.cons_append, edit_extended hch, edit_extended hch, ih]

variable (size ok) in
/-- Some of the codes have been read, and the line is what they make of it. -/
def Reads (line : Bytes) (codes : List UInt8) (line' : Bytes) (rest : List UInt8) : Prop :=
  ∃ used, codes = used ++ rest ∧ line' = edit size ok line used ∧
    (Whole codes → Whole used ∧ Whole rest)

variable {line' : Bytes} {rest : List UInt8}

theorem Reads.nil : Reads size ok line [] line [] :=
  ⟨[], rfl, rfl, fun _ => ⟨.nil, .nil⟩⟩

/-- A key that does nothing to the line, and is the last that is read. -/
theorem Reads.stop (hok : ¬ ok ch) (h8 : ch ≠ 8) (hextended : ¬ (ch = 0 ∨ ch = 0xE0)) :
    Reads size ok line (ch :: codes) line codes := by
  refine ⟨[ch], rfl, ?_, fun h => ⟨.key hextended .nil, h.tail hextended⟩⟩
  rw [edit_other h8 hextended fun h => hok h.2]
  rfl

/-- The first of two codes, and no second. -/
theorem Reads.half (hextended : ch = 0 ∨ ch = 0xE0) : Reads size ok line [ch] line [] := by
  refine ⟨[ch], rfl, ?_, fun h => ⟨h, .nil⟩⟩
  rcases hextended with rfl | rfl
  · rfl
  · rfl

theorem Reads.backspace (h : Reads size ok line.dropLast codes line' rest) :
    Reads size ok line (8 :: codes) line' rest := by
  obtain ⟨used, rfl, rfl, hwhole⟩ := h
  have hkey : ¬ ((8 : UInt8) = 0 ∨ (8 : UInt8) = 0xE0) := by decide
  refine ⟨8 :: used, rfl, (edit_backspace line used).symm, fun h => ?_⟩
  obtain ⟨hused, hrest⟩ := hwhole (h.tail hkey)
  exact ⟨.key hkey hused, hrest⟩

theorem Reads.extended {code : UInt8} (hextended : ch = 0 ∨ ch = 0xE0)
    (h : Reads size ok line codes line' rest) :
    Reads size ok line (ch :: code :: codes) line' rest := by
  obtain ⟨used, rfl, rfl, hwhole⟩ := h
  refine ⟨ch :: code :: used, rfl, (edit_extended hextended line code used).symm, fun h => ?_⟩
  obtain ⟨hused, hrest⟩ := hwhole (h.drop hextended)
  exact ⟨.extended hextended hused, hrest⟩

theorem Reads.char (h8 : ch ≠ 8) (hextended : ¬ (ch = 0 ∨ ch = 0xE0))
    (hch : line.length < size ∧ ok ch) (h : Reads size ok (line ++ [ch]) codes line' rest) :
    Reads size ok line (ch :: codes) line' rest := by
  obtain ⟨used, rfl, rfl, hwhole⟩ := h
  refine ⟨ch :: used, rfl, (edit_char h8 hextended hch used).symm, fun h => ?_⟩
  obtain ⟨hused, hrest⟩ := hwhole (h.tail hextended)
  exact ⟨.key hextended hused, hrest⟩

theorem Reads.other (h8 : ch ≠ 8) (hextended : ¬ (ch = 0 ∨ ch = 0xE0))
    (hch : ¬ (line.length < size ∧ ok ch)) (h : Reads size ok line codes line' rest) :
    Reads size ok line (ch :: codes) line' rest := by
  obtain ⟨used, rfl, rfl, hwhole⟩ := h
  refine ⟨ch :: used, rfl, (edit_other h8 hextended hch used).symm, fun h => ?_⟩
  obtain ⟨hused, hrest⟩ := hwhole (h.tail hextended)
  exact ⟨.key hextended hused, hrest⟩

end Edit

/-- At most 16 letters and digits. -/
abbrev IsName : Bytes → Prop := IsLine 16 IsNameChar

/-- At most 100 printable characters. -/
abbrev IsMessage : Bytes → Prop := IsLine 100 IsChatChar

/-- **What the menu reads.** -/
theorem reads_processMainMenuInput (nameInput : Bytes) (codes : List UInt8) :
    Reads 16 IsNameChar nameInput codes (processMainMenuInput nameInput codes).2.1
      (processMainMenuInput nameInput codes).2.2 := by
  fun_induction processMainMenuInput nameInput codes with
  | case1 => exact .nil
  | case2 => exact .stop (by decide) (by decide) (by decide)
  | case3 => exact .stop (by decide) (by decide) (by decide)
  | case4 nameInput codes _ _ ih => exact ih.backspace
  | case5 nameInput ch _ _ _ hextended => exact .half hextended
  | case6 nameInput ch _ _ _ hextended code codes ih => exact ih.extended hextended
  | case7 nameInput ch codes _ _ h8 hextended hch ih => exact ih.char h8 hextended hch
  | case8 nameInput ch codes _ _ h8 hextended hch ih => exact ih.other h8 hextended hch

/-- **What the chat line reads.** -/
theorem reads_processChatInput (result : ChatInputResult) (message : Bytes) (codes : List UInt8) :
    Reads 100 IsChatChar message codes (processChatInput result message codes).2.1
      (processChatInput result message codes).2.2 := by
  fun_induction processChatInput result message codes with
  | case1 => exact .nil
  | case2 => exact .stop (by decide) (by decide) (by decide)
  | case3 => exact .stop (by decide) (by decide) (by decide)
  | case4 result message codes _ _ ih =>
      exact ih.other (by decide) (by decide) fun h => absurd h.2 (by decide)
  | case5 result message codes _ _ _ ih => exact ih.backspace
  | case6 result message ch _ _ _ _ hextended => exact .half hextended
  | case7 result message ch _ _ _ _ hextended code codes ih => exact ih.extended hextended
  | case8 result message ch codes _ _ _ h8 hextended hch ih => exact ih.char h8 hextended hch
  | case9 result message ch codes _ _ _ h8 hextended hch ih => exact ih.other h8 hextended hch

/-! ## The cooldowns -/

/-- What reading keys does to the result and the times: an action is new only
when its cooldown has passed. -/
structure Pressed (result : GameInputResult) (input : InputHandler) (result' : GameInputResult)
    (input' : InputHandler) : Prop where
  isChatMode : input'.isChatMode = input.isChatMode
  move : (result'.hasMove = result.hasMove ∧ input'.lastMoveTime = input.lastMoveTime) ∨
    input.lastMoveTime + moveCooldownMs ≤ input'.lastMoveTime
  attack : (result'.attackPressed = result.attackPressed ∧
      input'.lastAttackTime = input.lastAttackTime) ∨
    input.lastAttackTime + attackCooldownMs ≤ input'.lastAttackTime

variable {result result' result'' : GameInputResult} {input input' input'' : InputHandler}

theorem Pressed.refl (result : GameInputResult) (input : InputHandler) :
    Pressed result input result input := ⟨rfl, .inl ⟨rfl, rfl⟩, .inl ⟨rfl, rfl⟩⟩

theorem Pressed.trans (h : Pressed result input result' input')
    (h' : Pressed result' input' result'' input'') : Pressed result input result'' input'' where
  isChatMode := h'.isChatMode.trans h.isChatMode
  move := by
    rcases h.move with ⟨hres, htime⟩ | hlate
    · rw [← hres, ← htime]
      exact h'.move
    · rcases h'.move with ⟨-, htime⟩ | hlater
      · rw [htime]
        exact .inr hlate
      · exact .inr (by omega)
  attack := by
    rcases h.attack with ⟨hres, htime⟩ | hlate
    · rw [← hres, ← htime]
      exact h'.attack
    · rcases h'.attack with ⟨-, htime⟩ | hlater
      · rw [htime]
        exact .inr hlate
      · exact .inr (by omega)

theorem checkMoveCooldown_eq_some {now : ℕ} (h : input.checkMoveCooldown now = some input') :
    input.lastMoveTime + moveCooldownMs ≤ now ∧ input' = { input with lastMoveTime := now } := by
  unfold checkMoveCooldown at h
  split at h
  · exact absurd h (by simp)
  · next hlate =>
      unfold moveCooldownMs at hlate ⊢
      exact ⟨by omega, (Option.some.inj h).symm⟩

theorem checkAttackCooldown_eq_some {now : ℕ} (h : input.checkAttackCooldown now = some input') :
    input.lastAttackTime + attackCooldownMs ≤ now ∧
      input' = { input with lastAttackTime := now } := by
  unfold checkAttackCooldown at h
  split at h
  · exact absurd h (by simp)
  · next hlate =>
      unfold attackCooldownMs at hlate ⊢
      exact ⟨by omega, (Option.some.inj h).symm⟩

theorem pressed_onArrow (arrow : UInt8) (now : ℕ) (result : GameInputResult)
    (input : InputHandler) :
    Pressed result input (onArrow arrow now result input).1 (onArrow arrow now result input).2 := by
  unfold onArrow
  split
  · exact .refl _ _
  · split
    · exact .refl _ _
    · next hcheck =>
        obtain ⟨hlate, rfl⟩ := checkMoveCooldown_eq_some hcheck
        exact ⟨rfl, .inr hlate, .inl ⟨rfl, rfl⟩⟩

theorem pressed_onSpace (now : ℕ) (result : GameInputResult) (input : InputHandler) :
    Pressed result input (onSpace now result input).1 (onSpace now result input).2 := by
  unfold onSpace
  split
  · exact .refl _ _
  · next hcheck =>
      obtain ⟨hlate, rfl⟩ := checkAttackCooldown_eq_some hcheck
      exact ⟨rfl, .inl ⟨rfl, rfl⟩, .inr hlate⟩

theorem pressed_onKey (ch : UInt8) (now : ℕ) (result : GameInputResult) (input : InputHandler) :
    Pressed result input (onKey ch now result input).1 (onKey ch now result input).2 := by
  have hread : Pressed result input
      (if ch = 32 then onSpace now result input else (result, input)).1
      (if ch = 32 then onSpace now result input else (result, input)).2 := by
    split
    · exact pressed_onSpace now result input
    · exact .refl _ _
  unfold onKey
  dsimp only
  split
  · exact ⟨hread.isChatMode, hread.move, hread.attack⟩
  · exact hread

/-- **Every action that is read has waited for its cooldown.** -/
theorem pressed_processGameInput (clock : ℕ → ℕ) (result : GameInputResult) (input : InputHandler)
    (codes : List UInt8) :
    Pressed result input (processGameInput clock result input codes).1
      (processGameInput clock result input codes).2 := by
  fun_induction processGameInput clock result input codes with
  | case1 => exact .refl _ _
  | case2 clock result input codes ih => exact ⟨ih.isChatMode, ih.move, ih.attack⟩
  | case3 => exact .refl _ _
  | case4 clock result input ch _ _ arrow codes result' input' heq ih =>
      have hpress := pressed_onArrow arrow (clock 1) result input
      rw [heq] at hpress
      exact hpress.trans ih
  | case5 clock result input ch codes _ _ result' input' heq ih =>
      have hpress := pressed_onKey ch (clock 0) result input
      rw [heq] at hpress
      exact hpress.trans ih

end InputHandler

end Mmorpg
