/-
`Client/main.cpp`: the loop of the main thread, one turn at a time.

`RecvThread` runs beside the loop and writes what `ConsumeLoginFail`,
`GetMyPlayer` and `GetAllObjects` read, so what these return in a turn is an
input of the turn; so are whether `Connect` succeeds, the codes that are typed,
and the clock. What is said here holds whatever these are.

`sent` is what `SendPacket` was called with since the last `Connect`.

## What is not in the source

`menuKeys` are the codes that the main menu has read, and `lineKeys` those that
the chat line has read since it was last empty at the start of a line. A packet
in `sent` carries the codes that its text was typed with, and the time that its
cooldown was given. No turn depends on them.
-/
import SimplestMmorpg.Client.InputHandler
import SimplestMmorpg.Client.Prediction
import SimplestMmorpg.Common.WireRequests
import SimplestMmorpg.Lib.Cooldown

set_option autoImplicit false

namespace Mmorpg

open InputHandler

inductive AppState where
  | mainMenu
  | connecting
  | inGame
  | disconnected
  deriving DecidableEq, Repr

inductive ChatChannel where
  | view
  | global
  deriving DecidableEq, Repr

def ChatChannel.code : ChatChannel → ℕ
  | .view => 0
  | .global => 1

def ChatChannel.toggle : ChatChannel → ChatChannel
  | .view => .global
  | .global => .view

/-- A packet that was handed to `SendPacket`. -/
structure Sent where
  req : CsPacket
  time : ℕ
  keys : List UInt8
  deriving DecidableEq, Repr

/-- The variables of `main`, and the codes that are waiting at the keyboard. -/
structure Main where
  state : AppState
  nameInput : Bytes
  errorMsg : String
  chatBuffer : Bytes
  chatChannel : ChatChannel
  input : InputHandler
  waiting : List UInt8
  sent : List Sent
  menuKeys : List UInt8
  lineKeys : List UInt8
  deriving DecidableEq, Repr

/-- What a turn meets: what has been typed since the last turn read the
keyboard, the clock, and what the other calls return. -/
structure Turn where
  typed : List UInt8
  clock : ℕ → ℕ
  connects : Bool
  loginFail : Option LoginFailReason
  me : MyPlayer
  objects : List RemoteObject

namespace Main

/-- The initial values of the variables. -/
def init : Main where
  state := .mainMenu
  nameInput := []
  errorMsg := ""
  chatBuffer := []
  chatChannel := .view
  input := .init
  waiting := []
  sent := []
  menuKeys := []
  lineKeys := []

/-- The codes that were read, when `rest` is still waiting. -/
def read (codes rest : List UInt8) : List UInt8 := codes.take (codes.length - rest.length)

/-- What the player is told about a login that failed. -/
def loginFailText : LoginFailReason → String
  | .duplicateLogin => "This character is already connected."
  | .dbError => "This is a server database error."
  | .spawnFull => "The spawn location is full."
  | .unknown => "Login failed."

variable (map : Map) (turn : Turn) (m : Main)

def sendPacket (req : CsPacket) (time : ℕ) (keys : List UInt8) : Main :=
  { m with sent := m.sent ++ [⟨req, time, keys⟩] }

/-- `AppState::MAIN_MENU`. -/
def mainMenu (codes : List UInt8) : Main :=
  let (result, nameInput, waiting) := processMainMenuInput m.nameInput codes
  let m := { m with
    nameInput := nameInput
    waiting := waiting
    menuKeys := m.menuKeys ++ read codes waiting }
  if result.escPressed then { m with state := .disconnected }
  else if result.enterPressed ∧ nameInput ≠ [] then { m with errorMsg := "", state := .connecting }
  else m

/-- `AppState::CONNECTING`. -/
def connecting : Main :=
  if ¬ turn.connects then { m with state := .mainMenu }
  else
    { m with
      sent := [⟨.login (strncpyTruncate 32 m.nameInput), turn.clock 0, m.menuKeys⟩]
      state := .inGame }

/-- The chat line is emptied and chat mode is left. -/
def leaveChat : Main :=
  { m with chatBuffer := [], lineKeys := [], input := m.input.exitChatMode }

/-- `AppState::IN_GAME` in chat mode. -/
def chat (codes : List UInt8) : Main :=
  let (result, chatBuffer, waiting) := processChatInput ⟨false, false, false⟩ m.chatBuffer codes
  let m := { m with
    chatBuffer := chatBuffer
    waiting := waiting
    lineKeys := m.lineKeys ++ read codes waiting }
  if result.cancel then m.leaveChat
  else if result.channelToggled then { m with chatChannel := m.chatChannel.toggle }
  else if result.submit then
    if chatBuffer ≠ [] then
      (m.sendPacket (.chat m.chatChannel.code (strncpyTruncate 128 chatBuffer)) (turn.clock 0)
        m.lineKeys).leaveChat
    else m.leaveChat
  else m

/-- The move of a turn: the tile must be walkable, and nobody may be seen on it. -/
def move (dir : Direction) : Main :=
  let new := SectorManager.offset turn.me.pos (directions.getD dir.code (0, 0))
  if map.isWalkable new.x new.y ∧ ∀ obj ∈ turn.objects, obj.pos ≠ new then
    m.sendPacket (.move dir.code 0) m.input.lastMoveTime []
  else m

/-- What the keys of the game ask for, when ESC is not among them. -/
def act (result : GameInputResult) : Main :=
  let m := if result.chatModeEntered then { m with input := m.input.enterChatMode } else m
  let m := if result.hasMove then m.move map turn result.moveDir else m
  if result.attackPressed then m.sendPacket .attack m.input.lastAttackTime [] else m

/-- `AppState::IN_GAME` outside chat mode. -/
def play (codes : List UInt8) : Main :=
  let (result, input) := processGameInput turn.clock ⟨false, .up, false, false, false⟩ m.input codes
  let m := { m with input := input, waiting := [] }
  if result.escPressed then { m with state := .disconnected } else m.act map turn result

/-- `AppState::IN_GAME`. -/
def inGame (codes : List UInt8) : Main :=
  match turn.loginFail with
  | some reason =>
    { m with errorMsg := loginFailText reason, state := .mainMenu, waiting := codes }
  | none => if m.input.isChatMode then m.chat turn codes else m.play map turn codes

/-- One turn of the loop. -/
def step (map : Map) (m : Main) (turn : Turn) : Main :=
  let codes := m.waiting ++ turn.typed
  match m.state with
  | .mainMenu => m.mainMenu codes
  | .connecting => { m with waiting := codes }.connecting turn
  | .inGame => m.inGame map turn codes
  | .disconnected => m

/-! ## What is said on a connection -/

/-- What can follow a login: a step, an attack, a line of the chat. -/
def Plays : CsPacket → Prop
  | .move dir moveTime => dir < 4 ∧ moveTime = 0
  | .attack => True
  | .chat channel message => channel < 2 ∧ message ≠ [] ∧ IsMessage message
  | .login _ => False
  | .teleport => False

/-- A login with a name, and then the game. -/
def Talks : List CsPacket → Prop
  | [] => True
  | req :: reqs => (∃ name, req = .login name ∧ name ≠ [] ∧ IsName name) ∧ ∀ req ∈ reqs, Plays req

/-- The times of the packets of a kind. -/
def times (req? : CsPacket → Bool) (sent : List Sent) : List ℕ :=
  (sent.filter (req? ·.req)).map (·.time)

def isMove : CsPacket → Bool
  | .move _ _ => true
  | _ => false

def isAttack : CsPacket → Bool
  | .attack => true
  | _ => false

/-- The packets of a kind are sent `d` apart, the last one not after `last`. -/
structure Gated (d : ℕ) (kind : CsPacket → Bool) (last : ℕ) (sent : List Sent) : Prop where
  spaced : Cooldown.Spaced d (times kind sent)
  le_last : ∀ t ∈ times kind sent, t ≤ last

/-- What holds after every turn. -/
structure Inv (m : Main) : Prop where
  name : IsName m.nameInput
  message : IsMessage m.chatBuffer
  connecting : m.state = .connecting → m.nameInput ≠ []
  inGame : m.state = .inGame → m.sent ≠ []
  talks : Talks (m.sent.map (·.req))
  moves : Gated moveCooldownMs isMove m.input.lastMoveTime m.sent
  attacks : Gated attackCooldownMs isAttack m.input.lastAttackTime m.sent

variable {map turn m} {d last last' : ℕ} {kind : CsPacket → Bool} {sent : List Sent}

theorem gated_nil (d last : ℕ) (kind : CsPacket → Bool) : Gated d kind last [] :=
  ⟨List.Pairwise.nil, fun _ ht => absurd ht List.not_mem_nil⟩

theorem Gated.mono (h : Gated d kind last sent) (hle : last ≤ last') : Gated d kind last' sent :=
  ⟨h.spaced, fun t ht => (h.le_last t ht).trans hle⟩

theorem times_concat (kind : CsPacket → Bool) (sent : List Sent) (s : Sent) :
    times kind (sent ++ [s]) = times kind sent ++ if kind s.req then [s.time] else [] := by
  unfold times
  rw [List.filter_append, List.map_append]
  congr 1
  by_cases hs : kind s.req = true
  · simp [hs]
  · simp [hs]

/-- A packet of another kind. -/
theorem Gated.other (h : Gated d kind last sent) {s : Sent} (hs : kind s.req = false) :
    Gated d kind last (sent ++ [s]) := by
  have htimes : times kind (sent ++ [s]) = times kind sent := by
    rw [times_concat, hs, if_neg (by decide), List.append_nil]
  exact ⟨htimes ▸ h.spaced, htimes ▸ h.le_last⟩

/-- A packet of the kind, when its cooldown has passed. -/
theorem Gated.concat (h : Gated d kind last sent) (hlate : last + d ≤ last') {s : Sent}
    (hs : s.time = last') : Gated d kind last' (sent ++ [s]) := by
  have hbefore : ∀ t ∈ times kind sent, t + d ≤ last' := by
    intro t ht
    have := h.le_last t ht
    omega
  constructor
  · rw [times_concat, Cooldown.Spaced, List.pairwise_append]
    refine ⟨h.spaced, ?_, fun t ht u hu => ?_⟩
    · split
      · exact List.pairwise_singleton _ _
      · exact List.Pairwise.nil
    · split at hu
      · rw [List.mem_singleton.mp hu, hs]
        exact hbefore t ht
      · exact absurd hu List.not_mem_nil
  · intro t ht
    rw [times_concat, List.mem_append] at ht
    rcases ht with ht | ht
    · have := hbefore t ht
      omega
    · split at ht
      · rw [List.mem_singleton.mp ht, hs]
      · exact absurd ht List.not_mem_nil

theorem Talks.concat {reqs : List CsPacket} {req : CsPacket} (h : Talks reqs) (hne : reqs ≠ [])
    (hreq : Plays req) : Talks (reqs ++ [req]) := by
  cases reqs with
  | nil => exact absurd rfl hne
  | cons first reqs =>
      exact ⟨h.1, List.forall_mem_append.mpr ⟨h.2, List.forall_mem_singleton.mpr hreq⟩⟩

/-- A text that is read from the keyboard is copied as it is. -/
theorem strncpyTruncate_of_isLine {n : ℕ} {ok : UInt8 → Prop} {line : Bytes} (size : ℕ)
    (h : IsLine n ok line) (hok : ¬ ok 0) (hsize : n < size) : strncpyTruncate size line = line := by
  have hzero : ∀ ch ∈ line, (ch ≠ 0) = true := by
    intro ch hch
    have hne : ch ≠ 0 := fun heq => hok (heq ▸ h.2 ch hch)
    simpa using hne
  unfold strncpyTruncate
  rw [List.takeWhile_eq_self_iff.mpr (by simpa using hzero)]
  exact List.take_of_length_le (by have := h.1; omega)

/-! ## Every turn keeps it -/

theorem inv_init : Inv init where
  name := isLine_nil _ _
  message := isLine_nil _ _
  connecting h := absurd h (by decide)
  inGame h := absurd h (by decide)
  talks := trivial
  moves := gated_nil _ _ _
  attacks := gated_nil _ _ _

theorem Inv.mainMenu (h : m.Inv) (hstate : m.state = .mainMenu) (codes : List UInt8) :
    (m.mainMenu codes).Inv := by
  have hname : IsName (processMainMenuInput m.nameInput codes).2.1 := by
    obtain ⟨used, -, hline, -⟩ := reads_processMainMenuInput m.nameInput codes
    rw [hline]
    exact isLine_edit h.name used
  unfold Main.mainMenu
  dsimp only
  split
  · exact { h with name := hname, connecting := fun hs => by simp at hs, inGame := fun hs => by simp at hs }
  · split
    · next henter =>
        exact { h with name := hname, connecting := fun _ => henter.2, inGame := fun hs => by simp at hs }
    · exact { h with
        name := hname
        connecting := fun hs => by simp [hstate] at hs
        inGame := fun hs => by simp [hstate] at hs }

theorem Inv.connect (h : m.Inv) (hstate : m.state = .connecting) : (m.connecting turn).Inv := by
  unfold Main.connecting
  split
  · exact { h with connecting := fun hs => by simp at hs, inGame := fun hs => by simp at hs }
  · have hcopy := strncpyTruncate_of_isLine 32 h.name (by decide) (by decide)
    rw [hcopy]
    exact { h with
      connecting := fun hs => by simp at hs
      inGame := fun _ => by simp
      talks := ⟨⟨_, rfl, h.connecting hstate, h.name⟩, fun _ hreq => absurd hreq List.not_mem_nil⟩
      moves := (gated_nil _ _ _).other rfl
      attacks := (gated_nil _ _ _).other rfl }

/-- A line, or nothing, has been sent, and the chat line is empty again. -/
theorem Inv.leaveChat (h : m.Inv) : m.leaveChat.Inv :=
  { h with message := isLine_nil _ _ }

/-- One more packet in the game. -/
theorem Inv.sendPacket (h : m.Inv) (hstate : m.state = .inGame) {req : CsPacket} {time : ℕ}
    {keys : List UInt8} (hreq : Plays req)
    (hmoves : Gated moveCooldownMs isMove m.input.lastMoveTime (m.sent ++ [⟨req, time, keys⟩]))
    (hattacks : Gated attackCooldownMs isAttack m.input.lastAttackTime
      (m.sent ++ [⟨req, time, keys⟩])) : (m.sendPacket req time keys).Inv := by
  refine { h with
    inGame := fun _ => by simp [Main.sendPacket]
    talks := ?_
    moves := hmoves
    attacks := hattacks }
  rw [Main.sendPacket, List.map_append]
  exact h.talks.concat (by simpa using h.inGame hstate) hreq

theorem Inv.chat (h : m.Inv) (hstate : m.state = .inGame) (codes : List UInt8) :
    (m.chat turn codes).Inv := by
  have hline : IsMessage (processChatInput ⟨false, false, false⟩ m.chatBuffer codes).2.1 := by
    obtain ⟨used, -, hline, -⟩ := reads_processChatInput ⟨false, false, false⟩ m.chatBuffer codes
    rw [hline]
    exact isLine_edit h.message used
  unfold Main.chat
  generalize processChatInput ⟨false, false, false⟩ m.chatBuffer codes = r at hline ⊢
  dsimp only
  have hread : Inv { m with
      chatBuffer := r.2.1
      waiting := r.2.2
      lineKeys := m.lineKeys ++ Main.read codes r.2.2 } := { h with message := hline }
  split
  · exact hread.leaveChat
  · split
    · exact { hread with }
    · split
      · split
        · next hne =>
            have hcopy := strncpyTruncate_of_isLine 128 hline (by decide) (by decide)
            rw [hcopy]
            have hplays : Plays (.chat m.chatChannel.code r.2.1) :=
              ⟨by cases m.chatChannel <;> decide, hne, hline⟩
            exact (hread.sendPacket hstate hplays (h.moves.other rfl) (h.attacks.other rfl)).leaveChat
        · exact hread.leaveChat
      · exact hread

theorem move_cases (map : Map) (turn : Turn) (m : Main) (dir : Direction) :
    m.move map turn dir = m ∨
      m.move map turn dir = m.sendPacket (.move dir.code 0) m.input.lastMoveTime [] := by
  unfold Main.move
  dsimp only
  split
  · exact .inr rfl
  · exact .inl rfl

/-- A move, whose cooldown has passed. -/
theorem Inv.move (h : m.Inv) (hstate : m.state = .inGame)
    (hgate : Gated moveCooldownMs isMove last m.sent)
    (hlate : last + moveCooldownMs ≤ m.input.lastMoveTime) (dir : Direction) :
    (m.move map turn dir).Inv := by
  rcases move_cases map turn m dir with heq | heq
  · rw [heq]
    exact h
  · rw [heq]
    exact h.sendPacket hstate ⟨by cases dir <;> decide, rfl⟩ (hgate.concat hlate rfl) (h.attacks.other rfl)

/-- A move keeps what is known of the attacks before it. -/
theorem gated_attack_move (h : Gated attackCooldownMs isAttack last m.sent) (dir : Direction) :
    Gated attackCooldownMs isAttack last (m.move map turn dir).sent := by
  rcases move_cases map turn m dir with heq | heq
  · rw [heq]
    exact h
  · rw [heq]
    exact h.other rfl

theorem frame_move (map : Map) (turn : Turn) (m : Main) (dir : Direction) :
    (m.move map turn dir).state = m.state ∧ (m.move map turn dir).input = m.input := by
  rcases move_cases map turn m dir with heq | heq
  · rw [heq]
    exact ⟨rfl, rfl⟩
  · rw [heq]
    exact ⟨rfl, rfl⟩

/-- **What a turn does with the keys of the game.** -/
theorem Inv.act (h : m.Inv) (hstate : m.state = .inGame) {result : GameInputResult}
    {lastMove lastAttack : ℕ} (hmoves : Gated moveCooldownMs isMove lastMove m.sent)
    (hattacks : Gated attackCooldownMs isAttack lastAttack m.sent)
    (hmove : result.hasMove = true → lastMove + moveCooldownMs ≤ m.input.lastMoveTime)
    (hattack : result.attackPressed = true →
      lastAttack + attackCooldownMs ≤ m.input.lastAttackTime) : (m.act map turn result).Inv := by
  unfold Main.act
  dsimp only
  generalize hm1 : (if result.chatModeEntered = true then
    { m with input := m.input.enterChatMode } else m) = m1
  have hm1 : m1.Inv ∧ m1.state = .inGame ∧ m1.sent = m.sent ∧
      m1.input.lastMoveTime = m.input.lastMoveTime ∧
      m1.input.lastAttackTime = m.input.lastAttackTime := by
    rw [← hm1]
    split
    · exact ⟨{ h with }, hstate, rfl, rfl, rfl⟩
    · exact ⟨h, hstate, rfl, rfl, rfl⟩
  obtain ⟨hinv, hstate, hsent, hmoveTime, hattackTime⟩ := hm1
  rw [← hsent] at hmoves hattacks
  rw [← hmoveTime] at hmove
  rw [← hattackTime] at hattack
  generalize hm2 : (if result.hasMove = true then m1.move map turn result.moveDir else m1) = m2
  have hm2 : m2.Inv ∧ m2.state = .inGame ∧ Gated attackCooldownMs isAttack lastAttack m2.sent ∧
      m2.input.lastAttackTime = m1.input.lastAttackTime := by
    rw [← hm2]
    split
    · next hpressed =>
        obtain ⟨hframe, hinput⟩ := frame_move map turn m1 result.moveDir
        exact ⟨hinv.move hstate hmoves (hmove hpressed) _, hframe.trans hstate,
          gated_attack_move hattacks _, by rw [hinput]⟩
    · exact ⟨hinv, hstate, hattacks, rfl⟩
  obtain ⟨hinv, hstate, hattacks, hattackTime⟩ := hm2
  rw [← hattackTime] at hattack
  split
  · next hpressed =>
      exact hinv.sendPacket hstate trivial (hinv.moves.other rfl)
        (hattacks.concat (hattack hpressed) rfl)
  · exact hinv

theorem Inv.play (h : m.Inv) (hstate : m.state = .inGame) (codes : List UInt8) :
    (m.play map turn codes).Inv := by
  have hpressed := pressed_processGameInput turn.clock ⟨false, .up, false, false, false⟩ m.input codes
  unfold Main.play
  generalize processGameInput turn.clock ⟨false, .up, false, false, false⟩ m.input codes = r
    at hpressed ⊢
  dsimp only
  have hmoveTime : m.input.lastMoveTime ≤ r.2.lastMoveTime ∧ (r.1.hasMove = true →
      m.input.lastMoveTime + moveCooldownMs ≤ r.2.lastMoveTime) := by
    rcases hpressed.move with ⟨hres, htime⟩ | hlate
    · exact ⟨htime.ge, fun hmove => absurd (hres.symm.trans hmove) (by decide)⟩
    · exact ⟨Nat.le_of_add_right_le hlate, fun _ => hlate⟩
  have hattackTime : m.input.lastAttackTime ≤ r.2.lastAttackTime ∧ (r.1.attackPressed = true →
      m.input.lastAttackTime + attackCooldownMs ≤ r.2.lastAttackTime) := by
    rcases hpressed.attack with ⟨hres, htime⟩ | hlate
    · exact ⟨htime.ge, fun hattack => absurd (hres.symm.trans hattack) (by decide)⟩
    · exact ⟨Nat.le_of_add_right_le hlate, fun _ => hlate⟩
  have hread : Inv { m with input := r.2, waiting := [] } :=
    { h with moves := h.moves.mono hmoveTime.1, attacks := h.attacks.mono hattackTime.1 }
  split
  · exact { hread with
      connecting := fun hs => by simp at hs
      inGame := fun hs => by simp at hs }
  · exact hread.act hstate h.moves h.attacks hmoveTime.2 hattackTime.2

theorem Inv.game (h : m.Inv) (hstate : m.state = .inGame) (codes : List UInt8) :
    (m.inGame map turn codes).Inv := by
  unfold Main.inGame
  split
  · exact { h with connecting := fun hs => by simp at hs, inGame := fun hs => by simp at hs }
  · split
    · exact h.chat hstate codes
    · exact h.play hstate codes

theorem inv_step (h : m.Inv) (turn : Turn) : (step map m turn).Inv := by
  unfold step
  dsimp only
  split
  · next hstate => exact h.mainMenu hstate _
  · next hstate => exact Inv.connect { h with } hstate
  · next hstate => exact h.game hstate _
  · exact h

/-- The values fit, so that a packet is read as it was written. -/
theorem fits_of_talks {reqs : List CsPacket} (h : Talks reqs) : ∀ req ∈ reqs, req.Fits := by
  have htext : ∀ {size n : ℕ} {ok : UInt8 → Prop} {line : Bytes}, IsLine n ok line → ¬ ok 0 →
      n < size → TextFits size line := by
    intro size n ok line hline hok hsize
    exact ⟨Nat.lt_of_le_of_lt hline.1 hsize, fun hmem => hok (hline.2 0 hmem)⟩
  have hplays : ∀ req, Plays req → req.Fits := by
    intro req hreq
    cases req with
    | login name => exact hreq.elim
    | move dir moveTime =>
        obtain ⟨hdir, rfl⟩ := hreq
        exact ⟨by omega, by decide⟩
    | attack => trivial
    | chat channel message =>
        obtain ⟨hchannel, -, hmessage⟩ := hreq
        exact ⟨by omega, htext hmessage (by decide) (by decide)⟩
    | teleport => exact hreq.elim
  cases reqs with
  | nil => exact fun req hreq => absurd hreq List.not_mem_nil
  | cons first reqs =>
      obtain ⟨⟨name, rfl, -, hname⟩, hrest⟩ := h
      refine List.forall_mem_cons.mpr ⟨htext hname (by decide) (by decide), ?_⟩
      exact fun req hreq => hplays req (hrest req hreq)

/-- **What a client says.** In every run of the loop, whatever is typed and
whatever arrives meanwhile, a connection carries a login with a name, and then
steps in one of the four directions, attacks, and lines of printable characters;
each fits its struct. The steps are a second apart, and so are the attacks. -/
theorem talks_run (map : Map) (turns : List Turn) :
    Talks ((Transition.run (step map) init turns).sent.map (·.req)) ∧
      (∀ req ∈ (Transition.run (step map) init turns).sent.map (·.req), req.Fits) ∧
      Cooldown.Spaced moveCooldownMs
        (times isMove (Transition.run (step map) init turns).sent) ∧
      Cooldown.Spaced attackCooldownMs
        (times isAttack (Transition.run (step map) init turns).sent) := by
  have hinv : (Transition.run (step map) init turns).Inv :=
    Transition.invariant (C := fun _ _ => True) (fun m turn h _ => inv_step h turn) inv_init
      (Transition.along_of_forall fun _ _ _ => trivial)
  exact ⟨hinv.talks, fits_of_talks hinv.talks, hinv.moves.spaced, hinv.attacks.spaced⟩

/-! ## What is said is what was typed -/

/-- The text of a packet is what its codes make of an empty line. -/
def AsTyped (s : Sent) : Prop :=
  match s.req with
  | .login name => name = edit 16 IsNameChar [] s.keys
  | .chat _ message => message = edit 100 IsChatChar [] s.keys
  | _ => True

/-- The two lines are what their codes make of empty ones. -/
structure Typed (m : Main) : Prop where
  waiting : Whole m.waiting
  menuKeys : Whole m.menuKeys
  lineKeys : Whole m.lineKeys
  name : m.nameInput = edit 16 IsNameChar [] m.menuKeys
  line : m.chatBuffer = edit 100 IsChatChar [] m.lineKeys
  sent : ∀ s ∈ m.sent, AsTyped s

theorem typed_init : Typed init where
  waiting := .nil
  menuKeys := .nil
  lineKeys := .nil
  name := rfl
  line := rfl
  sent _ hs := absurd hs List.not_mem_nil

/-- More codes are read: those read so far, and then these. -/
theorem read_more {size : ℕ} {ok : UInt8 → Prop} [DecidablePred ok] {line line' : Bytes}
    {keys codes rest : List UInt8} (hread : Reads size ok line codes line' rest)
    (hline : line = edit size ok [] keys) (hkeys : Whole keys) (hcodes : Whole codes) :
    Whole rest ∧ Whole (keys ++ read codes rest) ∧
      line' = edit size ok [] (keys ++ read codes rest) := by
  obtain ⟨used, rfl, rfl, hwhole⟩ := hread
  obtain ⟨hused, hrest⟩ := hwhole hcodes
  have hreadused : read (used ++ rest) rest = used := by
    unfold read
    rw [List.length_append, Nat.add_sub_cancel, List.take_left]
  rw [hreadused]
  exact ⟨hrest, hkeys.append hused, by rw [edit_append hkeys, hline]⟩

theorem Typed.mainMenu (h : m.Typed) {codes : List UInt8} (hcodes : Whole codes) :
    (m.mainMenu codes).Typed := by
  obtain ⟨hrest, hkeys, hline⟩ :=
    read_more (reads_processMainMenuInput m.nameInput codes) h.name h.menuKeys hcodes
  unfold Main.mainMenu
  dsimp only
  split
  · exact { h with waiting := hrest, menuKeys := hkeys, name := hline }
  · split
    · exact { h with waiting := hrest, menuKeys := hkeys, name := hline }
    · exact { h with waiting := hrest, menuKeys := hkeys, name := hline }

theorem Typed.connect (h : m.Typed) : (m.connecting turn).Typed := by
  unfold Main.connecting
  split
  · exact { h with }
  · refine { h with sent := List.forall_mem_singleton.mpr ?_ }
    have hname : IsName m.nameInput := by
      rw [h.name]
      exact isLine_edit (isLine_nil 16 IsNameChar) m.menuKeys
    exact (strncpyTruncate_of_isLine 32 hname (by decide) (by decide)).trans h.name

theorem Typed.leaveChat (h : m.Typed) : m.leaveChat.Typed :=
  { h with line := rfl, lineKeys := .nil }

theorem Typed.sendPacket (h : m.Typed) {req : CsPacket} {time : ℕ} {keys : List UInt8}
    (hs : AsTyped ⟨req, time, keys⟩) : (m.sendPacket req time keys).Typed :=
  { h with sent := List.forall_mem_append.mpr ⟨h.sent, List.forall_mem_singleton.mpr hs⟩ }

theorem Typed.chat (h : m.Typed) {codes : List UInt8} (hcodes : Whole codes) :
    (m.chat turn codes).Typed := by
  obtain ⟨hrest, hkeys, hline⟩ := read_more
    (reads_processChatInput ⟨false, false, false⟩ m.chatBuffer codes) h.line h.lineKeys hcodes
  unfold Main.chat
  generalize processChatInput ⟨false, false, false⟩ m.chatBuffer codes = r at hrest hkeys hline ⊢
  dsimp only
  have hread : Typed { m with
      chatBuffer := r.2.1
      waiting := r.2.2
      lineKeys := m.lineKeys ++ Main.read codes r.2.2 } :=
    { h with waiting := hrest, lineKeys := hkeys, line := hline }
  split
  · exact hread.leaveChat
  · split
    · exact { hread with }
    · split
      · split
        · have hmessage : IsMessage r.2.1 := by
            rw [hline]
            exact isLine_edit (isLine_nil 100 IsChatChar) _
          have hcopy := strncpyTruncate_of_isLine 128 hmessage (by decide) (by decide)
          have htyped : AsTyped ⟨.chat m.chatChannel.code (strncpyTruncate 128 r.2.1), turn.clock 0,
              m.lineKeys ++ Main.read codes r.2.2⟩ := hcopy.trans hline
          exact (hread.sendPacket htyped).leaveChat
        · exact hread.leaveChat
      · exact hread

theorem Typed.move (h : m.Typed) (dir : Direction) : (m.move map turn dir).Typed := by
  rcases move_cases map turn m dir with heq | heq
  · rw [heq]
    exact h
  · rw [heq]
    exact h.sendPacket trivial

theorem Typed.act (h : m.Typed) (result : GameInputResult) : (m.act map turn result).Typed := by
  unfold Main.act
  dsimp only
  have hchat : (if result.chatModeEntered = true then
      { m with input := m.input.enterChatMode } else m).Typed := by
    split
    · exact { h with }
    · exact h
  generalize (if result.chatModeEntered = true then
    { m with input := m.input.enterChatMode } else m) = m1 at hchat ⊢
  have hmove : (if result.hasMove = true then m1.move map turn result.moveDir else m1).Typed := by
    split
    · exact hchat.move _
    · exact hchat
  split
  · exact hmove.sendPacket trivial
  · exact hmove

theorem Typed.play (h : m.Typed) (codes : List UInt8) : (m.play map turn codes).Typed := by
  unfold Main.play
  generalize processGameInput turn.clock ⟨false, .up, false, false, false⟩ m.input codes = r
  have hread : Typed { m with input := r.2, waiting := [] } := { h with waiting := .nil }
  dsimp only
  split
  · exact { hread with }
  · exact hread.act _

theorem typed_step (h : m.Typed) (hturn : Whole turn.typed) : (step map m turn).Typed := by
  have hcodes : Whole (m.waiting ++ turn.typed) := h.waiting.append hturn
  unfold step
  dsimp only
  split
  · exact h.mainMenu hcodes
  · exact Typed.connect { h with waiting := hcodes }
  · unfold Main.inGame
    split
    · exact { h with waiting := hcodes }
    · split
      · exact h.chat hcodes
      · exact h.play _
  · exact h

/-- **What is said is what was typed.** However typing is spread over the turns of
the loop, the name of a login is what the keys make of an empty name that the
menu has read, over all visits to it; and a line of the chat is what the keys
make of an empty line that were read since the line was last empty. -/
theorem typed_run (map : Map) {turns : List Turn} (hturns : ∀ turn ∈ turns, Whole turn.typed) :
    ∀ s ∈ (Transition.run (step map) init turns).sent, AsTyped s := by
  have htyped : (Transition.run (step map) init turns).Typed :=
    Transition.invariant (C := fun _ turn => Whole turn.typed)
      (fun m turn h hturn => typed_step h hturn) typed_init
      (Transition.along_of_forall fun turn hturn _ => hturns turn hturn)
  exact htyped.sent

/-- A name is typed with a slip, and Enter comes in a turn of its own. -/
theorem typed_run_slip :
    let turn (typed : List UInt8) : Turn :=
      ⟨typed, fun _ => 0, true, none, GameState.init.me, []⟩
    let m := Transition.run (step ⟨fun _ => 0⟩) init [turn [97, 98, 8], turn [99, 13], turn []]
    m.sent = [⟨.login [97, 99], 0, [97, 98, 8, 99, 13]⟩] ∧ ∀ s ∈ m.sent, AsTyped s := by
  have hkey : ∀ {ch : UInt8} {codes : List UInt8}, ch ≠ 0 ∧ ch ≠ 0xE0 → Whole codes →
      Whole (ch :: codes) := fun h => .key (not_or.mpr h)
  refine ⟨by decide, typed_run ⟨fun _ => 0⟩ ?_⟩
  simp only [List.forall_mem_cons, List.not_mem_nil, false_imp_iff, implies_true, and_true]
  exact ⟨hkey (by decide) (hkey (by decide) (hkey (by decide) .nil)),
    hkey (by decide) (hkey (by decide) .nil), .nil⟩

end Main

end Mmorpg
