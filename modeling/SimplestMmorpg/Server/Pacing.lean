/-
How often a player can move, attack and talk.

`CanMove`, `CanAttack` and `CanChat` compare the clock with the time of the last
action of the kind, and only an action that is carried out writes that time.
So for one player and one kind of action the server is the gate of
`Lib/Cooldown`: whatever the client sends and whatever else happens, the
requests that have an effect are those that pass the gate.

A player is one object made by `AddPlayer`, told apart from another that has
the id after it by its serial number. A second login starts again with no time.
-/
import SimplestMmorpg.Lib.Cooldown
import SimplestMmorpg.Server.Leaving
import SimplestMmorpg.Server.StepEffects

set_option autoImplicit false

namespace Mmorpg

/-- The kinds of action with a cooldown. -/
inductive Paced where
  | move
  | attack
  | chat
  deriving DecidableEq, Repr

namespace Paced

/-- The request for it. -/
def request : Paced → CsType
  | .move => .move
  | .attack => .attack
  | .chat => .chat

def cooldownMs : Paced → ℕ
  | .move => moveCooldownMs
  | .attack => attackCooldownMs
  | .chat => chatCooldownMs

theorem cooldownMs_pos (k : Paced) : 0 < k.cooldownMs := by
  cases k <;> decide

/-- When the player did it last. -/
def last (k : Paced) (p : Player) : ℕ :=
  match k with
  | .move => p.lastMoveTime
  | .attack => p.lastAttackTime
  | .chat => p.lastChatTime

/-- Apart from the cooldown nothing is in the way: a move needs a walkable tile
that nobody is on. -/
def free (k : Paced) (env : Env) (data : Bytes) (w : World) (p : Player) : Bool :=
  match k with
  | .move =>
    let new := env.towards p.pos (byteAt data 4)
    w.map.isWalkable new.x new.y ∧ (w.sectorManager.tryMoveObject p.id p.pos new).isSome
  | .attack => true
  | .chat => true

/-- The handler of the request. -/
def handle (k : Paced) (env : Env) (id : ObjectID) (conn : ConnId) (data : Bytes) (w : World) :
    World :=
  match k with
  | .move => w.processMove env id conn data
  | .attack => w.processAttack env id
  | .chat => w.processChat env id data

end Paced

namespace World

variable {c : Scope} {env : Env} {w w' : World} {id : ObjectID} {conn : ConnId} {data : Bytes}
  {p q : Player} {k : Paced}

/-! ## One request -/

/-- **A request that is refused changes nothing.** -/
theorem handle_of_refused (hp : w.getPlayer id = some p)
    (h : ¬ (k.free env data w p = true ∧ k.cooldownMs ≤ w.now - k.last p)) :
    k.handle env id conn data w = w := by
  obtain rfl := getPlayer_id hp
  cases k with
  | move =>
      simp only [Paced.handle]
      rcases processMove_cases env p.id conn data w with
        heq | ⟨player, new, sm, hp', hcan, rfl, hwalk, hmove, -⟩
      · exact heq
      · obtain rfl := Option.some.inj (hp.symm.trans hp')
        refine absurd ⟨?_, of_decide_eq_true hcan⟩ h
        simp [Paced.free, hwalk, hmove]
  | attack =>
      have hcan : ¬ p.canAttack w.now = true := fun hcan => h ⟨rfl, of_decide_eq_true hcan⟩
      simp only [Paced.handle, processAttack, hp]
      exact if_pos hcan
  | chat =>
      have hcan : ¬ p.canChat w.now = true := fun hcan => h ⟨rfl, of_decide_eq_true hcan⟩
      simp only [Paced.handle, processChat, hp]
      exact if_pos hcan

/-- **One that passes is carried out**, and the player has its time. -/
theorem handle_of_passed (conn : ConnId) (hp : w.getPlayer id = some p)
    (hfree : k.free env data w p = true) (hcan : k.cooldownMs ≤ w.now - k.last p) :
    ∃ q, (k.handle env id conn data w).getPlayer id = some q ∧ k.last q = w.now := by
  obtain rfl := getPlayer_id hp
  cases k with
  | move =>
      obtain ⟨hwalk, hmove⟩ := of_decide_eq_true hfree
      obtain ⟨sm, hsm⟩ := Option.isSome_iff_exists.mp hmove
      have hcan' : p.canMove w.now = true := decide_eq_true hcan
      simp only [Paced.handle, processMove, hp]
      rw [if_neg (by simpa using hcan'), if_neg (by simpa using hwalk), hsm]
      refine ⟨(p.setPos (env.towards p.pos (byteAt data 4))).onMoved w.now, ?_, rfl⟩
      unfold moveTo
      dsimp only
      have hsend : ∀ (v : World) (c : ConnId) (pkt : ScPacket),
          (v.send c pkt).getPlayer p.id = v.getPlayer p.id := fun _ _ _ => rfl
      rw [hsend, getPlayer_activateNearbyMonsters]
      exact getPlayer_setPlayer_self _
        ((p.setPos (env.towards p.pos (byteAt data 4))).onMoved w.now)
  | attack =>
      have hcan' : p.canAttack w.now = true := decide_eq_true hcan
      simp only [Paced.handle, processAttack, hp]
      rw [if_neg (by simpa using hcan')]
      -- the attacker is still there when the four directions are dealt with
      have hloop := List.foldlRecOn
        (motive := fun v => v.now = w.now ∧ ∃ q, v.getPlayer p.id = some q) (List.range 4)
        (attackDirection env p.id p.pos (p.level.toNat * 10)) ⟨rfl, p, hp⟩
        fun v ⟨hnow, q, hq⟩ d _ => by
          refine ⟨?_, getPlayer_attackDirection env hq _ _ d⟩
          rcases attackDirection_cases env p.id p.pos (p.level.toNat * 10) v d with
            heq | ⟨target, htarget, -, heq⟩
          · rw [heq]
            exact hnow
          · have hcast : ((p.level.toNat : Int) * 10) = ((p.level.toNat * 10 : ℕ) : Int) := by
              push_cast
              rfl
            have heffects : Effects ⟨env, fun _ _ => False, fun _ => False⟩ v
                (v.strike env p.id (p.level.toNat * 10 : ℕ) target) :=
              effects_strike htarget p.id p.level.toNat_lt
            rw [heq, hcast, heffects.frame.2, hnow]
      obtain ⟨hnow, q, hq⟩ := hloop
      generalize (List.range 4).foldl (attackDirection env p.id p.pos (p.level.toNat * 10)) w = v
        at hnow hq
      refine ⟨q.onAttackPerformed v.now, ?_, hnow⟩
      have hq' : (v.broadcastAttackEffect env p.id p.pos).getPlayer p.id = some q := hq
      unfold modifyPlayer
      rw [hq']
      have hqid : q.id = p.id := getPlayer_id hq
      have hid : (q.onAttackPerformed v.now).id = p.id := hqid
      have hself := getPlayer_setPlayer_self (v.broadcastAttackEffect env p.id p.pos)
        (q.onAttackPerformed v.now)
      rw [hid] at hself
      exact hself
  | chat =>
      have hcan' : p.canChat w.now = true := decide_eq_true hcan
      simp only [Paced.handle, processChat, hp]
      rw [if_neg (by simpa using hcan')]
      refine ⟨p.onChatPerformed w.now, ?_, rfl⟩
      have hself := getPlayer_setPlayer_self w (p.onChatPerformed w.now)
      split
      · exact hself
      · split
        · exact hself
        · exact hself

/-! ## Everything else -/

/-- Who it is, and when it last did something of the kind. -/
def SameTimes (k : Paced) (id : ObjectID) (w w' : World) : Prop :=
  ∀ q, w'.getPlayer id = some q →
    ∃ p, w.getPlayer id = some p ∧ p.serial = q.serial ∧ k.last p = k.last q

theorem SameTimes.of_eq (h : w'.getPlayer id = w.getPlayer id) : SameTimes k id w w' :=
  fun q hq => ⟨q, by rw [← h, hq], rfl, rfl⟩

theorem SameTimes.trans {w'' : World} (h : SameTimes k id w w') (h' : SameTimes k id w' w'') :
    SameTimes k id w w'' := by
  intro r hr
  obtain ⟨q, hq, hqs, hqt⟩ := h' r hr
  obtain ⟨p, hp, hps, hpt⟩ := h q hq
  exact ⟨p, hp, hps.trans hqs, hpt.trans hqt⟩

/-- A player is written, and keeps its times. -/
theorem sameTimes_setPlayer (hp : w.getPlayer p.id = some p) (hid : q.id = p.id)
    (hserial : q.serial = p.serial) (hlast : p.id = id → k.last q = k.last p) :
    SameTimes k id w (w.setPlayer q) := by
  intro r hr
  rw [getPlayer_setPlayer] at hr
  split at hr
  · next heq =>
      obtain rfl := Option.some.inj hr
      have hpid : p.id = id := hid.symm.trans heq.symm
      exact ⟨p, by rw [← hpid, hp], hserial.symm, (hlast hpid).symm⟩
  · exact ⟨r, hr, rfl, rfl⟩

theorem last_levelUp (k : Paced) (fuel : ℕ) (p : Player) :
    k.last (Player.levelUp fuel p) = k.last p := by
  induction fuel generalizing p with
  | zero => rfl
  | succ n ih =>
      rw [Player.levelUp]
      split
      · rw [ih]
        cases k <;> rfl
      · rfl

theorem last_gainExp (k : Paced) (p : Player) (amount : Int) :
    k.last (p.gainExp amount) = k.last p := by
  have h := last_levelUp k maxLevel { p with exp := toInt32 (p.exp + amount) }
  have hexp : k.last { p with exp := toInt32 (p.exp + amount) } = k.last p := by cases k <;> rfl
  rw [hexp] at h
  unfold Player.gainExp
  dsimp only
  split
  · rw [← h]
    cases k <;> rfl
  · exact h

/-- **No effect but an action of the player itself writes its time.** -/
theorem sameTimes_effect (hact : ¬ c.acting k.request id) (h : Effect c w w') :
    SameTimes k id w w' := by
  cases h with
  | placed sm _ => exact .of_eq rfl
  | edited m m' => exact .of_eq rfl
  | timer type i delayMs owner => exact .of_eq rfl
  | said conn pkt => exact .of_eq rfl
  | tweaked p q hp htweak =>
      cases htweak with
      | teleported pos => exact sameTimes_setPlayer hp rfl rfl fun _ => by cases k <;> rfl
      | moved pos hmove =>
          refine sameTimes_setPlayer hp rfl rfl fun hid => ?_
          cases k with
          | move => exact absurd (hid ▸ hmove) hact
          | attack => rfl
          | chat => rfl
      | attacked hattack =>
          refine sameTimes_setPlayer hp rfl rfl fun hid => ?_
          cases k with
          | move => rfl
          | attack => exact absurd (hid ▸ hattack) hact
          | chat => rfl
      | chatted hchat =>
          refine sameTimes_setPlayer hp rfl rfl fun hid => ?_
          cases k with
          | move => rfl
          | attack => rfl
          | chat => exact absurd (hid ▸ hchat) hact
      | regen active => exact sameTimes_setPlayer hp rfl rfl fun _ => by cases k <;> rfl
  | restated p q hp hrestated =>
      have hput : SameTimes k id w (w.setPlayer q) := by
        cases hrestated with
        | damaged dmg => exact sameTimes_setPlayer hp rfl rfl fun _ => by cases k <;> rfl
        | rewarded m =>
            have hident := p.ident_gainExp m.getExpReward
            exact sameTimes_setPlayer hp (congrArg Player.Ident.id hident)
              (congrArg Player.Ident.serial hident) fun _ => last_gainExp k p m.getExpReward
        | healed _ _ => exact sameTimes_setPlayer hp rfl rfl fun _ => by cases k <;> rfl
        | revived pos => exact sameTimes_setPlayer hp rfl rfl fun _ => by cases k <;> rfl
      exact hput.trans (.of_eq rfl)
  | fallen p hp => exact sameTimes_setPlayer hp rfl rfl fun _ => by cases k <;> rfl

theorem sameTimes_effects (hact : ¬ c.acting k.request id) (h : Effects c w w') :
    SameTimes k id w w' :=
  h.keeps (P := SameTimes k id w) (fun _ _ hu he => hu.trans (sameTimes_effect hact he))
    (.of_eq rfl)

end World

namespace Server

open World Transition

variable {s : Server} {e : Event} {k : Paced} {id : ObjectID} {serial : ℕ}

/-! ## The requests of one player -/

/-- The time of a request of the player, and whether anything but the cooldown
is in its way; `none` for any other event. -/
def attempt (k : Paced) (id : ObjectID) (serial : ℕ) (s : Server) : Event → Option (ℕ × Bool)
  | .packet i data size env =>
    if i = id ∧ (s.sessions id).isSome ∧ requestOf data size = some k.request then
      ((s.game.world.getPlayer id).filter fun p => p.serial = serial).map fun p =>
        (s.game.world.now, k.free env data s.game.world p)
    else none
  | _ => none

/-- The requests of the player in a run. -/
def attempts (k : Paced) (id : ObjectID) (serial : ℕ) : Server → List Event → List (ℕ × Bool)
  | _, [] => []
  | s, e :: es => (attempt k id serial s e).toList ++ attempts k id serial (s.step e) es

open Classical in
/-- The times of those that had an effect. -/
noncomputable def carriedOut (k : Paced) (id : ObjectID) (serial : ℕ) :
    Server → List Event → List ℕ
  | _, [] => []
  | s, e :: es =>
    if (attempt k id serial s e).isSome ∧ (s.step e).game.world ≠ s.game.world then
      s.game.world.now :: carriedOut k id serial (s.step e) es
    else carriedOut k id serial (s.step e) es

/-- A request of the player is a packet on its session. -/
theorem of_attempt {a : ℕ × Bool} (h : attempt k id serial s e = some a) :
    ∃ data size env conn p, e = .packet id data size env ∧ s.sessions id = some conn ∧
      requestOf data size = some k.request ∧ s.game.world.getPlayer id = some p ∧
      p.serial = serial ∧ a = (s.game.world.now, k.free env data s.game.world p) := by
  cases e with
  | packet i data size env =>
      simp only [attempt] at h
      split at h
      · next hreq =>
          obtain ⟨rfl, hsession, htype⟩ := hreq
          obtain ⟨conn, hconn⟩ := Option.isSome_iff_exists.mp hsession
          obtain ⟨p, hp, rfl⟩ := Option.map_eq_some_iff.mp h
          obtain ⟨hp, hserial⟩ := Option.filter_eq_some_iff.mp hp
          exact ⟨data, size, env, conn, p, rfl, hconn, htype, hp, of_decide_eq_true hserial, rfl⟩
      · exact absurd h (by simp)
  | _ => exact absurd h (by simp [attempt])

/-- The step of such a packet is the handler. -/
theorem world_step_request {data : Bytes} {size : ℕ} {conn : ConnId} (env : Env)
    (hs : s.sessions id = some conn) (hreq : requestOf data size = some k.request) :
    (s.step (.packet id data size env)).game.world =
      k.handle env id conn data s.game.world := by
  have hstep : s.step (.packet id data size env) = s.handlePacket env id conn data size := by
    rw [step, hs]
  rw [hstep, handlePacket, hreq]
  cases k <;> rfl

/-! ## One step -/

/-- A player after a step was there before, or got the next serial number. -/
theorem there_or_new (hl : Linked s) (e : Event) :
    s.game.world.nextSerial ≤ (s.step e).game.world.nextSerial ∧
      ∀ i q, (s.step e).game.world.getPlayer i = some q →
        (∃ p, s.game.world.getPlayer i = some p ∧ p.serial = q.serial) ∨
          q.serial = s.game.world.nextSerial ∧
            q.serial < (s.step e).game.world.nextSerial := by
  cases playersStep hl e with
  | steady hplayers hserial =>
      refine ⟨hserial.ge, fun i q hq => .inl ?_⟩
      have hwho := hplayers i
      rw [hq, Option.map_some] at hwho
      obtain ⟨p, hp, hpq⟩ := Option.map_eq_some_iff.mp hwho.symm
      exact ⟨p, hp, congrArg Player.Who.serial hpq⟩
  | joined n env c conn row v p he hc hrow hs hfree hadd hp hworld =>
      obtain ⟨hnext, hold⟩ := serial_of_addPlayer hadd
      obtain rfl := session_of_addPlayer hadd hp
      have hw := calm_welcome (w := v) (p := p) (by rw [getPlayer_id hp, hp]) env
      rw [hworld, hw.nextSerial, hnext]
      refine ⟨Nat.le_succ _, fun i q hq => ?_⟩
      rw [getPlayer_welcome] at hq
      rcases hold i q hq with ⟨-, hnew⟩ | ⟨-, hkept⟩
      · exact .inr ⟨hnew, by omega⟩
      · exact .inl ⟨q, hkept, rfl⟩
  | left i env p he hp hgame =>
      obtain ⟨stamp, hgone⟩ := processDisconnect_of_some env hp
      rw [hgame, hgone]
      refine ⟨Nat.le_refl _, fun j q hq => .inl ⟨q, ?_, rfl⟩⟩
      rw [getPlayer_leave] at hq
      split at hq
      · exact absurd hq (by simp)
      · exact hq

/-- What the server knows of the last time, whether the player has come, is
here, or has gone. -/
structure Paces (k : Paced) (id : ObjectID) (serial last : ℕ) (s : Server) : Prop where
  here : ∀ p, s.game.world.getPlayer id = some p → p.serial = serial → k.last p = last
  toCome : s.game.world.nextSerial ≤ serial → last = 0
  serials : Serials s.game.world

/-- Where a player after a step comes from. -/
theorem comes_from (hl : Linked s) (hattempt : attempt k id serial s e = none) :
    ∀ q, (s.step e).game.world.getPlayer id = some q → q.serial = serial →
      (∃ p, s.game.world.getPlayer id = some p ∧ p.serial = serial ∧ k.last p = k.last q) ∨
        s.game.world.nextSerial = serial ∧ k.last q = 0 := by
  have hsame : SameTimes k id s.game.world (s.step e).game.world →
      ∀ q, (s.step e).game.world.getPlayer id = some q → q.serial = serial →
        (∃ p, s.game.world.getPlayer id = some p ∧ p.serial = serial ∧ k.last p = k.last q) ∨
          s.game.world.nextSerial = serial ∧ k.last q = 0 := by
    intro h q hq hserial
    obtain ⟨p, hp, hps, hpt⟩ := h q hq
    exact .inl ⟨p, hp, hps.trans hserial, hpt⟩
  have hstep := worldStep s e
  generalize (s.step e).game.world = w at hstep hsame ⊢
  cases hstep with
  | idle => exact hsame (.of_eq rfl)
  | tick ms => exact hsame (.of_eq rfl)
  | left i env conn p hs hp =>
      refine hsame fun q hq => ?_
      rw [getPlayer_leave] at hq
      split at hq
      · exact absurd hq (by simp)
      · exact ⟨q, hq, rfl, rfl⟩
  | packet i data size env conn hs =>
      have heffects := effects_handlePacket s env (fun _ => True) i conn data size
      by_cases hreq : i = id ∧ requestOf data size = some k.request
      · -- the player that has the id is another one, before and after
        obtain ⟨rfl, hreq⟩ := hreq
        intro q hq hserial
        have hsteady := (calm_handlePacket (hl.session_of_player hs) env data size).toSteady
        obtain ⟨p, hp, hwho⟩ := hsteady.player hq
        have hps : p.serial = serial := (congrArg Player.Who.serial hwho).trans hserial
        have hsome : attempt k i serial s (.packet i data size env) ≠ none := by
          have hfilter : (s.game.world.getPlayer i).filter (fun p => p.serial = serial) = some p :=
            Option.filter_eq_some_iff.mpr ⟨hp, decide_eq_true hps⟩
          simp only [attempt]
          rw [if_pos ⟨trivial, by rw [hs]; rfl, hreq⟩, hfilter]
          simp
        exact absurd hattempt hsome
      · refine hsame (sameTimes_effects (fun hact => ?_) heffects)
        obtain ⟨hid, htype⟩ := hact
        exact hreq ⟨hid.symm, htype⟩
  | refused => exact hsame (.of_eq rfl)
  | joined n env c conn row v p hc hrow ho hfree hadd hp =>
      obtain ⟨spawn, hget⟩ := getPlayer_addPlayer hadd
      intro q hq hserial
      rw [getPlayer_welcome, hget] at hq
      split at hq
      · -- the new player has done nothing yet
        obtain rfl := Option.some.inj hq
        exact .inr ⟨hserial, by cases k <;> rfl⟩
      · exact .inl ⟨q, hq, hserial, rfl⟩
  | fired n env ev hev =>
      have htaken : SameTimes k id s.game.world
          { s.game.world with timers := s.game.world.timers.eraseIdx n } := .of_eq rfl
      refine hsame (htaken.trans ?_)
      by_cases htype : ev.type = .dbSave
      · rw [htype, world_handleTimerEvent_dbSave]
        exact .of_eq rfl
      · exact sameTimes_effects (c := timerScope env fun _ => True) (fun hact => hact)
          (effects_fired s.game env n htype ev.targetId)

/-- The serial numbers in use stay below the next one. -/
theorem serials_of_linked (hl : Linked s) (h : Serials s.game.world) (e : Event) :
    Serials (s.step e).game.world := by
  obtain ⟨hnext, hthere⟩ := there_or_new hl e
  intro i q hq
  rcases hthere i q hq with ⟨p, hp, hps⟩ | ⟨-, hlt⟩
  · have := h i p hp
    omega
  · exact hlt

/-- **One step of the gate.** An event that is no request of the player changes
nothing for it; a request has an effect exactly when the gate lets it through. -/
theorem paces_step {last : ℕ} (hl : Linked s) (h : Paces k id serial last s) (e : Event) :
    (attempt k id serial s e = none → Paces k id serial last (s.step e)) ∧
      ∀ now free, attempt k id serial s e = some (now, free) → now = s.game.world.now ∧
        (free = true ∧ k.cooldownMs ≤ now - last →
          (s.step e).game.world ≠ s.game.world ∧ Paces k id serial now (s.step e)) ∧
        (¬ (free = true ∧ k.cooldownMs ≤ now - last) →
          (s.step e).game.world = s.game.world ∧ Paces k id serial last (s.step e)) := by
  have hnext := (there_or_new hl e).1
  have hserials := serials_of_linked hl h.serials e
  constructor
  · intro hnone
    refine ⟨fun q hq hserial => ?_, fun hle => h.toCome (by omega), hserials⟩
    rcases comes_from hl hnone q hq hserial with ⟨p, hp, hps, hpt⟩ | ⟨hnew, hzero⟩
    · rw [← hpt]
      exact h.here p hp hps
    · rw [hzero]
      exact (h.toCome hnew.le).symm
  · intro now free hsome
    obtain ⟨data, size, env, conn, p, rfl, hs, hreq, hp, hserial, hpair⟩ := of_attempt hsome
    obtain ⟨rfl, rfl⟩ := Prod.mk.inj hpair
    have hlast := h.here p hp hserial
    have hworld := world_step_request env hs hreq
    have hhere : serial < s.game.world.nextSerial := hserial ▸ h.serials id p hp
    refine ⟨rfl, fun ⟨hfree, hcool⟩ => ?_, fun hrefused => ?_⟩
    · rw [← hlast] at hcool
      obtain ⟨q, hq, hqt⟩ := handle_of_passed conn hp hfree hcool
      rw [← hworld] at hq
      refine ⟨fun heq => ?_, fun r hr _ => ?_, fun hle => by omega, hserials⟩
      · -- the time it wrote is a new one
        rw [heq] at hq
        obtain rfl := Option.some.inj (hp.symm.trans hq)
        have := k.cooldownMs_pos
        omega
      · obtain rfl := Option.some.inj (hq.symm.trans hr)
        exact hqt
    · rw [← hlast] at hrefused
      have hsame := hworld.trans (handle_of_refused hp hrefused)
      refine ⟨hsame, fun r hr hrs => ?_, fun hle => by omega, hserials⟩
      rw [hsame] at hr
      exact h.here r hr hrs

/-! ## Whole runs -/

/-- The step lemma along a run. -/
theorem carriedOut_eq_passed {last : ℕ} (hl : Linked s) (h : Paces k id serial last s)
    (es : List Event) :
    carriedOut k id serial s es =
      Cooldown.passed k.cooldownMs last (attempts k id serial s es) := by
  induction es generalizing s last with
  | nil => rfl
  | cons e es ih =>
      obtain ⟨hnone, hsome⟩ := paces_step hl h e
      have hl' := linked_step s e hl
      unfold carriedOut attempts
      cases hattempt : attempt k id serial s e with
      | none =>
          rw [if_neg (by simp)]
          exact ih hl' (hnone hattempt)
      | some req =>
          obtain ⟨now, free⟩ := req
          obtain ⟨hnow, hpass, hrefuse⟩ := hsome now free hattempt
          rw [Option.toList_some, List.singleton_append]
          unfold Cooldown.passed
          by_cases hgate : free = true ∧ k.cooldownMs ≤ now - last
          · obtain ⟨hne, hpaces⟩ := hpass hgate
            rw [if_pos ⟨rfl, hne⟩, if_pos hgate, hnow, ih hl' (hnow ▸ hpaces)]
          · obtain ⟨heq, hpaces⟩ := hrefuse hgate
            rw [if_neg fun hboth => hboth.2 heq, if_neg hgate, ih hl' hpaces]

theorem paces_init (map : Map) (spawns : List MonsterSpawnData) (now : ℕ) (store : PlayerStore)
    (k : Paced) (id : ObjectID) (serial : ℕ) :
    Paces k id serial 0 (init map spawns now store) := by
  have hlinked := linked_init map spawns now store
  have hnobody : ∀ i p, (init map spawns now store).game.world.getPlayer i ≠ some p := by
    intro i p hp
    exact absurd (hlinked.player i p hp) (by simp [init])
  exact ⟨fun p hp => absurd hp (hnobody id p), fun _ => rfl,
    fun i p hp => absurd hp (hnobody i p)⟩

theorem serials_run (map : Map) (spawns : List MonsterSpawnData) (now : ℕ) (store : PlayerStore)
    (es : List Event) : Serials (run step (init map spawns now store) es).game.world := by
  have hstart := (paces_init map spawns now store .move 0 0).serials
  refine (invariant (I := fun s => Linked s ∧ Serials s.game.world) (C := fun _ _ => True)
    (fun s e h _ => ?_) ⟨linked_init map spawns now store, hstart⟩ along_true).2
  exact ⟨linked_step s e h.1, serials_of_linked h.1 h.2 e⟩

/-- **The server is a gate for each player and each kind of action.** In every
run, the requests of a player that have an effect are those that a gate with the
cooldown of the kind lets through: no other event of the run opens or closes it. -/
theorem carriedOut_run (map : Map) (spawns : List MonsterSpawnData) (now : ℕ) (store : PlayerStore)
    (es : List Event) (k : Paced) (id : ObjectID) (serial : ℕ) :
    carriedOut k id serial (init map spawns now store) es =
      Cooldown.passed k.cooldownMs 0 (attempts k id serial (init map spawns now store) es) :=
  carriedOut_eq_passed (linked_init map spawns now store)
    (paces_init map spawns now store k id serial) es

/-- The requests of a run come in the order of their times. -/
theorem sorted_attempts (k : Paced) (id : ObjectID) (serial : ℕ) (s : Server) (es : List Event) :
    (∀ req ∈ attempts k id serial s es, s.game.world.now ≤ req.1) ∧
      ((attempts k id serial s es).map (·.1)).Pairwise (· ≤ ·) := by
  induction es generalizing s with
  | nil => exact ⟨fun req hreq => absurd hreq List.not_mem_nil, List.Pairwise.nil⟩
  | cons e es ih =>
      obtain ⟨hafter, hsorted⟩ := ih (s.step e)
      have hclock := now_le_step s e
      unfold attempts
      cases hattempt : attempt k id serial s e with
      | none => exact ⟨fun req hreq => hclock.trans (hafter req hreq), hsorted⟩
      | some req =>
          obtain ⟨data, size, env, conn, p, -, -, -, -, -, rfl⟩ := of_attempt hattempt
          rw [Option.toList_some, List.singleton_append]
          refine ⟨fun req hreq => ?_, List.pairwise_cons.mpr ⟨fun t ht => ?_, hsorted⟩⟩
          · rcases List.mem_cons.mp hreq with rfl | hreq
            · exact Nat.le_refl _
            · exact hclock.trans (hafter req hreq)
          · obtain ⟨req, hreq, rfl⟩ := List.mem_map.mp ht
            exact hclock.trans (hafter req hreq)

/-- **How many actions fit in a window of time, and that none is lost by it.** In
every run at most one action of a kind in a cooldown is carried out, and no
choice of unhindered requests that keeps the cooldown is longer than what is
carried out. -/
theorem carriedOut_rate (map : Map) (spawns : List MonsterSpawnData) (now : ℕ)
    (store : PlayerStore) (es : List Event) (k : Paced) (id : ObjectID) (serial lo hi : ℕ)
    (sel : List ℕ)
    (hsel : sel.Sublist
      (Cooldown.unhindered (attempts k id serial (init map spawns now store) es)))
    (hspaced : Cooldown.Spaced k.cooldownMs sel) (hafter : ∀ t ∈ sel, k.cooldownMs ≤ t) :
    ((carriedOut k id serial (init map spawns now store) es).filter
        fun t => lo ≤ t ∧ t ≤ hi).length ≤ (hi - lo) / k.cooldownMs + 1 ∧
      sel.length ≤ (carriedOut k id serial (init map spawns now store) es).length := by
  rw [carriedOut_run]
  refine ⟨Cooldown.length_window_le k.cooldownMs_pos 0 lo hi _, ?_⟩
  exact Cooldown.length_le_passed (sorted_attempts k id serial _ es).2 hsel hspaced
    fun t ht => by rw [Nat.zero_add]; exact hafter t ht

/-- A second after its login a player attacks, and again at once. -/
def attacksTwice : List Event :=
  oneLogin ++ [.tick 1000, .packet 0 [4, 0, 235, 3] 4 .plain, .packet 0 [4, 0, 235, 3] 4 .plain]

theorem attempts_attacksTwice :
    attempts .attack 0 0 (init openField [] 0 .init) attacksTwice = [(1000, true), (1000, true)] := by
  decide +kernel

theorem carriedOut_rate_attacksTwice :
    ((carriedOut .attack 0 0 (init openField [] 0 .init) attacksTwice).filter
        fun t => 0 ≤ t ∧ t ≤ 1999).length ≤ (1999 - 0) / Paced.attack.cooldownMs + 1 ∧
      [1000].length ≤ (carriedOut .attack 0 0 (init openField [] 0 .init) attacksTwice).length :=
  carriedOut_rate openField [] 0 .init attacksTwice .attack 0 0 0 1999 [1000]
    (by rw [attempts_attacksTwice]; decide) (List.pairwise_singleton _ _) (by decide)

end Server

end Mmorpg
