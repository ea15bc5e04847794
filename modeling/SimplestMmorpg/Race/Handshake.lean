/-
A monster and a player that comes into its view, as threads.

One thread is the `MONSTER_AI` handler of a monster, the other a handler of a
player that ends with `ActivateNearbyMonsters`: a move, a teleport, or the part of
`OnLoginDBLoaded` that works on the world. What the player's handler still has to
do about the monster is told by its phase, and `Turn` says what a step of it can
do to the world from phase to phase.
-/
import SimplestMmorpg.Game.GameWorld
import SimplestMmorpg.Game.Holdings
import SimplestMmorpg.Race.Walk

set_option autoImplicit false

namespace Mmorpg

/-- What `OnLoginDBLoaded` does next, from `AddPlayer` on. -/
inductive EnterPc where
  | tryClaim (rest : List Position)
  | sectorInsert (spawn : Position)
  | insertPlayer (spawn : Position)
  | getPlayer
  | sendFullView (pos : Position)
  | activate (pos : Position) (pc : WakePc)
  | loginFailed
  | done
  deriving DecidableEq, Repr

/-- Its first step, with the tiles `AddPlayer` tries. -/
def EnterPc.first (row : PlayerRow) (map : Map) : EnterPc :=
  .tryClaim (SectorManager.candidates ⟨row.x, row.y⟩ map)

/-- The `MONSTER_AI` handler of a monster, or a handler of a player. -/
inductive Party where
  | ai (env : Env) (pc : AiPc)
  | move (env : Env) (session : ConnId) (data : Bytes) (pc : MovePc)
  | teleport (env : Env) (session : ConnId) (pc : TeleportPc)
  | enter (env : Env) (session : ConnId) (row : PlayerRow) (pc : EnterPc)

namespace Party

open Transition Interleave World
open Handler (withPlayer)
open Walker (actMove actTeleport claimNext withSectors)
open Wake (actWake actAi)

/-- The next step of a login. -/
def actEnter (env : Env) (session : ConnId) (row : PlayerRow) (id : ObjectID) (w : World)
    (pc : EnterPc) : World × EnterPc :=
  match pc with
  | .tryClaim rest => claimNext id w .tryClaim .sectorInsert .loginFailed rest
  | .sectorInsert spawn =>
    (withSectors w (w.sectorManager.sectorInsert (getSectorCoord spawn) id), .insertPlayer spawn)
  | .insertPlayer spawn =>
    ({ w with nextSerial := w.nextSerial + 1 }.setPlayer
      ((Player.ofRow id session row w.nextSerial).setPos spawn), .getPlayer)
  | .getPlayer =>
    match w.getPlayer id with
    | none => (w, .done)
    | some player => (w.send session (loginOkPkt player), .sendFullView player.pos)
  | .sendFullView pos =>
    withPlayer w id pc fun player =>
      (w.sendAll (ViewProcessor.sendFullView env w player), .activate pos (.first pos))
  | .activate _ .done => (w, .done)
  | .activate pos pc =>
    let out := actWake env pos w pc
    (out.1, .activate pos out.2)
  | .loginFailed => (w.send session (.loginFail .spawnFull), .done)
  | .done => (w, .done)

/-- The next step of the handler of monster `mid` or of a handler of player `id`. -/
def act (mid id : ObjectID) (w : World) : Party → World × Party
  | .ai env pc =>
    let out := actAi env mid w pc
    (out.1, .ai env out.2)
  | .move env session data pc =>
    let out := actMove env session data id w pc
    (out.1, .move env session data out.2)
  | .teleport env session pc =>
    let out := actTeleport env session id w pc
    (out.1, .teleport env session out.2)
  | .enter env session row pc =>
    let out := actEnter env session row id w pc
    (out.1, .enter env session row out.2)

variable {env : Env} {w w' : World} {mid id : ObjectID} {p q : Player} {m : Monster}
  {session : ConnId} {data : Bytes} {row : PlayerRow} {new pos : Position}

/-! ## A login by itself -/

/-- One step of a login, and then the rest. -/
theorem goes_enter {pc n : EnterPc} {y : World × EnterPc}
    (h : actEnter env session row id w pc = (w', n))
    (hrest : Goes (actEnter env session row id) (w', n) y) :
    Goes (actEnter env session row id) (w, pc) y := by
  apply Goes.head
  simp only [h]
  exact hrest

/-- What the login does for a player that it has placed. -/
theorem goes_welcome (hp : w.getPlayer id = some p) :
    Goes (actEnter env session row id) (w, .getPlayer) (w.welcome env session p, .done) := by
  have hsend : actEnter env session row id w .getPlayer =
      (w.send session (loginOkPkt p), .sendFullView p.pos) := by
    simp only [actEnter, hp]
  refine goes_enter hsend ?_
  have hp1 : (w.send session (loginOkPkt p)).getPlayer id = some p := hp
  refine goes_enter (Handler.withPlayer_some hp1) ?_
  have hwake := (Wake.goes_activateNearbyMonsters env p.pos ((w.send session
    (loginOkPkt p)).sendAll (ViewProcessor.sendFullView env (w.send session (loginOkPkt p)) p))).map
    (b := actEnter env session row id) (.activate p.pos) fun s pc => ?_
  · exact hwake.trans (goes_enter rfl (.refl _))
  · cases pc with
    | done => exact .refl _
    | _ => exact goes_enter rfl (.refl _)

/-- **A login that runs by itself** does in the world what `OnLoginDBLoaded` does once the
database id is claimed. -/
theorem goes_onLoginDBLoaded {gw gw' : GameWorld} (hclaim : gw.tryClaimDbId row.id = some gw') :
    Goes (actEnter env session row id) (gw.world, EnterPc.first row gw.world.map)
      ((gw.onLoginDBLoaded env id (some session) row).world, .done) := by
  have hworld : gw'.world = gw.world := by
    unfold GameWorld.tryClaimDbId at hclaim
    split at hclaim
    · exact absurd hclaim (by simp)
    · rw [← Option.some.inj hclaim]
  simp only [GameWorld.onLoginDBLoaded, hclaim]
  rw [← hworld]
  refine (Walker.goes_search (fun pc => pc) EnterPc.tryClaim .sectorInsert .loginFailed
    (fun _ => rfl) _).trans ?_
  cases hfirst : gw'.world.sectorManager.tryClaimFirst id
      (SectorManager.candidates ⟨row.x, row.y⟩ gw'.world.map) with
  | none =>
      have hadd : gw'.world.addPlayer id session row = none := by
        simp only [addPlayer, SectorManager.addObject, SectorManager.tryClaimNearby_eq, hfirst]
      rw [hadd]
      exact goes_enter rfl (.refl _)
  | some placed =>
      obtain ⟨sm, spawn⟩ := placed
      have hadd : gw'.world.addPlayer id session row = some
          ({ gw'.world with
              sectorManager := sm.sectorInsert (getSectorCoord spawn) id
              nextSerial := gw'.world.nextSerial + 1 }.setPlayer
            ((Player.ofRow id session row gw'.world.nextSerial).setPos spawn)) := by
        simp only [addPlayer, SectorManager.addObject, SectorManager.tryClaimNearby_eq, hfirst]
      rw [hadd]
      generalize hv : { gw'.world with
          sectorManager := sm.sectorInsert (getSectorCoord spawn) id
          nextSerial := gw'.world.nextSerial + 1 }.setPlayer
            ((Player.ofRow id session row gw'.world.nextSerial).setPos spawn) = v
      have hp : v.getPlayer id = some
          ((Player.ofRow id session row gw'.world.nextSerial).setPos spawn) := by
        rw [← hv]
        exact Handler.getPlayer_set rfl
      have hinsert : actEnter env session row id
          { gw'.world with sectorManager := sm.sectorInsert (getSectorCoord spawn) id }
          (.insertPlayer spawn) = (v, .getPlayer) := by
        rw [← hv]
        rfl
      refine goes_enter rfl (goes_enter hinsert ?_)
      simp only [hp]
      exact goes_welcome hp

/-! ## How far the player's handler is -/

/-- Nothing about the player is changed; its place is being changed; it is on its
new tile; the monsters there are woken; nothing is left to do. -/
inductive Phase where
  | still
  | going
  | placed (new : Position)
  | waking (new : Position) (pc : WakePc)
  | over
  deriving DecidableEq, Repr

def movePhase : MovePc → Phase
  | .getPlayer | .canMove | .getPos | .tryClaim _ _ => .still
  | .release _ _ | .moveObject _ _ | .setPos _ _ => .going
  | .onMoved _ new | .processMoveView _ new => .placed new
  | .activate new pc => .waking new pc
  | .ack _ | .done => .over

def teleportPhase : TeleportPc → Phase
  | .getPlayer | .getPos => .still
  | .release _ | .sectorErase _ | .tryClaim _ _ | .tryClaimHome _ _ | .sectorInsert _ _
  | .setPos _ _ => .going
  | .processMoveView _ new => .placed new
  | .activate new pc => .waking new pc
  | .ack _ | .done => .over

/-- After the player is in the table, its position is read once more. -/
def enterPhase : EnterPc → Phase
  | .tryClaim _ | .sectorInsert _ | .insertPlayer _ => .still
  | .getPlayer => .going
  | .sendFullView pos => .placed pos
  | .activate pos pc => .waking pos pc
  | .loginFailed | .done => .over

def phase : Party → Phase
  | .ai _ _ => .over
  | .move _ _ _ pc => movePhase pc
  | .teleport _ _ pc => teleportPhase pc
  | .enter _ _ _ pc => enterPhase pc

/-! ## What its steps do -/

/-- The monster is left alone. -/
structure Same (mid : ObjectID) (w w' : World) : Prop where
  monster : w'.getMonster mid = w.getMonster mid
  sectors : ∀ z, mid ∈ w'.sectorManager.sectors z ↔ mid ∈ w.sectorManager.sectors z
  timers : w'.timers = w.timers

/-- Where the player is. -/
def posOf (id : ObjectID) (w : World) : Option Position := (w.getPlayer id).map (·.pos)

/-- **What a step of the player's handler can do**, from phase to phase. -/
inductive Turn (mid id : ObjectID) (w w' : World) : Phase → Phase → Prop
  | look (f : Phase) (hf : f = .still ∨ f = .going ∨ f = .over) (same : Same mid w w')
      (hplayer : w'.getPlayer id = w.getPlayer id)
      (hstay : ∀ z, id ∈ w.sectorManager.sectors z → id ∈ w'.sectorManager.sectors z) :
      Turn mid id w w' .still f
  | go (f : Phase) (hf : f = .still ∨ f = .going) (same : Same mid w w') : Turn mid id w w' f .going
  | gone (hnone : w.getPlayer id = none) (hw : w' = w) : Turn mid id w w' .going .over
  | place (f : Phase) (new : Position) (hf : f = .still ∨ f = .going) (same : Same mid w w')
      (hpos : posOf id w' = some new) : Turn mid id w w' f (.placed new)
  | stay (new : Position) (f : Phase) (hf : f = .placed new ∨ f = .waking new (.first new))
      (same : Same mid w w') (hpos : posOf id w' = posOf id w) : Turn mid id w w' (.placed new) f
  | wake (env : Env) (new : Position) (pc : WakePc) (hw : w' = (actWake env new w pc).1) :
      Turn mid id w w' (.waking new pc) (.waking new (actWake env new w pc).2)
  | finish (new : Position) (hw : w' = w) : Turn mid id w w' (.waking new .done) .over
  | rest (same : Same mid w w') (hpos : posOf id w' = posOf id w) : Turn mid id w w' .over .over

namespace Same

theorem refl (mid : ObjectID) (w : World) : Same mid w w := ⟨rfl, fun _ => Iff.rfl, rfl⟩

/-- A write to the tiles, or to the player. -/
theorem of_sectors (hmonsters : w'.monsters = w.monsters) (htimers : w'.timers = w.timers)
    (hsectors : w'.sectorManager.sectors = w.sectorManager.sectors) : Same mid w w' where
  monster := congrArg (fun t => MonsterTable.find t mid) hmonsters
  sectors z := by rw [hsectors]
  timers := htimers

/-- A write to the sectors of the player. -/
theorem of_holding (hmonsters : w'.monsters = w.monsters) (htimers : w'.timers = w.timers)
    (hheld : w'.sectorManager.holding mid = w.sectorManager.holding mid) : Same mid w w' where
  monster := congrArg (fun t => MonsterTable.find t mid) hmonsters
  sectors z := Iff.of_eq (congrArg (fun h => z ∈ h.zones) hheld)
  timers := htimers

end Same

theorem sectors_release (sm : SectorManager) (pos : Position) (id : ObjectID) :
    (sm.release pos id).sectors = sm.sectors := by
  unfold SectorManager.release
  split <;> rfl

theorem sectors_tryClaim {sm sm' : SectorManager} (h : sm.tryClaim pos id = some sm') :
    sm'.sectors = sm.sectors := by
  rw [(SectorManager.tryClaim_eq_some h).2.2]
  rfl

theorem same_sectorErase (hne : mid ≠ id) (w : World) (c : SectorCoord) :
    Same mid w (withSectors w (w.sectorManager.sectorErase c id)) := by
  refine .of_holding rfl rfl ?_
  rw [withSectors, SectorManager.holding_sectorErase, if_neg hne]

theorem same_sectorInsert (hne : mid ≠ id) (w : World) (c : SectorCoord) :
    Same mid w (withSectors w (w.sectorManager.sectorInsert c id)) := by
  refine .of_holding rfl rfl ?_
  rw [withSectors, SectorManager.holding_sectorInsert, if_neg hne]

theorem same_moveObject (hne : mid ≠ id) (w : World) (old new : Position) :
    Same mid w (withSectors w (w.sectorManager.moveObject id old new)) := by
  refine .of_holding rfl rfl ?_
  rw [withSectors, SectorManager.holding_moveObject, if_neg fun hc => hne hc.1]

/-- The search for a tile claims at most one. -/
theorem same_claimNext {α : Type} (again : List Position → α) (found : Position → α) (failed : α)
    (rest : List Position) : Same mid w (claimNext id w again found failed rest).1 := by
  unfold claimNext
  split
  · exact .refl mid w
  · split
    · exact .refl mid w
    · next sm hclaim => exact .of_sectors rfl rfl (sectors_tryClaim hclaim)

/-- A step of the loop, as a step of the handler around it. -/
theorem turn_activate (env : Env) (new : Position) (w : World) (pc : WakePc) :
    Turn mid id w (actWake env new w pc).1 (.waking new pc)
      (.waking new (actWake env new w pc).2) :=
  .wake env new pc rfl

/-- A method call that finds the player. -/
theorem turn_withPlayer {α : Type} {stay : α} {f : Player → World × α} {g : α → Phase}
    (hstay : Turn mid id w w (g stay) (g stay))
    (hf : ∀ p, w.getPlayer id = some p → Turn mid id w (f p).1 (g stay) (g (f p).2)) :
    Turn mid id w (withPlayer w id stay f).1 (g stay) (g (withPlayer w id stay f).2) := by
  unfold Handler.withPlayer
  split
  · exact hstay
  · next p hp => exact hf p hp

theorem posOf_setPlayer (hp : w.getPlayer id = some p) (hid : q.id = p.id) :
    posOf id (w.setPlayer q) = some q.pos := by
  rw [posOf, Handler.getPlayer_set (hid.trans (getPlayer_id hp)), Option.map_some]

theorem posOf_of_getPlayer (hp : w.getPlayer id = some p) : posOf id w = some p.pos := by
  rw [posOf, hp, Option.map_some]

theorem turn_still (mid id : ObjectID) (w : World) : Turn mid id w w .still .still :=
  .look _ (.inl rfl) (.refl mid w) rfl fun _ h => h

theorem turn_leave (mid id : ObjectID) (w : World) : Turn mid id w w .still .over :=
  .look _ (.inr (.inr rfl)) (.refl mid w) rfl fun _ h => h

theorem turn_going (mid id : ObjectID) (w : World) : Turn mid id w w .going .going :=
  .go _ (.inr rfl) (.refl mid w)

theorem turn_placed (mid id : ObjectID) (w : World) (new : Position) :
    Turn mid id w w (.placed new) (.placed new) :=
  .stay new _ (.inl rfl) (.refl mid w) rfl

theorem turn_over (mid id : ObjectID) (w : World) : Turn mid id w w .over .over :=
  .rest (.refl mid w) rfl

/-- **A step of a move.** -/
theorem turn_move (hne : mid ≠ id) (w : World) (pc : MovePc) :
    Turn mid id w (actMove env session data id w pc).1 (movePhase pc)
      (movePhase (actMove env session data id w pc).2) := by
  cases pc with
  | getPlayer =>
      simp only [actMove]
      split
      · exact turn_still mid id w
      · exact turn_leave mid id w
  | canMove =>
      refine turn_withPlayer (turn_still mid id w) fun p hp => ?_
      dsimp only
      split
      · exact turn_still mid id w
      · exact turn_leave mid id w
  | getPos =>
      refine turn_withPlayer (turn_still mid id w) fun p hp => ?_
      dsimp only
      split
      · exact turn_leave mid id w
      · split
        · exact .go _ (.inl rfl) (.refl mid w)
        · exact turn_still mid id w
  | tryClaim old new =>
      simp only [actMove]
      split
      · exact turn_leave mid id w
      · next sm hclaim => exact .go _ (.inl rfl) (.of_sectors rfl rfl (sectors_tryClaim hclaim))
  | release old new => exact .go _ (.inr rfl) (.of_sectors rfl rfl (sectors_release _ _ _))
  | moveObject old new => exact .go _ (.inr rfl) (same_moveObject hne w old new)
  | setPos old new =>
      refine turn_withPlayer (turn_going mid id w) fun p hp => ?_
      exact .place _ new (.inr rfl) (.of_sectors rfl rfl rfl)
        (posOf_setPlayer (q := p.setPos new) hp rfl)
  | onMoved old new =>
      refine turn_withPlayer (turn_placed mid id w new) fun p hp => ?_
      exact .stay new _ (.inl rfl) (.of_sectors rfl rfl rfl)
        ((posOf_setPlayer (q := p.onMoved w.now) hp rfl).trans (posOf_of_getPlayer hp).symm)
  | processMoveView old new =>
      refine turn_withPlayer (turn_placed mid id w new) fun p hp => ?_
      exact .stay new _ (.inr rfl) (.of_sectors rfl rfl rfl) rfl
  | activate new pc =>
      cases pc with
      | done => exact .finish new rfl
      | _ => exact turn_activate env new w _
  | ack new => exact .rest (.of_sectors rfl rfl rfl) rfl
  | done => exact turn_over mid id w

/-- **A step of a teleport.** -/
theorem turn_teleport (hne : mid ≠ id) (w : World) (pc : TeleportPc) :
    Turn mid id w (actTeleport env session id w pc).1 (teleportPhase pc)
      (teleportPhase (actTeleport env session id w pc).2) := by
  have hgoing {f : Phase} {v : World} (hf : f = .going) (hsame : Same mid w v) :
      Turn mid id w v .going f := by
    subst hf
    exact .go _ (.inr rfl) hsame
  cases pc with
  | getPlayer =>
      simp only [actTeleport]
      split
      · exact turn_still mid id w
      · exact turn_leave mid id w
  | getPos =>
      refine turn_withPlayer (turn_still mid id w) fun p hp => ?_
      exact .go _ (.inl rfl) (.refl mid w)
  | release old => exact hgoing rfl (.of_sectors rfl rfl (sectors_release _ _ _))
  | sectorErase old => exact hgoing rfl (same_sectorErase hne w _)
  | tryClaim old rest =>
      refine hgoing ?_ (same_claimNext _ _ _ rest)
      simp only [actTeleport, claimNext]
      split
      · rfl
      · split <;> rfl
  | tryClaimHome old rest =>
      refine hgoing ?_ (same_claimNext _ _ _ rest)
      simp only [actTeleport, claimNext]
      split
      · rfl
      · split <;> rfl
  | sectorInsert old new => exact hgoing rfl (same_sectorInsert hne w _)
  | setPos old new =>
      refine turn_withPlayer (turn_going mid id w) fun p hp => ?_
      exact .place _ new (.inr rfl) (.of_sectors rfl rfl rfl)
        (posOf_setPlayer (q := p.setPos new) hp rfl)
  | processMoveView old new =>
      refine turn_withPlayer (turn_placed mid id w new) fun p hp => ?_
      exact .stay new _ (.inr rfl) (.of_sectors rfl rfl rfl) rfl
  | activate new pc =>
      cases pc with
      | done => exact .finish new rfl
      | _ => exact turn_activate env new w _
  | ack new => exact .rest (.of_sectors rfl rfl rfl) rfl
  | done => exact turn_over mid id w

/-- **A step of a login.** -/
theorem turn_enter (hne : mid ≠ id) (w : World) (pc : EnterPc) :
    Turn mid id w (actEnter env session row id w pc).1 (enterPhase pc)
      (enterPhase (actEnter env session row id w pc).2) := by
  cases pc with
  | tryClaim rest =>
      simp only [actEnter, claimNext]
      split
      · exact turn_leave mid id w
      · split
        · exact turn_still mid id w
        · next sm hclaim =>
            have hsectors := sectors_tryClaim hclaim
            exact .look _ (.inl rfl) (.of_sectors rfl rfl hsectors) rfl fun z hz => by
              rw [withSectors, hsectors]
              exact hz
  | sectorInsert spawn =>
      refine .look _ (.inl rfl) (same_sectorInsert hne w _) rfl fun z hz => ?_
      have hheld := SectorManager.holding_sectorInsert w.sectorManager (getSectorCoord spawn) id id
      rw [if_pos rfl] at hheld
      have hmem := congrArg (fun h : Holding => z ∈ h.zones) hheld
      exact hmem.mpr (Set.mem_insert_of_mem _ hz)
  | insertPlayer spawn => exact .go _ (.inl rfl) (.of_sectors rfl rfl rfl)
  | getPlayer =>
      simp only [actEnter]
      split
      · next hnone => exact .gone hnone rfl
      · next p hp => exact .place _ p.pos (.inr rfl) (.of_sectors rfl rfl rfl) (posOf_of_getPlayer hp)
  | sendFullView pos =>
      refine turn_withPlayer (turn_placed mid id w pos) fun p hp => ?_
      exact .stay pos _ (.inr rfl) (.of_sectors rfl rfl rfl) rfl
  | activate pos pc =>
      cases pc with
      | done => exact .finish pos rfl
      | _ => exact turn_activate env pos w _
  | loginFailed => exact .rest (.of_sectors rfl rfl rfl) rfl
  | done => exact turn_over mid id w

/-- A handler of the player. -/
def isVisitor : Party → Bool
  | .ai _ _ => false
  | _ => true

/-- **A step of the player's handler.** -/
theorem turn_act (hne : mid ≠ id) (w : World) {t : Party} (ht : isVisitor t = true) :
    Turn mid id w (act mid id w t).1 (phase t) (phase (act mid id w t).2) ∧
      isVisitor (act mid id w t).2 = true := by
  cases t with
  | ai env pc => exact absurd ht (by simp [isVisitor])
  | move env session data pc => exact ⟨turn_move hne w pc, rfl⟩
  | teleport env session pc => exact ⟨turn_teleport hne w pc, rfl⟩
  | enter env session row pc => exact ⟨turn_enter hne w pc, rfl⟩

end Party

end Mmorpg
