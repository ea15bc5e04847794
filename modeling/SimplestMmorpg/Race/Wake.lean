/-
Waking a monster and sending it to sleep, as threads.

`ActivateNearbyMonsters` and `HasObserverNearby` lock one sector after the other,
and the flag of a monster is one atomic variable. Here every sector that is read,
every method of a monster or a player, every compare-exchange on the flag and
every `AddTimer` is a step of its own, in the order of the source. `AITick` is one
step; a monster it is called on stays active through it, whatever else it does.
A thread that runs by itself does what `World.activateNearbyMonsters` and
`World.monsterAi` say.
-/
import SimplestMmorpg.Game.MonsterAi
import SimplestMmorpg.Lib.Interleave
import SimplestMmorpg.Race.Hit

set_option autoImplicit false

namespace Mmorpg

/-- What `ActivateNearbyMonsters` does next. -/
inductive WakePc where
  | readSector (rest : List SectorCoord) (ids : List ObjectID)
  | isDead (ids : List ObjectID)
  | getPos (id : ObjectID) (rest : List ObjectID)
  | tryActivate (id : ObjectID) (rest : List ObjectID)
  | addTimer (id : ObjectID) (rest : List ObjectID)
  | done
  deriving DecidableEq, Repr

/-- Its first step. -/
def WakePc.first (p : Position) : WakePc := .readSector (SectorManager.nearbySectors p) []

/-- What the handler of a `MONSTER_AI` event does next. -/
inductive AiPc where
  | isDead
  | getPos
  | readSector (pos : Position) (rest : List SectorCoord) (ids : List ObjectID)
  | getPlayer (pos : Position) (ids : List ObjectID)
  | playerPos (pos : Position) (id : ObjectID) (rest : List ObjectID)
  | deactivate
  | aiTick
  | addTimer
  | done
  deriving DecidableEq, Repr

namespace Wake

open Handler (withPlayer)

/-- A method call through the pointer to a monster. No monster leaves the table. -/
def withMonster {α : Type} (w : World) (id : ObjectID) (stay : α) (f : Monster → World × α) :
    World × α :=
  match w.getMonster id with
  | none => (w, stay)
  | some monster => f monster

/-- One round of `GetNearbyObjects`. -/
def readNext {α : Type} (env : Env) (w : World) (again : List SectorCoord → List ObjectID → α)
    (read : List ObjectID → α) : List SectorCoord → List ObjectID → α
  | [], ids => read ids
  | c :: rest, ids => again rest (ids ++ env.iter (w.sectorManager.getSector c))

/-- The next step of `ActivateNearbyMonsters`. -/
def actWake (env : Env) (p : Position) (w : World) (pc : WakePc) : World × WakePc :=
  match pc with
  | .readSector rest ids => (w, readNext env w .readSector .isDead rest ids)
  | .isDead [] => (w, .done)
  | .isDead (id :: rest) =>
    -- the table of monsters has no entry for the ids below the offset
    match w.getMonster id with
    | none => (w, .isDead rest)
    | some monster => (w, if monster.isDead then .isDead rest else .getPos id rest)
  | .getPos id rest =>
    withMonster w id pc fun monster =>
      (w, if ViewProcessor.isInView p monster.pos then .tryActivate id rest else .isDead rest)
  | .tryActivate id rest =>
    withMonster w id pc fun monster =>
      match monster.tryActivate with
      | none => (w, .isDead rest)
      | some monster => (w.setMonster monster, .addTimer id rest)
  | .addTimer id rest => (w.addTimer .monsterAi id monsterAiTickMs none, .isDead rest)
  | .done => (w, .done)

/-- The next step of a `MONSTER_AI` handler. -/
def actAi (env : Env) (id : ObjectID) (w : World) (pc : AiPc) : World × AiPc :=
  match pc with
  | .isDead =>
    match w.getMonster id with
    | none => (w, .done)
    | some monster => (w, if monster.isDead then .done else .getPos)
  -- `HasObserverNearby`
  | .getPos =>
    withMonster w id pc fun monster =>
      (w, .readSector monster.pos (SectorManager.nearbySectors monster.pos) [])
  | .readSector pos rest ids => (w, readNext env w (.readSector pos) (.getPlayer pos) rest ids)
  | .getPlayer _ [] => (w, .deactivate)
  | .getPlayer pos (k :: rest) =>
    (w, if isPlayerId k ∧ (w.getPlayer k).isSome then .playerPos pos k rest
      else .getPlayer pos rest)
  | .playerPos pos k rest =>
    withPlayer w k pc fun player =>
      (w, if ViewProcessor.isInView player.pos pos then .aiTick else .getPlayer pos rest)
  | .deactivate => withMonster w id pc fun monster => (w.setMonster monster.deactivate, .done)
  | .aiTick => withMonster w id pc fun monster => (w.aiTick env monster, .addTimer)
  | .addTimer => (w.addTimer .monsterAi id monsterAiTickMs none, .done)
  | .done => (w, .done)

/-! ## By themselves -/

open Interleave World

variable {env : Env} {w v : World} {id : ObjectID} {p : Position} {m : Monster}

theorem withMonster_some {α : Type} {stay : α} {f : Monster → World × α}
    (hm : w.getMonster id = some m) : withMonster w id stay f = f m := by
  rw [withMonster, hm]

/-- One step of `ActivateNearbyMonsters`, and then the rest. -/
theorem goes_wake {pc n : WakePc} {y : World × WakePc} (h : actWake env p w pc = (v, n))
    (hrest : Goes (actWake env p) (v, n) y) : Goes (actWake env p) (w, pc) y := by
  apply Goes.head
  simp only [h]
  exact hrest

/-- One step of a `MONSTER_AI` handler, and then the rest. -/
theorem goes_ai {pc n : AiPc} {y : World × AiPc} (h : actAi env id w pc = (v, n))
    (hrest : Goes (actAi env id) (v, n) y) : Goes (actAi env id) (w, pc) y := by
  apply Goes.head
  simp only [h]
  exact hrest

/-- The sectors of a query, one after the other. -/
def readAll (env : Env) (w : World) (cs : List SectorCoord) : List ObjectID :=
  cs.flatMap fun c => env.iter (w.sectorManager.getSector c)

theorem goes_readSector (cs : List SectorCoord) (ids : List ObjectID) :
    Goes (actWake env p) (w, .readSector cs ids) (w, .isDead (ids ++ readAll env w cs)) := by
  induction cs generalizing ids with
  | nil =>
      rw [readAll, List.flatMap_nil, List.append_nil]
      exact goes_wake rfl (.refl _)
  | cons c cs ih =>
      refine goes_wake rfl ?_
      rw [readAll, List.flatMap_cons, ← List.append_assoc]
      exact ih _

/-- One round of the loop. -/
theorem goes_activateMonster (rest : List ObjectID) :
    Goes (actWake env p) (w, .isDead (id :: rest)) (w.activateMonster p id, .isDead rest) := by
  unfold activateMonster
  cases hm : w.getMonster id with
  | none =>
      refine goes_wake (n := .isDead rest) ?_ (.refl _)
      simp only [actWake, hm]
  | some m =>
      by_cases hdead : m.isDead = true
      · refine goes_wake (v := w) (n := .isDead rest) ?_ ?_
        · simp only [actWake, hm, hdead, if_true]
        · simp only [hdead, if_true]
          exact .refl _
      · refine goes_wake (v := w) (n := .getPos id rest) ?_ ?_
        · simp only [actWake, hm, hdead, if_false, Bool.false_eq_true]
        simp only [hdead, if_false, Bool.false_eq_true]
        refine goes_wake (withMonster_some hm) ?_
        by_cases hview : ViewProcessor.isInView p m.pos = true
        · simp only [hview, if_true, not_true_eq_false, if_false]
          cases hact : m.tryActivate with
          | none =>
              refine goes_wake (n := .isDead rest) ((withMonster_some hm).trans ?_) (.refl _)
              rw [hact]
          | some m' =>
              refine goes_wake (v := w.setMonster m') (n := .addTimer id rest)
                ((withMonster_some hm).trans ?_) (goes_wake rfl (.refl _))
              rw [hact]
        · simp only [hview]
          exact .refl _

/-- **A thread that runs by itself is `ActivateNearbyMonsters`.** -/
theorem goes_activateNearbyMonsters (env : Env) (p : Position) (w : World) :
    Goes (actWake env p) (w, WakePc.first p) (w.activateNearbyMonsters env p, .done) := by
  refine (goes_readSector (SectorManager.nearbySectors p) []).trans ?_
  unfold activateNearbyMonsters
  have hids : [] ++ readAll env w (SectorManager.nearbySectors p) = w.getNearbyObjects env p :=
    List.nil_append _
  rw [hids]
  induction w.getNearbyObjects env p generalizing w with
  | nil => exact goes_wake rfl (.refl _)
  | cons id ids ih => exact (goes_activateMonster ids).trans (ih _ (List.nil_append _))

theorem goes_readSector_ai (cs : List SectorCoord) (ids : List ObjectID) :
    Goes (actAi env id) (w, .readSector p cs ids) (w, .getPlayer p (ids ++ readAll env w cs)) := by
  induction cs generalizing ids with
  | nil =>
      rw [readAll, List.flatMap_nil, List.append_nil]
      exact goes_ai rfl (.refl _)
  | cons c cs ih =>
      refine goes_ai rfl ?_
      rw [readAll, List.flatMap_cons, ← List.append_assoc]
      exact ih _

/-- A player that has the tile in view. -/
def observer (w : World) (p : Position) (k : ObjectID) : Option Player :=
  if ¬ isPlayerId k then none
  else
    match w.getPlayer k with
    | none => none
    | some player => if ViewProcessor.isInView player.pos p then some player else none

def observers (w : World) (p : Position) (ids : List ObjectID) : List Player :=
  ids.filterMap (observer w p)

/-- The search for an observer ends at the first. -/
theorem goes_getPlayer (ids : List ObjectID) :
    Goes (actAi env id) (w, .getPlayer p ids)
      (w, if (observers w p ids).isEmpty then .deactivate else .aiTick) := by
  induction ids with
  | nil => exact goes_ai rfl (.refl _)
  | cons k rest ih =>
      by_cases hk : isPlayerId k = true ∧ (w.getPlayer k).isSome = true
      · obtain ⟨player, hp⟩ := Option.isSome_iff_exists.mp hk.2
        refine goes_ai (v := w) (n := .playerPos p k rest) ?_ ?_
        · rw [actAi, if_pos hk]
        refine goes_ai (Handler.withPlayer_some hp) ?_
        by_cases hview : ViewProcessor.isInView player.pos p = true
        · have hone : observer w p k = some player := by simp [observer, hk.1, hp, hview]
          rw [observers, List.filterMap_cons_some hone, if_pos hview]
          exact .refl _
        · have hone : observer w p k = none := by simp [observer, hk.1, hp, hview]
          rw [observers, List.filterMap_cons_none hone, if_neg hview]
          exact ih
      · have hone : observer w p k = none := by
          unfold observer
          split
          · rfl
          · next hid =>
              have hnone : w.getPlayer k = none := by
                by_contra hsome
                exact hk ⟨not_not.mp hid, Option.isSome_iff_ne_none.mpr hsome⟩
              rw [hnone]
        refine goes_ai (v := w) (n := .getPlayer p rest) ?_ ?_
        · rw [actAi, if_neg hk]
        · rw [observers, List.filterMap_cons_none hone]
          exact ih

/-- **A thread that runs by itself is the `MONSTER_AI` branch.** -/
theorem goes_monsterAi (env : Env) (id : ObjectID) (w : World) :
    Goes (actAi env id) (w, .isDead) (w.monsterAi env id, .done) := by
  unfold monsterAi
  cases hm : w.getMonster id with
  | none =>
      refine goes_ai (n := .done) ?_ (.refl _)
      simp only [actAi, hm]
  | some m =>
      by_cases hdead : m.isDead = true
      · refine goes_ai (v := w) (n := .done) ?_ ?_
        · simp only [actAi, hm, hdead, if_true]
        · simp only [hdead, if_true]
          exact .refl _
      · refine goes_ai (v := w) (n := .getPos) ?_ ?_
        · simp only [actAi, hm, hdead, Bool.false_eq_true, if_false]
        simp only [hdead, Bool.false_eq_true, if_false]
        refine goes_ai (withMonster_some hm) ?_
        refine (goes_readSector_ai _ _).trans ((goes_getPlayer _).trans ?_)
        have hseen : w.hasObserverNearby env m =
            ! (observers w m.pos ([] ++ readAll env w
              (SectorManager.nearbySectors m.pos))).isEmpty := by
          rw [List.nil_append, hasObserverNearby, decide_not, Bool.decide_coe]
          rfl
        rw [hseen]
        by_cases hnone : (observers w m.pos ([] ++ readAll env w
            (SectorManager.nearbySectors m.pos))).isEmpty = true
        · simp only [hnone, if_true, Bool.not_true, Bool.false_eq_true, not_false_eq_true]
          exact goes_ai (withMonster_some hm) (.refl _)
        · simp only [hnone, Bool.false_eq_true, if_false, Bool.not_false, not_true_eq_false]
          exact goes_ai (withMonster_some hm) (goes_ai rfl (.refl _))

/-! ## What a step of `ActivateNearbyMonsters` writes -/

theorem withMonster_frame {α β : Type} {t : α} {f : Monster → World × α} (g : World → β)
    (hf : ∀ m, w.getMonster id = some m → g (f m).1 = g w) :
    g (withMonster w id t f).1 = g w := by
  unfold withMonster
  split
  · rfl
  · next m hm => exact hf m hm

/-- What is read of the world without the flags and the timers stays. -/
theorem frame_actWake {β : Type} (g : World → β) (env : Env) (p : Position) (w : World)
    (hmonster : ∀ m, g (w.setMonster m) = g w)
    (htimer : ∀ id, g (w.addTimer .monsterAi id monsterAiTickMs none) = g w) (pc : WakePc) :
    g (actWake env p w pc).1 = g w := by
  cases pc with
  | isDead ids =>
      cases ids with
      | nil => rfl
      | cons k rest =>
          simp only [actWake]
          split <;> rfl
  | getPos k rest => exact withMonster_frame g fun m _ => rfl
  | tryActivate k rest =>
      refine withMonster_frame g fun m _ => ?_
      split
      · rfl
      · exact hmonster _
  | addTimer k rest => exact htimer k
  | _ => rfl

end Wake

end Mmorpg
