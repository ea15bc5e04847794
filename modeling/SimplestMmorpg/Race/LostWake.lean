/-
A monster going to sleep, and a player coming into view.

The handler of `MONSTER_AI` looks for an observer and clears the flag of the
monster when it found none. A player that comes into view enters the sector, sets
its position, and then sets the flags of the monsters it sees; a flag that is
still set is left alone. Between the last read of the one and its store there is
room for all of the other: the flag is found set, and cleared afterwards.

When the flag is cleared while the player has not come to the monster in its loop,
the player sets it again and starts a new timer. Regeneration has a second look
for this pattern (`StopRegenAndMaybeRestart`); `Deactivate` has none.
-/
import SimplestMmorpg.Race.Handshake
import SimplestMmorpg.Server.PlacementRun

set_option autoImplicit false

namespace Mmorpg.Party

open Transition Interleave World
open ViewProcessor (isInView)
open Wake (actWake actAi)

variable {env : Env} {w w' : World} {mid id : ObjectID} {p q : Player} {m : Monster}
  {c : Config World Party} {i : ℕ} {pc : AiPc} {f g : Phase} {new pos : Position}

/-! ## What is asked -/

/-- The player is in the table, and has a tile in view. -/
def sees (w : World) (id : ObjectID) (pos : Position) : Bool :=
  (posOf id w).any fun q => isInView q pos

/-- The monster is active, and a `MONSTER_AI` event is outstanding for it. -/
def Awake (w : World) (mid : ObjectID) : Prop :=
  (∃ m, w.getMonster mid = some m ∧ m.isActive = true) ∧
    ∃ ev ∈ w.timers, ev.type = .monsterAi ∧ ev.targetId = mid

/-- The monster is awake if it is alive and the player has it in view. -/
def Noticed (w : World) (mid id : ObjectID) : Prop :=
  ∀ m, w.getMonster mid = some m → m.isDead = false → sees w id m.pos = true → Awake w mid

/-- What the player's handler is called for. -/
inductive Visit where
  | move (env : Env) (session : ConnId) (data : Bytes)
  | teleport (env : Env) (session : ConnId)
  | enter (env : Env) (session : ConnId) (row : PlayerRow)

def Visit.party (map : Map) : Visit → Party
  | .move env session data => .move env session data .getPlayer
  | .teleport env session => .teleport env session .getPlayer
  | .enter env session row => .enter env session row (.first row map)

/-- The event of the monster is taken from the queue, and the player's handler begins. -/
def begin (w : World) (env : Env) (visit : Visit) : Config World Party :=
  ⟨w, [.ai env .isDead, visit.party w.map]⟩

/-- A living monster whose event is handled is active and in its sector, and a player
that is in the table is in its sector. -/
structure Ready (w : World) (mid id : ObjectID) : Prop where
  isPlayer : isPlayerId id = true
  monster : ∀ m ∈ w.getMonster mid, m.isDead = false →
    m.isActive = true ∧ InMap m.pos ∧ mid ∈ w.sectorManager.sectors (zoneOf m.pos)
  player : ∀ p ∈ w.getPlayer id, InMap p.pos ∧ id ∈ w.sectorManager.sectors (zoneOf p.pos)

/-- The handler has come to its end. -/
def Finished : Party → Bool
  | .ai _ pc => pc = .done
  | .move _ _ _ pc => pc = .done
  | .teleport _ _ pc => pc = .done
  | .enter _ _ _ pc => pc = .done

/-- `ActivateNearbyMonsters` has made its attempt on the monster, if it makes one. -/
def passedWake (mid : ObjectID) : WakePc → Bool
  | .readSector _ _ => false
  | .isDead ids => mid ∉ ids
  | .getPos k rest => mid ≠ k ∧ mid ∉ rest
  | .tryActivate k rest => mid ≠ k ∧ mid ∉ rest
  | .addTimer _ rest => mid ∉ rest
  | .done => true

def passed (mid : ObjectID) : Phase → Bool
  | .waking _ pc => passedWake mid pc
  | .over => true
  | _ => false

/-- When the flag of the monster is cleared, no player that has it in view is past its
attempt. -/
def InTime (mid id : ObjectID) (c : Config World Party) (i : ℕ) : Prop :=
  match c.threads[i]? with
  | some (.ai _ .deactivate) =>
    ∀ m ∈ c.shared.getMonster mid, sees c.shared id m.pos = true →
      ∀ t ∈ c.threads, isVisitor t = true → passed mid (phase t) = false
  | _ => True

instance (mid id : ObjectID) (c : Config World Party) (i : ℕ) : Decidable (InTime mid id c i) := by
  unfold InTime
  split <;> infer_instance

/-! ## A tick leaves its monster awake -/

/-- An active monster stays active. -/
def StaysActive (mid : ObjectID) (w w' : World) : Prop :=
  ∀ m, w.getMonster mid = some m → m.isActive = true →
    ∃ m', w'.getMonster mid = some m' ∧ m'.isActive = true

namespace StaysActive

theorem of_eq (h : w'.getMonster mid = w.getMonster mid) : StaysActive mid w w' :=
  fun m hm hact => ⟨m, h.trans hm, hact⟩

theorem trans {w'' : World} (h : StaysActive mid w w') (h' : StaysActive mid w' w'') :
    StaysActive mid w w'' := by
  intro m hm hact
  obtain ⟨m', hm', hact'⟩ := h m hm hact
  exact h' m' hm' hact'

theorem foldl {α : Type} {f : World → α → World} (hf : ∀ w a, StaysActive mid w (f w a))
    (l : List α) (w : World) : StaysActive mid w (l.foldl f w) := by
  induction l generalizing w with
  | nil => exact .of_eq rfl
  | cons a l ih => exact (hf w a).trans (ih (f w a))

/-- The record of a monster that is written is active, if it is this one. -/
theorem setMonster (hm : m.id = mid → m.isActive = true) : StaysActive mid w (w.setMonster m) := by
  intro m₀ hm₀ hact
  have hset : (w.setMonster m).getMonster mid =
      (w.getMonster mid).map fun m' => if m'.id = m.id then m else m' :=
    MonsterTable.find_set m mid
  rw [hm₀, Option.map_some] at hset
  refine ⟨_, hset, ?_⟩
  split
  · next hid => exact hm (hid.symm.trans (getMonster_id hm₀))
  · exact hact

/-- A method that leaves the flag alone. -/
theorem modifyMonster {k : ObjectID} {f : Monster → Monster}
    (hf : ∀ m, (f m).id = m.id ∧ (f m).isActive = m.isActive) :
    StaysActive mid w (w.modifyMonster k f) := by
  intro m hm hact
  unfold World.modifyMonster
  split
  · exact ⟨m, hm, hact⟩
  · next m' hm' =>
      refine StaysActive.setMonster (fun hid => ?_) m hm hact
      -- the record that is written is this monster's own
      have hk : k = mid := (getMonster_id hm').symm.trans ((hf m').1.symm.trans hid)
      rw [hk] at hm'
      rw [(hf m').2, Option.some.inj (hm'.symm.trans hm)]
      exact hact

theorem activateMonster (pos : Position) (w : World) (id : ObjectID) :
    StaysActive mid w (w.activateMonster pos id) := by
  unfold World.activateMonster
  split
  · exact .of_eq rfl
  · next m hm =>
      split
      · exact .of_eq rfl
      · split
        · exact .of_eq rfl
        · split
          · exact .of_eq rfl
          · next m' hact =>
              have hactive : m'.isActive = true := by
                unfold Monster.tryActivate at hact
                split at hact
                · exact absurd hact (by simp)
                · rw [← Option.some.inj hact]
              have hset : StaysActive mid w (w.setMonster m') := .setMonster fun _ => hactive
              exact hset.trans (.of_eq rfl)

theorem activateNearbyMonsters (env : Env) (pos : Position) (w : World) :
    StaysActive mid w (w.activateNearbyMonsters env pos) :=
  .foldl (activateMonster pos) _ w

/-- No write to a monster comes before the monsters near the new tile are woken. -/
theorem onPlayerDied (env : Env) (p : Player) (w : World) :
    StaysActive mid w (w.onPlayerDied env p) := by
  cases hadd : (w.sectorManager.removeObject p.id p.pos).addObject p.id ⟨0, 0⟩ w.map with
  | none =>
      rw [onPlayerDied_of_none hadd]
      exact .of_eq rfl
  | some placed =>
      rw [onPlayerDied_of_some hadd]
      intro m hm hact
      exact activateNearbyMonsters env _ _ m hm hact

theorem monsterAttackPlayer (env : Env) (m : Monster) (p : Player) (w : World) :
    StaysActive mid w (w.monsterAttackPlayer env m p) := by
  unfold World.monsterAttackPlayer
  split
  · exact .of_eq rfl
  · dsimp only
    split
    · intro mon hm hact
      exact onPlayerDied env _ _ mon hm hact
    · unfold startRegen
      split <;> exact .of_eq rfl

theorem moveMonster (hact : m.isActive = true) (env : Env) (new : Position) (w : World) :
    StaysActive mid w (w.moveMonster env m new) := by
  unfold World.moveMonster
  split
  · exact .of_eq rfl
  · next sm _ =>
      have hset : StaysActive mid w ({ w with sectorManager := sm }.setMonster (m.setPos new)) :=
        trans (.of_eq rfl) (.setMonster fun _ => hact)
      exact hset.trans (.of_eq rfl)

theorem chase (hact : m.isActive = true) (env : Env) (pos : Position) (w : World) :
    StaysActive mid w (w.chase env m pos) := by
  unfold World.chase
  dsimp only
  split
  · exact .of_eq rfl
  · split
    · exact .of_eq rfl
    · split
      · exact .of_eq rfl
      · exact .moveMonster hact env _ w

theorem roamingMove (hact : m.isActive = true) (env : Env) (w : World) :
    StaysActive mid w (w.roamingMove env m) := by
  unfold World.roamingMove
  dsimp only
  split
  · exact .of_eq rfl
  · split
    · exact .of_eq rfl
    · exact .moveMonster hact env _ w

theorem attackVictim (env : Env) (m : Monster) (w : World) (victimId : ObjectID) :
    StaysActive mid w (w.attackVictim env m victimId) := by
  unfold World.attackVictim
  split
  · exact .of_eq rfl
  · exact .monsterAttackPlayer env m _ w

/-- **`AITick` leaves its monster active**, whatever it does. -/
theorem aiTick (hact : m.isActive = true) (env : Env) (w : World) :
    StaysActive mid w (w.aiTick env m) := by
  unfold World.aiTick
  cases w.aiAction env m with
  | idle => exact .of_eq rfl
  | clearTarget => exact .setMonster fun _ => hact
  | setTarget id => exact .setMonster fun _ => hact
  | roam => exact .roamingMove hact env w
  | chase targetPos => exact .chase hact env targetPos w
  | attack victims =>
      have hfold : StaysActive mid w (victims.foldl (World.attackVictim env m) w) :=
        foldl (attackVictim env m) victims w
      have heffect : ∀ v, StaysActive mid v (v.broadcastAttackEffect env m.id m.pos) :=
        fun v => .of_eq rfl
      have hdone : ∀ v now, StaysActive mid v (v.modifyMonster m.id fun k =>
          k.onAttackPerformed now) := fun v now => .modifyMonster fun _ => ⟨rfl, rfl⟩
      simp only [perform, attackAdjacent]
      exact (hfold.trans (heffect _)).trans (hdone _ _)

end StaysActive

/-! ## What is known of the two handlers -/

/-- The `MONSTER_AI` handler will come to the player, if it has the monster in view
and stays where it is. -/
def Finds (w : World) (id : ObjectID) (tile : Position) : AiPc → Prop
  | .isDead => True
  | .getPos => True
  | .readSector pos rest ids => pos = tile ∧
      ∀ p, w.getPlayer id = some p → isInView p.pos tile = true →
        getSectorCoord p.pos ∈ rest ∨ id ∈ ids
  | .getPlayer pos ids => pos = tile ∧ (sees w id tile = true → id ∈ ids)
  | .playerPos pos k rest => pos = tile ∧ (sees w id tile = true → id = k ∨ id ∈ rest)
  | .deactivate => sees w id tile = false
  | _ => False

/-- The handler has not cleared the flag, and has not found anybody. -/
def looks : AiPc → Bool
  | .aiTick | .addTimer | .done => false
  | _ => true

/-- `ActivateNearbyMonsters` will come to the monster. -/
def Comes (mid : ObjectID) (tile new : Position) : WakePc → Prop
  | .readSector rest ids => isInView new tile = true → getSectorCoord tile ∈ rest ∨ mid ∈ ids
  | _ => True

/-- The player is where its handler has put it. -/
def Kept (w : World) (mid id : ObjectID) (tile : Position) : Phase → Prop
  | .placed new => posOf id w = some new
  | .waking new pc => posOf id w = some new ∧ Comes mid tile new pc
  | _ => True

/-- The player has not moved yet, and is registered where it stands. -/
def Registered (w : World) (id : ObjectID) : Prop :=
  ∀ p, w.getPlayer id = some p → InMap p.pos ∧ id ∈ w.sectorManager.sectors (zoneOf p.pos)

/-- The monster is alive on its tile, and in the sector of it. -/
structure Alive (w : World) (mid : ObjectID) (m : Monster) : Prop where
  monster : w.getMonster mid = some m
  alive : m.isDead = false
  inMap : InMap m.pos
  sector : mid ∈ w.sectorManager.sectors (zoneOf m.pos)

/-- The monster is awake, or the player's handler has just woken it. -/
def Woken (w : World) (mid : ObjectID) (f : Phase) : Prop :=
  Awake w mid ∨
    (∃ m, w.getMonster mid = some m ∧ m.isActive = true) ∧
      ∃ new rest, f = .waking new (.addTimer mid rest)

/-- The flag has been cleared: the player's handler owes the monster an attempt, if the
player has it in view. -/
structure Cleared (w : World) (mid id : ObjectID) (m : Monster) (f : Phase) : Prop where
  kept : Kept w mid id m.pos f
  owed : sees w id m.pos = true → f ≠ .still ∧ (passed mid f = true → Woken w mid f)
  active : m.isActive = true → Woken w mid f

/-- Where the two are. -/
inductive Track (mid id : ObjectID) (w : World) (pc : AiPc) (f : Phase) : Prop
  | dead (hdead : ∀ m, w.getMonster mid = some m → m.isDead = true)
      (hpc : pc = .isDead ∨ pc = .done)
  | looking (m : Monster) (h : Alive w mid m) (hactive : m.isActive = true)
      (hpc : looks pc = true) (hkept : Kept w mid id m.pos f)
      (hstill : f = .still → Registered w id ∧ Finds w id m.pos pc)
  | ticking (hactive : ∃ m, w.getMonster mid = some m ∧ m.isActive = true)
      (hpc : pc = .aiTick ∨ pc = .addTimer)
  | ticked (h : Awake w mid) (hpc : pc = .done)
  | cleared (m : Monster) (h : Alive w mid m) (hc : Cleared w mid id m f) (hpc : pc = .done)

/-! ## A step of the `MONSTER_AI` handler -/

theorem sees_eq_true {tile : Position} :
    sees w id tile = true ↔ ∃ p, w.getPlayer id = some p ∧ isInView p.pos tile = true := by
  rw [sees, posOf, Option.any_map]
  exact Option.any_eq_true _ _

/-- **While it looks, it writes nothing**, and it does not miss a player that stays. -/
theorem look_actAi (env : Env) (hid : isPlayerId id = true) (h : Alive w mid m)
    (hpc : looks pc = true)
    (hnext : pc ≠ .deactivate) :
    (actAi env mid w pc).1 = w ∧ ((actAi env mid w pc).2 = .aiTick ∨
      looks (actAi env mid w pc).2 = true ∧
        (Registered w id → Finds w id m.pos pc → Finds w id m.pos (actAi env mid w pc).2)) := by
  cases pc with
  | isDead =>
      simp only [actAi, h.monster, h.alive, Bool.false_eq_true, if_false]
      exact ⟨trivial, .inr ⟨rfl, fun _ _ => trivial⟩⟩
  | getPos =>
      simp only [actAi, Wake.withMonster_some h.monster]
      refine ⟨trivial, .inr ⟨rfl, fun hreg _ => ⟨rfl, fun p hp hview => .inl ?_⟩⟩⟩
      rw [ViewProcessor.isInView_comm] at hview
      exact ViewProcessor.getSectorCoord_mem_of_isInView (hreg p hp).1 hview
  | readSector pos rest ids =>
      cases rest with
      | nil =>
          refine ⟨rfl, .inr ⟨rfl, fun _ hf => ⟨hf.1, fun hsees => ?_⟩⟩⟩
          obtain ⟨p, hp, hview⟩ := sees_eq_true.mp hsees
          exact (hf.2 p hp hview).resolve_left List.not_mem_nil
      | cons c rest =>
          refine ⟨rfl, .inr ⟨rfl, fun hreg hf => ⟨hf.1, fun p hp hview => ?_⟩⟩⟩
          rcases hf.2 p hp hview with hmem | hmem
          · rcases List.mem_cons.mp hmem with rfl | hmem
            · -- the player's own sector is read
              exact .inr (List.mem_append_right _ ((env.mem_iter _ _).mpr (hreg p hp).2))
            · exact .inl hmem
          · exact .inr (List.mem_append_left _ hmem)
  | getPlayer pos ids =>
      cases ids with
      | nil =>
          refine ⟨rfl, .inr ⟨rfl, fun _ hf => ?_⟩⟩
          exact Bool.eq_false_iff.mpr fun hsees => List.not_mem_nil (hf.2 hsees)
      | cons k rest =>
          by_cases hk : isPlayerId k = true ∧ (w.getPlayer k).isSome = true
          · simp only [actAi, if_pos hk]
            exact ⟨trivial, .inr ⟨rfl, fun _ hf =>
              ⟨hf.1, fun hsees => List.mem_cons.mp (hf.2 hsees)⟩⟩⟩
          · simp only [actAi, if_neg hk]
            refine ⟨trivial, .inr ⟨rfl, fun _ hf => ⟨hf.1, fun hsees => ?_⟩⟩⟩
            refine (List.mem_cons.mp (hf.2 hsees)).resolve_left ?_
            rintro rfl
            obtain ⟨p, hp, -⟩ := sees_eq_true.mp hsees
            exact hk ⟨hid, by rw [hp]; rfl⟩
  | playerPos pos k rest =>
      cases hp : w.getPlayer k with
      | none =>
          simp only [actAi, Handler.withPlayer, hp]
          exact ⟨trivial, .inr ⟨rfl, fun _ hf => hf⟩⟩
      | some p =>
          simp only [actAi, Handler.withPlayer_some hp]
          by_cases hview : isInView p.pos pos = true
          · rw [if_pos hview]
            exact ⟨trivial, .inl rfl⟩
          · rw [if_neg hview]
            refine ⟨trivial, .inr ⟨rfl, fun _ hf => ⟨hf.1, fun hsees => ?_⟩⟩⟩
            refine (hf.2 hsees).resolve_left ?_
            rintro rfl
            obtain ⟨q, hq, hq'⟩ := sees_eq_true.mp hsees
            rw [Option.some.inj (hq.symm.trans hp), ← hf.1] at hq'
            exact hview hq'
  | deactivate => exact absurd rfl hnext
  | aiTick => exact absurd hpc (by simp [looks])
  | addTimer => exact absurd hpc (by simp [looks])
  | done => exact absurd hpc (by simp [looks])

/-- The flag is cleared in time. -/
theorem cleared_deactivate (h : Alive w mid m) (hkept : Kept w mid id m.pos f)
    (hstill : f = .still → sees w id m.pos = false)
    (hok : sees w id m.pos = true → passed mid f = false) :
    Alive (w.setMonster m.deactivate) mid m.deactivate ∧
      Cleared (w.setMonster m.deactivate) mid id m.deactivate f := by
  have hmid : m.deactivate.id = mid := getMonster_id (m := m) h.monster
  refine ⟨⟨?_, h.alive, h.inMap, h.sector⟩, ?_, ?_, ?_⟩
  · have hget := getMonster_setMonster (m := m.deactivate) (n := m) (by rw [hmid]; exact h.monster) mid
    rw [if_pos hmid.symm] at hget
    exact hget
  · cases f <;> exact hkept
  · intro hsees
    refine ⟨?_, fun hpassed => ?_⟩
    · rintro rfl
      exact absurd ((hstill rfl).symm.trans hsees) Bool.false_ne_true
    · exact absurd ((hok hsees).symm.trans hpassed) Bool.false_ne_true
  · intro hactive
    exact absurd hactive Bool.false_ne_true

/-- **A step of the `MONSTER_AI` handler.** -/
theorem track_ai (hid : isPlayerId id = true) (h : Track mid id w pc f)
    (hok : pc = .deactivate → ∀ m, w.getMonster mid = some m → sees w id m.pos = true →
      passed mid f = false) :
    Track mid id (actAi env mid w pc).1 (actAi env mid w pc).2 f := by
  cases h with
  | dead hdead hpc =>
      rcases hpc with rfl | rfl
      · cases hm : w.getMonster mid with
        | none =>
            simp only [actAi, hm]
            exact .dead (fun m hm' => absurd (hm.symm.trans hm') (by simp)) (.inr rfl)
        | some m =>
            simp only [actAi, hm, hdead m hm, if_true]
            exact .dead hdead (.inr rfl)
      · exact .dead hdead (.inr rfl)
  | looking m h hactive hpc hkept hstill =>
      by_cases hnext : pc = .deactivate
      · subst hnext
        simp only [actAi, Wake.withMonster_some h.monster]
        obtain ⟨halive, hcleared⟩ := cleared_deactivate h hkept (fun hf => (hstill hf).2)
          (hok rfl m h.monster)
        exact .cleared _ halive hcleared rfl
      · obtain ⟨hsame, hnext⟩ := look_actAi env hid h hpc hnext
        rw [hsame]
        rcases hnext with htick | ⟨hlooks, hfinds⟩
        · exact .ticking ⟨m, h.monster, hactive⟩ (.inl htick)
        · exact .looking m h hactive hlooks hkept fun hf =>
            ⟨(hstill hf).1, hfinds (hstill hf).1 (hstill hf).2⟩
  | ticking hactive hpc =>
      obtain ⟨m, hm, hact⟩ := hactive
      rcases hpc with rfl | rfl
      · simp only [actAi, Wake.withMonster_some hm]
        exact .ticking (StaysActive.aiTick hact env w m hm hact) (.inr rfl)
      · refine .ticked ⟨⟨m, hm, hact⟩, ?_⟩ rfl
        exact ⟨_, List.mem_append_right _ (List.mem_singleton_self _), rfl, rfl⟩
  | ticked h hpc =>
      subst hpc
      exact .ticked h rfl
  | cleared m h hc hpc =>
      subst hpc
      exact .cleared m h hc rfl

/-! ## What a step of the player's handler keeps -/

/-- **What a step of the loop does to a monster**: nothing, or it is the attempt that
wakes it. -/
theorem monster_actWake (env : Env) (new : Position) (w : World) (pc : WakePc) :
    (actWake env new w pc).1.getMonster mid = w.getMonster mid ∨
      ∃ m rest, pc = .tryActivate mid rest ∧ w.getMonster mid = some m ∧ m.isActive = false ∧
        (actWake env new w pc).2 = .addTimer mid rest ∧
        (actWake env new w pc).1.getMonster mid = some { m with isActive := true } := by
  cases pc with
  | tryActivate k rest =>
      cases hk : w.getMonster k with
      | none => exact .inl (by simp only [actWake, Wake.withMonster, hk])
      | some m =>
          simp only [actWake, Wake.withMonster_some hk, Monster.tryActivate]
          split
          · next hnone => exact .inl rfl
          · next m' hsome =>
              split at hsome
              · exact absurd hsome (by simp)
              · next hact =>
                  obtain rfl := Option.some.inj hsome
                  have hid : m.id = k := getMonster_id hk
                  have hget := getMonster_setMonster (w := w) (m := { m with isActive := true })
                    (n := m) (by rw [← hid] at hk; exact hk) mid
                  by_cases hmid : mid = k
                  · subst hmid
                    refine .inr ⟨m, rest, rfl, hk, by simpa using hact, rfl, ?_⟩
                    rw [hget, if_pos hid.symm]
                  · refine .inl ?_
                    rw [hget, if_neg fun h => hmid (h.trans hid)]
  | isDead ids =>
      cases ids with
      | nil => exact .inl rfl
      | cons k rest =>
          simp only [actWake]
          split <;> exact .inl rfl
  | getPos k rest =>
      exact .inl (Wake.withMonster_frame (fun v => v.getMonster mid) fun m _ => rfl)
  | _ => exact .inl rfl

theorem timers_actWake (env : Env) (new : Position) (w : World) (pc : WakePc) (ev : TimerEvent)
    (hev : ev ∈ w.timers) : ev ∈ (actWake env new w pc).1.timers := by
  cases pc with
  | isDead ids =>
      cases ids with
      | nil => exact hev
      | cons k rest =>
          simp only [actWake]
          split <;> exact hev
  | getPos k rest =>
      simp only [actWake, Wake.withMonster]
      split <;> exact hev
  | tryActivate k rest =>
      simp only [actWake, Wake.withMonster]
      split
      · exact hev
      · split <;> exact hev
  | addTimer k rest => exact List.mem_append_left _ hev
  | _ => exact hev

/-- The monster after the step, and nothing less about it. -/
theorem alive_actWake (h : Alive w mid m) (env : Env) (new : Position) (pc : WakePc) :
    ∃ m', Alive (actWake env new w pc).1 mid m' ∧ m'.pos = m.pos ∧
      (m' = m ∨ m.isActive = false ∧ m'.isActive = true ∧
        ∃ rest, pc = .tryActivate mid rest ∧ (actWake env new w pc).2 = .addTimer mid rest) := by
  have hsectors : (actWake env new w pc).1.sectorManager = w.sectorManager :=
    Wake.frame_actWake (·.sectorManager) env new w (fun _ => rfl) (fun _ => rfl) pc
  have hsector : mid ∈ (actWake env new w pc).1.sectorManager.sectors (zoneOf m.pos) := by
    rw [hsectors]
    exact h.sector
  rcases monster_actWake env new w pc with
    hsame | ⟨m₀, rest, hpc, hm₀, hidle, hnext, hget⟩
  · exact ⟨m, ⟨hsame.trans h.monster, h.alive, h.inMap, hsector⟩, rfl, .inl rfl⟩
  · obtain rfl := Option.some.inj (hm₀.symm.trans h.monster)
    exact ⟨_, ⟨hget, h.alive, h.inMap, hsector⟩, rfl, .inr ⟨hidle, rfl, rest, hpc, hnext⟩⟩

theorem posOf_actWake (env : Env) (new : Position) (w : World) (id : ObjectID) (pc : WakePc) :
    posOf id (actWake env new w pc).1 = posOf id w :=
  Wake.frame_actWake (posOf id) env new w (fun _ => rfl) (fun _ => rfl) pc

theorem posOf_congr (h : w'.getPlayer id = w.getPlayer id) : posOf id w' = posOf id w := by
  rw [posOf, h, posOf]

theorem sees_congr {tile : Position} (hpos : posOf id w' = posOf id w) :
    sees w' id tile = sees w id tile := by
  rw [sees, hpos, sees]

theorem Same.alive (hs : Same mid w w') (h : Alive w mid m) : Alive w' mid m :=
  ⟨hs.monster.trans h.monster, h.alive, h.inMap, (hs.sectors _).mpr h.sector⟩

theorem Same.awake (hs : Same mid w w') (h : Awake w mid) : Awake w' mid := by
  obtain ⟨⟨m, hm, hact⟩, hev⟩ := h
  exact ⟨⟨m, hs.monster.trans hm, hact⟩, by rw [hs.timers]; exact hev⟩

theorem active_actWake (env : Env) (new : Position) (pc : WakePc)
    (h : ∃ m, w.getMonster mid = some m ∧ m.isActive = true) :
    ∃ m, (actWake env new w pc).1.getMonster mid = some m ∧ m.isActive = true := by
  obtain ⟨m, hm, hact⟩ := h
  rcases monster_actWake env new w pc with hsame | ⟨m₀, -, -, -, -, -, hget⟩
  · exact ⟨m, hsame.trans hm, hact⟩
  · exact ⟨_, hget, rfl⟩

theorem awake_actWake (env : Env) (new : Position) (pc : WakePc) (h : Awake w mid) :
    Awake (actWake env new w pc).1 mid := by
  obtain ⟨hactive, ev, hev, htype⟩ := h
  exact ⟨active_actWake env new pc hactive, ev, timers_actWake env new w pc ev hev, htype⟩

theorem awake_of_woken (h : Woken w mid f)
    (hf : ∀ new rest, f ≠ .waking new (.addTimer mid rest)) : Awake w mid := by
  rcases h with hawake | ⟨-, new, rest, rfl⟩
  · exact hawake
  · exact absurd rfl (hf new rest)

/-! ## The loop over the monsters around -/

/-- The loop will come to the monster, as long as it reads sectors. -/
theorem comes_actWake (h : Alive w mid m) {pc : WakePc} (hc : Comes mid m.pos new pc) :
    Comes mid m.pos new (actWake env new w pc).2 := by
  cases pc with
  | readSector rest ids =>
      cases rest with
      | nil => trivial
      | cons c rest =>
          intro hview
          rcases hc hview with hmem | hmem
          · rcases List.mem_cons.mp hmem with rfl | hmem
            · -- the monster's own sector is read
              exact .inr (List.mem_append_right _ ((env.mem_iter _ _).mpr h.sector))
            · exact .inl hmem
          · exact .inr (List.mem_append_left _ hmem)
  | isDead ids =>
      cases ids with
      | nil => trivial
      | cons k rest =>
          simp only [actWake]
          split
          · trivial
          · dsimp only
            split <;> trivial
  | getPos k rest =>
      simp only [actWake, Wake.withMonster]
      split
      · trivial
      · dsimp only
        split <;> trivial
  | tryActivate k rest =>
      simp only [actWake, Wake.withMonster]
      split
      · trivial
      · split <;> trivial
  | addTimer k rest => trivial
  | done => trivial

/-- **The loop comes past the monster at its attempt only**, when the monster is alive and
in view. -/
theorem passed_actWake (h : Alive w mid m) {pc : WakePc} (hview : isInView new m.pos = true)
    (hc : Comes mid m.pos new pc) (hpassed : passedWake mid (actWake env new w pc).2 = true) :
    passedWake mid pc = true ∨ ∃ rest, pc = .tryActivate mid rest := by
  cases pc with
  | readSector rest ids =>
      cases rest with
      | nil =>
          -- the sector of the monster has been read, so the monster is in the list
          have hmem := (hc hview).resolve_left List.not_mem_nil
          exact absurd hmem (of_decide_eq_true hpassed)
      | cons c rest => exact absurd hpassed Bool.false_ne_true
  | isDead ids =>
      left
      cases ids with
      | nil => exact decide_eq_true (List.not_mem_nil (a := mid))
      | cons k rest =>
          simp only [actWake] at hpassed
          by_cases hk : mid = k
          · subst hk
            rw [h.monster] at hpassed
            -- it is alive, so the scan does not pass it
            simp only [h.alive, Bool.false_eq_true, if_false, passedWake, ne_eq, not_true_eq_false,
              false_and, decide_false] at hpassed
          · have hrest : mid ∉ rest := by
              split at hpassed
              · exact of_decide_eq_true hpassed
              · dsimp only at hpassed
                split at hpassed
                · exact of_decide_eq_true hpassed
                · exact (of_decide_eq_true hpassed).2
            exact decide_eq_true (List.not_mem_cons_of_ne_of_not_mem hk hrest)
  | getPos k rest =>
      left
      by_cases hk : mid = k
      · subst hk
        -- it is in view, so the scan does not pass it
        simp only [actWake, Wake.withMonster_some h.monster, hview, if_true] at hpassed
        exact hpassed
      · refine decide_eq_true ⟨hk, ?_⟩
        simp only [actWake, Wake.withMonster] at hpassed
        split at hpassed
        · exact (of_decide_eq_true hpassed).2
        · dsimp only at hpassed
          split at hpassed
          · exact (of_decide_eq_true hpassed).2
          · exact of_decide_eq_true hpassed
  | tryActivate k rest =>
      by_cases hk : mid = k
      · subst hk
        exact .inr ⟨rest, rfl⟩
      · refine .inl (decide_eq_true ⟨hk, ?_⟩)
        simp only [actWake, Wake.withMonster] at hpassed
        split at hpassed
        · exact (of_decide_eq_true hpassed).2
        · split at hpassed <;> exact of_decide_eq_true hpassed
  | addTimer k rest => exact .inl hpassed
  | done => exact .inl hpassed

/-- After the attempt the monster is active. -/
theorem attempt_actWake {rest : List ObjectID} (h : Alive w mid m) :
    ∃ m', (actWake env new w (.tryActivate mid rest)).1.getMonster mid = some m' ∧
      m'.isActive = true := by
  simp only [actWake, Wake.withMonster_some h.monster, Monster.tryActivate]
  by_cases hact : m.isActive = true
  · rw [if_pos hact]
    exact ⟨m, h.monster, hact⟩
  · rw [if_neg hact]
    have hid : m.id = mid := getMonster_id h.monster
    have hget := getMonster_setMonster (w := w) (m := { m with isActive := true }) (n := m)
      (by rw [hid]; exact h.monster) mid
    exact ⟨_, hget.trans (if_pos hid.symm), rfl⟩

/-- A monster that was woken gets its event. -/
theorem woken_actWake {pc : WakePc} (h : Woken w mid (.waking new pc)) :
    Woken (actWake env new w pc).1 mid (.waking new (actWake env new w pc).2) := by
  rcases h with hawake | ⟨hactive, new', rest, hf⟩
  · exact .inl (awake_actWake env new pc hawake)
  · obtain ⟨rfl, rfl⟩ := Phase.waking.inj hf
    refine .inl ⟨active_actWake env new _ hactive, ?_⟩
    exact ⟨_, List.mem_append_right _ (List.mem_singleton_self _), rfl, rfl⟩

/-- **A step of the loop** after the flag was cleared. -/
theorem cleared_actWake (env : Env) (h : Alive w mid m) {pc : WakePc}
    (hc : Cleared w mid id m (.waking new pc)) :
    ∃ m', Alive (actWake env new w pc).1 mid m' ∧
      Cleared (actWake env new w pc).1 mid id m' (.waking new (actWake env new w pc).2) := by
  obtain ⟨⟨hpos, hcomes⟩, howed, hactive⟩ := hc
  obtain ⟨m', h', hmpos, hchange⟩ := alive_actWake h env new pc
  have hsees : ∀ tile, sees (actWake env new w pc).1 id tile = sees w id tile :=
    fun tile => sees_congr (posOf_actWake env new w id pc)
  -- if the attempt has just succeeded, the monster is woken
  have hwoken : m'.isActive = true → Woken (actWake env new w pc).1 mid
      (.waking new (actWake env new w pc).2) := by
    intro hact
    rcases hchange with rfl | ⟨-, -, rest, hpc, hnext⟩
    · exact woken_actWake (hactive hact)
    · exact .inr ⟨⟨m', h'.monster, hact⟩, new, rest, by rw [hnext]⟩
  refine ⟨m', h', ⟨?_, ?_⟩, ?_, hwoken⟩
  · rw [posOf_actWake]
    exact hpos
  · rw [hmpos]
    exact comes_actWake h hcomes
  · intro hsee
    refine ⟨by simp, fun hpassed => ?_⟩
    rw [hmpos, hsees] at hsee
    have hview : isInView new m.pos = true := by
      rw [sees, hpos, Option.any_some] at hsee
      exact hsee
    rcases passed_actWake h hview hcomes hpassed with hbefore | ⟨rest, rfl⟩
    · exact woken_actWake ((howed hsee).2 hbefore)
    · obtain ⟨m₁, hm₁, hact⟩ := attempt_actWake h
      obtain rfl := Option.some.inj (hm₁.symm.trans h'.monster)
      exact hwoken hact

/-! ## A step of the player's handler -/

/-- A step before and after the loop, while the flag is set. -/
theorem looking_turn (h : Alive w mid m) (hactive : m.isActive = true)
    (hpc : looks pc = true) (hkept : Kept w mid id m.pos f)
    (hstill : f = .still → Registered w id ∧ Finds w id m.pos pc) (ht : Turn mid id w w' f g) :
    Track mid id w' pc g := by
  cases ht with
  | look _ hf same hplayer hstay =>
      refine .looking m (same.alive h) hactive hpc ?_ fun hg => ⟨fun p hp => ?_, ?_⟩
      · rcases hf with rfl | rfl | rfl <;> trivial
      · rw [hplayer] at hp
        exact ⟨((hstill rfl).1 p hp).1, hstay _ ((hstill rfl).1 p hp).2⟩
      · have hfinds := (hstill rfl).2
        have hsees : sees w' id m.pos = sees w id m.pos :=
          sees_congr (posOf_congr hplayer)
        cases pc <;> simp only [Finds, hplayer, hsees] at hfinds ⊢ <;> exact hfinds
  | go _ _ same =>
      exact .looking m (same.alive h) hactive hpc trivial fun hg => absurd hg (by simp)
  | gone hnone hw =>
      subst hw
      exact .looking m h hactive hpc trivial fun hg => absurd hg (by simp)
  | place _ new _ same hpos =>
      exact .looking m (same.alive h) hactive hpc hpos fun hg => absurd hg (by simp)
  | stay new _ hf same hpos =>
      have hnew : posOf id w' = some new := hpos.trans hkept
      rcases hf with rfl | rfl
      · exact .looking m (same.alive h) hactive hpc hnew fun hg => absurd hg (by simp)
      · refine .looking m (same.alive h) hactive hpc ⟨hnew, fun hview => ?_⟩ fun hg =>
          absurd hg (by simp)
        exact .inl (ViewProcessor.getSectorCoord_mem_of_isInView h.inMap hview)
  | wake env new wpc hw =>
      obtain ⟨hpos, hcomes⟩ := hkept
      subst hw
      obtain ⟨m', h', hmpos, hchange⟩ := alive_actWake h env new wpc
      rcases hchange with rfl | ⟨hidle, -⟩
      · refine .looking m' h' hactive hpc ⟨?_, comes_actWake h hcomes⟩ fun hg =>
          absurd hg (by simp)
        rw [posOf_actWake]
        exact hpos
      · exact absurd (hidle.symm.trans hactive) Bool.false_ne_true
  | finish new hw =>
      subst hw
      exact .looking m h hactive hpc trivial fun hg => absurd hg (by simp)
  | rest same hpos =>
      exact .looking m (same.alive h) hactive hpc trivial fun hg => absurd hg (by simp)

/-- And after the flag was cleared. -/
theorem cleared_turn (h : Alive w mid m) (hc : Cleared w mid id m f) (ht : Turn mid id w w' f g) :
    Track mid id w' .done g := by
  have hdone {k : Phase} (hk : ∀ new rest, k ≠ .waking new (.addTimer mid rest))
      (hw : Woken w mid k) : Awake w mid := awake_of_woken hw hk
  cases ht with
  | look _ hf same hplayer hstay =>
      have hpos : posOf id w' = posOf id w := posOf_congr hplayer
      refine .cleared m (same.alive h) ⟨?_, fun hsees => ?_, fun hact => ?_⟩ rfl
      · rcases hf with rfl | rfl | rfl <;> trivial
      · -- a player that has not moved is not in view
        rw [sees_congr hpos] at hsees
        exact absurd rfl (hc.owed hsees).1
      · exact .inl (same.awake (hdone (by simp) (hc.active hact)))
  | go _ hf same =>
      refine .cleared m (same.alive h) ⟨trivial, fun hsees => ⟨by simp, fun hpassed => ?_⟩,
        fun hact => ?_⟩ rfl
      · exact absurd hpassed Bool.false_ne_true
      · refine .inl (same.awake (hdone ?_ (hc.active hact)))
        rcases hf with rfl | rfl <;> simp
  | gone hnone hw =>
      subst hw
      refine .cleared m h ⟨trivial, fun hsees => ?_, fun hact => ?_⟩ rfl
      · obtain ⟨p, hp, -⟩ := sees_eq_true.mp hsees
        exact absurd (hnone.symm.trans hp) (by simp)
      · exact .inl (hdone (by simp) (hc.active hact))
  | place _ new hf same hpos =>
      refine .cleared m (same.alive h) ⟨hpos, fun hsees => ⟨by simp, fun hpassed => ?_⟩,
        fun hact => ?_⟩ rfl
      · exact absurd hpassed Bool.false_ne_true
      · refine .inl (same.awake (hdone ?_ (hc.active hact)))
        rcases hf with rfl | rfl <;> simp
  | stay new _ hf same hpos =>
      have hnew : posOf id w' = some new := hpos.trans hc.kept
      have hawake : m.isActive = true → Awake w' mid := fun hact =>
        same.awake (hdone (by simp) (hc.active hact))
      rcases hf with rfl | rfl
      · refine .cleared m (same.alive h) ⟨hnew, fun hsees => ⟨by simp, fun hpassed => ?_⟩,
          fun hact => .inl (hawake hact)⟩ rfl
        exact absurd hpassed Bool.false_ne_true
      · refine .cleared m (same.alive h) ⟨⟨hnew, fun hview => ?_⟩,
          fun hsees => ⟨by simp, fun hpassed => ?_⟩, fun hact => .inl (hawake hact)⟩ rfl
        · exact .inl (ViewProcessor.getSectorCoord_mem_of_isInView h.inMap hview)
        · exact absurd hpassed Bool.false_ne_true
  | wake env new wpc hw =>
      subst hw
      obtain ⟨m', h', hc'⟩ := cleared_actWake env h hc
      exact .cleared m' h' hc' rfl
  | finish new hw =>
      subst hw
      refine .cleared m h ⟨trivial, fun hsees => ⟨by simp, fun _ => ?_⟩, fun hact => ?_⟩ rfl
      · exact .inl (hdone (by simp) ((hc.owed hsees).2 rfl))
      · exact .inl (hdone (by simp) (hc.active hact))
  | rest same hpos =>
      refine .cleared m (same.alive h) ⟨trivial, fun hsees => ⟨by simp, fun _ => ?_⟩,
        fun hact => ?_⟩ rfl
      · rw [sees_congr hpos] at hsees
        exact .inl (same.awake (hdone (by simp) ((hc.owed hsees).2 rfl)))
      · exact .inl (same.awake (hdone (by simp) (hc.active hact)))

/-- What a step does to a monster that is none of its business. -/
theorem Turn.monster (ht : Turn mid id w w' f g) :
    w'.getMonster mid = w.getMonster mid ∨ ∃ m, w.getMonster mid = some m ∧
      w'.getMonster mid = some { m with isActive := true } := by
  cases ht with
  | look _ _ same _ _ => exact .inl same.monster
  | go _ _ same => exact .inl same.monster
  | gone _ hw => exact .inl (by rw [hw])
  | place _ _ _ same _ => exact .inl same.monster
  | stay _ _ _ same _ => exact .inl same.monster
  | wake env new wpc hw =>
      subst hw
      rcases monster_actWake env new w wpc with hsame | ⟨m, -, -, hm, -, -, hget⟩
      · exact .inl hsame
      · exact .inr ⟨m, hm, hget⟩
  | finish _ hw => exact .inl (by rw [hw])
  | rest same _ => exact .inl same.monster

theorem Turn.awake (ht : Turn mid id w w' f g) (h : Awake w mid) : Awake w' mid := by
  cases ht with
  | look _ _ same _ _ => exact same.awake h
  | go _ _ same => exact same.awake h
  | gone _ hw => exact hw ▸ h
  | place _ _ _ same _ => exact same.awake h
  | stay _ _ _ same _ => exact same.awake h
  | wake env new wpc hw => exact hw ▸ awake_actWake env new wpc h
  | finish _ hw => exact hw ▸ h
  | rest same _ => exact same.awake h

/-- **A step of the player's handler.** -/
theorem track_turn (h : Track mid id w pc f) (ht : Turn mid id w w' f g) :
    Track mid id w' pc g := by
  cases h with
  | dead hdead hpc =>
      refine .dead (fun m hm => ?_) hpc
      rcases ht.monster with hsame | ⟨m₀, hm₀, hget⟩
      · exact hdead m (hsame.symm.trans hm)
      · obtain rfl := Option.some.inj (hget.symm.trans hm)
        exact hdead m₀ hm₀
  | looking m h hactive hpc hkept hstill => exact looking_turn h hactive hpc hkept hstill ht
  | ticking hactive hpc =>
      refine .ticking ?_ hpc
      obtain ⟨m, hm, hact⟩ := hactive
      rcases ht.monster with hsame | ⟨m₀, -, hget⟩
      · exact ⟨m, hsame.trans hm, hact⟩
      · exact ⟨_, hget, rfl⟩
  | ticked h hpc => exact .ticked (ht.awake h) hpc
  | cleared m h hc hpc =>
      subst hpc
      exact cleared_turn h hc ht

/-! ## Whole runs -/

/-- The two threads, somewhere in their handlers. -/
def Tracked (mid id : ObjectID) (c : Config World Party) : Prop :=
  ∃ env pc t, c.threads = [.ai env pc, t] ∧ isVisitor t = true ∧
    Track mid id c.shared pc (phase t)

theorem tracked_step (hne : mid ≠ id) (hid : isPlayerId id = true) (c : Config World Party) (i : ℕ)
    (h : Tracked mid id c) (hok : InTime mid id c i) : Tracked mid id (step (act mid id) c i) := by
  obtain ⟨env, pc, t, hc, hvisitor, htrack⟩ := h
  match i with
  | 0 =>
      have hi : c.threads[0]? = some (.ai env pc) := by rw [hc]; rfl
      refine ⟨env, (actAi env mid c.shared pc).2, t, ?_, hvisitor, ?_⟩
      · rw [step_some hi, hc]
        rfl
      · rw [shared_step hi]
        refine track_ai hid htrack ?_
        rintro rfl m hm hsees
        rw [InTime, hi] at hok
        exact hok m hm hsees t (by rw [hc]; simp) hvisitor
  | 1 =>
      have hi : c.threads[1]? = some t := by rw [hc]; rfl
      obtain ⟨hturn, hvisitor'⟩ := turn_act hne c.shared hvisitor
      refine ⟨env, pc, (act mid id c.shared t).2, ?_, hvisitor', ?_⟩
      · rw [step_some hi, hc]
        rfl
      · rw [shared_step hi]
        exact track_turn htrack hturn
  | i + 2 =>
      have hi : c.threads[i + 2]? = none := by rw [hc]; rfl
      rw [step_none hi]
      exact ⟨env, pc, t, hc, hvisitor, htrack⟩

theorem tracked_begin (h : Ready w mid id) (env : Env) (visit : Visit) :
    Tracked mid id (begin w env visit) := by
  have hstill : phase (visit.party w.map) = .still := by cases visit <;> rfl
  have hvisitor : isVisitor (visit.party w.map) = true := by cases visit <;> rfl
  refine ⟨env, .isDead, visit.party w.map, rfl, hvisitor, ?_⟩
  rw [hstill]
  by_cases hdead : ∀ m, w.getMonster mid = some m → m.isDead = true
  · exact .dead hdead (.inl rfl)
  · obtain ⟨m, hm⟩ := not_forall.mp hdead
    obtain ⟨hm, halive⟩ := Classical.not_imp.mp hm
    have halive : m.isDead = false := by simpa using halive
    obtain ⟨hactive, hin, hsector⟩ := h.monster m hm halive
    exact .looking m ⟨hm, halive, hin, hsector⟩ hactive rfl trivial fun _ =>
      ⟨fun p hp => h.player p hp, trivial⟩

theorem over_of_finished {t : Party} (h : Finished t = true) : phase t = .over := by
  cases t with
  | ai env pc => rfl
  | move env session data pc =>
      obtain rfl : pc = .done := of_decide_eq_true h
      rfl
  | teleport env session pc =>
      obtain rfl : pc = .done := of_decide_eq_true h
      rfl
  | enter env session row pc =>
      obtain rfl : pc = .done := of_decide_eq_true h
      rfl

/-- **No activation is lost** when the flag is cleared in time: for every interleaving of
the `MONSTER_AI` handler of a monster and a move, a teleport or a login of a player. -/
theorem noticed_run {visit : Visit} {is : List ℕ} (h : Ready w mid id)
    (hok : Along (step (act mid id)) (InTime mid id) (begin w env visit) is)
    (hend : ∀ t ∈ (run (step (act mid id)) (begin w env visit) is).threads, Finished t = true) :
    Noticed (run (step (act mid id)) (begin w env visit) is).shared mid id := by
  intro m hm halive hsees
  have hne : mid ≠ id := by
    rintro rfl
    have hlt : mid < monsterIdOffset := of_decide_eq_true h.isPlayer
    exact absurd (monsterIdOffset_le_of_getMonster hm) (Nat.not_le.mpr hlt)
  obtain ⟨env', pc, t, hc, hvisitor, htrack⟩ :=
    invariant (tracked_step hne h.isPlayer) (tracked_begin h env visit) hok
  have hpc : pc = .done := of_decide_eq_true (hend (.ai env' pc) (by rw [hc]; simp))
  have hover : phase t = .over := over_of_finished (hend t (by rw [hc]; simp))
  rw [hover] at htrack
  cases htrack with
  | dead hdead _ => exact absurd (halive.symm.trans (hdead m hm)) Bool.false_ne_true
  | looking _ _ _ hlooks => exact absurd (hpc ▸ hlooks) (by simp [looks])
  | ticking _ hpc' => rcases hpc' with rfl | rfl <;> exact absurd hpc (by simp)
  | ticked h _ => exact h
  | cleared m' h' hcleared _ =>
      obtain rfl := Option.some.inj (h'.monster.symm.trans hm)
      exact awake_of_woken ((hcleared.owed hsees).2 rfl) (by simp)

/-- A monster, and a character that has come into its view and gone out of it again; the
monster's event is due. -/
def lookout : World :=
  let w := (GameWorld.init Server.openField [⟨[84], 1, 100, .peace, .fixed, ⟨20, 5⟩⟩] 1000).world
  let w := (w.addPlayer 0 0 ⟨1, [65], 1, 0, 100, 100, 10, 5⟩).getD w
  let w := w.activateNearbyMonsters .plain ⟨10, 5⟩
  let w := w.processMove .plain 0 0 [13, 0, 0, 0, 2]
  { w with timers := [], now := 3000 }

theorem ready_lookout : Ready lookout monsterIdOffset 0 where
  isPlayer := by decide
  monster := by decide +kernel
  player := by decide +kernel

/-- One step back towards the monster. -/
def approach : Visit := .move .plain 0 [13, 0, 0, 0, 3]

/-- The character comes back before the monster looks for it. -/
theorem noticed_run_backInTime :
    Noticed (run (step (act monsterIdOffset 0)) (begin lookout .plain approach)
      (List.replicate 22 1 ++ List.replicate 15 0)).shared monsterIdOffset 0 :=
  noticed_run ready_lookout (by decide +kernel) (by decide +kernel)

/-- The character comes back after the monster has looked for it, and before its flag is
cleared. -/
def lostWake : List ℕ := List.replicate 13 0 ++ List.replicate 22 1 ++ [0]

theorem lostWake_end :
    let c := run (step (act monsterIdOffset 0)) (begin lookout .plain approach) lostWake
    (∀ t ∈ c.threads, Finished t = true) ∧
      ((c.shared.getMonster monsterIdOffset).any fun m => !m.isDead && sees c.shared 0 m.pos) =
        true ∧ c.shared.timers = [] := by
  decide +kernel

/-- A monster sleeps in view of a player. -/
theorem not_always_noticed :
    ¬ ∀ (w : World) (mid id : ObjectID) (env : Env) (visit : Visit) (is : List ℕ),
      Ready w mid id →
        (∀ t ∈ (run (step (act mid id)) (begin w env visit) is).threads, Finished t = true) →
        Noticed (run (step (act mid id)) (begin w env visit) is).shared mid id := by
  intro hall
  obtain ⟨hend, hmonster, htimers⟩ := lostWake_end
  obtain ⟨m, hm, hview⟩ := (Option.any_eq_true _ _).mp hmonster
  obtain ⟨halive, hsees⟩ := Bool.and_eq_true_iff.mp hview
  obtain ⟨-, ev, hev, -⟩ := hall lookout monsterIdOffset 0 .plain approach lostWake ready_lookout
    hend m hm (by simpa using halive) hsees
  rw [htimers] at hev
  exact absurd hev List.not_mem_nil

end Mmorpg.Party
