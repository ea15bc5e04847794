/-
The life of a monster: what it holds, and what is scheduled for it.

A monster is asleep, awake or dead. Asleep it stands on its tile and nothing is
scheduled; awake it has one `MONSTER_AI` event; dead it holds nothing and has
one `MONSTER_RESPAWN` event, and perhaps the `MONSTER_AI` event it died with.
That event is due first, because an AI event is never scheduled further ahead
than `MONSTER_AI_TICK_MS`, and a respawn is `MONSTER_RESPAWN_MS` away. So a
respawn that is handled in its turn finds no AI event left.

`Tended` is the invariant. Two parameters say where it may lag behind while a
handler is at work: `held` is the timer event that was taken from the queue
and is not handled to its end, `skip` a player for whom no monster was woken
yet. Nothing is asked of the players but ids and positions, so a login over
another player on the same session does no harm.
-/
import SimplestMmorpg.Game.Tidy

set_option autoImplicit false

namespace Mmorpg

/-- What the life cycle reads of a monster. -/
structure Monster.Life where
  body : Monster.Body
  isActive : Bool

def Monster.life (m : Monster) : Monster.Life := ⟨m.body, m.isActive⟩

namespace Monster

variable {m m' : Monster}

theorem id_of_life (h : m'.life = m.life) : m'.id = m.id :=
  congrArg (fun l : Monster.Life => l.body.spec.id) h

theorem pos_of_life (h : m'.life = m.life) : m'.pos = m.pos :=
  congrArg (fun l : Monster.Life => l.body.pos) h

theorem isDead_of_life (h : m'.life = m.life) : m'.isDead = m.isDead :=
  congrArg (fun l : Monster.Life => l.body.isDead) h

theorem isActive_of_life (h : m'.life = m.life) : m'.isActive = m.isActive :=
  congrArg Monster.Life.isActive h

theorem maxHp_of_life (h : m'.life = m.life) : m'.maxHp = m.maxHp :=
  congrArg (fun l : Monster.Life => l.body.spec.maxHp) h

end Monster

namespace World

open ViewProcessor

/-- The events of one monster. -/
def eventsOf (id : ObjectID) (evs : List TimerEvent) : List TimerEvent :=
  evs.filter fun ev => ev.targetId = id ∧ (ev.type = .monsterAi ∨ ev.type = .monsterRespawn)

/-- Where a monster is in its life, with its events. -/
inductive Stage (w : World) (m : Monster) (evs : List TimerEvent) : Prop
  | asleep (halive : m.isDead = false) (hactive : m.isActive = false)
      (hat : (w.sectorManager.holding m.id).At (some m.pos)) (hevs : evs = [])
  | awake (tick : TimerEvent) (halive : m.isDead = false) (hactive : m.isActive = true)
      (hat : (w.sectorManager.holding m.id).At (some m.pos)) (htick : tick.type = .monsterAi)
      (hdue : tick.fireTime ≤ w.now + monsterAiTickMs) (hevs : evs = [tick])
  | dead (back : TimerEvent) (hdead : m.isDead = true)
      (hat : (w.sectorManager.holding m.id).At none) (hback : back.type = .monsterRespawn)
      (hevs : evs = [back])
  | dying (tick back : TimerEvent) (hdead : m.isDead = true)
      (hat : (w.sectorManager.holding m.id).At none) (htick : tick.type = .monsterAi)
      (hback : back.type = .monsterRespawn) (hfirst : tick.fireTime < back.fireTime)
      (hevs : evs.Perm [tick, back])

/-- A player that is in the sector of its position. -/
def Watches (w : World) (k : ObjectID) (pos : Position) : Prop :=
  w.playerPos k = some pos ∧ zoneOf pos ∈ (w.sectorManager.holding k).zones

/-- What is asked of one monster. -/
structure Kept (held : List TimerEvent) (skip : Option ObjectID) (w : World) (id : ObjectID)
    (m : Monster) : Prop where
  valid : id ≠ invalidId
  maxHp : 0 < m.maxHp
  stage : Stage w m (eventsOf id (held ++ w.timers))
  noticed : m.isDead = false → ∀ k pos, some k ≠ skip → w.Watches k pos →
    isInView pos m.pos = true → m.isActive = true

/-- **The life cycle invariant.** -/
structure Tended (held : List TimerEvent) (skip : Option ObjectID) (w : World) : Prop where
  player : ∀ k pos, w.playerPos k = some pos → k < maxPlayers ∧ InMap pos
  monster : ∀ id m, w.getMonster id = some m → Kept held skip w id m

/-- Nothing changes but what concerns one object. -/
structure Only (x : Option ObjectID) (w w' : World) : Prop where
  now : w.now ≤ w'.now
  holding : ∀ j, some j ≠ x → j ≠ invalidId →
    w'.sectorManager.holding j = w.sectorManager.holding j
  players : ∀ j, some j ≠ x → w'.playerPos j = w.playerPos j
  monsters : ∀ j, some j ≠ x →
    (w'.getMonster j).map Monster.life = (w.getMonster j).map Monster.life
  events : ∀ j, some j ≠ x → eventsOf j w'.timers = eventsOf j w.timers

variable {env : Env} {w w' w'' : World} {held held' : List TimerEvent}
  {skip skip' x : Option ObjectID} {id k : ObjectID} {p q : Player} {m m' : Monster} {pos : Position}
  {sm : SectorManager} {evs evs' : List TimerEvent} {type : TimerType}

/-! ## Events -/

theorem eventsOf_append (id : ObjectID) (evs evs' : List TimerEvent) :
    eventsOf id (evs ++ evs') = eventsOf id evs ++ eventsOf id evs' :=
  List.filter_append evs evs'

theorem eventsOf_perm (h : evs.Perm evs') (id : ObjectID) :
    (eventsOf id evs).Perm (eventsOf id evs') :=
  h.filter _

/-- An event of somebody else does not count. -/
theorem eventsOf_other (h : type = .monsterAi → k ≠ id) (h' : type = .monsterRespawn → k ≠ id)
    (time : ℕ) (owner : Option ℕ) : eventsOf id [⟨time, type, k, owner⟩] = [] := by
  apply List.filter_eq_nil_iff.mpr
  intro ev hev
  rw [List.mem_singleton.mp hev, decide_eq_true_eq]
  rintro ⟨hid, htype | htype⟩
  · exact h htype hid
  · exact h' htype hid

theorem eventsOf_own {ev : TimerEvent} (hid : ev.targetId = id)
    (htype : ev.type = .monsterAi ∨ ev.type = .monsterRespawn) : eventsOf id [ev] = [ev] := by
  apply List.filter_eq_self.mpr
  intro e he
  rw [List.mem_singleton.mp he]
  exact decide_eq_true ⟨hid, htype⟩

/-- An event that is scheduled comes last. -/
theorem eventsOf_schedule (type : TimerType) (held : List TimerEvent) (w : World) (id : ObjectID)
    (delayMs : ℕ) (htype : type = .monsterAi ∨ type = .monsterRespawn) :
    eventsOf id (held ++ (w.addTimer type id delayMs none).timers) =
      eventsOf id (held ++ w.timers) ++ [⟨w.now + delayMs, type, id, none⟩] := by
  have hown : eventsOf id [⟨w.now + delayMs, type, id, none⟩] = _ := eventsOf_own rfl htype
  rw [addTimer, ← List.append_assoc, eventsOf_append, hown]

/-! ## The stage of a monster -/

namespace Stage

/-- The stage is the same when nothing of the monster changed. -/
theorem congr (h : Stage w m evs) (hlife : m'.life = m.life)
    (hhold : w'.sectorManager.holding m.id = w.sectorManager.holding m.id)
    (hnow : w.now ≤ w'.now) (hevs : evs'.Perm evs) : Stage w' m' evs' := by
  have hid := Monster.id_of_life hlife
  have hpos := Monster.pos_of_life hlife
  have hdead := Monster.isDead_of_life hlife
  have hactive := Monster.isActive_of_life hlife
  cases h with
  | asleep h₁ h₂ hat hnil =>
      subst hnil
      refine .asleep (hdead.trans h₁) (hactive.trans h₂) ?_ (List.perm_nil.mp hevs)
      rw [hid, hpos, hhold]
      exact hat
  | awake tick h₁ h₂ hat htick hdue hone =>
      subst hone
      refine .awake tick (hdead.trans h₁) (hactive.trans h₂) ?_ htick (by omega)
        (List.perm_singleton.mp hevs)
      rw [hid, hpos, hhold]
      exact hat
  | dead back h₁ hat hback hone =>
      subst hone
      refine .dead back (hdead.trans h₁) ?_ hback (List.perm_singleton.mp hevs)
      rw [hid, hhold]
      exact hat
  | dying tick back h₁ hat htick hback hfirst htwo =>
      refine .dying tick back (hdead.trans h₁) ?_ htick hback hfirst (hevs.trans htwo)
      rw [hid, hhold]
      exact hat

/-- A live monster stands on its tile. -/
theorem at_of_alive (h : Stage w m evs) (halive : m.isDead = false) :
    (w.sectorManager.holding m.id).At (some m.pos) := by
  cases h with
  | asleep _ _ hat _ => exact hat
  | awake _ _ _ hat _ _ _ => exact hat
  | dead _ hdead _ _ _ => exact absurd (halive.symm.trans hdead) (by simp)
  | dying _ _ hdead _ _ _ _ _ => exact absurd (halive.symm.trans hdead) (by simp)

/-- A monster that dies: its respawn is due after the tick it may have. -/
theorem kill (h : Stage w m evs) (halive : m.isDead = false) {back : TimerEvent}
    (hback : back.type = .monsterRespawn) (hlate : w.now + monsterAiTickMs < back.fireTime)
    (hdead : m'.isDead = true) (hat : (w'.sectorManager.holding m'.id).At none) :
    Stage w' m' (evs ++ [back]) := by
  cases h with
  | asleep _ _ _ hnil =>
      rw [hnil]
      exact .dead back hdead hat hback rfl
  | awake tick _ _ _ htick hdue hone =>
      rw [hone]
      exact .dying tick back hdead hat htick hback (Nat.lt_of_le_of_lt hdue hlate) (.refl _)
  | dead _ h₁ => exact absurd (halive.symm.trans h₁) (by simp)
  | dying _ _ h₁ => exact absurd (halive.symm.trans h₁) (by simp)

end Stage

/-! ## What changes one object -/

namespace Only

theorem refl (x : Option ObjectID) (w : World) : Only x w w :=
  ⟨Nat.le_refl _, fun _ _ _ => rfl, fun _ _ => rfl, fun _ _ => rfl, fun _ _ => rfl⟩

theorem trans (h : Only x w w') (h' : Only x w' w'') : Only x w w'' where
  now := h.now.trans h'.now
  holding j hj hv := (h'.holding j hj hv).trans (h.holding j hj hv)
  players j hj := (h'.players j hj).trans (h.players j hj)
  monsters j hj := (h'.monsters j hj).trans (h.monsters j hj)
  events j hj := (h'.events j hj).trans (h.events j hj)

/-- What changes nobody does not change anybody else. -/
theorem of_none (h : Only none w w') (x : Option ObjectID) : Only x w w' where
  now := h.now
  holding j _ hv := h.holding j (by simp) hv
  players j _ := h.players j (by simp)
  monsters j _ := h.monsters j (by simp)
  events j _ := h.events j (by simp)

theorem getMonster (h : Only x w w') (hid : some id ≠ x) (hm : w'.getMonster id = some m') :
    ∃ m, w.getMonster id = some m ∧ m'.life = m.life := by
  have hlife := h.monsters id hid
  rw [hm] at hlife
  obtain ⟨m, hm, hl⟩ := Option.map_eq_some_iff.mp hlife.symm
  exact ⟨m, hm, hl.symm⟩

theorem watches (h : Only x w w') (hk : some k ≠ x) (hv : k ≠ invalidId)
    (hw : w'.Watches k pos) : w.Watches k pos :=
  ⟨(h.players k hk).symm.trans hw.1, h.holding k hk hv ▸ hw.2⟩

end Only

theorem only_sendAll (w : World) (pkts : List (ConnId × ScPacket)) :
    Only none w (w.sendAll pkts) :=
  ⟨Nat.le_refl _, fun _ _ _ => rfl, fun _ _ => rfl, fun _ _ => rfl, fun _ _ => rfl⟩

theorem only_send (w : World) (conn : ConnId) (pkt : ScPacket) : Only none w (w.send conn pkt) :=
  only_sendAll w [(conn, pkt)]

/-- A player is written where it is. -/
theorem only_setPlayer (hp : w.getPlayer q.id = some p) (hpos : q.pos = p.pos) :
    Only none w (w.setPlayer q) where
  now := Nat.le_refl _
  holding _ _ _ := rfl
  players j _ := by
    rw [playerPos_setPlayer]
    split
    · next hj => rw [hj, playerPos_of_getPlayer hp, hpos]
    · rfl
  monsters _ _ := rfl
  events _ _ := rfl

/-- A monster is written with the same life. -/
theorem only_setMonster (hm : w.getMonster m.id = some m') (hlife : m.life = m'.life) :
    Only none w (w.setMonster m) where
  now := Nat.le_refl _
  holding _ _ _ := rfl
  players _ _ := rfl
  monsters j _ := by
    rw [getMonster_setMonster hm]
    split
    · next hj => rw [hj, hm, Option.map_some, Option.map_some, hlife]
    · rfl
  events _ _ := rfl

/-- A timer that is no monster's. -/
theorem only_addTimer (hai : type ≠ .monsterAi) (hrespawn : type ≠ .monsterRespawn) (w : World)
    (id : ObjectID) (delayMs : ℕ) (owner : Option ℕ) :
    Only none w (w.addTimer type id delayMs owner) where
  now := Nat.le_refl _
  holding _ _ _ := rfl
  players _ _ := rfl
  monsters _ _ := rfl
  events j _ := by
    rw [addTimer, eventsOf_append, eventsOf_other (fun h => absurd h hai)
      (fun h => absurd h hrespawn), List.append_nil]

/-- The tiles and sectors of one object. -/
theorem only_sectors (w : World) (id : ObjectID) (sm : SectorManager)
    (hothers : ∀ j, j ≠ id → j ≠ invalidId → sm.holding j = w.sectorManager.holding j) :
    Only (some id) w { w with sectorManager := sm } where
  now := Nat.le_refl _
  holding j hj hv := hothers j (fun h => hj (congrArg some h)) hv
  players _ _ := rfl
  monsters _ _ := rfl
  events _ _ := rfl

theorem only_writePlayer (w : World) (q : Player) : Only (some q.id) w (w.setPlayer q) where
  now := Nat.le_refl _
  holding _ _ _ := rfl
  players j hj := by rw [playerPos_setPlayer, if_neg fun h => hj (congrArg some h)]
  monsters _ _ := rfl
  events _ _ := rfl

theorem only_removePlayer (w : World) (id : ObjectID) : Only (some id) w (w.removePlayer id) where
  now := Nat.le_refl _
  holding _ _ _ := rfl
  players j hj := by
    rw [playerPos, getPlayer_removePlayer, if_neg fun h => hj (congrArg some h), playerPos]
  monsters _ _ := rfl
  events _ _ := rfl

theorem only_writeMonster (hid : m.id = id) (hm : w.getMonster id = some m') :
    Only (some id) w (w.setMonster m) where
  now := Nat.le_refl _
  holding _ _ _ := rfl
  players _ _ := rfl
  monsters j hj := by
    subst hid
    rw [getMonster_setMonster hm, if_neg fun h => hj (congrArg some h)]
  events _ _ := rfl

theorem getMonster_write (hid : m.id = id) (hm : w.getMonster id = some m') :
    (w.setMonster m).getMonster id = some m := by
  subst hid
  rw [getMonster_setMonster hm, if_pos rfl]

theorem only_schedule (w : World) (type : TimerType) (id : ObjectID) (delayMs : ℕ) :
    Only (some id) w (w.addTimer type id delayMs none) where
  now := Nat.le_refl _
  holding _ _ _ := rfl
  players _ _ := rfl
  monsters _ _ := rfl
  events j hj := by
    have hne : id ≠ j := fun h => hj (congrArg some h.symm)
    rw [addTimer, eventsOf_append, eventsOf_other (fun _ => hne) (fun _ => hne), List.append_nil]

/-! ## The invariant after a change -/

namespace Tended

/-- **A change of one object.** What is asked of that object is shown of it; the
others are as they were. -/
theorem update (h : Tended held skip w) (ho : Only x w w')
    (hheld : ∀ j, some j ≠ x → eventsOf j held' = eventsOf j held)
    (hplayer : ∀ j pos, some j = x → w'.playerPos j = some pos → j < maxPlayers ∧ InMap pos)
    (hmonster : ∀ j m, some j = x → w'.getMonster j = some m → Kept held' skip' w' j m)
    (hskip : ∀ j pos, some j ≠ skip' → w'.Watches j pos → some j ≠ skip ∧ some j ≠ x) :
    Tended held' skip' w' := by
  have hplayers : ∀ j pos, w'.playerPos j = some pos → j < maxPlayers ∧ InMap pos := by
    intro j pos hj
    by_cases hjx : some j = x
    · exact hplayer j pos hjx hj
    · exact h.player j pos ((ho.players j hjx).symm.trans hj)
  refine ⟨hplayers, fun j m' hm' => ?_⟩
  by_cases hjx : some j = x
  · exact hmonster j m' hjx hm'
  · obtain ⟨m, hm, hlife⟩ := ho.getMonster hjx hm'
    have hkept := h.monster j m hm
    refine ⟨hkept.valid, ?_, ?_, fun halive k pos hk hw hview => ?_⟩
    · rw [Monster.maxHp_of_life hlife]
      exact hkept.maxHp
    · refine hkept.stage.congr hlife ?_ ho.now ?_
      · rw [getMonster_id hm]
        exact ho.holding j hjx hkept.valid
      · rw [eventsOf_append, eventsOf_append, ho.events j hjx, hheld j hjx]
    · obtain ⟨hold, hkx⟩ := hskip k pos hk hw
      have hvalid := ne_invalid_of_lt (lt_offset_of_lt (hplayers k pos hw.1).1)
      rw [Monster.pos_of_life hlife] at hview
      rw [Monster.isDead_of_life hlife] at halive
      rw [Monster.isActive_of_life hlife]
      exact hkept.noticed halive k pos hold (ho.watches hkx hvalid hw) hview

/-- A change of nobody. -/
theorem only (h : Tended held skip w) (ho : Only none w w') : Tended held skip w' :=
  h.update ho (fun _ _ => rfl) (fun _ _ hj => absurd hj (by simp))
    (fun _ _ hj => absurd hj (by simp)) (fun _ _ hj _ => ⟨hj, by simp⟩)

theorem not_player (h : Tended held skip w) (hid : monsterIdOffset ≤ id) :
    w.playerPos id = none := by
  by_contra hne
  obtain ⟨pos, hpos⟩ := Option.ne_none_iff_exists'.mp hne
  exact absurd (lt_offset_of_lt (h.player id pos hpos).1) (Nat.not_lt.mpr hid)

theorem not_monster (h : w.getMonster k = some m) : ¬ k < maxPlayers := fun hk =>
  absurd (lt_offset_of_lt hk) (Nat.not_lt.mpr (monsterIdOffset_le_of_getMonster h))

/-- A change of a player: nobody was woken for it yet. -/
theorem placePlayer (h : Tended held none w) (ho : Only (some k) w w') (hk : k < maxPlayers)
    (hin : ∀ pos, w'.playerPos k = some pos → InMap pos) (hmonsters : w'.monsters = w.monsters) :
    Tended held (some k) w' := by
  refine h.update ho (fun _ _ => rfl) ?_ ?_ fun j pos hj hw => ⟨by simp, hj⟩
  · rintro j pos hj hpos
    obtain rfl := Option.some.inj hj
    exact ⟨hk, hin pos hpos⟩
  · rintro j m hj hm
    obtain rfl := Option.some.inj hj
    have hm' : w.getMonster j = some m := by
      rw [World.getMonster, ← hmonsters]
      exact hm
    exact absurd hk (not_monster hm')

/-- A player that watches nothing need not be waited for. -/
theorem unskip (h : Tended held (some k) w) (hk : ∀ pos, ¬ w.Watches k pos) :
    Tended held none w := by
  refine h.update (.refl none w) (fun _ _ => rfl) (fun _ _ hj => absurd hj (by simp))
    (fun _ _ hj => absurd hj (by simp)) fun j pos _ hw => ⟨?_, by simp⟩
  intro hjk
  exact hk pos (Option.some.inj hjk ▸ hw)

/-- A change of a monster. -/
theorem change (h : Tended held skip w) (ho : Only (some id) w w')
    (hm' : w'.getMonster id = some m') (hheld : ∀ j, j ≠ id → eventsOf j held' = eventsOf j held)
    (hkept : Kept held' skip w' id m') (hplayer : w'.playerPos id = none) :
    Tended held' skip w' := by
  refine h.update ho (fun j hj => hheld j fun hji => hj (congrArg some hji)) ?_ ?_ ?_
  · rintro j pos hj hpos
    obtain rfl := Option.some.inj hj
    exact absurd (hplayer.symm.trans hpos) (by simp)
  · rintro j m hj hm
    obtain rfl := Option.some.inj hj
    rw [← Option.some.inj (hm'.symm.trans hm)]
    exact hkept
  · rintro j pos hj hw
    refine ⟨hj, fun hji => ?_⟩
    obtain rfl := Option.some.inj hji
    exact absurd (hplayer.symm.trans hw.1) (by simp)

/-- A live monster is on the map. -/
theorem inMap (h : Tended held skip w) (hm : w.getMonster id = some m)
    (halive : m.isDead = false) : InMap m.pos := by
  have hkept := h.monster id m hm
  have hat := hkept.stage.at_of_alive halive
  have htile := (hat.tiles m.pos).mpr rfl
  rw [getMonster_id hm] at htile
  exact SectorManager.inMap_of_getOccupant hkept.valid htile

end Tended

/-! ## Waking -/

/-- A live monster in view of the tile is awake. -/
def Woken (pos : Position) (w : World) (id : ObjectID) : Prop :=
  ∀ m, w.getMonster id = some m → m.isDead = false → isInView pos m.pos = true → m.isActive = true

/-- A monster that is active, and whose event has just been scheduled. -/
theorem Kept.schedule (hid : m.id = id) (hvalid : id ≠ invalidId) (hmaxHp : 0 < m.maxHp)
    (halive : m.isDead = false) (hactive : m.isActive = true)
    (hat : (w.sectorManager.holding id).At (some m.pos))
    (hnone : eventsOf id (held ++ w.timers) = []) :
    Kept held skip (w.addTimer .monsterAi id monsterAiTickMs none) id m where
  valid := hvalid
  maxHp := hmaxHp
  stage := by
    refine .awake ⟨w.now + monsterAiTickMs, .monsterAi, id, none⟩ halive hactive ?_ rfl
      (Nat.le_refl _) ?_
    · rw [hid]
      exact hat
    · rw [eventsOf_schedule _ held w id _ (.inl rfl), hnone, List.nil_append]
  noticed _ _ _ _ _ _ := hactive

/-- One step of the loop: a monster is woken, or there was none to wake. -/
theorem activateMonster_cases (pos : Position) (w : World) (id : ObjectID) :
    (activateMonster pos w id = w ∧ Woken pos w id) ∨
      ∃ m, w.getMonster id = some m ∧ m.isDead = false ∧ m.isActive = false ∧
        activateMonster pos w id = (w.setMonster { m with isActive := true }).addTimer .monsterAi id
          monsterAiTickMs none := by
  unfold activateMonster
  cases hm : w.getMonster id with
  | none => exact .inl ⟨rfl, fun m h => absurd (hm.symm.trans h) (by simp)⟩
  | some monster =>
      dsimp only
      by_cases hdead : monster.isDead = true
      · refine .inl ⟨if_pos hdead, fun m h halive => ?_⟩
        rw [Option.some.inj (hm.symm.trans h), halive] at hdead
        exact absurd hdead (by simp)
      · rw [if_neg hdead]
        by_cases hview : isInView pos monster.pos = true
        · rw [if_neg (not_not.mpr hview)]
          by_cases hactive : monster.isActive = true
          · refine .inl ⟨by rw [Monster.tryActivate, if_pos hactive], fun m h _ _ => ?_⟩
            rw [← Option.some.inj (hm.symm.trans h)]
            exact hactive
          · refine .inr ⟨monster, rfl, by simpa using hdead, by simpa using hactive, ?_⟩
            rw [Monster.tryActivate, if_neg hactive]
        · refine .inl ⟨if_pos hview, fun m h _ hin => ?_⟩
          rw [← Option.some.inj (hm.symm.trans h)] at hin
          exact absurd hin hview

theorem getMonster_wake (hm : w.getMonster id = some m) (j : ObjectID) :
    ((w.setMonster { m with isActive := true }).addTimer type id monsterAiTickMs
        none).getMonster j =
      if j = id then some { m with isActive := true } else w.getMonster j := by
  obtain rfl := getMonster_id hm
  exact getMonster_setMonster (m := { m with isActive := true }) hm j

theorem Tended.activateMonster (h : Tended held skip w) (pos : Position) (id : ObjectID) :
    Tended held skip (World.activateMonster pos w id) := by
  rcases activateMonster_cases pos w id with ⟨heq, -⟩ | ⟨m, hm, halive, hactive, heq⟩
  · rw [heq]
    exact h
  · rw [heq]
    have hkept := h.monster id m hm
    have hat := hkept.stage.at_of_alive halive
    -- a monster that is alive and not active is asleep, so nothing is scheduled for it
    have hnone : eventsOf id (held ++ w.timers) = [] := by
      cases hkept.stage with
      | asleep _ _ _ hevs => exact hevs
      | awake _ _ h₁ => exact absurd (hactive.symm.trans h₁) (by simp)
      | dead _ h₁ => exact absurd (halive.symm.trans h₁) (by simp)
      | dying _ _ h₁ => exact absurd (halive.symm.trans h₁) (by simp)
    have hid := getMonster_id hm
    rw [hid] at hat
    have hwrite := only_writeMonster (m := { m with isActive := true }) hid hm
    exact h.change (hwrite.trans (only_schedule _ _ _ _)) (getMonster_write hid hm)
      (fun _ _ => rfl) (.schedule hid hkept.valid hkept.maxHp halive rfl hat hnone)
        (h.not_player (monsterIdOffset_le_of_getMonster hm))

theorem woken_activateMonster (pos : Position) (w : World) (id : ObjectID) :
    Woken pos (activateMonster pos w id) id := by
  rcases activateMonster_cases pos w id with ⟨heq, hwoken⟩ | ⟨m, hm, -, -, heq⟩
  · rw [heq]
    exact hwoken
  · rw [heq]
    intro m' hm' _ _
    rw [getMonster_wake hm, if_pos rfl] at hm'
    rw [← Option.some.inj hm']

/-- Who is awake is not put to sleep. -/
theorem Woken.activateMonster {j : ObjectID} {at' : Position} (h : Woken pos w j) (id : ObjectID) :
    Woken pos (World.activateMonster at' w id) j := by
  rcases activateMonster_cases at' w id with ⟨heq, -⟩ | ⟨m, hm, -, -, heq⟩
  · rw [heq]
    exact h
  · rw [heq]
    intro m' hm' halive hview
    rw [getMonster_wake hm] at hm'
    split at hm'
    · rw [← Option.some.inj hm']
    · exact h m' hm' halive hview

/-- **`ActivateNearbyMonsters`** keeps the invariant and wakes whom it finds. -/
theorem Tended.activateMonsters (ids : List ObjectID) (h : Tended held skip w) (pos : Position) :
    Tended held skip (ids.foldl (World.activateMonster pos) w) ∧
      ∀ id, id ∈ ids ∨ Woken pos w id → Woken pos (ids.foldl (World.activateMonster pos) w) id := by
  induction ids generalizing w with
  | nil => exact ⟨h, fun id hid => hid.resolve_left List.not_mem_nil⟩
  | cons i rest ih =>
      obtain ⟨hkept, hwoken⟩ := ih (h.activateMonster pos i)
      refine ⟨hkept, fun id hid => hwoken id ?_⟩
      rcases hid with hid | hid
      · rcases List.mem_cons.mp hid with rfl | hid
        · exact .inr (woken_activateMonster pos w id)
        · exact .inl hid
      · exact .inr (hid.activateMonster i)

/-- **A player that arrives.** Once the monsters around it are woken, no monster
lags behind. -/
theorem Tended.arrive (h : Tended held (some k) w) (hpos : w.playerPos k = some pos) :
    Tended held none (w.activateNearbyMonsters env pos) := by
  obtain ⟨hkept, hwoken⟩ := h.activateMonsters (w.getNearbyObjects env pos) pos
  have hinert := inert_activateNearbyMonsters env pos w
  have hpos' : ∀ j, (w.activateNearbyMonsters env pos).playerPos j = w.playerPos j := by
    intro j
    rw [playerPos, getPlayer_activateNearbyMonsters]
    rfl
  refine ⟨fun j q hj => h.player j q ((hpos' j).symm.trans hj), fun id m hm => ?_⟩
  have hone := hkept.monster id m hm
  refine ⟨hone.valid, hone.maxHp, hone.stage, fun halive j q _ hw hview => ?_⟩
  by_cases hjk : j = k
  · -- the monster is in a sector around the player, so the loop came by
    subst hjk
    obtain rfl : pos = q := Option.some.inj (hpos.symm.trans ((hpos' j).symm.trans hw.1))
    have hat := hone.stage.at_of_alive halive
    have hmap := hkept.inMap hm halive
    have hsector := (hat.zones (zoneOf m.pos)).mpr rfl
    rw [getMonster_id hm, ← activateNearbyMonsters, hinert.sectorManager] at hsector
    have hnear : id ∈ w.getNearbyObjects env pos :=
      (SectorManager.mem_getNearbyObjects env.iter_perm).mpr
        ⟨getSectorCoord m.pos, getSectorCoord_mem_of_isInView hmap hview, hsector⟩
    exact hwoken id (.inl hnear) m hm halive hview
  · exact hone.noticed halive j q (fun hj => hjk (Option.some.inj hj)) hw hview

/-- **`HasObserverNearby`** misses no player that watches. -/
theorem not_isInView_of_no_observer (hplayer : ∀ k pos, w.playerPos k = some pos →
      k < maxPlayers ∧ InMap pos) (hobs : ¬ w.hasObserverNearby env m = true)
    (hw : w.Watches k pos) : isInView pos m.pos = false := by
  by_contra hview
  rw [Bool.not_eq_false] at hview
  obtain ⟨hk, hin⟩ := hplayer k pos hw.1
  obtain ⟨p, hp, hpos⟩ := Option.map_eq_some_iff.mp hw.1
  have hnear : k ∈ w.getNearbyObjects env m.pos :=
    (SectorManager.mem_getNearbyObjects env.iter_perm).mpr ⟨getSectorCoord pos,
      getSectorCoord_mem_of_isInView hin (by rw [isInView_comm]; exact hview), hw.2⟩
  have hseen : p ∈ playersInView env w m.pos := by
    refine List.mem_filterMap.mpr ⟨k, hnear, ?_⟩
    rw [if_neg (not_not.mpr (isPlayerId_of_lt hk)), hp]
    dsimp only
    rw [hpos]
    exact if_pos hview
  apply hobs
  simp only [hasObserverNearby, decide_eq_true_eq]
  intro hempty
  rw [List.isEmpty_iff.mp hempty] at hseen
  exact absurd hseen List.not_mem_nil

end World

end Mmorpg
