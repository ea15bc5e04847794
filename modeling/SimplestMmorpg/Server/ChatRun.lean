/-
Who hears what.

A line on the global channel goes to everybody in `m_players`, a line on another
channel to the players around the sender's tile that have it in view. Whoever is
meant gets the line once: the table has a player once, and a range query names
nobody twice, since no sector holds an id twice (`Sets`), which every call of
the sector manager keeps.
-/
import SimplestMmorpg.Game.Nearest
import SimplestMmorpg.Client.ViewDelta
import SimplestMmorpg.Server.Linked
import SimplestMmorpg.Server.StepEffects

set_option autoImplicit false

namespace Mmorpg

open Transition ViewProcessor

/-! ## The sectors are sets -/

theorem SectorManager.Sets.called {map : Map} {sm sm' : SectorManager} (h : sm.Sets)
    (hcall : sm.Called map sm') : sm'.Sets := by
  cases hcall with
  | added id c sm' out hadd => exact h.addObject hadd
  | removed id p => exact h.removeObject id p
  | moved id old new sm' hmove => exact h.tryMoveObject hmove

namespace World

variable {c : Scope} {env : Env} {w w' v : World} {p o : Player} {conn : ConnId} {pkt : ScPacket}
  {id : ObjectID}

theorem sets_effects (h : w.sectorManager.Sets) (he : Effects c w w') : w'.sectorManager.Sets := by
  refine he.keeps (P := fun v => v.sectorManager.Sets) (fun u v hu hstep => ?_) h
  cases hstep with
  | placed sm hcall => exact hu.called hcall
  | _ => exact hu

theorem sets_spawnMonsters (spawns : List MonsterSpawnData) (h : w.sectorManager.Sets) :
    (w.spawnMonsters spawns).sectorManager.Sets := by
  induction spawns generalizing w with
  | nil => exact h
  | cons data rest ih =>
      refine ih (w := w.spawnMonster data) ?_
      unfold spawnMonster
      dsimp only
      split
      · exact h
      · next sm spawn hadd => exact h.addObject hadd

/-! ## One line to each -/

/-- A packet to players with connections of their own reaches each of them once. -/
theorem packetsOn_map {ps : List Player} (hnodup : ps.Nodup)
    (hapart : ∀ p ∈ ps, p.session = o.session → p = o) :
    packetsOn o.session (ps.map fun p => (p.session, pkt)) = if o ∈ ps then [pkt] else [] := by
  induction ps with
  | nil => rfl
  | cons p ps ih =>
      obtain ⟨hnot, hrest⟩ := List.nodup_cons.mp hnodup
      obtain ⟨hp, hps⟩ := List.forall_mem_cons.mp hapart
      rw [List.map_cons]
      by_cases hs : p.session = o.session
      · obtain rfl := hp hs
        rw [packetsOn_cons_self, ih hrest hps, if_neg hnot, if_pos List.mem_cons_self]
      · have hne : o ≠ p := fun heq => hs (congrArg Player.session heq.symm)
        rw [packetsOn_cons_of_ne hs, ih hrest hps]
        simp [List.mem_cons, hne]

theorem packetsOn_map_of_notMem {ps : List Player} (h : ∀ p ∈ ps, p.session ≠ conn) :
    packetsOn conn (ps.map fun p => (p.session, pkt)) = [] := by
  refine packetsOn_eq_nil fun x hx => ?_
  obtain ⟨p, hp, rfl⟩ := List.mem_map.mp hx
  exact h p hp

/-- Everybody, in the order of the table. -/
def everyone (env : Env) (w : World) : List Player :=
  (env.iter (w.players.entries.map (·.id))).filterMap w.getPlayer

theorem mem_everyone : p ∈ everyone env w ↔ w.getPlayer p.id = some p := by
  unfold everyone
  rw [List.mem_filterMap]
  constructor
  · rintro ⟨id, -, hp⟩
    rw [getPlayer_id hp]
    exact hp
  · intro hp
    refine ⟨p.id, ?_, hp⟩
    rw [env.mem_iter]
    exact List.mem_map_of_mem (PlayerTable.mem_of_find hp)

theorem nodup_everyone (env : Env) (w : World) : (everyone env w).Nodup := by
  refine List.Nodup.filterMap ?_ ((env.iter_perm _).nodup_iff.mpr w.players.nodup)
  intro i j p hi hj
  rw [← getPlayer_id hi, ← getPlayer_id hj]

theorem mem_playersInView (h : Sectored w) {pos : Position} :
    p ∈ playersInView env w pos ↔ w.getPlayer p.id = some p ∧ isInView p.pos pos = true := by
  constructor
  · intro hp
    refine ⟨getPlayer_of_mem_playersInView hp, ?_⟩
    obtain ⟨id, -, hid⟩ := List.mem_filterMap.mp hp
    split at hid
    · exact absurd hid (by simp)
    · split at hid
      · exact absurd hid (by simp)
      · split at hid
        · next hview =>
            rw [← Option.some.inj hid]
            exact hview
        · exact absurd hid (by simp)
  · rintro ⟨hp, hview⟩
    have hnear : p.id ∈ w.getNearbyObjects env pos :=
      nearby_of_view h (h.place_player hp) (by rw [isInView_comm]; exact hview)
    refine List.mem_filterMap.mpr ⟨p.id, hnear, ?_⟩
    rw [if_neg (not_not.mpr (h.isPlayerId hp)), hp]
    exact if_pos hview

theorem nodup_playersInView (h : Sectored w) (hsets : w.sectorManager.Sets) (pos : Position) :
    (playersInView env w pos).Nodup := by
  have hnear : (w.getNearbyObjects env pos).Nodup :=
    SectorManager.nodup_getNearbyObjects h.sectors hsets env.iter_perm pos
  have hinj : ∀ {f : ObjectID → Option Player}, (∀ i, ∀ q ∈ f i, q.id = i) →
      ∀ i j q, q ∈ f i → q ∈ f j → i = j := by
    intro f hf i j q hi hj
    rw [← hf i q hi, ← hf j q hj]
  -- a player is found under its own id only
  refine List.Nodup.filterMap (hinj fun i q hq => ?_) hnear
  split at hq
  · exact absurd hq (by simp)
  · split at hq
    · exact absurd hq (by simp)
    · next player hp =>
        split at hq
        · rw [← Option.some.inj hq]
          exact getPlayer_id hp
        · exact absurd hq (by simp)

/-! ## Chat -/

/-- The line of a chat request, when it is said. -/
def chatLine (p : Player) (data : Bytes) : ScPacket :=
  .chat p.id (byteAt data 4) (strncpyTruncate 32 p.name)
    (strncpyTruncate 128 ((data.drop 5).take 128))

/-- Who is meant by a line. -/
def Hears (p : Player) (data : Bytes) (o : Player) : Prop :=
  byteAt data 4 = 1 ∨ isInView o.pos p.pos = true

/-- A line is said if the player has not said one a moment ago and it is not
empty. -/
def SaysLine (w : World) (p : Player) (data : Bytes) : Prop :=
  p.canChat w.now = true ∧ strncpyTruncate 128 ((data.drop 5).take 128) ≠ []

/-- **Whoever is meant gets the line, once, and nobody else gets anything.** -/
structure Delivered (w w' : World) (p : Player) (data : Bytes) : Prop where
  heard : ∀ o, w.getPlayer o.id = some o → Hears p data o →
    packetsOn o.session w'.sent = packetsOn o.session w.sent ++ [chatLine p data]
  unheard : ∀ conn, (∀ o, w.getPlayer o.id = some o → Hears p data o → o.session ≠ conn) →
    packetsOn conn w'.sent = packetsOn conn w.sent

/-- The players a line goes to. -/
def hearers (env : Env) (w : World) (p : Player) (data : Bytes) : List Player :=
  if byteAt data 4 = 1 then everyone env w else playersInView env w p.pos

theorem mem_hearers (h : Sectored w) (data : Bytes) :
    o ∈ hearers env w p data ↔ w.getPlayer o.id = some o ∧ Hears p data o := by
  unfold hearers Hears
  split
  · next hglobal =>
      rw [mem_everyone]
      exact ⟨fun ho => ⟨ho, .inl hglobal⟩, And.left⟩
  · next hlocal =>
      rw [mem_playersInView h]
      exact and_congr_right fun _ => ⟨.inr, fun hor => hor.resolve_left hlocal⟩

/-- A line that is said is sent to the hearers. -/
theorem processChat_of_line (env : Env) {data : Bytes} (hp : w.getPlayer p.id = some p)
    (hsaid : SaysLine w p data) :
    w.processChat env p.id data = (w.setPlayer (p.onChatPerformed w.now)).sendAll
      ((hearers env (w.setPlayer (p.onChatPerformed w.now)) p data).map
        fun o => (o.session, chatLine p data)) := by
  unfold processChat
  rw [hp]
  dsimp only
  rw [if_neg (not_not.mpr hsaid.1), if_neg hsaid.2]
  unfold hearers
  split
  · rw [everyone, List.map_filterMap]
    rfl
  · rfl

/-- One that is not said leaves what was sent alone. -/
theorem sent_processChat_of_no_line (env : Env) {data : Bytes} (hp : w.getPlayer p.id = some p)
    (hsaid : ¬ SaysLine w p data) : (w.processChat env p.id data).sent = w.sent := by
  unfold processChat
  rw [hp]
  dsimp only
  split
  · rfl
  · next hcan =>
      rw [if_pos]
      · rfl
      · by_contra hne
        exact hsaid ⟨not_not.mp hcan, hne⟩

theorem delivered_processChat (env : Env) {data : Bytes} (h : Placed w) (ha : Apart w)
    (hsets : w.sectorManager.Sets) (hp : w.getPlayer p.id = some p) (hsaid : SaysLine w p data) :
    Delivered w (w.processChat env p.id data) p data := by
  rw [processChat_of_line env hp hsaid]
  have hinert : Inert w (w.setPlayer (p.onChatPerformed w.now)) := inert_setPlayer hp rfl
  have hsec : Sectored (w.setPlayer (p.onChatPerformed w.now)) := (h.inert hinert).sectored
  have hapart := hinert.apart ha
  -- the others are as they were, and the speaker has its new time only
  have hafter : ∀ o, w.getPlayer o.id = some o → Hears p data o →
      ∃ o', o' ∈ hearers env (w.setPlayer (p.onChatPerformed w.now)) p data ∧
        o'.session = o.session := by
    intro o ho hhears
    by_cases hid : o.id = p.id
    · rw [hid, hp] at ho
      obtain rfl := Option.some.inj ho
      exact ⟨p.onChatPerformed w.now,
        (mem_hearers hsec data).mpr ⟨getPlayer_setPlayer_self w _, hhears⟩, rfl⟩
    · refine ⟨o, (mem_hearers hsec data).mpr ⟨?_, hhears⟩, rfl⟩
      have hne : o.id ≠ (p.onChatPerformed w.now).id := hid
      rw [getPlayer_setPlayer, if_neg hne]
      exact ho
  have hnodup : (hearers env (w.setPlayer (p.onChatPerformed w.now)) p data).Nodup := by
    unfold hearers
    split
    · exact nodup_everyone env _
    · exact nodup_playersInView hsec hsets _
  constructor
  · intro o ho hhears
    obtain ⟨o', ho', hsession⟩ := hafter o ho hhears
    have hget := ((mem_hearers hsec data).mp ho').1
    rw [← hsession]
    refine packetsOn_append.trans ?_
    rw [packetsOn_map hnodup fun q hq hs =>
      hapart.eq ((mem_hearers hsec data).mp hq).1 hget hs, if_pos ho']
    rfl
  · intro conn hnone
    refine packetsOn_append.trans ?_
    rw [packetsOn_map_of_notMem, List.append_nil]
    · rfl
    · intro q hq
      obtain ⟨hget, hhears⟩ := (mem_hearers hsec data).mp hq
      rw [getPlayer_setPlayer] at hget
      split at hget
      · next hid =>
          rw [← Option.some.inj hget] at hhears ⊢
          exact hnone p hp hhears
      · exact hnone q hget hhears

end World

/-! ## Runs -/

namespace Server

open World

variable {s : Server} {e : Event}

theorem sets_step (s : Server) (e : Event) (h : s.game.world.sectorManager.Sets) :
    (s.step e).game.world.sectorManager.Sets := by
  have hstep := worldStep s e
  generalize (s.step e).game.world = w at hstep
  cases hstep with
  | idle => exact h
  | tick ms => exact h
  | left id env conn p hs hp => exact h.removeObject p.id p.pos
  | packet id data size env conn hs =>
      exact sets_effects h (effects_handlePacket s env (fun _ => True) id conn data size)
  | refused => exact h
  | joined k env c conn row v p hc hrow ho hfree hadd hp =>
      have hplaced : v.sectorManager.Sets := sets_addPlayer h hadd
      exact sets_effects (c := ⟨env, fun _ _ => False, fun _ => False⟩) (by exact hplaced)
        (effects_activateNearbyMonsters env p.pos _)
  | fired k env ev hev =>
      by_cases htype : ev.type = .dbSave
      · rw [htype, world_handleTimerEvent_dbSave]
        exact h
      · exact sets_effects (by exact h) (effects_fired s.game env k htype ev.targetId)

theorem apart_of_linked (h : Linked s) : Apart s.game.world := by
  intro i j p q hp hq hs
  have hi := h.player i p hp
  rw [hs] at hi
  exact h.conn_inj i j _ hi (h.player j q hq)

/-- **What is said is heard.** In every run in which everybody keeps a place, a
chat request that is neither too early nor empty puts one line on the connection
of each player who is meant, and changes what was sent on no other; any other
chat request sends nothing. -/
theorem chat_delivered_run {map : Map} {spawns : List MonsterSpawnData} {now : ℕ}
    {store : PlayerStore} {es : List Event} (hspawns : SpawnsOk spawns)
    (hok : Along step PlacementOk (init map spawns now store) es) :
    let s := run step (init map spawns now store) es
    ∀ id conn p data size env, s.sessions id = some conn → s.game.world.getPlayer id = some p →
      requestOf data size = some .chat →
      (SaysLine s.game.world p data →
        Delivered s.game.world (s.step (.packet id data size env)).game.world p data) ∧
      (¬ SaysLine s.game.world p data →
        (s.step (.packet id data size env)).game.world.sent = s.game.world.sent) := by
  have hrun := Transition.invariant
    (I := fun s => Linked s ∧ Placed s.game.world ∧ s.game.world.sectorManager.Sets)
    (fun s e h hok => ⟨linked_step s e h.1, placed_step s e h.2.1 hok, sets_step s e h.2.2⟩)
    ⟨linked_init map spawns now store, placed_init map hspawns now,
      sets_spawnMonsters spawns SectorManager.sets_init⟩ hok
  intro s id conn p data size env hs hp hreq
  obtain ⟨hlinked, hplaced, hsets⟩ := hrun
  have hworld : (s.step (.packet id data size env)).game.world =
      s.game.world.processChat env id data := by
    rw [step, hs]
    dsimp only
    rw [handlePacket, hreq]
    rfl
  obtain rfl := getPlayer_id hp
  rw [hworld]
  exact ⟨delivered_processChat env hplaced (apart_of_linked hlinked) hsets hp,
    sent_processChat_of_no_line env hp⟩

/-- A `CS_CHAT` on the global channel. -/
def helloPacket : Bytes := [133, 0, 236, 3, 1, 104, 105] ++ List.replicate 126 0

/-- The bitten player says so, and both players hear it. -/
theorem chat_delivered_run_hello :
    let s := run step (init openField [pest] 0 .init) bitten
    let w := (s.step (.packet 0 helloPacket 133 .plain)).game.world
    (w.sent.drop s.game.world.sent.length).map (·.1) = [0, 1] ∧
      ∃ p, s.game.world.getPlayer 0 = some p ∧ Delivered s.game.world w p helloPacket := by
  intro s w
  have hsession : (s.sessions 0, (s.game.world.getPlayer 0).isSome) = (some 0, true) := by
    decide +kernel
  obtain ⟨hs, hsome⟩ := Prod.mk.inj hsession
  obtain ⟨p, hp⟩ := Option.isSome_iff_exists.mp hsome
  have hline : ∀ q ∈ s.game.world.getPlayer 0, SaysLine s.game.world q helloPacket := by
    unfold SaysLine
    decide +kernel
  exact ⟨by decide +kernel, p, hp, (chat_delivered_run ⟨by decide, by decide⟩ (by decide +kernel)
    0 0 p helloPacket 133 .plain hs hp (by decide +kernel)).1 (hline p hp)⟩

end Server

end Mmorpg
