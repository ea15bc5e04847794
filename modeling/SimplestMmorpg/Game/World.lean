/-
The state the handlers of `GameWorld` work on.

`World` has the members of `GameWorld` (but the claimed database ids, see
`Game/GameWorld`), and what the handlers write to beyond them: the queue of
the timer manager and the packets handed to the sessions. A packet is kept
with the connection it was sent on, in the order of the `SendPacket` calls.

`Env` is what a handler's result depends on and the source does not fix: the
order in which hash sets are walked, the random draws, the value of a variable
that is read without having been written, and what lies beyond the ends of
`DX` and `DY`. A run may use a different one for each handler.
-/
import SimplestMmorpg.Game.Monster
import SimplestMmorpg.Game.Pathfinder
import SimplestMmorpg.Game.Player
import SimplestMmorpg.Game.SectorManager
import Mathlib.Data.List.Find

set_option autoImplicit false

namespace Mmorpg

/-! ## What the source leaves open -/

structure Env where
  iter : List ObjectID → List ObjectID
  iter_perm : ∀ l, (iter l).Perm l
  queue : Pathfinder.OpenList
  /-- `distX(rng)` and `distY(rng)`. -/
  target : Position
  target_range : 10 ≤ target.x ∧ target.x ≤ 1990 ∧ 10 ≤ target.y ∧ target.y ≤ 1990
  /-- `dirDist(rng)`. -/
  dir : Fin 4
  /-- The `newX` and `newY` of `ProcessTeleport` when neither call wrote them. -/
  indeterminate : Position
  /-- `DX[i]` and `DY[i]` for an index past the ends of the arrays. -/
  beyond : ℕ → Int × Int

/-- Sets walked in the order of their lists, the first of the best nodes, and
the same draws every time. -/
def Env.plain : Env where
  iter := id
  iter_perm := List.Perm.refl
  queue := .firstBest
  target := ⟨10, 10⟩
  target_range := by decide
  dir := 0
  indeterminate := ⟨0, 0⟩
  beyond := fun _ => (0, 0)

theorem Env.mem_iter (env : Env) (l : List ObjectID) (i : ObjectID) : i ∈ env.iter l ↔ i ∈ l :=
  (env.iter_perm l).mem_iff

/-- The tile in direction `i`: `DX[i]` and `DY[i]` are added and the sums narrowed. -/
def Env.towards (env : Env) (p : Position) (i : ℕ) : Position :=
  SectorManager.offset p (directions.getD i (env.beyond i))

/-! ## The table of players -/

/-- `m_players`: at most one player for each id. -/
structure PlayerTable where
  entries : List Player
  nodup : (entries.map Player.id).Nodup

namespace PlayerTable

variable (t : PlayerTable)

def empty : PlayerTable := ⟨[], List.nodup_nil⟩

def find (id : ObjectID) : Option Player := t.entries.find? fun p => p.id = id

def erase (id : ObjectID) : PlayerTable where
  entries := t.entries.filter fun p => p.id ≠ id
  nodup := t.nodup.sublist (List.filter_sublist.map _)

/-- `m_players[p.id] = p`. -/
def insert (p : Player) : PlayerTable where
  entries := p :: (t.erase p.id).entries
  nodup := by
    rw [List.map_cons, List.nodup_cons]
    refine ⟨?_, (t.erase p.id).nodup⟩
    simp [erase]

variable {t}

theorem find_id {id : ObjectID} {p : Player} (h : t.find id = some p) : p.id = id := by
  simpa using List.find?_some h

theorem mem_of_find {id : ObjectID} {p : Player} (h : t.find id = some p) : p ∈ t.entries :=
  List.mem_of_find?_eq_some h

/-- Whoever is in the table is found under its id. -/
theorem find_of_mem {p : Player} (h : p ∈ t.entries) : t.find p.id = some p := by
  cases hf : t.find p.id with
  | none => exact absurd (List.find?_eq_none.mp hf p h) (by simp)
  | some q => rw [List.inj_on_of_nodup_map t.nodup (mem_of_find hf) h (find_id hf)]

@[simp] theorem find_empty (id : ObjectID) : empty.find id = none := rfl

theorem find_erase (k id : ObjectID) :
    (t.erase k).find id = if id = k then none else t.find id := by
  unfold find erase
  dsimp only
  rw [List.find?_filter]
  split
  · next h =>
      rw [List.find?_eq_none]
      intro p _
      subst h
      simp
  · next h =>
      refine List.find?_congr fun p _ => ?_
      by_cases hp : p.id = id
      · simp [hp, h]
      · simp [hp]

theorem find_insert (p : Player) (id : ObjectID) :
    (t.insert p).find id = if id = p.id then some p else t.find id := by
  have he := find_erase (t := t) p.id id
  unfold find insert at *
  dsimp only
  rw [List.find?_cons]
  by_cases h : id = p.id
  · subst h; simp
  · rw [if_neg h] at he ⊢
    simp only [Ne.symm h, decide_false]
    exact he

/-- Only the last write under an id counts. -/
theorem insert_insert {p q : Player} (h : p.id = q.id) : (t.insert p).insert q = t.insert q := by
  simp only [insert, erase, mk.injEq, List.cons.injEq, true_and]
  rw [List.filter_cons_of_neg (by simp [h]), List.filter_filter, h]
  simp

end PlayerTable

/-! ## The table of monsters -/

/-- `m_monsters`: the ids count up from the offset. -/
structure MonsterTable where
  entries : List Monster
  id_eq : ∀ i m, entries[i]? = some m → m.id = monsterIdOffset + i

namespace MonsterTable

variable (t : MonsterTable)

def empty : MonsterTable := ⟨[], fun _ _ h => by simp at h⟩

/-- `GetMonster`. -/
def find (id : ObjectID) : Option Monster :=
  if id < monsterIdOffset then none else t.entries[id - monsterIdOffset]?

/-- `push_back` of a monster made with the next id. -/
def push (data : MonsterSpawnData) (spawn : Position) : MonsterTable where
  entries := t.entries ++ [Monster.make (monsterIdOffset + t.entries.length) data spawn]
  id_eq i m h := by
    rw [List.getElem?_append] at h
    split at h
    · exact t.id_eq i m h
    · rw [List.getElem?_singleton] at h
      split at h
      · next hge heq =>
          rw [← Option.some.inj h]
          simp only [Monster.make]
          unfold monsterIdOffset
          omega
      · exact absurd h (by simp)

/-- Write through the pointer to the monster with this id. -/
def set (m : Monster) : MonsterTable where
  entries := t.entries.map fun m' => if m'.id = m.id then m else m'
  id_eq i k h := by
    rw [List.getElem?_map] at h
    obtain ⟨m', hm', hk⟩ := Option.map_eq_some_iff.mp h
    have hid := t.id_eq i m' hm'
    split at hk
    · next heq => rw [← hk, ← heq, hid]
    · rw [← hk, hid]

variable {t}

theorem find_id {id : ObjectID} {m : Monster} (h : t.find id = some m) : m.id = id := by
  unfold find at h
  split at h
  · exact absurd h (by simp)
  · next hge =>
      have := t.id_eq _ _ h
      unfold ObjectID monsterIdOffset at *
      omega

theorem find_set (m : Monster) (id : ObjectID) :
    (t.set m).find id = (t.find id).map fun m' => if m'.id = m.id then m else m' := by
  unfold find set
  split
  · rfl
  · rw [List.getElem?_map]

theorem offset_le_of_find {id : ObjectID} {m : Monster} (h : t.find id = some m) :
    monsterIdOffset ≤ id := by
  unfold find at h
  split at h
  · exact absurd h (by simp)
  · next hge => exact Nat.le_of_not_lt hge

/-- A monster of the table is found under its id. -/
theorem find_of_mem {m : Monster} (h : m ∈ t.entries) : t.find m.id = some m := by
  obtain ⟨i, hi⟩ := List.mem_iff_getElem?.mp h
  rw [t.id_eq i m hi, find, if_neg (Nat.not_lt.mpr (Nat.le_add_right _ _)),
    Nat.add_sub_cancel_left, hi]

/-- A write leaves what it does not change of the one monster that has the id. -/
theorem map_set {β : Type} {f : Monster → β} {m m' : Monster} (h : t.find m.id = some m')
    (hf : f m = f m') : (t.set m).entries.map f = t.entries.map f := by
  simp only [set, List.map_map]
  refine List.map_congr_left fun k hk => ?_
  simp only [Function.comp]
  split
  · next hid =>
      have hfind := find_of_mem hk
      rw [hid] at hfind
      rw [hf, Option.some.inj (h.symm.trans hfind)]
  · rfl

theorem mem_of_find {id : ObjectID} {m : Monster} (h : t.find id = some m) : m ∈ t.entries := by
  unfold find at h
  split at h
  · exact absurd h (by simp)
  · exact List.mem_of_getElem? h

end MonsterTable

/-! ## Timers -/

/-- `TimerType`. -/
inductive TimerType where
  | hpRegen
  | monsterAi
  | monsterRespawn
  | dbSave
  deriving DecidableEq, Repr

/-- `TimerEvent`. The source has no `owner`: it is the serial number of the
player for whom an `HP_REGEN` event was armed. -/
structure TimerEvent where
  fireTime : ℕ
  type : TimerType
  targetId : ObjectID
  owner : Option ℕ
  deriving DecidableEq, Repr

/-! ## The world -/

structure World where
  map : Map
  sectorManager : SectorManager
  players : PlayerTable
  monsters : MonsterTable
  timers : List TimerEvent
  sent : List (ConnId × ScPacket)
  now : ℕ
  nextSerial : ℕ

/-- `IsPlayerId`. -/
def isPlayerId (id : ObjectID) : Bool := id < monsterIdOffset

namespace World

variable (w : World)

def getPlayer (id : ObjectID) : Option Player := w.players.find id

def setPlayer (p : Player) : World := { w with players := w.players.insert p }

/-- A method call through the `shared_ptr` of a player in the table. -/
def modifyPlayer (id : ObjectID) (f : Player → Player) : World :=
  match w.getPlayer id with
  | none => w
  | some p => w.setPlayer (f p)

/-- `RemovePlayer`. -/
def removePlayer (id : ObjectID) : World := { w with players := w.players.erase id }

def getMonster (id : ObjectID) : Option Monster := w.monsters.find id

def setMonster (m : Monster) : World := { w with monsters := w.monsters.set m }

/-- A method call through the pointer to a monster. -/
def modifyMonster (id : ObjectID) (f : Monster → Monster) : World :=
  match w.getMonster id with
  | none => w
  | some m => w.setMonster (f m)

/-- `TimerManager::AddTimer`. -/
def addTimer (type : TimerType) (targetId : ObjectID) (delayMs : ℕ) (owner : Option ℕ) : World :=
  { w with timers := w.timers ++ [⟨w.now + delayMs, type, targetId, owner⟩] }

/-- `SendPacket` on a session. -/
def send (conn : ConnId) (pkt : ScPacket) : World := { w with sent := w.sent ++ [(conn, pkt)] }

def sendAll (pkts : List (ConnId × ScPacket)) : World := { w with sent := w.sent ++ pkts }

def getNearbyObjects (env : Env) (p : Position) : List ObjectID :=
  w.sectorManager.getNearbyObjects env.iter p

/-! ## Reading back a write -/

variable {w} {id : ObjectID} {p : Player} {m : Monster}

theorem getPlayer_id (h : w.getPlayer id = some p) : p.id = id := PlayerTable.find_id h

theorem getPlayer_setPlayer (p : Player) (id : ObjectID) :
    (w.setPlayer p).getPlayer id = if id = p.id then some p else w.getPlayer id :=
  PlayerTable.find_insert p id

/-- A player is found where it was written. -/
theorem getPlayer_setPlayer_self (w : World) (p : Player) :
    (w.setPlayer p).getPlayer p.id = some p :=
  (getPlayer_setPlayer p p.id).trans (if_pos rfl)

theorem getPlayer_removePlayer (k id : ObjectID) :
    (w.removePlayer k).getPlayer id = if id = k then none else w.getPlayer id :=
  PlayerTable.find_erase k id

@[simp] theorem getPlayer_setMonster (m : Monster) :
    (w.setMonster m).getPlayer id = w.getPlayer id := rfl

@[simp] theorem getMonster_setPlayer (p : Player) :
    (w.setPlayer p).getMonster id = w.getMonster id := rfl

@[simp] theorem getMonster_removePlayer (k : ObjectID) :
    (w.removePlayer k).getMonster id = w.getMonster id := rfl

theorem getMonster_id (h : w.getMonster id = some m) : m.id = id := MonsterTable.find_id h

theorem monsterIdOffset_le_of_getMonster (h : w.getMonster id = some m) : monsterIdOffset ≤ id :=
  MonsterTable.offset_le_of_find h

/-- A monster that is there is overwritten, and no other. -/
theorem getMonster_setMonster {n : Monster} (h : w.getMonster m.id = some n) (id : ObjectID) :
    (w.setMonster m).getMonster id = if id = m.id then some m else w.getMonster id := by
  have hset : (w.setMonster m).getMonster id =
      (w.getMonster id).map fun m' => if m'.id = m.id then m else m' :=
    MonsterTable.find_set m id
  rw [hset]
  by_cases hid : id = m.id
  · subst hid
    rw [h, if_pos rfl, Option.map_some, if_pos (getMonster_id h)]
  · rw [if_neg hid]
    cases hg : w.getMonster id with
    | none => rfl
    | some k => rw [Option.map_some, if_neg (by rw [getMonster_id hg]; exact hid)]

end World

end Mmorpg
