/-
`PlayerRow` and the store behind `DBConnection`.

A `DBConnection` that is not connected keeps the rows in `g_memRows`, a map
from names to rows, and hands out ids from `g_memNextId`; each call is one
critical section of `g_memMutex`. The stored procedures of a connected one
have the same effect on the columns of a row: the name is unique, the id is
given by the store, and saving writes the row with the given id.
-/
import SimplestMmorpg.Common.Types
import Mathlib.Data.List.Nodup

set_option autoImplicit false

namespace Mmorpg

structure PlayerRow where
  id : Int
  name : Bytes
  level : Int16
  exp : Int
  hp : Int
  maxHp : Int
  x : Int
  y : Int
  deriving DecidableEq, Repr

/-- The rows hold the same, but for the name. -/
def PlayerRow.SameState (row row' : PlayerRow) : Prop := { row with name := row'.name } = row'

theorem PlayerRow.SameState.id {row row' : PlayerRow} (h : row.SameState row') :
    row.id = row'.id := by
  rw [SameState] at h
  rw [← h]

theorem PlayerRow.SameState.trans {row row' row'' : PlayerRow} (h : row.SameState row')
    (h' : row'.SameState row'') : row.SameState row'' := by
  rw [SameState] at h h' ⊢
  rw [← h', ← h]

/-- `g_memRows` and `g_memNextId`: no two rows have the same name or id, and
the next id is a new one. -/
structure PlayerStore where
  rows : List (Bytes × PlayerRow)
  nextId : Int
  names : (rows.map Prod.fst).Nodup
  ids : (rows.map fun e => e.2.id).Nodup
  le_nextId : ∀ e ∈ rows, e.2.id ≤ nextId

namespace PlayerStore

variable (db : PlayerStore)

/-- An empty store. -/
def init : PlayerStore := ⟨[], 0, List.nodup_nil, List.nodup_nil, List.forall_mem_nil _⟩

/-- `LoadPlayerByName`: the row, when there is one. -/
def loadPlayerByName (name : Bytes) : Option PlayerRow :=
  (db.rows.find? fun e => e.1 = name).map (·.2)

theorem name_notMem (name : Bytes) (h : ¬ (db.loadPlayerByName name).isSome) :
    name ∉ db.rows.map Prod.fst := by
  intro hmem
  obtain ⟨e, he, rfl⟩ := List.mem_map.mp hmem
  apply h
  rw [loadPlayerByName, Option.isSome_map, List.find?_isSome]
  exact ⟨e, he, by simp⟩

/-- One more row, with a name that is not taken and the next id. -/
def insert (name : Bytes) (h : name ∉ db.rows.map Prod.fst) : PlayerStore where
  rows := db.rows ++ [(name, ⟨db.nextId + 1, name, 1, 0, 100, 100, 0, 0⟩)]
  nextId := db.nextId + 1
  names := by
    rw [List.map_append, List.map_singleton, List.nodup_append]
    refine ⟨db.names, List.nodup_singleton _, ?_⟩
    intro a ha b hb heq
    rw [heq, List.mem_singleton.mp hb] at ha
    exact h ha
  ids := by
    rw [List.map_append, List.map_singleton, List.nodup_append]
    refine ⟨db.ids, List.nodup_singleton _, ?_⟩
    intro a ha b hb heq
    obtain ⟨e, he, rfl⟩ := List.mem_map.mp ha
    have hle := db.le_nextId e he
    rw [heq, List.mem_singleton.mp hb] at hle
    dsimp only at hle
    omega
  le_nextId := by
    intro e he
    rcases List.mem_append.mp he with he | he
    · have hle := db.le_nextId e he
      omega
    · obtain rfl := List.mem_singleton.mp he
      exact Int.le_refl _

/-- `CreatePlayer`: the new row's id; it fails on a name that is taken. -/
def createPlayer (name : Bytes) : Option (PlayerStore × Int) :=
  if h : (db.loadPlayerByName name).isSome then none
  else some (db.insert name (db.name_notMem name h), db.nextId + 1)

/-- The rows `SavePlayer` leaves, when it finds this entry. -/
def overwrite (found : Bytes × PlayerRow) (row : PlayerRow) : List (Bytes × PlayerRow) :=
  db.rows.map fun e => if e.1 = found.1 then (e.1, { row with name := e.1 }) else e

variable {db} {found e : Bytes × PlayerRow} {row : PlayerRow}

theorem map_overwrite {α : Type} (f : Bytes × PlayerRow → α)
    (h : ∀ e ∈ db.rows, e.1 = found.1 → f (e.1, { row with name := e.1 }) = f e) :
    (db.overwrite found row).map f = db.rows.map f := by
  rw [overwrite, List.map_map]
  apply List.map_congr_left
  intro e he
  rw [Function.comp_apply]
  split
  · next heq => exact h e he heq
  · rfl

/-- A name leads to one entry. -/
theorem eq_of_name (hf : found ∈ db.rows) (he : e ∈ db.rows) (h : e.1 = found.1) : e = found :=
  List.inj_on_of_nodup_map db.names he hf h

/-- And so does an id. -/
theorem eq_of_id (hf : found ∈ db.rows) (he : e ∈ db.rows) (h : e.2.id = found.2.id) : e = found :=
  List.inj_on_of_nodup_map db.ids he hf h

variable (db)

/-- Overwriting keeps the names, and the ids. -/
theorem names_overwrite : (db.overwrite found row).map Prod.fst = db.rows.map Prod.fst :=
  map_overwrite _ fun _ _ _ => rfl

theorem ids_overwrite (hf : found ∈ db.rows) (hid : found.2.id = row.id) :
    ((db.overwrite found row).map fun e => e.2.id) = db.rows.map fun e => e.2.id :=
  map_overwrite _ fun e he heq => by rw [eq_of_name hf he heq, hid]

theorem le_nextId_overwrite (hf : found ∈ db.rows) (hid : found.2.id = row.id) :
    ∀ e ∈ db.overwrite found row, e.2.id ≤ db.nextId := by
  intro e he
  have hmem : e.2.id ∈ (db.overwrite found row).map fun e => e.2.id := List.mem_map_of_mem he
  rw [ids_overwrite db hf hid] at hmem
  obtain ⟨e', he', heq⟩ := List.mem_map.mp hmem
  rw [← heq]
  exact db.le_nextId e' he'

/-- `SavePlayer`: overwrite the first row with this id, except its name; it
fails when there is none. -/
def savePlayer (row : PlayerRow) : Option PlayerStore :=
  match h : db.rows.find? fun e => e.2.id = row.id with
  | none => none
  | some found =>
    have hf : found ∈ db.rows := List.mem_of_find?_eq_some h
    have hid : found.2.id = row.id := by simpa using List.find?_some h
    some
      { rows := db.overwrite found row
        nextId := db.nextId
        names := by rw [names_overwrite]; exact db.names
        ids := by rw [ids_overwrite db hf hid]; exact db.ids
        le_nextId := le_nextId_overwrite db hf hid }

/-! ## What the operations leave -/

variable {db} {db' : PlayerStore} {name : Bytes} {id : Int}

theorem mem_of_loadPlayerByName (h : db.loadPlayerByName name = some row) :
    (name, row) ∈ db.rows := by
  obtain ⟨e, he, rfl⟩ := Option.map_eq_some_iff.mp h
  have hname : e.1 = name := by simpa using List.find?_some he
  rw [← hname]
  exact List.mem_of_find?_eq_some he

/-- **`CreatePlayer`** adds one row, with an id that no row has had. -/
theorem createPlayer_eq_some (h : db.createPlayer name = some (db', id)) :
    id = db.nextId + 1 ∧ db'.nextId = id ∧
      db'.rows = db.rows ++ [(name, ⟨id, name, 1, 0, 100, 100, 0, 0⟩)] := by
  unfold createPlayer at h
  split at h
  · exact absurd h (by simp)
  · obtain ⟨rfl, rfl⟩ := Prod.mk.inj (Option.some.inj h)
    exact ⟨rfl, rfl, rfl⟩

/-- The scan stops at an id and the assignment is under a key: the row with the
caller's id is written, which there is, and no other is touched. -/
theorem savePlayer_spec (h : db.savePlayer row = some db') :
    db'.nextId = db.nextId ∧ (∃ e ∈ db.rows, e.2.id = row.id) ∧
      db'.rows = db.rows.map fun e =>
        if e.2.id = row.id then (e.1, { row with name := e.1 }) else e := by
  unfold savePlayer at h
  split at h
  · exact absurd h (by simp)
  · next found hfound =>
      have hf : found ∈ db.rows := List.mem_of_find?_eq_some hfound
      have hid : found.2.id = row.id := by simpa using List.find?_some hfound
      rw [← Option.some.inj h]
      refine ⟨rfl, ⟨found, hf, hid⟩, ?_⟩
      apply List.map_congr_left
      intro e he
      have hiff : e.1 = found.1 ↔ e.2.id = row.id := by
        constructor
        · intro heq
          rw [eq_of_name hf he heq, hid]
        · intro heq
          rw [eq_of_id hf he (heq.trans hid.symm)]
      simp only [hiff]

/-- **`SavePlayer`** writes the row with this id, and no other. -/
theorem savePlayer_eq_some (h : db.savePlayer row = some db') :
    db'.nextId = db.nextId ∧
      ∀ e ∈ db'.rows, e.2.SameState row ∧ e.2.id = row.id ∨ e ∈ db.rows ∧ e.2.id ≠ row.id := by
  obtain ⟨hnext, -, hrows⟩ := savePlayer_spec h
  refine ⟨hnext, ?_⟩
  rw [hrows]
  intro e he
  obtain ⟨e', he', rfl⟩ := List.mem_map.mp he
  split
  · exact .inl ⟨rfl, rfl⟩
  · next hne => exact .inr ⟨he', hne⟩

/-- The row it writes has the name it stands under. -/
theorem name_of_savePlayer (h : db.savePlayer row = some db') (he : e ∈ db'.rows)
    (hid : e.2.id = row.id) : e.2.name = e.1 := by
  rw [(savePlayer_spec h).2.2] at he
  obtain ⟨e', -, rfl⟩ := List.mem_map.mp he
  by_cases hsame : e'.2.id = row.id
  · rw [if_pos hsame]
  · rw [if_neg hsame] at hid
    exact absurd hid hsame

/-- A row with another id stays as it is. -/
theorem mem_savePlayer_of_ne (h : db.savePlayer row = some db') (he : e ∈ db.rows)
    (hid : e.2.id ≠ row.id) : e ∈ db'.rows := by
  rw [(savePlayer_spec h).2.2]
  exact List.mem_map.mpr ⟨e, he, if_neg hid⟩

/-- It finds a row only under an id that was given out. -/
theorem id_le_of_savePlayer (h : db.savePlayer row = some db') : row.id ≤ db.nextId := by
  obtain ⟨-, ⟨e, he, hid⟩, -⟩ := savePlayer_spec h
  rw [← hid]
  exact db.le_nextId e he

end PlayerStore

end Mmorpg
