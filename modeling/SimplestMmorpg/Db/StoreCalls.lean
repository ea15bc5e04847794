/-
The store under any sequence of calls.

Whoever holds an unconnected `DBConnection` calls `LoadPlayerByName`,
`CreatePlayer` and `SavePlayer`, and each call is one critical section of
`g_memMutex`; so what the callers see together is one sequence of calls with
their answers. `SavePlayer` scans the map for the id. A scan goes through an
`unordered_map` in an order of the map's own, which changes when it grows; the
order of the rows may therefore change between any two calls.

Rows are found by name when they are loaded and by id when they are saved, and a
save writes the caller's whole row before it puts the key back in as its name.
That a load returns what was last saved under the character's id rests on ids
being unique and on every row having its key for a name (`Faithful`).
-/
import SimplestMmorpg.Db.PlayerRow

set_option autoImplicit false

namespace Mmorpg

/-- The columns that `SavePlayer` writes. -/
def PlayerRow.saved (old row : PlayerRow) : PlayerRow :=
  { old with level := row.level, exp := row.exp, hp := row.hp, maxHp := row.maxHp,
             x := row.x, y := row.y }

namespace PlayerStore

/-! ## The calls -/

inductive Call where
  | load (name : Bytes)
  | create (name : Bytes)
  | save (row : PlayerRow)

/-- What a call reports: `outRow` when `outFound` is set, `outId` when
`CreatePlayer` returns true, and what `SavePlayer` returns. -/
inductive Answer where
  | loaded (row : Option PlayerRow)
  | created (id : Option Int)
  | saved (ok : Bool)
  deriving DecidableEq

def call (db : PlayerStore) : Call → PlayerStore × Answer
  | .load name => (db, .loaded (db.loadPlayerByName name))
  | .create name =>
    match db.createPlayer name with
    | some (db', id) => (db', .created (some id))
    | none => (db, .created none)
  | .save row =>
    match db.savePlayer row with
    | some db' => (db', .saved true)
    | none => (db, .saved false)

/-- The stores that calls lead to, each with the answered calls, newest first. -/
inductive Served : PlayerStore → List (Call × Answer) → Prop
  | init : Served init []
  | call {db : PlayerStore} {past : List (Call × Answer)} (c : Call) (h : Served db past) :
      Served (db.call c).1 ((c, (db.call c).2) :: past)
  | reorder {db db' : PlayerStore} {past : List (Call × Answer)} (h : Served db past)
      (hrows : db'.rows.Perm db.rows) (hnext : db'.nextId = db.nextId) : Served db' past

/-! ## What was last saved -/

/-- The row that a new character starts with. -/
def initialRow (id : Int) (name : Bytes) : PlayerRow := ⟨id, name, 1, 0, 100, 100, 0, 0⟩

/-- The row of a successful save under this id. -/
def savedUnder (id : Int) : Call × Answer → Option PlayerRow
  | (.save row, .saved true) => if row.id = id then some row else none
  | _ => none

def lastSaved (id : Int) (past : List (Call × Answer)) : Option PlayerRow :=
  past.findSome? (savedUnder id)

/-- The character as it should stand in the store. -/
def current (name : Bytes) (id : Int) (past : List (Call × Answer)) : PlayerRow :=
  match lastSaved id past with
  | some row => { row with name := name }
  | none => initialRow id name

/-! ## What one call does -/

variable {db db' : PlayerStore} {past : List (Call × Answer)} {name : Bytes} {row : PlayerRow}
  {id : Int} {e : Bytes × PlayerRow}

theorem loadPlayerByName_eq_some_iff :
    db.loadPlayerByName name = some row ↔ (name, row) ∈ db.rows := by
  refine ⟨mem_of_loadPlayerByName, ?_⟩
  intro hmem
  cases hload : db.loadPlayerByName name with
  | none => exact absurd (List.mem_map_of_mem hmem) (db.name_notMem name (by simp [hload]))
  | some row' =>
      have heq := eq_of_name (mem_of_loadPlayerByName hload) hmem rfl
      rw [(Prod.mk.inj heq).2]

theorem isSome_loadPlayerByName :
    (db.loadPlayerByName name).isSome ↔ name ∈ db.rows.map Prod.fst := by
  constructor
  · intro h
    obtain ⟨row, hrow⟩ := Option.isSome_iff_exists.mp h
    exact List.mem_map_of_mem (loadPlayerByName_eq_some_iff.mp hrow)
  · intro h
    by_contra hne
    exact db.name_notMem name hne h

/-- **`CreatePlayer`** fails on a name that is taken, and on no other. -/
theorem createPlayer_eq_none_iff : db.createPlayer name = none ↔ name ∈ db.rows.map Prod.fst := by
  rw [← isSome_loadPlayerByName, createPlayer]
  split
  · next h => exact ⟨fun _ => h, fun _ => rfl⟩
  · next h => exact ⟨fun heq => absurd heq (by simp), fun h' => absurd h' h⟩

/-- **`SavePlayer`** fails on an id that no row has, and on no other. -/
theorem savePlayer_eq_none_iff :
    db.savePlayer row = none ↔ row.id ∉ db.rows.map fun e => e.2.id := by
  unfold savePlayer
  split
  · next hnone =>
      refine ⟨fun _ hmem => ?_, fun _ => rfl⟩
      obtain ⟨e, he, hid⟩ := List.mem_map.mp hmem
      simpa [hid] using List.find?_eq_none.mp hnone e he
  · next found hfound =>
      refine ⟨fun heq => absurd heq (by simp), fun hne => absurd ?_ hne⟩
      exact List.mem_map.mpr
        ⟨found, List.mem_of_find?_eq_some hfound, by simpa using List.find?_some hfound⟩

/-! ## The answered calls -/

theorem lastSaved_cons (c : Call × Answer) :
    lastSaved id (c :: past) = (savedUnder id c).or (lastSaved id past) := by
  rw [lastSaved, List.findSome?_cons]
  cases h : savedUnder id c with
  | none => rfl
  | some row => rfl

theorem name_current : (current name id past).name = name := by
  unfold current
  split <;> rfl

/-- Only a save changes what was last saved. -/
theorem current_cons_of_none {c : Call × Answer} (h : savedUnder id c = none) :
    current name id (c :: past) = current name id past := by
  rw [current, lastSaved_cons, h, Option.none_or]
  rfl

theorem current_cons_of_some {c : Call × Answer} (h : savedUnder id c = some row) :
    current name id (c :: past) = { row with name := name } := by
  rw [current, lastSaved_cons, h, Option.some_or]

/-! ## Key, name and id in step -/

/-- A store and the calls it has answered. -/
structure Faithful (db : PlayerStore) (past : List (Call × Answer)) : Prop where
  zero_le : 0 ≤ db.nextId
  one_le : ∀ e ∈ db.rows, 1 ≤ e.2.id
  /-- Every row is the last save under its id, with its key for a name. -/
  stands : ∀ e ∈ db.rows, e.2 = current e.1 e.2.id past
  /-- The entries are the characters that calls have created. -/
  created : ∀ name id, (Call.create name, Answer.created (some id)) ∈ past ↔
    ∃ row, (name, row) ∈ db.rows ∧ row.id = id
  /-- No save has found an id that is still to come. -/
  unsaved : ∀ id, db.nextId < id → lastSaved id past = none

theorem Faithful.name_eq (h : Faithful db past) (he : e ∈ db.rows) : e.2.name = e.1 := by
  rw [h.stands e he, name_current]

/-- Every invariant speaks of the entries, not of their order. -/
theorem Faithful.reorder (h : Faithful db past) (hrows : db'.rows.Perm db.rows)
    (hnext : db'.nextId = db.nextId) : Faithful db' past where
  zero_le := by rw [hnext]; exact h.zero_le
  one_le := fun e he => h.one_le e (hrows.mem_iff.mp he)
  stands := fun e he => h.stands e (hrows.mem_iff.mp he)
  created := by
    intro name id
    simp only [hrows.mem_iff]
    exact h.created name id
  unsaved := by rw [hnext]; exact h.unsaved

/-- An answer that creates nothing and saves nothing. -/
theorem Faithful.idle (h : Faithful db past) {c : Call × Answer} (hsave : ∀ id, savedUnder id c = none)
    (hcreate : ∀ name id, c ≠ (.create name, .created (some id))) : Faithful db (c :: past) where
  zero_le := h.zero_le
  one_le := h.one_le
  stands := by
    intro e he
    rw [current_cons_of_none (hsave e.2.id)]
    exact h.stands e he
  created := by
    intro name id
    rw [List.mem_cons, or_iff_right (hcreate name id).symm]
    exact h.created name id
  unsaved := by
    intro id hid
    rw [lastSaved_cons, hsave id, Option.none_or]
    exact h.unsaved id hid

/-- A new character: its id is beyond every save, so its row is the initial one. -/
theorem Faithful.createPlayer (h : Faithful db past)
    (hcreate : db.createPlayer name = some (db', id)) :
    Faithful db' ((.create name, .created (some id)) :: past) := by
  obtain ⟨hid, hnext, hrows⟩ := createPlayer_eq_some hcreate
  have hzero := h.zero_le
  have hmem : ∀ e, e ∈ db'.rows ↔ e ∈ db.rows ∨ e = (name, initialRow id name) := by
    intro e
    rw [hrows, List.mem_append, List.mem_singleton]
    rfl
  refine ⟨by omega, ?_, ?_, ?_, ?_⟩
  · intro e he
    rcases (hmem e).mp he with he | rfl
    · exact h.one_le e he
    · exact show 1 ≤ id by omega
  · intro e he
    rw [current_cons_of_none rfl]
    rcases (hmem e).mp he with he | rfl
    · exact h.stands e he
    · -- no save has found this id yet
      rw [current, show (initialRow id name).id = id from rfl, h.unsaved id (by omega)]
  · intro name' id'
    simp only [List.mem_cons, hmem, Prod.mk.injEq, Call.create.injEq, Answer.created.injEq,
      Option.some.injEq]
    constructor
    · rintro (⟨rfl, rfl⟩ | hpast)
      · exact ⟨_, .inr ⟨rfl, rfl⟩, rfl⟩
      · obtain ⟨row, hrow, hrid⟩ := (h.created name' id').mp hpast
        exact ⟨row, .inl hrow, hrid⟩
    · rintro ⟨row, hrow | ⟨rfl, rfl⟩, hrid⟩
      · exact .inr ((h.created name' id').mpr ⟨row, hrow, hrid⟩)
      · exact .inl ⟨rfl, hrid.symm⟩
  · intro id' hlt
    rw [lastSaved_cons, show savedUnder id' (.create name, .created (some id)) = none from rfl,
      Option.none_or]
    exact h.unsaved id' (by omega)

/-- A save: the one row with this id is the last save now, the others are as
they were. -/
theorem Faithful.savePlayer (h : Faithful db past) (hsave : db.savePlayer row = some db') :
    Faithful db' ((.save row, .saved true) :: past) := by
  obtain ⟨hnext, -, hrows⟩ := savePlayer_spec hsave
  have hle := id_le_of_savePlayer hsave
  have hzero := h.zero_le
  have hunder : ∀ id, savedUnder id (.save row, .saved true)
      = if row.id = id then some row else none := fun _ => rfl
  -- an entry of the new store, with the entry it was before
  have hmem : ∀ e ∈ db'.rows, ∃ e₀ ∈ db.rows, e.1 = e₀.1 ∧ e.2.id = e₀.2.id ∧
      e.2 = current e.1 e.2.id ((.save row, .saved true) :: past) := by
    intro e he
    rw [hrows] at he
    obtain ⟨e₀, he₀, rfl⟩ := List.mem_map.mp he
    refine ⟨e₀, he₀, ?_⟩
    by_cases hid : e₀.2.id = row.id
    · -- this row takes the values of the call, and its key for a name
      rw [if_pos hid]
      refine ⟨rfl, hid.symm, ?_⟩
      rw [current_cons_of_some ((hunder row.id).trans (if_pos rfl))]
    · rw [if_neg hid]
      refine ⟨rfl, rfl, ?_⟩
      rw [current_cons_of_none ((hunder e₀.2.id).trans (if_neg (Ne.symm hid)))]
      exact h.stands e₀ he₀
  refine ⟨by omega, ?_, ?_, ?_, ?_⟩
  · intro e he
    obtain ⟨e₀, he₀, -, hid, -⟩ := hmem e he
    rw [hid]
    exact h.one_le e₀ he₀
  · intro e he
    obtain ⟨-, -, -, -, hcur⟩ := hmem e he
    exact hcur
  · intro name id
    simp only [List.mem_cons, Prod.mk.injEq, reduceCtorEq, false_and, false_or]
    rw [h.created name id]
    constructor
    · rintro ⟨r, hr, rfl⟩
      by_cases hid : r.id = row.id
      · refine ⟨{ row with name := name }, ?_, hid.symm⟩
        rw [hrows]
        exact List.mem_map.mpr ⟨(name, r), hr, if_pos hid⟩
      · exact ⟨r, mem_savePlayer_of_ne hsave hr hid, rfl⟩
    · rintro ⟨r, hr, rfl⟩
      obtain ⟨e₀, he₀, hname, hid, -⟩ := hmem (name, r) hr
      obtain rfl : name = e₀.1 := hname
      exact ⟨e₀.2, he₀, hid.symm⟩
  · intro id hlt
    rw [lastSaved_cons, hunder id, if_neg (by omega), Option.none_or]
    exact h.unsaved id (by omega)

theorem Faithful.call (h : Faithful db past) (c : Call) :
    Faithful (db.call c).1 ((c, (db.call c).2) :: past) := by
  cases c with
  | load name => exact h.idle (fun _ => rfl) (by simp [PlayerStore.call])
  | create name =>
      cases hcreate : db.createPlayer name with
      | none =>
          simp only [PlayerStore.call, hcreate]
          exact h.idle (fun _ => rfl) (by simp)
      | some new =>
          simp only [PlayerStore.call, hcreate]
          exact h.createPlayer hcreate
  | save row =>
      cases hsave : db.savePlayer row with
      | none =>
          simp only [PlayerStore.call, hsave]
          exact h.idle (fun _ => rfl) (by simp)
      | some db' =>
          simp only [PlayerStore.call, hsave]
          exact h.savePlayer hsave

/-- Induction on the calls. -/
theorem Served.faithful (h : Served db past) : Faithful db past := by
  induction h with
  | init =>
      refine ⟨Int.le_refl _, List.forall_mem_nil _, List.forall_mem_nil _, ?_, fun _ _ => rfl⟩
      intro name id
      simp [PlayerStore.init]
  | call c _ ih => exact ih.call c
  | reorder _ hrows hnext ih => exact ih.reorder hrows hnext

/-! ## The answers -/

theorem call_create_of_mem (h : name ∈ db.rows.map Prod.fst) :
    db.call (.create name) = (db, .created none) := by
  rw [call, createPlayer_eq_none_iff.mpr h]

/-- A new name gets a row of its own under an id that no call has returned. -/
theorem Faithful.call_create_of_notMem (h : Faithful db past) (hname : name ∉ db.rows.map Prod.fst) :
    ∃ db' id, db.call (.create name) = (db', .created (some id)) ∧
      db'.rows = db.rows ++ [(name, initialRow id name)] ∧ (∀ e ∈ db.rows, e.2.id ≠ id) ∧
      ∀ name', (Call.create name', Answer.created (some id)) ∉ past := by
  cases hcreate : db.createPlayer name with
  | none => exact absurd (createPlayer_eq_none_iff.mp hcreate) hname
  | some new =>
      obtain ⟨db', id⟩ := new
      obtain ⟨hid, -, hrows⟩ := createPlayer_eq_some hcreate
      have hfresh : ∀ e ∈ db.rows, e.2.id ≠ id := by
        intro e he heq
        have hle := db.le_nextId e he
        omega
      refine ⟨db', id, by rw [PlayerStore.call, hcreate], hrows, hfresh, ?_⟩
      intro name' hpast
      obtain ⟨row, hrow, hrid⟩ := (h.created name' id).mp hpast
      exact hfresh _ hrow hrid

theorem call_save_of_notMem (h : row.id ∉ db.rows.map fun e => e.2.id) :
    db.call (.save row) = (db, .saved false) := by
  rw [call, savePlayer_eq_none_iff.mpr h]

/-- The row with this id takes the caller's values and stays under its name. -/
theorem Faithful.call_save_of_mem (h : Faithful db past)
    (hid : row.id ∈ db.rows.map fun e => e.2.id) :
    ∃ db', db.call (.save row) = (db', .saved true) ∧ db'.nextId = db.nextId ∧
      db'.rows = db.rows.map fun e => if e.2.id = row.id then (e.1, e.2.saved row) else e := by
  cases hsave : db.savePlayer row with
  | none => exact absurd hid (savePlayer_eq_none_iff.mp hsave)
  | some db' =>
      obtain ⟨hnext, -, hrows⟩ := savePlayer_spec hsave
      refine ⟨db', by rw [PlayerStore.call, hsave], hnext, ?_⟩
      rw [hrows]
      apply List.map_congr_left
      intro e he
      split
      · next heq => rw [PlayerRow.saved, ← h.name_eq he, heq]
      · rfl

/-- A load answers with the last save under the character's id. -/
theorem Faithful.call_load (h : Faithful db past) (name : Bytes) :
    ∃ found, db.call (.load name) = (db, .loaded found) ∧
      (found = none ↔ name ∉ db.rows.map Prod.fst) ∧
      ∀ row, found = some row →
        ∃ id, (Call.create name, Answer.created (some id)) ∈ past ∧ row = current name id past := by
  refine ⟨db.loadPlayerByName name, rfl, ?_, ?_⟩
  · rw [← isSome_loadPlayerByName, Option.not_isSome_iff_eq_none]
  · intro row hrow
    have hmem := loadPlayerByName_eq_some_iff.mp hrow
    exact ⟨row.id, (h.created name row.id).mpr ⟨row, hmem, rfl⟩, h.stands _ hmem⟩

/-- **The store is a faithful map**, after any calls: names are the keys, ids are
distinct and between 1 and `g_memNextId`; `CreatePlayer` fails on an existing
name, changing nothing, and adds one row with a fresh id otherwise; `SavePlayer`
succeeds on an existing id, and writes the columns of that character alone;
`LoadPlayerByName` changes nothing, finds every existing name, and returns the
last successful save of the id it was created with, or the initial row. -/
theorem memRows_faithful (h : Served db past) :
    ((∀ e ∈ db.rows, e.2.name = e.1 ∧ 1 ≤ e.2.id ∧ e.2.id ≤ db.nextId) ∧
      (db.rows.map Prod.fst).Nodup ∧ (db.rows.map fun e => e.2.id).Nodup) ∧
    (∀ name, (name ∈ db.rows.map Prod.fst → db.call (.create name) = (db, .created none)) ∧
      (name ∉ db.rows.map Prod.fst → ∃ db' id, db.call (.create name) = (db', .created (some id)) ∧
        db'.rows = db.rows ++ [(name, initialRow id name)] ∧ (∀ e ∈ db.rows, e.2.id ≠ id) ∧
        ∀ name', (Call.create name', Answer.created (some id)) ∉ past)) ∧
    (∀ row : PlayerRow,
      (row.id ∉ (db.rows.map fun e => e.2.id) → db.call (.save row) = (db, .saved false)) ∧
      (row.id ∈ (db.rows.map fun e => e.2.id) → ∃ db', db.call (.save row) = (db', .saved true) ∧
        db'.nextId = db.nextId ∧
        db'.rows = db.rows.map fun e => if e.2.id = row.id then (e.1, e.2.saved row) else e)) ∧
    ∀ name, ∃ found, db.call (.load name) = (db, .loaded found) ∧
      (found = none ↔ name ∉ db.rows.map Prod.fst) ∧
      ∀ row, found = some row →
        ∃ id, (Call.create name, Answer.created (some id)) ∈ past ∧
          row = current name id past := by
  have hf := h.faithful
  refine ⟨⟨?_, db.names, db.ids⟩, ?_, ?_, hf.call_load⟩
  · exact fun e he => ⟨hf.name_eq he, hf.one_le e he, db.le_nextId e he⟩
  · exact fun name => ⟨call_create_of_mem, hf.call_create_of_notMem⟩
  · exact fun row => ⟨call_save_of_notMem, hf.call_save_of_mem⟩

/-- A character is created and saved under another name; the name stays, and the
next load finds the saved level. -/
theorem memRows_faithful_renamed :
    let alice : Bytes := [97]
    let row : PlayerRow := ⟨1, [98], 7, 30, 90, 120, 4, 5⟩
    let db := ((init.call (.create alice)).1.call (.save row)).1
    (db.call (.load alice)).2 = .loaded (some { row with name := alice }) ∧
      db.rows.map Prod.fst = [alice] ∧
      ∀ e ∈ db.rows, e.2.name = e.1 ∧ 1 ≤ e.2.id ∧ e.2.id ≤ db.nextId := by
  have h := memRows_faithful (.call (.save ⟨1, [98], 7, 30, 90, 120, 4, 5⟩)
    (.call (.create [97]) .init))
  exact ⟨by decide, by decide, h.1.1⟩

end PlayerStore

end Mmorpg
