/-
Departures, and what a save is stamped with.

A row that was saved when its character left is stamped with the number of
departures the character had then. `Tracks` is what such a stamp promises; the
promise survives everything but the next departure, which makes it old.
-/
import SimplestMmorpg.Game.GameWorld

set_option autoImplicit false

namespace Mmorpg

namespace GameWorld

variable {g g' : GameWorld} {p left : Player} {row row' : PlayerRow} {n : ℕ} {d : Int}

theorem departureCount_append (hd : g'.departures = g.departures ++ [p]) (d : Int) :
    g'.departureCount d = g.departureCount d + if p.dbId = d then 1 else 0 := by
  simp only [departureCount, hd, List.countP_append, List.countP_cons, List.countP_nil,
    Nat.zero_add, decide_eq_true_eq]

theorem lastDeparture_append (hd : g'.departures = g.departures ++ [p]) (d : Int) :
    g'.lastDeparture d = if p.dbId = d then some p else g.lastDeparture d := by
  unfold lastDeparture
  rw [hd, List.filter_append]
  split
  · next h => rw [List.filter_cons_of_pos (by simpa using h), List.filter_nil, List.getLast?_concat]
  · next h => rw [List.filter_cons_of_neg (by simpa using h), List.filter_nil, List.append_nil]

/-- A character that never left has no last departure. -/
theorem lastDeparture_eq_none (h : ∀ p ∈ g.departures, p.dbId ≠ d) : g.lastDeparture d = none := by
  have hnil : (g.departures.filter fun p => p.dbId = d) = [] := by
    apply List.filter_eq_nil_iff.mpr
    intro p hp
    simpa using h p hp
  rw [lastDeparture, hnil, List.getLast?_nil]

/-! ## Stamps -/

/-- **What a stamp promises.** The row belongs to a departure there was, and if
it is the last one, the row is what the character left with. While the
character is claimed, nothing is promised: it is in the world, and saved again
when it leaves. -/
structure Tracks (g : GameWorld) (row : PlayerRow) (n : ℕ) : Prop where
  le : n ≤ g.departureCount row.id
  last : n = g.departureCount row.id → row.id ∉ g.activeDbIds →
    ∀ left, g.lastDeparture row.id = some left → row.SameState left.snapshot

namespace Tracks

/-- Claims may be added. -/
theorem congr (h : g.Tracks row n) (hd : g'.departures = g.departures)
    (ha : ∀ d ∈ g.activeDbIds, d ∈ g'.activeDbIds) : g'.Tracks row n := by
  have hcount : g'.departureCount row.id = g.departureCount row.id := by
    rw [departureCount, hd, departureCount]
  have hlast : g'.lastDeparture row.id = g.lastDeparture row.id := by
    rw [lastDeparture, hd, lastDeparture]
  refine ⟨by rw [hcount]; exact h.le, ?_⟩
  intro hn hfree left hleft
  apply h.last
  · rw [hn, hcount]
  · exact fun hmem => hfree (ha _ hmem)
  · rw [← hlast, hleft]

/-- The name of a row does not matter. -/
theorem sameState (h : g.Tracks row n) (hs : row'.SameState row) : g.Tracks row' n := by
  refine ⟨by rw [hs.id]; exact h.le, ?_⟩
  intro hn hfree left hleft
  rw [hs.id] at hn hfree hleft
  exact hs.trans (h.last hn hfree left hleft)

/-- A departure makes what is stamped before it old, and leaves the other
characters alone. -/
theorem leave (h : g.Tracks row n) (hd : g'.departures = g.departures ++ [p])
    (ha : ∀ d ∈ g.activeDbIds, d ≠ p.dbId → d ∈ g'.activeDbIds) : g'.Tracks row n := by
  have hcount := departureCount_append hd row.id
  have hle := h.le
  by_cases hid : p.dbId = row.id
  · rw [if_pos hid] at hcount
    refine ⟨by omega, ?_⟩
    intro hn
    omega
  · rw [if_neg hid, Nat.add_zero] at hcount
    refine ⟨by omega, ?_⟩
    intro hn hfree left hleft
    rw [lastDeparture_append hd, if_neg hid] at hleft
    apply h.last
    · rw [hn, hcount]
    · exact fun hmem => hfree (ha _ hmem (Ne.symm hid))
    · exact hleft

/-- The save of a departure carries its stamp. -/
theorem departed (hd : g'.departures = g.departures ++ [p]) :
    g'.Tracks p.snapshot (g'.departureCount p.dbId) := by
  refine ⟨Nat.le_refl _, ?_⟩
  intro _ _ left hleft
  have hlast : g'.lastDeparture p.dbId = some left := hleft
  rw [lastDeparture_append hd, if_pos rfl] at hlast
  rw [← Option.some.inj hlast]
  rfl

/-- Nothing is promised of a character that is claimed, or that never left. -/
theorem of_claimed (hle : n ≤ g.departureCount row.id) (h : row.id ∈ g.activeDbIds) :
    g.Tracks row n :=
  ⟨hle, fun _ hfree => absurd h hfree⟩

theorem of_new (hle : n ≤ g.departureCount row.id) (h : ∀ p ∈ g.departures, p.dbId ≠ row.id) :
    g.Tracks row n := by
  refine ⟨hle, ?_⟩
  intro _ _ left hleft
  rw [lastDeparture_eq_none h] at hleft
  exact absurd hleft (by simp)

end Tracks

/-- `SaveAllPlayers` only adds saves of players in the world. -/
theorem saveAllPlayers_spec (env : Env) (g : GameWorld) :
    (g.saveAllPlayers env).departures = g.departures ∧
      (g.saveAllPlayers env).activeDbIds = g.activeDbIds ∧
      ∀ t ∈ (g.saveAllPlayers env).saveQueue, t ∈ g.saveQueue ∨
        ∃ i p, g.world.getPlayer i = some p ∧ t = .savePlayer p.snapshot (g.departureCount p.dbId) := by
  have hloop : ∀ (rows : List PlayerRow) (g' : GameWorld),
      let g'' := rows.foldl (fun gw row => gw.postSaveTask (.savePlayer row (gw.departureCount row.id))) g'
      g''.departures = g'.departures ∧ g''.activeDbIds = g'.activeDbIds ∧
        ∀ t ∈ g''.saveQueue, t ∈ g'.saveQueue ∨
          ∃ row ∈ rows, t = .savePlayer row (g'.departureCount row.id) := by
    intro rows
    induction rows with
    | nil => exact fun g' => ⟨rfl, rfl, fun t ht => .inl ht⟩
    | cons row rows ih =>
        intro g'
        obtain ⟨hd, ha, hq⟩ := ih (g'.postSaveTask (.savePlayer row (g'.departureCount row.id)))
        refine ⟨hd, ha, ?_⟩
        intro t ht
        rcases hq t ht with ht | ⟨row', hrow', rfl⟩
        · rcases List.mem_append.mp ht with ht | ht
          · exact .inl ht
          · exact .inr ⟨row, List.mem_cons_self, List.mem_singleton.mp ht⟩
        · exact .inr ⟨row', List.mem_cons_of_mem _ hrow', rfl⟩
  obtain ⟨hd, ha, hq⟩ := hloop ((env.iter (g.world.players.entries.map (·.id))).filterMap
    fun id => (g.world.getPlayer id).map (·.snapshot)) g
  refine ⟨hd, ha, ?_⟩
  intro t ht
  rcases hq t ht with ht | ⟨row, hrow, rfl⟩
  · exact .inl ht
  · right
    obtain ⟨i, -, hi⟩ := List.mem_filterMap.mp hrow
    obtain ⟨p, hp, rfl⟩ := Option.map_eq_some_iff.mp hi
    exact ⟨i, p, hp, rfl⟩

end GameWorld

end Mmorpg
