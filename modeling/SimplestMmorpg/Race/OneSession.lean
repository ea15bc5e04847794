/-
One session per character.

A claimed database id has one owner at a time: the login that claimed it and has
not yet put the player into the table, the entry of the table, or the disconnect
that will release it. A session id has one owner too: the pool, the accept that
took it, the session in the table, or the disconnect that will put it back. So at
most one disconnect works on an id, and the entry it takes out is the last one
with the database id it releases.
-/
import SimplestMmorpg.Game.Login
import SimplestMmorpg.Race.Membership

set_option autoImplicit false

namespace Mmorpg.Worker

open Transition Interleave

variable {c : Config Registry Worker} {i : ℕ} {t : Worker} {r r' : Registry} {env : Env}
  {id key : ObjectID} {row : PlayerRow}

/-! ## What a worker owns -/

/-- Where a worker is with a session id. -/
inductive IdStage where
  | idle
  | seen (id : ObjectID) (conn : ConnId)
  | closing (id : ObjectID) (conn : ConnId)
  | free (id : ObjectID)

/-- Where it is with a database id. -/
inductive DbStage where
  | idle
  | claimed (dbId : Int)
  | leaving (id : ObjectID) (dbId : Int)
  | left (dbId : Int)

def idStage : Worker → IdStage
  | .login _ _ _ _ => .idle
  | .accept (.store id) => .free id
  | .accept _ => .idle
  | .disconnect _ key pc =>
    match pc with
    | .lookup => .idle
    | .tryMarkDisconnected conn => .seen key conn
    | .getPlayer conn => .closing key conn
    | .sendDisappear conn _ => .closing key conn
    | .release conn _ => .closing key conn
    | .sectorErase conn _ => .closing key conn
    | .removePlayer conn _ => .closing key conn
    | .releaseDbId conn _ => .closing key conn
    | .postSaveTask conn _ => .closing key conn
    | .clearSession conn => .closing key conn
    | .freeSessionId => .free key
    | .done => .idle

def dbStage : Worker → DbStage
  | .login _ _ row pc =>
    match pc with
    | .tryClaimNearby _ => .claimed row.id
    | .sectorInsert _ _ => .claimed row.id
    | .insertPlayer _ _ => .claimed row.id
    | _ => .idle
  | .accept _ => .idle
  | .disconnect _ key pc =>
    match pc with
    | .sendDisappear _ player => .leaving key player.dbId
    | .release _ player => .leaving key player.dbId
    | .sectorErase _ player => .leaving key player.dbId
    | .removePlayer _ player => .leaving key player.dbId
    | .releaseDbId _ player => .left player.dbId
    | _ => .idle

def IdStage.owned : IdStage → Option ObjectID
  | .idle => none
  | .seen _ _ => none
  | .closing id _ => some id
  | .free id => some id

def DbStage.owned : DbStage → Option Int
  | .idle => none
  | .claimed dbId => some dbId
  | .leaving _ dbId => some dbId
  | .left dbId => some dbId

def IdStage.Fits (r : Registry) : IdStage → Prop
  | .idle => True
  | .seen id conn => r.marked conn = true ∨ r.sessions id = some conn
  | .closing id conn => r.sessions id = some conn ∧ r.marked conn = true
  | .free id => id ∉ r.availableIds ∧ r.sessions id = none

/-- The entries of `m_players`. -/
def entries (r : Registry) : List Player := r.game.world.players.entries

def DbStage.Fits (r : Registry) : DbStage → Prop
  | .idle => True
  | .claimed dbId => dbId ∈ r.game.activeDbIds ∧ ∀ p ∈ entries r, p.dbId ≠ dbId
  | .leaving id dbId => dbId ∈ r.game.activeDbIds ∧ ∀ p ∈ entries r, p.dbId = dbId → p.id = id
  | .left dbId => dbId ∈ r.game.activeDbIds ∧ ∀ p ∈ entries r, p.dbId ≠ dbId

/-! ## The session ids -/

/-- Every session id has one owner. -/
structure IdsOwned (c : Config Registry Worker) : Prop where
  nodup : c.shared.availableIds.Nodup
  available : ∀ id ∈ c.shared.availableIds, c.shared.sessions id = none
  exclusive : Exclusive (fun t => (idStage t).owned) c
  each : Each (fun r t => (idStage t).Fits r) c

/-- A step that leaves `m_sessions`, the pool and the marks alone. -/
structure SameIds (r r' : Registry) : Prop where
  sessions : r'.sessions = r.sessions
  availableIds : r'.availableIds = r.availableIds
  marked : r'.marked = r.marked

theorem SameIds.refl (r : Registry) : SameIds r r := ⟨rfl, rfl, rfl⟩

theorem SameIds.fits (h : SameIds r r') (st : IdStage) : st.Fits r' ↔ st.Fits r := by
  cases st <;> simp only [IdStage.Fits, h.sessions, h.availableIds, h.marked]

theorem sameIds_actLogin (env : Env) (id : ObjectID) (row : PlayerRow) (r : Registry)
    (pc : LoginPc) : SameIds r (actLogin env id row r pc).1 := by
  cases pc <;> simp only [actLogin] <;> (try split) <;> exact ⟨rfl, rfl, rfl⟩

namespace IdsOwned

/-- The owner of an id does not change. -/
theorem quiet (h : IdsOwned c) (ht : c.threads[i]? = some t)
    (hsame : SameIds c.shared (act c.shared t).1)
    (hkeep : ∀ id, (idStage (act c.shared t).2).owned = some id → (idStage t).owned = some id)
    (hown : (idStage (act c.shared t).2).Fits c.shared) : IdsOwned (step act c i) where
  nodup := by
    rw [shared_step ht, hsame.availableIds]
    exact h.nodup
  available := by
    rw [shared_step ht, hsame.availableIds, hsame.sessions]
    exact h.available
  exclusive := h.exclusive.step ht fun id hid => .inl (hkeep id hid)
  each := h.each.step ht ((hsame.fits _).mpr hown) fun _ _ _ _ hu => (hsame.fits _).mpr hu

variable {conn : ConnId}

/-- An id is taken from the pool. -/
theorem allocSessionId (h : IdsOwned c) (ht : c.threads[i]? = some (.accept .allocSessionId)) :
    IdsOwned (step act c i) := by
  cases havail : c.shared.availableIds with
  | nil =>
      have hact : act c.shared (.accept .allocSessionId) = (c.shared, .accept .done) := by
        simp only [act, actAccept, havail]
      refine h.quiet ht ?_ ?_ ?_
      · rw [hact]
        exact .refl _
      · rw [hact]
        exact fun _ hid => absurd hid (by simp [idStage, IdStage.owned])
      · rw [hact]
        trivial
  | cons id rest =>
      have hact : act c.shared (.accept .allocSessionId) =
          ({ c.shared with availableIds := rest }, .accept (.store id)) := by
        simp only [act, actAccept, havail]
      have hnodup := h.nodup
      rw [havail, List.nodup_cons] at hnodup
      have hfree := h.available id (by rw [havail]; exact List.mem_cons_self)
      have hsub : ∀ k ∈ rest, k ∈ c.shared.availableIds := fun k hk => by
        rw [havail]
        exact List.mem_cons_of_mem _ hk
      refine ⟨?_, ?_, h.exclusive.step ht ?_, h.each.step ht ?_ ?_⟩
      · rw [shared_step ht, hact]
        exact hnodup.2
      · rw [shared_step ht, hact]
        exact fun k hk => h.available k (hsub k hk)
      · rw [hact]
        intro a ha
        obtain rfl := Option.some.inj ha
        right
        -- what is in the pool belongs to no worker
        intro j u _ hu hown
        have hfits : (idStage u).Fits c.shared := h.each j u hu
        cases hst : idStage u with
        | idle => rw [hst] at hown; exact absurd hown (by simp [IdStage.owned])
        | seen k conn => rw [hst] at hown; exact absurd hown (by simp [IdStage.owned])
        | closing k conn =>
            rw [hst] at hown hfits
            obtain rfl := Option.some.inj hown
            exact absurd (hfree.symm.trans hfits.1) (by simp)
        | free k =>
            rw [hst] at hown hfits
            obtain rfl := Option.some.inj hown
            exact hfits.1 (by rw [havail]; exact List.mem_cons_self)
      · rw [hact]
        exact ⟨hnodup.1, hfree⟩
      · rw [hact]
        intro j u _ _ hfits
        cases hst : idStage u with
        | free k =>
            rw [hst] at hfits
            exact ⟨fun hk => hfits.1 (hsub k hk), hfits.2⟩
        | _ =>
            rw [hst] at hfits
            exact hfits

/-- The accepted session is put into its slot. -/
theorem store (h : IdsOwned c) (ht : c.threads[i]? = some (.accept (.store id))) :
    IdsOwned (step act c i) := by
  obtain ⟨hout, hempty⟩ : id ∉ c.shared.availableIds ∧ c.shared.sessions id = none :=
    h.each i _ ht
  have hsessions : ∀ k, (act c.shared (.accept (.store id))).1.sessions k =
      if k = id then some c.shared.nextConn else c.shared.sessions k :=
    fun k => Function.update_apply _ _ _ _
  refine ⟨?_, ?_, h.exclusive.step ht ?_, h.each.step ht trivial ?_⟩
  · rw [shared_step ht]
    exact h.nodup
  · rw [shared_step ht]
    intro k hk
    have hne : k ≠ id := fun heq => hout (heq ▸ hk)
    rw [hsessions, if_neg hne]
    exact h.available k hk
  · exact fun a ha => absurd ha (by simp [act, actAccept, idStage, IdStage.owned])
  · intro j u hj hu hfits
    have hother := h.exclusive i j _ u id (Ne.symm hj) ht hu rfl
    dsimp only at hother hfits ⊢
    cases hst : idStage u with
    | idle => trivial
    | seen k conn =>
        rw [hst] at hfits
        rcases hfits with hmark | hslot
        · exact .inl hmark
        · refine .inr ?_
          have hne : k ≠ id := by
            rintro rfl
            exact absurd (hempty.symm.trans hslot) (by simp)
          rw [hsessions, if_neg hne, hslot]
    | closing k conn =>
        rw [hst] at hfits
        have hne : k ≠ id := by
          rintro rfl
          exact absurd (hempty.symm.trans hfits.1) (by simp)
        refine ⟨?_, hfits.2⟩
        rw [hsessions, if_neg hne, hfits.1]
    | free k =>
        rw [hst] at hfits hother
        have hne : k ≠ id := fun heq => hother (by rw [heq]; rfl)
        refine ⟨hfits.1, ?_⟩
        rw [hsessions, if_neg hne, hfits.2]

/-- A session is marked by the first worker that comes, and only by that one. -/
theorem tryMarkDisconnected (h : IdsOwned c)
    (ht : c.threads[i]? = some (.disconnect env key (.tryMarkDisconnected conn))) :
    IdsOwned (step act c i) := by
  have hseen : c.shared.marked conn = true ∨ c.shared.sessions key = some conn := h.each i _ ht
  by_cases hm : c.shared.marked conn = true
  · have hact : act c.shared (.disconnect env key (.tryMarkDisconnected conn)) =
        (c.shared, .disconnect env key .done) := by
      simp only [act, actDisconnect, if_pos hm]
    refine h.quiet ht ?_ ?_ ?_
    · rw [hact]
      exact .refl _
    · rw [hact]
      exact fun _ hid => absurd hid (by simp [idStage, IdStage.owned])
    · rw [hact]
      trivial
  · have hslot : c.shared.sessions key = some conn := by
      rcases hseen with hmark | hslot
      · exact absurd hmark hm
      · exact hslot
    have hact : act c.shared (.disconnect env key (.tryMarkDisconnected conn)) =
        ({ c.shared with marked := Function.update c.shared.marked conn true },
          .disconnect env key (.getPlayer conn)) := by
      simp only [act, actDisconnect, if_neg hm]
    have hmarked : ∀ d, c.shared.marked d = true →
        Function.update c.shared.marked conn true d = true := by
      intro d hd
      by_cases hdc : d = conn
      · rw [hdc, Function.update_self]
      · rw [Function.update_of_ne hdc, hd]
    refine ⟨?_, ?_, h.exclusive.step ht ?_, h.each.step ht ?_ ?_⟩
    · rw [shared_step ht, hact]
      exact h.nodup
    · rw [shared_step ht, hact]
      exact h.available
    · rw [hact]
      intro a ha
      obtain rfl := Option.some.inj ha
      right
      intro j u _ hu hown
      have hfits : (idStage u).Fits c.shared := h.each j u hu
      cases hst : idStage u with
      | idle => rw [hst] at hown; exact absurd hown (by simp [IdStage.owned])
      | seen k d => rw [hst] at hown; exact absurd hown (by simp [IdStage.owned])
      | closing k d =>
          -- it would be the same session, and that is not marked yet
          rw [hst] at hown hfits
          obtain rfl := Option.some.inj hown
          obtain rfl := Option.some.inj (hslot.symm.trans hfits.1)
          exact hm hfits.2
      | free k =>
          rw [hst] at hown hfits
          obtain rfl := Option.some.inj hown
          exact absurd (hfits.2.symm.trans hslot) (by simp)
    · rw [hact]
      exact ⟨hslot, Function.update_self _ _ _⟩
    · rw [hact]
      intro j u _ _ hfits
      cases hst : idStage u with
      | idle => trivial
      | seen k d =>
          rw [hst] at hfits
          exact hfits.imp (hmarked d) fun hs => hs
      | closing k d =>
          rw [hst] at hfits
          exact ⟨hfits.1, hmarked d hfits.2⟩
      | free k =>
          rw [hst] at hfits
          exact hfits

/-- The slot is cleared, and the id is not in the pool yet. -/
theorem clearSession (h : IdsOwned c)
    (ht : c.threads[i]? = some (.disconnect env key (.clearSession conn))) :
    IdsOwned (step act c i) := by
  obtain ⟨hslot, hmark⟩ : c.shared.sessions key = some conn ∧ c.shared.marked conn = true :=
    h.each i _ ht
  have hout : key ∉ c.shared.availableIds := fun hk =>
    absurd ((h.available key hk).symm.trans hslot) (by simp)
  have hsessions : ∀ k, (act c.shared (.disconnect env key (.clearSession conn))).1.sessions k =
      if k = key then none else c.shared.sessions k :=
    fun k => Function.update_apply _ _ _ _
  refine ⟨?_, ?_, h.exclusive.step ht ?_, h.each.step ht ⟨hout, ?_⟩ ?_⟩
  · rw [shared_step ht]
    exact h.nodup
  · rw [shared_step ht]
    intro k hk
    rw [hsessions]
    split
    · rfl
    · exact h.available k hk
  · exact fun a ha => .inl ha
  · rw [hsessions, if_pos rfl]
  · intro j u hj hu hfits
    have hother := h.exclusive i j _ u key (Ne.symm hj) ht hu rfl
    dsimp only at hother hfits ⊢
    cases hst : idStage u with
    | idle => trivial
    | seen k d =>
        rw [hst] at hfits
        rcases hfits with hm | hs
        · exact .inl hm
        · by_cases hk : k = key
          · rw [hk, hslot] at hs
            rw [← Option.some.inj hs]
            exact .inl hmark
          · refine .inr ?_
            rw [hsessions, if_neg hk, hs]
    | closing k d =>
        rw [hst] at hfits hother
        have hne : k ≠ key := fun heq => hother (by rw [heq]; rfl)
        refine ⟨?_, hfits.2⟩
        rw [hsessions, if_neg hne, hfits.1]
    | free k =>
        rw [hst] at hfits
        refine ⟨hfits.1, ?_⟩
        rw [hsessions]
        split
        · rfl
        · exact hfits.2

/-- The id goes back to the pool. -/
theorem freeSessionId (h : IdsOwned c)
    (ht : c.threads[i]? = some (.disconnect env key .freeSessionId)) :
    IdsOwned (step act c i) := by
  obtain ⟨hout, hempty⟩ : key ∉ c.shared.availableIds ∧ c.shared.sessions key = none :=
    h.each i _ ht
  refine ⟨?_, ?_, h.exclusive.step ht ?_, h.each.step ht trivial ?_⟩
  · rw [shared_step ht]
    refine List.nodup_append.mpr ⟨h.nodup, by simp, fun x hx y hy heq => hout ?_⟩
    rw [← List.mem_singleton.mp hy, ← heq]
    exact hx
  · rw [shared_step ht]
    intro k hk
    rcases List.mem_append.mp hk with hk | hk
    · exact h.available k hk
    · rw [List.mem_singleton.mp hk]
      exact hempty
  · exact fun a ha => absurd ha (by simp [act, actDisconnect, idStage, IdStage.owned])
  · intro j u hj hu hfits
    have hother := h.exclusive i j _ u key (Ne.symm hj) ht hu rfl
    dsimp only at hother hfits ⊢
    cases hst : idStage u with
    | free k =>
        rw [hst] at hfits hother
        refine ⟨fun hk => ?_, hfits.2⟩
        rcases List.mem_append.mp hk with hk | hk
        · exact hfits.1 hk
        · exact hother (by rw [List.mem_singleton.mp hk]; rfl)
    | _ =>
        rw [hst] at hfits
        exact hfits

end IdsOwned

/-- **Every step keeps the owners of the session ids.** -/
theorem idsOwned_step (c : Config Registry Worker) (i : ℕ) (h : IdsOwned c) :
    IdsOwned (step act c i) := by
  cases ht : c.threads[i]? with
  | none =>
      rw [step_none ht]
      exact h
  | some t =>
      have hfits : (idStage t).Fits c.shared := h.each i t ht
      cases t with
      | login env id row pc =>
          exact h.quiet ht (sameIds_actLogin env id row c.shared pc) (fun _ hk => hk) trivial
      | accept pc =>
          cases pc with
          | allocSessionId => exact h.allocSessionId ht
          | store id => exact h.store ht
          | done => exact h.quiet ht (.refl _) (fun _ hk => hk) trivial
      | disconnect env key pc =>
          cases pc with
          | lookup =>
              refine h.quiet ht ?_ ?_ ?_
              all_goals simp only [act, actDisconnect]
              · split <;> exact .refl _
              · split <;> exact fun _ hk => absurd hk (by simp [idStage, IdStage.owned])
              · split
                · trivial
                · next conn hs => exact .inr hs
          | tryMarkDisconnected conn => exact h.tryMarkDisconnected ht
          | getPlayer conn =>
              refine h.quiet ht ?_ ?_ ?_
              all_goals simp only [act, actDisconnect]
              · split <;> exact .refl _
              · split <;> exact fun _ hk => hk
              · split <;> exact hfits
          | clearSession conn => exact h.clearSession ht
          | freeSessionId => exact h.freeSessionId ht
          | done => exact h.quiet ht (.refl _) (fun _ hk => hk) trivial
          | _ => exact h.quiet ht ⟨rfl, rfl, rfl⟩ (fun _ hk => hk) hfits

/-! ## The database ids -/

/-- A claimed database id has one owner, and the entries of the table are claimed. -/
structure DbsOwned (c : Config Registry Worker) : Prop where
  claimed : ∀ p ∈ entries c.shared, p.dbId ∈ c.shared.game.activeDbIds
  unique : ∀ p ∈ entries c.shared, ∀ q ∈ entries c.shared, p.dbId = q.dbId → p.id = q.id
  exclusive : Exclusive (fun t => (dbStage t).owned) c
  each : Each (fun r t => (dbStage t).Fits r) c

/-- A step that leaves the table and the claims alone. -/
structure SameDbs (r r' : Registry) : Prop where
  players : r'.game.world.players = r.game.world.players
  activeDbIds : r'.game.activeDbIds = r.game.activeDbIds

theorem SameDbs.entries (h : SameDbs r r') : entries r' = entries r :=
  congrArg PlayerTable.entries h.players

theorem SameDbs.fits (h : SameDbs r r') (st : DbStage) : st.Fits r' ↔ st.Fits r := by
  cases st <;> simp only [DbStage.Fits, h.activeDbIds, h.entries]

/-- The claims grow, and the entries get fewer. -/
theorem DbStage.Fits.mono {st : DbStage} (h : st.Fits r)
    (hclaims : ∀ d, st.owned = some d → d ∈ r.game.activeDbIds → d ∈ r'.game.activeDbIds)
    (hentries : ∀ p ∈ entries r', p ∈ entries r) : st.Fits r' := by
  cases st with
  | idle => trivial
  | claimed d => exact ⟨hclaims d rfl h.1, fun p hp => h.2 p (hentries p hp)⟩
  | leaving id d => exact ⟨hclaims d rfl h.1, fun p hp => h.2 p (hentries p hp)⟩
  | left d => exact ⟨hclaims d rfl h.1, fun p hp => h.2 p (hentries p hp)⟩

/-- The owner of a database id has it claimed. -/
theorem DbStage.Fits.claimed {st : DbStage} {d : Int} (h : st.Fits r) (hd : st.owned = some d) :
    d ∈ r.game.activeDbIds := by
  cases st with
  | idle => exact absurd hd (by simp [DbStage.owned])
  | _ => exact Option.some.inj hd ▸ h.1

namespace DbsOwned

theorem quiet (h : DbsOwned c) (ht : c.threads[i]? = some t)
    (hsame : SameDbs c.shared (act c.shared t).1)
    (hkeep : dbStage (act c.shared t).2 = dbStage t ∨ dbStage (act c.shared t).2 = .idle) :
    DbsOwned (step act c i) where
  claimed := by
    rw [shared_step ht, hsame.entries, hsame.activeDbIds]
    exact h.claimed
  unique := by
    rw [shared_step ht, hsame.entries]
    exact h.unique
  exclusive := by
    refine h.exclusive.step ht fun d hd => ?_
    rcases hkeep with hold | hidle
    · exact .inl (hold ▸ hd)
    · rw [hidle] at hd
      exact absurd hd (by simp [DbStage.owned])
  each := by
    refine h.each.step ht ?_ fun _ _ _ _ hu => (hsame.fits _).mpr hu
    rcases hkeep with hold | hidle
    · exact (hsame.fits _).mpr (hold ▸ h.each i t ht)
    · rw [hidle]
      trivial

variable {conn : ConnId} {spawn : Position} {p : Player}

/-- A claim succeeds on an id that nobody owns. -/
theorem tryClaimDbId (h : DbsOwned c)
    (ht : c.threads[i]? = some (.login env id row (.tryClaimDbId conn))) :
    DbsOwned (step act c i) := by
  by_cases hin : row.id ∈ c.shared.game.activeDbIds
  · have hact : act c.shared (.login env id row (.tryClaimDbId conn)) =
        (c.shared, .login env id row (.loginFailed .duplicateLogin)) := by
      simp only [act, actLogin, GameWorld.tryClaimDbId, if_pos hin]
    refine h.quiet ht ?_ ?_
    · rw [hact]
      exact ⟨rfl, rfl⟩
    · rw [hact]
      exact .inr rfl
  · have hact : act c.shared (.login env id row (.tryClaimDbId conn)) =
        ({ c.shared with
          game := { c.shared.game with activeDbIds := row.id :: c.shared.game.activeDbIds } },
          .login env id row (.tryClaimNearby conn)) := by
      simp only [act, actLogin, GameWorld.tryClaimDbId, if_neg hin]
    refine ⟨?_, ?_, h.exclusive.step ht ?_, h.each.step ht ?_ ?_⟩
    · rw [shared_step ht, hact]
      exact fun p hp => List.mem_cons_of_mem _ (h.claimed p hp)
    · rw [shared_step ht, hact]
      exact h.unique
    · rw [hact]
      intro d hd
      obtain rfl := Option.some.inj hd
      exact .inr fun j u _ hu hown => hin ((h.each j u hu).claimed hown)
    · rw [hact]
      exact ⟨List.mem_cons_self, fun p hp heq => hin (heq ▸ h.claimed p hp)⟩
    · rw [hact]
      exact fun j u _ _ hfits => hfits.mono (fun d _ hd => List.mem_cons_of_mem _ hd) fun p hp => hp

/-- The player goes into the table under its session id. -/
theorem insertPlayer (h : DbsOwned c)
    (ht : c.threads[i]? = some (.login env id row (.insertPlayer conn spawn))) :
    DbsOwned (step act c i) := by
  obtain ⟨hclaimed, hnone⟩ : row.id ∈ c.shared.game.activeDbIds ∧
      ∀ p ∈ entries c.shared, p.dbId ≠ row.id := h.each i _ ht
  -- the new entry, and what is left of the old ones
  have hmem : ∀ q ∈ entries (act c.shared (.login env id row (.insertPlayer conn spawn))).1,
      q.id = id ∧ q.dbId = row.id ∨ q ∈ entries c.shared := by
    intro q hq
    rcases List.mem_cons.mp hq with rfl | hq
    · exact .inl ⟨rfl, rfl⟩
    · exact .inr (List.mem_filter.mp hq).1
  refine ⟨?_, ?_, h.exclusive.step ht ?_, h.each.step ht trivial ?_⟩
  · rw [shared_step ht]
    intro q hq
    rcases hmem q hq with ⟨-, hdb⟩ | hold
    · rw [hdb]
      exact hclaimed
    · exact h.claimed q hold
  · rw [shared_step ht]
    intro p hp q hq heq
    rcases hmem p hp with ⟨hpid, hpdb⟩ | hpold
    · rcases hmem q hq with ⟨hqid, -⟩ | hqold
      · exact hpid.trans hqid.symm
      · exact absurd (heq.symm.trans hpdb) (hnone q hqold)
    · rcases hmem q hq with ⟨-, hqdb⟩ | hqold
      · exact absurd (heq.trans hqdb) (hnone p hpold)
      · exact h.unique p hpold q hqold heq
  · exact fun d hd => absurd hd (by simp [act, actLogin, dbStage, DbStage.owned])
  · intro j u hj hu hfits
    have hother := h.exclusive i j _ u row.id (Ne.symm hj) ht hu rfl
    dsimp only at hother hfits ⊢
    cases hst : dbStage u with
    | idle => trivial
    | claimed d =>
        rw [hst] at hfits hother
        refine ⟨hfits.1, fun q hq heq => ?_⟩
        rcases hmem q hq with ⟨-, hdb⟩ | hold
        · exact hother (by rw [← heq, hdb]; rfl)
        · exact hfits.2 q hold heq
    | leaving k d =>
        rw [hst] at hfits hother
        refine ⟨hfits.1, fun q hq heq => ?_⟩
        rcases hmem q hq with ⟨-, hdb⟩ | hold
        · exact absurd (by rw [← heq, hdb]; rfl) hother
        · exact hfits.2 q hold heq
    | left d =>
        rw [hst] at hfits hother
        refine ⟨hfits.1, fun q hq heq => ?_⟩
        rcases hmem q hq with ⟨-, hdb⟩ | hold
        · exact hother (by rw [← heq, hdb]; rfl)
        · exact hfits.2 q hold heq

/-- The database id of a leaving worker belongs to the session id it works on. -/
theorem idStage_of_leaving {k : ObjectID} {d : Int} (ht : dbStage t = .leaving k d) :
    (idStage t).owned = some k := by
  cases t with
  | login env id row pc => cases pc <;> simp [dbStage] at ht
  | accept pc => simp [dbStage] at ht
  | disconnect env key pc =>
      cases pc <;> simp [dbStage] at ht
      all_goals exact congrArg some ht.1

/-- The entry that is found is the only one with its database id, and only this
worker will take it out. -/
theorem getPlayer (h : DbsOwned c) (hids : IdsOwned c)
    (ht : c.threads[i]? = some (.disconnect env key (.getPlayer conn))) :
    DbsOwned (step act c i) := by
  cases hp : c.shared.game.world.getPlayer key with
  | none =>
      have hact : act c.shared (.disconnect env key (.getPlayer conn)) =
          (c.shared, .disconnect env key (.clearSession conn)) := by
        simp only [act, actDisconnect, hp]
      refine h.quiet ht ?_ ?_
      · rw [hact]
        exact ⟨rfl, rfl⟩
      · rw [hact]
        exact .inr rfl
  | some p =>
      have hact : act c.shared (.disconnect env key (.getPlayer conn)) =
          (c.shared, .disconnect env key (.sendDisappear conn p)) := by
        simp only [act, actDisconnect, hp]
      have hmem : p ∈ entries c.shared := PlayerTable.mem_of_find hp
      have hid : p.id = key := World.getPlayer_id hp
      refine ⟨?_, ?_, h.exclusive.step ht ?_, h.each.step ht ?_ ?_⟩
      · rw [shared_step ht, hact]
        exact h.claimed
      · rw [shared_step ht, hact]
        exact h.unique
      · rw [hact]
        intro d hd
        obtain rfl := Option.some.inj hd
        right
        intro j u hj hu hown
        have hfits : (dbStage u).Fits c.shared := h.each j u hu
        cases hst : dbStage u with
        | idle => rw [hst] at hown; exact absurd hown (by simp [DbStage.owned])
        | claimed d =>
            rw [hst] at hown hfits
            exact hfits.2 p hmem (Option.some.inj hown).symm
        | leaving k d =>
            -- it works on the same session id
            rw [hst] at hown hfits
            have hk := hfits.2 p hmem (Option.some.inj hown).symm
            have hkey := idStage_of_leaving hst
            rw [← hk, hid] at hkey
            exact hids.exclusive i j _ u key (Ne.symm hj) ht hu rfl hkey
        | left d =>
            rw [hst] at hown hfits
            exact hfits.2 p hmem (Option.some.inj hown).symm
      · rw [hact]
        exact ⟨h.claimed p hmem, fun q hq heq => (h.unique q hq p hmem heq).trans hid⟩
      · rw [hact]
        exact fun _ _ _ _ hfits => hfits

/-- After the entry is taken out, no other has its database id. -/
theorem removePlayer (h : DbsOwned c)
    (ht : c.threads[i]? = some (.disconnect env key (.removePlayer conn p))) :
    DbsOwned (step act c i) := by
  obtain ⟨hclaimed, hkey⟩ : p.dbId ∈ c.shared.game.activeDbIds ∧
      ∀ q ∈ entries c.shared, q.dbId = p.dbId → q.id = key := h.each i _ ht
  have hmem : ∀ q ∈ entries (act c.shared (.disconnect env key (.removePlayer conn p))).1,
      q ∈ entries c.shared ∧ q.id ≠ key := by
    intro q hq
    obtain ⟨hq, hne⟩ := List.mem_filter.mp hq
    exact ⟨hq, by simpa using hne⟩
  refine ⟨?_, ?_, h.exclusive.step ht ?_, h.each.step ht ?_ ?_⟩
  · rw [shared_step ht]
    exact fun q hq => h.claimed q (hmem q hq).1
  · rw [shared_step ht]
    exact fun q hq q' hq' => h.unique q (hmem q hq).1 q' (hmem q' hq').1
  · exact fun d hd => .inl hd
  · exact ⟨hclaimed, fun q hq heq => (hmem q hq).2 (hkey q (hmem q hq).1 heq)⟩
  · exact fun _ _ _ _ hfits => hfits.mono (fun _ _ hd => hd) fun q hq => (hmem q hq).1

/-- And only then it is released. -/
theorem releaseDbId (h : DbsOwned c)
    (ht : c.threads[i]? = some (.disconnect env key (.releaseDbId conn p))) :
    DbsOwned (step act c i) := by
  obtain ⟨hclaimed, hnone⟩ : p.dbId ∈ c.shared.game.activeDbIds ∧
      ∀ q ∈ entries c.shared, q.dbId ≠ p.dbId := h.each i _ ht
  refine ⟨?_, ?_, h.exclusive.step ht ?_, h.each.step ht trivial ?_⟩
  · rw [shared_step ht]
    exact fun q hq => List.mem_filter.mpr ⟨h.claimed q hq, by simpa using hnone q hq⟩
  · rw [shared_step ht]
    exact h.unique
  · exact fun d hd => absurd hd (by simp [act, actDisconnect, dbStage, DbStage.owned])
  · intro j u hj hu hfits
    have hother := h.exclusive i j _ u p.dbId (Ne.symm hj) ht hu rfl
    refine hfits.mono (fun d hown hd => List.mem_filter.mpr ⟨hd, ?_⟩) fun q hq => hq
    have hne : d ≠ p.dbId := fun heq => hother (heq ▸ hown)
    simpa using hne

end DbsOwned

theorem dbsOwned_step (c : Config Registry Worker) (i : ℕ) (hids : IdsOwned c) (h : DbsOwned c) :
    DbsOwned (step act c i) := by
  cases ht : c.threads[i]? with
  | none =>
      rw [step_none ht]
      exact h
  | some t =>
      cases t with
      | accept pc =>
          refine h.quiet ht ?_ (.inr rfl)
          cases pc with
          | allocSessionId =>
              simp only [act, actAccept]
              split <;> exact ⟨rfl, rfl⟩
          | _ => exact ⟨rfl, rfl⟩
      | login env id row pc =>
          cases pc with
          | getSession =>
              refine h.quiet ht ?_ ?_
              all_goals simp only [act, actLogin]
              · split <;> exact ⟨rfl, rfl⟩
              · split <;> exact .inr rfl
          -- the steps that touch the claims have lemmas of their own; the others are quiet
          | tryClaimDbId conn => exact h.tryClaimDbId ht
          | tryClaimNearby conn =>
              refine h.quiet ht ?_ ?_
              all_goals simp only [act, actLogin]
              · split <;> exact ⟨rfl, rfl⟩
              · split
                · exact .inr rfl
                · exact .inl rfl
          | insertPlayer conn spawn => exact h.insertPlayer ht
          | getPlayer conn =>
              refine h.quiet ht ?_ ?_
              all_goals simp only [act, actLogin]
              · split <;> exact ⟨rfl, rfl⟩
              · split <;> exact .inr rfl
          | activate player =>
              exact h.quiet ht ⟨(World.activateNearbyMonsters_frame env _ _).2, rfl⟩ (.inr rfl)
          | loginFailed reason =>
              refine h.quiet ht ?_ (.inr rfl)
              simp only [act, actLogin, Registry.onGame, GameWorld.onLoginDBFailed]
              split <;> exact ⟨rfl, rfl⟩
          | sectorInsert conn spawn => exact h.quiet ht ⟨rfl, rfl⟩ (.inl rfl)
          | _ => exact h.quiet ht ⟨rfl, rfl⟩ (.inr rfl)
      | disconnect env key pc =>
          cases pc with
          | lookup =>
              refine h.quiet ht ?_ ?_
              all_goals simp only [act, actDisconnect]
              · split <;> exact ⟨rfl, rfl⟩
              · split <;> exact .inr rfl
          | tryMarkDisconnected conn =>
              refine h.quiet ht ?_ ?_
              all_goals simp only [act, actDisconnect]
              · split <;> exact ⟨rfl, rfl⟩
              · split <;> exact .inr rfl
          | getPlayer conn => exact h.getPlayer hids ht
          | removePlayer conn p => exact h.removePlayer ht
          | releaseDbId conn p => exact h.releaseDbId ht
          | _ => exact h.quiet ht ⟨rfl, rfl⟩ (.inl rfl)

/-! ## Whole runs -/

theorem players_spawnMonsters (spawns : List MonsterSpawnData) (w : World) :
    (w.spawnMonsters spawns).players = w.players := by
  unfold World.spawnMonsters
  induction spawns generalizing w with
  | nil => rfl
  | cons data spawns ih =>
      rw [List.foldl_cons, ih]
      unfold World.spawnMonster
      dsimp only
      split <;> rfl

theorem entries_init (map : Map) (spawns : List MonsterSpawnData) (now : ℕ) :
    entries (.init map spawns now) = [] :=
  congrArg PlayerTable.entries (players_spawnMonsters spawns (World.empty map now))

/-- A handler owns nothing before its first step. -/
theorem idle_worker (task : Task) :
    idStage task.worker = .idle ∧ dbStage task.worker = .idle := by
  cases task <;> exact ⟨rfl, rfl⟩

theorem owned_init (map : Map) (spawns : List MonsterSpawnData) (now : ℕ) (tasks : List Task) :
    IdsOwned ⟨.init map spawns now, tasks.map Task.worker⟩ ∧
      DbsOwned ⟨.init map spawns now, tasks.map Task.worker⟩ := by
  have hidle : ∀ t ∈ tasks.map Task.worker, idStage t = .idle ∧ dbStage t = .idle := by
    intro t ht
    obtain ⟨task, -, rfl⟩ := List.mem_map.mp ht
    exact idle_worker task
  constructor
  · refine ⟨List.nodup_range', fun _ _ => rfl, exclusive_of_none fun t ht => ?_,
      each_of_forall fun t ht => ?_⟩
    · rw [(hidle t ht).1]
      rfl
    · rw [(hidle t ht).1]
      trivial
  · refine ⟨?_, ?_, exclusive_of_none fun t ht => ?_, each_of_forall fun t ht => ?_⟩
    · rw [entries_init]
      exact fun p hp => absurd hp List.not_mem_nil
    · rw [entries_init]
      exact fun p hp => absurd hp List.not_mem_nil
    · rw [(hidle t ht).2]
      rfl
    · rw [(hidle t ht).2]
      trivial

/-- **One session per character**: in every state that any number of logins,
disconnects and accepts can reach, in any interleaving of their steps, two entries
of `m_players` with one database id are the same entry. -/
theorem oneSession_run (map : Map) (spawns : List MonsterSpawnData) (now : ℕ) (tasks : List Task)
    (is : List ℕ) :
    let r := (run (step act) ⟨.init map spawns now, tasks.map Task.worker⟩ is).shared
    ∀ p ∈ entries r, ∀ q ∈ entries r, p.dbId = q.dbId → p = q := by
  intro r p hp q hq heq
  have hstart := owned_init map spawns now tasks
  have hall : Along (step act) (fun _ _ => True)
      ⟨.init map spawns now, tasks.map Task.worker⟩ is := along_true
  have hreach := invariant (I := fun c : Config Registry Worker => IdsOwned c ∧ DbsOwned c)
    (fun c i h _ => ⟨idsOwned_step c i h.1, dbsOwned_step c i h.1 h.2⟩) hstart hall
  have hid := hreach.2.unique p hp q hq heq
  exact List.inj_on_of_nodup_map r.game.world.players.nodup hp hq hid

end Mmorpg.Worker
