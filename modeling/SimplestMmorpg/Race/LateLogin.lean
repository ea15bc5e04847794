/-
A login and the disconnect of its session.

`OnLoginDBLoaded` looks its session up once, at the start. `DisconnectSession`
looks for the player once, and returns when there is none. So a login that puts
its player into the table after the disconnect has looked for it leaves a player
without a session, and nobody takes it out. A login that finds no tile leaves the
database id claimed, for the same reason.

The two threads are followed through their phases: while the login has the
database id claimed and its player is not in the table, it is the one that owes
something; otherwise it is the disconnect, from its look at the table on.
-/
import SimplestMmorpg.Game.Holdings
import SimplestMmorpg.Game.Tidy
import SimplestMmorpg.Race.OneSession
import SimplestMmorpg.Server.PlacementRun

set_option autoImplicit false

namespace Mmorpg.Worker

open Transition Interleave

variable {r r' : Registry} {env env' : Env} {id : ObjectID} {row : PlayerRow} {conn : ConnId}
  {login : LoginPc} {disconnect : DisconnectPc}

/-! ## The two threads -/

/-- What the session id holds of tiles and sectors. -/
def held (r : Registry) (id : ObjectID) : Holding := r.sectors.holding id

/-- The database id is claimed, and the player is not in the table yet. -/
def Placing : LoginPc → Bool
  | .tryClaimNearby _ => true
  | .sectorInsert _ _ => true
  | .insertPlayer _ _ => true
  | _ => false

/-- `ProcessDisconnect` has not looked for the player yet. -/
def Early : DisconnectPc → Bool
  | .lookup => true
  | .tryMarkDisconnected _ => true
  | .getPlayer _ => true
  | _ => false

/-- A login and a disconnect of one session id. -/
def pair (env env' : Env) (id : ObjectID) (row : PlayerRow) (r : Registry) (login : LoginPc)
    (disconnect : DisconnectPc) : Config Registry Worker :=
  ⟨r, [.login env id row login, .disconnect env' id disconnect]⟩

/-- Both begin: the session is open and not marked, what its player has is what its
id holds, every entry of the table is claimed, no two have the same database id,
and the character is not logged in elsewhere. -/
structure Opened (r : Registry) (id : ObjectID) (conn : ConnId) (dbId : Int) : Prop where
  session : r.sessions id = some conn
  bound : id < maxPlayers
  unmarked : r.marked conn = false
  held : (held r id).At ((r.game.world.getPlayer id).map (·.pos))
  claimed : ∀ p ∈ entries r, p.dbId ∈ r.game.activeDbIds
  unique : ∀ p ∈ entries r, ∀ q ∈ entries r, p.dbId = q.dbId → p.id = q.id
  here : dbId ∈ r.game.activeDbIds → ∃ p, r.game.world.getPlayer id = some p ∧ p.dbId = dbId

/-- A disconnect of this session id that has looked for its player. -/
def hasLooked (id : ObjectID) : Worker → Bool
  | .disconnect _ key pc => key = id && !Early pc
  | _ => false

/-- When the login looks for a tile there is one, and when it puts its player into
the table, the session has none and the disconnect has not looked for it. -/
def InTime (c : Config Registry Worker) (i : ℕ) : Prop :=
  match c.threads[i]? with
  | some (.login _ id row (.tryClaimNearby _)) =>
    (c.shared.sectors.tryClaimNearby id ⟨row.x, row.y⟩ 20 c.shared.game.world.map).isSome
  | some (.login _ id _ (.insertPlayer _ _)) =>
    c.shared.game.world.getPlayer id = none ∧ ∀ t ∈ c.threads, hasLooked id t = false
  | _ => True

instance (c : Config Registry Worker) (i : ℕ) : Decidable (InTime c i) := by
  unfold InTime
  split <;> infer_instance

/-- Both have finished, and either the character is in the table and the session is
in `m_sessions`, or nothing of the character is left. -/
def Settled (r : Registry) (id : ObjectID) (conn : ConnId) (dbId : Int) : Prop :=
  (∃ p ∈ entries r, p.dbId = dbId) ∧ r.sessions id = some conn ∨
    (∀ p ∈ entries r, p.dbId ≠ dbId) ∧ dbId ∉ r.game.activeDbIds ∧ (held r id).At none

/-! ## The phases -/

/-- What the login has placed so far. -/
def Standing (r : Registry) (id : ObjectID) : LoginPc → Prop
  | .tryClaimNearby _ => (held r id).At none
  | .sectorInsert _ spawn => held r id = ⟨{spawn}, ∅⟩
  | .insertPlayer _ spawn => (held r id).At (some spawn)
  | _ => False

/-- The disconnect will come to `GetPlayer`. -/
def Coming (r : Registry) (id : ObjectID) (conn : ConnId) : DisconnectPc → Prop
  | .lookup => r.sessions id = some conn ∧ r.marked conn = false
  | .tryMarkDisconnected d => d = conn ∧ r.marked conn = false
  | .getPlayer _ => True
  | _ => False

/-- The character is under this id or nowhere. -/
structure Here (r : Registry) (id : ObjectID) (dbId : Int) : Prop where
  entry : ∀ p ∈ entries r, p.dbId = dbId → p.id = id
  claimed : ∀ p ∈ entries r, p.dbId = dbId → dbId ∈ r.game.activeDbIds

/-- Nothing of the character is left. -/
structure Gone (r : Registry) (id : ObjectID) (dbId : Int) : Prop where
  entry : ∀ p ∈ entries r, p.dbId ≠ dbId
  released : dbId ∉ r.game.activeDbIds
  held : (held r id).At none

/-- What the disconnect has still to do for the player it found. -/
def Leaving (r : Registry) (id : ObjectID) (dbId : Int) : DisconnectPc → Prop
  | .sendDisappear _ p => (held r id).At (some p.pos) ∧ Here r id dbId ∧
      (dbId ∈ r.game.activeDbIds → p.dbId = dbId)
  | .release _ p => (held r id).At (some p.pos) ∧ Here r id dbId ∧
      (dbId ∈ r.game.activeDbIds → p.dbId = dbId)
  | .sectorErase _ p => held r id = ⟨∅, {zoneOf p.pos}⟩ ∧ Here r id dbId ∧
      (dbId ∈ r.game.activeDbIds → p.dbId = dbId)
  | .removePlayer _ p => (held r id).At none ∧ Here r id dbId ∧
      (dbId ∈ r.game.activeDbIds → p.dbId = dbId)
  | .releaseDbId _ p => (held r id).At none ∧ (∀ q ∈ entries r, q.dbId ≠ dbId) ∧
      (dbId ∈ r.game.activeDbIds → p.dbId = dbId)
  | .postSaveTask _ _ => Gone r id dbId
  | .clearSession _ => Gone r id dbId
  | .freeSessionId => Gone r id dbId
  | .done => Gone r id dbId
  | _ => False

/-- Where the two are. -/
inductive Track (id : ObjectID) (conn : ConnId) (dbId : Int) (r : Registry) (login : LoginPc)
    (disconnect : DisconnectPc) : Prop
  | late (hlogin : Placing login = true)
      (h : (r.game.world.getPlayer id).isSome ∨ Early disconnect = false)
  | placing (hstanding : Standing r id login) (hcoming : Coming r id conn disconnect)
      (hnone : r.game.world.getPlayer id = none) (hclaimed : dbId ∈ r.game.activeDbIds)
      (hentry : ∀ p ∈ entries r, p.dbId ≠ dbId)
  | waiting (hlogin : Placing login = false) (hcoming : Coming r id conn disconnect)
      (hheld : (held r id).At ((r.game.world.getPlayer id).map (·.pos))) (hhere : Here r id dbId)
      (howner : dbId ∈ r.game.activeDbIds →
        ∃ p, r.game.world.getPlayer id = some p ∧ p.dbId = dbId)
  | leaving (hlogin : Placing login = false) (hleaving : Leaving r id dbId disconnect)

/-! ## Steps that touch none of this -/

/-- The table, the claims, the tiles and the sectors stay. -/
structure SameView (r r' : Registry) : Prop extends SameDbs r r' where
  sectors : r'.sectors = r.sectors

variable {dbId : Int}

namespace SameView

theorem refl (r : Registry) : SameView r r := ⟨⟨rfl, rfl⟩, rfl⟩

theorem getPlayer (h : SameView r r') (id : ObjectID) :
    r'.game.world.getPlayer id = r.game.world.getPlayer id :=
  congrArg (fun t => PlayerTable.find t id) h.players

theorem held (h : SameView r r') (id : ObjectID) : held r' id = held r id :=
  congrArg (fun sm => SectorManager.holding sm id) h.sectors

theorem here (h : SameView r r') (hh : Here r id dbId) : Here r' id dbId :=
  ⟨by rw [h.entries]; exact hh.entry, by rw [h.entries, h.activeDbIds]; exact hh.claimed⟩

theorem gone (h : SameView r r') (hg : Gone r id dbId) : Gone r' id dbId :=
  ⟨by rw [h.entries]; exact hg.entry, by rw [h.activeDbIds]; exact hg.released,
    by rw [h.held]; exact hg.held⟩

theorem leaving (h : SameView r r') (hl : Leaving r id dbId disconnect) :
    Leaving r' id dbId disconnect := by
  have hhere : Here r id dbId → Here r' id dbId := h.here
  have hgone : Gone r id dbId → Gone r' id dbId := h.gone
  cases disconnect <;>
    simp only [Leaving, h.held, h.activeDbIds, h.entries] at hl ⊢ <;>
    first
      | exact hgone hl
      | exact ⟨hl.1, hhere hl.2.1, hl.2.2⟩
      | exact hl

end SameView

theorem coming_of_sameIds (h : SameIds r r') (hc : Coming r id conn disconnect) :
    Coming r' id conn disconnect := by
  cases disconnect <;> simp only [Coming, h.sessions, h.marked] at hc ⊢ <;> exact hc

theorem placing_of_standing (h : Standing r id login) : Placing login = true := by
  cases login <;> first | rfl | exact h.elim

theorem early_of_leaving (h : Leaving r id dbId disconnect) : Early disconnect = false := by
  cases disconnect <;> first | rfl | exact h.elim

theorem early_of_coming (h : Coming r id conn disconnect) : Early disconnect = true := by
  cases disconnect <;> first | rfl | exact h.elim

/-- The login does something that is not about the character. -/
theorem Track.idle {login' : LoginPc} (h : Track id conn dbId r login disconnect)
    (hview : SameView r r') (hids : SameIds r r') (hbefore : Placing login = false)
    (hafter : Placing login' = false) : Track id conn dbId r' login' disconnect := by
  cases h with
  | late hlogin _ => exact absurd (hbefore.symm.trans hlogin) Bool.false_ne_true
  | placing hstanding =>
      exact absurd (hbefore.symm.trans (placing_of_standing hstanding)) Bool.false_ne_true
  | waiting _ hcoming hheld hhere howner =>
      refine .waiting hafter (coming_of_sameIds hids hcoming) ?_ (hview.here hhere) ?_
      · rw [hview.held, hview.getPlayer]
        exact hheld
      · rw [hview.activeDbIds, hview.getPlayer]
        exact howner
  | leaving _ hleaving => exact .leaving hafter (hview.leaving hleaving)

/-! ## A step of the login -/

/-- The claim on the database id. -/
theorem track_tryClaimDbId {d : ConnId}
    (h : Track id conn row.id r (.tryClaimDbId d) disconnect) :
    Track id conn row.id (actLogin env id row r (.tryClaimDbId d)).1
      (actLogin env id row r (.tryClaimDbId d)).2 disconnect := by
  by_cases hin : row.id ∈ r.game.activeDbIds
  · have hact : actLogin env id row r (.tryClaimDbId d) = (r, .loginFailed .duplicateLogin) := by
      simp only [actLogin, GameWorld.tryClaimDbId, if_pos hin]
    rw [hact]
    exact h.idle (.refl r) (.refl r) rfl rfl
  · have hact : actLogin env id row r (.tryClaimDbId d) =
        ({ r with game := { r.game with activeDbIds := row.id :: r.game.activeDbIds } },
          .tryClaimNearby d) := by
      simp only [actLogin, GameWorld.tryClaimDbId, if_neg hin]
    rw [hact]
    cases h with
    | late hlogin _ => exact absurd hlogin (by simp [Placing])
    | placing hstanding => exact hstanding.elim
    | leaving _ hleaving => exact .late rfl (.inr (early_of_leaving hleaving))
    | waiting _ hcoming hheld hhere howner =>
        cases hp : r.game.world.getPlayer id with
        | some p => exact .late rfl (.inl (by simp [hp]))
        | none =>
            rw [hp] at hheld
            refine .placing hheld (coming_of_sameIds ⟨rfl, rfl, rfl⟩ hcoming) hp
              List.mem_cons_self ?_
            exact fun p hpm hdb => hin (hhere.claimed p hpm hdb)

/-- The tile that is claimed is all the session id holds. -/
theorem standing_tryClaimNearby {sm : SectorManager} {spawn : Position} {p : Position}
    {map : Map} (hid : id ≠ invalidId) (hat : (held r id).At none)
    (h : r.sectors.tryClaimNearby id p 20 map = some (sm, spawn)) :
    held (r.withSectors sm) id = ⟨{spawn}, ∅⟩ := by
  have hclaim := SectorManager.holding_claim (j := id) hid
    (SectorManager.tryClaimNearby_eq_some h).1
  rw [if_pos rfl] at hclaim
  refine hclaim.trans (Holding.ext ?_ ?_)
  · ext q
    simp only [Set.mem_insert_iff, Set.mem_singleton_iff]
    refine or_iff_left fun hq => ?_
    exact absurd ((hat.tiles q).mp hq) (by simp)
  · ext z
    simp only [Set.mem_empty_iff_false, iff_false]
    intro hz
    exact absurd ((hat.zones z).mp hz) (by simp)

theorem at_sectorInsert {spawn : Position} (hheld : held r id = ⟨{spawn}, ∅⟩) :
    (held (r.withSectors (r.sectors.sectorInsert (getSectorCoord spawn) id)) id).At
      (some spawn) := by
  have hinsert := SectorManager.holding_sectorInsert r.sectors (getSectorCoord spawn) id id
  rw [if_pos rfl] at hinsert
  have hheld' : r.sectors.holding id = ⟨{spawn}, ∅⟩ := hheld
  rw [hheld'] at hinsert
  have hnew : held (r.withSectors (r.sectors.sectorInsert (getSectorCoord spawn) id)) id =
      ⟨{spawn}, insert (sectorIndex (getSectorCoord spawn)) ∅⟩ := hinsert
  rw [hnew]
  refine ⟨fun q => ?_, fun z => ?_⟩
  · rw [Set.mem_singleton_iff, Option.some.injEq, eq_comm]
  · rw [Set.mem_insert_iff, Set.mem_empty_iff_false, or_false, Option.map_some, Option.some.injEq,
      eq_comm]
    rfl

/-- **A step of the login.** -/
theorem track_login (hid : id ≠ invalidId) (h : Track id conn row.id r login disconnect)
    (hsearch : ∀ d, login = .tryClaimNearby d →
      (r.sectors.tryClaimNearby id ⟨row.x, row.y⟩ 20 r.game.world.map).isSome)
    (hinsert : ∀ d spawn, login = .insertPlayer d spawn →
      r.game.world.getPlayer id = none ∧ Early disconnect = true) :
    Track id conn row.id (actLogin env id row r login).1 (actLogin env id row r login).2
      disconnect := by
  cases login with
  | getSession =>
      simp only [actLogin]
      split <;> exact h.idle (.refl r) (.refl r) rfl rfl
  | tryClaimDbId d => exact track_tryClaimDbId h
  | tryClaimNearby d =>
      obtain ⟨⟨sm, spawn⟩, hfound⟩ := Option.isSome_iff_exists.mp (hsearch d rfl)
      have hact : actLogin env id row r (.tryClaimNearby d) =
          (r.withSectors sm, .sectorInsert d spawn) := by
        simp only [actLogin, hfound]
      rw [hact]
      cases h with
      | late _ h => exact .late rfl h
      | placing hstanding hcoming hnone hclaimed hentry =>
          exact .placing (standing_tryClaimNearby hid hstanding hfound)
            (coming_of_sameIds ⟨rfl, rfl, rfl⟩ hcoming) hnone hclaimed hentry
      | waiting hlogin => exact absurd hlogin (by simp [Placing])
      | leaving hlogin => exact absurd hlogin (by simp [Placing])
  | sectorInsert d spawn =>
      cases h with
      | late _ h => exact .late rfl h
      | placing hstanding hcoming hnone hclaimed hentry =>
          exact .placing (at_sectorInsert hstanding) (coming_of_sameIds ⟨rfl, rfl, rfl⟩ hcoming)
            hnone hclaimed hentry
      | waiting hlogin => exact absurd hlogin (by simp [Placing])
      | leaving hlogin => exact absurd hlogin (by simp [Placing])
  | insertPlayer d spawn =>
      obtain ⟨hnone, hearly⟩ := hinsert d spawn rfl
      cases h with
      | late _ h =>
          rcases h with hsome | hlooked
          · -- too late: there is a player already, or the disconnect has looked for it
            rw [hnone] at hsome
            exact absurd hsome (by simp)
          · exact absurd (hlooked.symm.trans hearly) Bool.false_ne_true
      | placing hstanding hcoming _ hclaimed hentry =>
          -- the player is in the map before the disconnect looks for it
          have hget : (actLogin env id row r (.insertPlayer d spawn)).1.game.world.getPlayer id =
              some ((Player.ofRow id d row r.game.world.nextSerial).setPos spawn) :=
            World.getPlayer_setPlayer_self _ _
          refine .waiting rfl (coming_of_sameIds ⟨rfl, rfl, rfl⟩ hcoming) ?_ ⟨?_, ?_⟩ ?_
          · rw [hget]
            exact hstanding
          · intro p hp hdb
            rcases List.mem_cons.mp hp with rfl | hp
            · rfl
            · exact absurd hdb (hentry p (List.mem_filter.mp hp).1)
          · exact fun _ _ _ => hclaimed
          · exact fun _ => ⟨_, hget, rfl⟩
      | waiting hlogin => exact absurd hlogin (by simp [Placing])
      | leaving hlogin => exact absurd hlogin (by simp [Placing])
  | getPlayer d =>
      simp only [actLogin]
      split <;> exact h.idle (.refl r) (.refl r) rfl rfl
  | activate player =>
      refine h.idle ⟨⟨?_, rfl⟩, ?_⟩ ⟨rfl, rfl, rfl⟩ rfl rfl
      · exact (World.activateNearbyMonsters_frame env player.pos r.game.world).2
      · exact (World.inert_activateNearbyMonsters env player.pos r.game.world).sectorManager
  | loginFailed reason =>
      refine h.idle ?_ ⟨rfl, rfl, rfl⟩ rfl rfl
      simp only [actLogin, Registry.onGame, GameWorld.onLoginDBFailed]
      split <;> exact ⟨⟨rfl, rfl⟩, rfl⟩
  | _ => exact h.idle ⟨⟨rfl, rfl⟩, rfl⟩ ⟨rfl, rfl, rfl⟩ rfl rfl

/-! ## A step of the disconnect -/

theorem release_of_at (hid : id ≠ invalidId) {pos : Position}
    (hat : (held r id).At (some pos)) :
    held (r.withSectors (r.sectors.release pos id)) id = ⟨∅, {zoneOf pos}⟩ := by
  have hrelease := SectorManager.holding_release r.sectors hid id pos
  rw [if_pos rfl] at hrelease
  refine hrelease.trans (Holding.ext ?_ ?_)
  · ext q
    simp only [Set.mem_sdiff, Set.mem_singleton_iff, Set.mem_empty_iff_false, iff_false, not_and,
      not_not]
    exact fun hq => (Option.some.inj ((hat.tiles q).mp hq)).symm
  · ext z
    rw [Set.mem_singleton_iff]
    refine (hat.zones z).trans ?_
    rw [Option.map_some, Option.some.injEq, eq_comm]

theorem at_sectorErase {pos : Position} (hheld : held r id = ⟨∅, {zoneOf pos}⟩) :
    (held (r.withSectors (r.sectors.sectorErase (getSectorCoord pos) id)) id).At none := by
  have herase := SectorManager.holding_sectorErase r.sectors (getSectorCoord pos) id id
  rw [if_pos rfl] at herase
  have hheld' : r.sectors.holding id = ⟨∅, {zoneOf pos}⟩ := hheld
  rw [hheld'] at herase
  have hnew : held (r.withSectors (r.sectors.sectorErase (getSectorCoord pos) id)) id =
      ⟨∅, {zoneOf pos} \ {sectorIndex (getSectorCoord pos)}⟩ := herase
  rw [hnew]
  refine ⟨fun q => by simp, fun z => ?_⟩
  simp only [zoneOf, Set.sdiff_self, Set.mem_empty_iff_false, Option.map_none, reduceCtorEq]

/-- The disconnect finds the player, or that nothing is left. -/
theorem track_getPlayer {d : ConnId} (h : Track id conn dbId r login (.getPlayer d)) :
    Track id conn dbId (actDisconnect env' id r (.getPlayer d)).1 login
      (actDisconnect env' id r (.getPlayer d)).2 := by
  cases hp : r.game.world.getPlayer id with
  | none =>
      have hact : actDisconnect env' id r (.getPlayer d) = (r, .clearSession d) := by
        simp only [actDisconnect, hp]
      rw [hact]
      cases h with
      | late hlogin _ => exact .late hlogin (.inr rfl)
      | placing hstanding => exact .late (placing_of_standing hstanding) (.inr rfl)
      | leaving _ hleaving => exact hleaving.elim
      | waiting hlogin _ hheld hhere howner =>
          have hreleased : dbId ∉ r.game.activeDbIds := by
            intro hin
            obtain ⟨p, hp', -⟩ := howner hin
            exact absurd (hp.symm.trans hp') (by simp)
          rw [hp] at hheld
          exact .leaving hlogin
            ⟨fun p hpm hdb => hreleased (hhere.claimed p hpm hdb), hreleased, hheld⟩
  | some p =>
      have hact : actDisconnect env' id r (.getPlayer d) = (r, .sendDisappear d p) := by
        simp only [actDisconnect, hp]
      rw [hact]
      cases h with
      | late hlogin _ => exact .late hlogin (.inr rfl)
      | placing hstanding => exact .late (placing_of_standing hstanding) (.inr rfl)
      | leaving _ hleaving => exact hleaving.elim
      | waiting hlogin _ hheld hhere howner =>
          rw [hp] at hheld
          refine .leaving hlogin ⟨hheld, hhere, fun hin => ?_⟩
          obtain ⟨q, hq, hdb⟩ := howner hin
          rw [Option.some.inj (hp.symm.trans hq)]
          exact hdb

theorem early_actDisconnect (h : Early disconnect = false) :
    Early (actDisconnect env' id r disconnect).2 = false := by
  cases disconnect with
  | lookup => exact absurd h (by simp [Early])
  | tryMarkDisconnected d => exact absurd h (by simp [Early])
  | getPlayer d => exact absurd h (by simp [Early])
  | _ => rfl

theorem game_actDisconnect (env' : Env) (id : ObjectID) (r : Registry)
    (h : Early disconnect = true) :
    (actDisconnect env' id r disconnect).1.game = r.game := by
  cases disconnect with
  | lookup =>
      simp only [actDisconnect]
      split <;> rfl
  | tryMarkDisconnected d =>
      simp only [actDisconnect]
      split <;> rfl
  | getPlayer d =>
      simp only [actDisconnect]
      split <;> rfl
  | _ => exact absurd h (by simp [Early])

/-- On the way to its `GetPlayer` the disconnect finds the session open. -/
theorem coming_actDisconnect (h : Coming r id conn disconnect)
    (hnext : ∀ d, disconnect ≠ .getPlayer d) :
    Coming (actDisconnect env' id r disconnect).1 id conn
      (actDisconnect env' id r disconnect).2 := by
  cases disconnect with
  | lookup =>
      simp only [actDisconnect, h.1]
      exact ⟨rfl, h.2⟩
  | tryMarkDisconnected d =>
      obtain ⟨rfl, hm⟩ := h
      simp only [actDisconnect, hm, Bool.false_eq_true, if_false]
      trivial
  | getPlayer d => exact absurd rfl (hnext d)
  | _ => exact h.elim

/-- What the disconnect does for the player it found. -/
theorem leaving_actDisconnect (hid : id ≠ invalidId) (h : Leaving r id dbId disconnect) :
    Leaving (actDisconnect env' id r disconnect).1 id dbId
      (actDisconnect env' id r disconnect).2 := by
  cases disconnect with
  | sendDisappear d p => exact ⟨h.1, ⟨h.2.1.entry, h.2.1.claimed⟩, h.2.2⟩
  | release d p => exact ⟨release_of_at hid h.1, ⟨h.2.1.entry, h.2.1.claimed⟩, h.2.2⟩
  | sectorErase d p => exact ⟨at_sectorErase h.1, ⟨h.2.1.entry, h.2.1.claimed⟩, h.2.2⟩
  | removePlayer d p =>
      refine ⟨h.1, fun q hq hdb => ?_, h.2.2⟩
      -- it was under this id, and that entry is gone
      obtain ⟨hq, hne⟩ := List.mem_filter.mp hq
      exact absurd (h.2.1.entry q hq hdb) (by simpa using hne)
  | releaseDbId d p =>
      refine ⟨h.2.1, fun hin => ?_, h.1⟩
      obtain ⟨hin, hne⟩ := List.mem_filter.mp hin
      exact absurd (h.2.2 hin).symm (by simpa using hne)
  | postSaveTask d p => exact ⟨h.entry, h.released, h.held⟩
  | clearSession d => exact ⟨h.entry, h.released, h.held⟩
  | freeSessionId => exact ⟨h.entry, h.released, h.held⟩
  | done => exact h
  | _ => exact h.elim

/-- **A step of the disconnect.** -/
theorem track_disconnect (hid : id ≠ invalidId) (h : Track id conn dbId r login disconnect) :
    Track id conn dbId (actDisconnect env' id r disconnect).1 login
      (actDisconnect env' id r disconnect).2 := by
  by_cases hnext : ∃ d, disconnect = .getPlayer d
  · obtain ⟨d, rfl⟩ := hnext
    exact track_getPlayer h
  · have hnext : ∀ d, disconnect ≠ .getPlayer d := fun d hd => hnext ⟨d, hd⟩
    have hsame : Early disconnect = true →
        SameView r (actDisconnect env' id r disconnect).1 := fun hearly => by
      have hgame := game_actDisconnect env' id r hearly
      exact ⟨⟨by rw [hgame], by rw [hgame]⟩, by rw [Registry.sectors, hgame, Registry.sectors]⟩
    cases h with
    | late hlogin h =>
        refine .late hlogin ?_
        rcases h with hsome | hlooked
        · by_cases hearly : Early disconnect = true
          · rw [(hsame hearly).getPlayer]
            exact .inl hsome
          · exact .inr (early_actDisconnect (by simpa using hearly))
        · exact .inr (early_actDisconnect hlooked)
    | placing hstanding hcoming hnone hclaimed hentry =>
        have hview := hsame (early_of_coming hcoming)
        refine .placing ?_ (coming_actDisconnect hcoming hnext) ?_ ?_ ?_
        · cases login <;> first
            | exact hstanding.elim
            | (simp only [Standing, hview.held] at hstanding ⊢; exact hstanding)
        · rw [hview.getPlayer, hnone]
        · rw [hview.activeDbIds]
          exact hclaimed
        · rw [hview.entries]
          exact hentry
    | waiting hlogin hcoming hheld hhere howner =>
        have hview := hsame (early_of_coming hcoming)
        refine .waiting hlogin (coming_actDisconnect hcoming hnext) ?_ (hview.here hhere) ?_
        · rw [hview.held, hview.getPlayer]
          exact hheld
        · rw [hview.activeDbIds, hview.getPlayer]
          exact howner
    | leaving hlogin hleaving => exact .leaving hlogin (leaving_actDisconnect hid hleaving)

/-! ## Whole runs -/

/-- The two threads, somewhere in their handlers. -/
def Tracked (env env' : Env) (id : ObjectID) (row : PlayerRow) (conn : ConnId)
    (c : Config Registry Worker) : Prop :=
  ∃ r login disconnect, c = pair env env' id row r login disconnect ∧
    Track id conn row.id r login disconnect

theorem tracked_step (hid : id ≠ invalidId) (c : Config Registry Worker) (i : ℕ)
    (h : Tracked env env' id row conn c) (hok : InTime c i) :
    Tracked env env' id row conn (step act c i) := by
  obtain ⟨r, login, disconnect, rfl, htrack⟩ := h
  match i with
  | 0 =>
      refine ⟨_, _, disconnect, step_some (t := Worker.login env id row login) rfl,
        track_login hid htrack ?_ ?_⟩
      · rintro d rfl
        exact hok
      · rintro d spawn rfl
        refine ⟨hok.1, ?_⟩
        have hlooked : hasLooked id (.disconnect env' id disconnect) = false :=
          hok.2 _ (by simp [pair])
        simpa [hasLooked] using hlooked
  | 1 =>
      exact ⟨_, login, _, step_some (t := Worker.disconnect env' id disconnect) rfl,
        track_disconnect hid htrack⟩
  | i + 2 => exact ⟨r, login, disconnect, step_none rfl, htrack⟩

/-- The handler has come to its end. -/
def Finished : Worker → Bool
  | .login _ _ _ pc => pc = .done
  | .disconnect _ _ pc => pc = .done
  | .accept pc => pc = .done

theorem track_opened (h : Opened r id conn row.id) :
    Track id conn row.id r .getSession .lookup := by
  refine .waiting rfl ⟨h.session, h.unmarked⟩ h.held ⟨fun p hp hdb => ?_, fun p hp hdb => ?_⟩ h.here
  · obtain ⟨q, hq, hqdb⟩ := h.here (hdb ▸ h.claimed p hp)
    have hsame := h.unique p hp q (PlayerTable.mem_of_find hq) (hdb.trans hqdb.symm)
    exact hsame.trans (World.getPlayer_id hq)
  · exact hdb ▸ h.claimed p hp

/-- **Nothing of the character is left behind by a login that is in time**: for every
interleaving of `OnLoginDBLoaded` and `DisconnectSession` of one session. -/
theorem settled_run {is : List ℕ} (h : Opened r id conn row.id)
    (hok : Along (step act) InTime (pair env env' id row r .getSession .lookup) is)
    (hend : ∀ t ∈ (run (step act) (pair env env' id row r .getSession .lookup) is).threads,
      Finished t = true) :
    Settled (run (step act) (pair env env' id row r .getSession .lookup) is).shared id conn
      row.id := by
  have hid : id ≠ invalidId := by
    rintro rfl
    exact absurd h.bound (by decide)
  obtain ⟨r', login, disconnect, hc, htrack⟩ := invariant (tracked_step hid)
    (s := pair env env' id row r .getSession .lookup) ⟨r, _, _, rfl, track_opened h⟩ hok
  rw [hc] at hend ⊢
  have hlogin : login = .done := by
    simpa [Finished] using hend (.login env id row login) (by simp [pair])
  have hdone : disconnect = .done := by
    simpa [Finished] using hend (.disconnect env' id disconnect) (by simp [pair])
  subst hlogin hdone
  cases htrack with
  | late hlogin _ => exact absurd hlogin (by simp [Placing])
  | placing hstanding => exact hstanding.elim
  | waiting _ hcoming => exact hcoming.elim
  | leaving _ hgone => exact .inr ⟨hgone.entry, hgone.released, hgone.held⟩

/-- A client is connected. -/
def connected : Registry :=
  (run (step act) ⟨.init Server.openField [] 0, [Task.accepted.worker]⟩ [0, 0]).shared

def hero : PlayerRow := ⟨1, [65], 1, 0, 100, 100, 5, 5⟩

theorem opened_connected : Opened connected 0 0 hero.id where
  session := rfl
  bound := by decide
  unmarked := rfl
  held := SectorManager.holding_init (by decide)
  claimed p hp := absurd hp List.not_mem_nil
  unique p hp := absurd hp List.not_mem_nil
  here h := absurd h List.not_mem_nil

/-- The client logs in, and then its connection breaks. -/
theorem settled_run_oneLogin :
    Settled (run (step act) (pair .plain .plain 0 hero connected .getSession .lookup)
      (List.replicate 10 0 ++ List.replicate 11 1)).shared 0 0 hero.id :=
  settled_run opened_connected (by decide +kernel) (by decide +kernel)

/-- The connection breaks after the login has looked its session up. -/
def lateLogin : List ℕ := [0] ++ List.replicate 5 1 ++ List.replicate 9 0

theorem lateLogin_end :
    let c := run (step act) (pair .plain .plain 0 hero connected .getSession .lookup) lateLogin
    (∀ t ∈ c.threads, Finished t = true) ∧ c.shared.sessions 0 = none ∧
      (entries c.shared).map (·.dbId) = [1] := by
  decide +kernel

/-- A player without a session is left in the world. -/
theorem not_always_settled :
    ¬ ∀ (env env' : Env) (id : ObjectID) (row : PlayerRow) (conn : ConnId) (r : Registry)
      (is : List ℕ), Opened r id conn row.id →
        (∀ t ∈ (run (step act) (pair env env' id row r .getSession .lookup) is).threads,
          Finished t = true) →
        Settled (run (step act) (pair env env' id row r .getSession .lookup) is).shared id conn
          row.id := by
  intro hall
  obtain ⟨hend, hslot, hentries⟩ := lateLogin_end
  rcases hall .plain .plain 0 hero 0 connected lateLogin opened_connected hend with
    ⟨-, hopen⟩ | ⟨hgone, -⟩
  · exact absurd (hslot.symm.trans hopen) (by simp)
  · obtain ⟨p, hp, hdb⟩ := List.mem_map.mp (hentries ▸ List.mem_singleton_self (1 : Int))
    exact hgone p hp hdb

end Mmorpg.Worker
