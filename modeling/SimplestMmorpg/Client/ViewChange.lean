/-
One call of `ProcessMoveView`, packet by packet.

`Client/ViewDelta` says which packets a client is sent; here it is which, how
often and in which order. The two views are sets without repetition, so a
client is sent at most one packet about an object, and it does not matter what
the other packets are: each meets the object as the client had it before the
call (`Lib/Transition`, events on different keys). A client of another player
hears of the one that moved only; the client of a player that moved hears of
everything that comes into its view and goes out of it.

Nothing is asked of the tiles. The sectors know where everybody is, and the
connections of the players are their own.
-/
import SimplestMmorpg.Client.ViewDelta
import SimplestMmorpg.Game.Login
import SimplestMmorpg.Game.PlacementHandlers
import SimplestMmorpg.Lib.Transition

set_option autoImplicit false

namespace Mmorpg

open ViewProcessor

/-- The object a packet puts into the table of a client or takes out of it. -/
def ScPacket.key : ScPacket → Option ObjectID
  | .addObject obj => some obj.id
  | .removeObject id => some id
  | _ => none

/-- The object is in the table after the packet. -/
def ScPacket.Puts : ScPacket → Prop
  | .addObject _ => True
  | _ => False

def ScPacket.isMove : ScPacket → Bool
  | .moveObject _ _ _ => true
  | _ => false

namespace GameState

open Transition

/-- The object is in `m_objects`. -/
def Knows (state : GameState) (id : ObjectID) : Prop := (state.objects id).isSome = true

/-- No ADD of an object that is known, no REMOVE of one that is not. -/
def Expects (state : GameState) : ScPacket → Prop
  | .addObject obj => ¬ state.Knows obj.id
  | .removeObject id => state.Knows id
  | _ => True

variable {state state' : GameState} {pkt : ScPacket} {pkts : List ScPacket} {id : ObjectID}

/-- A packet changes what is known of its own object only. -/
theorem keyed_onPacket : Keyed onPacket ScPacket.key Knows := by
  intro state pkt id hkey
  unfold Knows
  cases pkt with
  | addObject obj =>
      have hne : id ≠ obj.id := fun heq => hkey (congrArg some heq.symm)
      simp only [onPacket, addObject, Function.update_of_ne hne]
  | removeObject j =>
      have hne : id ≠ j := fun heq => hkey (congrArg some heq.symm)
      simp only [onPacket, removeObject, Function.update_of_ne hne]
  | moveObject j pos moveTime =>
      simp only [onPacket]
      split
      · rfl
      · by_cases hj : id = j
        · subst hj
          simp [moveObject]
        · simp only [moveObject, Function.update_of_ne hj]
  | statChange =>
      simp only [onPacket]
      split <;> rfl
  | loginOk => exact Iff.rfl
  | loginFail => exact Iff.rfl
  | chat => exact Iff.rfl
  | combatMessage => exact Iff.rfl
  | attackEffect => exact Iff.rfl

theorem knows_onPacket (state : GameState) (pkt : ScPacket) (id : ObjectID)
    (h : pkt.key = some id) : (state.onPacket pkt).Knows id ↔ pkt.Puts := by
  unfold Knows
  cases pkt with
  | addObject obj =>
      obtain rfl := Option.some.inj h
      simp [onPacket, addObject, ScPacket.Puts]
  | removeObject j =>
      obtain rfl := Option.some.inj h
      simp [onPacket, removeObject, ScPacket.Puts]
  | _ => exact absurd h (by simp [ScPacket.key])

theorem Expects.congr (h : ∀ id, pkt.key = some id → (state'.Knows id ↔ state.Knows id))
    (he : state.Expects pkt) : state'.Expects pkt := by
  cases pkt with
  | addObject obj => exact mt (h obj.id rfl).mp he
  | removeObject id => exact (h id rfl).mpr he
  | _ => trivial

/-- Packets about different objects are expected when each is. -/
theorem along_expects (hnodup : (pkts.filterMap ScPacket.key).Nodup)
    (hall : ∀ pkt ∈ pkts, state.Expects pkt) : Along onPacket Expects state pkts :=
  keyed_onPacket.along (fun _ _ _ h => Expects.congr h) hnodup hall

/-- What is known after packets about different objects. -/
theorem knows_run (hnodup : (pkts.filterMap ScPacket.key).Nodup) (id : ObjectID) :
    (run onPacket state pkts).Knows id ↔
      (∃ pkt ∈ pkts, pkt.key = some id ∧ pkt.Puts) ∨
        id ∉ pkts.filterMap ScPacket.key ∧ state.Knows id := by
  constructor
  · intro hknows
    -- no other packet of the run is about the same object
    by_cases hmem : id ∈ pkts.filterMap ScPacket.key
    · obtain ⟨pkt, hpkt, hkey⟩ := List.mem_filterMap.mp hmem
      exact .inl ⟨pkt, hpkt, hkey,
        (keyed_onPacket.see_run_of_mem knows_onPacket hnodup hpkt hkey).mp hknows⟩
    · exact .inr ⟨hmem, (keyed_onPacket.see_run hmem).mp hknows⟩
  · rintro (⟨pkt, hpkt, hkey, hputs⟩ | ⟨hnot, hknows⟩)
    · exact (keyed_onPacket.see_run_of_mem knows_onPacket hnodup hpkt hkey).mpr hputs
    · exact (keyed_onPacket.see_run hnot).mpr hknows

end GameState

namespace World

open Transition

variable {env : Env} {w : World} {o q : Player} {moved : GameObject} {j : ObjectID}
  {pos old : Position} {pkts more : List (ConnId × ScPacket)} {conn : ConnId} {pkt : ScPacket}

/-! ## The objects the packets are about -/

section Own

variable (h : Sectored w) (ha : Apart w) (hq : w.getPlayer q.id = some q)

include h ha hq

/-- Each of them is about another object. -/
theorem keys_processMoveView_own (env : Env) (old : Position) :
    (packetsOn q.session (processMoveView env w (ofPlayer q) old)).filterMap ScPacket.key =
      (viewFrom env w (ofPlayer q) q.pos).filter (· ∉ viewFrom env w (ofPlayer q) old) ++
        (viewFrom env w (ofPlayer q) old).filter (· ∉ viewFrom env w (ofPlayer q) q.pos) := by
  rw [packetsOn_processMoveView_own h ha hq, List.filterMap_append, List.filterMap_map,
    List.filterMap_filterMap, List.filterMap_map]
  congr 1
  · -- what is in view is placed, so there is something to say of it
    refine (List.filterMap_congr fun j hj => ?_).trans List.filterMap_some
    obtain ⟨-, r, hr, -⟩ := (mem_viewFrom_ofPlayer h).mp (List.mem_filter.mp hj).1
    obtain ⟨obj, hobj, -⟩ := remoteOf_of_place hr
    rw [hobj, Option.bind_some, Function.comp, ScPacket.key, id_remoteOf hobj]
  · exact List.filterMap_some

theorem nodup_keys_own (env : Env) (old : Position) :
    ((packetsOn q.session (processMoveView env w (ofPlayer q) old)).filterMap
      ScPacket.key).Nodup := by
  rw [keys_processMoveView_own h ha hq]
  refine List.nodup_append.mpr ⟨nodup_viewFrom.filter _, nodup_viewFrom.filter _, ?_⟩
  -- what comes into view is not what leaves it
  rintro j hj k hk rfl
  exact of_decide_eq_true (List.mem_filter.mp hk).2 (List.mem_filter.mp hj).1

/-- There is an ADD of what comes into view, … -/
theorem puts_own (env : Env) (old : Position) (j : ObjectID) :
    (∃ pkt ∈ packetsOn q.session (processMoveView env w (ofPlayer q) old),
        pkt.key = some j ∧ pkt.Puts) ↔
      j ∈ viewFrom env w (ofPlayer q) q.pos ∧ j ∉ viewFrom env w (ofPlayer q) old := by
  rw [packetsOn_processMoveView_own h ha hq]
  constructor
  · rintro ⟨pkt, hpkt, hkey, hputs⟩
    rcases List.mem_append.mp hpkt with hpkt | hpkt
    · obtain ⟨obj, hobj, rfl⟩ := List.mem_map.mp hpkt
      obtain ⟨k, hk, hkobj⟩ := List.mem_filterMap.mp hobj
      -- an ADD is about the object that came into view
      obtain rfl : k = j := (id_remoteOf hkobj).symm.trans (Option.some.inj hkey)
      simpa using List.mem_filter.mp hk
    · -- a REMOVE puts nothing
      obtain ⟨k, -, rfl⟩ := List.mem_map.mp hpkt
      exact absurd hputs id
  · rintro ⟨hn, ho⟩
    obtain ⟨-, r, hr, -⟩ := (mem_viewFrom_ofPlayer h).mp hn
    obtain ⟨obj, hobj, -⟩ := remoteOf_of_place hr
    refine ⟨.addObject obj, List.mem_append_left _ (List.mem_map_of_mem ?_),
      congrArg some (id_remoteOf hobj), trivial⟩
    exact List.mem_filterMap.mpr ⟨j, List.mem_filter.mpr ⟨hn, decide_eq_true ho⟩, hobj⟩

/-- … and a client that knows the old view expects every packet. -/
theorem expects_own (env : Env) {old : Position} {state : GameState}
    (hknows : ∀ j, state.Knows j ↔ j ∈ viewFrom env w (ofPlayer q) old) :
    ∀ pkt ∈ packetsOn q.session (processMoveView env w (ofPlayer q) old), state.Expects pkt := by
  intro pkt hpkt
  rw [packetsOn_processMoveView_own h ha hq] at hpkt
  rcases List.mem_append.mp hpkt with hpkt | hpkt
  · obtain ⟨obj, hobj, rfl⟩ := List.mem_map.mp hpkt
    obtain ⟨j, hj, hjobj⟩ := List.mem_filterMap.mp hobj
    have hnot := of_decide_eq_true (List.mem_filter.mp hj).2
    rw [← id_remoteOf hjobj] at hnot
    exact mt (hknows obj.id).mp hnot
  · obtain ⟨j, hj, rfl⟩ := List.mem_map.mp hpkt
    exact (hknows j).mpr (List.mem_filter.mp hj).1

end Own

/-! ## The change of the views -/

/-- The objects `ProcessMoveView` is called for. -/
inductive Moved (w : World) : GameObject → Prop
  | player (q : Player) (hq : w.getPlayer q.id = some q) : Moved w (ofPlayer q)
  | monster (m : Monster) (hm : w.getMonster m.id = some m) : Moved w (ofMonster m)

/-- Every client applies what is sent on its connection, in order. -/
def applied (pkts : List (ConnId × ScPacket)) (clients : ConnId → GameState) (conn : ConnId) :
    GameState := run GameState.onPacket (clients conn) (packetsOn conn pkts)

/-- The clients know what is in view when the object is at `pos`: that of another
player knows the object when it has it in view, and that of a player that moves
knows the players and the monsters in view of it. -/
structure ViewsFrom (w : World) (clients : ConnId → GameState) (moved : GameObject)
    (pos : Position) : Prop where
  others : ∀ o, w.getPlayer o.id = some o → o.id ≠ moved.remote.id →
    ((clients o.session).Knows moved.remote.id ↔ isInView o.pos pos = true)
  own : ∀ me, moved.asPlayer = some me → ∀ j, (clients me.session).Knows j ↔
    j ≠ me.id ∧ ∃ r, w.place j = some r ∧ isInView pos r = true

/-- The packets of a call bring every client from the old view to the new one. -/
structure ViewChange (w : World) (clients : ConnId → GameState) (moved : GameObject)
    (old : Position) (pkts : List (ConnId × ScPacket)) : Prop where
  views : ViewsFrom w (applied pkts clients) moved moved.remote.pos
  expected : ∀ conn, Along GameState.onPacket GameState.Expects (clients conn) (packetsOn conn pkts)
  moves : ∀ o, w.getPlayer o.id = some o → (packetsOn o.session pkts).filter ScPacket.isMove =
    if o.id ≠ moved.remote.id ∧ isInView o.pos old = true ∧ isInView o.pos moved.remote.pos = true
    then [.moveObject moved.remote.id moved.remote.pos 0] else []

section Change

variable {clients : ConnId → GameState}

/-- A player is the one that moved, or it looks on. -/
theorem Moved.cases (hmoved : Moved w moved) (h : Sectored w) (ha : Apart w)
    (ho : w.getPlayer o.id = some o) : moved = ofPlayer o ∨
      o.id ≠ moved.remote.id ∧ ∀ me, moved.asPlayer = some me → me.session ≠ o.session := by
  cases hmoved with
  | player q hq =>
      by_cases hid : o.id = q.id
      · rw [hid, hq] at ho
        rw [Option.some.inj ho]
        exact .inl rfl
      · refine .inr ⟨hid, fun me hme hs => ?_⟩
        obtain rfl : q = me := Option.some.inj hme
        exact hid (ha o.id q.id o q ho hq hs.symm)
  | monster m hm =>
      refine .inr ⟨fun hid => ?_, fun me hme => absurd hme (by simp [ofMonster])⟩
      have hlt := h.lt_monsterIdOffset ho
      have hid' : o.id = m.id := hid
      rw [hid'] at hlt
      exact absurd hlt (Nat.not_lt.mpr (monsterIdOffset_le_of_getMonster hm))

/-- Nothing is sent on a connection that is no player's. -/
theorem packetsOn_processMoveView_nobody (env : Env) (hmoved : Moved w moved)
    (hno : ∀ o, w.getPlayer o.id = some o → o.session ≠ conn) (old : Position) :
    packetsOn conn (processMoveView env w moved old) = [] := by
  have hself : ∀ me, moved.asPlayer = some me → me.session ≠ conn := by
    intro me hme
    cases hmoved with
    | player q hq =>
        obtain rfl : q = me := Option.some.inj hme
        exact hno q hq
    | monster m hm => exact absurd hme (by simp [ofMonster])
  have hothers : ∀ j other, w.getPlayer j = some other → other.session ≠ conn := by
    intro j other hj
    obtain rfl := getPlayer_id hj
    exact hno other hj
  refine packetsOn_eq_nil fun x hx => ?_
  cases of_mem_processMoveView hx with
  | appears j other hj => exact hothers j other hj
  | sees me hme => exact hself me hme
  | vanishes j other hj => exact hothers j other hj
  | loses me hme => exact hself me hme
  | moves j other hj => exact hothers j other hj

/-- The client of a player who looks on. -/
theorem knows_observer (h : Sectored w) (ha : Apart w) (ho : w.getPlayer o.id = some o)
    (hme : ∀ me, moved.asPlayer = some me → me.session ≠ o.session) (env : Env)
    (hne : o.id ≠ moved.remote.id) {state : GameState}
    (hold : state.Knows moved.remote.id ↔ isInView o.pos old = true) :
    let pkts := packetsOn o.session (processMoveView env w moved old)
    ((run GameState.onPacket state pkts).Knows moved.remote.id ↔
        isInView o.pos moved.remote.pos = true) ∧
      Along GameState.onPacket GameState.Expects state pkts := by
  intro pkts
  have hpkts : pkts = _ := packetsOn_processMoveView_observer h ha ho hme env hne old
  rw [hpkts]
  -- in view now or not, and before or not
  by_cases hn : isInView o.pos moved.remote.pos = true <;>
    by_cases ho' : isInView o.pos old = true <;>
    simp only [hn, ho', if_true, if_false, Bool.false_eq_true, iff_true, iff_false, run_cons,
      run_nil, Along, and_true] at hold ⊢
  · -- it stays in view
    exact ⟨(GameState.keyed_onPacket state _ _ (by simp [ScPacket.key])).mpr hold, trivial⟩
  · exact ⟨(GameState.knows_onPacket state (.addObject moved.remote) _ rfl).mpr trivial, hold⟩
  · exact ⟨(GameState.knows_onPacket state (.removeObject moved.remote.id) _ rfl).mp, hold⟩
  · exact hold

/-- The client of the player that moved. -/
theorem knows_own (h : Sectored w) (ha : Apart w) (hq : w.getPlayer q.id = some q) (env : Env)
    {state : GameState} (hold : ∀ j, state.Knows j ↔
      j ≠ q.id ∧ ∃ r, w.place j = some r ∧ isInView old r = true) :
    let pkts := packetsOn q.session (processMoveView env w (ofPlayer q) old)
    (∀ j, (run GameState.onPacket state pkts).Knows j ↔
        j ≠ q.id ∧ ∃ r, w.place j = some r ∧ isInView q.pos r = true) ∧
      Along GameState.onPacket GameState.Expects state pkts := by
  intro pkts
  have hkeys : pkts.filterMap ScPacket.key = _ := keys_processMoveView_own h ha hq env old
  have hnodup : (pkts.filterMap ScPacket.key).Nodup := nodup_keys_own h ha hq env old
  have hview : ∀ pos j, j ∈ viewFrom env w (ofPlayer q) pos ↔ _ := fun pos j =>
    mem_viewFrom_ofPlayer h
  have hknows : ∀ j, state.Knows j ↔ j ∈ viewFrom env w (ofPlayer q) old := fun j =>
    (hold j).trans (hview old j).symm
  refine ⟨fun j => ?_, GameState.along_expects hnodup (expects_own h ha hq env hknows)⟩
  rw [GameState.knows_run hnodup, ← hview q.pos j, puts_own h ha hq, hkeys, hknows]
  simp only [List.mem_append, List.mem_filter, decide_eq_true_eq]
  constructor
  · rintro (⟨hn, -⟩ | ⟨hstays, ho⟩)
    · exact hn
    · -- known before and not taken out
      by_contra hn
      exact hstays (.inr ⟨ho, hn⟩)
  · intro hn
    -- known before and kept, or new and added
    by_cases ho : j ∈ viewFrom env w (ofPlayer q) old
    · refine .inr ⟨?_, ho⟩
      rintro (⟨-, hnot⟩ | ⟨-, hnot⟩)
      · exact hnot ho
      · exact hnot hn
    · exact .inl ⟨hn, ho⟩

/-- **`ProcessMoveView` sends the exact change of the views.** -/
theorem processMoveView_viewChange (env : Env) (w : World) (clients : ConnId → GameState)
    (moved : GameObject) (old : Position) (h : Sectored w) (ha : Apart w) (hmoved : Moved w moved)
    (hview : ViewsFrom w clients moved old) :
    ViewChange w clients moved old (processMoveView env w moved old) := by
  refine ⟨⟨fun o ho hne => ?_, fun me hme => ?_⟩, fun conn => ?_, fun o ho => ?_⟩
  · rcases hmoved.cases h ha ho with rfl | ⟨-, hothers⟩
    · exact absurd rfl hne
    · exact (knows_observer h ha ho hothers env hne (hview.others o ho hne)).1
  · cases hmoved with
    | player q hq =>
        obtain rfl : q = me := Option.some.inj hme
        exact (knows_own h ha hq env (hview.own q rfl)).1
    | monster m hm => exact absurd hme (by simp [ofMonster])
  · by_cases hconn : ∃ o, w.getPlayer o.id = some o ∧ o.session = conn
    · obtain ⟨o, ho, rfl⟩ := hconn
      rcases hmoved.cases h ha ho with rfl | ⟨hne, hothers⟩
      · exact (knows_own h ha ho env (hview.own o rfl)).2
      · exact (knows_observer h ha ho hothers env hne (hview.others o ho hne)).2
    · -- a connection without a player gets nothing
      rw [packetsOn_processMoveView_nobody env hmoved (fun o ho hs => hconn ⟨o, ho, hs⟩)]
      trivial
  · rcases hmoved.cases h ha ho with rfl | ⟨hne, hothers⟩
    · -- the player that moved gets no MOVE of anybody
      rw [packetsOn_processMoveView_own h ha ho, if_neg fun hself => hself.1 rfl]
      rw [List.filter_eq_nil_iff]
      intro pkt hpkt
      rcases List.mem_append.mp hpkt with hpkt | hpkt
      · obtain ⟨obj, -, rfl⟩ := List.mem_map.mp hpkt
        simp [ScPacket.isMove]
      · obtain ⟨j, -, rfl⟩ := List.mem_map.mp hpkt
        simp [ScPacket.isMove]
    · rw [packetsOn_processMoveView_observer h ha ho hothers env hne old]
      by_cases hn : isInView o.pos moved.remote.pos = true <;>
        by_cases ho' : isInView o.pos old = true <;> simp [hn, ho', hne, ScPacket.isMove]

end Change

/-! ## A player that comes from afar -/

/-- Two characters have come to the origin. -/
def twoAtOrigin : World :=
  (((World.empty ⟨fun _ => 0⟩ 0).addPlayer 0 0 ⟨1, [65], 1, 0, 100, 100, 0, 0⟩).bind
    (addPlayer 1 1 ⟨2, [66], 1, 0, 100, 100, 0, 0⟩)).get (by decide)

theorem placed_twoAtOrigin : Placed twoAtOrigin := by
  have hadd : ((World.empty ⟨fun _ => 0⟩ 0).addPlayer 0 0 ⟨1, [65], 1, 0, 100, 100, 0, 0⟩).bind
      (addPlayer 1 1 ⟨2, [66], 1, 0, 100, 100, 0, 0⟩) = some twoAtOrigin :=
    (Option.some_get _).symm
  obtain ⟨v, hv, hw⟩ := Option.bind_eq_some_iff.mp hadd
  have hfirst := placed_addPlayer (placed_empty ⟨fun _ => 0⟩ 0) (by decide) rfl hv
  refine placed_addPlayer hfirst (by decide) ?_ hw
  obtain ⟨spawn, hget⟩ := getPlayer_addPlayer hv
  rw [hget, if_neg (by decide)]
  rfl

theorem apart_twoAtOrigin : Apart twoAtOrigin := by
  have hsession : ∀ p ∈ twoAtOrigin.players.entries, p.session = p.id := by decide
  intro i j p q hp hq hs
  rw [hsession p (PlayerTable.mem_of_find hp), hsession q (PlayerTable.mem_of_find hq)] at hs
  rw [← getPlayer_id hp, ← getPlayer_id hq, hs]

/-- The first of them was teleported there, and neither knew anything before. -/
theorem processMoveView_viewChange_twoAtOrigin :
    ViewChange twoAtOrigin (fun _ => .init) (ofPlayer ((twoAtOrigin.getPlayer 0).get (by decide)))
      ⟨500, 500⟩ (processMoveView .plain twoAtOrigin
        (ofPlayer ((twoAtOrigin.getPlayer 0).get (by decide))) ⟨500, 500⟩) := by
  have hfar : ∀ j r, twoAtOrigin.place j = some r → isInView ⟨500, 500⟩ r = false := by
    have hplayers : ∀ p ∈ twoAtOrigin.players.entries, isInView ⟨500, 500⟩ p.pos = false := by
      decide
    intro j r hr
    unfold place at hr
    split at hr
    · obtain ⟨p, hp, rfl⟩ := Option.map_eq_some_iff.mp hr
      exact hplayers p (PlayerTable.mem_of_find hp)
    · obtain ⟨m, hm, -⟩ := Option.bind_eq_some_iff.mp hr
      have hnone : twoAtOrigin.monsters.entries = [] := by decide
      have hmem := MonsterTable.mem_of_find hm
      rw [hnone] at hmem
      exact absurd hmem (by simp)
  have hp : twoAtOrigin.getPlayer 0 = some ((twoAtOrigin.getPlayer 0).get (by decide)) :=
    (Option.some_get _).symm
  have hsectored := placed_twoAtOrigin.sectored
  refine processMoveView_viewChange .plain twoAtOrigin _ _ _ hsectored apart_twoAtOrigin
    (.player _ (by rw [getPlayer_id hp]; exact hp)) ⟨fun o ho _ => ?_, fun me _ j => ?_⟩
  · have hview := hfar o.id o.pos (hsectored.place_player ho)
    rw [isInView_comm] at hview
    simp [GameState.Knows, GameState.init, hview]
  · refine ⟨fun hknows => absurd hknows (by simp [GameState.Knows, GameState.init]), ?_⟩
    rintro ⟨-, r, hr, hv⟩
    rw [hfar j r hr] at hv
    exact absurd hv (by simp)

end World

end Mmorpg
