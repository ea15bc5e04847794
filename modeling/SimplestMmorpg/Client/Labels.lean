/-
What a client takes an object for.

A client keeps the type and the name that `SC_ADD_OBJECT` said, as long as it
has the object; an id is given to another player when its session is gone. So
that they are those of the object that has the id now, no client may have an id
when it is given away, and this is what exact views say.
-/
import SimplestMmorpg.Client.ViewRun
import SimplestMmorpg.Server.StepEffects

set_option autoImplicit false

namespace Mmorpg

/-- What decides how an object is drawn. -/
structure Label where
  type : ObjectType
  name : Bytes
  deriving DecidableEq, Repr

def RemoteObject.label (obj : RemoteObject) : Label := ⟨obj.type, obj.name⟩

/-- An entry after a packet: it was there with its label, or is what was added. -/
theorem GameState.label_onPacket {state : GameState} {pkt : ScPacket} {id : ObjectID}
    {obj : RemoteObject} (h : (state.onPacket pkt).objects id = some obj) :
    (∃ old, state.objects id = some old ∧ old.label = obj.label) ∨
      (pkt = .addObject obj ∧ obj.id = id) := by
  cases pkt with
  | addObject new =>
      have hobjects : (state.onPacket (.addObject new)).objects id =
          if id = new.id then some new else state.objects id := Function.update_apply ..
      rw [hobjects] at h
      split at h
      · next hid => exact .inr ⟨by rw [Option.some.inj h], by rw [← Option.some.inj h, hid]⟩
      · exact .inl ⟨obj, h, rfl⟩
  | removeObject gone =>
      have hobjects : (state.onPacket (.removeObject gone)).objects id =
          if id = gone then none else state.objects id := Function.update_apply ..
      rw [hobjects] at h
      split at h
      · exact absurd h (by simp)
      · exact .inl ⟨obj, h, rfl⟩
  | moveObject moved pos moveTime =>
      simp only [onPacket] at h
      split at h
      · exact .inl ⟨obj, h, rfl⟩
      · have hobjects : (state.moveObject moved pos).objects id =
            if id = moved then (state.objects moved).map fun old => { old with pos := pos }
            else state.objects id := Function.update_apply ..
        rw [hobjects] at h
        split at h
        · next hid =>
            obtain ⟨old, hold, rfl⟩ := Option.map_eq_some_iff.mp h
            exact .inl ⟨old, by rw [hid]; exact hold, rfl⟩
        · exact .inl ⟨obj, h, rfl⟩
  | statChange other hp maxHp exp level =>
      simp only [onPacket] at h
      split at h
      · exact .inl ⟨obj, h, rfl⟩
      · exact .inl ⟨obj, h, rfl⟩
  | _ => exact .inl ⟨obj, h, rfl⟩

namespace World

variable {c : Scope} {env : Env} {w w' v : World} {id : ObjectID} {conn : ConnId} {p q : Player}
  {m : Monster} {obj : RemoteObject} {l : Label} {pkts : List (ConnId × ScPacket)}

/-- The label of the object that has the id. -/
def labelOf (w : World) (id : ObjectID) : Option Label := (w.remoteOf id).map RemoteObject.label

/-- **Who has the ids, and what the clients of the players take them for.** -/
structure Known (w : World) : Prop where
  playerId : ∀ id p, w.getPlayer id = some p → isPlayerId id = true
  labels : ∀ i p, w.getPlayer i = some p → ∀ id obj l,
    (w.client p.session).objects id = some obj → w.labelOf id = some l → obj.label = l

/-- What is in the tables has its label. -/
theorem Known.has (h : Known w) (hobj : w.Has obj) : w.labelOf obj.id = some obj.label := by
  unfold labelOf remoteOf
  cases hobj with
  | player p hp =>
      have hid : p.remote.id = p.id := rfl
      rw [hid, if_pos (h.playerId p.id p hp), hp]
      rfl
  | monster m hm =>
      have hid : m.remote.id = m.id := rfl
      rw [hid, not_isPlayerId (monsterIdOffset_le_of_getMonster hm), if_neg (by simp), hm]
      rfl

/-- **Packets about what is there keep what is known**, when nobody gets another
label. -/
theorem Known.sent (h : Known w) (pkts : List (ConnId × ScPacket))
    (hsent : w'.sent = w.sent ++ pkts)
    (hplayers : ∀ i q, w'.getPlayer i = some q → ∃ p, w.getPlayer i = some p ∧ p.session = q.session)
    (hlabels : ∀ id l, w'.labelOf id = some l → w.labelOf id = some l)
    (hadd : ∀ x ∈ pkts, ∀ obj, x.2 = .addObject obj → ∀ l, w'.labelOf obj.id = some l →
      obj.label = l) : Known w' where
  playerId i q hq := by
    obtain ⟨p, hp, -⟩ := hplayers i q hq
    exact h.playerId i p hp
  labels i q hq id obj l hobj hl := by
    obtain ⟨p, hp, hs⟩ := hplayers i q hq
    rw [client_append hsent, ← hs] at hobj
    have hmem : ∀ pkt ∈ (pkts.filter fun x => x.1 = p.session).map (·.2), ∀ obj,
        pkt = .addObject obj → ∀ l, w'.labelOf obj.id = some l → obj.label = l := by
      intro pkt hpkt
      obtain ⟨x, hx, rfl⟩ := List.mem_map.mp hpkt
      exact hadd x (List.mem_filter.mp hx).1
    have hbefore : ∀ id obj l, (w.client p.session).objects id = some obj →
        w'.labelOf id = some l → obj.label = l :=
      fun id obj l hobj hl => h.labels i p hp id obj l hobj (hlabels id l hl)
    generalize w.client p.session = state at hobj hbefore
    generalize (pkts.filter fun x => x.1 = p.session).map (·.2) = onConn at hobj hmem
    -- each packet leaves every entry with the label of its id
    induction onConn generalizing state with
    | nil => exact hbefore id obj l hobj hl
    | cons pkt onConn ih =>
        obtain ⟨hpkt, hrest⟩ := List.forall_mem_cons.mp hmem
        refine ih (state.onPacket pkt) (fun id obj l hobj hl => ?_) hobj hrest
        rcases GameState.label_onPacket hobj with ⟨old, hold, hlabel⟩ | ⟨heq, hid⟩
        · rw [← hlabel]
          exact hbefore id old l hold hl
        · exact hpkt obj heq l (by rw [hid]; exact hl)

/-- The tables stay, and nothing is sent. -/
theorem Known.congr (h : Known w) (hp : w'.players = w.players) (hm : w'.monsters = w.monsters)
    (hs : w'.sent = w.sent) : Known w' := by
  have hget : ∀ i, w'.getPlayer i = w.getPlayer i := fun i => by rw [getPlayer, hp]; rfl
  have hlabel : w'.labelOf = w.labelOf := by
    funext id
    unfold labelOf remoteOf getPlayer getMonster
    rw [hp, hm]
  refine h.sent [] (by rw [hs, List.append_nil]) (fun i q hq => ⟨q, by rw [← hget]; exact hq, rfl⟩)
    (fun id l hl => by rw [← hlabel]; exact hl) fun x hx => absurd hx List.not_mem_nil

/-- A player is written that keeps its connection and its name. -/
theorem Known.setPlayer (h : Known w) (hp : w.getPlayer p.id = some p) (hid : q.id = p.id)
    (hs : q.session = p.session) (hname : q.name = p.name) : Known (w.setPlayer q) := by
  refine h.sent [] (List.append_nil w.sent).symm (fun i r hr => ?_) (fun id l hl => ?_)
    fun x hx => absurd hx List.not_mem_nil
  · rw [getPlayer_setPlayer] at hr
    split at hr
    · next hi =>
        obtain rfl := Option.some.inj hr
        exact ⟨p, by rw [hi, hid]; exact hp, hs.symm⟩
    · exact ⟨r, hr, rfl⟩
  · have hsame : (w.setPlayer q).labelOf id = w.labelOf id := by
      unfold labelOf remoteOf
      rw [getPlayer_setPlayer]
      by_cases hi : id = q.id
      · have hlabel : q.remote.label = p.remote.label := by
          unfold Player.remote RemoteObject.label
          rw [hname]
        rw [if_pos hi, hi, hid, if_pos (h.playerId p.id p hp), if_pos (h.playerId p.id p hp), hp,
          Option.map_some, Option.map_some, Option.map_some, Option.map_some, hlabel]
      · rw [if_neg hi]
        rfl
    rw [← hsame]
    exact hl

/-- A monster is written that is the same one. -/
theorem Known.setMonster (h : Known w) {m' : Monster} (hm : w.getMonster m.id = some m)
    (hspec : m'.spec = m.spec) : Known (w.setMonster m') := by
  have hid : m'.id = m.id := congrArg Monster.Spec.id hspec
  have hlabel : m'.remote.label = m.remote.label := by
    have hname : m'.name = m.name := congrArg Monster.Spec.name hspec
    unfold Monster.remote RemoteObject.label
    rw [hname]
  refine h.sent [] (List.append_nil w.sent).symm (fun i r hr => ⟨r, hr, rfl⟩) (fun id l hl => ?_)
    fun x hx => absurd hx List.not_mem_nil
  have hsame : (w.setMonster m').labelOf id = w.labelOf id := by
    unfold labelOf remoteOf
    rw [getPlayer_setMonster, getMonster_setMonster (m := m') (by rw [hid]; exact hm)]
    by_cases hi : id = m'.id
    · rw [if_pos hi, hi, hid, hm]
      have hnot := not_isPlayerId (monsterIdOffset_le_of_getMonster hm)
      rw [hnot, if_neg (by simp), if_neg (by simp), Option.map_some, Option.map_some,
        Option.map_some, Option.map_some, hlabel]
    · rw [if_neg hi]
  rw [← hsame]
  exact hl

/-- A packet that adds nothing. -/
theorem Known.send (h : Known w) (conn : ConnId) {pkt : ScPacket}
    (hadd : ∀ obj, pkt = .addObject obj → w.Has obj) : Known (w.send conn pkt) := by
  refine h.sent [(conn, pkt)] rfl (fun i q hq => ⟨q, hq, rfl⟩) (fun id l hl => hl) ?_
  intro x hx obj hobj l hl
  rw [List.mem_singleton.mp hx] at hobj
  exact Option.some.inj ((h.has (hadd obj hobj)).symm.trans hl)

end World

namespace Server

open World

variable {s : Server} {e : Event}

end Server

end Mmorpg
