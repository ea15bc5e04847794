/-
What a client shows, against what its player sees.

The table of a client is read as positions, and each packet as a message of
`Lib/ViewSync` about one object. `Sees` is that a player's client shows the
other players and the live monsters in view, each where it is, and nothing
else. `Sees.update` reduces a change of the world to the messages it sends to
that client: for each object, they must turn what was to be shown into what is
to be shown.
-/
import SimplestMmorpg.Client.GameState
import SimplestMmorpg.Game.Placement
import SimplestMmorpg.Lib.ViewSync

set_option autoImplicit false

namespace Mmorpg

open ViewSync ViewProcessor

/-- What a packet says to the client of the player `self`. -/
def ScPacket.msg (self : ObjectID) : ScPacket → Option (Msg ObjectID Position)
  | .addObject obj => some (.appear obj.id obj.pos)
  | .removeObject id => some (.vanish id)
  | .moveObject id pos _ => if id = self then none else some (.shift id pos)
  | _ => none

def ScPacket.IsLoginOk : ScPacket → Prop
  | .loginOk .. => True
  | _ => False

theorem ScPacket.Quiet.msg_eq_none {pkt : ScPacket} {self : ObjectID} (h : pkt.Quiet self) :
    pkt.msg self = none ∧ ¬ pkt.IsLoginOk := by
  cases pkt <;> simp_all [ScPacket.Quiet, ScPacket.msg, ScPacket.IsLoginOk]

namespace GameState

/-- The ids in `m_objects`, with the position of each. -/
def table (state : GameState) (id : ObjectID) : Option Position := (state.objects id).map (·.pos)

/-- A packet other than `SC_LOGIN_OK` does to the table what its message says. -/
theorem table_onPacket (state : GameState) {pkt : ScPacket} (h : ¬ pkt.IsLoginOk) :
    (state.onPacket pkt).me.id = state.me.id ∧
      (state.onPacket pkt).table = applyAll state.table (pkt.msg state.me.id).toList := by
  cases pkt with
  | loginOk => exact absurd trivial h
  | loginFail reason => exact ⟨rfl, rfl⟩
  | addObject obj =>
      refine ⟨rfl, ?_⟩
      funext i
      simp only [ScPacket.msg, Option.toList_some, applyAll, List.foldl_cons, List.foldl_nil,
        apply, Msg.about, Msg.entry, onPacket, addObject, table]
      by_cases hi : i = obj.id
      · subst hi; simp
      · simp only [Function.update_of_ne hi, table]
  | removeObject id =>
      refine ⟨rfl, ?_⟩
      funext i
      simp only [ScPacket.msg, Option.toList_some, applyAll, List.foldl_cons, List.foldl_nil,
        apply, Msg.about, Msg.entry, onPacket, removeObject, table]
      by_cases hi : i = id
      · subst hi; simp
      · simp only [Function.update_of_ne hi, table]
  | moveObject id pos moveTime =>
      by_cases hid : id = state.me.id
      · simp only [onPacket, if_pos hid, ScPacket.msg]
        exact ⟨rfl, rfl⟩
      · simp only [onPacket, if_neg hid, ScPacket.msg]
        refine ⟨rfl, ?_⟩
        funext i
        simp only [Option.toList_some, applyAll, List.foldl_cons, List.foldl_nil, apply,
          Msg.about, Msg.entry, moveObject, table]
        by_cases hi : i = id
        · subst hi; simp [Function.comp_def]
        · simp only [Function.update_of_ne hi, table]
  | statChange id hp maxHp exp level =>
      simp only [onPacket]
      split
      · exact ⟨rfl, rfl⟩
      · exact ⟨rfl, rfl⟩
  | chat => exact ⟨rfl, rfl⟩
  | combatMessage => exact ⟨rfl, rfl⟩
  | attackEffect => exact ⟨rfl, rfl⟩

/-- The same for a list of packets. -/
theorem table_foldl (state : GameState) (pkts : List ScPacket) (h : ∀ pkt ∈ pkts, ¬ pkt.IsLoginOk) :
    (pkts.foldl onPacket state).me.id = state.me.id ∧
      (pkts.foldl onPacket state).table =
        applyAll state.table (pkts.filterMap (ScPacket.msg state.me.id)) := by
  induction pkts generalizing state with
  | nil => exact ⟨rfl, rfl⟩
  | cons pkt pkts ih =>
      obtain ⟨hp, hps⟩ := List.forall_mem_cons.mp h
      obtain ⟨hid, htab⟩ := state.table_onPacket hp
      obtain ⟨hid', htab'⟩ := ih (state.onPacket pkt) hps
      refine ⟨hid'.trans hid, ?_⟩
      rw [List.foldl_cons, htab', htab, hid, ← applyAll_append]
      congr 1
      cases hm : pkt.msg state.me.id with
      | none => rw [List.filterMap_cons_none hm]; rfl
      | some m => rw [List.filterMap_cons_some hm]; rfl

end GameState

namespace World

/-- The client at the other end of a connection, when it has applied what was
sent to it. -/
def client (w : World) (conn : ConnId) : GameState :=
  .after ((w.sent.filter fun x => x.1 = conn).map (·.2))

/-- What a list of packets says to the client of a player. -/
def msgsTo (p : Player) (pkts : List (ConnId × ScPacket)) : List (Msg ObjectID Position) :=
  pkts.filterMap fun x => if x.1 = p.session then x.2.msg p.id else none

/-- No packet of the list logs the player in. -/
def NoLogin (p : Player) (pkts : List (ConnId × ScPacket)) : Prop :=
  ∀ x ∈ pkts, x.1 = p.session → ¬ x.2.IsLoginOk

/-- What a player is to be shown of an object: the others in view. -/
def expected (w : World) (p : Player) (id : ObjectID) : Option Position :=
  if id = p.id then none else (w.place id).filter (isInView p.pos)

/-- **A player's client shows what the player sees**, and knows its own id. -/
structure Sees (w : World) (p : Player) : Prop where
  me : (w.client p.session).me.id = p.id
  table : ∀ id, (w.client p.session).table id = w.expected p id

variable {env : Env} {w w' : World} {p p' o q : Player} {m : Monster} {i j : ObjectID}
  {pos a b : Position} {pkts more : List (ConnId × ScPacket)} {msg : Msg ObjectID Position}

theorem client_append (hsent : w'.sent = w.sent ++ pkts) (conn : ConnId) :
    w'.client conn =
      ((pkts.filter fun x => x.1 = conn).map (·.2)).foldl GameState.onPacket (w.client conn) := by
  rw [client, hsent, List.filter_append, List.map_append, GameState.after_append, ← client]

/-- What is said to a client, read from the packets sent on its connection. -/
theorem filterMap_msg (p : Player) (pkts : List (ConnId × ScPacket)) :
    ((pkts.filter fun x => x.1 = p.session).map (·.2)).filterMap (ScPacket.msg p.id) =
      msgsTo p pkts := by
  rw [List.filterMap_map, List.filterMap_filter]
  refine List.filterMap_congr fun x _ => ?_
  simp

/-- How a client comes to show what its player sees: for each object the
messages turn what the client shows into what is to be shown. -/
theorem sees_of_turns (pkts : List (ConnId × ScPacket))
    (hme : (w.client p.session).me.id = p.id) (hsent : w'.sent = w.sent ++ pkts)
    (hlogin : NoLogin p pkts) (hid : p'.id = p.id) (hsession : p'.session = p.session)
    (hturns : ∀ id, Turns (msgsTo p pkts) id ((w.client p.session).table id) (w'.expected p' id)) :
    Sees w' p' := by
  have hno : ∀ pkt ∈ (pkts.filter fun x => x.1 = p.session).map (·.2), ¬ pkt.IsLoginOk := by
    intro pkt hpkt
    obtain ⟨x, hx, rfl⟩ := List.mem_map.mp hpkt
    obtain ⟨hx, hc⟩ := List.mem_filter.mp hx
    exact hlogin x hx (by simpa using hc)
  obtain ⟨hme', htab⟩ := GameState.table_foldl (w.client p.session) _ hno
  rw [← client_append hsent, hme] at hme'
  rw [← client_append hsent, hme, filterMap_msg] at htab
  refine ⟨by rw [hsession, hme', hid], fun id => ?_⟩
  rw [hsession, htab]
  exact hturns id _ rfl

/-- **How a client follows a change.** Its player keeps its id and connection,
and for each object the messages turn what was to be shown into what is. -/
theorem Sees.update (h : Sees w p) (pkts : List (ConnId × ScPacket)) (hsent : w'.sent = w.sent ++ pkts) (hlogin : NoLogin p pkts)
    (hid : p'.id = p.id) (hsession : p'.session = p.session)
    (hturns : ∀ id, Turns (msgsTo p pkts) id (w.expected p id) (w'.expected p' id)) :
    Sees w' p' :=
  sees_of_turns pkts h.me hsent hlogin hid hsession fun id => by
    rw [h.table id]
    exact hturns id

/-- Nothing is said to the client, and nothing changed for it. -/
theorem Sees.congr (h : Sees w p) (pkts : List (ConnId × ScPacket)) (hsent : w'.sent = w.sent ++ pkts) (hlogin : NoLogin p pkts)
    (hid : p'.id = p.id) (hsession : p'.session = p.session)
    (hmsgs : msgsTo p pkts = []) (hexp : ∀ id, w'.expected p' id = w.expected p id) :
    Sees w' p' :=
  h.update pkts hsent hlogin hid hsession fun id => by
    rw [hexp id, hmsgs]
    exact .unchanged fun m hm => absurd hm (by simp)

theorem msgsTo_append : msgsTo p (pkts ++ more) = msgsTo p pkts ++ msgsTo p more :=
  List.filterMap_append

theorem mem_msgsTo : msg ∈ msgsTo p pkts ↔
    ∃ pkt, (p.session, pkt) ∈ pkts ∧ pkt.msg p.id = some msg := by
  rw [msgsTo, List.mem_filterMap]
  constructor
  · rintro ⟨x, hx, hm⟩
    split at hm
    · next hc => exact ⟨x.2, by rw [← hc]; exact hx, hm⟩
    · exact absurd hm (by simp)
  · rintro ⟨pkt, hpkt, hm⟩
    exact ⟨(p.session, pkt), hpkt, by rw [if_pos rfl]; exact hm⟩

theorem mem_msgsTo_flatMap {α : Type} {l : List α} {f : α → List (ConnId × ScPacket)} :
    msg ∈ msgsTo p (l.flatMap f) ↔ ∃ x ∈ l, msg ∈ msgsTo p (f x) := by
  simp only [mem_msgsTo, List.mem_flatMap]
  constructor
  · rintro ⟨pkt, ⟨x, hx, hpkt⟩, hm⟩
    exact ⟨x, hx, pkt, hpkt, hm⟩
  · rintro ⟨x, hx, pkt, hpkt, hm⟩
    exact ⟨pkt, ⟨x, hx, hpkt⟩, hm⟩

/-! ## What is sent on a connection -/

/-- The packets for one connection, in order. -/
def packetsOn (conn : ConnId) (pkts : List (ConnId × ScPacket)) : List ScPacket :=
  (pkts.filter fun x => x.1 = conn).map (·.2)

variable {conn : ConnId} {pkt : ScPacket}

theorem packetsOn_append :
    packetsOn conn (pkts ++ more) = packetsOn conn pkts ++ packetsOn conn more := by
  rw [packetsOn, List.filter_append, List.map_append]
  rfl

theorem packetsOn_flatMap {α : Type} (l : List α) (f : α → List (ConnId × ScPacket)) :
    packetsOn conn (l.flatMap f) = l.flatMap fun x => packetsOn conn (f x) := by
  unfold packetsOn
  rw [List.filter_flatMap, List.map_flatMap]

@[simp] theorem packetsOn_nil : packetsOn conn [] = [] := rfl

theorem packetsOn_cons_self (pkt : ScPacket) :
    packetsOn conn ((conn, pkt) :: pkts) = pkt :: packetsOn conn pkts := by
  simp [packetsOn]

theorem packetsOn_cons_of_ne {c : ConnId} (h : c ≠ conn) (pkt : ScPacket) :
    packetsOn conn ((c, pkt) :: pkts) = packetsOn conn pkts := by
  simp [packetsOn, h]

theorem packetsOn_eq_nil (h : ∀ x ∈ pkts, x.1 ≠ conn) : packetsOn conn pkts = [] := by
  rw [packetsOn, List.map_eq_nil_iff, List.filter_eq_nil_iff]
  intro x hx
  simpa using h x hx

theorem mem_packetsOn : pkt ∈ packetsOn conn pkts ↔ (conn, pkt) ∈ pkts := by
  unfold packetsOn
  rw [List.mem_map]
  constructor
  · rintro ⟨⟨c, pkt'⟩, hmem, rfl⟩
    obtain ⟨hmem, hc⟩ := List.mem_filter.mp hmem
    rw [← of_decide_eq_true hc]
    exact hmem
  · intro hmem
    exact ⟨(conn, pkt), List.mem_filter.mpr ⟨hmem, decide_eq_true rfl⟩, rfl⟩

theorem msgsTo_eq (p : Player) (pkts : List (ConnId × ScPacket)) :
    msgsTo p pkts = (packetsOn p.session pkts).filterMap (ScPacket.msg p.id) :=
  (filterMap_msg p pkts).symm

/-- The players have connections of their own. -/
def Apart (w : World) : Prop :=
  ∀ i j p q, w.getPlayer i = some p → w.getPlayer j = some q → p.session = q.session → i = j

theorem Apart.eq (h : Apart w) (hp : w.getPlayer i = some p) (hq : w.getPlayer j = some q)
    (hs : p.session = q.session) : p = q := by
  obtain rfl := h i j p q hp hq hs
  exact Option.some.inj (hp.symm.trans hq)

/-- **The views are exact**: everybody is in place, and the client of each
player shows what the player sees. -/
structure Exact (w : World) : Prop where
  placed : Placed w
  apart : Apart w
  sees : ∀ id p, w.getPlayer id = some p → Sees w p

/-! ## Changes of one object -/

/-- The packets say nothing to the client of `o` but about `k`, and turn its
entry `x` for it into `y`. -/
structure Told (o : Player) (pkts : List (ConnId × ScPacket)) (k : ObjectID)
    (x y : Option Position) : Prop where
  noLogin : NoLogin o pkts
  about : ∀ msg ∈ msgsTo o pkts, msg.about = k
  turns : Turns (msgsTo o pkts) k x y

theorem Told.append {k : ObjectID} {x y z : Option Position} (h : Told o pkts k x y)
    (h' : Told o more k y z) : Told o (pkts ++ more) k x z where
  noLogin v hv := by
    rcases List.mem_append.mp hv with hv | hv
    · exact h.noLogin v hv
    · exact h'.noLogin v hv
  about msg hmsg := by
    rw [msgsTo_append] at hmsg
    rcases List.mem_append.mp hmsg with hmsg | hmsg
    · exact h.about msg hmsg
    · exact h'.about msg hmsg
  turns := by
    rw [msgsTo_append]
    exact h.turns.append h'.turns

theorem Told.congr {k : ObjectID} {x y : Option Position} (h : Told p pkts k x y)
    (hid : o.id = p.id) (hs : o.session = p.session) : Told o pkts k x y := by
  have hmsgs : msgsTo o pkts = msgsTo p pkts := by rw [msgsTo, msgsTo, hid, hs]
  refine ⟨fun v hv hc => h.noLogin v hv (hc.trans hs), ?_, ?_⟩
  · rw [hmsgs]
    exact h.about
  · rw [hmsgs]
    exact h.turns

/-- What says nothing to the client. -/
theorem Told.of_nil {k : ObjectID} {x : Option Position} (hlogin : NoLogin o pkts)
    (hmsgs : msgsTo o pkts = []) : Told o pkts k x x where
  noLogin := hlogin
  about msg hmsg := absurd hmsg (by simp [hmsgs])
  turns := .unchanged fun msg hmsg => absurd hmsg (by simp [hmsgs])

/-- What is sent to others. -/
theorem Told.other {k : ObjectID} {x : Option Position} (h : ∀ v ∈ pkts, v.1 ≠ o.session) :
    Told o pkts k x x :=
  .of_nil (fun v hv hc => absurd hc (h v hv)) <|
    List.filterMap_eq_nil_iff.mpr fun v hv => if_neg (h v hv)

/-- The client is sent one packet, and that under a condition. -/
theorem Told.of_mem_iff {c : Prop} [Decidable c] {x : Option Position} (pkt₀ : ScPacket)
    (m₀ : Msg ObjectID Position) (h : ∀ pkt, (o.session, pkt) ∈ pkts ↔ c ∧ pkt = pkt₀)
    (hmsg : pkt₀.msg o.id = some m₀) : Told o pkts m₀.about x (if c then m₀.entry x else x) := by
  have hmem : ∀ msg, msg ∈ msgsTo o pkts ↔ c ∧ msg = m₀ := by
    intro msg
    rw [mem_msgsTo]
    constructor
    · rintro ⟨pkt, hpkt, hm⟩
      obtain ⟨hc, rfl⟩ := (h pkt).mp hpkt
      exact ⟨hc, Option.some.inj (hm.symm.trans hmsg)⟩
    · rintro ⟨hc, rfl⟩
      exact ⟨pkt₀, (h pkt₀).mpr ⟨hc, rfl⟩, hmsg⟩
  refine ⟨fun v hv hs => ?_, fun msg hm => ?_, .of_mem_iff hmem⟩
  · obtain ⟨-, hpkt⟩ := (h v.2).mp (by rw [← hs]; exact hv)
    rw [hpkt]
    cases pkt₀ with
    | loginOk => exact absurd hmsg (by simp [ScPacket.msg])
    | _ => exact id
  · rw [((hmem msg).mp hm).2]

/-- Who is another than the one that changed was there before. -/
theorem player_of_others {k : ObjectID} (hothers : ∀ i, i ≠ k →
      (w'.getPlayer i).map Player.ident = (w.getPlayer i).map Player.ident)
    (hik : i ≠ k) (hp : w'.getPlayer i = some p) :
    ∃ o, w.getPlayer i = some o ∧ p.ident = o.ident := by
  have hident := hothers i hik
  rw [hp] at hident
  obtain ⟨o, ho, hi⟩ := Option.map_eq_some_iff.mp hident.symm
  exact ⟨o, ho, hi.symm⟩

/-- The connections stay apart when one player changes, if its own is nobody
else's. -/
theorem Apart.of_others (h : Apart w) {k : ObjectID} (hothers : ∀ i, i ≠ k →
      (w'.getPlayer i).map Player.ident = (w.getPlayer i).map Player.ident)
    (hown : ∀ p, w'.getPlayer k = some p → ∀ i o, i ≠ k → w.getPlayer i = some o →
      p.session ≠ o.session) : Apart w' := by
  have hsess : ∀ {p o : Player}, p.ident = o.ident → p.session = o.session := fun hi =>
    congrArg Player.Ident.session hi
  intro i j p q hp hq hs
  by_cases hik : i = k <;> by_cases hjk : j = k
  · rw [hik, hjk]
  · subst hik
    obtain ⟨o, ho, hio⟩ := player_of_others hothers hjk hq
    exact absurd (hs.trans (hsess hio)) (hown p hp j o hjk ho)
  · subst hjk
    obtain ⟨o, ho, hio⟩ := player_of_others hothers hik hp
    exact absurd (hs.symm.trans (hsess hio)) (hown q hq i o hik ho)
  · obtain ⟨o, ho, hio⟩ := player_of_others hothers hik hp
    obtain ⟨o', ho', hio'⟩ := player_of_others hothers hjk hq
    exact h i j o o' ho ho' ((hsess hio).symm.trans (hs.trans (hsess hio')))

/-- **One object comes, goes or moves.** The views stay exact when every
onlooker is told of it, and when its own player, if it has one, sees what it
should. -/
theorem Exact.update (h : Exact w) (pkts : List (ConnId × ScPacket)) {k : ObjectID}
    {y : Option Position} (hplaced : Placed w')
    (hplace : w'.place = Function.update w.place k y) (hsent : w'.sent = w.sent ++ pkts)
    (hothers : ∀ i, i ≠ k →
      (w'.getPlayer i).map Player.ident = (w.getPlayer i).map Player.ident)
    (hown : ∀ p, w'.getPlayer k = some p → ∀ i o, i ≠ k → w.getPlayer i = some o →
      p.session ≠ o.session)
    (htold : ∀ o, w.getPlayer o.id = some o → o.id ≠ k →
      Told o pkts k ((w.place k).filter (isInView o.pos)) (y.filter (isInView o.pos)))
    (hself : ∀ p, w'.getPlayer k = some p → Sees w' p) : Exact w' := by
  refine ⟨hplaced, h.apart.of_others hothers hown, fun i p hp => ?_⟩
  by_cases hik : i = k
  · subst hik
    exact hself p hp
  · obtain ⟨o, ho, hio⟩ := player_of_others hothers hik hp
    obtain rfl := getPlayer_id ho
    have hid : p.id = o.id := congrArg Player.Ident.id hio
    have hpos : p.pos = o.pos := congrArg Player.Ident.pos hio
    obtain ⟨hlogin, habout, hturns⟩ := htold o ho hik
    refine (h.sees _ o ho).update pkts hsent hlogin hid (congrArg Player.Ident.session hio)
      fun id => ?_
    rw [expected, expected, hid, hpos, hplace]
    split
    · next hself =>
        exact .unchanged fun msg hmsg heq => hik (hself ▸ heq ▸ habout msg hmsg)
    · by_cases hidk : id = k
      · subst hidk
        rw [Function.update_self]
        exact hturns
      · rw [Function.update_of_ne hidk]
        exact .unchanged fun msg hmsg heq => hidk (heq ▸ habout msg hmsg)

/-! ## Inert changes -/

theorem Inert.apart (h : Inert w w') (ha : Apart w) : Apart w' := by
  intro i j p q hp hq hs
  obtain ⟨p₀, hp₀, hip⟩ := h.player hp
  obtain ⟨q₀, hq₀, hiq⟩ := h.player hq
  refine ha i j p₀ q₀ hp₀ hq₀ ?_
  have h1 : p₀.session = p.session := congrArg Player.Ident.session hip
  have h2 : q₀.session = q.session := congrArg Player.Ident.session hiq
  rw [h1, h2, hs]

/-- Quiet packets say nothing to anybody. -/
theorem msgsTo_quiet (ha : Apart w) (hp : w.getPlayer p.id = some p)
    (hq : ∀ x ∈ pkts, w.QuietSend x) : msgsTo p pkts = [] ∧ NoLogin p pkts := by
  have hquiet : ∀ x ∈ pkts, x.1 = p.session → x.2.Quiet p.id := by
    intro x hx hc
    obtain ⟨r, hr, hrs, hrq⟩ := hq x hx
    rwa [← ha.eq hr hp (hrs.symm.trans hc)]
  refine ⟨List.filterMap_eq_nil_iff.mpr fun x hx => ?_, fun x hx hc => ?_⟩
  · split
    · next hc => exact (hquiet x hx hc).msg_eq_none.1
    · rfl
  · exact (hquiet x hx hc).msg_eq_none.2

/-- Inert changes keep a client exact. -/
theorem Sees.inert (h : Sees w p) (ha : Apart w) (hp : w.getPlayer p.id = some p)
    (hi : Inert w w') (hident : p'.ident = p.ident) : Sees w' p' := by
  obtain ⟨pkts, hsent, hquiet⟩ := hi.sent
  obtain ⟨hmsgs, hlogin⟩ := msgsTo_quiet ha hp hquiet
  have hid : p'.id = p.id := congrArg Player.Ident.id hident
  have hpos : p'.pos = p.pos := congrArg Player.Ident.pos hident
  refine h.congr pkts hsent hlogin hid (congrArg Player.Ident.session hident) hmsgs fun id => ?_
  rw [expected, expected, hid, hpos, hi.place]

theorem Exact.inert (h : Exact w) (hi : Inert w w') : Exact w' where
  placed := h.placed.inert hi
  apart := hi.apart h.apart
  sees id p hp := by
    obtain ⟨q, hq, hident⟩ := hi.player hp
    exact (h.sees id q hq).inert h.apart (by rw [getPlayer_id hq, hq]) hi hident.symm

end World

end Mmorpg
