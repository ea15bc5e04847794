/-
What `ViewProcessor` says to each client.

For every function that sends view packets there are two questions: what it
says to a player who looks on, and what it says to the player it is about. In
a world whose sectors know where everybody is, both answers only depend on who
has whom in view, since a range query finds everybody who could be.
-/
import SimplestMmorpg.Client.View
import Mathlib.Data.List.Dedup

set_option autoImplicit false

namespace Mmorpg.World

open ViewSync ViewProcessor

variable {env : Env} {w : World} {o q : Player} {m : Monster} {moved : GameObject} {i j : ObjectID}
  {pos a : Position} {pkt : ScPacket} {msg : Msg ObjectID Position}

/-! ## Who is in a view -/

theorem nearby_of_view (h : Sectored w) (hj : w.place j = some a)
    (hv : isInView pos a = true) : j ∈ w.getNearbyObjects env pos :=
  h.sectors.nearby_of_close env.iter_perm hj (h.inMap _ _ hj) (close_of_isInView hv).1
    (close_of_isInView hv).2

theorem mem_viewFrom : j ∈ viewFrom env w moved pos ↔
    j ∈ w.getNearbyObjects env pos ∧ seenFrom w moved pos j = true := by
  rw [viewFrom, Env.mem_iter, List.mem_dedup, List.mem_filter]

/-- A player who looks on is in the view from a tile when it has the tile in
view. -/
theorem observer_mem_viewFrom (env : Env) (h : Sectored w) (ho : w.getPlayer o.id = some o)
    (hne : o.id ≠ moved.remote.id) :
    o.id ∈ viewFrom env w moved pos ↔ isInView o.pos pos = true := by
  have hseen : seenFrom w moved pos o.id = isInView o.pos pos := by
    rw [seenFrom, if_neg hne, if_pos (h.isPlayerId ho), ho]
  rw [mem_viewFrom, hseen]
  refine ⟨And.right, fun hv => ⟨?_, hv⟩⟩
  exact nearby_of_view h (h.place_player ho) (by rw [isInView_comm]; exact hv)

/-- The view of a player from a tile: everybody else who is in view of it. -/
theorem mem_viewFrom_ofPlayer (h : Sectored w) :
    j ∈ viewFrom env w (ofPlayer q) pos ↔
      j ≠ q.id ∧ ∃ r, w.place j = some r ∧ isInView pos r = true := by
  rw [mem_viewFrom]
  unfold seenFrom
  constructor
  · rintro ⟨hnear, hseen⟩
    split at hseen
    · exact absurd hseen (by simp)
    · next hne =>
        refine ⟨hne, ?_⟩
        split at hseen
        · split at hseen
          · exact absurd hseen (by simp)
          · next other hother =>
              exact ⟨other.pos, h.place_player hother, by rw [isInView_comm]; exact hseen⟩
        · split at hseen
          · exact absurd hseen (by simp)
          · split at hseen
            · exact absurd hseen (by simp)
            · next monster hm =>
                -- what a range query finds is placed, so the monster is alive
                obtain ⟨r, hr⟩ := h.sectors.placed_of_nearby env.iter_perm hnear
                have hr' := hr
                rw [place_of_getMonster hm] at hr'
                split at hr'
                · exact absurd hr' (by simp)
                · exact ⟨r, hr, by rw [← Option.some.inj hr']; exact hseen⟩
  · rintro ⟨hne, r, hr, hv⟩
    refine ⟨nearby_of_view h hr hv, ?_⟩
    rw [if_neg (show ¬ j = (ofPlayer q).remote.id from hne)]
    unfold place at hr
    split at hr
    · next hpl =>
        rw [if_pos hpl]
        obtain ⟨other, hother, rfl⟩ := Option.map_eq_some_iff.mp hr
        rw [hother]
        dsimp only
        rwa [isInView_comm]
    · next hpl =>
        rw [if_neg hpl, if_neg (by simp [ofPlayer])]
        obtain ⟨monster, hm, hmpos⟩ := Option.bind_eq_some_iff.mp hr
        rw [hm]
        split at hmpos
        · exact absurd hmpos (by simp)
        · rw [← Option.some.inj hmpos] at hv
          exact hv

/-- In a list without repetition only one element can be this one. -/
theorem flatMap_single {α β : Type} [DecidableEq α] {l : List α} (hl : l.Nodup) (k : α)
    (b : List β) : (l.flatMap fun x => if x = k then b else []) = if k ∈ l then b else [] := by
  induction l with
  | nil => rfl
  | cons x l ih =>
      obtain ⟨hx, hl⟩ := List.nodup_cons.mp hl
      rw [List.flatMap_cons, ih hl]
      by_cases hxk : x = k
      · subst hxk
        rw [if_pos rfl, if_neg hx, if_pos (by simp), List.append_nil]
      · rw [if_neg hxk, List.nil_append]
        simp only [List.mem_cons, Ne.symm hxk, false_or]

theorem nodup_viewFrom : (viewFrom env w moved pos).Nodup :=
  (env.iter_perm _).nodup_iff.mpr (List.nodup_dedup _)

/-! ## What is said to a player who looks on -/

section Observer

variable (h : Sectored w) (ha : Apart w) (ho : w.getPlayer o.id = some o)
  (hne : o.id ≠ moved.remote.id)
  (hme : ∀ me, moved.asPlayer = some me → me.session ≠ o.session)

include hme in
/-- What is sent to the one that moved is not sent to the other. -/
theorem packetsOn_own_observer (f : Player → ConnId × ScPacket) (hf : ∀ me, (f me).1 = me.session) :
    packetsOn o.session (moved.asPlayer.map f).toList = [] := by
  refine packetsOn_eq_nil fun x hx => ?_
  obtain ⟨me, hmoved, rfl⟩ := Option.map_eq_some_iff.mp (Option.mem_toList.mp hx)
  rw [hf]
  exact hme me hmoved

include ha ho

/-- The player with this id is the one who looks on, or another with another
connection. -/
theorem getPlayer_observer {other : Player} (hj : w.getPlayer j = some other) :
    j = o.id ∧ other = o ∨ j ≠ o.id ∧ other.session ≠ o.session := by
  by_cases hjo : j = o.id
  · rw [hjo, ho] at hj
    exact .inl ⟨hjo, (Option.some.inj hj).symm⟩
  · exact .inr ⟨hjo, fun hs => hjo (ha j o.id other o hj ho hs)⟩

/-- One packet to the player with this id. -/
theorem packetsOn_player_observer (f : Player → ConnId × ScPacket)
    (hf : ∀ other, (f other).1 = other.session) :
    packetsOn o.session ((w.getPlayer j).map f).toList = if j = o.id then [(f o).2] else [] := by
  cases hj : w.getPlayer j with
  | none =>
      rw [if_neg]
      · rfl
      · rintro rfl
        exact absurd (ho.symm.trans hj) (by simp)
  | some other =>
      rw [Option.map_some, Option.toList_some]
      rcases getPlayer_observer ha ho hj with ⟨hjo, rfl⟩ | ⟨hjo, hs⟩
      · rw [if_pos hjo, ← Prod.mk.eta (p := f other), hf, packetsOn_cons_self]
        rfl
      · rw [if_neg hjo, ← Prod.mk.eta (p := f other), packetsOn_cons_of_ne (by rw [hf]; exact hs)]
        rfl

include h hme

theorem packetsOn_appear_observer : packetsOn o.session (appear w moved j) =
    if j = o.id then [.addObject moved.remote] else [] := by
  have hown := fun obj => packetsOn_own_observer hme (sendAddObject · obj) fun _ => rfl
  unfold appear
  by_cases hpl : isPlayerId j = true
  · rw [if_pos hpl]
    cases hj : w.getPlayer j with
    | none =>
        rw [if_neg]
        · rfl
        · rintro rfl
          exact absurd (ho.symm.trans hj) (by simp)
    | some other =>
        dsimp only
        rcases getPlayer_observer ha ho hj with ⟨hjo, rfl⟩ | ⟨hjo, hs⟩
        · rw [if_pos hjo, sendAddObject, packetsOn_cons_self, hown]
        · rw [if_neg hjo, sendAddObject, packetsOn_cons_of_ne hs, hown]
  · have hjo : j ≠ o.id := by
      rintro rfl
      exact hpl (h.isPlayerId ho)
    rw [if_neg hpl, if_neg hjo]
    split
    · next me monster hmoved _ =>
        rw [sendAddObject, packetsOn_cons_of_ne (hme me hmoved)]
        rfl
    · rfl

theorem packetsOn_vanish_observer : packetsOn o.session (vanish w moved j) =
    if j = o.id then [.removeObject moved.remote.id] else [] := by
  have hown := packetsOn_own_observer hme (sendRemoveObject · j) fun _ => rfl
  unfold vanish
  dsimp only
  by_cases hpl : isPlayerId j = true
  · rw [if_pos hpl, packetsOn_append, hown, List.append_nil]
    exact packetsOn_player_observer ha ho (sendRemoveObject · moved.remote.id) fun _ => rfl
  · have hjo : j ≠ o.id := by
      rintro rfl
      exact hpl (h.isPlayerId ho)
    rw [if_neg hpl, if_neg hjo, hown]

omit hme in
theorem packetsOn_follow_observer (moveTime : ℕ) : packetsOn o.session (follow w moved moveTime j) =
    if j = o.id then [.moveObject moved.remote.id moved.remote.pos moveTime] else [] := by
  unfold follow
  by_cases hpl : isPlayerId j = true
  · rw [if_pos hpl]
    exact packetsOn_player_observer ha ho (sendMoveObject · moved.remote moveTime) fun _ => rfl
  · have hjo : j ≠ o.id := by
      rintro rfl
      exact hpl (h.isPlayerId ho)
    rw [if_neg hpl, if_neg hjo]
    rfl

/-- **The packets to a player who looks on**: one, by which of the two tiles it
has in view, or none. -/
theorem packetsOn_processMoveView_observer (env : Env) (hne : o.id ≠ moved.remote.id)
    (old : Position) : packetsOn o.session (processMoveView env w moved old) =
      if isInView o.pos moved.remote.pos = true then
        if isInView o.pos old = true then [.moveObject moved.remote.id moved.remote.pos 0]
        else [.addObject moved.remote]
      else if isInView o.pos old = true then [.removeObject moved.remote.id] else [] := by
  have hold : o.id ∈ viewFrom env w moved old ↔ _ := observer_mem_viewFrom env h ho hne
  have hnew : o.id ∈ viewFrom env w moved moved.remote.pos ↔ _ :=
    observer_mem_viewFrom env h ho hne
  unfold processMoveView
  simp only [packetsOn_append, packetsOn_flatMap, packetsOn_appear_observer h ha ho hme,
    packetsOn_vanish_observer h ha ho hme, packetsOn_follow_observer h ha ho]
  rw [flatMap_single (nodup_viewFrom.filter _), flatMap_single (nodup_viewFrom.filter _),
    flatMap_single (nodup_viewFrom.filter _)]
  simp only [List.mem_filter, decide_eq_true_eq, hold, hnew]
  by_cases hn : isInView o.pos moved.remote.pos = true <;>
    by_cases ho' : isInView o.pos old = true <;> simp [hn, ho']

include hne in
/-- **The move of somebody else**: a player who looks on is told of it
according to which of the two tiles it has in view. -/
theorem told_processMoveView (env : Env) (a : Position) :
    Told o (processMoveView env w moved a) moved.remote.id
      ((some a).filter (isInView o.pos)) ((some moved.remote.pos).filter (isInView o.pos)) := by
  have hpkts := packetsOn_processMoveView_observer h ha ho hme env hne a
  have hmem : ∀ pkt, (o.session, pkt) ∈ processMoveView env w moved a ↔ _ := fun pkt => by
    rw [← mem_packetsOn, hpkts]
  have hshift : ScPacket.msg o.id (.moveObject moved.remote.id moved.remote.pos 0) =
      some (.shift moved.remote.id moved.remote.pos) := if_neg (Ne.symm hne)
  by_cases hn : isInView o.pos moved.remote.pos = true <;>
    by_cases ho' : isInView o.pos a = true <;>
    simp only [hn, ho', if_true, if_false, Bool.false_eq_true, List.mem_singleton,
      List.not_mem_nil] at hmem <;>
    simp only [Option.filter_some, hn, ho', if_true, if_false, Bool.false_eq_true]
  · exact Told.of_mem_iff (c := True) _ _ (fun pkt => by rw [hmem pkt, true_and]) hshift
  · exact Told.of_mem_iff (c := True) (.addObject moved.remote) _
      (fun pkt => by rw [hmem pkt, true_and]) rfl
  · exact Told.of_mem_iff (c := True) (.removeObject moved.remote.id) _
      (fun pkt => by rw [hmem pkt, true_and]) rfl
  · exact Told.of_mem_iff (c := False) (.removeObject moved.remote.id) _
      (fun pkt => by simp [hmem pkt]) rfl

end Observer

section Loops

variable (ha : Apart w) (ho : w.getPlayer o.id = some o)

include ha ho

/-- One packet to everyone who has a tile in view. Only the sectors must know
where the players are. -/
theorem mem_broadcast_observer (env : Env) {pkt₀ : ScPacket} (hpl : isPlayerId o.id = true)
    (hnear : isInView o.pos pos = true → o.id ∈ w.getNearbyObjects env pos) :
    (o.session, pkt) ∈ (playersInView env w pos).map (fun player => (player.session, pkt₀)) ↔
      isInView o.pos pos = true ∧ pkt = pkt₀ := by
  rw [List.mem_map]
  constructor
  · rintro ⟨player, hplayer, heq⟩
    obtain ⟨hs, hp⟩ := Prod.mk.inj heq
    obtain rfl := ha.eq (getPlayer_of_mem_playersInView hplayer) ho hs
    refine ⟨?_, hp.symm⟩
    obtain ⟨id, -, hid⟩ := List.mem_filterMap.mp hplayer
    split at hid
    · exact absurd hid (by simp)
    · split at hid
      · exact absurd hid (by simp)
      · split at hid
        · next hv => rwa [← Option.some.inj hid]
        · exact absurd hid (by simp)
  · rintro ⟨hv, rfl⟩
    refine ⟨o, List.mem_filterMap.mpr ⟨o.id, hnear hv, ?_⟩, rfl⟩
    rw [if_neg (not_not.mpr hpl), ho]
    exact if_pos hv

variable (h : Sectored w) (hne : o.id ≠ q.id)

include h hne

theorem mem_sendDisappear_observer (env : Env) :
    (o.session, pkt) ∈ sendDisappear env w q ↔
      isInView q.pos o.pos = true ∧ pkt = .removeObject q.id := by
  unfold sendDisappear
  rw [List.mem_filterMap]
  constructor
  · rintro ⟨j, hj, hsome⟩
    split at hsome
    · exact absurd hsome (by simp)
    · split at hsome
      · exact absurd hsome (by simp)
      · split at hsome
        · exact absurd hsome (by simp)
        · next other hother =>
            split at hsome
            · next hv =>
                obtain ⟨hs, hp⟩ := Prod.mk.inj (Option.some.inj hsome)
                obtain rfl := ha.eq hother ho hs
                exact ⟨hv, hp.symm⟩
            · exact absurd hsome (by simp)
  · rintro ⟨hv, rfl⟩
    refine ⟨o.id, nearby_of_view h (h.place_player ho) hv, ?_⟩
    rw [if_neg hne, if_neg (not_not.mpr (h.isPlayerId ho)), ho]
    exact if_pos hv

/-- **Who goes away is taken out** at everybody who had it in view. -/
theorem told_sendDisappear (env : Env) :
    Told o (sendDisappear env w q) q.id ((some q.pos).filter (isInView o.pos)) none := by
  have htold := Told.of_mem_iff (x := (some q.pos).filter (isInView o.pos)) _
    (.vanish q.id) (fun _ => mem_sendDisappear_observer ha ho h hne env) rfl
  rw [isInView_comm q.pos o.pos] at htold
  by_cases hv : isInView o.pos q.pos = true
  · rwa [if_pos hv] at htold
  · rw [if_neg hv, Option.filter_some, if_neg hv] at htold
    rwa [Option.filter_some, if_neg hv]

variable (hq : w.getPlayer q.id = some q)

include hq

theorem mem_sendFullView_observer (env : Env) :
    (o.session, pkt) ∈ sendFullView env w q ↔
      isInView q.pos o.pos = true ∧ pkt = .addObject q.remote := by
  have hsess : q.session ≠ o.session := fun hs => hne (ha _ _ _ _ ho hq hs.symm)
  constructor
  · intro hmem
    have hpacket := of_mem_sendFullView hmem
    generalize hx : (o.session, pkt) = x at hpacket
    cases hpacket with
    | sees obj => exact absurd (Prod.mk.inj hx).1.symm hsess
    | seen j other hother hview =>
        obtain ⟨hs, hp⟩ := Prod.mk.inj hx
        obtain rfl := ha.eq ho hother hs
        exact ⟨hview, hp⟩
  · rintro ⟨hv, rfl⟩
    refine List.mem_flatMap.mpr ⟨o.id, nearby_of_view h (h.place_player ho) hv, ?_⟩
    rw [fullViewOf, if_neg hne, if_pos (h.isPlayerId ho), ho]
    dsimp only
    rw [if_pos hv]
    exact List.mem_cons_of_mem _ (List.mem_singleton.mpr rfl)

/-- **Who comes is put in** at everybody who has it in view. -/
theorem told_sendFullView (env : Env) :
    Told o (sendFullView env w q) q.id none ((some q.pos).filter (isInView o.pos)) := by
  have htold := Told.of_mem_iff (x := none) _ (.appear q.id q.pos)
    (fun _ => mem_sendFullView_observer ha ho h hne hq env) rfl
  rw [isInView_comm q.pos o.pos] at htold
  rw [Option.filter_some]
  exact htold

end Loops

/-! ## What is said to the player itself -/

/-- What `SC_AddObject` says of the object with this id. -/
def remoteOf (w : World) (j : ObjectID) : Option RemoteObject :=
  if isPlayerId j then (w.getPlayer j).map Player.remote else (w.getMonster j).map Monster.remote

theorem id_remoteOf {obj : RemoteObject} (h : w.remoteOf j = some obj) : obj.id = j := by
  unfold remoteOf at h
  split at h
  · obtain ⟨other, hother, rfl⟩ := Option.map_eq_some_iff.mp h
    exact getPlayer_id hother
  · obtain ⟨monster, hm, rfl⟩ := Option.map_eq_some_iff.mp h
    exact getMonster_id hm

/-- Of what is placed there is something to say, and where it is. -/
theorem remoteOf_of_place (hj : w.place j = some pos) :
    ∃ obj, w.remoteOf j = some obj ∧ obj.pos = pos := by
  unfold place at hj
  unfold remoteOf
  split at hj
  · next hpl =>
      obtain ⟨other, hother, rfl⟩ := Option.map_eq_some_iff.mp hj
      rw [if_pos hpl, hother]
      exact ⟨other.remote, rfl, rfl⟩
  · next hpl =>
      obtain ⟨monster, hm, halive⟩ := Option.bind_eq_some_iff.mp hj
      rw [if_neg hpl, hm]
      split at halive
      · exact absurd halive (by simp)
      · exact ⟨monster.remote, rfl, Option.some.inj halive⟩

section Own

variable (h : Sectored w) (ha : Apart w) (hq : w.getPlayer q.id = some q)

include ha hq

theorem session_ne_of_ne (hj : w.getPlayer j = some o) (hne : j ≠ q.id) :
    o.session ≠ q.session := fun hs => hne (ha _ _ _ _ hj hq hs)

/-- A packet to another player is not sent to this one. -/
theorem packetsOn_player_own (hne : j ≠ q.id) (f : Player → ConnId × ScPacket)
    (hf : ∀ other, (f other).1 = other.session) :
    packetsOn q.session ((w.getPlayer j).map f).toList = [] := by
  refine packetsOn_eq_nil fun x hx => ?_
  obtain ⟨other, hj, rfl⟩ := Option.map_eq_some_iff.mp (Option.mem_toList.mp hx)
  rw [hf]
  exact session_ne_of_ne ha hq hj hne

theorem packetsOn_appear_own (hne : j ≠ q.id) :
    packetsOn q.session (appear w (ofPlayer q) j) =
      ((w.remoteOf j).map ScPacket.addObject).toList := by
  unfold appear remoteOf
  by_cases hpl : isPlayerId j = true
  · rw [if_pos hpl, if_pos hpl]
    cases hj : w.getPlayer j with
    | none => rfl
    | some other =>
        dsimp only [ofPlayer]
        rw [sendAddObject, packetsOn_cons_of_ne (session_ne_of_ne ha hq hj hne), Option.map_some,
          Option.toList_some, sendAddObject, packetsOn_cons_self]
        rfl
  · rw [if_neg hpl, if_neg hpl]
    cases hm : w.getMonster j with
    | none => rfl
    | some monster =>
        dsimp only [ofPlayer]
        rw [sendAddObject, packetsOn_cons_self]
        rfl

theorem packetsOn_vanish_own (hne : j ≠ q.id) :
    packetsOn q.session (vanish w (ofPlayer q) j) = [.removeObject j] := by
  unfold vanish
  dsimp only [ofPlayer]
  rw [Option.map_some, Option.toList_some, sendRemoveObject]
  split
  · rw [packetsOn_append, packetsOn_cons_self, packetsOn_player_own ha hq hne _ fun _ => rfl]
    rfl
  · rw [packetsOn_cons_self]
    rfl

theorem packetsOn_follow_own (hne : j ≠ q.id) (moveTime : ℕ) :
    packetsOn q.session (follow w (ofPlayer q) moveTime j) = [] := by
  unfold follow
  split
  · exact packetsOn_player_own ha hq hne _ fun _ => rfl
  · rfl

include h

/-- **The packets to the player that moved**: an ADD for each object that comes
into its view, then a REMOVE for each that goes out of it. -/
theorem packetsOn_processMoveView_own (env : Env) (old : Position) :
    packetsOn q.session (processMoveView env w (ofPlayer q) old) =
      (((viewFrom env w (ofPlayer q) q.pos).filter
          (· ∉ viewFrom env w (ofPlayer q) old)).filterMap w.remoteOf).map .addObject ++
        ((viewFrom env w (ofPlayer q) old).filter
          (· ∉ viewFrom env w (ofPlayer q) q.pos)).map .removeObject := by
  have hother : ∀ {pos j}, j ∈ viewFrom env w (ofPlayer q) pos → j ≠ q.id := fun hj =>
    ((mem_viewFrom_ofPlayer h).mp hj).1
  unfold processMoveView
  rw [packetsOn_append, packetsOn_append, packetsOn_flatMap, packetsOn_flatMap, packetsOn_flatMap]
  have happear := List.flatMap_congr fun j (hj : j ∈ (viewFrom env w (ofPlayer q) q.pos).filter
    (· ∉ viewFrom env w (ofPlayer q) old)) =>
      packetsOn_appear_own ha hq (hother (List.mem_filter.mp hj).1)
  have hvanish := List.flatMap_congr fun j (hj : j ∈ (viewFrom env w (ofPlayer q) old).filter
    (· ∉ viewFrom env w (ofPlayer q) q.pos)) =>
      packetsOn_vanish_own ha hq (hother (List.mem_filter.mp hj).1)
  have hfollow := List.flatMap_congr fun j (hj : j ∈ (viewFrom env w (ofPlayer q) q.pos).filter
    (· ∈ viewFrom env w (ofPlayer q) old)) =>
      packetsOn_follow_own ha hq (hother (List.mem_filter.mp hj).1) 0
  rw [show (ofPlayer q).remote.pos = q.pos from rfl, happear, hvanish, hfollow,
    ← List.filterMap_eq_flatMap_toList, ← List.map_filterMap, ← List.map_eq_flatMap,
    List.flatMap_eq_nil_iff.mpr fun _ _ => rfl, List.append_nil]

/-- **The move of a player, to itself**: what comes into its view appears, and
what goes out of it vanishes. -/
theorem mem_processMoveView_own (env : Env) (a : Position) (msg : Msg ObjectID Position) :
    msg ∈ msgsTo q (processMoveView env w (ofPlayer q) a) ↔
      (∃ j r, j ≠ q.id ∧ w.place j = some r ∧ isInView q.pos r = true ∧ ¬ isInView a r = true ∧
        msg = .appear j r) ∨
      ∃ j r, j ≠ q.id ∧ w.place j = some r ∧ isInView a r = true ∧ ¬ isInView q.pos r = true ∧
        msg = .vanish j := by
  have hview : ∀ pos j, j ∈ viewFrom env w (ofPlayer q) pos ↔ _ := fun pos j =>
    mem_viewFrom_ofPlayer h
  -- what is not in one view is placed where the other view has it
  have hnot : ∀ {j r p}, w.place j = some r →
      (j ∉ viewFrom env w (ofPlayer q) p ↔ ¬ (j ≠ q.id ∧ isInView p r = true)) := by
    intro j r p hr
    rw [hview, hr]
    simp only [Option.some.injEq, exists_eq_left']
  rw [msgsTo_eq, packetsOn_processMoveView_own h ha hq, List.filterMap_append, List.mem_append,
    List.filterMap_map, List.filterMap_map]
  simp only [List.mem_filterMap, List.mem_filter, decide_eq_true_eq, Function.comp, ScPacket.msg,
    Option.some.injEq]
  refine or_congr ?_ ?_
  · constructor
    · rintro ⟨obj, ⟨j, ⟨hj, hj'⟩, hobj⟩, rfl⟩
      obtain ⟨hne, r, hr, hv⟩ := (hview q.pos j).mp hj
      obtain ⟨obj', hobj', hpos⟩ := remoteOf_of_place hr
      obtain rfl := Option.some.inj (hobj.symm.trans hobj')
      refine ⟨j, r, hne, hr, hv, fun hv' => (hnot hr).mp hj' ⟨hne, hv'⟩, ?_⟩
      rw [id_remoteOf hobj, hpos]
    · rintro ⟨j, r, hne, hr, hv, hv', rfl⟩
      obtain ⟨obj, hobj, hpos⟩ := remoteOf_of_place hr
      refine ⟨obj, ⟨j, ⟨(hview q.pos j).mpr ⟨hne, r, hr, hv⟩, ?_⟩, hobj⟩, ?_⟩
      · exact (hnot hr).mpr fun hin => hv' hin.2
      · rw [id_remoteOf hobj, hpos]
  · constructor
    · rintro ⟨j, ⟨hj, hj'⟩, rfl⟩
      obtain ⟨hne, r, hr, hv⟩ := (hview a j).mp hj
      exact ⟨j, r, hne, hr, hv, fun hv' => (hnot hr).mp hj' ⟨hne, hv'⟩, rfl⟩
    · rintro ⟨j, r, hne, hr, hv, hv', rfl⟩
      exact ⟨j, ⟨(hview a j).mpr ⟨hne, r, hr, hv⟩, (hnot hr).mpr fun hin => hv' hin.2⟩, rfl⟩

/-- **The full view, to its player**: everybody else in view appears. -/
theorem mem_sendFullView_own (env : Env) (msg : Msg ObjectID Position) :
    msg ∈ msgsTo q (sendFullView env w q) ↔
      ∃ j r, j ≠ q.id ∧ w.place j = some r ∧ isInView q.pos r = true ∧ msg = .appear j r := by
  unfold sendFullView
  rw [mem_msgsTo_flatMap]
  have hone : ∀ {j r}, j ≠ q.id → w.place j = some r →
      (msg ∈ msgsTo q (fullViewOf w q j) ↔ isInView q.pos r = true ∧ msg = .appear j r) := by
    intro j r hne hr
    rw [mem_msgsTo]
    unfold fullViewOf
    rw [if_neg hne]
    unfold place at hr
    split at hr
    · next hp =>
        obtain ⟨other, hother, rfl⟩ := Option.map_eq_some_iff.mp hr
        have hid := getPlayer_id hother
        have hs := session_ne_of_ne ha hq hother hne
        rw [if_pos hp, hother]
        by_cases hv : isInView q.pos other.pos = true
        · simp [hv, sendAddObject, ScPacket.msg, Ne.symm hs, Player.remote, hid, eq_comm]
        · simp [hv]
    · next hp =>
        obtain ⟨monster, hm, hmpos⟩ := Option.bind_eq_some_iff.mp hr
        have hid := getMonster_id hm
        split at hmpos
        · exact absurd hmpos (by simp)
        · rw [← Option.some.inj hmpos, if_neg hp, hm]
          by_cases hv : isInView q.pos monster.pos = true
          · simp [hv, sendAddObject, ScPacket.msg, Monster.remote, hid, eq_comm]
          · simp [hv]
  constructor
  · rintro ⟨j, hj, hmsg⟩
    obtain ⟨r, hr⟩ := h.sectors.placed_of_nearby env.iter_perm hj
    have hne : j ≠ q.id := by
      rintro rfl
      simp [fullViewOf, msgsTo] at hmsg
    obtain ⟨hv, rfl⟩ := (hone hne hr).mp hmsg
    exact ⟨j, r, hne, hr, hv, rfl⟩
  · rintro ⟨j, r, hne, hr, hv, rfl⟩
    exact ⟨j, nearby_of_view h hr hv, (hone hne hr).mpr ⟨hv, rfl⟩⟩

omit h

/-- Going away is not told to the one who goes. -/
theorem msgsTo_sendDisappear_own : msgsTo q (sendDisappear env w q) = [] := by
  refine List.filterMap_eq_nil_iff.mpr fun x hx => ?_
  obtain ⟨j, other, hother, hne, rfl⟩ := of_mem_sendDisappear hx
  exact if_neg (session_ne_of_ne ha hq hother hne)

end Own

end Mmorpg.World
