/-
Session ids: each one is in the pool or in the table.

`AllocSessionId` takes an id from the front of `m_availableIds` for the slot that
`OnAccept` fills, and `FreeSessionId` puts it back when `DisconnectSession` has
emptied the slot; nothing else touches the two. What `DisconnectSession` is given
is what a slot holds, and a slot holds an object that exists: so no object is
deleted a second time, by whichever completion of it comes late, and a completion
for an id that was given out again finds the new session.

A step changes the table in one of three ways (`TableChange`), and each invariant
below is read off that.
-/
import SimplestMmorpg.Lib.Transition
import SimplestMmorpg.Network.IocpTable
import Mathlib.Data.List.Nodup

set_option autoImplicit false

namespace Mmorpg.IocpServer

open Transition

variable {s s' : IocpServer} {conn d : ConnId} {id : ObjectID} {a : Answers} {c : IoCompletion}

/-- What a step may do to the ids, the slots and the objects. -/
inductive TableChange (s s' : IocpServer) : Prop
  | kept (hsessions : s'.sessions = s.sessions) (hids : s'.availableIds = s.availableIds)
      (hnext : s'.nextConn = s.nextConn) (hgone : ∀ d, s.objects d = none → s'.objects d = none)
  | opened (id : ObjectID) (rest : List ObjectID) (havail : s.availableIds = id :: rest)
      (hids : s'.availableIds = rest)
      (hsessions : s'.sessions = Function.update s.sessions id (some s.nextConn))
      (hnext : s'.nextConn = s.nextConn + 1)
      (hgone : ∀ d, d ≠ s.nextConn → s.objects d = none → s'.objects d = none)
  | freed (conn : ConnId) (o : SessionObj) (ho : s.objects conn = some o)
      (hids : s'.availableIds = s.availableIds ++ [o.id])
      (hsessions : s'.sessions = Function.update s.sessions o.id none)
      (hnext : s'.nextConn = s.nextConn) (hobject : s'.objects conn = none)
      (hgone : ∀ d, s.objects d = none → s'.objects d = none)

/-! ## What the handlers do to the table -/

theorem Serves.change (h : Serves conn s s') : TableChange s s' :=
  .kept h.sessions h.availableIds h.nextConn h.gone

/-- The fields of the table are the same; the others may differ. -/
theorem TableChange.congr {t t' : IocpServer} (h : TableChange s s')
    (hs : t.sessions = s.sessions ∧ t.availableIds = s.availableIds ∧ t.nextConn = s.nextConn ∧
      t.objects = s.objects)
    (hs' : t'.sessions = s'.sessions ∧ t'.availableIds = s'.availableIds ∧
      t'.nextConn = s'.nextConn ∧ t'.objects = s'.objects) : TableChange t t' := by
  obtain ⟨h1, h2, h3, h4⟩ := hs
  obtain ⟨h1', h2', h3', h4'⟩ := hs'
  cases h with
  | kept hsessions hids hnext hgone =>
      refine .kept ?_ ?_ ?_ ?_
      · rw [h1', h1, hsessions]
      · rw [h2', h2, hids]
      · rw [h3', h3, hnext]
      · rw [h4', h4]
        exact hgone
  | opened id rest havail hids hsessions hnext hgone =>
      refine .opened id rest ?_ ?_ ?_ ?_ ?_
      · rw [h2, havail]
      · rw [h2', hids]
      · rw [h1', h1, h3, hsessions]
      · rw [h3', h3, hnext]
      · rw [h4', h4, h3]
        exact hgone
  | freed conn o ho hids hsessions hnext hobject hgone =>
      refine .freed conn o ?_ ?_ ?_ ?_ ?_ ?_
      · rw [h4, ho]
      · rw [h2', h2, hids]
      · rw [h1', h1, hsessions]
      · rw [h3', h3, hnext]
      · rw [h4', hobject]
      · rw [h4', h4]
        exact hgone

theorem table_finish (conn : Option ConnId) (r : Except IocpServer IocpServer) :
    (finish conn r).sessions = (leaves r).sessions ∧
      (finish conn r).availableIds = (leaves r).availableIds ∧
      (finish conn r).nextConn = (leaves r).nextConn ∧
      (finish conn r).objects = (leaves r).objects := by
  cases r <;> exact ⟨rfl, rfl, rfl, rfl⟩

theorem table_postAccept (s : IocpServer) (r : WsaResult) :
    (s.postAccept r).sessions = s.sessions ∧ (s.postAccept r).availableIds = s.availableIds ∧
      (s.postAccept r).nextConn = s.nextConn ∧ (s.postAccept r).objects = s.objects := by
  unfold postAccept
  split <;> exact ⟨rfl, rfl, rfl, rfl⟩

theorem TableChange.refl (s : IocpServer) : TableChange s s :=
  .kept rfl rfl rfl fun _ h => h

theorem change_onAccept (s : IocpServer) (a : Answers) :
    TableChange s (leaves (s.onAccept a)) := by
  rcases onAccept_spec s a with ⟨-, heq⟩ | ⟨id, rest, m, havail, hs, -, heq⟩
  · rw [heq]
    exact (TableChange.refl s).congr ⟨rfl, rfl, rfl, rfl⟩ (table_postAccept s a.acceptEx)
  · rw [heq]
    have hopen : TableChange s m := by
      refine .opened id rest havail hs.availableIds hs.sessions hs.nextConn ?_
      intro d hd hnone
      apply hs.gone d
      rw [objects_openSession, if_neg hd, hnone]
    exact hopen.congr ⟨rfl, rfl, rfl, rfl⟩ (table_postAccept m a.acceptEx)

theorem change_disconnectSession (conn : ConnId) (s : IocpServer) (a : Answers) :
    TableChange s (leaves (s.disconnectSession conn a)) := by
  have hspec := disconnectSession_spec conn s a
  generalize s.disconnectSession conn a = r at hspec ⊢
  cases hspec with
  | absent ho => exact .refl s
  | marked o ho hmark => exact .refl s
  | stuck o ho s' hs => exact hs.change
  | removed o ho m hs hplayer =>
      refine .freed conn o ho ?_ ?_ hs.nextConn ?_ ?_
      · exact congrArg (· ++ [o.id]) hs.availableIds
      · exact congrArg (Function.update · o.id none) hs.sessions
      · rw [leaves, objects_freeSession, if_pos rfl]
      · intro d hnone
        rw [leaves, objects_freeSession]
        split
        · rfl
        · exact hs.gone d hnone

/-- **A step changes the table in one of the three ways.** -/
theorem change_step (s : IocpServer) (e : Event) : TableChange s (s.step e) := by
  cases e with
  | acceptDone ok =>
      simp only [step, acceptDone]
      split
      · exact .refl s
      · exact (TableChange.refl s).congr ⟨rfl, rfl, rfl, rfl⟩ ⟨rfl, rfl, rfl, rfl⟩
  | ioDone k ok bytes =>
      simp only [step, ioDone]
      split
      · exact .refl s
      · next op _ =>
          have hst := (serves_store s op.conn (s.delivered op bytes)).change
          split
          · exact hst.congr ⟨rfl, rfl, rfl, rfl⟩ ⟨rfl, rfl, rfl, rfl⟩
          · exact (TableChange.refl s).congr ⟨rfl, rfl, rfl, rfl⟩ ⟨rfl, rfl, rfl, rfl⟩
  | dequeue k a =>
      cases hc : s.port[k]? with
      | none => rw [step, dequeue_of_none hc]; exact .refl s
      | some c =>
          have hdone := dequeue_of_some (a := a) hc
          rw [step]
          have hsame : ∀ {t}, TableChange { s with port := s.port.eraseIdx k } t → TableChange s t :=
            fun h => h.congr ⟨rfl, rfl, rfl, rfl⟩ ⟨rfl, rfl, rfl, rfl⟩
          generalize ({ s with port := s.port.eraseIdx k } : IocpServer) = taken at hdone hsame
          generalize s.dequeue k a = s' at hdone ⊢
          apply hsame
          cases hdone with
          | ignored => exact .refl taken
          | accepted =>
              exact (change_onAccept taken a).congr ⟨rfl, rfl, rfl, rfl⟩ (table_finish none _)
          | failed conn =>
              exact (change_disconnectSession conn taken a).congr ⟨rfl, rfl, rfl, rfl⟩
                (table_finish (some conn) _)
          | received conn =>
              exact (serves_onRecvComplete conn taken c.bytes.length a).change.congr
                ⟨rfl, rfl, rfl, rfl⟩ (table_finish (some conn) _)
          | sent conn =>
              exact (serves_onSendComplete conn taken a).change.congr ⟨rfl, rfl, rfl, rfl⟩
                (table_finish (some conn) _)
  | game login sends =>
      obtain ⟨players, hplayers⟩ := addPlayer_frame s login
      rw [step, hplayers]
      exact (serves_sendAll 0 sends { s with players := players }).change.congr
        ⟨rfl, rfl, rfl, rfl⟩ (table_finish none _)

/-! ## Every id has its place -/

/-- The ids are those below `MAX_PLAYERS`: what is not in the pool has a session. -/
def Pooled (s : IocpServer) : Prop :=
  ∀ id, id < maxPlayers ↔ id ∈ s.availableIds ∨ ∃ conn, s.sessions id = some conn

theorem pooled_init (r : WsaResult) : Pooled (init r) := by
  obtain ⟨hsessions, hids, -, -⟩ := table_postAccept
    { sessions := fun _ => none, objects := fun _ => none,
      availableIds := List.range' 0 maxPlayers, nextConn := 0, acceptsPosted := 0,
      overlapped := [], port := [], players := fun _ => none, executing := [] } r
  intro id
  rw [init, hsessions, hids, List.mem_range'_1]
  simp

theorem Pooled.change (h : Pooled s) (ht : Table s) (hc : TableChange s s') : Pooled s' := by
  intro i
  rw [h i]
  cases hc with
  | kept hsessions hids => rw [hsessions, hids]
  | opened id rest havail hids hsessions =>
      rw [hsessions, hids, havail, List.mem_cons]
      by_cases hi : i = id
      · subst hi
        simp
      · rw [Function.update_of_ne hi, or_iff_right hi]
  | freed conn o ho hids hsessions =>
      rw [hsessions, hids, List.mem_append, List.mem_singleton]
      by_cases hi : i = o.id
      · -- the id goes from the table back to the pool
        subst hi
        have hslot := ht.session conn o ho
        exact iff_of_true (.inr ⟨conn, hslot⟩) (.inl (.inr rfl))
      · rw [Function.update_of_ne hi, or_iff_left hi]

/-! ## Nothing is deleted twice -/

/-- `DisconnectSession` comes to `delete session`: the object was not marked, and
the calls before it return. The mark of an object that is gone is no mark. -/
def comesToDelete (s : IocpServer) (conn : ConnId) (a : Answers) : Bool :=
  match s.objects conn with
  | none => true
  | some o => !o.disconnected && (s.disconnectSession conn a).isOk

/-- The sessions that a step deletes. -/
def deletes (s : IocpServer) : Event → List ConnId
  | .dequeue k a =>
    match s.port[k]? with
    | none => []
    | some c =>
      let taken := { s with port := s.port.eraseIdx k }
      if c.ok = false ∨ (c.bytes = [] ∧ c.ioType ≠ .accept) then
        match taken.sessions c.key with
        | none => []
        | some conn => if taken.comesToDelete conn a then [conn] else []
      else []
  | _ => []

/-- The sessions that a run deletes, in order. -/
def deletions : IocpServer → List Event → List ConnId
  | _, [] => []
  | s, e :: es => s.deletes e ++ (s.step e).deletions es

/-- A session that was deleted: its number is not given out again. -/
def Deleted (s : IocpServer) (conn : ConnId) : Prop :=
  conn < s.nextConn ∧ s.objects conn = none

theorem TableChange.nextConn_le (hc : TableChange s s') : s.nextConn ≤ s'.nextConn := by
  cases hc with
  | kept _ _ hnext => exact Nat.le_of_eq hnext.symm
  | opened _ _ _ _ _ hnext => exact hnext ▸ Nat.le_succ _
  | freed _ _ _ _ _ hnext => exact Nat.le_of_eq hnext.symm

theorem Deleted.change (h : Deleted s conn) (hc : TableChange s s') : Deleted s' conn := by
  obtain ⟨hlt, hnone⟩ := h
  refine ⟨Nat.lt_of_lt_of_le hlt hc.nextConn_le, ?_⟩
  cases hc with
  | kept _ _ _ hgone => exact hgone conn hnone
  | opened id rest _ _ _ _ hgone => exact hgone conn (Nat.ne_of_lt hlt) hnone
  | freed d o ho _ _ _ _ hgone => exact hgone conn hnone

theorem objects_of_comesToDelete {o : SessionObj} (ho : s.objects conn = some o)
    (h : s.comesToDelete conn a = true) :
    (leaves (s.disconnectSession conn a)).objects conn = none := by
  simp only [comesToDelete, ho, Bool.and_eq_true, Bool.not_eq_true'] at h
  obtain ⟨hunmarked, hok⟩ := h
  have hspec := disconnectSession_spec conn s a
  generalize s.disconnectSession conn a = r at hspec hok ⊢
  cases hspec with
  | absent hnone => exact hnone
  | marked r hr hmark =>
      obtain rfl := Option.some.inj (hr.symm.trans ho)
      exact absurd (hmark.symm.trans hunmarked) (by simp)
  | stuck r hr m hs => exact absurd hok (by simp [Except.isOk, Except.toBool])
  | removed r hr m hs hplayer => rw [leaves, objects_freeSession, if_pos rfl]

/-- What is deleted is what the slot of a failed completion holds. -/
theorem deletes_spec {e : Event} (hd : conn ∈ s.deletes e) :
    ∃ t : IocpServer, ∃ a key, t.sessions = s.sessions ∧ t.objects = s.objects ∧
      s.sessions key = some conn ∧ t.comesToDelete conn a = true ∧
      s.step e = finish (some conn) (t.disconnectSession conn a) := by
  cases e with
  | acceptDone ok => exact absurd hd List.not_mem_nil
  | ioDone k ok bytes => exact absurd hd List.not_mem_nil
  | game login sends => exact absurd hd List.not_mem_nil
  | dequeue k a =>
      simp only [deletes] at hd
      cases hport : s.port[k]? with
      | none => simp only [hport, List.not_mem_nil] at hd
      | some c =>
          simp only [hport] at hd
          split at hd
          · next hbad =>
              cases hs : s.sessions c.key with
              | none => simp only [hs, List.not_mem_nil] at hd
              | some d =>
                  simp only [hs] at hd
                  split at hd
                  · next hcomes =>
                      obtain rfl := List.mem_singleton.mp hd
                      refine ⟨{ s with port := s.port.eraseIdx k }, a, c.key, rfl, rfl, hs, hcomes, ?_⟩
                      have hfail : ¬ (c.ok = true ∧ c.ioType = .accept) := by
                        rintro ⟨hok, hacc⟩
                        rcases hbad with hbad | hbad
                        · rw [hbad] at hok
                          exact absurd hok (by simp)
                        · exact hbad.2 hacc
                      simp only [step, dequeue, hport, target, handleCompletion, if_pos hbad, hs,
                        if_neg hfail]
                  · exact absurd hd List.not_mem_nil
          · exact absurd hd List.not_mem_nil

/-- A session is alive when it is deleted, and it is gone afterwards. -/
theorem mem_deletes {e : Event} (h : Table s) (hd : conn ∈ s.deletes e) :
    (∃ o, s.objects conn = some o) ∧ Deleted (s.step e) conn := by
  obtain ⟨t, a, key, -, hobjects, hslot, hcomes, hstep⟩ := deletes_spec hd
  obtain ⟨o, ho, -⟩ := h.object key conn hslot
  refine ⟨⟨o, ho⟩, Nat.lt_of_lt_of_le (h.fresh conn o ho) (change_step s e).nextConn_le, ?_⟩
  rw [hstep, (table_finish (some conn) _).2.2.2]
  exact objects_of_comesToDelete (hobjects ▸ ho) hcomes

theorem deletes_le_one (s : IocpServer) (e : Event) : (s.deletes e).Nodup := by
  unfold deletes
  split
  · split
    · exact List.nodup_nil
    · dsimp only
      split
      · split
        · exact List.nodup_nil
        · split
          · exact List.nodup_singleton _
          · exact List.nodup_nil
      · exact List.nodup_nil
  · exact List.nodup_nil

/-- What is gone is not deleted again. -/
theorem notMem_deletions (es : List Event) (h : Table s) (hdel : Deleted s conn) :
    conn ∉ s.deletions es := by
  induction es generalizing s with
  | nil => exact List.not_mem_nil
  | cons e es ih =>
      intro hmem
      rcases List.mem_append.mp hmem with hnow | hlater
      · obtain ⟨⟨o, ho⟩, -⟩ := mem_deletes h hnow
        exact absurd (ho.symm.trans hdel.2) (by simp)
      · -- the number is gone for good, so the rest of the run is no different
        exact ih (table_step s e h) (hdel.change (change_step s e)) hlater

theorem nodup_deletions (es : List Event) (h : Table s) : (s.deletions es).Nodup := by
  induction es generalizing s with
  | nil => exact List.nodup_nil
  | cons e es ih =>
      refine List.nodup_append.mpr ⟨deletes_le_one s e, ih (table_step s e h), ?_⟩
      rintro conn hnow _ hlater rfl
      exact notMem_deletions es (table_step s e h) (mem_deletes h hnow).2 hlater

/-! ## Whole runs -/

theorem table_pooled_run (r : WsaResult) (es : List Event) :
    Table (run step (init r) es) ∧ Pooled (run step (init r) es) :=
  invariant (fun s e (h : Table s ∧ Pooled s) _ =>
    ⟨table_step s e h.1, h.2.change h.1 (change_step s e)⟩) ⟨table_init r, pooled_init r⟩ along_true

/-- **Session ids are never shared**, in every run: an id is in the pool once and
its slot is empty, or it is not in the pool and its slot holds a session with
that id; no session is in two slots, and none is deleted twice; and every player
stands under the id of the session in the table that it points to. -/
theorem sessionIds_run (r : WsaResult) (es : List Event) :
    let s := run step (init r) es
    (∀ id < maxPlayers, s.availableIds.count id = 1 ∧ s.sessions id = none ∨
      id ∉ s.availableIds ∧ ∃ conn o, s.sessions id = some conn ∧ s.objects conn = some o ∧
        o.id = id) ∧
    (∀ id id' conn, s.sessions id = some conn → s.sessions id' = some conn → id = id') ∧
    ((init r).deletions es).Nodup ∧
    ∀ id conn, s.players id = some conn → id < maxPlayers ∧ s.sessions id = some conn ∧
      ∃ o, s.objects conn = some o ∧ o.id = id := by
  obtain ⟨ht, hp⟩ := table_pooled_run r es
  refine ⟨?_, ?_, nodup_deletions es (table_init r), ?_⟩
  · intro id hlt
    rcases (hp id).mp hlt with hmem | ⟨conn, hslot⟩
    · exact .inl ⟨List.count_eq_one_of_mem ht.nodup hmem, ht.available id hmem⟩
    · refine .inr ⟨?_, ?_⟩
      · intro hmem
        exact absurd ((ht.available id hmem).symm.trans hslot) (by simp)
      · obtain ⟨o, ho, hid⟩ := ht.object id conn hslot
        exact ⟨conn, o, hslot, ho, hid⟩
  · intro id id' conn hslot hslot'
    obtain ⟨o, ho, hid⟩ := ht.object id conn hslot
    obtain ⟨o', ho', hid'⟩ := ht.object id' conn hslot'
    obtain rfl := Option.some.inj (ho.symm.trans ho')
    exact hid.symm.trans hid'
  · intro id conn hplayer
    have hslot := ht.player id conn hplayer
    exact ⟨(hp id).mpr (.inr ⟨conn, hslot⟩), hslot, ht.object id conn hslot⟩

end Mmorpg.IocpServer
