/-
The order in which the rows of a character are written.

The save worker executes the tasks in the order in which they were posted, and
a snapshot is older than another when it was taken first. The two orders agree
as long as nobody posts a row while an older one of the same character is still
to be posted. They need not: a periodic save holds the rows of all players from
its snapshot phase until it comes to post each of them, and a disconnect that
takes its snapshot and posts it in between is overtaken. The older row is then
the one that stays in the store.

A snapshot is an item of `Lib/Ticket`: drawn when it is taken, held until it is
posted, handed in then.
-/
import SimplestMmorpg.Lib.Ticket
import SimplestMmorpg.Lib.Transition
import SimplestMmorpg.Race.Saving
import SimplestMmorpg.Server.PlacementRun

set_option autoImplicit false

namespace Mmorpg

namespace Saving

open Transition
open Server (openField loginPacket)

variable {s s' : Saving} {e : Event} {env : Env} {k : ℕ} {x : Snapshot}

/-! ## The property -/

/-- The rows written for a character are in the order of their snapshots, and the
stored row is the one of the newest snapshot among them. -/
structure SavesInOrder (s : Saving) : Prop where
  written : s.written.Pairwise fun a b => a.row.id = b.row.id → a.number < b.number
  stored : ∀ e ∈ s.server.store.rows, ∀ x ∈ s.written, x.row.id = e.2.id →
    ∃ y ∈ s.written, y.row.id = e.2.id ∧ x.number ≤ y.number ∧ e.2.SameState y.row

/-- No row is posted while an older snapshot of the same character is still to be
posted. -/
def NotOvertaking (s : Saving) (e : Event) : Prop :=
  ∀ x ∈ s.posting e, ∀ y ∈ s.held, y.row.id = x.row.id → x.number ≤ y.number

instance (s : Saving) (e : Event) : Decidable (NotOvertaking s e) := by
  unfold NotOvertaking
  infer_instance

/-! ## Held and posted -/

/-- The snapshots that all handlers but one hold, and the main thread. -/
def heldBeside (s : Saving) (k : ℕ) : List Snapshot :=
  (s.handlers.eraseIdx k).flatMap SaveHandler.held ++ s.pc.held

theorem held_perm {a : SaveHandler} (h : s.handlers[k]? = some a) :
    s.held.Perm (a.held ++ s.heldBeside k) := by
  have hflat := (perm_eraseIdx h).flatMap_right SaveHandler.held
  rw [List.flatMap_cons] at hflat
  rw [heldBeside, ← List.append_assoc]
  exact hflat.append_right _

/-- The handler goes on to another state. -/
theorem held_set {a : SaveHandler} (h : s.handlers[k]? = some a) (b : SaveHandler) :
    ((s.handlers.set k b).flatMap SaveHandler.held ++ s.pc.held).Perm
      (b.held ++ s.heldBeside k) := by
  obtain ⟨hk, -⟩ := List.getElem?_eq_some_iff.mp h
  have hb : (s.handlers.set k b)[k]? = some b := List.getElem?_set_self hk
  have hflat := (perm_eraseIdx hb).flatMap_right SaveHandler.held
  rw [List.flatMap_cons, List.eraseIdx_set_eq] at hflat
  rw [heldBeside, ← List.append_assoc]
  exact hflat.append_right _

theorem held_follow (w : World) (h : SaveHandler) : (h.follow w).held = h.held := by
  cases h with
  | leaving player row env =>
      simp only [SaveHandler.follow]
      split
      · split <;> rfl
      · rfl
  | saveAll rows => rfl
  | posting id row => rfl
  | closing id => rfl

theorem held_atomic (s : Saving) (e : Server.Event) : (s.atomic e).held = s.held := by
  have hflat : (s.handlers.map (·.follow (s.server.step e).game.world)).flatMap SaveHandler.held =
      s.handlers.flatMap SaveHandler.held := by
    rw [List.flatMap_map]
    exact List.flatMap_congr fun h _ => held_follow _ h
  unfold held
  rw [← hflat]
  rfl

theorem posted_atomic {e : Server.Event}
    (h : (s.server.step e).game.saveQueue.filterMap rowOf = s.saveQueue.filterMap rowOf) :
    (s.atomic e).posted = s.posted :=
  congrArg (s.executed ++ ·) h

theorem posted_post (s : Saving) (x : Snapshot) : (s.post x).posted = s.posted ++ [x] := by
  have hone : [SaveTask.savePlayer x.row x.number].filterMap rowOf = [x] := rfl
  unfold posted saveQueue post GameWorld.postSaveTask
  dsimp only
  rw [List.filterMap_append, hone, List.append_assoc]

theorem posted_depart (s : Saving) (env : Env) (p : Player) : (s.depart env p).posted = s.posted :=
  rfl

theorem saveQueue_saveWorker {task : SaveTask} {rest : List SaveTask}
    (hq : s.saveQueue = task :: rest) (saveOk : Bool) :
    (s.server.saveWorker saveOk).game.saveQueue = rest := by
  unfold saveQueue at hq
  unfold Server.saveWorker
  rw [hq]
  dsimp only
  split
  · split
    · unfold Server.savePlayer
      split <;> rfl
    · rfl
  · rfl

theorem filterMap_rowOf_cons (task : SaveTask) (rest : List SaveTask) :
    (task :: rest).filterMap rowOf = (rowOf task).toList ++ rest.filterMap rowOf := by
  cases task <;> rfl

theorem numbered_number (n : ℕ) (rows : List PlayerRow) :
    (numbered n rows).map Snapshot.number = List.range' n (numbered n rows).length := by
  have hsnd : (numbered n rows).map Snapshot.number = (rows.zipIdx n).map Prod.snd := by
    rw [numbered, List.map_map]
    rfl
  rw [hsnd, List.zipIdx_map_snd, numbered, List.length_map, List.length_zipIdx]

/-! ## The invariant -/

/-- The snapshots as items with numbers. -/
def Tickets (s : Saving) : Prop :=
  Ticket.InOrder (fun x : Snapshot => x.row.id) Snapshot.number s.snaps s.held s.posted

/-- The workers have been joined. -/
def joined : ShutDownPc → Bool
  | .closingSessions => true
  | .clearing => true
  | .returned => true
  | _ => false

theorem joined_of_running {pc : ShutDownPc} (h : pc.running = true) : joined pc = false := by
  cases pc <;> first | rfl | exact absurd h (by decide)

structure Ordered (s : Saving) : Prop where
  tickets : Tickets s
  idle : joined s.pc = true → s.handlers = []

namespace Ordered

theorem running (h : Ordered s) {a : SaveHandler} (ha : s.handlers[k]? = some a) :
    joined s.pc = false := by
  cases hj : joined s.pc with
  | false => rfl
  | true =>
      rw [h.idle hj] at ha
      exact absurd ha (by simp)

/-- Nothing is taken and nothing is posted. -/
theorem same (h : Ordered s) (hsnaps : s'.snaps = s.snaps) (hheld : s'.held.Perm s.held)
    (hposted : s'.posted = s.posted) (hidle : joined s'.pc = true → s'.handlers = []) :
    Ordered s' := by
  refine ⟨?_, hidle⟩
  unfold Tickets
  rw [hsnaps, hposted]
  exact h.tickets.hold hheld

/-- New snapshots are taken. -/
theorem take (h : Ordered s) (new : List Snapshot)
    (hnew : new.map Snapshot.number = List.range' s.snaps.length new.length)
    (hsnaps : s'.snaps = s.snaps ++ new) (hheld : s'.held.Perm (s.held ++ new))
    (hposted : s'.posted = s.posted) (hidle : joined s'.pc = true → s'.handlers = []) :
    Ordered s' := by
  refine ⟨?_, hidle⟩
  unfold Tickets
  rw [hsnaps, hposted]
  exact (h.tickets.draw new hnew).hold hheld

/-- One is posted, and no older one of its character is held. -/
theorem put (h : Ordered s) {rest : List Snapshot} (hx : s.held.Perm (x :: rest))
    (hmin : ∀ y ∈ s.held, y.row.id = x.row.id → x.number ≤ y.number)
    (hsnaps : s'.snaps = s.snaps) (hheld : s'.held.Perm rest)
    (hposted : s'.posted = s.posted ++ [x]) (hidle : joined s'.pc = true → s'.handlers = []) :
    Ordered s' := by
  refine ⟨?_, hidle⟩
  unfold Tickets
  rw [hsnaps, hposted]
  have hput := (h.tickets.hold hx.symm).put fun y hy =>
    hmin y (hx.mem_iff.mpr (List.mem_cons_of_mem x hy))
  exact hput.hold hheld

/-- Nothing is asked of the handlers while there are workers. -/
theorem idle_of (hj : joined s.pc = false) (hpc : s'.pc = s.pc) :
    joined s'.pc = true → s'.handlers = [] := by
  rw [hpc, hj]
  exact fun h => absurd h (by decide)

theorem atomic (h : Ordered s) {e : Server.Event} (hrun : s.pc.running = true)
    (hq : (s.server.step e).game.saveQueue.filterMap rowOf = s.saveQueue.filterMap rowOf) :
    Ordered (s.atomic e) :=
  h.same rfl (by rw [held_atomic]) (posted_atomic hq) (idle_of (joined_of_running hrun) rfl)

theorem complete (h : Ordered s) (hrun : s.pc.running = true) (env : Env) (k : ℕ) :
    Ordered (s.complete env k) := by
  have hrows : (s.server.step (.complete k env)).game.saveQueue.filterMap rowOf =
      s.saveQueue.filterMap rowOf := by
    rcases complete_spec s k env with haside | ⟨c, row, -, -, -, hadmitted⟩
    · rw [haside.saveQueue, saveQueue]
    · -- the time of the login is no row
      have hnone : [SaveTask.updateLastLogin row.id].filterMap rowOf = [] := rfl
      rw [hadmitted.saveQueue, List.filterMap_append, hnone, List.append_nil, saveQueue]
  have hatomic := h.atomic hrun hrows
  exact ⟨hatomic.tickets, hatomic.idle⟩

theorem close (h : Ordered s) (hrun : s.pc.running = true) (env : Env) (id : ObjectID) :
    Ordered (s.close env id) := by
  have hidle : ∀ {s' : Saving}, s'.pc = s.pc → joined s'.pc = true → s'.handlers = [] :=
    fun hpc => idle_of (joined_of_running hrun) hpc
  unfold Saving.close
  split
  · exact h
  · split
    · exact h
    · split
      · refine h.same rfl ?_ rfl (hidle rfl)
        simp only [held, List.flatMap_append, List.flatMap_singleton, SaveHandler.held,
          List.append_nil]
        exact .refl _
      · next player hp =>
          -- the snapshot is the last one taken
          refine h.take [⟨player.snapshot, s.snaps.length⟩] rfl rfl ?_ rfl (hidle rfl)
          simp only [held, List.flatMap_append, List.flatMap_singleton, SaveHandler.held]
          rw [List.append_assoc, List.append_assoc]
          exact List.perm_append_comm.append_left _

theorem timer (h : Ordered s) (hrun : s.pc.running = true) (env : Env) (k : ℕ) :
    Ordered (s.timer env k) := by
  unfold Saving.timer
  split
  · exact h
  · next ev hev =>
      split
      · exact h
      · split
        · -- `SaveAllPlayers` copies everybody at once, in the order of the table
          refine h.take _ (numbered_number _ _) rfl ?_ rfl (idle_of (joined_of_running hrun) rfl)
          simp only [held, List.flatMap_append, List.flatMap_singleton, SaveHandler.held]
          rw [List.append_assoc, List.append_assoc]
          exact List.perm_append_comm.append_left _
        · next htype =>
            apply h.atomic hrun
            rw [(aside_timer s.server k env hev htype).saveQueue, saveQueue]

/-- A handler that goes on posts the row that `posting` names, or none. -/
theorem act (h : Ordered s) (k : ℕ) (hnot : NotOvertaking s (.act k)) : Ordered (s.act k) := by
  unfold Saving.act
  split
  · exact h
  · next hk =>
      refine h.same rfl ?_ rfl (idle_of (h.running hk) rfl)
      exact (held_perm hk).symm
  · next row rows hk =>
      have hposting : s.posting (.act k) = some row := by simp only [posting, hk]
      refine h.put (held_perm hk) (hnot row hposting) rfl ?_ (posted_post s row)
        (idle_of (h.running hk) rfl)
      exact held_set hk _
  · next player row env hk =>
      -- `RemovePlayer`: the row is still held
      refine h.same rfl ?_ (posted_depart s env player) (idle_of (h.running hk) rfl)
      exact (held_set hk (.posting player.id row)).trans (held_perm hk).symm
  · next id row hk =>
      have hposting : s.posting (.act k) = some row := by simp only [posting, hk]
      refine h.put (held_perm hk) (hnot row hposting) rfl ?_ (posted_post s row)
        (idle_of (h.running hk) rfl)
      exact held_set hk _
  · next id hk =>
      refine h.same rfl ?_ rfl (idle_of (h.running hk) rfl)
      exact (held_perm hk).symm

/-- A task that is executed was posted, and stays so. -/
theorem saveWorker (h : Ordered s) (saveOk : Bool) : Ordered (s.saveWorker saveOk) := by
  unfold Saving.saveWorker
  split
  · exact h
  · split
    · split
      · exact h
      · exact ⟨h.tickets, h.idle⟩
    · next task rest hq =>
        refine h.same rfl (.refl _) ?_ h.idle
        rw [posted, posted, saveQueue, saveQueue_saveWorker hq, hq, filterMap_rowOf_cons,
          List.append_assoc]

theorem loginWorker (h : Ordered s) (loadOk createOk : Bool) :
    Ordered (s.loginWorker loadOk createOk) := by
  unfold Saving.loginWorker
  split
  · exact h
  · split
    · split
      · exact h
      · exact ⟨h.tickets, h.idle⟩
    · refine h.same rfl (.refl _) ?_ h.idle
      unfold posted saveQueue
      dsimp only
      rw [Server.game_loginWorker]

theorem shutDown (h : Ordered s) (env : Env) : Ordered (s.shutDown env) := by
  unfold Saving.shutDown
  split
  · next hpc =>
      refine h.take _ (numbered_number _ _) rfl ?_ rfl (fun hj => absurd hj (by simp [joined]))
      simp only [held, hpc, ShutDownPc.held, List.append_nil]
      exact .refl _
  · exact h

/-- A disconnect in one go takes and posts at once; nobody else holds anything. -/
theorem processDisconnect (h : Ordered s) (hheld : s.held = []) (env : Env) (id : ObjectID) :
    Ordered (s.processDisconnect env id) := by
  unfold Saving.processDisconnect
  split
  · exact h
  · next player hp =>
      dsimp only
      generalize hrow : (⟨player.snapshot, s.snaps.length⟩ : Snapshot) = row
      refine ⟨?_, h.idle⟩
      have hdraw := h.tickets.draw [row] (by rw [← hrow]; rfl)
      rw [hheld, List.nil_append] at hdraw
      have hput := hdraw.put (by simp)
      have hposted := posted_post ({ s with snaps := s.snaps ++ [row] }.depart env player) row
      rw [posted_depart] at hposted
      have hnone : (({ s with snaps := s.snaps ++ [row] }.depart env player).post row).held = [] :=
        hheld
      unfold Tickets
      rw [hposted, hnone]
      exact hput

theorem closeSession_frame (s : Saving) (env : Env) (id : ObjectID) :
    (s.closeSession env id).handlers = s.handlers ∧ (s.closeSession env id).pc = s.pc := by
  unfold Saving.closeSession
  split
  · exact ⟨rfl, rfl⟩
  · unfold Saving.processDisconnect
    split <;> exact ⟨rfl, rfl⟩

theorem closeSession (h : Ordered s) (hheld : s.held = []) (env : Env) (id : ObjectID) :
    Ordered (s.closeSession env id) := by
  unfold Saving.closeSession
  split
  · exact h
  · have hdone := h.processDisconnect hheld env id
    exact ⟨hdone.tickets, hdone.idle⟩

/-- The loop over `m_sessions`. -/
theorem closeSessions (h : Ordered s) (hheld : s.held = []) (env : Env) :
    Ordered (s.closeSessions env) ∧ (s.closeSessions env).handlers = s.handlers ∧
      (s.closeSessions env).pc = s.pc := by
  unfold Saving.closeSessions
  generalize List.range maxPlayers = ids
  induction ids generalizing s with
  | nil => exact ⟨h, rfl, rfl⟩
  | cons id ids ih =>
      obtain ⟨hhandlers, hpc⟩ := closeSession_frame s env id
      have hnone : (s.closeSession env id).held = [] := by
        rw [held, hhandlers, hpc]
        exact hheld
      obtain ⟨hrest, hh, hp⟩ := ih (h.closeSession hheld env id) hnone
      exact ⟨hrest, hh.trans hhandlers, hp.trans hpc⟩

/-- The main thread goes on, and holds what it held. -/
theorem pass (h : Ordered s) (pc : ShutDownPc) (hpc : pc.held = s.pc.held)
    (hidle : joined pc = true → s.handlers = []) : Ordered { s with pc := pc } := by
  refine h.same rfl ?_ rfl hidle
  rw [held, held, hpc]

theorem main (h : Ordered s) (env : Env) (hnot : NotOvertaking s (.main env)) :
    Ordered (s.main env) := by
  unfold Saving.main
  split
  · exact h
  · next row rows hpc =>
      -- the main thread is in `SaveAllPlayers` itself, and the handlers go on beside it
      have hposting : s.posting (.main env) = some row := by simp only [posting, hpc]; rfl
      have hheld : s.held.Perm (row :: (s.handlers.flatMap SaveHandler.held ++ rows)) := by
        rw [held, hpc]
        exact List.perm_middle
      exact h.put hheld (hnot row hposting) rfl (.refl _) (posted_post s row)
        (fun hj => absurd hj (by simp [joined]))
  · next hpc => exact h.pass .joiningDb (by rw [hpc]; rfl) (by simp [joined])
  · next hpc =>
      split
      · exact h.pass .stoppingTimers (by rw [hpc]; rfl) (by simp [joined])
      · exact h
  · next hpc =>
      have hpass := h.pass .stoppingWorkers (by rw [hpc]; rfl) (by simp [joined])
      exact ⟨hpass.tickets, hpass.idle⟩
  · next hpc => exact h.pass .joiningWorkers (by rw [hpc]; rfl) (by simp [joined])
  · next hpc =>
      split
      · next hnone =>
          exact h.pass .closingSessions (by rw [hpc]; rfl) fun _ => List.isEmpty_iff.mp hnone
      · exact h
  · next hpc =>
      -- the workers are joined, so the loop posts what nobody can overtake
      have hnone : s.handlers = [] := h.idle (by rw [hpc]; rfl)
      have hheld : s.held = [] := by rw [held, hnone, hpc]; rfl
      obtain ⟨hclosed, hhandlers, hpc'⟩ := h.closeSessions hheld env
      exact hclosed.pass .clearing (by rw [hpc', hpc]; rfl) fun _ => hhandlers.trans hnone
  · next hpc =>
      have hpass := h.pass .returned (by rw [hpc]; rfl) fun _ => h.idle (by rw [hpc]; rfl)
      exact ⟨hpass.tickets, hpass.idle⟩
  · exact h

end Ordered

/-- **Every step keeps the order**, as long as nobody overtakes. -/
theorem ordered_step (s : Saving) (e : Event) (h : Ordered s) (hnot : NotOvertaking s e) :
    Ordered (s.step e) := by
  cases e with
  | tick ms => exact ⟨h.tickets, h.idle⟩
  | accept =>
      simp only [step]
      split
      · next hrun => exact h.atomic hrun (by rw [(aside_accept s.server).saveQueue, saveQueue])
      · exact h
  | packet id data size env =>
      simp only [step]
      split
      · next hrun =>
          exact h.atomic hrun (by rw [(aside_packet s.server id data size env).saveQueue, saveQueue])
      · exact h
  | complete k env =>
      simp only [step]
      split
      · next hrun => exact h.complete hrun env k
      · exact h
  | close id env =>
      simp only [step]
      split
      · next hrun => exact h.close hrun env id
      · exact h
  | timer k env =>
      simp only [step]
      split
      · next hrun => exact h.timer hrun env k
      · exact h
  | act k => exact h.act k hnot
  | loginWorker loadOk createOk => exact h.loginWorker loadOk createOk
  | saveWorker saveOk => exact h.saveWorker saveOk
  | shutDown env => exact h.shutDown env
  | main env => exact h.main env hnot

/-! ## What is in the store -/

/-- The last row written for a character. -/
def lastWritten (s : Saving) (dbId : Int) : Option Snapshot :=
  (s.written.filter fun x => x.row.id = dbId).getLast?

theorem lastWritten_append (hw : s'.written = s.written ++ [x]) (d : Int) :
    s'.lastWritten d = if x.row.id = d then some x else s.lastWritten d := by
  unfold lastWritten
  rw [hw, List.filter_append]
  split
  · next h => rw [List.filter_cons_of_pos (by simpa using h), List.filter_nil, List.getLast?_concat]
  · next h => rw [List.filter_cons_of_neg (by simpa using h), List.filter_nil, List.append_nil]

/-- What is written was executed, and is what the store holds. -/
structure Recorded (s : Saving) : Prop where
  executed : s.written.Sublist s.executed
  known : ∀ x ∈ s.written, x.row.id ≤ s.server.store.nextId
  stored : ∀ e ∈ s.server.store.rows, ∀ x, s.lastWritten e.2.id = some x → e.2.SameState x.row

/-- No task is executed, and the store stays. -/
structure Unwritten (s s' : Saving) : Prop where
  executed : s'.executed = s.executed
  written : s'.written = s.written
  store : s'.server.store = s.server.store

namespace Unwritten

theorem refl (s : Saving) : Unwritten s s := ⟨rfl, rfl, rfl⟩

theorem pass (h : Unwritten s s') (pc : ShutDownPc) : Unwritten s { s' with pc := pc } :=
  ⟨h.executed, h.written, h.store⟩

theorem closeSession (s : Saving) (env : Env) (id : ObjectID) :
    Unwritten s (s.closeSession env id) := by
  unfold Saving.closeSession
  split
  · exact refl s
  · unfold processDisconnect
    split <;> exact ⟨rfl, rfl, rfl⟩

theorem closeSessions (s : Saving) (env : Env) : Unwritten s (s.closeSessions env) := by
  unfold Saving.closeSessions
  generalize List.range maxPlayers = ids
  induction ids generalizing s with
  | nil => exact refl s
  | cons id ids ih =>
      have hone := closeSession s env id
      have hrest := ih (s.closeSession env id)
      exact ⟨hrest.executed.trans hone.executed, hrest.written.trans hone.written,
        hrest.store.trans hone.store⟩

theorem atomic (s : Saving) {e : Server.Event} (h : (s.server.step e).store = s.server.store) :
    Unwritten s (s.atomic e) := ⟨rfl, rfl, h⟩

theorem timer (s : Saving) (env : Env) (k : ℕ) : Unwritten s (s.timer env k) := by
  unfold Saving.timer
  split
  · exact refl s
  · next ev hev =>
      split
      · exact refl s
      · split
        · exact ⟨rfl, rfl, rfl⟩
        · next htype => exact atomic s (aside_timer s.server k env hev htype).store

theorem main (s : Saving) (env : Env) : Unwritten s (s.main env) := by
  unfold Saving.main
  split
  · exact refl s
  · exact ⟨rfl, rfl, rfl⟩
  · exact ⟨rfl, rfl, rfl⟩
  · split <;> exact ⟨rfl, rfl, rfl⟩
  · exact ⟨rfl, rfl, rfl⟩
  · exact ⟨rfl, rfl, rfl⟩
  · split <;> exact ⟨rfl, rfl, rfl⟩
  · exact (closeSessions s env).pass .clearing
  · exact ⟨rfl, rfl, rfl⟩
  · exact refl s

end Unwritten

/-- Only the two workers of the database touch the store. -/
theorem unwritten_step (s : Saving) (e : Event) (hsave : ∀ ok, e ≠ .saveWorker ok)
    (hlogin : ∀ ok ok', e ≠ .loginWorker ok ok') : Unwritten s (s.step e) := by
  cases e with
  | tick ms => exact ⟨rfl, rfl, rfl⟩
  | accept =>
      simp only [step]
      split
      · exact .atomic s (aside_accept s.server).store
      · exact .refl s
  | packet id data size env =>
      simp only [step]
      split
      · exact .atomic s (aside_packet s.server id data size env).store
      · exact .refl s
  | complete k env =>
      simp only [step]
      split
      · exact ⟨rfl, rfl, (Server.store_deliver s.server env k).1⟩
      · exact .refl s
  | close id env =>
      simp only [step, close]
      split
      · split
        · exact .refl s
        · split
          · exact .refl s
          · split <;> exact ⟨rfl, rfl, rfl⟩
      · exact .refl s
  | timer k env =>
      simp only [step]
      split
      · exact .timer s env k
      · exact .refl s
  | act k =>
      simp only [step, act]
      split <;> exact ⟨rfl, rfl, rfl⟩
  | loginWorker loadOk createOk => exact absurd rfl (hlogin loadOk createOk)
  | saveWorker saveOk => exact absurd rfl (hsave saveOk)
  | shutDown env =>
      simp only [step, shutDown]
      split
      · exact ⟨rfl, rfl, rfl⟩
      · exact .refl s
  | main env => exact .main s env

namespace Recorded

theorem unwritten (h : Recorded s) (hs : Unwritten s s') : Recorded s' where
  executed := by
    rw [hs.executed, hs.written]
    exact h.executed
  known := by
    rw [hs.written, hs.store]
    exact h.known
  stored := by
    unfold lastWritten
    rw [hs.written, hs.store]
    exact h.stored

/-- A task that writes nothing. -/
theorem skip (h : Recorded s) (hexecuted : s.executed.Sublist s'.executed)
    (hwritten : s'.written = s.written) (hstore : s'.server.store = s.server.store) :
    Recorded s' := by
  have hsame : Recorded { s' with executed := s.executed } :=
    h.unwritten ⟨rfl, hwritten, hstore⟩
  exact ⟨hsame.executed.trans hexecuted, hsame.known, hsame.stored⟩

/-- **A row is written**: it is the last one of its character, and the others are
left alone. -/
theorem write (h : Recorded s) {store : PlayerStore}
    (hsave : s.server.store.savePlayer x.row = some store) (hexecuted : s'.executed = s.executed ++ [x])
    (hwritten : s'.written = s.written ++ [x]) (hstore : s'.server.store = store) :
    Recorded s' := by
  obtain ⟨hnext, hrows⟩ := PlayerStore.savePlayer_eq_some hsave
  refine ⟨?_, ?_, ?_⟩
  · rw [hwritten, hexecuted]
    exact h.executed.append_right [x]
  · intro y hy
    rw [hstore, hnext]
    rw [hwritten] at hy
    rcases List.mem_append.mp hy with hy | hy
    · exact h.known y hy
    · rw [List.mem_singleton.mp hy]
      exact PlayerStore.id_le_of_savePlayer hsave
  · -- the row with this id has been written, and no other
    intro e he y hy
    rw [lastWritten_append hwritten] at hy
    rw [hstore] at he
    rcases hrows e he with ⟨hsame, hid⟩ | ⟨hold, hid⟩
    · rw [if_pos hid.symm] at hy
      rw [← Option.some.inj hy]
      exact hsame
    · rw [if_neg (Ne.symm hid)] at hy
      exact h.stored e hold y hy

theorem store_saveWorker {row : PlayerRow} {stamp : ℕ} {rest : List SaveTask}
    (hq : s.server.game.saveQueue = .savePlayer row stamp :: rest) (saveOk : Bool) :
    (s.server.saveWorker saveOk).store =
      if saveOk then (s.server.store.savePlayer row).getD s.server.store else s.server.store := by
  unfold Server.saveWorker
  rw [hq]
  dsimp only
  split
  · unfold Server.savePlayer
    dsimp only
    cases s.server.store.savePlayer row <;> rfl
  · rfl

theorem saveWorker (h : Recorded s) (saveOk : Bool) : Recorded (s.saveWorker saveOk) := by
  unfold Saving.saveWorker
  split
  · exact h
  · split
    · split
      · exact h
      · exact h.unwritten ⟨rfl, rfl, rfl⟩
    · next task rest hq =>
        unfold saveQueue at hq
        cases task with
        | updateLastLogin dbId =>
            refine h.skip (.trans (.refl _) (List.sublist_append_left _ _)) (List.append_nil _) ?_
            simp only [Server.saveWorker, hq]
        | savePlayer row stamp =>
            have hstore := store_saveWorker hq saveOk
            simp only [rowOf, Option.toList_some]
            cases hsaves : s.saves saveOk ⟨row, stamp⟩ with
            | true =>
                obtain ⟨rfl, hsome⟩ := Bool.and_eq_true_iff.mp hsaves
                obtain ⟨store, hsave⟩ := Option.isSome_iff_exists.mp hsome
                refine h.write hsave rfl ?_ ?_
                · rw [List.filter_cons_of_pos hsaves]
                  rfl
                · rw [hstore, if_pos rfl, hsave, Option.getD_some]
            | false =>
                refine h.skip (List.sublist_append_left _ _) ?_ ?_
                · rw [List.filter_cons_of_neg (by rw [hsaves]; decide)]
                  exact List.append_nil _
                · -- the operation failed, or there is no row with this id
                  rw [hstore]
                  rcases Bool.and_eq_false_iff.mp hsaves with rfl | hnone
                  · rfl
                  · rw [Option.isSome_eq_false_iff, Option.isNone_iff_eq_none] at hnone
                    dsimp only at hnone
                    rw [hnone, Option.getD_none, ite_self]

/-- The login worker adds at most one row to the store, under a new id. -/
theorem store_loginWorker (s : Server) (loadOk createOk : Bool) :
    s.store.nextId ≤ (s.loginWorker loadOk createOk).store.nextId ∧
      ∀ e ∈ (s.loginWorker loadOk createOk).store.rows,
        e ∈ s.store.rows ∨ s.store.nextId < e.2.id := by
  unfold Server.loginWorker
  split
  · exact ⟨le_refl _, fun e he => .inl he⟩
  · next task rest hq =>
      dsimp only
      unfold Server.loginOutcome
      split
      · exact ⟨le_refl _, fun e he => .inl he⟩
      · split
        · exact ⟨le_refl _, fun e he => .inl he⟩
        · split
          · exact ⟨le_refl _, fun e he => .inl he⟩
          · split
            · exact ⟨le_refl _, fun e he => .inl he⟩
            · next store newId hcreate =>
                obtain ⟨hid, hnext, hrows⟩ := PlayerStore.createPlayer_eq_some hcreate
                dsimp only
                refine ⟨by omega, ?_⟩
                intro e he
                rw [hrows] at he
                rcases List.mem_append.mp he with he | he
                · exact .inl he
                · right
                  rw [List.mem_singleton.mp he]
                  dsimp only
                  omega

/-- A character that is created has an id that no row was written under. -/
theorem loginWorker (h : Recorded s) (loadOk createOk : Bool) :
    Recorded (s.loginWorker loadOk createOk) := by
  unfold Saving.loginWorker
  split
  · exact h
  · split
    · split
      · exact h
      · exact h.unwritten ⟨rfl, rfl, rfl⟩
    · obtain ⟨hnext, hrows⟩ := store_loginWorker s.server loadOk createOk
      refine ⟨h.executed, fun x hx => (h.known x hx).trans hnext, ?_⟩
      intro e he x hx
      rcases hrows e he with hold | hnew
      · exact h.stored e hold x hx
      · -- its id is above every id that was ever written
        have hmem := List.mem_filter.mp (List.mem_of_getLast? hx)
        have hle := h.known x hmem.1
        have hid : x.row.id = e.2.id := of_decide_eq_true hmem.2
        omega

end Recorded

theorem recorded_step (s : Saving) (e : Event) (h : Recorded s) : Recorded (s.step e) := by
  cases e with
  | saveWorker saveOk => exact h.saveWorker saveOk
  | loginWorker loadOk createOk => exact h.loginWorker loadOk createOk
  | _ => exact h.unwritten (unwritten_step s _ (by simp) (by simp))

theorem recorded_init (server : Server) : Recorded (init server) where
  executed := .refl _
  known := by simp [init]
  stored := by simp [lastWritten, init]

theorem ordered_init (map : Map) (spawns : List MonsterSpawnData) (now : ℕ) (store : PlayerStore) :
    Ordered (init (.init map spawns now store)) :=
  ⟨Ticket.InOrder.nil, fun _ => rfl⟩

/-! ## Runs -/

theorem SavesInOrder.of (h : Ordered s) (hr : Recorded s) : SavesInOrder s := by
  have hexecuted : s.executed.Pairwise (Ticket.Older (·.row.id) Snapshot.number) :=
    (List.pairwise_append.mp h.tickets.ordered).1
  have hwritten := hexecuted.sublist hr.executed
  refine ⟨hwritten, ?_⟩
  intro e he x hx hid
  have hmem : x ∈ s.written.filter fun x => x.row.id = e.2.id :=
    List.mem_filter.mpr ⟨hx, decide_eq_true hid⟩
  obtain ⟨y, hy⟩ := Option.isSome_iff_exists.mp
    (List.getLast?_isSome.mpr (List.ne_nil_of_mem hmem))
  have hymem := List.mem_filter.mp (List.mem_of_getLast? hy)
  refine ⟨y, hymem.1, of_decide_eq_true hymem.2, ?_, hr.stored e he y hy⟩
  -- the last one is not older than any other
  obtain ⟨init, hinit⟩ := List.getLast?_eq_some_iff.mp hy
  have hpair := hwritten.filter fun x => x.row.id = e.2.id
  rw [hinit] at hmem hpair
  rcases List.mem_append.mp hmem with hmem | hmem
  · have hlt := (List.pairwise_append.mp hpair).2.2 x hmem y List.mem_cons_self
    exact Nat.le_of_lt (hlt (hid.trans (of_decide_eq_true hymem.2).symm))
  · rw [List.mem_singleton.mp hmem]

theorem recorded_run (server : Server) (es : List Event) :
    Recorded (run step (init server) es) :=
  Transition.invariant (fun s e hs _ => recorded_step s e hs) (recorded_init server) along_true

/-- **Saves never go back in time**, in every run in which no row is posted while an
older snapshot of its character is still to be posted. -/
theorem savesInOrder_run {map : Map} {spawns : List MonsterSpawnData} {now : ℕ}
    {store : PlayerStore} {es : List Event}
    (h : Along step NotOvertaking (init (.init map spawns now store)) es) :
    SavesInOrder (run step (init (.init map spawns now store)) es) := by
  have hordered := Transition.invariant (I := Ordered) ordered_step
    (ordered_init map spawns now store) h
  exact .of hordered (recorded_run _ es)

/-- A client logs in, and plays until the next periodic save. -/
def untilSave : List Event :=
  [.accept, .packet 0 (loginPacket [65]) 36 .plain, .loginWorker true true, .complete 0 .plain,
    .tick dbSaveIntervalMs]

/-- The periodic save takes and posts its snapshot, the client leaves, and all of it is
written. -/
def savedThenLeft : List Event :=
  untilSave ++ [.timer 0 .plain, .act 0, .act 0, .close 0 .plain, .act 0, .act 0, .act 0,
    .saveWorker true, .saveWorker true, .saveWorker true]

theorem savesInOrder_run_savedThenLeft :
    SavesInOrder (run step (init (.init openField [] 0 .init)) savedThenLeft) :=
  savesInOrder_run (by decide +kernel)

/-- The periodic save takes its snapshots; the client moves, leaves, and is saved;
then the periodic save comes to its row. -/
def overtaken : List Event :=
  untilSave ++ [.timer 0 .plain, .packet 0 ([13, 0, 234, 3, 1] ++ List.replicate 8 0) 13 .plain,
    .close 0 .plain, .act 1, .act 1, .act 0, .saveWorker true, .saveWorker true, .saveWorker true]

/-- Snapshot 1 is written before snapshot 0 of the same character, and the position
that stays in the store is the old one. -/
theorem overtaken_written :
    (run step (init (.init openField [] 0 .init)) overtaken).written.map
      (fun x => (x.row.id, x.number, x.row.y)) = [(1, 1, 1), (1, 0, 0)] := by
  decide +kernel

theorem not_always_savesInOrder :
    ¬ ∀ (map : Map) (spawns : List MonsterSpawnData) (now : ℕ) (store : PlayerStore)
      (es : List Event), SavesInOrder (run step (init (.init map spawns now store)) es) := by
  intro hall
  have hwritten := (hall openField [] 0 .init overtaken).written
  have hpair := (List.pairwise_map (f := fun x : Snapshot => (x.row.id, x.number, x.row.y))
    (R := fun a b => a.1 = b.1 → a.2.1 < b.2.1)).mpr hwritten
  rw [overtaken_written] at hpair
  exact absurd hpair (by decide)

end Saving

end Mmorpg
