/-
What `IOCPServer::ShutDown` saves.

`ShutDown` saves everybody, ends the database workers, then the timers, then
the IOCP workers, and disconnects the sessions that are left at the end. A save
worker ends when its queue is empty, and what is posted after that stays in the
queue: the disconnects of the last loop, the periodic saves, logouts and logins
that the IOCP workers still handle in between. So everything is executed when
nothing is posted after the save worker has ended.

Then the last row of a character is its newest snapshot, by the order of
`Race/SaveOrder`, and it is what the character left with if its newest snapshot
was up to date when it left. A disconnect takes its snapshot before it takes
the player out, and a login may overwrite a player that nobody saves, so this
too is a condition.
-/
import SimplestMmorpg.Race.SaveOrder

set_option autoImplicit false

namespace Mmorpg

namespace Saving

open Transition
open Server (openField loginPacket)

variable {s s' : Saving} {e : Event} {env : Env} {k : ℕ} {p : Player} {d : Int}

/-! ## The property -/

/-- The newest snapshot of a character. -/
def newest (s : Saving) (dbId : Int) : Option Snapshot :=
  (s.snaps.filter fun x => x.row.id = dbId).getLast?

/-- The character as it left `m_players` the last time. -/
def lastLeft (s : Saving) (dbId : Int) : Option Player :=
  (s.left.filter fun p => p.dbId = dbId).getLast?

/-- Every task that was posted has been executed, and whoever was in `m_players` when
`ShutDown` began has left, and the last row saved is its state when it did. A task
leaves the queue only to be executed. -/
structure NothingLost (s : Saving) : Prop where
  executed : s.saveQueue = []
  saved : ∀ p ∈ s.atShutDown, ∃ left row, s.lastLeft p.dbId = some left ∧
    s.lastWritten p.dbId = some row ∧ row.row = left.snapshot

/-- The call of the save worker succeeds. -/
def SaveSucceeds (s : Saving) : Event → Prop
  | .saveWorker saveOk => ∀ x ∈ s.saveQueue.head?.bind rowOf, s.saves saveOk x = true
  | _ => True

/-- The step posts a save task. -/
def posts (s : Saving) : Event → Bool
  | .act k => (s.posting (.act k)).isSome
  | .complete k _ => s.pc.running && (s.server.completions[k]?).any s.admits
  | .main env =>
    (s.posting (.main env)).isSome ||
      (s.pc = .closingSessions &&
        s.world.players.entries.any fun p => (s.server.getSession p.id).isSome)
  | _ => false

/-- Nothing is posted after the save worker has ended. -/
def PostsInTime (s : Saving) (e : Event) : Prop := s.saveEnded = true → s.posts e = false

/-- The players that the step takes out of `m_players`, but for those of the loop over
the sessions, which are saved at once. -/
def leavers (s : Saving) : Event → List Player
  | .act k =>
    match s.handlers[k]? with
    | some (.leaving player _ _) => (s.world.getPlayer player.id).toList
    | _ => []
  | .complete k _ => if s.pc.running then s.overwritten k else []
  | .main _ => if s.pc = .clearing then s.world.players.entries else []
  | _ => []

/-- The newest snapshot of whoever leaves is up to date. -/
def LeavesAsSaved (s : Saving) (e : Event) : Prop :=
  ∀ p ∈ s.leavers e, (s.newest p.dbId).map Snapshot.row = some p.snapshot

/-- The condition on a step. -/
def KeepsAll (s : Saving) (e : Event) : Prop :=
  NotOvertaking s e ∧ PostsInTime s e ∧ LeavesAsSaved s e

instance (s : Saving) : ∀ e, Decidable (SaveSucceeds s e)
  | .saveWorker saveOk => by
      unfold SaveSucceeds
      infer_instance
  | .tick _ => .isTrue trivial
  | .accept => .isTrue trivial
  | .packet _ _ _ _ => .isTrue trivial
  | .complete _ _ => .isTrue trivial
  | .close _ _ => .isTrue trivial
  | .timer _ _ => .isTrue trivial
  | .act _ => .isTrue trivial
  | .loginWorker _ _ => .isTrue trivial
  | .shutDown _ => .isTrue trivial
  | .main _ => .isTrue trivial

instance (s : Saving) (e : Event) : Decidable (KeepsAll s e) := by
  unfold KeepsAll PostsInTime LeavesAsSaved
  infer_instance

/-! ## Who is in the table -/

/-- The character is in `m_players`. -/
def Present (s : Saving) (dbId : Int) : Prop :=
  ∃ id p, s.world.getPlayer id = some p ∧ p.dbId = dbId

theorem present_of_mem (h : p ∈ s.world.players.entries) : Present s p.dbId :=
  ⟨p.id, p, PlayerTable.find_of_mem h, rfl⟩

theorem Present.of_same (h : Present s d) (hs : World.SamePlayers s.world s'.world) :
    Present s' d := by
  obtain ⟨id, p, hp, rfl⟩ := h
  have hmap := hs id
  rw [hp] at hmap
  obtain ⟨q, hq, hd⟩ := Option.map_eq_some_iff.mp hmap
  exact ⟨id, q, hq, hd⟩

theorem present_of_mem_snapshots {x : Snapshot} (hx : x ∈ s.snapshots env) :
    Present s x.row.id := by
  have hrow : x.row ∈ (s.snapshots env).map Snapshot.row := List.mem_map_of_mem hx
  rw [snapshots, rows_numbered] at hrow
  obtain ⟨id, -, hid⟩ := List.mem_filterMap.mp hrow
  obtain ⟨p, hp, hsnap⟩ := Option.map_eq_some_iff.mp hid
  rw [← hsnap]
  exact ⟨id, p, hp, rfl⟩

/-! ## The account of the characters -/

theorem newest_append {new : List Snapshot} (hs : s'.snaps = s.snaps ++ new)
    (hnew : ∀ x ∈ new, x.row.id ≠ d) : s'.newest d = s.newest d := by
  have hnil : (new.filter fun x => x.row.id = d) = [] := by
    apply List.filter_eq_nil_iff.mpr
    intro x hx
    simpa using hnew x hx
  rw [newest, hs, List.filter_append, hnil, List.append_nil, newest]

/-- Who left the last time: one of those who leave now, or the same as before. -/
theorem lastLeft_append {gone : List Player} (hs : s'.left = s.left ++ gone) :
    (∃ p ∈ gone, p.dbId = d ∧ s'.lastLeft d = some p) ∨
      (∀ p ∈ gone, p.dbId ≠ d) ∧ s'.lastLeft d = s.lastLeft d := by
  unfold lastLeft
  rw [hs, List.filter_append]
  cases hg : (gone.filter fun p => p.dbId = d).getLast? with
  | none =>
      right
      have hnil := List.getLast?_eq_none_iff.mp hg
      refine ⟨?_, by rw [hnil, List.append_nil]⟩
      intro p hp
      simpa using List.filter_eq_nil_iff.mp hnil p hp
  | some p =>
      left
      have hmem := List.mem_filter.mp (List.mem_of_getLast? hg)
      refine ⟨p, hmem.1, of_decide_eq_true hmem.2, ?_⟩
      rw [List.getLast?_append, hg, Option.some_or]

/-- Whoever is not in the table, and was, left as its newest snapshot; whoever was
there when `ShutDown` began is there or has left. -/
structure Accounted (s : Saving) : Prop where
  departed : ∀ d, ¬ Present s d → ∀ left, s.lastLeft d = some left →
    (s.newest d).map Snapshot.row = some left.snapshot
  known : ∀ p ∈ s.atShutDown, Present s p.dbId ∨ ∃ q ∈ s.left, q.dbId = p.dbId

/-- **What a step may do to the account**: take snapshots of characters that are in
the table, and take players out of it whose newest snapshots are up to date. -/
theorem Accounted.change (h : Accounted s) (new : List Snapshot) (gone : List Player)
    (hsnaps : s'.snaps = s.snaps ++ new) (hnew : ∀ x ∈ new, Present s' x.row.id)
    (hleft : s'.left = s.left ++ gone)
    (hgone : ∀ p ∈ gone, (s.newest p.dbId).map Snapshot.row = some p.snapshot)
    (hstay : ∀ d, Present s d → Present s' d ∨ ∃ p ∈ gone, p.dbId = d)
    (hstart : ∀ p ∈ s'.atShutDown, p ∈ s.atShutDown ∨ Present s p.dbId) : Accounted s' := by
  refine ⟨?_, ?_⟩
  · intro d hd left hl
    have hnewest : s'.newest d = s.newest d :=
      newest_append hsnaps fun x hx hid => hd (hid ▸ hnew x hx)
    rw [hnewest]
    rcases lastLeft_append (d := d) hleft with ⟨p, hp, rfl, hlast⟩ | ⟨hnone, hlast⟩
    · -- it leaves now, and no snapshot of it is taken in the same step
      rw [hlast] at hl
      rw [← Option.some.inj hl]
      exact hgone p hp
    · rw [hlast] at hl
      refine h.departed d ?_ left hl
      intro hpresent
      rcases hstay d hpresent with hp | ⟨p, hp, hpd⟩
      · exact hd hp
      · exact hnone p hp hpd
  · have hthere : ∀ d, Present s d → Present s' d ∨ ∃ q ∈ s'.left, q.dbId = d := by
      intro d hd
      rcases hstay d hd with hp | ⟨q, hq, hqd⟩
      · exact .inl hp
      · exact .inr ⟨q, by rw [hleft]; exact List.mem_append_right _ hq, hqd⟩
    intro p hp
    rcases hstart p hp with hold | hpresent
    · rcases h.known p hold with hpresent | ⟨q, hq, hqd⟩
      · exact hthere _ hpresent
      · exact .inr ⟨q, by rw [hleft]; exact List.mem_append_left _ hq, hqd⟩
    · exact hthere _ hpresent

/-- Nobody leaves. -/
theorem Accounted.stay (h : Accounted s) (new : List Snapshot)
    (hsnaps : s'.snaps = s.snaps ++ new) (hnew : ∀ x ∈ new, Present s x.row.id)
    (hleft : s'.left = s.left) (hplayers : World.SamePlayers s.world s'.world)
    (hstart : ∀ p ∈ s'.atShutDown, p ∈ s.atShutDown ∨ Present s p.dbId) : Accounted s' :=
  h.change new [] hsnaps (fun x hx => (hnew x hx).of_same hplayers)
    (by rw [hleft, List.append_nil]) (by simp) (fun d hd => .inl (hd.of_same hplayers)) hstart

/-- Nothing is taken, and nobody leaves. -/
theorem Accounted.same (h : Accounted s) (hsnaps : s'.snaps = s.snaps) (hleft : s'.left = s.left)
    (hplayers : World.SamePlayers s.world s'.world) (hstart : s'.atShutDown = s.atShutDown) :
    Accounted s' := by
  refine h.stay [] (by rw [hsnaps, List.append_nil]) (by simp) hleft hplayers ?_
  intro p hp
  rw [hstart] at hp
  exact .inl hp

namespace Accounted

theorem atomic (h : Accounted s) {e : Server.Event} (ha : Aside s.server (s.server.step e)) :
    Accounted (s.atomic e) :=
  h.same rfl rfl ha.players rfl

/-- A login that is admitted may take a player out, by overwriting it. -/
theorem complete (h : Accounted s) (env : Env) (k : ℕ)
    (hsaved : ∀ p ∈ s.overwritten k, (s.newest p.dbId).map Snapshot.row = some p.snapshot) :
    Accounted (s.complete env k) := by
  refine h.change [] (s.overwritten k) (List.append_nil _).symm (by simp) rfl hsaved ?_
    fun p hp => .inl hp
  rintro d ⟨id, p, hp, rfl⟩
  rcases complete_spec s k env with haside | ⟨c, row, hc, -, hadmits, hadmitted⟩
  · have hsame : World.SamePlayers s.world (s.complete env k).world := haside.players
    exact .inl (Present.of_same ⟨id, p, hp, rfl⟩ hsame)
  · by_cases hid : id = c.sessionId
    · -- the player under the id of the session
      right
      refine ⟨p, ?_, rfl⟩
      rw [overwritten, hc]
      dsimp only
      rw [if_pos hadmits, ← hid, hp]
      exact List.mem_singleton_self p
    · left
      have hmap := hadmitted.players id
      have hp' : s.server.game.world.getPlayer id = some p := hp
      rw [if_neg hid, hp'] at hmap
      obtain ⟨q, hq, hd⟩ := Option.map_eq_some_iff.mp hmap
      exact ⟨id, q, hq, hd⟩

theorem close (h : Accounted s) (env : Env) (id : ObjectID) : Accounted (s.close env id) := by
  unfold Saving.close
  split
  · exact h
  · split
    · exact h
    · split
      · exact ⟨h.departed, h.known⟩
      · next player hp =>
          refine h.stay [⟨player.snapshot, s.snaps.length⟩] rfl ?_ rfl (fun _ => rfl)
            fun p hp => .inl hp
          intro x hx
          rw [List.mem_singleton.mp hx]
          exact ⟨id, player, hp, rfl⟩

theorem timer (h : Accounted s) (env : Env) (k : ℕ) : Accounted (s.timer env k) := by
  unfold Saving.timer
  split
  · exact h
  · next ev hev =>
      split
      · exact h
      · split
        · exact h.stay (s.snapshots env) rfl (fun x hx => present_of_mem_snapshots hx) rfl
            (fun _ => rfl) fun p hp => .inl hp
        · next htype => exact h.atomic (aside_timer s.server k env hev htype)

theorem act (h : Accounted s) (k : ℕ) (hsaved : LeavesAsSaved s (.act k)) :
    Accounted (s.act k) := by
  unfold Saving.act
  split
  · exact h
  · exact h.same rfl rfl (fun _ => rfl) rfl
  · exact h.same rfl rfl (fun _ => rfl) rfl
  · next player row env hk =>
      -- `RemovePlayer` takes out whoever is under the id
      have hleavers : s.leavers (.act k) = (s.world.getPlayer player.id).toList := by
        simp only [leavers, hk]
      unfold LeavesAsSaved at hsaved
      rw [hleavers] at hsaved
      refine h.change [] _ (List.append_nil _).symm (by simp) rfl hsaved ?_ fun p hp => .inl hp
      rintro d ⟨id, p, hp, rfl⟩
      by_cases hid : id = player.id
      · right
        refine ⟨p, ?_, rfl⟩
        rw [← hid, hp]
        exact List.mem_singleton_self p
      · left
        refine ⟨id, p, ?_, rfl⟩
        have hget : (s.world.leave env player).getPlayer id = _ := World.getPlayer_leave id
        rw [if_neg hid, hp] at hget
        exact hget
  · exact h.same rfl rfl (fun _ => rfl) rfl
  · exact h.same rfl rfl (fun _ => rfl) rfl

theorem shutDown (h : Accounted s) (env : Env) : Accounted (s.shutDown env) := by
  unfold Saving.shutDown
  split
  · exact h.stay (s.snapshots env) rfl (fun x hx => present_of_mem_snapshots hx) rfl
      (fun _ => rfl) fun p hp => .inr (present_of_mem hp)
  · exact h

theorem clear (h : Accounted s)
    (hsaved : ∀ p ∈ s.world.players.entries,
      (s.newest p.dbId).map Snapshot.row = some p.snapshot) : Accounted s.clear := by
  refine h.change [] s.world.players.entries (List.append_nil _).symm (by simp) rfl hsaved ?_
    fun p hp => .inl hp
  rintro d ⟨id, p, hp, rfl⟩
  exact .inr ⟨p, PlayerTable.mem_of_find hp, rfl⟩

end Accounted

/-! ## The loop over the sessions -/

/-- No session has a player. -/
def Unmanned (s : Saving) : Prop :=
  ∀ id < maxPlayers, (s.server.sessions id).isSome → s.world.getPlayer id = none

theorem unmanned_of (hpc : s.pc = .closingSessions) (h : s.posts (.main env) = false) :
    Unmanned s := by
  intro id hid hs
  cases hp : s.world.getPlayer id with
  | none => rfl
  | some p =>
      have hmem : p ∈ s.world.players.entries := PlayerTable.mem_of_find hp
      have hnone := (Bool.or_eq_false_iff.mp h).2
      rw [hpc, decide_eq_true rfl, Bool.true_and, List.any_eq_false] at hnone
      have hopen : (s.server.getSession p.id).isSome := by
        rw [World.getPlayer_id hp, Server.getSession, if_pos hid]
        exact hs
      exact absurd hopen (hnone p hmem)

/-- The loop finds nobody to disconnect, and only closes the sessions. -/
theorem closeSessions_of_unmanned (h : Unmanned s) (env : Env) :
    ∃ sessions, s.closeSessions env = { s with server := { s.server with sessions := sessions } } := by
  have hlt : ∀ id ∈ List.range maxPlayers, id < maxPlayers := fun id hid => List.mem_range.mp hid
  unfold closeSessions
  revert hlt
  generalize List.range maxPlayers = ids
  intro hlt
  induction ids generalizing s with
  | nil => exact ⟨s.server.sessions, rfl⟩
  | cons id ids ih =>
      have hone : ∃ sessions,
          s.closeSession env id = { s with server := { s.server with sessions := sessions } } ∧
            ∀ i, (sessions i).isSome → (s.server.sessions i).isSome := by
        unfold closeSession
        split
        · exact ⟨s.server.sessions, rfl, fun _ hi => hi⟩
        · next conn hs =>
            have hnone := h id (hlt id List.mem_cons_self) (by rw [hs]; rfl)
            refine ⟨Function.update s.server.sessions id none, ?_, ?_⟩
            · simp only [processDisconnect, hnone]
            · intro i hi
              by_cases hid : i = id
              · rw [hid, hs]
                rfl
              · rwa [Function.update_of_ne hid] at hi
      obtain ⟨sessions, heq, hsub⟩ := hone
      have hrest : Unmanned (s.closeSession env id) := by
        rw [heq]
        exact fun i hi hs => h i hi (hsub i hs)
      obtain ⟨sessions', heq'⟩ := ih hrest fun i hi => hlt i (List.mem_cons_of_mem id hi)
      refine ⟨sessions', ?_⟩
      rw [List.foldl_cons, heq', heq]

/-- A task that is posted stays in the queue through the loop. -/
theorem saveQueue_closeSession (h : s.saveQueue ≠ []) (env : Env) (id : ObjectID) :
    (s.closeSession env id).saveQueue ≠ [] := by
  unfold closeSession
  split
  · exact h
  · unfold processDisconnect
    split
    · exact h
    · exact List.append_ne_nil_of_left_ne_nil h _

/-- **Too late.** A player whose session is still open is saved by the loop, and nobody
executes the task. -/
theorem saveQueue_closeSessions {id : ObjectID} (hid : id < maxPlayers)
    (hs : (s.server.sessions id).isSome) (hp : s.world.getPlayer id = some p) (env : Env) :
    (s.closeSessions env).saveQueue ≠ [] := by
  have hmem : id ∈ List.range maxPlayers := List.mem_range.mpr hid
  have hposted : ∀ (ids : List ObjectID) (s : Saving), s.saveQueue ≠ [] →
      (ids.foldl (closeSession env) s).saveQueue ≠ [] := fun ids s hq =>
    List.foldlRecOn (motive := fun s : Saving => s.saveQueue ≠ []) ids (closeSession env) hq
      fun s hq j _ => saveQueue_closeSession hq env j
  unfold closeSessions
  revert hmem
  generalize List.range maxPlayers = ids
  intro hmem
  induction ids generalizing s with
  | nil => exact absurd hmem List.not_mem_nil
  | cons j ids ih =>
      rw [List.foldl_cons]
      by_cases hj : id = j
      · -- its turn: the snapshot is posted
        apply hposted
        obtain ⟨conn, hconn⟩ := Option.isSome_iff_exists.mp hs
        unfold closeSession processDisconnect
        rw [← hj, hconn]
        dsimp only
        rw [hp]
        exact List.append_ne_nil_of_right_ne_nil _ (by simp)
      · -- the turn of another session, which leaves this one alone
        have hrest := (List.mem_cons.mp hmem).resolve_left hj
        have hsame : ((s.closeSession env j).server.sessions id).isSome ∧
            (s.closeSession env j).world.getPlayer id = some p := by
          unfold closeSession
          split
          · exact ⟨hs, hp⟩
          · refine ⟨?_, ?_⟩
            · dsimp only
              rw [Function.update_of_ne hj]
              unfold processDisconnect
              split <;> exact hs
            · unfold processDisconnect
              split
              · exact hp
              · next q hq =>
                  have hget : (s.world.leave env q).getPlayer id = _ := World.getPlayer_leave id
                  rw [World.getPlayer_id hq, if_neg hj, hp] at hget
                  exact hget
        exact ih hsame.1 hsame.2 hrest

/-! ## The end of the save worker -/

/-- The database workers have been joined. -/
def dbJoined : ShutDownPc → Bool
  | .stoppingTimers => true
  | .stoppingWorkers => true
  | .joiningWorkers => true
  | .closingSessions => true
  | .clearing => true
  | .returned => true
  | _ => false

/-- The save worker ends when it is told to and has nothing to do; nothing is posted
after that, and nobody is left in the table when `ShutDown` returns. -/
structure Drained (s : Saving) : Prop where
  told : s.saveEnded = true → s.pc.dbRunning = false
  empty : s.saveEnded = true → s.saveQueue = []
  ended : dbJoined s.pc = true → s.saveEnded = true
  cleared : s.pc = .returned → ∀ d, ¬ Present s d

namespace Drained

/-- The threads are where they were, and nothing is posted if the save worker has ended. -/
theorem same (h : Drained s) (hpc : s'.pc = s.pc) (hended : s'.saveEnded = s.saveEnded)
    (hq : s.saveEnded = true → s'.saveQueue = s.saveQueue)
    (hplayers : s.pc = .returned → ∀ d, Present s' d → Present s d) : Drained s' := by
  refine ⟨?_, ?_, ?_, ?_⟩
  · rw [hpc, hended]
    exact h.told
  · rw [hended]
    intro hend
    rw [hq hend, h.empty hend]
  · rw [hpc, hended]
    exact h.ended
  · rw [hpc]
    exact fun hret d hd => h.cleared hret d (hplayers hret d hd)

theorem not_returned (hrun : s.pc.running = true) {P : Prop} : s.pc = .returned → P := by
  intro hret
  rw [hret] at hrun
  exact absurd hrun (by decide)

theorem atomic (h : Drained s) (hrun : s.pc.running = true) {e : Server.Event}
    (ha : Aside s.server (s.server.step e)) : Drained (s.atomic e) :=
  h.same rfl rfl (fun _ => ha.saveQueue) (not_returned hrun)

theorem complete (h : Drained s) (hrun : s.pc.running = true) (env : Env) (k : ℕ)
    (hposts : PostsInTime s (.complete k env)) : Drained (s.complete env k) := by
  refine h.same rfl rfl ?_ (not_returned hrun)
  intro hended
  rcases complete_spec s k env with haside | ⟨c, row, hc, -, hadmits, -⟩
  · exact haside.saveQueue
  · have hno := hposts hended
    simp only [posts, hrun, hc, Option.any_some, hadmits, Bool.and_self] at hno
    exact absurd hno (by decide)

theorem close (h : Drained s) (hrun : s.pc.running = true) (env : Env) (id : ObjectID) :
    Drained (s.close env id) := by
  unfold Saving.close
  split
  · exact h
  · split
    · exact h
    · split
      · exact h.same rfl rfl (fun _ => rfl) (not_returned hrun)
      · exact h.same rfl rfl (fun _ => rfl) (not_returned hrun)

theorem timer (h : Drained s) (hrun : s.pc.running = true) (env : Env) (k : ℕ) :
    Drained (s.timer env k) := by
  unfold Saving.timer
  split
  · exact h
  · next ev hev =>
      split
      · exact h
      · split
        · exact h.same rfl rfl (fun _ => rfl) (not_returned hrun)
        · next htype => exact h.atomic hrun (aside_timer s.server k env hev htype)

theorem act (h : Drained s) (ho : Ordered s) (k : ℕ) (hposts : PostsInTime s (.act k)) :
    Drained (s.act k) := by
  have hreturned : ∀ {a : SaveHandler}, s.handlers[k]? = some a → ∀ {P : Prop},
      s.pc = .returned → P := by
    intro a ha P hret
    have hj := ho.running ha
    rw [hret] at hj
    exact absurd hj (by decide)
  have hno : ∀ {row : Snapshot}, s.posting (.act k) = some row → ∀ {P : Prop},
      s.saveEnded = true → P := by
    intro row hrow P hended
    have hpost := hposts hended
    rw [posts, hrow] at hpost
    exact absurd hpost (by simp)
  unfold Saving.act
  split
  · exact h
  · -- the end of `SaveAllPlayers`: the next event is queued, and nothing is posted
    next hk => exact h.same rfl rfl (fun _ => rfl) (hreturned hk)
  · next row rows hk =>
      have hposting : s.posting (.act k) = some row := by simp only [posting, hk]
      exact h.same rfl rfl (hno hposting) (hreturned hk)
  · -- a player that leaves is in the table until here
    next player row env hk => exact h.same rfl rfl (fun _ => rfl) (hreturned hk)
  · next id row hk =>
      have hposting : s.posting (.act k) = some row := by simp only [posting, hk]
      exact h.same rfl rfl (hno hposting) (hreturned hk)
  · next id hk => exact h.same rfl rfl (fun _ => rfl) (hreturned hk)

theorem loginWorker (h : Drained s) (loadOk createOk : Bool) :
    Drained (s.loginWorker loadOk createOk) := by
  unfold Saving.loginWorker
  split
  · exact h
  · split
    · split
      · exact h
      · exact ⟨h.told, h.empty, h.ended, h.cleared⟩
    · have hgame := Server.game_loginWorker s.server loadOk createOk
      refine h.same rfl rfl (fun _ => ?_) (fun _ d => ?_)
      · rw [saveQueue, hgame, saveQueue]
      · rintro ⟨id, p, hp, hd⟩
        refine ⟨id, p, ?_, hd⟩
        rw [world, hgame] at hp
        exact hp

theorem saveWorker (h : Drained s) (saveOk : Bool) : Drained (s.saveWorker saveOk) := by
  unfold Saving.saveWorker
  split
  · exact h
  · next hended =>
      split
      · next hq =>
          split
          · exact h
          · next hrun =>
              -- the queue is empty and `m_running` is cleared: the thread ends
              refine ⟨fun _ => ?_, fun _ => hq, fun _ => rfl, h.cleared⟩
              exact Bool.eq_false_iff.mpr hrun
      · -- a task is executed, so the worker has not ended
        refine h.same rfl rfl (fun hend => absurd hend hended) ?_
        intro hret
        exact absurd (h.ended (by rw [hret]; rfl)) hended

/-- A worker that was not told to end has not ended. -/
theorem going (h : Drained s) (hrun : s.pc.dbRunning = true) : s.saveEnded ≠ true := by
  intro hend
  rw [h.told hend] at hrun
  exact absurd hrun (by decide)

theorem shutDown (h : Drained s) (env : Env) : Drained (s.shutDown env) := by
  unfold Saving.shutDown
  split
  · next hpc =>
      have hgoing := h.going (by rw [hpc]; rfl)
      exact ⟨fun hend => absurd hend hgoing, h.empty, fun hj => absurd hj (by simp [dbJoined]),
        fun hret => absurd hret (by simp)⟩
  · exact h

/-- The main thread goes on after the save worker has ended. -/
theorem pass (h : Drained s) (hend : s.saveEnded = true) (pc : ShutDownPc)
    (hrun : pc.dbRunning = false) (hret : pc ≠ .returned) : Drained { s with pc := pc } :=
  ⟨fun _ => hrun, h.empty, fun _ => hend, fun hpc => absurd hpc hret⟩

theorem main (h : Drained s) (env : Env) (hposts : PostsInTime s (.main env)) :
    Drained (s.main env) := by
  unfold Saving.main
  split
  · exact h
  · next row rows hpc =>
      -- a row of `SaveAllPlayers`, while the workers still run
      have hgoing := h.going (by rw [hpc]; rfl)
      exact ⟨fun hend => absurd hend hgoing, fun hend => absurd hend hgoing,
        fun hj => absurd hj (by simp [dbJoined]), fun hret => absurd hret (by simp)⟩
  · -- the database is told to stop
    exact ⟨fun _ => rfl, h.empty, fun hj => absurd hj (by simp [dbJoined]),
      fun hret => absurd hret (by simp)⟩
  · -- both of its threads are joined, or the main thread waits
    split
    · next hboth => exact h.pass hboth.2 .stoppingTimers rfl (by simp)
    · exact h
  · next hpc =>
      have hpass := h.pass (h.ended (by rw [hpc]; rfl)) .stoppingWorkers rfl (by simp)
      exact ⟨hpass.told, hpass.empty, hpass.ended, hpass.cleared⟩
  · next hpc => exact h.pass (h.ended (by rw [hpc]; rfl)) .joiningWorkers rfl (by simp)
  · next hpc =>
      split
      · exact h.pass (h.ended (by rw [hpc]; rfl)) .closingSessions rfl (by simp)
      · exact h
  · next hpc =>
      -- the loop would post for a session with a player, so there is none
      have hend := h.ended (by rw [hpc]; rfl)
      obtain ⟨sessions, hclosed⟩ :=
        closeSessions_of_unmanned (unmanned_of hpc (hposts hend)) env
      rw [hclosed]
      have hpass := h.pass hend .clearing rfl (by simp)
      exact ⟨hpass.told, hpass.empty, hpass.ended, hpass.cleared⟩
  · next hpc =>
      -- `m_players.clear()`
      have hend := h.ended (by rw [hpc]; rfl)
      refine ⟨fun _ => rfl, fun _ => h.empty hend, fun _ => hend, fun _ d => ?_⟩
      rintro ⟨id, p, hp, -⟩
      exact absurd hp (by simp [world, clear, Server.onWorld, World.getPlayer])
  · exact h

end Drained

/-! ## Runs -/

/-- All of it together: what was written is what was executed, as every call succeeds. -/
structure Safe (s : Saving) : Prop where
  ordered : Ordered s
  accounted : Accounted s
  drained : Drained s
  written : s.written = s.executed

theorem accounted_main (h : Safe s) (env : Env) (hc : KeepsAll s (.main env)) :
    Accounted (s.main env) := by
  have ha := h.accounted
  obtain ⟨-, hposts, hsaved⟩ := hc
  unfold Saving.main
  split
  · exact ha
  · exact ha.same rfl rfl (fun _ => rfl) rfl
  · exact ⟨ha.departed, ha.known⟩
  · split
    · exact ⟨ha.departed, ha.known⟩
    · exact ha
  · exact ⟨ha.departed, ha.known⟩
  · exact ⟨ha.departed, ha.known⟩
  · split
    · exact ⟨ha.departed, ha.known⟩
    · exact ha
  · next hpc =>
      have hend := h.drained.ended (by rw [hpc]; rfl)
      obtain ⟨sessions, hclosed⟩ :=
        closeSessions_of_unmanned (unmanned_of hpc (hposts hend)) env
      rw [hclosed]
      exact ⟨ha.departed, ha.known⟩
  · next hpc =>
      have hclear := ha.clear (by simpa only [LeavesAsSaved, leavers, hpc, if_true] using hsaved)
      exact ⟨hclear.departed, hclear.known⟩
  · exact ha

theorem accounted_step (h : Safe s) (e : Event) (hc : KeepsAll s e) : Accounted (s.step e) := by
  have ha := h.accounted
  cases e with
  | tick ms => exact ha.same rfl rfl (fun _ => rfl) rfl
  | accept =>
      simp only [step]
      split
      · exact ha.atomic (aside_accept s.server)
      · exact ha
  | packet id data size env =>
      simp only [step]
      split
      · exact ha.atomic (aside_packet s.server id data size env)
      · exact ha
  | complete k env =>
      simp only [step]
      split
      · next hrun =>
          -- whoever a login overwrites has been saved as it is
          exact ha.complete env k
            (by simpa only [LeavesAsSaved, leavers, hrun, if_true] using hc.2.2)
      · exact ha
  | close id env =>
      simp only [step]
      split
      · exact ha.close env id
      · exact ha
  | timer k env =>
      simp only [step]
      split
      · exact ha.timer env k
      · exact ha
  | act k => exact ha.act k hc.2.2
  | loginWorker loadOk createOk =>
      simp only [step, Saving.loginWorker]
      split
      · exact ha
      · split
        · split
          · exact ha
          · exact ⟨ha.departed, ha.known⟩
        · exact ha.same rfl rfl
            (fun _ => by rw [world, Server.game_loginWorker, world]) rfl
  | saveWorker saveOk =>
      simp only [step, Saving.saveWorker]
      split
      · exact ha
      · split
        · split
          · exact ha
          · exact ⟨ha.departed, ha.known⟩
        · exact ha.same rfl rfl
            (fun _ => by rw [world, Server.world_saveWorker, world]) rfl
  | shutDown env => exact ha.shutDown env
  | main env => exact accounted_main h env hc

theorem drained_step (h : Safe s) (e : Event) (hc : KeepsAll s e) : Drained (s.step e) := by
  have hd := h.drained
  cases e with
  | tick ms => exact hd.same rfl rfl (fun _ => rfl) fun _ _ hp => hp
  | accept =>
      simp only [step]
      split
      · next hrun => exact hd.atomic hrun (aside_accept s.server)
      · exact hd
  | packet id data size env =>
      simp only [step]
      split
      · next hrun => exact hd.atomic hrun (aside_packet s.server id data size env)
      · exact hd
  | complete k env =>
      simp only [step]
      split
      · next hrun => exact hd.complete hrun env k hc.2.1
      · exact hd
  | close id env =>
      simp only [step]
      split
      · next hrun => exact hd.close hrun env id
      · exact hd
  | timer k env =>
      simp only [step]
      split
      · next hrun => exact hd.timer hrun env k
      · exact hd
  | act k => exact hd.act h.ordered k hc.2.1
  | loginWorker loadOk createOk => exact hd.loginWorker loadOk createOk
  | saveWorker saveOk => exact hd.saveWorker saveOk
  | shutDown env => exact hd.shutDown env
  | main env => exact hd.main env hc.2.1

theorem Unwritten.keeps (hu : Unwritten s s') (h : s.written = s.executed) :
    s'.written = s'.executed := by
  rw [hu.written, hu.executed, h]

/-- A call that succeeds writes what it executes. -/
theorem written_step (h : s.written = s.executed) (hok : SaveSucceeds s e) :
    (s.step e).written = (s.step e).executed := by
  cases e with
  | saveWorker saveOk =>
      simp only [step, Saving.saveWorker]
      split
      · exact h
      · split
        · split <;> exact h
        · next task rest hq =>
            have hall : (rowOf task).toList.filter (s.saves saveOk) = (rowOf task).toList := by
              apply List.filter_eq_self.mpr
              intro x hx
              apply hok x
              rw [hq]
              exact Option.mem_toList.mp hx
            dsimp only
            rw [hall, h]
  | loginWorker loadOk createOk =>
      simp only [step, Saving.loginWorker]
      split
      · exact h
      · split
        · split <;> exact h
        · exact h
  | _ => exact (unwritten_step s _ (by simp) (by simp)).keeps h

theorem safe_step (s : Saving) (e : Event) (h : Safe s) (hc : SaveSucceeds s e ∧ KeepsAll s e) :
    Safe (s.step e) where
  ordered := ordered_step s e h.ordered hc.2.1
  accounted := accounted_step h e hc.2
  drained := drained_step h e hc.2
  written := written_step h.written hc.1

theorem safe_init (map : Map) (spawns : List MonsterSpawnData) (now : ℕ) (store : PlayerStore) :
    Safe (init (.init map spawns now store)) where
  ordered := ordered_init map spawns now store
  accounted := ⟨fun d _ left hleft => absurd hleft (by simp [lastLeft, init]), by simp [init]⟩
  drained := ⟨by simp [init], by simp [init], by simp [init, dbJoined], by simp [init]⟩
  written := rfl

theorem NothingLost.of (h : Safe s) (hret : s.pc = .returned) : NothingLost s := by
  have hended := h.drained.ended (by rw [hret]; rfl)
  have hempty := h.drained.empty hended
  have hheld : s.held = [] := by
    rw [held, h.ordered.idle (by rw [hret]; rfl), hret]
    rfl
  have hposted : s.posted = s.written := by
    rw [posted, hempty, h.written]
    exact List.append_nil _
  -- what was written of a character is all its snapshots, in their order
  have hall : ∀ d, s.lastWritten d = s.newest d := by
    intro d
    have htickets := h.ordered.tickets
    unfold Tickets at htickets
    rw [hheld] at htickets
    have hsettled := htickets.settled d
    rw [hposted] at hsettled
    rw [lastWritten, hsettled, newest]
  refine ⟨hempty, ?_⟩
  intro p hp
  have hgone := h.drained.cleared hret p.dbId
  rcases h.accounted.known p hp with hpresent | ⟨q, hq, hqd⟩
  · exact absurd hpresent hgone
  · -- it has left, and its last departure is what was written last
    have hmem : q ∈ s.left.filter fun q => q.dbId = p.dbId :=
      List.mem_filter.mpr ⟨hq, decide_eq_true hqd⟩
    obtain ⟨left, hleft⟩ := Option.isSome_iff_exists.mp
      (List.getLast?_isSome.mpr (List.ne_nil_of_mem hmem))
    obtain ⟨row, hrow, hsnap⟩ := Option.map_eq_some_iff.mp
      (h.accounted.departed p.dbId hgone left hleft)
    exact ⟨left, row, hleft, (hall p.dbId).trans hrow, hsnap⟩

/-- **`ShutDown` loses nothing** in a run that ends with it, when no row overtakes an
older one, nothing is posted after the save worker has ended, and the newest snapshot
of whoever leaves `m_players` is up to date. -/
theorem nothingLost_run {map : Map} {spawns : List MonsterSpawnData} {now : ℕ}
    {store : PlayerStore} {es : List Event}
    (hok : Along step SaveSucceeds (init (.init map spawns now store)) es)
    (hkeeps : Along step KeepsAll (init (.init map spawns now store)) es)
    (hret : (run step (init (.init map spawns now store)) es).pc = .returned) :
    NothingLost (run step (init (.init map spawns now store)) es) := by
  have hsafe := Transition.invariant (I := Safe) safe_step (safe_init map spawns now store)
    (hok.and hkeeps)
  exact .of hsafe hret

/-- The rest of `ShutDown`, when nobody is left. -/
theorem keepsAll_nobody (hpc : s.pc = .closingSessions) (hnobody : s.world.players.entries = [])
    (env : Env) : Along step KeepsAll s [.main env, .main env] ∧
      (run step s [.main env, .main env]).pc = .returned := by
  have hunmanned : Unmanned s := by
    intro id _ _
    rw [World.getPlayer, PlayerTable.find, hnobody, List.find?_nil]
  obtain ⟨sessions, hclosed⟩ := closeSessions_of_unmanned hunmanned env
  have hmain : s.step (.main env) =
      { s with server := { s.server with sessions := sessions }, pc := .clearing } := by
    simp only [step, main, hpc, hclosed]
  refine ⟨⟨?_, ?_, trivial⟩, ?_⟩
  · refine ⟨?_, ?_, ?_⟩
    · simp [NotOvertaking, posting, hpc, ShutDownPc.held]
    · simp [PostsInTime, posts, posting, hpc, ShutDownPc.held, hnobody]
    · simp [LeavesAsSaved, leavers, hpc]
  · rw [hmain]
    have hworld : s.server.game.world.players.entries = [] := hnobody
    refine ⟨?_, ?_, ?_⟩
    · simp [NotOvertaking, posting, ShutDownPc.held]
    · simp [PostsInTime, posts, posting, ShutDownPc.held]
    · simp [LeavesAsSaved, leavers, world, hworld]
  · rw [run_cons, hmain]
    rfl

/-- `ShutDown` with one player, who leaves while it waits for the save worker; up to the
loop over the sessions. -/
def leftInTime : List Event :=
  untilSave ++ [.shutDown .plain, .main .plain, .main .plain, .close 0 .plain, .act 0, .act 0,
    .act 0, .saveWorker true, .saveWorker true, .saveWorker true, .saveWorker true,
    .loginWorker true true, .main .plain, .main .plain, .main .plain, .main .plain]

theorem nothingLost_run_leftInTime :
    NothingLost (run step (init (.init openField [] 0 .init))
      (leftInTime ++ [.main .plain, .main .plain])) := by
  obtain ⟨hkeeps, hret⟩ := keepsAll_nobody
    (s := run step (init (.init openField [] 0 .init)) leftInTime) (by decide +kernel)
    (by decide +kernel) .plain
  apply nothingLost_run
  · exact along_append.mpr ⟨by decide +kernel, trivial, trivial, trivial⟩
  · exact along_append.mpr ⟨by decide +kernel, hkeeps⟩
  · rw [run_append]
    exact hret

/-- `GameWorld::Shutdown` executes nothing that was left in the queue. -/
theorem clear_keeps_queue (h : s.saveQueue ≠ []) (env : Env) :
    ({ s with pc := .clearing }.step (.main env)).pc = .returned ∧
      ¬ NothingLost ({ s with pc := .clearing }.step (.main env)) :=
  ⟨rfl, fun hlost => h hlost.executed⟩

/-- The rest of `ShutDown`, when a session with a player is still open. -/
theorem lost_somebody {id : ObjectID} (hpc : s.pc = .closingSessions) (hid : id < maxPlayers)
    (hs : (s.server.sessions id).isSome) (hp : s.world.getPlayer id = some p) (env : Env) :
    (run step s [.main env, .main env]).pc = .returned ∧
      ¬ NothingLost (run step s [.main env, .main env]) := by
  have hqueue := saveQueue_closeSessions hid hs hp env
  have hmain : s.step (.main env) = { s.closeSessions env with pc := .clearing } := by
    simp only [step, main, hpc]
  rw [run_cons, hmain, run_cons, run_nil]
  exact clear_keeps_queue hqueue env

/-- `ShutDown` with one player, who stays connected; up to the loop over the sessions. -/
def stillConnected : List Event :=
  untilSave ++ [.shutDown .plain, .main .plain, .main .plain, .saveWorker true, .saveWorker true,
    .saveWorker true, .loginWorker true true, .main .plain, .main .plain, .main .plain, .main .plain]

theorem stillConnected_reaches :
    let s := run step (init (.init openField [] 0 .init)) stillConnected
    s.pc = .closingSessions ∧ (s.server.sessions 0).isSome ∧ (s.world.getPlayer 0).isSome := by
  decide +kernel

theorem not_always_nothingLost :
    ¬ ∀ (map : Map) (spawns : List MonsterSpawnData) (now : ℕ) (store : PlayerStore)
      (es : List Event), Along step SaveSucceeds (init (.init map spawns now store)) es →
        (run step (init (.init map spawns now store)) es).pc = .returned →
          NothingLost (run step (init (.init map spawns now store)) es) := by
  intro hall
  obtain ⟨hpc, hs, hp⟩ := stillConnected_reaches
  obtain ⟨p, hp⟩ := Option.isSome_iff_exists.mp hp
  obtain ⟨hret, hlost⟩ := lost_somebody hpc (by decide) hs hp .plain
  have hrest : ∀ s, Along step SaveSucceeds s [.main .plain, .main .plain] :=
    fun _ => ⟨trivial, trivial, trivial⟩
  have h := hall openField [] 0 .init (stillConnected ++ [.main .plain, .main .plain])
    (along_append.mpr ⟨by decide +kernel, hrest _⟩)
  rw [run_append] at h
  exact hlost (h hret)

end Saving

end Mmorpg
