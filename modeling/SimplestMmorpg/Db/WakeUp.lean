/-
No wake-up of a database worker is lost.

`notify_one` does nothing when nobody waits, and both notifications come after the
mutex was given back. What saves the worker is that it reads the queue and the flag
under the mutex and gives the mutex back only by waiting: a task is pushed, and the
flag cleared, either before it reads or when it is already waiting, and then the
notification is still to come.
-/
import SimplestMmorpg.Db.TaskOrder

set_option autoImplicit false

namespace Mmorpg

variable {α : Type}

/-- The worker is inside its scope, and outside `wait`. -/
def WorkerPc.Holds : WorkerPc α → Prop
  | .predQueue => True
  | .predRunning => True
  | .testRunning => True
  | .testQueue => True
  | .pop => True
  | .unlock _ => True
  | .leave => True
  | .undefined => True
  | _ => False

/-- `Shutdown` has cleared the flag, or is about to, and has yet to notify this worker. -/
def ShutdownPc.ToNotify : ShutdownPc → Lane → Prop
  | .unlock _, _ => True
  | .notifyAll .login, _ => True
  | .notifyAll .save, .save => True
  | _, _ => False

/-- The mutexes that `Shutdown` has between the two ends of its scope. -/
def ShutdownPc.Holds : ShutdownPc → Lane → Prop
  | .clearing, _ => True
  | .unlock .login, _ => True
  | .unlock .save, .save => True
  | _, _ => False

namespace TaskQueue

variable {q : TaskQueue α} {running : Bool} {toNotify toNotify' : Prop}

/-- The worker has the mutex where it should; it knows that the queue is empty when
it is about to wait; and if it waits although its predicate is true, somebody is
about to notify it: a call that has pushed, or `Shutdown`. -/
structure Awake (running : Bool) (toNotify : Prop) (q : TaskQueue α) : Prop where
  holds : q.worker.Holds ↔ q.mutex = some .worker
  empty : q.worker = .predRunning → q.queue = []
  awaited : q.worker = .waiting → q.queue ≠ [] ∨ running = false →
    q.mutex = some (.poster none) ∨ 0 < q.notifiers ∨ toNotify

namespace Awake

/-- Away from the two places where more than the mutex matters. -/
theorem goes (hholds : q.worker.Holds ↔ q.mutex = some .worker) (hread : q.worker ≠ .predRunning)
    (hwait : q.worker ≠ .waiting) : Awake running toNotify q :=
  ⟨hholds, fun hpc => absurd hpc hread, fun hpc => absurd hpc hwait⟩

theorem mono (h : Awake running toNotify q) (hto : toNotify → toNotify') :
    Awake running toNotify' q :=
  ⟨h.holds, h.empty, fun hwait hpred => (h.awaited hwait hpred).imp_right (.imp_right hto)⟩

/-- Once `Shutdown` is to notify, the flag does not matter. -/
theorem clear (h : Awake running toNotify q) (hto : toNotify') : Awake false toNotify' q :=
  ⟨h.holds, h.empty, fun _ _ => .inr (.inr hto)⟩

/-- A worker that somebody else keeps out of its scope. -/
theorem mutex (h : Awake running toNotify q) {m : Option (Holder α)}
    (hm : q.mutex ≠ some .worker) (hm' : m ≠ some .worker)
    (hpush : q.mutex ≠ some (.poster none)) : Awake running toNotify { q with mutex := m } := by
  refine ⟨?_, h.empty, ?_⟩
  · exact iff_of_false (fun hholds => hm (h.holds.mp hholds)) hm'
  · intro hwait hpred
    rcases h.awaited hwait hpred with hposter | hrest
    · exact absurd hposter hpush
    · exact .inr hrest

/-- `Shutdown` leaves its scope. -/
theorem released (h : Awake running toNotify q) (hm : q.mutex = some .shutdown) :
    Awake running toNotify { q with mutex := none } :=
  h.mutex (by simp [hm]) (by simp) (by simp [hm])

theorem acquire (h : Awake running toNotify q) (k : ℕ) : Awake running toNotify (q.acquire k) := by
  unfold TaskQueue.acquire
  split
  · next task hmutex _ =>
      obtain ⟨hholds, hempty, hawaited⟩ := h.mutex (m := some (.poster (some task)))
        (by simp [hmutex]) (by simp) (by simp [hmutex])
      exact ⟨hholds, hempty, hawaited⟩
  · exact h

/-- A push comes with a notification. -/
theorem poster (h : Awake running toNotify q) : Awake running toNotify q.poster := by
  unfold TaskQueue.poster
  split
  · next task hmutex =>
      -- the mutex is with the call, so the worker has not just read an empty queue
      have hout : ¬ q.worker.Holds := by
        rw [h.holds, hmutex]
        simp
      refine ⟨iff_of_false hout (by simp), ?_, fun _ _ => .inl rfl⟩
      intro hpc
      exact absurd (by rw [hpc]; trivial) hout
  · next hmutex =>
      refine ⟨?_, h.empty, fun _ _ => .inr (.inl (Nat.succ_pos _))⟩
      rw [h.holds, hmutex]
      simp
  · exact h

/-- After a wake-up nobody has to notify. -/
theorem wake (h : Awake running toNotify q) : Awake running toNotify' q.wake := by
  unfold TaskQueue.wake
  split
  · next hwait =>
      have hholds := h.holds
      rw [hwait] at hholds
      exact .goes hholds (by simp) (by simp)
  · next hne => exact ⟨h.holds, h.empty, fun hwait => absurd hwait hne⟩

theorem notifyOne (h : Awake running toNotify q) : Awake running toNotify q.notifyOne := by
  unfold TaskQueue.notifyOne
  split
  · exact h
  · have hless : Awake running True { q with notifiers := q.notifiers - 1 } :=
      ⟨h.holds, h.empty, fun _ _ => .inr (.inr trivial)⟩
    exact hless.wake

theorem returns (h : Awake running toNotify q) : Awake running toNotify q.returns := by
  unfold TaskQueue.returns
  split
  · next task hpc =>
      have hholds := h.holds
      rw [hpc] at hholds
      exact .goes hholds (by simp) (by simp)
  · exact h

/-- The worker reads the queue under the mutex, and waits with the queue empty and
the flag up. -/
theorem work (h : Awake running toNotify q) : Awake running toNotify (q.work running) := by
  have hholds := h.holds
  unfold TaskQueue.work
  cases hpc : q.worker with
  | lock =>
      dsimp only
      split
      · exact .goes (iff_of_true trivial rfl) (by simp) (by simp)
      · exact h
  | predQueue =>
      rw [hpc] at hholds
      have hmutex := hholds.mp trivial
      dsimp only
      split
      · next hnil =>
          exact ⟨iff_of_true trivial hmutex, fun _ => List.isEmpty_iff.mp hnil,
            fun hpc => absurd hpc (by simp)⟩
      · exact .goes (iff_of_true trivial hmutex) (by simp) (by simp)
  | predRunning =>
      rw [hpc] at hholds
      have hmutex := hholds.mp trivial
      dsimp only
      split
      · next hflag =>
          -- it waits with the predicate false, so there is nobody to hear from yet
          refine ⟨iff_of_false id (by simp), fun hpc => absurd hpc (by simp), fun _ hpred => ?_⟩
          rcases hpred with hne | hdown
          · exact absurd (h.empty hpc) hne
          · exact absurd (hflag.symm.trans hdown) (by simp)
      · exact .goes (iff_of_true trivial hmutex) (by simp) (by simp)
  | waiting => exact h
  | testRunning =>
      rw [hpc] at hholds
      have hmutex := hholds.mp trivial
      dsimp only
      split <;> exact .goes (iff_of_true trivial hmutex) (by simp) (by simp)
  | testQueue =>
      rw [hpc] at hholds
      have hmutex := hholds.mp trivial
      dsimp only
      split <;> exact .goes (iff_of_true trivial hmutex) (by simp) (by simp)
  | pop =>
      rw [hpc] at hholds
      have hmutex := hholds.mp trivial
      dsimp only
      split <;> exact .goes (iff_of_true trivial hmutex) (by simp) (by simp)
  | unlock task =>
      exact .goes (iff_of_false id (by simp)) (by simp) (by simp)
  | call task =>
      rw [hpc] at hholds
      exact .goes hholds (by simp) (by simp)
  | executing task => exact h
  | leave =>
      exact .goes (iff_of_false id (by simp)) (by simp) (by simp)
  | done => exact h
  | undefined => exact h

end Awake

theorem mutex_wake (q : TaskQueue α) : q.wake.mutex = q.mutex := by
  unfold TaskQueue.wake
  split <;> rfl

/-- A mutex that `Shutdown` has is nobody else's. -/
theorem mutex_work (h : Awake running toNotify q) (hm : q.mutex = some .shutdown) :
    (q.work running).mutex = some .shutdown := by
  have hout : ¬ q.worker.Holds := by
    rw [h.holds, hm]
    simp
  unfold TaskQueue.work
  cases hpc : q.worker with
  | lock =>
      dsimp only
      rw [if_neg (by simp [hm])]
      exact hm
  | waiting => exact hm
  | call task => exact hm
  | executing task => exact hm
  | done => exact hm
  | _ => exact absurd (by rw [hpc]; trivial) hout

end TaskQueue

namespace DBManager

open TaskQueue Transition

variable {s : DBManager α} {e : Event α} {l : Lane}

structure Wakeful (s : DBManager α) : Prop where
  awake : ∀ l, Awake s.running (s.main.ToNotify l) (s.queues l)
  held : ∀ l, s.main.Holds l → (s.queues l).mutex = some .shutdown

/-- A step on one queue. -/
theorem Wakeful.on {f : TaskQueue α → TaskQueue α} (h : Wakeful s)
    (hf : Awake s.running (s.main.ToNotify l) (s.queues l) →
      Awake s.running (s.main.ToNotify l) (f (s.queues l)))
    (hheld : s.main.Holds l → (s.queues l).mutex = some .shutdown →
      (f (s.queues l)).mutex = some .shutdown) : Wakeful (s.on l f) := by
  refine ⟨fun m => ?_, fun m hm => ?_⟩
  · rw [queues_on]
    split
    · next hml => exact hml ▸ hf (h.awake l)
    · exact h.awake m
  · rw [queues_on]
    split
    · next hml => exact hheld (hml ▸ hm) (h.held l (hml ▸ hm))
    · exact h.held m hm

theorem mutex_of_locked (h : s.locked l = true) : (s.queues l).mutex = some .shutdown := by
  unfold locked at h
  split at h
  · assumption
  · exact absurd h (by simp)

theorem wakeful_shutdown (h : Wakeful s) : Wakeful s.shutdown := by
  have hawake := h.awake
  have hheld := h.held
  unfold shutdown
  cases hmain : s.main with
  | uncalled =>
      rw [hmain] at hawake
      exact ⟨hawake, fun m hm => hm.elim⟩
  | locking =>
      rw [hmain] at hawake
      dsimp only
      split
      · next hlocked =>
          refine ⟨hawake, fun m _ => ?_⟩
          cases m with
          | login => exact mutex_of_locked hlocked.1
          | save => exact mutex_of_locked hlocked.2
      · exact h
  | clearing =>
      -- a worker that waits with the flag down is still to be notified
      rw [hmain] at hheld
      exact ⟨fun m => (hawake m).clear trivial, hheld⟩
  | unlock l =>
      rw [hmain] at hawake hheld
      cases l with
      | login =>
          refine ⟨fun m => ?_, fun m hm => ?_⟩
          · cases m with
            | login => exact (hawake .login).released (hheld .login trivial)
            | save => exact hawake .save
          · cases m with
            | login => exact hm.elim
            | save => exact hheld .save trivial
      | save =>
          refine ⟨fun m => ?_, fun m hm => hm.elim⟩
          cases m with
          | login => exact hawake .login
          | save => exact (hawake .save).released (hheld .save trivial)
  | notifyAll l =>
      rw [hmain] at hawake
      cases l with
      | login =>
          refine ⟨fun m => ?_, fun m hm => hm.elim⟩
          cases m with
          | login => exact (hawake .login).wake
          | save => exact hawake .save
      | save =>
          refine ⟨fun m => ?_, fun m hm => hm.elim⟩
          cases m with
          | login => exact hawake .login
          | save => exact (hawake .save).wake
  | join l =>
      rw [hmain] at hawake
      cases l with
      | login =>
          dsimp only
          split
          · exact ⟨hawake, fun m hm => hm.elim⟩
          · exact h
      | save =>
          dsimp only
          split
          · exact ⟨hawake, fun m hm => hm.elim⟩
          · exact h
  | returned => exact h

theorem wakeful_step (s : DBManager α) (e : Event α) (h : Wakeful s) : Wakeful (s.step e) := by
  cases e with
  | post l task =>
      exact h.on (f := fun q => q.post task) (fun ha => ⟨ha.holds, ha.empty, ha.awaited⟩) fun _ hm => hm
  | acquire l k =>
      refine Wakeful.on (f := fun q => q.acquire k) h (fun ha => ha.acquire k) fun _ hm => ?_
      simp only [TaskQueue.acquire, hm]
  | poster l =>
      refine h.on (fun ha => ha.poster) fun _ hm => ?_
      simp only [TaskQueue.poster, hm]
  | notifyOne l =>
      refine h.on (fun ha => ha.notifyOne) fun _ hm => ?_
      unfold TaskQueue.notifyOne
      split
      · exact hm
      · rw [mutex_wake]
        exact hm
  | worker l =>
      exact Wakeful.on (f := fun q => q.work s.running) h (fun ha => ha.work)
        fun _ hm => mutex_work (h.awake l) hm
  | spurious l =>
      refine h.on (fun ha => ha.wake) fun _ hm => ?_
      rw [mutex_wake]
      exact hm
  | returns l threw =>
      refine h.on (fun ha => ha.returns) fun _ hm => ?_
      unfold TaskQueue.returns
      split <;> exact hm
  | tryLock l =>
      simp only [step, tryLock]
      split
      · next hfree =>
          obtain ⟨hmain, hnone⟩ := hfree
          have hmutex : (s.queues l).mutex = none := by simpa using hnone
          refine Wakeful.on (f := fun q => { q with mutex := some .shutdown }) h (fun ha => ?_)
            fun _ _ => rfl
          exact ha.mutex (by simp [hmutex]) (by simp) (by simp [hmutex])
      · exact h
  | backOff l =>
      simp only [step, backOff]
      split
      · next hlocked =>
          obtain ⟨hmain, hone, -⟩ := hlocked
          refine Wakeful.on (f := fun q => { q with mutex := none }) h
            (fun ha => ha.released (mutex_of_locked hone)) fun hholds _ => ?_
          rw [hmain] at hholds
          exact hholds.elim
      · exact h
  | shutdown => exact wakeful_shutdown h

theorem wakeful_init : Wakeful (init : DBManager α) where
  awake := fun _ => ⟨iff_of_false id (by simp [init, TaskQueue.init]), fun _ => rfl,
    fun hwait => absurd hwait (by simp [init, TaskQueue.init])⟩
  held := fun _ h => h.elim

/-- **No wake-up is lost.** A worker that waits while there is a task or the flag is
down will be notified: by the call that pushed, which is about to leave its scope or
to notify, or by `Shutdown`. -/
theorem no_lost_wakeUp (es : List (Event α)) (l : Lane) :
    let s := run step (init : DBManager α) es
    (s.queues l).worker = .waiting → (s.queues l).queue ≠ [] ∨ s.running = false →
      (s.queues l).mutex = some (.poster none) ∨ 0 < (s.queues l).notifiers ∨
        s.main.ToNotify l :=
  ((invariant (fun s e h _ => wakeful_step s e h) wakeful_init along_true).awake l).awaited

end DBManager

end Mmorpg
