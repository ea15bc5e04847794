/-
The tasks of a queue are executed in order, and all of them before `Shutdown` returns.

What was called, what the worker has in its hands and what is in the queue make
up, in this order, what was pushed (`Sound`); that is the whole of order, and of
nothing being executed twice. The worker leaves its loop only when it has seen
the flag down and then the queue empty; at that moment what was called is what was
pushed. A task pushed while the flag was up is part of it (`Drained`), and whatever
is pushed later cannot change that any more.
-/
import SimplestMmorpg.Db.DBManager
import Mathlib.Data.List.Infix

set_option autoImplicit false

namespace Mmorpg

variable {α : Type}

/-- The task that is popped and not yet called. -/
def WorkerPc.inHand : WorkerPc α → List α
  | .unlock task => [task]
  | .call task => [task]
  | _ => []

/-- The task whose call goes on. -/
def WorkerPc.inCall : WorkerPc α → List α
  | .executing task => [task]
  | _ => []

/-- It has seen that there is nothing more to do. -/
def WorkerPc.Over : WorkerPc α → Prop
  | .leave => True
  | .done => True
  | _ => False

/-- What the worker knows from what it has read. -/
def WorkerPc.Fits (running : Bool) (queue : List α) : WorkerPc α → Prop
  | .testRunning => queue ≠ [] ∨ running = false
  | .testQueue => running = false
  | .pop => queue ≠ []
  | .leave => running = false
  | .done => running = false
  | .undefined => False
  | _ => True

theorem WorkerPc.Fits.over {running : Bool} {queue : List α} {pc : WorkerPc α}
    (h : pc.Fits running queue) (hover : pc.Over) : running = false := by
  cases pc with
  | leave => exact h
  | done => exact h
  | _ => exact hover.elim

/-- What it knows stays true when tasks are pushed and when the flag goes down. -/
theorem WorkerPc.Fits.mono {running running' : Bool} {queue queue' : List α} {pc : WorkerPc α}
    (h : pc.Fits running queue) (hflag : running = false → running' = false)
    (hqueue : queue ≠ [] → queue' ≠ []) : pc.Fits running' queue' := by
  cases pc with
  | testRunning => exact Or.imp hqueue hflag h
  | testQueue => exact hflag h
  | pop => exact hqueue h
  | leave => exact hflag h
  | done => exact hflag h
  | undefined => exact h
  | _ => trivial

namespace TaskQueue

variable {q q' : TaskQueue α} {running : Bool} {before : List α}

/-- The account of a queue. -/
structure Sound (running : Bool) (q : TaskQueue α) : Prop where
  pushed : q.executed ++ q.worker.inHand ++ q.queue = q.pushed
  executed : q.finished ++ q.worker.inCall = q.executed
  fits : q.worker.Fits running q.queue

/-- What was pushed before is executed once the worker is over. -/
structure Drained (before : List α) (q : TaskQueue α) : Prop where
  pushed : before <+: q.pushed
  finished : q.worker.Over → before <+: q.finished

theorem Drained.going (hbefore : before <+: q.pushed) (hgoing : ¬ q.worker.Over) :
    Drained before q :=
  ⟨hbefore, fun hover => absurd hover hgoing⟩

/-! ## The steps that move no task -/

/-- The tasks stay where they are; the worker may wake up. -/
structure Idle (q q' : TaskQueue α) : Prop where
  queue : q'.queue = q.queue
  pushed : q'.pushed = q.pushed
  executed : q'.executed = q.executed
  finished : q'.finished = q.finished
  worker : q'.worker = q.worker ∨ q.worker = .waiting ∧ q'.worker = .lock

theorem Idle.refl (q : TaskQueue α) : Idle q q := ⟨rfl, rfl, rfl, rfl, .inl rfl⟩

theorem Idle.sound (h : Idle q q') (hs : Sound running q) : Sound running q' := by
  rcases h.worker with hpc | ⟨hwait, hlock⟩
  · refine ⟨?_, ?_, ?_⟩
    · rw [h.executed, hpc, h.queue, h.pushed]
      exact hs.pushed
    · rw [h.finished, hpc, h.executed]
      exact hs.executed
    · rw [hpc, h.queue]
      exact hs.fits
  · have hpushed := hs.pushed
    have hexecuted := hs.executed
    rw [hwait] at hpushed hexecuted
    refine ⟨?_, ?_, ?_⟩
    · rw [h.executed, hlock, h.queue, h.pushed]
      exact hpushed
    · rw [h.finished, hlock, h.executed]
      exact hexecuted
    · rw [hlock]
      trivial

theorem Idle.drained (h : Idle q q') (hd : Drained before q) : Drained before q' := by
  refine ⟨by rw [h.pushed]; exact hd.pushed, fun hover => ?_⟩
  rw [h.finished]
  rcases h.worker with hpc | ⟨-, hlock⟩
  · rw [hpc] at hover
    exact hd.finished hover
  · rw [hlock] at hover
    exact hover.elim

theorem idle_mutex (q : TaskQueue α) (m : Option (Holder α)) : Idle q { q with mutex := m } :=
  ⟨rfl, rfl, rfl, rfl, .inl rfl⟩

theorem idle_post (q : TaskQueue α) (task : α) : Idle q (q.post task) :=
  ⟨rfl, rfl, rfl, rfl, .inl rfl⟩

theorem idle_acquire (q : TaskQueue α) (k : ℕ) : Idle q (q.acquire k) := by
  unfold acquire
  split
  · exact ⟨rfl, rfl, rfl, rfl, .inl rfl⟩
  · exact .refl q

theorem idle_wake (q : TaskQueue α) : Idle q q.wake := by
  unfold wake
  split
  · next hwait => exact ⟨rfl, rfl, rfl, rfl, .inr ⟨hwait, rfl⟩⟩
  · exact .refl q

theorem idle_notifyOne (q : TaskQueue α) : Idle q q.notifyOne := by
  unfold notifyOne
  split
  · exact .refl q
  · obtain ⟨hqueue, hpushed, hexecuted, hfinished, hworker⟩ :=
      idle_wake { q with notifiers := q.notifiers - 1 }
    exact ⟨hqueue, hpushed, hexecuted, hfinished, hworker⟩

/-! ## The steps that move one -/

/-- A push puts the task behind all others. -/
theorem Sound.poster (h : Sound running q) : Sound running q.poster := by
  unfold TaskQueue.poster
  split
  · next task _ =>
      refine ⟨?_, h.executed, h.fits.mono id fun _ => by simp⟩
      dsimp only
      rw [← List.append_assoc, h.pushed]
  · exact ⟨h.pushed, h.executed, h.fits⟩
  · exact h

theorem Drained.poster (h : Drained before q) : Drained before q.poster := by
  unfold TaskQueue.poster
  split
  · exact ⟨h.pushed.trans (List.prefix_append _ _), h.finished⟩
  · exact ⟨h.pushed, h.finished⟩
  · exact h

/-- The worker takes the first task, calls it, and takes no other before that has ended. -/
theorem Sound.work (h : Sound running q) : Sound running (q.work running) := by
  obtain ⟨hpushed, hexecuted, hfits⟩ := h
  unfold TaskQueue.work
  cases hpc : q.worker with
  | lock =>
      rw [hpc] at hpushed hexecuted
      dsimp only
      split
      · exact ⟨hpushed, hexecuted, trivial⟩
      · exact ⟨by rw [hpc]; exact hpushed, by rw [hpc]; exact hexecuted, by rw [hpc]; trivial⟩
  | predQueue =>
      rw [hpc] at hpushed hexecuted
      dsimp only
      split
      · exact ⟨hpushed, hexecuted, trivial⟩
      · next hne => exact ⟨hpushed, hexecuted, .inl (by simpa using hne)⟩
  | predRunning =>
      rw [hpc] at hpushed hexecuted
      dsimp only
      split
      · exact ⟨hpushed, hexecuted, trivial⟩
      · next hflag => exact ⟨hpushed, hexecuted, .inr (by simpa using hflag)⟩
  | waiting => exact ⟨hpushed, hexecuted, hfits⟩
  | testRunning =>
      rw [hpc] at hpushed hexecuted hfits
      dsimp only
      split
      · next hflag =>
          -- with the flag up the predicate has seen a task
          refine ⟨hpushed, hexecuted, ?_⟩
          rcases hfits with hne | hdown
          · exact hne
          · exact absurd (hflag.symm.trans hdown) (by simp)
      · next hflag => exact ⟨hpushed, hexecuted, show running = false by simpa using hflag⟩
  | testQueue =>
      rw [hpc] at hpushed hexecuted hfits
      dsimp only
      split
      · exact ⟨hpushed, hexecuted, hfits⟩
      · next hne => exact ⟨hpushed, hexecuted, show q.queue ≠ [] by simpa using hne⟩
  | pop =>
      rw [hpc] at hpushed hexecuted hfits
      dsimp only
      split
      · next hnil => exact absurd hnil hfits
      · next task rest hqueue =>
          rw [hqueue] at hpushed
          refine ⟨?_, hexecuted, trivial⟩
          rw [← hpushed]
          simp [WorkerPc.inHand]
  | unlock task =>
      rw [hpc] at hpushed hexecuted
      exact ⟨hpushed, hexecuted, trivial⟩
  | call task =>
      rw [hpc] at hpushed hexecuted
      refine ⟨?_, ?_, trivial⟩
      · rw [← hpushed]
        simp [WorkerPc.inHand]
      · rw [← hexecuted]
        simp [WorkerPc.inCall]
  | executing task => exact ⟨hpushed, hexecuted, hfits⟩
  | leave =>
      rw [hpc] at hpushed hexecuted hfits
      exact ⟨hpushed, hexecuted, hfits⟩
  | done => exact ⟨hpushed, hexecuted, hfits⟩
  | undefined => exact ⟨hpushed, hexecuted, hfits⟩

/-- The worker is over when what was called is all that was pushed. -/
theorem Drained.work (h : Drained before q) (hs : Sound running q) :
    Drained before (q.work running) := by
  obtain ⟨hbefore, hfinished⟩ := h
  unfold TaskQueue.work
  cases hpc : q.worker with
  | lock =>
      dsimp only
      split
      · exact .going hbefore id
      · exact ⟨hbefore, hfinished⟩
  | predQueue =>
      dsimp only
      split
      · exact .going hbefore id
      · exact .going hbefore id
  | predRunning =>
      dsimp only
      split
      · exact .going hbefore id
      · exact .going hbefore id
  | waiting => exact ⟨hbefore, hfinished⟩
  | testRunning =>
      dsimp only
      split
      · exact .going hbefore id
      · exact .going hbefore id
  | testQueue =>
      dsimp only
      split
      · next hnil =>
          -- nothing in the queue, in hand or in call: what has ended is what was pushed
          refine ⟨hbefore, fun _ => ?_⟩
          obtain ⟨hpushed, hexecuted, -⟩ := hs
          rw [hpc, List.isEmpty_iff.mp hnil] at hpushed
          rw [hpc] at hexecuted
          simp only [WorkerPc.inHand, List.append_nil] at hpushed
          simp only [WorkerPc.inCall, List.append_nil] at hexecuted
          rw [← hpushed, ← hexecuted] at hbefore
          exact hbefore
      · exact .going hbefore id
  | pop =>
      dsimp only
      split
      · exact .going hbefore id
      · exact .going hbefore id
  | unlock task => exact .going hbefore id
  | call task => exact .going hbefore id
  | executing task => exact ⟨hbefore, hfinished⟩
  | leave => exact ⟨hbefore, fun _ => hfinished (by rw [hpc]; trivial)⟩
  | done => exact ⟨hbefore, hfinished⟩
  | undefined => exact ⟨hbefore, hfinished⟩

theorem Sound.returns (h : Sound running q) : Sound running q.returns := by
  obtain ⟨hpushed, hexecuted, hfits⟩ := h
  unfold TaskQueue.returns
  split
  · next task hpc =>
      rw [hpc] at hpushed hexecuted
      refine ⟨hpushed, ?_, trivial⟩
      rw [← hexecuted]
      simp [WorkerPc.inCall]
  · exact ⟨hpushed, hexecuted, hfits⟩

theorem Drained.returns (h : Drained before q) : Drained before q.returns := by
  unfold TaskQueue.returns
  split
  · exact .going h.pushed id
  · exact h

/-- The flag goes down. -/
theorem Sound.clear (h : Sound running q) : Sound false q :=
  ⟨h.pushed, h.executed, h.fits.mono (fun _ => rfl) id⟩

/-- What a step does to a queue. -/
inductive Change (running : Bool) (q : TaskQueue α) : TaskQueue α → Prop
  | idle {q' : TaskQueue α} (h : Idle q q') : Change running q q'
  | poster : Change running q q.poster
  | work : Change running q (q.work running)
  | returns : Change running q q.returns

theorem Sound.change (h : Sound running q) (hc : Change running q q') : Sound running q' := by
  cases hc with
  | idle hi => exact hi.sound h
  | poster => exact h.poster
  | work => exact h.work
  | returns => exact h.returns

theorem Drained.change (h : Drained before q) (hs : Sound running q) (hc : Change running q q') :
    Drained before q' := by
  cases hc with
  | idle hi => exact hi.drained h
  | poster => exact h.poster
  | work => exact h.work hs
  | returns => exact h.returns

/-- A worker that has returned does nothing any more. -/
theorem Change.done (hc : Change running q q') (h : q.worker = .done) : q'.worker = .done := by
  cases hc with
  | idle hi =>
      rcases hi.worker with hpc | ⟨hwait, -⟩
      · rw [hpc, h]
      · rw [h] at hwait
        exact absurd hwait (by simp)
  | poster =>
      unfold TaskQueue.poster
      split <;> exact h
  | work => simp only [TaskQueue.work, h]
  | returns => simp only [TaskQueue.returns, h]

end TaskQueue

/-! ## Both queues and `Shutdown` -/

/-- The workers that `Shutdown` has joined. -/
def ShutdownPc.Joined : ShutdownPc → Lane → Prop
  | .join .save, .login => True
  | .returned, _ => True
  | _, _ => False

namespace DBManager

open TaskQueue Transition

variable {s : DBManager α} {e : Event α} {l : Lane} {before : Lane → List α}

theorem queues_on (s : DBManager α) (l : Lane) (f : TaskQueue α → TaskQueue α) (m : Lane) :
    (s.on l f).queues m = if m = l then f (s.queues l) else s.queues m :=
  Function.update_apply _ _ _ _

/-- A step on one queue. -/
theorem change_on (s : DBManager α) (l : Lane) (f : TaskQueue α → TaskQueue α)
    (hf : Change s.running (s.queues l) (f (s.queues l))) (m : Lane) :
    Change s.running (s.queues m) ((s.on l f).queues m) := by
  rw [queues_on]
  split
  · next hm => exact hm ▸ hf
  · exact .idle (.refl _)

/-- **A step changes each queue in one of the four ways.** -/
theorem change_step (s : DBManager α) (e : Event α) (m : Lane) :
    Change s.running (s.queues m) ((s.step e).queues m) := by
  have hfree : ∀ {q : TaskQueue α}, Change s.running q { q with mutex := none } :=
    .idle (idle_mutex _ _)
  cases e with
  | post l task => exact change_on s l (fun q => q.post task) (.idle (idle_post _ task)) m
  | acquire l k => exact change_on s l (fun q => q.acquire k) (.idle (idle_acquire _ k)) m
  | poster l => exact change_on s l TaskQueue.poster .poster m
  | notifyOne l => exact change_on s l TaskQueue.notifyOne (.idle (idle_notifyOne _)) m
  | worker l => exact change_on s l (fun q => q.work s.running) .work m
  | spurious l => exact change_on s l TaskQueue.wake (.idle (idle_wake _)) m
  | returns l threw => exact change_on s l TaskQueue.returns .returns m
  | tryLock l =>
      simp only [step, tryLock]
      split
      · exact change_on s l (fun q => { q with mutex := some .shutdown }) (.idle (idle_mutex _ _)) m
      · exact .idle (.refl _)
  | backOff l =>
      simp only [step, backOff]
      split
      · exact change_on s l (fun q => { q with mutex := none }) hfree m
      · exact .idle (.refl _)
  | shutdown =>
      simp only [step, shutdown]
      cases s.main with
      | uncalled => exact .idle (.refl _)
      | locking =>
          dsimp only
          split <;> exact .idle (.refl _)
      | clearing => exact .idle (.refl _)
      | unlock l =>
          cases l with
          | login => exact change_on s .login (fun q => { q with mutex := none }) hfree m
          | save => exact change_on s .save (fun q => { q with mutex := none }) hfree m
      | notifyAll l =>
          cases l with
          | login => exact change_on s .login TaskQueue.wake (.idle (idle_wake _)) m
          | save => exact change_on s .save TaskQueue.wake (.idle (idle_wake _)) m
      | join l =>
          cases l with
          | login =>
              dsimp only
              split <;> exact .idle (.refl _)
          | save =>
              dsimp only
              split <;> exact .idle (.refl _)
      | returned => exact .idle (.refl _)

/-- The flag only goes down. -/
theorem running_step (s : DBManager α) (e : Event α) :
    (s.step e).running = s.running ∨ (s.step e).running = false := by
  cases e with
  | tryLock l =>
      simp only [step, tryLock]
      split <;> exact .inl rfl
  | backOff l =>
      simp only [step, backOff]
      split <;> exact .inl rfl
  | shutdown =>
      simp only [step, shutdown]
      split
      · exact .inl rfl
      · split <;> exact .inl rfl
      · exact .inr rfl
      · exact .inl rfl
      · exact .inl rfl
      · exact .inl rfl
      · exact .inl rfl
      · split <;> exact .inl rfl
      · split <;> exact .inl rfl
      · exact .inl rfl
  | _ => exact .inl rfl

/-- A step that joins a worker has found it at its end. -/
theorem joined_step (s : DBManager α) (e : Event α) (h : (s.step e).main.Joined l) :
    s.main.Joined l ∨ (s.queues l).worker = .done := by
  cases e with
  | tryLock m =>
      simp only [step, tryLock] at h
      split at h <;> exact .inl h
  | backOff m =>
      simp only [step, backOff] at h
      split at h <;> exact .inl h
  | shutdown =>
      simp only [step, shutdown] at h
      split at h
      · exact h.elim
      · split at h
        · exact h.elim
        · exact .inl h
      · exact h.elim
      · exact h.elim
      · exact h.elim
      · exact h.elim
      · exact h.elim
      · split at h
        · next hdone =>
            cases l with
            | login => exact .inr hdone
            | save => exact h.elim
        · exact .inl h
      · next hmain =>
          split at h
          · next hdone =>
              cases l with
              | login =>
                  rw [hmain]
                  exact .inl trivial
              | save => exact .inr hdone
          · exact .inl h
      · exact .inl h
  | _ => exact .inl h

/-- What holds in every run: the account of each queue, and that the workers that
`Shutdown` has joined have returned. -/
structure Ordered (s : DBManager α) : Prop where
  sound : ∀ l, Sound s.running (s.queues l)
  joined : ∀ l, s.main.Joined l → (s.queues l).worker = .done

theorem ordered_step (s : DBManager α) (e : Event α) (h : Ordered s) : Ordered (s.step e) where
  sound := by
    intro l
    have hs := (h.sound l).change (change_step s e l)
    rcases running_step s e with hsame | hdown
    · rw [hsame]
      exact hs
    · rw [hdown]
      exact hs.clear
  joined := by
    intro l hl
    rcases joined_step s e hl with hold | hdone
    · exact (change_step s e l).done (h.joined l hold)
    · exact (change_step s e l).done hdone

theorem ordered_init : Ordered (init : DBManager α) where
  sound := fun _ => ⟨rfl, rfl, trivial⟩
  joined := fun _ h => h.elim

theorem ordered_run (es : List (Event α)) : Ordered (run step (init : DBManager α) es) :=
  invariant (fun s e h _ => ordered_step s e h) ordered_init along_true

/-- While the flag is up no worker is over. -/
theorem Ordered.drained (h : Ordered s) (hup : s.running = true) :
    ∀ l, Drained (s.queues l).pushed (s.queues l) := by
  intro l
  refine ⟨List.prefix_refl _, fun hover => ?_⟩
  have hdown := (h.sound l).fits.over hover
  exact absurd (hup.symm.trans hdown) (by simp)

theorem drained_run (es : List (Event α)) (h : Ordered s)
    (hd : ∀ l, Drained (before l) (s.queues l)) (l : Lane) :
    Drained (before l) ((run step s es).queues l) := by
  have hI : ∀ s (e : Event α), Ordered s ∧ (∀ l, Drained (before l) (s.queues l)) → True →
      Ordered (step s e) ∧ ∀ l, Drained (before l) ((step s e).queues l) := by
    intro s e hs _
    exact ⟨ordered_step s e hs.1,
      fun l => (hs.2 l).change (hs.1.sound l) (change_step s e l)⟩
  exact (invariant hI ⟨h, hd⟩ along_true).2 l

/-- **Tasks run in order, at most once, and before `Shutdown` returns.** In every
run the tasks called so far, the one in the worker's hands and those in the queue
are, in this order, all that were pushed, and the calls that have ended are the
first of those that began; the worker never takes the front of an empty queue. And
what had been pushed at a time when `m_running` was true is executed when
`Shutdown` has returned. -/
theorem tasks_inOrder (es : List (Event α)) (l : Lane) :
    let s := run step (init : DBManager α) es
    ((∃ hand : List α, hand.length ≤ 1 ∧
        (s.queues l).executed ++ hand ++ (s.queues l).queue = (s.queues l).pushed) ∧
      (s.queues l).finished <+: (s.queues l).executed ∧ (s.queues l).worker ≠ .undefined) ∧
    (s.running = true → ∀ later : List (Event α),
      let s' := run step s later
      s'.main = .returned →
        (s.queues l).pushed <+: (s'.queues l).finished ∧ (s'.queues l).worker = .done) := by
  have h := ordered_run (α := α) es
  generalize run step (init : DBManager α) es = s at h
  obtain ⟨hpushed, hexecuted, hfits⟩ := h.sound l
  refine ⟨⟨⟨_, ?_, hpushed⟩, ?_, ?_⟩, ?_⟩
  · cases (s.queues l).worker <;> simp [WorkerPc.inHand]
  · exact ⟨_, hexecuted⟩
  · intro hundefined
    rw [hundefined] at hfits
    exact hfits
  · intro hup later
    dsimp only
    intro hreturned
    -- `Shutdown` has joined both workers, and a joined worker has left its loop
    have hdone : ((run step s later).queues l).worker = .done := by
      apply (invariant (fun s e h _ => ordered_step s e h) h along_true).joined l
      rw [hreturned]
      exact trivial
    refine ⟨?_, hdone⟩
    have hdrained := drained_run later h (h.drained hup) l
    exact hdrained.finished (by rw [hdone]; trivial)

/-- A call posts a task, which throws, and `Shutdown` begins while it runs. -/
def throwsFirst : List (Event ℕ) :=
  [.post .login 7, .acquire .login 0, .poster .login, .poster .login, .worker .login,
    .worker .login, .worker .login, .worker .login, .worker .login, .worker .login]

def shutsDown : List (Event ℕ) :=
  [.shutdown, .tryLock .save, .tryLock .login, .shutdown, .shutdown, .returns .login true,
    .notifyOne .login, .worker .login, .shutdown, .shutdown, .shutdown, .shutdown] ++
  (List.replicate 6 (.worker .login) ++ List.replicate 6 (.worker .save)) ++ [.shutdown, .shutdown]

theorem tasks_inOrder_throws :
    [7] <+: ((run step (run step init throwsFirst) shutsDown).queues .login).finished ∧
      ((run step (run step init throwsFirst) shutsDown).queues .login).worker = .done :=
  (tasks_inOrder throwsFirst .login).2 rfl shutsDown rfl

end DBManager

end Mmorpg
