/-
The objects that carry timers: each handler sees its own event. And the fate of every
timer: none is lost but to a port that does not take it.

The address of an object is with the timer thread, in the port, with a worker, or
with nobody for ever, and the pool tracks exactly these: so the thread writes only
into an object that nobody reads, and what a worker reads is what was written for
its own completion (`Carried`). How many objects are out does not matter, nor which of
them came from the heap.
-/
import SimplestMmorpg.Timer.TimerQueue

set_option autoImplicit false

namespace Mmorpg.Timer

/-- The object that the thread is writing. -/
def ThreadPc.holding : ThreadPc → List ℕ
  | .setIoType _ tov => [tov]
  | .setType _ tov => [tov]
  | .setTarget _ tov => [tov]
  | .post _ tov => [tov]
  | _ => []

/-- What it has written so far. -/
def ThreadPc.Written (memory : ℕ → TimerOverlapped) : ThreadPc → Prop
  | .setType _ tov => (memory tov).isTimer = true
  | .setTarget next tov => (memory tov).isTimer = true ∧ (memory tov).type = next.type
  | .post next tov => memory tov = next.overlapped
  | _ => True

/-- What a worker has read so far belongs to its event. -/
def HandlerPc.Read (ev : TimerEvent) : HandlerPc → Prop
  | .readTarget type => type = ev.type
  | .handle type targetId => type = ev.type ∧ targetId = ev.targetId
  | .other => False
  | _ => True

namespace TimerManager

open Transition

variable {s s' : TimerManager} {c : Choice} {e : Event} {tov : ℕ}

/-- The objects in use: with the thread, in the port, with a worker. -/
def outstanding (s : TimerManager) : List ℕ :=
  s.thread.holding ++ s.port.map Prod.fst ++ s.handlers.map Handler.tov

/-- The pool tracks the objects that are in use and those that nobody will release; and
what stands in an object is the event it is used for. -/
structure Carried (s : TimerManager) : Prop where
  tracks : s.pool.Tracks (s.outstanding ++ s.lost)
  thread : s.thread.Written s.memory
  port : ∀ x ∈ s.port, s.memory x.1 = x.2.overlapped
  handlers : ∀ h ∈ s.handlers, s.memory h.tov = h.ev.overlapped ∧ h.pc.Read h.ev

namespace Carried

/-- What has nothing to do with the objects. -/
theorem congr (h : Carried s) (hpool : s'.pool = s.pool) (hmemory : s'.memory = s.memory)
    (hport : s'.port = s.port) (hhandlers : s'.handlers = s.handlers) (hlost : s'.lost = s.lost)
    (hholding : s'.thread.holding = s.thread.holding)
    (hwritten : s'.thread.Written s.memory) : Carried s' where
  tracks := by
    rw [hpool, outstanding, hholding, hport, hhandlers, hlost]
    exact h.tracks
  thread := by rw [hmemory]; exact hwritten
  port := by rw [hport, hmemory]; exact h.port
  handlers := by rw [hhandlers, hmemory]; exact h.handlers

/-- The thread goes on without an object. -/
theorem goes (h : Carried s) {pc : ThreadPc} (hfree : s.thread.holding = [])
    (hholding : pc.holding = []) (hwritten : pc.Written s.memory) :
    Carried { s with thread := pc } :=
  h.congr rfl rfl rfl rfl rfl (by rw [hfree]; exact hholding) hwritten

/-- What is in the port and with the workers does not change with other objects. -/
theorem elsewhere (h : Carried s) {memory : ℕ → TimerOverlapped}
    (hsame : ∀ t, t ∈ s.port.map Prod.fst ++ s.handlers.map Handler.tov → memory t = s.memory t) :
    (∀ x ∈ s.port, memory x.1 = x.2.overlapped) ∧
      ∀ r ∈ s.handlers, memory r.tov = r.ev.overlapped ∧ r.pc.Read r.ev := by
  refine ⟨fun x hx => ?_, fun r hr => ?_⟩
  · rw [hsame x.1 (List.mem_append.mpr (.inl (List.mem_map_of_mem hx)))]
    exact h.port x hx
  · rw [hsame r.tov (List.mem_append.mpr (.inr (List.mem_map_of_mem hr)))]
    exact h.handlers r hr

/-! ## The thread -/

/-- It writes into its own object, and nobody else sees it. -/
theorem write (h : Carried s) (hold : s.thread.holding = [tov])
    {f : TimerOverlapped → TimerOverlapped} {pc : ThreadPc} (hholding : pc.holding = [tov])
    (hwritten : pc.Written (Function.update s.memory tov (f (s.memory tov)))) :
    Carried { s.setMemory tov f with thread := pc } := by
  have htracks := h.tracks
  rw [outstanding, hold] at htracks
  -- the pool hands out no object twice, so the thread's own is no other's
  have hnotMem := (List.nodup_cons.mp htracks.nodup_held).1
  have hmemory : ∀ t, t ∈ s.port.map Prod.fst ++ s.handlers.map Handler.tov →
      Function.update s.memory tov (f (s.memory tov)) t = s.memory t := by
    intro t ht
    refine Function.update_of_ne ?_ _ _
    rintro rfl
    exact hnotMem (List.mem_append.mpr (.inl ht))
  obtain ⟨hport, hhandlers⟩ := h.elsewhere hmemory
  refine ⟨?_, hwritten, hport, hhandlers⟩
  rw [outstanding, hholding]
  exact htracks

/-- It gets an object that nobody has. -/
theorem acquire (h : Carried s) (hfree : s.thread.holding = []) (next : TimerEvent) (c : Choice) :
    Carried (s.acquire next c) := by
  unfold TimerManager.acquire
  split
  · exact h
  · next tov pool hacquire =>
      obtain ⟨hnew, htracks⟩ := h.tracks.acquire hacquire
      -- `new` writes zeros, into an object that nobody uses
      have hmemory : ∀ t, t ∈ s.port.map Prod.fst ++ s.handlers.map Handler.tov →
          (if s.pool.free.isEmpty then Function.update s.memory tov .zero else s.memory) t =
            s.memory t := by
        intro t ht
        have hne : t ≠ tov := by
          rintro rfl
          refine hnew (List.mem_append.mpr (.inl ?_))
          rw [outstanding, hfree]
          exact ht
        split
        · exact Function.update_of_ne hne _ _
        · rfl
      obtain ⟨hport, hhandlers⟩ := h.elsewhere hmemory
      refine ⟨?_, trivial, hport, hhandlers⟩
      rw [outstanding, hfree] at htracks
      exact htracks

/-- The object goes to the port with what is written in it, or is lost. -/
theorem postQcs (h : Carried s) {next : TimerEvent} (hpc : s.thread = .post next tov) (c : Choice) :
    Carried (s.postQcs next tov c) := by
  have htracks := h.tracks
  have hwritten := h.thread
  rw [outstanding, hpc] at htracks
  rw [hpc] at hwritten
  unfold TimerManager.postQcs
  split
  · refine ⟨htracks.perm ?_, trivial, ?_, h.handlers⟩
    · rw [List.perm_iff_count]
      intro a
      simp only [outstanding, ThreadPc.holding, List.count_append, List.map_append, List.map_cons,
        List.map_nil, List.count_nil]
      omega
    · intro x hx
      rcases List.mem_append.mp hx with hx | hx
      · exact h.port x hx
      · rw [List.mem_singleton.mp hx]
        exact hwritten
  · refine ⟨htracks.perm ?_, trivial, h.port, h.handlers⟩
    rw [List.perm_iff_count]
    intro a
    simp only [outstanding, ThreadPc.holding, List.count_append, List.count_nil]
    omega

theorem wake (h : Carried s) : Carried s.wake := by
  unfold TimerManager.wake
  split
  · next hpc => exact h.goes (by rw [hpc]; rfl) rfl trivial
  · next hpc => exact h.goes (by rw [hpc]; rfl) rfl trivial
  · exact h

theorem lockThread (h : Carried s) {pc : ThreadPc} (hfree : s.thread.holding = [])
    (hholding : pc.holding = []) (hwritten : pc.Written s.memory) : Carried (s.lockThread pc) := by
  unfold TimerManager.lockThread
  split
  · have hgo := h.goes hfree hholding hwritten
    exact hgo.congr rfl rfl rfl rfl rfl rfl hwritten
  · exact h

/-! ## The workers -/

theorem take (h : Carried s) (k : ℕ) : Carried (s.take k) := by
  unfold TimerManager.take
  split
  · exact h
  · next tov ev hk =>
      have hport := perm_eraseIdx hk
      refine ⟨h.tracks.perm ?_, h.thread, ?_, ?_⟩
      · have hobjects := hport.map Prod.fst
        rw [List.perm_iff_count] at hobjects ⊢
        intro a
        have hmoved := hobjects a
        simp only [outstanding, List.count_append, List.map_append, List.map_cons, List.map_nil,
          List.count_cons, List.count_nil] at hmoved ⊢
        omega
      · exact fun x hx => h.port x (mem_of_mem_eraseIdx hx)
      · intro r hr
        rcases List.mem_append.mp hr with hr | hr
        · exact h.handlers r hr
        · rw [List.mem_singleton.mp hr]
          exact ⟨h.port (tov, ev) (List.mem_of_getElem? hk), trivial⟩

/-- A worker has read a field. -/
theorem reads (h : Carried s) {i : ℕ} {r : Handler} (hr : s.handlers[i]? = some r) {pc : HandlerPc}
    (hread : pc.Read r.ev) : Carried { s with handlers := s.handlers.set i { r with pc := pc } } := by
  refine ⟨?_, h.thread, h.port, ?_⟩
  · have hobjects : (s.handlers.set i { r with pc := pc }).map Handler.tov =
        s.handlers.map Handler.tov := map_set_handlers hr rfl
    rw [outstanding, hobjects]
    exact h.tracks
  · intro q hq
    rcases List.mem_or_eq_of_mem_set hq with hq | rfl
    · exact h.handlers q hq
    · exact ⟨(h.handlers r (List.mem_of_getElem? hr)).1, hread⟩

/-- A worker is through: its object is released, or lost. -/
theorem finish (h : Carried s) {i : ℕ} {r : Handler} (hr : s.handlers[i]? = some r) :
    Carried { s.finishHandler i r with pool := s.pool.release r.tov } ∧
      Carried { s.finishHandler i r with lost := s.lost ++ [r.tov] } := by
  have hhandlers := perm_eraseIdx hr
  have hheld : (r.tov :: (s.thread.holding ++ s.port.map Prod.fst ++
      (s.handlers.eraseIdx i).map Handler.tov ++ s.lost)).Perm (s.outstanding ++ s.lost) := by
    have hobjects := hhandlers.map Handler.tov
    rw [List.perm_iff_count] at hobjects ⊢
    intro a
    have hmoved := hobjects a
    simp only [outstanding, List.count_append, List.map_cons, List.count_cons] at hmoved ⊢
    omega
  have hrest : ∀ q ∈ s.handlers.eraseIdx i, s.memory q.tov = q.ev.overlapped ∧ q.pc.Read q.ev :=
    fun q hq => h.handlers q (mem_of_mem_eraseIdx hq)
  refine ⟨⟨?_, h.thread, h.port, hrest⟩, ⟨?_, h.thread, h.port, hrest⟩⟩
  · exact (h.tracks.perm hheld).release
  · refine h.tracks.perm (.trans ?_ hheld)
    rw [← List.append_assoc]
    exact List.perm_append_singleton _ _

theorem turn (h : Carried s) (c : Choice) : Carried (s.turn c) := by
  have hwritten := h.thread
  unfold TimerManager.turn
  cases hpc : s.thread with
  | lock => exact h.lockThread (by rw [hpc]; rfl) rfl trivial
  | relock => exact h.lockThread (by rw [hpc]; rfl) rfl trivial
  | relockUntil => exact h.lockThread (by rw [hpc]; rfl) rfl trivial
  | loop =>
      dsimp only
      split <;> exact h.goes (by rw [hpc]; rfl) rfl trivial
  | empty =>
      dsimp only
      split <;> exact h.goes (by rw [hpc]; rfl) rfl trivial
  | predQueue =>
      dsimp only
      split <;> exact h.goes (by rw [hpc]; rfl) rfl trivial
  | predRunning =>
      dsimp only
      split
      · exact h.congr rfl rfl rfl rfl rfl (by rw [hpc]; rfl) trivial
      · exact h.goes (by rw [hpc]; rfl) rfl trivial
  | waiting => exact h
  | testRunning =>
      dsimp only
      split <;> exact h.goes (by rw [hpc]; rfl) rfl trivial
  | top =>
      dsimp only
      split
      · exact h.goes (by rw [hpc]; rfl) rfl trivial
      · split
        · exact h
        · split
          · exact h.goes (by rw [hpc]; rfl) rfl trivial
          · exact h
  | readClock next =>
      dsimp only
      split
      · exact h.congr rfl rfl rfl rfl rfl (by rw [hpc]; rfl) trivial
      · exact h.goes (by rw [hpc]; rfl) rfl trivial
  | waitUntil next =>
      dsimp only
      split
      · exact h.goes (by rw [hpc]; rfl) rfl trivial
      · exact h
  | leaveTurn => exact h.congr rfl rfl rfl rfl rfl (by rw [hpc]; rfl) trivial
  | pop next => exact h.congr rfl rfl rfl rfl rfl (by rw [hpc]; rfl) trivial
  | unlock next => exact h.congr rfl rfl rfl rfl rfl (by rw [hpc]; rfl) trivial
  | acquire next => exact h.acquire (by rw [hpc]; rfl) next c
  | setIoType next tov =>
      refine h.write (by rw [hpc]; rfl) rfl ?_
      show (Function.update s.memory tov _ tov).isTimer = true
      rw [Function.update_self]
  | setType next tov =>
      rw [hpc] at hwritten
      refine h.write (by rw [hpc]; rfl) rfl ?_
      show (Function.update s.memory tov _ tov).isTimer = true ∧
        (Function.update s.memory tov _ tov).type = next.type
      rw [Function.update_self]
      exact ⟨hwritten, rfl⟩
  | setTarget next tov =>
      rw [hpc] at hwritten
      refine h.write (by rw [hpc]; rfl) rfl ?_
      show Function.update s.memory tov _ tov = next.overlapped
      rw [Function.update_self, TimerEvent.overlapped, ← hwritten.2, ← hwritten.1]
  | post next tov => exact h.postQcs hpc c
  | leave => exact h.congr rfl rfl rfl rfl rfl (by rw [hpc]; rfl) trivial
  | done => exact h
  | undefined => exact h

theorem handle (h : Carried s) (i : ℕ) (threw : Bool) : Carried (s.handle i threw) := by
  unfold TimerManager.handle
  split
  · exact h
  · next r hr =>
      obtain ⟨hmem, hread⟩ := h.handlers r (List.mem_of_getElem? hr)
      dsimp only
      split
      · rw [hmem]
        exact h.reads hr trivial
      · rw [hmem]
        exact h.reads hr rfl
      · next type hpc =>
          rw [hpc] at hread
          rw [hmem]
          exact h.reads hr ⟨hread, rfl⟩
      · split
        · exact (h.finish hr).2
        · exact h.reads hr trivial
      · exact (h.finish hr).1
      · exact h

end Carried

/-! ## Every step -/

theorem carried_step (s : TimerManager) (e : Event) (h : Carried s) : Carried (s.step e) := by
  have hsame : ∀ {t : TimerManager}, t.pool = s.pool → t.memory = s.memory → t.port = s.port →
      t.handlers = s.handlers → t.lost = s.lost → t.thread = s.thread → Carried t := by
    intro t h1 h2 h3 h4 h5 h6
    exact h.congr h1 h2 h3 h4 h5 (by rw [h6]) (by rw [h6]; exact h.thread)
  cases e with
  | tick d => exact hsame rfl rfl rfl rfl rfl rfl
  | addTimer type targetId delayMs => exact hsame rfl rfl rfl rfl rfl rfl
  | lockAdder k =>
      simp only [step, lockAdder]
      split <;> exact hsame rfl rfl rfl rfl rfl rfl
  | adder =>
      simp only [step, adder]
      split <;> exact hsame rfl rfl rfl rfl rfl rfl
  | notifyOne =>
      simp only [step, notifyOne]
      split
      · exact h
      · have hless : Carried { s with notifiers := s.notifiers - 1 } :=
          hsame rfl rfl rfl rfl rfl rfl
        exact hless.wake
  | spurious => exact h.wake
  | stop => exact hsame rfl rfl rfl rfl rfl rfl
  | thread c => exact h.turn c
  | take k => exact h.take k
  | handle i threw => exact h.handle i threw

theorem carried_init (start : ℕ) : Carried (init start) where
  tracks := ObjectPool.tracks_init start 65536
  thread := trivial
  port := List.forall_mem_nil _
  handlers := List.forall_mem_nil _

theorem queued_carried_run (start : ℕ) (es : List Event) :
    Queued (run step (init start) es) ∧ Carried (run step (init start) es) :=
  invariant (fun s e (h : Queued s ∧ Carried s) _ => ⟨queued_step s e h.1, carried_step s e h.2⟩)
    ⟨queued_init start, carried_init start⟩ along_true

/-! ## What the port does not take -/

/-- `PostQueuedCompletionStatus` succeeds, if the step calls it. -/
def PortTakes (s : TimerManager) (e : Event) : Prop :=
  ∀ c next tov, e = .thread c → s.thread = .post next tov → c.ok = true

theorem refused_wake (s : TimerManager) : s.wake.refused = s.refused := by
  unfold wake
  split <;> rfl

theorem refused_lockThread (s : TimerManager) (pc : ThreadPc) :
    (s.lockThread pc).refused = s.refused := by
  unfold lockThread
  split <;> rfl

theorem refused_turn (hno : ∀ next tov, s.thread ≠ .post next tov) :
    (s.turn c).refused = s.refused := by
  unfold turn
  cases hpc : s.thread with
  | post next tov => exact absurd hpc (hno next tov)
  | lock => exact refused_lockThread s _
  | relock => exact refused_lockThread s _
  | relockUntil => exact refused_lockThread s _
  | predRunning =>
      dsimp only
      split <;> rfl
  | top =>
      dsimp only
      split
      · rfl
      · split
        · rfl
        · split <;> rfl
  | readClock next =>
      dsimp only
      split <;> rfl
  | waitUntil next =>
      dsimp only
      split <;> rfl
  | acquire next =>
      dsimp only
      unfold acquire
      split <;> rfl
  | _ => rfl

/-- No other step loses an event. -/
theorem refused_step (htakes : s.PortTakes e) : (s.step e).refused = s.refused := by
  cases e with
  | lockAdder k =>
      simp only [step, lockAdder]
      split <;> rfl
  | adder =>
      simp only [step, adder]
      split <;> rfl
  | notifyOne =>
      simp only [step, notifyOne]
      split
      · rfl
      · exact refused_wake _
  | spurious => exact refused_wake s
  | thread c =>
      by_cases hpost : ∃ next tov, s.thread = .post next tov
      · obtain ⟨next, tov, hpc⟩ := hpost
        simp only [step, turn, hpc, postQcs]
        rw [if_pos (htakes c next tov rfl hpc)]
      · exact refused_turn fun next tov hpc => hpost ⟨next, tov, hpc⟩
  | take k =>
      simp only [step, take]
      split <;> rfl
  | handle i threw =>
      simp only [step, handle]
      split
      · rfl
      · split <;> first | rfl | (split <;> rfl)
  | _ => rfl

/-- An event that the port does not take is lost. -/
theorem refused_of_not_takes (hno : ¬ s.PortTakes e) :
    ∃ next, (s.step e).refused = s.refused ++ [next] := by
  unfold PortTakes at hno
  push Not at hno
  obtain ⟨c, next, tov, rfl, hpc, hok⟩ := hno
  refine ⟨next, ?_⟩
  simp only [step, turn, hpc, postQcs]
  rw [if_neg hok]

/-- **Nothing was lost in a run if and only if the port took all it was given.** -/
theorem refused_run (s : TimerManager) (es : List Event) :
    (run step s es).refused = [] ↔ s.refused = [] ∧ Along step PortTakes s es := by
  induction es generalizing s with
  | nil => exact ⟨fun h => ⟨h, trivial⟩, fun h => h.1⟩
  | cons e es ih =>
      rw [run_cons, ih]
      by_cases htakes : s.PortTakes e
      · rw [refused_step htakes]
        exact ⟨fun h => ⟨h.1, htakes, h.2⟩, fun h => ⟨h.1, h.2.2⟩⟩
      · obtain ⟨next, hlost⟩ := refused_of_not_takes htakes
        rw [hlost]
        exact ⟨fun h => absurd h.1 (by simp), fun h => absurd h.2.1 htakes⟩

/-! ## Runs -/

/-- An event is taken from the queue when its time has come and none in the queue is
earlier, and nothing else leaves the queue. -/
structure Timely (s : TimerManager) : Prop where
  due : ∀ e ev, s.takes e = some ev → ev ∈ s.queue ∧ ev.fireTime ≤ s.clock ∧
    (∀ ev' ∈ s.queue, ev.fireTime ≤ ev'.fireTime) ∧ (s.step e).queue = s.queue.erase ev
  stays : ∀ e, s.takes e = none → s.queue <+: (s.step e).queue
  defined : s.thread ≠ .undefined

/-- No object is in use twice, and what a handler is called with is the type and the
target of its own event. -/
structure Sealed (s : TimerManager) : Prop where
  nodup : s.outstanding.Nodup
  own : ∀ h ∈ s.handlers, h.pc ≠ .other ∧ ∀ type targetId, h.pc = .handle type targetId →
    type = h.ev.type ∧ targetId = h.ev.targetId

/-- Every event `AddTimer` was called with is with its call, in the queue, in the hands
of the thread, in the port, with a worker, or handled, and as often as it was added. -/
structure Exact (s : TimerManager) : Prop where
  kept : s.called.Perm (s.adding ++ s.queue ++ s.thread.inHand ++ s.posted)
  timely : Timely s
  own : Sealed s

theorem Queued.timely (h : Queued s) : Timely s where
  due e ev ht := by
    obtain ⟨⟨hmem, hleast⟩, hdue, herase⟩ := h.takes ht
    exact ⟨hmem, hdue, hleast, herase⟩
  stays e ht := queue_step ht
  defined hundefined := by
    have hknows := h.knows
    rw [hundefined] at hknows
    exact hknows

theorem Carried.own (h : Carried s) : Sealed s where
  nodup := (List.nodup_append.mp h.tracks.nodup_held).1
  own r hr := by
    obtain ⟨-, hread⟩ := h.handlers r hr
    refine ⟨fun hother => ?_, fun type targetId hpc => ?_⟩
    · rw [hother] at hread
      exact hread
    · rw [hpc] at hread
      exact hread

/-- **Timers are neither early nor overwritten in any run, and neither lost nor doubled
if and only if the port takes every completion it is given.** -/
theorem timers_exact (start : ℕ) (es : List Event) :
    Exact (run step (init start) es) ↔ Along step PortTakes (init start) es := by
  obtain ⟨hq, hc⟩ := queued_carried_run start es
  have hlost := refused_run (init start) es
  generalize run step (init start) es = s at hq hc hlost
  have hcalled := hq.called
  constructor
  · intro hexact
    -- the same events are there with and without those that were refused
    have hlength := (hexact.kept.symm.trans hcalled).length_eq
    simp only [List.length_append] at hlength
    exact (hlost.mp (List.length_eq_zero_iff.mp (by omega))).2
  · intro htakes
    rw [hlost.mpr ⟨rfl, htakes⟩, List.append_nil] at hcalled
    exact ⟨hcalled, hq.timely, hc.own⟩

/-- One timer that is due at once; the port has no room for its completion. -/
def refusedPost : List Event :=
  [.addTimer .hpRegen 7 0, .lockAdder 0, .adder, .adder] ++
    List.replicate 12 (.thread ⟨0, 0, false⟩)

/-- The event is nowhere. -/
theorem not_always_timers_exact : ¬ ∀ start es, Exact (run step (init start) es) := by
  intro hall
  have hlength := (hall 0 refusedPost).kept.length_eq
  have hcalled : (run step (init 0) refusedPost).called.length = 1 := by decide +kernel
  have hkept : ((run step (init 0) refusedPost).adding ++ (run step (init 0) refusedPost).queue ++
      (run step (init 0) refusedPost).thread.inHand ++
        (run step (init 0) refusedPost).posted).length = 0 := by decide +kernel
  omega

end TimerManager

end Mmorpg.Timer
