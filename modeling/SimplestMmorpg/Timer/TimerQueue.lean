/-
The queue of timers: no event is taken twice or early, and none is lost before it is
posted.

Between `top` and `pop` the thread keeps the mutex, so what it pops is what it has
compared with the clock, and nothing earlier has come in (`Queued`). That it waits
with an event in mind and another one arrives does no harm: after a wait it starts
its turn again.
-/
import SimplestMmorpg.Timer.TimerManager

set_option autoImplicit false

namespace Mmorpg.Timer

/-- The thread is inside its scope, and does not wait. -/
def ThreadPc.Holds : ThreadPc → Prop
  | .empty => True
  | .predQueue => True
  | .predRunning => True
  | .testRunning => True
  | .top => True
  | .readClock _ => True
  | .leaveTurn => True
  | .pop _ => True
  | .unlock _ => True
  | .leave => True
  | .undefined => True
  | _ => False

/-- The event that the thread has popped and not yet posted. -/
def ThreadPc.inHand : ThreadPc → List TimerEvent
  | .unlock next => [next]
  | .acquire next => [next]
  | .setIoType next _ => [next]
  | .setType next _ => [next]
  | .setTarget next _ => [next]
  | .post next _ => [next]
  | _ => []

/-- In the queue, and no event there is earlier. -/
def Earliest (queue : List TimerEvent) (ev : TimerEvent) : Prop :=
  ev ∈ queue ∧ ∀ ev' ∈ queue, ev.fireTime ≤ ev'.fireTime

/-- What the thread knows of the queue, the flag and the clock. -/
def ThreadPc.Knows (queue : List TimerEvent) (running : Bool) (clock : Int) : ThreadPc → Prop
  | .testRunning => queue ≠ [] ∨ running = false
  | .top => queue ≠ []
  | .readClock next => Earliest queue next
  | .pop next => Earliest queue next ∧ next.fireTime ≤ clock
  | .undefined => False
  | _ => True

/-- What it knows stays true while the clock goes on and when the flag goes down. -/
theorem ThreadPc.Knows.mono {pc : ThreadPc} {queue : List TimerEvent} {running running' : Bool}
    {clock clock' : Int} (h : pc.Knows queue running clock)
    (hflag : running = false → running' = false) (hclock : clock ≤ clock') :
    pc.Knows queue running' clock' := by
  cases pc with
  | testRunning => exact Or.imp_right hflag h
  | pop next => exact ⟨h.1, h.2.trans hclock⟩
  | _ => exact h

/-- Outside of its scope it knows nothing that could become false. -/
theorem ThreadPc.knows_of_out {pc : ThreadPc} (h : ¬ pc.Holds) (queue : List TimerEvent)
    (running : Bool) (clock : Int) : pc.Knows queue running clock := by
  cases pc with
  | testRunning => exact absurd trivial h
  | top => exact absurd trivial h
  | readClock next => exact absurd trivial h
  | pop next => exact absurd trivial h
  | undefined => exact absurd trivial h
  | _ => trivial

namespace TimerManager

open Transition

variable {s s' : TimerManager} {c : Choice} {e : Event} {ev : TimerEvent}

/-- The events of the calls of `AddTimer` that have not pushed yet. -/
def adding (s : TimerManager) : List TimerEvent := s.callers ++ s.mutex.elim [] Holder.inHand

/-- The events that are in the port, with a worker, or handled. -/
def posted (s : TimerManager) : List TimerEvent :=
  s.port.map Prod.snd ++ s.handlers.map Handler.ev ++ s.handled

/-- The thread has the mutex where it should, what it knows is true, and every event
`AddTimer` was called with is with its call, in the queue, in the hands of the thread,
posted, or lost to a port that did not take it. -/
structure Queued (s : TimerManager) : Prop where
  holds : s.thread.Holds ↔ s.mutex = some .thread
  knows : s.thread.Knows s.queue s.running s.clock
  called : s.called.Perm (s.adding ++ s.queue ++ s.thread.inHand ++ s.posted ++ s.refused)

/-! ## The completions -/

/-- What a worker has of its completion does not change while it reads. -/
theorem map_set_handlers {β : Type} {f : Handler → β} {i : ℕ} {r r' : Handler}
    (hr : s.handlers[i]? = some r) (hf : f r' = f r) :
    (s.handlers.set i r').map f = s.handlers.map f := by
  rw [List.map_set, hf]
  apply List.ext_getElem?
  intro j
  rw [List.getElem?_set]
  split
  · next hij =>
      subst hij
      rw [List.getElem?_map, hr, Option.map_some, if_pos]
      rw [List.length_map]
      exact (List.getElem?_eq_some_iff.mp hr).1
  · rfl

/-- A completion that is taken goes from the port to a worker. -/
theorem posted_take (k : ℕ) : (s.take k).posted.Perm s.posted := by
  unfold take
  split
  · exact .refl _
  · next tov ev hk =>
      have hevents := (perm_eraseIdx hk).map Prod.snd
      rw [List.perm_iff_count] at hevents ⊢
      intro a
      have hmoved := hevents a
      simp only [posted, List.count_append, List.map_append, List.map_cons, List.map_nil,
        List.count_cons, List.count_nil] at hmoved ⊢
      omega

/-- One that is finished goes from the worker to the handled ones. -/
theorem posted_finishHandler {i : ℕ} {r : Handler} (hr : s.handlers[i]? = some r) :
    (s.finishHandler i r).posted.Perm s.posted := by
  have hevents := (perm_eraseIdx hr).map Handler.ev
  rw [List.perm_iff_count] at hevents ⊢
  intro a
  have hmoved := hevents a
  simp only [posted, finishHandler, List.count_append, List.map_cons, List.count_cons,
    List.count_nil] at hmoved ⊢
  omega

theorem posted_handle (i : ℕ) (threw : Bool) : (s.handle i threw).posted.Perm s.posted := by
  unfold handle
  split
  · exact .refl _
  · next r hr =>
      have hgoes : ∀ pc, ({ s with handlers := s.handlers.set i { r with pc := pc } }
          : TimerManager).posted = s.posted := by
        intro pc
        have hevents : (s.handlers.set i { r with pc := pc }).map Handler.ev =
            s.handlers.map Handler.ev := map_set_handlers hr rfl
        simp only [posted, hevents]
      dsimp only
      split
      · exact .of_eq (hgoes _)
      · exact .of_eq (hgoes _)
      · exact .of_eq (hgoes _)
      · split
        · exact posted_finishHandler hr
        · exact .of_eq (hgoes _)
      · exact posted_finishHandler hr
      · exact .refl _

namespace Queued

/-- What has nothing to do with the queue. -/
theorem congr (h : Queued s) (hclock : s'.clock = s.clock) (hrunning : s'.running = s.running)
    (hqueue : s'.queue = s.queue) (hmutex : s'.mutex = s.mutex) (hthread : s'.thread = s.thread)
    (hcallers : s'.callers = s.callers) (hcalled : s'.called = s.called)
    (hposted : s'.posted.Perm s.posted) (hrefused : s'.refused = s.refused) : Queued s' where
  holds := by rw [hthread, hmutex]; exact h.holds
  knows := by rw [hthread, hqueue, hrunning, hclock]; exact h.knows
  called := by
    rw [adding, hcallers, hmutex, hcalled, hqueue, hthread, hrefused]
    exact h.called.trans ((hposted.symm.append_left _).append_right _)

/-- The thread is elsewhere when somebody else has the mutex, or nobody. -/
theorem out (h : Queued s) (hm : s.mutex ≠ some .thread) : ¬ s.thread.Holds :=
  fun hholds => hm (h.holds.mp hholds)

/-- The mutex changes hands, and the thread goes on. -/
theorem moved (h : Queued s) {mutex : Option Holder} {pc : ThreadPc}
    (hholds : pc.Holds ↔ mutex = some .thread) (hknows : pc.Knows s.queue s.running s.clock)
    (hadding : mutex.elim [] Holder.inHand = s.mutex.elim [] Holder.inHand)
    (hhand : pc.inHand = s.thread.inHand) : Queued { s with mutex := mutex, thread := pc } := by
  refine ⟨hholds, hknows, ?_⟩
  rw [adding, hadding, hhand]
  exact h.called

/-! ## The others -/

theorem addTimer (h : Queued s) (type : TimerType) (targetId : ObjectID) (delayMs : Int) :
    Queued (s.addTimer type targetId delayMs) := by
  refine ⟨h.holds, h.knows, ?_⟩
  have hcalled := h.called
  rw [List.perm_iff_count] at hcalled ⊢
  intro a
  have hcount := hcalled a
  simp only [TimerManager.addTimer, adding, posted, List.count_append] at hcount ⊢
  omega

theorem lockAdder (h : Queued s) (k : ℕ) : Queued (s.lockAdder k) := by
  unfold TimerManager.lockAdder
  split
  · next ev hmutex hk =>
      have hout := h.out (by simp [hmutex])
      refine ⟨iff_of_false hout (by simp), h.knows, ?_⟩
      -- the event is still with its call
      have hcalled := h.called
      have hcallers := perm_eraseIdx hk
      rw [List.perm_iff_count] at hcalled hcallers ⊢
      intro a
      have hcount := hcalled a
      have hmoved := hcallers a
      simp only [adding, posted, hmutex, Option.elim, Holder.inHand, Option.toList,
        List.count_append, List.count_cons, List.count_nil] at hcount hmoved ⊢
      omega
  · exact h

theorem adder (h : Queued s) : Queued s.adder := by
  unfold TimerManager.adder
  split
  · next ev hmutex =>
      -- a push can make false only what the thread knows inside its scope
      have hout := h.out (by simp [hmutex])
      refine ⟨iff_of_false hout (by simp), ThreadPc.knows_of_out hout _ _ _, ?_⟩
      have hcalled := h.called
      rw [List.perm_iff_count] at hcalled ⊢
      intro a
      have hcount := hcalled a
      simp only [adding, posted, hmutex, Option.elim, Holder.inHand, Option.toList,
        List.count_append, List.count_nil] at hcount ⊢
      omega
  · next hmutex =>
      have hout := h.out (by simp [hmutex])
      have hfree : Queued { s with mutex := none, thread := s.thread } :=
        h.moved (iff_of_false hout (by simp)) h.knows (by rw [hmutex]; rfl) rfl
      exact hfree.congr rfl rfl rfl rfl rfl rfl rfl (.refl _) rfl
  · exact h

/-- A wake-up brings the thread to where it gets the mutex again. -/
theorem wake (h : Queued s) : Queued s.wake := by
  have hholds := h.holds
  unfold TimerManager.wake
  split
  · next hpc =>
      rw [hpc] at hholds
      have hrelock : ThreadPc.relock.Holds ↔ s.mutex = some .thread := hholds
      exact h.moved hrelock trivial rfl (by rw [hpc]; rfl)
  · next hpc =>
      rw [hpc] at hholds
      have hrelock : ThreadPc.relockUntil.Holds ↔ s.mutex = some .thread := hholds
      exact h.moved hrelock trivial rfl (by rw [hpc]; rfl)
  · exact h

theorem notifyOne (h : Queued s) : Queued s.notifyOne := by
  unfold TimerManager.notifyOne
  split
  · exact h
  · have hless : Queued { s with notifiers := s.notifiers - 1 } := ⟨h.holds, h.knows, h.called⟩
    exact hless.wake

/-! ## The thread -/

theorem lockThread (h : Queued s) {pc : ThreadPc} (hempty : s.thread.inHand = [])
    (hholds : pc.Holds) (hknows : pc.Knows s.queue s.running s.clock) (hhand : pc.inHand = []) :
    Queued (s.lockThread pc) := by
  unfold TimerManager.lockThread
  split
  · next hfree =>
      refine h.moved (iff_of_true hholds rfl) hknows ?_ (hhand.trans hempty.symm)
      rw [Option.isNone_iff_eq_none.mp hfree]
      rfl
  · exact h

/-- The thread gives the mutex back, with what it has in its hands. -/
theorem unlockThread (h : Queued s) {pc : ThreadPc} (hin : s.thread.Holds) (hout : ¬ pc.Holds)
    (hhand : pc.inHand = s.thread.inHand) : Queued { s with mutex := none, thread := pc } := by
  refine h.moved (iff_of_false hout (by simp)) (ThreadPc.knows_of_out hout _ _ _) ?_ hhand
  rw [h.holds.mp hin]
  rfl

/-- It goes on inside its scope. -/
theorem goesOn (h : Queued s) {pc : ThreadPc} (hin : s.thread.Holds) (hholds : pc.Holds)
    (hknows : pc.Knows s.queue s.running s.clock) (hhand : pc.inHand = s.thread.inHand) :
    Queued { s with thread := pc } :=
  h.moved (iff_of_true hholds (h.holds.mp hin)) hknows rfl hhand

/-- It goes on outside. -/
theorem goesOut (h : Queued s) {pc : ThreadPc} (hout : ¬ s.thread.Holds) (hout' : ¬ pc.Holds)
    (hhand : pc.inHand = s.thread.inHand) : Queued { s with thread := pc } :=
  h.moved (iff_of_false hout' fun hm => hout (h.holds.mpr hm)) (ThreadPc.knows_of_out hout' _ _ _)
    rfl hhand

/-- What it has in its hands goes to the port, or is lost. -/
theorem postQcs (h : Queued s) {next : TimerEvent} {tov : ℕ} (hpc : s.thread = .post next tov)
    (c : Choice) : Queued (s.postQcs next tov c) := by
  have hout : ¬ s.thread.Holds := by rw [hpc]; exact id
  have hmutex : s.mutex ≠ some .thread := fun hm => hout (h.holds.mpr hm)
  have hcalled := h.called
  rw [hpc] at hcalled
  unfold TimerManager.postQcs
  split
  · refine ⟨iff_of_false id hmutex, trivial, ?_⟩
    rw [List.perm_iff_count] at hcalled ⊢
    intro a
    have hcount := hcalled a
    simp only [adding, posted, ThreadPc.inHand, List.count_append, List.map_append, List.map_cons,
      List.map_nil, List.count_nil] at hcount ⊢
    omega
  · refine ⟨iff_of_false id hmutex, trivial, ?_⟩
    rw [List.perm_iff_count] at hcalled ⊢
    intro a
    have hcount := hcalled a
    simp only [adding, posted, ThreadPc.inHand, List.count_append, List.count_nil] at hcount ⊢
    omega

theorem turn (h : Queued s) (c : Choice) : Queued (s.turn c) := by
  have hknows := h.knows
  unfold TimerManager.turn
  cases hpc : s.thread with
  | loop =>
      dsimp only
      split <;> exact h.goesOut (by rw [hpc]; exact id) id (by rw [hpc]; rfl)
  | lock => exact h.lockThread (by rw [hpc]; rfl) trivial trivial rfl
  | empty =>
      dsimp only
      split
      · exact h.goesOn (by rw [hpc]; trivial) trivial trivial (by rw [hpc]; rfl)
      · next hne =>
          have hqueue : s.queue ≠ [] := by simpa using hne
          exact h.goesOn (by rw [hpc]; trivial) trivial hqueue (by rw [hpc]; rfl)
  | predQueue =>
      dsimp only
      split
      · exact h.goesOn (by rw [hpc]; trivial) trivial trivial (by rw [hpc]; rfl)
      · next hne =>
          have hqueue : s.queue ≠ [] := by simpa using hne
          exact h.goesOn (by rw [hpc]; trivial) trivial (.inl hqueue) (by rw [hpc]; rfl)
  | predRunning =>
      dsimp only
      split
      · exact h.unlockThread (by rw [hpc]; trivial) id (by rw [hpc]; rfl)
      · next hflag =>
          have hdown : s.running = false := by simpa using hflag
          exact h.goesOn (by rw [hpc]; trivial) trivial (.inr hdown) (by rw [hpc]; rfl)
  | waiting => exact h
  | relock => exact h.lockThread (by rw [hpc]; rfl) trivial trivial rfl
  | testRunning =>
      rw [hpc] at hknows
      dsimp only
      split
      · next hflag =>
          -- with the flag up the predicate has seen an event
          have hqueue : s.queue ≠ [] := by
            rcases hknows with hne | hdown
            · exact hne
            · exact absurd (hflag.symm.trans hdown) (by simp)
          exact h.goesOn (by rw [hpc]; trivial) trivial hqueue (by rw [hpc]; rfl)
      · exact h.goesOn (by rw [hpc]; trivial) trivial trivial (by rw [hpc]; rfl)
  | top =>
      rw [hpc] at hknows
      dsimp only
      split
      · next hnil => exact absurd (List.isEmpty_iff.mp hnil) hknows
      · split
        · exact h
        · next next hnext =>
            split
            · next hleast =>
                have hearliest : Earliest s.queue next := ⟨List.mem_of_getElem? hnext, hleast⟩
                exact h.goesOn (by rw [hpc]; trivial) trivial hearliest (by rw [hpc]; rfl)
            · exact h
  | readClock next =>
      rw [hpc] at hknows
      dsimp only
      split
      · exact h.unlockThread (by rw [hpc]; trivial) id (by rw [hpc]; rfl)
      · next hdue =>
          exact h.goesOn (by rw [hpc]; trivial) trivial ⟨hknows, by omega⟩ (by rw [hpc]; rfl)
  | waitUntil next =>
      dsimp only
      split
      · exact h.goesOut (by rw [hpc]; exact id) id (by rw [hpc]; rfl)
      · exact h
  | relockUntil => exact h.lockThread (by rw [hpc]; rfl) trivial trivial rfl
  | leaveTurn => exact h.unlockThread (by rw [hpc]; trivial) id (by rw [hpc]; rfl)
  | pop next =>
      -- the event goes from the queue to the hands
      rw [hpc] at hknows
      have hcalled := h.called
      have hout := List.perm_cons_erase hknows.1.1
      refine ⟨iff_of_true trivial (h.holds.mp (by rw [hpc]; trivial)), trivial, ?_⟩
      rw [List.perm_iff_count] at hcalled hout ⊢
      intro a
      have hcount := hcalled a
      have hmoved := hout a
      simp only [hpc, adding, posted, ThreadPc.inHand, List.count_append, List.count_cons,
        List.count_nil] at hcount hmoved ⊢
      omega
  | unlock next => exact h.unlockThread (by rw [hpc]; trivial) id (by rw [hpc]; rfl)
  | acquire next =>
      dsimp only
      unfold TimerManager.acquire
      split
      · exact h
      · next tov pool _ =>
          have hgo : Queued { s with thread := .setIoType next tov } :=
            h.goesOut (by rw [hpc]; exact id) id (by rw [hpc]; rfl)
          exact hgo.congr rfl rfl rfl rfl rfl rfl rfl (.refl _) rfl
  | setIoType next tov =>
      have hgo : Queued { s with thread := .setType next tov } :=
        h.goesOut (by rw [hpc]; exact id) id (by rw [hpc]; rfl)
      exact hgo.congr rfl rfl rfl rfl rfl rfl rfl (.refl _) rfl
  | setType next tov =>
      have hgo : Queued { s with thread := .setTarget next tov } :=
        h.goesOut (by rw [hpc]; exact id) id (by rw [hpc]; rfl)
      exact hgo.congr rfl rfl rfl rfl rfl rfl rfl (.refl _) rfl
  | setTarget next tov =>
      have hgo : Queued { s with thread := .post next tov } :=
        h.goesOut (by rw [hpc]; exact id) id (by rw [hpc]; rfl)
      exact hgo.congr rfl rfl rfl rfl rfl rfl rfl (.refl _) rfl
  | post next tov => exact h.postQcs hpc c
  | leave => exact h.unlockThread (by rw [hpc]; trivial) id (by rw [hpc]; rfl)
  | done => exact h
  | undefined => exact h

end Queued

/-! ## Every step -/

theorem queued_step (s : TimerManager) (e : Event) (h : Queued s) : Queued (s.step e) := by
  cases e with
  | tick d =>
      have hlater : s.clock ≤ s.clock + d := by omega
      exact ⟨h.holds, h.knows.mono id hlater, h.called⟩
  | addTimer type targetId delayMs => exact h.addTimer type targetId delayMs
  | lockAdder k => exact h.lockAdder k
  | adder => exact h.adder
  | notifyOne => exact h.notifyOne
  | spurious => exact h.wake
  | stop => exact ⟨h.holds, h.knows.mono (fun _ => rfl) (Int.le_refl _), h.called⟩
  | thread c => exact h.turn c
  | take k =>
      have hposted := s.posted_take k
      unfold take at hposted
      simp only [step, take]
      split at hposted
      · exact h
      · exact h.congr rfl rfl rfl rfl rfl rfl rfl hposted rfl
  | handle i threw =>
      have hposted := s.posted_handle i threw
      show Queued (s.handle i threw)
      generalize hv : s.handle i threw = v at hposted ⊢
      unfold handle at hv
      split at hv
      · exact hv ▸ h
      · dsimp only at hv
        split at hv
        · subst hv
          exact h.congr rfl rfl rfl rfl rfl rfl rfl hposted rfl
        · subst hv
          exact h.congr rfl rfl rfl rfl rfl rfl rfl hposted rfl
        · subst hv
          exact h.congr rfl rfl rfl rfl rfl rfl rfl hposted rfl
        · split at hv <;> subst hv <;> exact h.congr rfl rfl rfl rfl rfl rfl rfl hposted rfl
        · subst hv
          exact h.congr rfl rfl rfl rfl rfl rfl rfl hposted rfl
        · exact hv ▸ h

theorem queued_init (start : ℕ) : Queued (init start) where
  holds := iff_of_false id (by simp [init])
  knows := trivial
  called := .nil

/-- The event that a step takes from the queue. -/
def takes (s : TimerManager) : Event → Option TimerEvent
  | .thread _ =>
    match s.thread with
    | .pop next => some next
    | _ => none
  | _ => none

/-- **An event is taken when it is due, and it is the earliest one.** -/
theorem Queued.takes (h : Queued s) (ht : s.takes e = some ev) :
    Earliest s.queue ev ∧ ev.fireTime ≤ s.clock ∧ (s.step e).queue = s.queue.erase ev := by
  have hknows := h.knows
  cases e with
  | thread c =>
      simp only [TimerManager.takes] at ht
      split at ht
      · next next hpc =>
          obtain rfl := Option.some.inj ht
          rw [hpc] at hknows
          exact ⟨hknows.1, hknows.2, by simp only [step, TimerManager.turn, hpc]⟩
      · exact absurd ht (by simp)
  | _ => exact absurd ht (by simp [TimerManager.takes])

theorem queue_wake (s : TimerManager) : s.wake.queue = s.queue := by
  unfold wake
  split <;> rfl

theorem queue_lockThread (s : TimerManager) (pc : ThreadPc) :
    (s.lockThread pc).queue = s.queue := by
  unfold lockThread
  split <;> rfl

theorem queue_turn (hne : ∀ next, s.thread ≠ .pop next) : (s.turn c).queue = s.queue := by
  unfold turn
  cases hpc : s.thread with
  | pop next => exact absurd hpc (hne next)
  | lock => exact queue_lockThread s _
  | relock => exact queue_lockThread s _
  | relockUntil => exact queue_lockThread s _
  | predRunning =>
      dsimp only
      split <;> rfl
  | top =>
      dsimp only
      split
      · rfl
      · split
        · rfl
        · split <;> rfl
  | readClock next =>
      dsimp only
      split <;> rfl
  | waitUntil next =>
      dsimp only
      split <;> rfl
  | acquire next =>
      dsimp only
      unfold acquire
      split <;> rfl
  | post next tov =>
      dsimp only
      unfold postQcs
      split <;> rfl
  | _ => rfl

/-- Nothing else takes an event out. -/
theorem queue_step (ht : s.takes e = none) : s.queue <+: (s.step e).queue := by
  have hsame : ∀ {t : TimerManager}, t.queue = s.queue → s.queue <+: t.queue :=
    fun heq => heq ▸ List.prefix_refl _
  cases e with
  | tick d => exact hsame rfl
  | addTimer type targetId delayMs => exact hsame rfl
  | lockAdder k =>
      simp only [step, lockAdder]
      split <;> exact hsame rfl
  | adder =>
      simp only [step, adder]
      split
      · exact List.prefix_append _ _
      · exact hsame rfl
      · exact hsame rfl
  | notifyOne =>
      simp only [step, notifyOne]
      split
      · exact hsame rfl
      · exact hsame (queue_wake _)
  | spurious => exact hsame (queue_wake s)
  | stop => exact hsame rfl
  | thread c =>
      have hturn : (s.turn c).queue = s.queue := by
        apply queue_turn
        intro next hpc
        simp only [takes, hpc] at ht
        exact absurd ht (by simp)
      exact hsame hturn
  | take k =>
      simp only [step, take]
      split <;> exact hsame rfl
  | handle i threw =>
      simp only [step, handle]
      split
      · exact hsame rfl
      · split <;> first | exact hsame rfl | (split <;> exact hsame rfl)

end TimerManager

end Mmorpg.Timer
