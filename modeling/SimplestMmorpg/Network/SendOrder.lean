/-
`SendPacket` and `OnSendComplete` of one session, called by any number of
workers.

Both functions hold `m_sendMutex` from their first access to the queue to their
end. A call is therefore cut at three places: it waits for the mutex, it takes
it and changes the queue, and it goes on to `PostSend` or not. Between any two of
these, other workers come to the mutex, and the kernel finishes a `WSASend`,
whose completion a worker takes to `OnSendComplete`. Which of the calls that
wait gets the mutex is not decided by anything.

`inFlight` are the buffers of the `WSASend`s that the kernel has not finished,
and `taken` is the order in which the `SendPacket` calls took the mutex. Neither
is in the source.

What holds throughout depends on where the holder of the mutex is (`Consistent`):
about to call `PostSend`, nothing is outstanding and the whole queue has yet to
be posted; anywhere else the session is idle, or exactly the front is
outstanding.
-/
import SimplestMmorpg.Network.Sender

set_option autoImplicit false

namespace Mmorpg.SendOrder

open Transition

/-- A call that has not taken `m_sendMutex` yet. -/
inductive Entry where
  | sendPacket (packet : Bytes)
  | onSendComplete
  deriving DecidableEq, Repr

/-- What the holder of the mutex does next; a `Close` inside `PostSend` waits for
ever. -/
inductive Stage where
  | postSend
  | unlock
  | closing
  deriving DecidableEq, Repr

structure Sending where
  sender : Sender
  waiting : List Entry
  holder : Option Stage
  inFlight : List Bytes
  taken : List Bytes
  deriving DecidableEq

/-- After `Session::Init`. -/
def init : Sending := ⟨.init, [], none, [], []⟩

inductive Event where
  /-- A worker calls `SendPacket`. -/
  | enter (packet : Bytes)
  /-- The kernel finishes a `WSASend`, and a worker gets the completion. -/
  | complete (k : ℕ)
  /-- A call that waits gets the mutex. -/
  | lock (k : ℕ)
  /-- The holder calls `PostSend`. -/
  | postSend (r : WsaResult)
  /-- The holder returns. -/
  | unlock
  deriving DecidableEq, Repr

/-- The critical section of a call up to `PostSend`, and whether it comes there. -/
def body (s : Sender) : Entry → Sender × Bool
  | .sendPacket packet =>
    let s := { s with sendQueue := s.sendQueue ++ [packet] }
    if ¬ s.isSending then ({ s with isSending := true }, true) else (s, false)
  | .onSendComplete =>
    let s := { s with sendQueue := s.sendQueue.tail }
    if s.sendQueue ≠ [] then (s, true) else ({ s with isSending := false }, false)

/-- The packet a call adds to the queue. -/
def Entry.packets : Entry → List Bytes
  | .sendPacket packet => [packet]
  | .onSendComplete => []

def step (s : Sending) : Event → Sending
  | .enter packet => { s with waiting := s.waiting ++ [.sendPacket packet] }
  | .complete k =>
    match s.inFlight[k]? with
    | none => s
    | some _ =>
      { s with inFlight := s.inFlight.eraseIdx k, waiting := s.waiting ++ [.onSendComplete] }
  | .lock k =>
    match s.waiting[k]?, s.sender.lock with
    | some entry, .ok locked =>
      { s with
        sender := (body locked entry).1
        waiting := s.waiting.eraseIdx k
        holder := some (if (body locked entry).2 then .postSend else .unlock)
        taken := s.taken ++ entry.packets }
    | _, _ => s
  | .postSend r =>
    if s.holder = some .postSend then
      match s.sender.postSend r with
      | .ok sender =>
        { s with
          sender := sender
          holder := some .unlock
          inFlight := s.inFlight ++ s.sender.sendQueue.head?.toList }
      | .error sender => { s with sender := sender, holder := some .closing }
    else s
  | .unlock =>
    if s.holder = some .unlock then { s with sender := s.sender.unlock, holder := none } else s

/-- No `WSASend` fails at once. -/
def Accepted (s : Sending) : Event → Prop
  | .postSend r => s.holder = some .postSend → r ≠ .error
  | _ => True

instance (s : Sending) (e : Event) : Decidable (Accepted s e) := by
  cases e <;> unfold Accepted <;> infer_instance

/-- The `WSASend`s that were accepted and whose `OnSendComplete` has not taken the
mutex: the kernel is at it, or the completion waits. -/
def outstanding (s : Sending) : ℕ := s.inFlight.length + s.waiting.count .onSendComplete

/-! ## A call by itself -/

/-- The call that an entry comes to, when `WSASend` answers `r`. -/
def Entry.call (entry : Entry) (r : WsaResult) : Sender.Call :=
  match entry with
  | .sendPacket packet => .sendPacket packet r
  | .onSendComplete => .onSendComplete r

variable {s : Sending} {entry : Entry} {k : ℕ} {r : WsaResult} {t locked : Sender}

/-- Both functions lock, run their body, post or not, and unlock. -/
theorem exec_eq (sender : Sender) (entry : Entry) (r : WsaResult) :
    sender.exec (entry.call r) = (do
      let locked ← sender.lock
      let next ← if (body locked entry).2 then (body locked entry).1.postSend r
        else .ok (body locked entry).1
      return next.unlock) := by
  cases entry with
  | sendPacket packet =>
      simp only [Entry.call, Sender.exec, Sender.sendPacket, body]
      refine congrArg _ (funext fun locked => ?_)
      by_cases hsending : locked.isSending = true
      · rw [if_neg (not_not.mpr hsending), if_neg (not_not.mpr hsending)]
        rfl
      · rw [if_pos hsending, if_pos hsending]
        rfl
  | onSendComplete =>
      simp only [Entry.call, Sender.exec, Sender.onSendComplete, body]
      refine congrArg _ (funext fun locked => ?_)
      by_cases hmore : locked.sendQueue.tail ≠ []
      · rw [if_pos hmore, if_pos hmore]
        rfl
      · rw [if_neg hmore, if_neg hmore]
        rfl

theorem step_lock (hk : s.waiting[k]? = some entry) (hl : s.sender.lock = .ok locked) :
    step s (.lock k) = { s with
      sender := (body locked entry).1
      waiting := s.waiting.eraseIdx k
      holder := some (if (body locked entry).2 then .postSend else .unlock)
      taken := s.taken ++ entry.packets } := by
  rw [step, hk, hl]

theorem step_postSend (hh : s.holder = some .postSend) (hp : s.sender.postSend r = .ok t) :
    step s (.postSend r) = { s with
      sender := t
      holder := some .unlock
      inFlight := s.inFlight ++ s.sender.sendQueue.head?.toList } := by
  rw [step, if_pos hh, hp]

theorem step_postSend_of_ne (hh : s.holder ≠ some .postSend) : step s (.postSend r) = s := by
  rw [step, if_neg hh]

theorem step_unlock (hh : s.holder = some .unlock) :
    step s .unlock = { s with sender := s.sender.unlock, holder := none } := by
  rw [step, if_pos hh]

/-- **A call that is left alone** does what `SendPacket` and `OnSendComplete` do. -/
theorem run_alone (hk : s.waiting[k]? = some entry)
    (h : s.sender.exec (entry.call r) = .ok t) :
    (run step s [.lock k, .postSend r, .unlock]).sender = t ∧
      (run step s [.lock k, .postSend r, .unlock]).holder = none := by
  rw [exec_eq] at h
  cases hlock : s.sender.lock with
  | error e =>
      rw [hlock] at h
      exact absurd h (by simp [bind, Except.bind])
  | ok locked =>
      rw [hlock] at h
      simp only [bind, Except.bind] at h
      rw [run_cons, run_cons, run_cons, run_nil, step_lock hk hlock]
      by_cases hposts : (body locked entry).2 = true
      · rw [if_pos hposts] at h
        cases hpost : (body locked entry).1.postSend r with
        | error e =>
            rw [hpost] at h
            exact absurd h (by simp)
        | ok next =>
            rw [hpost] at h
            rw [step_postSend (by rw [if_pos hposts]) hpost, step_unlock rfl]
            exact ⟨Except.ok.inj h, rfl⟩
      · rw [if_neg hposts] at h
        have hunlock : some (if (body locked entry).2 then Stage.postSend else .unlock)
            = some .unlock := by rw [if_neg hposts]
        rw [hunlock, step_postSend_of_ne (by simp), step_unlock rfl]
        exact ⟨Except.ok.inj h, rfl⟩

/-! ## What holds throughout -/

/-- Nothing is queued, and nothing outstanding. -/
structure Idle (s : Sending) : Prop where
  queue : s.sender.sendQueue = []
  isSending : s.sender.isSending = false
  outstanding : outstanding s = 0
  taken : s.taken = s.sender.posted

/-- Exactly the front is outstanding. -/
structure Busy (s : Sending) (front : Bytes) (rest : List Bytes) : Prop where
  queue : s.sender.sendQueue = front :: rest
  isSending : s.sender.isSending = true
  outstanding : outstanding s = 1
  inFlight : ∀ b ∈ s.inFlight, b = front
  posted : s.sender.posted.getLast? = some front
  taken : s.taken = s.sender.posted ++ rest

/-- The front is about to be posted. -/
structure Posting (s : Sending) : Prop where
  queue : s.sender.sendQueue ≠ []
  isSending : s.sender.isSending = true
  outstanding : outstanding s = 0
  taken : s.taken = s.sender.posted ++ s.sender.sendQueue

/-- The session rests between two calls of `PostSend`. -/
def Settled (s : Sending) : Prop := Idle s ∨ ∃ front rest, Busy s front rest

structure Consistent (s : Sending) : Prop where
  socketOpen : s.sender.socketOpen = true
  mutex : s.sender.sendMutex = s.holder.isSome
  notClosing : s.holder ≠ some .closing
  posting : s.holder = some .postSend → Posting s
  settled : s.holder ≠ some .postSend → Settled s

/-! ## One step -/

theorem outstanding_erase (hk : s.waiting[k]? = some entry) :
    s.waiting.count .onSendComplete
      = (s.waiting.eraseIdx k).count .onSendComplete + if entry = .onSendComplete then 1 else 0 := by
  rw [(perm_eraseIdx hk).count_eq, List.count_cons]
  simp only [beq_iff_eq]

/-- A step that leaves the session and its mutex alone, and moves what is
outstanding at most from the kernel to the calls that wait. -/
theorem Consistent.of_same {s' : Sending} (h : Consistent s) (hsender : s'.sender = s.sender)
    (hholder : s'.holder = s.holder) (htaken : s'.taken = s.taken)
    (hout : outstanding s' = outstanding s) (hsub : ∀ b ∈ s'.inFlight, b ∈ s.inFlight) :
    Consistent s' where
  socketOpen := by rw [hsender, h.socketOpen]
  mutex := by rw [hsender, hholder, h.mutex]
  notClosing := by
    rw [hholder]
    exact h.notClosing
  posting hh := by
    have hp := h.posting (hholder ▸ hh)
    exact ⟨by rw [hsender]; exact hp.queue, by rw [hsender, hp.isSending],
      by rw [hout, hp.outstanding], by rw [htaken, hsender, hp.taken]⟩
  settled hh := by
    rcases h.settled (hholder ▸ hh) with hi | ⟨front, rest, hb⟩
    · exact .inl ⟨by rw [hsender, hi.queue], by rw [hsender, hi.isSending],
        by rw [hout, hi.outstanding], by rw [htaken, hsender, hi.taken]⟩
    · refine .inr ⟨front, rest, by rw [hsender, hb.queue], by rw [hsender, hb.isSending],
        by rw [hout, hb.outstanding], fun b hb' => hb.inFlight b (hsub b hb'),
        by rw [hsender, hb.posted], by rw [htaken, hsender, hb.taken]⟩

theorem consistent_enter (h : Consistent s) (packet : Bytes) :
    Consistent (step s (.enter packet)) := by
  refine h.of_same rfl rfl rfl ?_ fun b hb => hb
  simp [outstanding, step, List.count_append]

theorem consistent_complete (h : Consistent s) (k : ℕ) : Consistent (step s (.complete k)) := by
  rw [step]
  cases hk : s.inFlight[k]? with
  | none => exact h
  | some b =>
      refine h.of_same rfl rfl rfl ?_ fun b hb => mem_of_mem_eraseIdx hb
      have hlen := (perm_eraseIdx hk).length_eq
      rw [List.length_cons] at hlen
      simp only [outstanding, List.count_append, List.count_singleton_self]
      omega

/-- A `SendPacket` takes the mutex: it posts when the session is idle, and queues
behind the front otherwise. -/
theorem consistent_sendPacket {packet : Bytes} (h : Consistent s) (hholder : s.holder = none)
    (hk : s.waiting[k]? = some (.sendPacket packet)) (hl : s.sender.lock = .ok locked)
    (hlocked : locked = { s.sender with sendMutex := true }) :
    Consistent (step s (.lock k)) := by
  have hcount := outstanding_erase hk
  rw [if_neg (by simp)] at hcount
  rw [step_lock hk hl]
  subst hlocked
  rcases h.settled (by rw [hholder]; simp) with hi | ⟨front, rest, hb⟩
  · -- the flag is clear: the call sets it and goes on to `PostSend`
    have hout := hi.outstanding
    rw [body, if_pos (by rw [hi.isSending]; simp)]
    refine ⟨h.socketOpen, rfl, by simp, fun _ => ?_, fun hne => absurd rfl hne⟩
    refine ⟨by simp, rfl, ?_, ?_⟩
    · unfold outstanding at hout ⊢
      dsimp only
      omega
    · show s.taken ++ [packet] = s.sender.posted ++ (s.sender.sendQueue ++ [packet])
      rw [hi.taken, hi.queue, List.nil_append]
  · -- the completion of the front will post it in its turn
    have hout := hb.outstanding
    rw [body, if_neg (by rw [hb.isSending]; simp)]
    refine ⟨h.socketOpen, rfl, by simp, fun heq => absurd heq (by simp), fun _ => .inr ?_⟩
    refine ⟨front, rest ++ [packet], ?_, hb.isSending, ?_, hb.inFlight, hb.posted, ?_⟩
    · show s.sender.sendQueue ++ [packet] = front :: (rest ++ [packet])
      rw [hb.queue, List.cons_append]
    · unfold outstanding at hout ⊢
      dsimp only
      omega
    · show s.taken ++ [packet] = s.sender.posted ++ (rest ++ [packet])
      rw [hb.taken, List.append_assoc]

/-- An `OnSendComplete` takes the mutex: the front was outstanding, and the next
packet is posted or the session goes idle. -/
theorem consistent_onSendComplete (h : Consistent s) (hholder : s.holder = none)
    (hk : s.waiting[k]? = some .onSendComplete) (hl : s.sender.lock = .ok locked)
    (hlocked : locked = { s.sender with sendMutex := true }) :
    Consistent (step s (.lock k)) := by
  have hcount := outstanding_erase hk
  rw [if_pos rfl] at hcount
  rw [step_lock hk hl]
  subst hlocked
  rcases h.settled (by rw [hholder]; simp) with hi | ⟨front, rest, hb⟩
  · -- the call that waits is itself outstanding, so the session is not idle
    have hout := hi.outstanding
    unfold outstanding at hout
    omega
  · have hout := hb.outstanding
    have hnil : s.inFlight = [] := by
      unfold outstanding at hout
      exact List.length_eq_zero_iff.mp (by omega)
    have htail : s.sender.sendQueue.tail = rest := by rw [hb.queue, List.tail_cons]
    have hout' : s.inFlight.length + (s.waiting.eraseIdx k).count .onSendComplete = 0 := by
      unfold outstanding at hout
      omega
    by_cases hrest : rest = []
    · rw [body, if_neg (by rw [htail, hrest]; simp)]
      refine ⟨h.socketOpen, rfl, by simp, fun heq => absurd heq (by simp), fun _ => .inl ?_⟩
      refine ⟨by rw [← hrest]; exact htail, rfl, hout', ?_⟩
      show s.taken ++ [] = s.sender.posted
      rw [hb.taken, hrest, List.append_nil, List.append_nil]
    · rw [body, if_pos (by rw [htail]; exact hrest)]
      refine ⟨h.socketOpen, rfl, by simp, fun _ => ?_, fun hne => absurd rfl hne⟩
      refine ⟨by rw [htail]; exact hrest, hb.isSending, hout', ?_⟩
      show s.taken ++ [] = s.sender.posted ++ s.sender.sendQueue.tail
      rw [hb.taken, htail, List.append_nil]

theorem consistent_lock (h : Consistent s) (k : ℕ) : Consistent (step s (.lock k)) := by
  cases hk : s.waiting[k]? with
  | none =>
      rw [step, hk]
      exact h
  | some entry =>
      by_cases hfree : s.sender.sendMutex = false
      · have hl := Sender.lock_of_free hfree
        have hholder : s.holder = none := by
          have hm := h.mutex
          rw [hfree] at hm
          exact Option.isSome_eq_false_iff.mp hm.symm |> Option.isNone_iff_eq_none.mp
        cases entry with
        | sendPacket packet => exact consistent_sendPacket h hholder hk hl rfl
        | onSendComplete => exact consistent_onSendComplete h hholder hk hl rfl
      · -- the mutex is taken, and the call goes on waiting
        rw [step, hk, Sender.lock, if_pos (by simpa using hfree)]
        exact h

theorem consistent_postSend (h : Consistent s) (hr : s.holder = some .postSend → r ≠ .error) :
    Consistent (step s (.postSend r)) := by
  by_cases hh : s.holder = some .postSend
  · have hp := h.posting hh
    have hans : s.sender.answer r ≠ .error := by
      rw [Sender.answer, if_pos h.socketOpen]
      exact hr hh
    obtain ⟨front, rest, hqueue⟩ := List.exists_cons_of_ne_nil hp.queue
    have hnil : s.inFlight = [] := by
      have hout := hp.outstanding
      unfold outstanding at hout
      exact List.length_eq_zero_iff.mp (by omega)
    have hmutex := h.mutex
    rw [hh] at hmutex
    rw [step_postSend hh (Sender.postSend_of_ne s.sender hans)]
    refine ⟨h.socketOpen, hmutex, by simp, fun heq => absurd heq (by simp), fun _ => .inr ?_⟩
    refine ⟨front, rest, hqueue, hp.isSending, ?_, ?_, ?_, ?_⟩
    · have hout := hp.outstanding
      unfold outstanding at hout ⊢
      rw [hqueue]
      simp only [List.head?_cons, Option.toList_some, List.length_append, List.length_singleton]
      omega
    · intro b hb
      rw [hnil, hqueue] at hb
      simpa using hb
    · rw [hqueue]
      simp
    · show s.taken = s.sender.posted ++ s.sender.sendQueue.head?.toList ++ rest
      rw [hp.taken, hqueue]
      simp
  · rw [step_postSend_of_ne hh]
    exact h

theorem consistent_unlock (h : Consistent s) : Consistent (step s .unlock) := by
  by_cases hh : s.holder = some .unlock
  · rw [step_unlock hh]
    refine ⟨h.socketOpen, rfl, by simp, fun heq => absurd heq (by simp), fun _ => ?_⟩
    rcases h.settled (by rw [hh]; simp) with hi | ⟨front, rest, hb⟩
    · exact .inl ⟨hi.queue, hi.isSending, hi.outstanding, hi.taken⟩
    · exact .inr ⟨front, rest, hb.queue, hb.isSending, hb.outstanding, hb.inFlight, hb.posted,
        hb.taken⟩
  · rw [step, if_neg hh]
    exact h

/-- **One step**, of any worker or of the kernel. -/
theorem consistent_step (s : Sending) (e : Event) (h : Consistent s) (he : Accepted s e) :
    Consistent (step s e) := by
  cases e with
  | enter packet => exact consistent_enter h packet
  | complete k => exact consistent_complete h k
  | lock k => exact consistent_lock h k
  | postSend r => exact consistent_postSend h he
  | unlock => exact consistent_unlock h

/-! ## What it says of the packets -/

/-- At most one `WSASend` is outstanding, for the front of the queue; the packets
were posted in the order in which their calls took the mutex, and those that
were not are still queued in that order; and when no call is in its critical
section the flag, the queue and the outstanding `WSASend` agree. -/
structure InOrder (s : Sending) : Prop where
  one : outstanding s ≤ 1
  front : ∀ b ∈ s.inFlight, s.sender.sendQueue.head? = some b
  last : outstanding s = 1 → s.sender.posted.getLast? = s.sender.sendQueue.head?
  order : s.taken = s.sender.posted ++ s.sender.sendQueue.drop (outstanding s)
  flag : s.sender.sendMutex = false →
    (s.sender.isSending = true ↔ s.sender.sendQueue ≠ []) ∧
      (s.sender.sendQueue ≠ [] ↔ outstanding s = 1)

/-- The buffers the kernel reads from are the front of the queue before the step
and after it. -/
def FrontStays (s : Sending) (e : Event) : Prop :=
  ∀ b ∈ s.inFlight, s.sender.sendQueue.head? = some b ∧
    (step s e).sender.sendQueue.head? = some b

theorem inOrder_of_posting (h : Consistent s) (hh : s.holder = some .postSend) : InOrder s := by
  have hp := h.posting hh
  have hout := hp.outstanding
  refine ⟨by omega, ?_, by omega, by rw [hout, List.drop_zero, hp.taken], fun hfree => ?_⟩
  · intro b hb
    unfold outstanding at hout
    have hnil := List.length_eq_zero_iff.mp (show s.inFlight.length = 0 by omega)
    rw [hnil] at hb
    exact absurd hb (by simp)
  · -- the mutex is held
    have hm := h.mutex
    rw [hh, hfree] at hm
    exact absurd hm (by simp)

theorem inOrder_of_consistent (h : Consistent s) : InOrder s := by
  by_cases hh : s.holder = some .postSend
  · exact inOrder_of_posting h hh
  · rcases h.settled hh with hi | ⟨front, rest, hb⟩
    · have hout := hi.outstanding
      refine ⟨by omega, ?_, by omega, ?_, fun _ => ?_⟩
      · intro b hb
        unfold outstanding at hout
        have hnil := List.length_eq_zero_iff.mp (show s.inFlight.length = 0 by omega)
        rw [hnil] at hb
        exact absurd hb (by simp)
      · rw [hi.taken, hi.queue, List.drop_nil, List.append_nil]
      · rw [hi.queue, hi.isSending, hout]
        simp
    · have hout := hb.outstanding
      refine ⟨by omega, ?_, fun _ => ?_, ?_, fun _ => ?_⟩
      · intro b hin
        rw [hb.queue, List.head?_cons, hb.inFlight b hin]
      · rw [hb.posted, hb.queue, List.head?_cons]
      · rw [hout, hb.taken, hb.queue, List.drop_one, List.tail_cons]
      · rw [hb.queue, hb.isSending, hout]
        simp

/-- While the kernel is at a `WSASend`, no step moves the front: its completion
has yet to come, and nobody is about to post. -/
theorem frontStays (h : Consistent s) (e : Event) : FrontStays s e := by
  intro b hb
  have hfront := (inOrder_of_consistent h).front b hb
  have hone := (inOrder_of_consistent h).one
  have hpos := List.length_pos_of_mem hb
  unfold outstanding at hone
  refine ⟨hfront, ?_⟩
  cases e with
  | enter packet => exact hfront
  | complete k =>
      rw [step]
      split
      · exact hfront
      · exact hfront
  | lock k =>
      cases hk : s.waiting[k]? with
      | none =>
          rw [step, hk]
          exact hfront
      | some entry =>
          have hcount := outstanding_erase hk
          cases hl : s.sender.lock with
          | error t =>
              rw [step, hk, hl]
              exact hfront
          | ok locked =>
              rw [step_lock hk hl]
              cases entry with
              | onSendComplete =>
                  -- a second completion beside the one the kernel is at
                  rw [if_pos rfl] at hcount
                  omega
              | sendPacket packet =>
                  have hqueue : locked.sendQueue = s.sender.sendQueue := by
                    unfold Sender.lock at hl
                    split at hl
                    · exact absurd hl (by simp)
                    · exact (Except.ok.inj hl) ▸ rfl
                  have hgrow : (body locked (.sendPacket packet)).1.sendQueue
                      = locked.sendQueue ++ [packet] := by
                    rw [body]
                    split <;> rfl
                  show (body locked (.sendPacket packet)).1.sendQueue.head? = some b
                  rw [hgrow, hqueue, List.head?_append, hfront, Option.some_or]
  | postSend r =>
      -- nothing is outstanding when the holder posts
      have hne : s.holder ≠ some .postSend := by
        intro hh
        have hout := (h.posting hh).outstanding
        unfold outstanding at hout
        omega
      rw [step_postSend_of_ne hne]
      exact hfront
  | unlock =>
      rw [step]
      split
      · exact hfront
      · exact hfront

theorem consistent_init : Consistent init where
  socketOpen := rfl
  mutex := rfl
  notClosing := by simp [init]
  posting h := absurd h (by simp [init])
  settled _ := .inl ⟨rfl, rfl, rfl, rfl⟩

/-- **Packets leave in order.** After every run of the workers and the kernel in
which no `WSASend` fails at once, and at every step of it. -/
theorem packets_leave_in_order (events : List Event) (h : Along step Accepted init events) :
    InOrder (run step init events) ∧ Along step FrontStays init events :=
  ⟨inOrder_of_consistent (invariant consistent_step consistent_init h),
    Along.of_invariant consistent_step (fun _ e hs _ => frontStays hs e) consistent_init h⟩

/-- Two workers, and the completion of the first packet before its `SendPacket`
has returned. -/
def twoWorkers : List Event :=
  [.enter [1], .enter [2], .lock 1, .postSend .pending, .complete 0, .lock 0, .unlock, .lock 1,
    .postSend .accepted, .unlock, .lock 0, .unlock]

theorem packets_leave_in_order_twoWorkers :
    InOrder (run step init twoWorkers) ∧ Along step FrontStays init twoWorkers :=
  packets_leave_in_order twoWorkers (by decide)

end Mmorpg.SendOrder
