/-
`Server/Network/Session`, the send side: `SendPacket`, `PostSend`,
`OnSendComplete` and `Close`.

## What is modelled

`m_sendMutex` is a `std::mutex`. A thread that locks it while it is taken waits;
when the thread itself has taken it, it waits for ever. A call that comes to
such a lock is an `.error`: it does not return, and the state is the one it
leaves behind, with the mutex taken. Everything a call does before it takes the
lock is local, so the calls of several workers come one after the other.

What `WSASend` answers is a parameter of the call. On `INVALID_SOCKET` it always
fails at once.

`posted` is not in the source: it is the log of the packets that `WSASend`
accepted, oldest first. Nothing is decided by it.
-/
import SimplestMmorpg.Common.Protocol
import SimplestMmorpg.Lib.Transition

set_option autoImplicit false

namespace Mmorpg

/-- What an overlapped call answers: done, `WSA_IO_PENDING`, or another error.
After the first two a completion will come. -/
inductive WsaResult where
  | accepted
  | pending
  | error
  deriving DecidableEq, Repr

/-- The members of `Session` that sending uses. -/
structure Sender where
  socketOpen : Bool
  sendQueue : List Bytes
  sendMutex : Bool
  isSending : Bool
  posted : List Bytes
  deriving DecidableEq, Repr

namespace Sender

open Transition

/-- After `Session::Init`. -/
def init : Sender := ⟨true, [], false, false, []⟩

variable (s : Sender)

/-! ## The mutex -/

/-- `std::lock_guard lock(m_sendMutex)`. -/
def lock : Except Sender Sender :=
  if s.sendMutex then .error s else .ok { s with sendMutex := true }

/-- The end of the scope of the guard. -/
def unlock : Sender := { s with sendMutex := false }

/-! ## The calls -/

/-- `Session::Close`. -/
def close : Except Sender Sender := do
  let s := { s with socketOpen := false }
  let s ← s.lock
  return { s with sendQueue := [], isSending := false }.unlock

/-- What `WSASend` answers on the socket as it is. -/
def answer (r : WsaResult) : WsaResult := if s.socketOpen then r else .error

/-- `Session::PostSend`. -/
def postSend (r : WsaResult) : Except Sender Sender :=
  if s.answer r = .error then s.close
  else return { s with posted := s.posted ++ s.sendQueue.head?.toList }

/-- `Session::SendPacket`. -/
def sendPacket (packet : Bytes) (r : WsaResult) : Except Sender Sender := do
  let s ← s.lock
  let s := { s with sendQueue := s.sendQueue ++ [packet] }
  let s ← if ¬ s.isSending then postSend { s with isSending := true } r else .ok s
  return s.unlock

/-- `Session::OnSendComplete`; `pop` of an empty queue is not called. -/
def onSendComplete (r : WsaResult) : Except Sender Sender := do
  let s ← s.lock
  let s := { s with sendQueue := s.sendQueue.tail }
  let s ← if s.sendQueue ≠ [] then s.postSend r else .ok { s with isSending := false }
  return s.unlock

inductive Call where
  | sendPacket (packet : Bytes) (r : WsaResult)
  | onSendComplete (r : WsaResult)
  deriving DecidableEq, Repr

def exec : Call → Except Sender Sender
  | .sendPacket packet r => s.sendPacket packet r
  | .onSendComplete r => s.onSendComplete r

/-- The call comes to `PostSend`, and `WSASend` fails at once. -/
def FailsAtOnce : Call → Prop
  | .sendPacket _ r => s.isSending = false ∧ s.answer r = .error
  | .onSendComplete r => s.sendQueue.tail ≠ [] ∧ s.answer r = .error

instance (call : Call) : Decidable (s.FailsAtOnce call) := by
  cases call <;> exact inferInstanceAs (Decidable (_ ∧ _))

/-- The state a call leaves, whether it returns or not. -/
def leaves : Except Sender Sender → Sender
  | .ok s => s
  | .error s => s

/-! ## What a call does

The mutex is free before each call that comes to its lock. -/

variable {s} {packet : Bytes} {r : WsaResult} {call : Call}

/-- The mutex is taken in `Close` a second time. -/
theorem postSend_of_error (s : Sender) (hlocked : s.sendMutex = true) (h : s.answer r = .error) :
    s.postSend r = .error { s with socketOpen := false } := by
  rw [postSend, if_pos h, close, lock, if_pos (show _ = true from hlocked)]
  rfl

theorem postSend_of_ne (s : Sender) (h : s.answer r ≠ .error) :
    s.postSend r = .ok { s with posted := s.posted ++ s.sendQueue.head?.toList } := by
  rw [postSend, if_neg h]
  rfl

theorem lock_of_free (hfree : s.sendMutex = false) : s.lock = .ok { s with sendMutex := true } := by
  rw [lock, if_neg (by rw [hfree]; exact Bool.false_ne_true)]

/-- **A call whose `WSASend` fails at once does not return**, and what it leaves is
not cleared. -/
theorem exec_of_fails (hfree : s.sendMutex = false) (h : s.FailsAtOnce call) :
    ∃ t, s.exec call = .error t ∧ t.sendMutex = true ∧ t.sendQueue ≠ [] ∧
      t.socketOpen = false := by
  cases call with
  | sendPacket packet r =>
      obtain ⟨hidle, herr⟩ := h
      refine ⟨{ s with
        socketOpen := false, sendQueue := s.sendQueue ++ [packet], sendMutex := true,
        isSending := true }, ?_, rfl, by simp, rfl⟩
      rw [exec, sendPacket, lock_of_free hfree]
      simp only [bind, Except.bind]
      have hpost := postSend_of_error { s with
        sendQueue := s.sendQueue ++ [packet], sendMutex := true, isSending := true } rfl herr
      rw [if_pos (by rw [hidle]; exact Bool.false_ne_true), hpost]
  | onSendComplete r =>
      obtain ⟨hmore, herr⟩ := h
      refine ⟨{ s with
        socketOpen := false, sendQueue := s.sendQueue.tail, sendMutex := true },
        ?_, rfl, hmore, rfl⟩
      rw [exec, onSendComplete, lock_of_free hfree]
      simp only [bind, Except.bind]
      have hpost := postSend_of_error { s with
        sendQueue := s.sendQueue.tail, sendMutex := true } rfl herr
      rw [if_pos hmore, hpost]

/-- **Any other call returns**, with the mutex free. -/
theorem exec_of_not_fails (hfree : s.sendMutex = false) (h : ¬ s.FailsAtOnce call) :
    ∃ t, s.exec call = .ok t ∧ t.sendMutex = false ∧ t.socketOpen = s.socketOpen := by
  cases call with
  | sendPacket packet r =>
      rw [exec, sendPacket, lock_of_free hfree]
      simp only [bind, Except.bind]
      by_cases hidle : s.isSending = false
      · have hok : s.answer r ≠ .error := fun herr => h ⟨hidle, herr⟩
        have hpost := postSend_of_ne { s with
          sendQueue := s.sendQueue ++ [packet], sendMutex := true, isSending := true } hok
        rw [if_pos (by rw [hidle]; exact Bool.false_ne_true), hpost]
        exact ⟨_, rfl, rfl, rfl⟩
      · rw [if_neg (by simpa using hidle)]
        exact ⟨_, rfl, rfl, rfl⟩
  | onSendComplete r =>
      rw [exec, onSendComplete, lock_of_free hfree]
      simp only [bind, Except.bind]
      by_cases hmore : s.sendQueue.tail ≠ []
      · have hok : s.answer r ≠ .error := fun herr => h ⟨hmore, herr⟩
        have hpost := postSend_of_ne { s with
          sendQueue := s.sendQueue.tail, sendMutex := true } hok
        rw [if_pos hmore, hpost]
        exact ⟨_, rfl, rfl, rfl⟩
      · rw [if_neg hmore]
        exact ⟨_, rfl, rfl, rfl⟩

/-- A call that comes to a taken mutex changes nothing. -/
theorem exec_of_locked (hlocked : s.sendMutex = true) : s.exec call = .error s := by
  cases call with
  | sendPacket packet r =>
      rw [exec, sendPacket, lock, if_pos hlocked]
      rfl
  | onSendComplete r =>
      rw [exec, onSendComplete, lock, if_pos hlocked]
      rfl

/-! ## Whole runs of calls -/

/-- One more call; a call that does not return is the last one. -/
def step (st : Except Sender Sender) (call : Call) : Except Sender Sender :=
  st.bind fun s => s.exec call

/-- The call returns, and an immediate error of its `WSASend` clears the queue
and the flag. -/
structure Survives (st : Except Sender Sender) (call : Call) : Prop where
  returns : ∃ s t, st = .ok s ∧ s.exec call = .ok t
  cleared : ∀ s, st = .ok s → s.FailsAtOnce call →
    (leaves (s.exec call)).sendQueue = [] ∧ (leaves (s.exec call)).isSending = false

/-- No `WSASend` that is called fails at once. -/
def SendsAccepted (st : Except Sender Sender) (call : Call) : Prop :=
  ∀ s, st = .ok s → ¬ s.FailsAtOnce call

/-- Every call so far has returned, and the mutex is free. -/
def Free (st : Except Sender Sender) : Prop := ∃ s, st = .ok s ∧ s.sendMutex = false

theorem free_step (st : Except Sender Sender) (call : Call) (h : Free st)
    (hok : SendsAccepted st call) : Free (step st call) := by
  obtain ⟨s, rfl, hfree⟩ := h
  obtain ⟨t, ht, hfree', -⟩ := exec_of_not_fails hfree (hok s rfl)
  exact ⟨t, ht, hfree'⟩

theorem survives_iff {st : Except Sender Sender} (h : Free st) (call : Call) :
    Survives st call ↔ SendsAccepted st call := by
  obtain ⟨s, rfl, hfree⟩ := h
  constructor
  · rintro ⟨⟨s', t, hs, ht⟩, -⟩ u hu hfails
    obtain rfl := Except.ok.inj hs
    obtain rfl := Except.ok.inj hu
    obtain ⟨v, hv, -⟩ := exec_of_fails hfree hfails
    rw [hv] at ht
    exact absurd ht (by simp)
  · intro hok
    obtain ⟨t, ht, -⟩ := exec_of_not_fails hfree (hok s rfl)
    exact ⟨⟨s, t, rfl, ht⟩, fun u hu hfails => absurd hfails (hok u hu)⟩

/-- **The send path survives exactly as long as no `WSASend` fails at once**: from
any queue and any flag, for every sequence of calls and every answer of each
`WSASend`. -/
theorem survives_run {s : Sender} {calls : List Call} (hfree : s.sendMutex = false) :
    Along step Survives (.ok s) calls ↔ Along step SendsAccepted (.ok s) calls :=
  along_iff_of_invariant free_step (fun _ call h => survives_iff h call) ⟨s, rfl, hfree⟩

theorem survives_run_oneSend :
    Along step Survives (.ok init) [.sendPacket [1] .pending, .onSendComplete .accepted] := by
  rw [survives_run rfl]
  refine ⟨?_, ?_, trivial⟩
  · intro s hs
    rw [← Except.ok.inj hs]
    decide
  · intro s hs
    rw [← Except.ok.inj hs]
    decide

/-- A send on a connection the client has reset. -/
theorem not_always_survives :
    ¬ ∀ (s : Sender) (calls : List Call), s.sendMutex = false →
      Along step Survives (.ok s) calls := by
  intro hall
  obtain ⟨⟨s, t, hs, ht⟩, -⟩ := (hall init [.sendPacket [1] .error] rfl).1
  rw [← Except.ok.inj hs] at ht
  have herr : init.exec (.sendPacket [1] .error) = .error ⟨false, [[1]], true, true, []⟩ := rfl
  rw [herr] at ht
  exact absurd ht (by simp)

end Sender

end Mmorpg
