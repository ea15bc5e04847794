/-
The receive ring is a bounded queue of bytes.

`call` is one use of the ring: a write at `GetWritePtr()` announced to
`OnWrite`, a `Peek`, or a `Pop`. A write is only made into the stretch that
`GetContiguousWriteSize()` offers, which can be shorter than what is free: at
the end of the array the rest of the free bytes come with the next offer.

`Shows` says what a ring that stands for a queue reports of it. It holds of the
constructor and survives every call, with the answers of the queue
(`call_shows`), so a whole sequence of calls cannot be told from the same
sequence on a queue of 8191 bytes (`ring_is_queue`).
-/
import SimplestMmorpg.Lib.BoundedQueue
import SimplestMmorpg.Network.RingBuffer

set_option autoImplicit false

namespace Mmorpg.RingBuffer

open BoundedQueue Transition

/-- What the ring holds at most: one slot stays empty. -/
abbrev capacity : ℕ := bufferSize - 1

/-! ## One call -/

/-- The ring after a call. `Peek` is `const`, and a `Pop` that returns `false`
has touched nothing. -/
def call (rb : RingBuffer) : Op UInt8 → RingBuffer
  | .write bs => (rb.write bs).onWrite bs.length
  | .peek _ => rb
  | .pop n => (rb.pop n).getD rb

/-- What the caller sees. -/
def answer (rb : RingBuffer) : Op UInt8 → Answer UInt8
  | .write _ => .done
  | .peek n => (rb.peek n).elim .refused .read
  | .pop n => (rb.pop n).elim .refused fun _ => .done

/-- A write keeps to the stretch that is offered. -/
def Offers (rb : RingBuffer) : Op UInt8 → Prop
  | .write bs => bs.length ≤ rb.getContiguousWriteSize
  | .peek _ => True
  | .pop _ => True

/-- A call that returns `false` leaves the array and both indices alone. -/
def FailureKeeps (rb : RingBuffer) (op : Op UInt8) : Prop :=
  rb.answer op = .refused → rb.call op = rb

/-- What a ring that stands for the queue `q` reports. -/
structure Shows (rb : RingBuffer) (q : Queue UInt8 capacity) : Prop where
  contents : rb.contents = q.items
  used : rb.getUsedSize = q.items.length
  free : rb.getFreeSize = 8191 - q.items.length
  contiguous_le : rb.getContiguousWriteSize ≤ rb.getFreeSize
  contiguous_eq_zero : rb.getContiguousWriteSize = 0 ↔ q.items.length = 8191

variable {rb rb' : RingBuffer} {q q' : Queue UInt8 capacity} {bs : List UInt8} {n : ℕ}

/-- The unread bytes decide everything that is reported. -/
theorem shows_of_contents (h : rb.contents = q.items) : Shows rb q where
  contents := h
  used := by rw [← length_contents, h]
  free := by
    rw [getFreeSize, ← length_contents, h]
    rfl
  contiguous_le := rb.contiguousWriteSize_le
  contiguous_eq_zero := by
    rw [contiguousWriteSize_eq_zero_iff, h]
    exact Iff.rfl

theorem peek_of_lt (h : rb.contents.length < n) : rb.peek n = none := by
  rw [peek, if_pos (by rwa [length_contents] at h)]

theorem pop_of_lt (h : rb.contents.length < n) : rb.pop n = none := by
  rw [pop, if_pos (by rwa [length_contents] at h)]

/-! ## One call against the queue -/

/-- What is offered is free, so the queue does not refuse it. -/
theorem write_shows (h : Shows rb q) (hbs : bs.length ≤ rb.getContiguousWriteSize) :
    (q.items ++ bs).length ≤ capacity ∧
      Shows ((rb.write bs).onWrite bs.length) (q.write bs) := by
  have hroom : (q.items ++ bs).length ≤ capacity := by
    have hq := q.length_le
    have hfree := h.free
    have hle := h.contiguous_le
    rw [List.length_append]
    unfold capacity bufferSize at *
    omega
  refine ⟨hroom, shows_of_contents ?_⟩
  rw [rb.contents_received hbs, h.contents, Queue.items_write hroom]

theorem peek_shows (h : Shows rb q) : rb.peek n = q.peek n := by
  by_cases hn : n ≤ q.items.length
  · rw [Queue.peek_of_le hn, ← h.contents]
    exact rb.peek_eq (by rwa [h.contents])
  · -- more than is unread: both refuse
    rw [Queue.peek_of_lt (by omega)]
    exact peek_of_lt (by rw [h.contents]; omega)

/-- Both drop the oldest bytes, or both refuse. -/
theorem pop_shows (h : Shows rb q) :
    (∃ rb' q', rb.pop n = some rb' ∧ q.pop n = some q' ∧ Shows rb' q') ∨
      (rb.pop n = none ∧ q.pop n = none) := by
  by_cases hn : n ≤ q.items.length
  · obtain ⟨rb', hrb, hdrop⟩ := rb.contents_pop (n := n) (by rwa [h.contents])
    obtain ⟨q', hq, hitems⟩ := Queue.pop_of_le hn
    refine .inl ⟨rb', q', hrb, hq, shows_of_contents ?_⟩
    rw [hdrop, hitems, h.contents]
  · refine .inr ⟨pop_of_lt ?_, Queue.pop_of_lt (by omega)⟩
    rw [h.contents]
    omega

/-- **One call.** The ring goes on standing for the queue, and answers as the
queue does. -/
theorem call_shows (rb : RingBuffer) (q : Queue UInt8 capacity) (op : Op UInt8) (h : Shows rb q)
    (hop : Offers rb op) : Shows (rb.call op) (q.step op) ∧ rb.answer op = q.answer op := by
  cases op with
  | write bs =>
      obtain ⟨hroom, hnext⟩ := write_shows h hop
      exact ⟨hnext, (if_pos hroom).symm⟩
  | peek n =>
      refine ⟨h, ?_⟩
      rw [answer, Queue.answer, peek_shows h]
  | pop n =>
      rw [call, answer, Queue.step, Queue.answer]
      rcases pop_shows (n := n) h with ⟨rb', q', hrb, hq, hnext⟩ | ⟨hrb, hq⟩
      · rw [hrb, hq]
        exact ⟨hnext, rfl⟩
      · rw [hrb, hq]
        exact ⟨h, rfl⟩

theorem failure_keeps (rb : RingBuffer) (op : Op UInt8) : FailureKeeps rb op := by
  intro href
  cases op with
  | write bs => exact absurd href (by simp [answer])
  | peek n => rfl
  | pop n =>
      rw [answer] at href
      rw [call]
      cases hpop : rb.pop n with
      | none => rfl
      | some rb' =>
          rw [hpop] at href
          exact absurd href (by simp)

/-! ## Every sequence of calls -/

/-- **The ring is a queue of 8191 bytes.** After every sequence of calls from the
constructor the ring shows the queue that the same calls lead to, each call has
answered what the queue answers, and the calls that failed changed nothing. -/
theorem ring_is_queue (buffer : ℕ → UInt8) (ops : List (Op UInt8))
    (h : Along call Offers (init buffer) ops) :
    Shows (run call (init buffer) ops) (run Queue.step .empty ops) ∧
      answers call answer (init buffer) ops
        = answers Queue.step Queue.answer (.empty : Queue UInt8 capacity) ops ∧
      Along call FailureKeeps (init buffer) ops := by
  have hinit : Shows (init buffer) .empty := shows_of_contents (contents_init buffer)
  obtain ⟨hend, hans⟩ := simulation call_shows hinit h
  exact ⟨hend, hans, along_true.mono fun rb op _ => failure_keeps rb op⟩

theorem ring_is_queue_refusing :
    Shows (run call (init fun _ => 0) [.write [1, 2], .pop 1, .peek 2])
        (run Queue.step .empty [.write [1, 2], .pop 1, .peek 2]) ∧
      answers call answer (init fun _ => 0) [.write [1, 2], .pop 1, .peek 2]
        = answers Queue.step Queue.answer (.empty : Queue UInt8 capacity)
          [.write [1, 2], .pop 1, .peek 2] ∧
      Along call FailureKeeps (init fun _ => 0) [.write [1, 2], .pop 1, .peek 2] :=
  ring_is_queue (fun _ => 0) [.write [1, 2], .pop 1, .peek 2]
    ⟨show 2 ≤ _ by decide, trivial, trivial, trivial⟩

end Mmorpg.RingBuffer
