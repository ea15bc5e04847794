/-
`Server/Network/RingBuffer`: the receive ring, and the queue of unread bytes
it stands for.

`m_head` is where the next byte is written, `m_tail` where the next one is
read, and one slot stays empty so that the two coincide only when nothing is
unread. Both indices are below `BUFFER_SIZE` in every buffer that can be
built: the constructor starts them at 0 and `OnWrite` and `Pop` reduce.

`contents` reads the unread bytes in order. The four lemmas after it are what
the receive path uses: a write at `GetWritePtr()` appends (`contents_received`),
`Peek` returns a prefix (`peek_eq`), `Pop` drops one (`contents_pop`), and the
contiguous size is 0 exactly when the queue is full
(`contiguousWriteSize_eq_zero_iff`).
-/
import Mathlib.Data.List.GetD
import Mathlib.Tactic.Common

set_option autoImplicit false

namespace Mmorpg

/-- `RingBuffer::BUFFER_SIZE`. -/
abbrev bufferSize : ℕ := 8192

/-- `RingBuffer`: the array and the two indices, `m_head` for writing and
`m_tail` for reading. -/
structure RingBuffer where
  buffer : ℕ → UInt8
  head : ℕ
  tail : ℕ
  head_lt : head < bufferSize
  tail_lt : tail < bufferSize

namespace RingBuffer

/-- The constructor; the array starts with whatever the memory held. -/
def init (buffer : ℕ → UInt8) : RingBuffer :=
  ⟨buffer, 0, 0, by decide, by decide⟩

variable (rb : RingBuffer)

def getUsedSize : ℕ := (rb.head + bufferSize - rb.tail) % bufferSize

def getFreeSize : ℕ := bufferSize - 1 - rb.getUsedSize

def getContiguousWriteSize : ℕ :=
  if rb.tail ≤ rb.head then
    -- the slot before a tail at 0 is the last one of the array
    if rb.tail = 0 then bufferSize - rb.head - 1 else bufferSize - rb.head
  else rb.tail - rb.head - 1

/-- What the kernel does with the pointer `GetWritePtr()` returns: it stores
the received bytes from `m_head` on, without wrapping. -/
def write (bs : List UInt8) : RingBuffer :=
  { rb with
    buffer := fun i =>
      if rb.head ≤ i ∧ i < rb.head + bs.length then bs.getD (i - rb.head) 0 else rb.buffer i }

def onWrite (len : ℕ) : RingBuffer :=
  { rb with
    head := (rb.head + len) % bufferSize
    head_lt := Nat.mod_lt _ (by decide) }

/-- The bytes `Peek` copies to `dest`; `none` when it returns `false`. -/
def peek (len : ℕ) : Option (List UInt8) :=
  if rb.getUsedSize < len then none
  else
    let tailToEnd := bufferSize - rb.tail
    if len ≤ tailToEnd then some ((List.range len).map fun i => rb.buffer (rb.tail + i))
    else some ((List.range tailToEnd).map (fun i => rb.buffer (rb.tail + i))
      ++ (List.range (len - tailToEnd)).map rb.buffer)

/-- The buffer after `Pop`; `none` when it returns `false`. -/
def pop (len : ℕ) : Option RingBuffer :=
  if rb.getUsedSize < len then none
  else some { rb with
    tail := (rb.tail + len) % bufferSize
    tail_lt := Nat.mod_lt _ (by decide) }

/-! ## The queue of unread bytes -/

/-- The unread bytes, oldest first. -/
def contents : List UInt8 :=
  (List.range rb.getUsedSize).map fun i => rb.buffer ((rb.tail + i) % bufferSize)

@[simp] theorem length_contents : rb.contents.length = rb.getUsedSize := by
  simp only [contents, List.length_map, List.length_range]

theorem getUsedSize_lt : rb.getUsedSize < bufferSize := Nat.mod_lt _ (by decide)

@[simp] theorem contents_init (buffer : ℕ → UInt8) : (init buffer).contents = [] := by
  simp [contents, getUsedSize, init]

theorem contiguousWriteSize_le : rb.getContiguousWriteSize ≤ rb.getFreeSize := by
  have hh := rb.head_lt
  have ht := rb.tail_lt
  unfold getContiguousWriteSize getFreeSize getUsedSize bufferSize at *
  split
  · split <;> omega
  · omega

theorem contiguousWriteSize_eq_zero_iff :
    rb.getContiguousWriteSize = 0 ↔ rb.contents.length = bufferSize - 1 := by
  have hh := rb.head_lt
  have ht := rb.tail_lt
  rw [length_contents]
  unfold getContiguousWriteSize getUsedSize bufferSize at *
  split
  · split <;> omega
  · omega

/-- Bytes written at `GetWritePtr()` and announced to `OnWrite` are appended,
and no unread byte changes. -/
theorem contents_received {bs : List UInt8} (hbs : bs.length ≤ rb.getContiguousWriteSize) :
    ((rb.write bs).onWrite bs.length).contents = rb.contents ++ bs := by
  have hh := rb.head_lt
  have ht := rb.tail_lt
  have hfit : rb.head + bs.length ≤ bufferSize ∧
      rb.getUsedSize + bs.length < bufferSize := by
    unfold getContiguousWriteSize at hbs
    unfold getUsedSize bufferSize at *
    split at hbs
    · split at hbs <;> omega
    · omega
  have hused : ((rb.write bs).onWrite bs.length).getUsedSize = rb.getUsedSize + bs.length := by
    simp only [getUsedSize, onWrite, write, bufferSize] at *
    omega
  refine List.ext_getElem (by rw [length_contents, hused, List.length_append, length_contents]) ?_
  intro i h1 h2
  rw [length_contents, hused] at h1
  simp only [contents, List.getElem_map, List.getElem_range, write, onWrite]
  by_cases hi : i < rb.getUsedSize
  · -- an unread byte lies outside the stretch that was written
    rw [List.getElem_append_left (by simpa using hi), if_neg]
    · simp only [List.getElem_map, List.getElem_range]
    · unfold getContiguousWriteSize at hbs
      unfold getUsedSize bufferSize at *
      split at hbs
      · split at hbs <;> omega
      · omega
  · have hpos : (rb.tail + i) % bufferSize = rb.head + (i - rb.getUsedSize) := by
      unfold getUsedSize bufferSize at *
      omega
    rw [List.getElem_append_right (by simpa using hi), if_pos (by omega), hpos,
      List.getD_eq_getElem _ _ (by omega)]
    simp only [Nat.add_sub_cancel_left, List.length_map, List.length_range]

/-- `Peek` succeeds when enough is unread and copies the oldest bytes, across
the wrap too. -/
theorem peek_eq {n : ℕ} (hn : n ≤ rb.contents.length) : rb.peek n = some (rb.contents.take n) := by
  have ht := rb.tail_lt
  rw [length_contents] at hn
  have hlt := rb.getUsedSize_lt
  rw [peek, if_neg (by omega)]
  have hlen : (rb.contents.take n).length = n := by
    rw [List.length_take, length_contents]; omega
  have hget : ∀ i (h : i < (rb.contents.take n).length),
      (rb.contents.take n)[i] = rb.buffer ((rb.tail + i) % bufferSize) := by
    intro i h
    simp only [contents, List.getElem_take, List.getElem_map, List.getElem_range]
  dsimp only
  split
  · refine congrArg some (List.ext_getElem (by simpa using hlen.symm) fun i h1 h2 => ?_)
    rw [hget i h2]
    simp only [List.length_map, List.length_range] at h1
    simp only [List.getElem_map, List.getElem_range]
    rw [Nat.mod_eq_of_lt (by omega)]
  · refine congrArg some (List.ext_getElem ?_ fun i h1 h2 => ?_)
    · simp only [List.length_append, List.length_map, List.length_range, hlen]; omega
    · rw [hget i h2]
      rw [hlen] at h2
      by_cases hi : i < bufferSize - rb.tail
      · rw [List.getElem_append_left (by simpa using hi)]
        simp only [List.getElem_map, List.getElem_range]
        rw [Nat.mod_eq_of_lt (by omega)]
      · rw [List.getElem_append_right (by simpa using hi)]
        simp only [List.getElem_map, List.getElem_range, List.length_map, List.length_range]
        congr 1
        unfold bufferSize at *
        omega

/-- `Pop` succeeds when enough is unread and drops the oldest bytes. -/
theorem contents_pop {n : ℕ} (hn : n ≤ rb.contents.length) :
    ∃ rb', rb.pop n = some rb' ∧ rb'.contents = rb.contents.drop n := by
  have hh := rb.head_lt
  have ht := rb.tail_lt
  rw [length_contents] at hn
  have hlt := rb.getUsedSize_lt
  rw [pop, if_neg (by omega)]
  refine ⟨_, rfl, ?_⟩
  have hused : (rb.head + bufferSize - (rb.tail + n) % bufferSize) % bufferSize
      = rb.getUsedSize - n := by
    unfold getUsedSize bufferSize at *
    omega
  refine List.ext_getElem ?_ fun i h1 h2 => ?_
  · rw [length_contents, List.length_drop, length_contents]
    exact hused
  · simp only [contents, List.getElem_drop, List.getElem_map, List.getElem_range]
    congr 1
    unfold bufferSize at *
    omega

end RingBuffer

end Mmorpg
