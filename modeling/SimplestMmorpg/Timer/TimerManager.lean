/-
`Server/Timer`: the queue of timers, its thread, and the objects it posts.

## What is modelled

A call of `AddTimer`, the timer thread and the IOCP workers are threads, and a step
of this model is one step of one of them; a thread that cannot go on stays where it
is, so any order of any steps is a run. The clock goes forward between steps by any
amount. Times are ticks of `steady_clock`.

`m_queue` is a `priority_queue` with the earliest event on top; of events with the
same time either may be on top, and `Choice.top` says which. `wait` and `wait_until`
give the mutex back and wait in one step, and end with a notification, for no
reason, or when the time has come; the `notify_all` of `Stop` is a wake-up like any
other.

`PostToIOCP` writes the event into a `TimerOverlapped` of the pool, field by field,
and posts its address. An IOCP worker reads the fields back from that address,
handles what it has read, and releases the object; one whose handler throws does
not release it. When `PostQueuedCompletionStatus` fails nobody looks at its result:
the object is not released, and the event is gone.

Whose completion it is (`ev`) is not in the source, nor what `AddTimer` was called
with (`called`), which events the port did not take (`refused`), and which were
handled.
-/
import SimplestMmorpg.Game.World
import SimplestMmorpg.Lib.ObjectPool
import SimplestMmorpg.Lib.Transition

set_option autoImplicit false

namespace Mmorpg

namespace Timer

structure TimerEvent where
  fireTime : Int
  type : TimerType
  targetId : ObjectID
  deriving DecidableEq, Repr

/-- Of `base` only whether `ioType` is `TIMER`. -/
structure TimerOverlapped where
  isTimer : Bool
  type : TimerType
  targetId : ObjectID
  deriving DecidableEq, Repr

/-- A new object is zero. -/
def TimerOverlapped.zero : TimerOverlapped := ⟨false, .hpRegen, 0⟩

/-- What is posted for an event. -/
def TimerEvent.overlapped (ev : TimerEvent) : TimerOverlapped := ⟨true, ev.type, ev.targetId⟩

/-- Who holds `m_mutex`. A call of `AddTimer` has its event until it has pushed it. -/
inductive Holder where
  | thread
  | adder (ev : Option TimerEvent)
  deriving DecidableEq, Repr

def Holder.inHand : Holder → List TimerEvent
  | .thread => []
  | .adder ev => ev.toList

/-- What `TimerManager::WorkerThread` does next. -/
inductive ThreadPc where
  | loop
  | lock
  | empty
  /-- The predicate of `wait`. -/
  | predQueue
  | predRunning
  | waiting
  | relock
  | testRunning
  | top
  | readClock (next : TimerEvent)
  | waitUntil (next : TimerEvent)
  | relockUntil
  /-- `continue`: the lock goes out of scope. -/
  | leaveTurn
  | pop (next : TimerEvent)
  | unlock (next : TimerEvent)
  /-- `PostToIOCP`. -/
  | acquire (next : TimerEvent)
  | setIoType (next : TimerEvent) (tov : ℕ)
  | setType (next : TimerEvent) (tov : ℕ)
  | setTarget (next : TimerEvent) (tov : ℕ)
  | post (next : TimerEvent) (tov : ℕ)
  /-- `break`. -/
  | leave
  | done
  /-- `top` of an empty queue. -/
  | undefined
  deriving DecidableEq, Repr

/-- What an IOCP worker does next with a completion that it has taken. -/
inductive HandlerPc where
  | dispatch
  | readType
  | readTarget (type : TimerType)
  | handle (type : TimerType) (targetId : ObjectID)
  | release
  /-- Another case of the switch. -/
  | other
  deriving DecidableEq, Repr

structure Handler where
  tov : ℕ
  ev : TimerEvent
  pc : HandlerPc
  deriving DecidableEq, Repr

/-- The queue with its mutex and the calls of `AddTimer`, the thread, and the objects;
then the record of the events that `AddTimer` was called with, of those the port did
not take, and of those that were handled. -/
structure TimerManager where
  clock : Int
  running : Bool
  queue : List TimerEvent
  mutex : Option Holder
  callers : List TimerEvent
  notifiers : ℕ
  thread : ThreadPc
  pool : ObjectPool
  memory : ℕ → TimerOverlapped
  port : List (ℕ × TimerEvent)
  handlers : List Handler
  lost : List ℕ
  called : List TimerEvent
  refused : List TimerEvent
  handled : List TimerEvent

namespace TimerManager

/-- `Start`, with the storage of the pool at this address. -/
def init (start : ℕ) : TimerManager where
  clock := 0
  running := true
  queue := []
  mutex := none
  callers := []
  notifiers := 0
  thread := .loop
  pool := .init start 65536
  memory := fun _ => .zero
  port := []
  handlers := []
  lost := []
  called := []
  refused := []
  handled := []

variable (s : TimerManager)

/-! ## `AddTimer` -/

def ticksPerMs : Int := 1000000

/-- The call reads the clock. -/
def addTimer (type : TimerType) (targetId : ObjectID) (delayMs : Int) : TimerManager :=
  let ev : TimerEvent := ⟨s.clock + delayMs * ticksPerMs, type, targetId⟩
  { s with callers := s.callers ++ [ev], called := s.called ++ [ev] }

/-- One of the calls gets the mutex. -/
def lockAdder (k : ℕ) : TimerManager :=
  match s.mutex, s.callers[k]? with
  | none, some ev => { s with mutex := some (.adder (some ev)), callers := s.callers.eraseIdx k }
  | _, _ => s

/-- The call that holds the mutex pushes, and then leaves the scope. -/
def adder : TimerManager :=
  match s.mutex with
  | some (.adder (some ev)) =>
    { s with queue := s.queue ++ [ev], mutex := some (.adder none) }
  | some (.adder none) => { s with mutex := none, notifiers := s.notifiers + 1 }
  | _ => s

/-- The thread wakes up, if it waits. -/
def wake : TimerManager :=
  match s.thread with
  | .waiting => { s with thread := .relock }
  | .waitUntil _ => { s with thread := .relockUntil }
  | _ => s

def notifyOne : TimerManager :=
  if s.notifiers = 0 then s else { s with notifiers := s.notifiers - 1 }.wake

/-! ## The timer thread -/

/-- What the outside decides: which of the earliest events is on top, where `new` puts
an object, and whether the port takes a completion. -/
structure Choice where
  top : ℕ
  address : ℕ
  ok : Bool

def setMemory (tov : ℕ) (f : TimerOverlapped → TimerOverlapped) : TimerManager :=
  { s with memory := Function.update s.memory tov (f (s.memory tov)) }

/-- `m_pool.Acquire()`. -/
def acquire (next : TimerEvent) (c : Choice) : TimerManager :=
  match s.pool.acquire c.address with
  | none => s
  | some (tov, pool) =>
    { s with
      pool := pool
      -- an object that was released before is used as it is
      memory := if s.pool.free.isEmpty then Function.update s.memory tov .zero else s.memory
      thread := .setIoType next tov }

/-- `PostQueuedCompletionStatus`. -/
def postQcs (next : TimerEvent) (tov : ℕ) (c : Choice) : TimerManager :=
  if c.ok then
    { s with port := s.port ++ [(tov, next)], thread := .loop }
  else
    -- the object is not given back, and the event is in no list any more
    { s with lost := s.lost ++ [tov], refused := s.refused ++ [next], thread := .loop }

/-- The thread takes the mutex, if it is free. -/
def lockThread (pc : ThreadPc) : TimerManager :=
  if s.mutex.isNone then { s with mutex := some .thread, thread := pc } else s

/-- The next step of the thread. -/
def turn (c : Choice) : TimerManager :=
  match s.thread with
  | .loop => { s with thread := if s.running then .lock else .done }
  | .lock => s.lockThread .empty
  | .empty => { s with thread := if s.queue.isEmpty then .predQueue else .top }
  | .predQueue => { s with thread := if s.queue.isEmpty then .predRunning else .testRunning }
  | .predRunning =>
    if s.running then { s with mutex := none, thread := .waiting }
    else { s with thread := .testRunning }
  | .waiting => s
  | .relock => s.lockThread .predQueue
  | .testRunning => { s with thread := if s.running then .top else .leave }
  | .top =>
    if s.queue.isEmpty then { s with thread := .undefined }
    else
      match s.queue[c.top]? with
      | none => s
      | some next =>
        if ∀ ev ∈ s.queue, next.fireTime ≤ ev.fireTime then { s with thread := .readClock next }
        else s
  | .readClock next =>
    if next.fireTime > s.clock then { s with mutex := none, thread := .waitUntil next }
    else { s with thread := .pop next }
  -- the time has come; other reasons to wake up are `wake`
  | .waitUntil next =>
    if next.fireTime ≤ s.clock then { s with thread := .relockUntil } else s
  | .relockUntil => s.lockThread .leaveTurn
  | .leaveTurn => { s with mutex := none, thread := .loop }
  | .pop next => { s with queue := s.queue.erase next, thread := .unlock next }
  | .unlock next => { s with mutex := none, thread := .acquire next }
  | .acquire next => s.acquire next c
  | .setIoType next tov =>
    { s.setMemory tov fun t => { t with isTimer := true } with thread := .setType next tov }
  | .setType next tov =>
    { s.setMemory tov fun t => { t with type := next.type } with thread := .setTarget next tov }
  | .setTarget next tov =>
    { s.setMemory tov fun t => { t with targetId := next.targetId } with thread := .post next tov }
  | .post next tov => s.postQcs next tov c
  | .leave => { s with mutex := none, thread := .done }
  | .done => s
  | .undefined => s

/-! ## The IOCP workers -/

/-- A worker takes a completion from the port. -/
def take (k : ℕ) : TimerManager :=
  match s.port[k]? with
  | none => s
  | some (tov, ev) =>
    { s with port := s.port.eraseIdx k, handlers := s.handlers ++ [⟨tov, ev, .dispatch⟩] }

/-- The worker is through with its completion. -/
def finishHandler (i : ℕ) (h : Handler) : TimerManager :=
  { s with handlers := s.handlers.eraseIdx i, handled := s.handled ++ [h.ev] }

/-- The next step of a worker that has a completion. -/
def handle (i : ℕ) (threw : Bool) : TimerManager :=
  match s.handlers[i]? with
  | none => s
  | some h =>
    let goes (pc : HandlerPc) : TimerManager :=
      { s with handlers := s.handlers.set i { h with pc := pc } }
    match h.pc with
    | .dispatch => goes (if (s.memory h.tov).isTimer then .readType else .other)
    | .readType => goes (.readTarget (s.memory h.tov).type)
    | .readTarget type => goes (.handle type (s.memory h.tov).targetId)
    | .handle _ _ =>
      -- an exception goes past `Release`
      if threw then { s.finishHandler i h with lost := s.lost ++ [h.tov] } else goes .release
    | .release => { s.finishHandler i h with pool := s.pool.release h.tov }
    | .other => s

/-! ## Steps -/

inductive Event where
  | tick (d : ℕ)
  | addTimer (type : TimerType) (targetId : ObjectID) (delayMs : Int)
  | lockAdder (k : ℕ)
  | adder
  | notifyOne
  | spurious
  | stop
  | thread (c : Choice)
  | take (k : ℕ)
  | handle (i : ℕ) (threw : Bool)

def step (s : TimerManager) : Event → TimerManager
  | .tick d => { s with clock := s.clock + d }
  | .addTimer type targetId delayMs => s.addTimer type targetId delayMs
  | .lockAdder k => s.lockAdder k
  | .adder => s.adder
  | .notifyOne => s.notifyOne
  | .spurious => s.wake
  | .stop => { s with running := false }
  | .thread c => s.turn c
  | .take k => s.take k
  | .handle i threw => s.handle i threw

end TimerManager

end Timer

end Mmorpg
