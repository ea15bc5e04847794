/-
`Server/DB/DBManager`: the two queues, their workers, and `Shutdown`.

## What is modelled

Whoever posts a task, the worker of each queue and `Shutdown` are threads, and a
step of this model is one step of one of them: to get a mutex, to read the queue
or the flag, to push, to pop, to leave a scope, to notify, to join. Everything
inside a scope is done by the holder of the mutex. A thread that cannot go on
stays where it is, so any order of any steps is a run.

`cv.wait` with its predicate is the loop around `wait(lock)`: the worker that
finds the predicate false gives the mutex back and waits in one step, and once it
is notified, or wakes up for no reason, it has to get the mutex again before it
looks. Of `scoped_lock` only this is used, that it has both mutexes in the end; on
the way it may take one and give it back.

A task is any value: what it does when it is called is not modelled, but that it
returns or throws a `std::exception`. Three lists record what happened in a
queue: the tasks in the order of their `push`, those that were called, and those
whose call has ended.
-/
import SimplestMmorpg.Lib.Transition

set_option autoImplicit false

namespace Mmorpg

/-- The login queue and the save queue, each with its mutex, condition variable
and thread. -/
inductive Lane where
  | login
  | save
  deriving DecidableEq, Repr

/-- Who holds a mutex. A call of `PostLoginTask` or `PostSaveTask` has its task
until it has pushed it. -/
inductive Holder (α : Type) where
  | worker
  | poster (task : Option α)
  | shutdown

/-- What `WorkerThread` does next. -/
inductive WorkerPc (α : Type) where
  /-- To get the mutex, at the scope or inside `cv.wait`. -/
  | lock
  /-- The predicate: `!queue.empty()`, and then `!m_running`. -/
  | predQueue
  | predRunning
  | waiting
  /-- The test after it: `!m_running`, and then `queue.empty()`. -/
  | testRunning
  | testQueue
  | pop
  | unlock (task : α)
  | call (task : α)
  | executing (task : α)
  | leave
  | done
  /-- `front` of an empty queue. -/
  | undefined

/-- One queue, with the calls that wait for its mutex and those that have yet to
notify. -/
structure TaskQueue (α : Type) where
  queue : List α
  mutex : Option (Holder α)
  worker : WorkerPc α
  callers : List α
  notifiers : ℕ
  pushed : List α
  executed : List α
  finished : List α

variable {α : Type}

namespace TaskQueue

def init : TaskQueue α := ⟨[], none, .lock, [], 0, [], [], []⟩

variable (q : TaskQueue α)

/-! ## `PostLoginTask` and `PostSaveTask` -/

/-- The call begins. -/
def post (task : α) : TaskQueue α := { q with callers := q.callers ++ [task] }

/-- One of the calls gets the mutex. -/
def acquire (k : ℕ) : TaskQueue α :=
  match q.mutex, q.callers[k]? with
  | none, some task =>
    { q with mutex := some (.poster (some task)), callers := q.callers.eraseIdx k }
  | _, _ => q

/-- The call that holds the mutex pushes, and then leaves the scope. -/
def poster : TaskQueue α :=
  match q.mutex with
  | some (.poster (some task)) =>
    { q with queue := q.queue ++ [task], pushed := q.pushed ++ [task], mutex := some (.poster none) }
  | some (.poster none) => { q with mutex := none, notifiers := q.notifiers + 1 }
  | _ => q

/-- The worker wakes up, if it waits. -/
def wake : TaskQueue α :=
  match q.worker with
  | .waiting => { q with worker := .lock }
  | _ => q

/-- `notify_one` of a call that has left its scope. -/
def notifyOne : TaskQueue α :=
  if q.notifiers = 0 then q else { q with notifiers := q.notifiers - 1 }.wake

/-! ## `WorkerThread` -/

/-- The next step of the worker. The call of a task ends in a step of its own. -/
def work (running : Bool) : TaskQueue α :=
  match q.worker with
  | .lock => if q.mutex.isNone then { q with mutex := some .worker, worker := .predQueue } else q
  | .predQueue => { q with worker := if q.queue.isEmpty then .predRunning else .testRunning }
  | .predRunning =>
    if running then { q with mutex := none, worker := .waiting } else { q with worker := .testRunning }
  -- somebody else wakes it up
  | .waiting => q
  | .testRunning => { q with worker := if running then .pop else .testQueue }
  | .testQueue => { q with worker := if q.queue.isEmpty then .leave else .pop }
  | .pop =>
    match q.queue with
    | [] => { q with worker := .undefined }
    | task :: rest => { q with queue := rest, worker := .unlock task }
  | .unlock task => { q with mutex := none, worker := .call task }
  | .call task => { q with executed := q.executed ++ [task], worker := .executing task }
  | .executing _ => q
  | .leave => { q with mutex := none, worker := .done }
  | .done => q
  | .undefined => q

/-- The call of a task ends. What it throws is logged, and the loop goes on. -/
def returns : TaskQueue α :=
  match q.worker with
  | .executing task => { q with finished := q.finished ++ [task], worker := .lock }
  | _ => q

end TaskQueue

/-- What `Shutdown` does next. -/
inductive ShutdownPc where
  | uncalled
  | locking
  | clearing
  | unlock (l : Lane)
  | notifyAll (l : Lane)
  | join (l : Lane)
  | returned
  deriving DecidableEq, Repr

structure DBManager (α : Type) where
  queues : Lane → TaskQueue α
  running : Bool
  main : ShutdownPc

namespace DBManager

/-- `Init` has started the threads. -/
def init : DBManager α := ⟨fun _ => .init, true, .uncalled⟩

variable (s : DBManager α)

def on (l : Lane) (f : TaskQueue α → TaskQueue α) : DBManager α :=
  { s with queues := Function.update s.queues l (f (s.queues l)) }

/-- `Shutdown` holds the mutex of this queue. -/
def locked (l : Lane) : Bool :=
  match (s.queues l).mutex with
  | some .shutdown => true
  | _ => false

/-- `scoped_lock` takes a mutex that is free. -/
def tryLock (l : Lane) : DBManager α :=
  if s.main = .locking ∧ (s.queues l).mutex.isNone then
    s.on l fun q => { q with mutex := some .shutdown }
  else s

/-- It gives back the only one it has. -/
def backOff (l : Lane) : DBManager α :=
  if s.main = .locking ∧ s.locked l ∧ ¬ (s.locked .login ∧ s.locked .save) then
    s.on l fun q => { q with mutex := none }
  else s

/-- The next step of `Shutdown`. -/
def shutdown : DBManager α :=
  match s.main with
  | .uncalled => { s with main := .locking }
  | .locking => if s.locked .login ∧ s.locked .save then { s with main := .clearing } else s
  | .clearing => { s with running := false, main := .unlock .login }
  -- the end of the scope of `scoped_lock`
  | .unlock .login =>
    { s.on .login fun q => { q with mutex := none } with main := .unlock .save }
  | .unlock .save =>
    { s.on .save fun q => { q with mutex := none } with main := .notifyAll .login }
  | .notifyAll .login => { s.on .login TaskQueue.wake with main := .notifyAll .save }
  | .notifyAll .save => { s.on .save TaskQueue.wake with main := .join .login }
  -- `join` returns when the worker has
  | .join .login =>
    match (s.queues .login).worker with
    | .done => { s with main := .join .save }
    | _ => s
  | .join .save =>
    match (s.queues .save).worker with
    | .done => { s with main := .returned }
    | _ => s
  | .returned => s

inductive Event (α : Type) where
  | post (l : Lane) (task : α)
  | acquire (l : Lane) (k : ℕ)
  | poster (l : Lane)
  | notifyOne (l : Lane)
  | worker (l : Lane)
  | spurious (l : Lane)
  | returns (l : Lane) (threw : Bool)
  | tryLock (l : Lane)
  | backOff (l : Lane)
  | shutdown

def step (s : DBManager α) : Event α → DBManager α
  | .post l task => s.on l fun q => q.post task
  | .acquire l k => s.on l fun q => q.acquire k
  | .poster l => s.on l TaskQueue.poster
  | .notifyOne l => s.on l TaskQueue.notifyOne
  | .worker l => s.on l fun q => q.work s.running
  | .spurious l => s.on l TaskQueue.wake
  | .returns l _ => s.on l TaskQueue.returns
  | .tryLock l => s.tryLock l
  | .backOff l => s.backOff l
  | .shutdown => s.shutdown

end DBManager

end Mmorpg
