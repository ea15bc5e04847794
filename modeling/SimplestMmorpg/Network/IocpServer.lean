/-
`Server/Network/IOCPServer`: the worker loop, accepting, and the sessions with
their ids.

## What is modelled

A worker takes a completion from the port and handles it to the end; the
completions are taken in any order, one at a time. The kernel is the other
party: it holds the `AcceptEx` and the overlapped receives and sends, and each of
them becomes a completion, with the key of its socket. On a socket that was
closed it is a failed one. What `WSARecv`, `WSASend` and `AcceptEx` answer are
parameters of the step.

Of the game this layer sees which packets a handler sends, and which sessions
have a player. A handler of a game event is the list of its sends; a login puts a
player under the id of an open session.

A handler that comes to a mutex that is never released, or to a loop it does not
leave, does not return: it is an `.error` with the state it leaves, and its
connection is noted in `executing`.

`DisconnectSession` deletes the `Session`, whose `OVERLAPPED`s the kernel may
still hold. That the worker then reads freed memory is not modelled: a completion
keeps its kind. `conn` in a completion is not in the source; it says whose
operation it was.
-/
import SimplestMmorpg.Lib.Loop
import SimplestMmorpg.Network.Sender
import SimplestMmorpg.Network.Session

set_option autoImplicit false

namespace Mmorpg

/-- `IOType` of the completions of sockets. -/
inductive IOType where
  | accept
  | recv
  | send
  deriving DecidableEq, Repr

/-- A `Session` object. -/
structure SessionObj where
  id : ObjectID
  recvBuffer : RingBuffer
  sender : Sender
  disconnected : Bool

/-- An overlapped receive or send in the kernel, with the key of its socket. -/
structure Overlapped where
  ioType : IOType
  key : ObjectID
  conn : ConnId
  deriving DecidableEq, Repr

/-- What `GetQueuedCompletionStatus` returns: the result, the key, the kind, and
the bytes that came or went. -/
structure IoCompletion where
  ok : Bool
  ioType : IOType
  key : ObjectID
  bytes : Bytes
  conn : Option ConnId
  deriving DecidableEq, Repr

/-- A packet a handler of the game sends, and what `WSASend` answers if it is called. -/
structure SendReq where
  conn : ConnId
  packet : Bytes
  result : WsaResult
  deriving DecidableEq, Repr

/-- What the outside decides while a completion is handled: the rounds the
extraction loop is given, the packets the game sends, and the answers of
`WSARecv` or `WSASend` and of `AcceptEx`. -/
structure Answers where
  rounds : ℕ
  sends : List SendReq
  wsa : WsaResult
  acceptEx : WsaResult

/-- Every call of the sockets is pending, and the game sends nothing. -/
def Answers.plain : Answers := ⟨1, [], .pending, .pending⟩

structure IocpServer where
  sessions : ObjectID → Option ConnId
  objects : ConnId → Option SessionObj
  availableIds : List ObjectID
  nextConn : ConnId
  acceptsPosted : ℕ
  overlapped : List Overlapped
  port : List IoCompletion
  players : ObjectID → Option ConnId
  executing : List ConnId

namespace IocpServer

/-! ## Accepting -/

/-- `PostAccept`; nothing is posted again when `AcceptEx` fails at once. -/
def postAccept (r : WsaResult) (s : IocpServer) : IocpServer :=
  if r = .error then s else { s with acceptsPosted := s.acceptsPosted + 1 }

/-- `Init`: all ids are free, and the first `AcceptEx` is posted. -/
def init (r : WsaResult) : IocpServer :=
  postAccept r
    { sessions := fun _ => none
      objects := fun _ => none
      availableIds := List.range' 0 maxPlayers
      nextConn := 0
      acceptsPosted := 0
      overlapped := []
      port := []
      players := fun _ => none
      executing := [] }

variable (s : IocpServer)

/-! ## One session -/

def setObject (conn : ConnId) (o : SessionObj) : IocpServer :=
  { s with objects := Function.update s.objects conn (some o) }

/-- The send side of a session is written; a `WSASend` that was accepted is in the kernel. -/
def setSender (conn : ConnId) (o : SessionObj) (t : Sender) : IocpServer :=
  { s.setObject conn { o with sender := t } with
    overlapped := s.overlapped ++
      if o.sender.posted.length < t.posted.length then [⟨.send, o.id, conn⟩] else [] }

/-- A method of the send side of a session. -/
def withSender (conn : ConnId) (f : Sender → Except Sender Sender) :
    Except IocpServer IocpServer :=
  match s.objects conn with
  | none => .ok s
  | some o =>
    match f o.sender with
    | .ok t => .ok (s.setSender conn o t)
    | .error t => .error (s.setSender conn o t)

/-- `Session::Close`. -/
def close (conn : ConnId) : Except IocpServer IocpServer := s.withSender conn Sender.close

/-- `Session::PostRecv`. -/
def postRecv (conn : ConnId) (r : WsaResult) : Except IocpServer IocpServer :=
  match s.objects conn with
  | none => .ok s
  | some o =>
    if o.sender.answer r = .error then s.close conn
    else .ok { s with overlapped := s.overlapped ++ [⟨.recv, o.id, conn⟩] }

/-- `Session::SendPacket`, through the pointer a player has. -/
def sendTo (req : SendReq) : Except IocpServer IocpServer :=
  s.withSender req.conn fun t => t.sendPacket req.packet req.result

/-- The sends of a handler, one after the other. -/
def sendAll : List SendReq → IocpServer → Except IocpServer IocpServer
  | [], s => .ok s
  | req :: reqs, s => do
    let s ← s.sendTo req
    sendAll reqs s

/-- `Session::OnRecvComplete`. When a send does not return, the rounds that would
have come after it are not missed by anyone. -/
def onRecvComplete (conn : ConnId) (bytes : ℕ) (a : Answers) : Except IocpServer IocpServer :=
  match s.objects conn with
  | none => .ok s
  | some o =>
    let entered := o.recvBuffer.onWrite bytes
    match Loop.iterate Session.extractRound a.rounds ⟨entered, []⟩ with
    | some (.exit st) => do
      let s := s.setObject conn { o with recvBuffer := st.recvBuffer }
      let s ← s.sendAll a.sends
      s.postRecv conn a.wsa
    | _ => .error (s.setObject conn { o with recvBuffer := entered })

/-- `Session::OnSendComplete`. -/
def onSendComplete (conn : ConnId) (a : Answers) : Except IocpServer IocpServer :=
  s.withSender conn fun t => t.onSendComplete a.wsa

/-! ## The table of sessions -/

/-- `ProcessDisconnect`: the others are told, and the player is removed. -/
def processDisconnect (id : ObjectID) (sends : List SendReq) : Except IocpServer IocpServer :=
  match s.players id with
  | none => .ok s
  | some _ => do
    let s ← s.sendAll sends
    return { s with players := Function.update s.players id none }

/-- The end of `DisconnectSession`: the object is deleted, its slot cleared, its id free. -/
def freeSession (conn : ConnId) (id : ObjectID) : IocpServer :=
  { s with
    objects := Function.update s.objects conn none
    sessions := Function.update s.sessions id none
    availableIds := s.availableIds ++ [id] }

/-- `DisconnectSession`. -/
def disconnectSession (conn : ConnId) (a : Answers) : Except IocpServer IocpServer :=
  match s.objects conn with
  | none => .ok s
  | some o =>
    if o.disconnected then .ok s
    else do
      let s := s.setObject conn { o with disconnected := true }
      let s ← s.processDisconnect o.id a.sends
      let s ← s.close conn
      return s.freeSession conn o.id

/-- A new session under an id taken from the pool. -/
def openSession (id : ObjectID) (rest : List ObjectID) : IocpServer :=
  { s.setObject s.nextConn ⟨id, .init fun _ => 0, .init, false⟩ with
    sessions := Function.update s.sessions id (some s.nextConn)
    availableIds := rest
    nextConn := s.nextConn + 1 }

/-- `OnAccept`. When no id is free the socket is closed. -/
def onAccept (a : Answers) : Except IocpServer IocpServer :=
  match s.availableIds with
  | [] => .ok (s.postAccept a.acceptEx)
  | id :: rest => do
    let conn := s.nextConn
    let s ← (s.openSession id rest).postRecv conn a.wsa
    return s.postAccept a.acceptEx

/-! ## The worker -/

/-- The connection whose `Session` a completion is dispatched to. -/
def target (c : IoCompletion) : Option ConnId :=
  if c.ok = true ∧ c.ioType = .accept then none else s.sessions c.key

/-- What `WorkerThread` does with a completion. -/
def handleCompletion (c : IoCompletion) (a : Answers) : Except IocpServer IocpServer :=
  if c.ok = false ∨ (c.bytes = [] ∧ c.ioType ≠ .accept) then
    match s.sessions c.key with
    | none => .ok s
    | some conn => s.disconnectSession conn a
  else
    match c.ioType with
    | .accept => s.onAccept a
    | .recv =>
      match s.sessions c.key with
      | none => .ok s
      | some conn => s.onRecvComplete conn c.bytes.length a
    | .send =>
      match s.sessions c.key with
      | none => .ok s
      | some conn => s.onSendComplete conn a

/-- The state after a handler of a connection; one that does not return goes on executing. -/
def finish (conn : Option ConnId) : Except IocpServer IocpServer → IocpServer
  | .ok s => s
  | .error s => { s with executing := s.executing ++ conn.toList }

/-! ## The kernel -/

/-- Whether the socket of a connection is still open. -/
def socketOpen (conn : ConnId) : Bool := (s.objects conn).any (·.sender.socketOpen)

/-- The `AcceptEx` completes. -/
def acceptDone (ok : Bool) : IocpServer :=
  if s.acceptsPosted = 0 then s
  else
    { s with
      acceptsPosted := s.acceptsPosted - 1
      port := s.port ++ [⟨ok, .accept, 0, [], none⟩] }

/-- The bytes of a receive are stored where `PostRecv` said. -/
def store (conn : ConnId) (bytes : Bytes) : IocpServer :=
  match s.objects conn with
  | none => s
  | some o => s.setObject conn { o with recvBuffer := o.recvBuffer.write bytes }

/-- A receive gets no more bytes than `PostRecv` made room for. -/
def delivered (op : Overlapped) (bytes : Bytes) : Bytes :=
  match op.ioType, s.objects op.conn with
  | .recv, some o => bytes.take o.recvBuffer.getContiguousWriteSize
  | _, _ => bytes

/-- A receive or a send completes; on a closed socket it fails. -/
def ioDone (k : ℕ) (ok : Bool) (bytes : Bytes) : IocpServer :=
  match s.overlapped[k]? with
  | none => s
  | some op =>
    let ok := ok && s.socketOpen op.conn
    let bytes := s.delivered op bytes
    let s := if ok = true ∧ op.ioType = .recv then s.store op.conn bytes else s
    { s with
      overlapped := s.overlapped.eraseIdx k
      port := s.port ++ [⟨ok, op.ioType, op.key, bytes, some op.conn⟩] }

/-! ## Steps -/

inductive Event where
  | acceptDone (ok : Bool)
  | ioDone (k : ℕ) (ok : Bool) (bytes : Bytes)
  | dequeue (k : ℕ) (a : Answers)
  | game (login : Option ObjectID) (sends : List SendReq)

/-- A completion is taken from the port and handled. -/
def dequeue (k : ℕ) (a : Answers) : IocpServer :=
  match s.port[k]? with
  | none => s
  | some c =>
    let taken := { s with port := s.port.eraseIdx k }
    finish (taken.target c) (taken.handleCompletion c a)

/-- `AddPlayer` for an open session, if there is one. -/
def addPlayer (login : Option ObjectID) : IocpServer :=
  match login with
  | none => s
  | some id =>
    match s.sessions id with
    | none => s
    | some conn => { s with players := Function.update s.players id (some conn) }

def step (s : IocpServer) : Event → IocpServer
  | .acceptDone ok => s.acceptDone ok
  | .ioDone k ok bytes => s.ioDone k ok bytes
  | .dequeue k a => s.dequeue k a
  | .game login sends => finish none (sendAll sends (s.addPlayer login))

end IocpServer

end Mmorpg
