import MapProtocol.Lib.OrderedMap
import MapProtocol.Lib.Transition
import Mathlib.Logic.Function.Basic

/-!
# The WebSocket transport

`WebSocketTransport` of the TypeScript package sends requests and subscriptions over one socket at a
time, which it opens when it needs one and opens again when it is lost. It is a machine of handlers:
those of every socket it ever made, of its timers, and what follows an `await`. A step is one of them,
or a call of one of the methods. The frames and the ids that `generateId` draws come from outside, and
so does the order of all these. What is written to a socket changes nothing here, and is left out.
-/

namespace MapProtocol.Sdk.TypeScript

structure WebSocketOptions where
  reconnectIntervalMs  : Nat
  maxReconnectAttempts : Nat

/-- `readyState`. A socket that is lost is `closing` until its `close` event. -/
inductive ReadyState where
  | connecting
  | opened
  | closing
  | closed
  deriving DecidableEq, Repr

/-- Why `connect` is rejected. -/
inductive ConnectFailure where
  | connectionTimeout
  | socketError
  deriving DecidableEq, Repr

/-- Why `send` is. -/
inductive SendFailure where
  | notConnected
  | threw
  deriving DecidableEq, Repr

/-- Why `dispatch` is. -/
inductive DispatchFailure (ε : Type) where
  | connect (failure : ConnectFailure)
  | send (failure : SendFailure)
  | timedOut
  | closed
  | server (error : ε)
  deriving DecidableEq, Repr

/-- A socket, the promise of the `connect` that made it, and whether its `connectionTimeout` runs. -/
structure TransportSocket where
  readyState : ReadyState
  promise    : Option (Except ConnectFailure Unit)
  timer      : Bool

/-- The first outcome of a promise stays. -/
def TransportSocket.settle (outcome : Except ConnectFailure Unit) (socket : TransportSocket) :
    TransportSocket :=
  { socket with promise := socket.promise.or (some outcome) }

/-- A call of `dispatch`: the socket that it waits for at first, if any; its id, once it has one, and
how many frames had come by then; whether its timeout runs; the rejection of its `send`, until that is
handled; what its promise came to. -/
structure DispatchCall (ρ ε : Type) where
  socket  : Option Nat
  id      : Option String
  since   : Nat
  timer   : Bool
  failure : Option SendFailure
  verdict : Option (Except (DispatchFailure ε) ρ)

/-- Its `resolve` or `reject`. -/
def DispatchCall.settle {ρ ε : Type} (verdict : Except (DispatchFailure ε) ρ)
    (call : DispatchCall ρ ε) : DispatchCall ρ ε :=
  { call with verdict := call.verdict.or (some verdict) }

inductive StreamPhase where
  | ensuring (socket : Option Nat)
  | live
  | closed
  | errored
  | cancelled
  | refused
  deriving DecidableEq, Repr

/-- A call of `streamTaskStatus`: its stream, the updates in it, how many frames had come when it
began, and whether a rejection of its `send` is yet to be handled. -/
structure StatusStream (υ : Type) where
  taskId   : String
  phase    : StreamPhase
  chunks   : List υ
  since    : Nat
  rejected : Bool

/-- What the transport receives. It does nothing about the results of batches, pongs, errors, and what
it cannot read. -/
inductive WebSocketResponse (ρ ε υ : Type) where
  | dispatchResult (id : String) (result : ρ)
  | dispatchError (id : String) (error : ε)
  | taskStatus (taskId : String) (update : υ)
  | other

/-- The fields that see to the connection: every socket that was made, the delays of the reconnection
timers that run, the sockets that reconnections wait for, and the delays since a socket last opened. -/
structure Connection where
  sockets               : Nat → TransportSocket
  nextSocket            : Nat
  ws                    : Option Nat
  reconnectAttempts     : Nat
  shouldReconnect       : Bool
  isIntentionallyClosed : Bool
  reconnectTimers       : List Nat
  reconnecting          : List (Option Nat)
  delays                : List Nat

/-- Those that see to the calls, by the order in which they were made. -/
structure Desk (ρ ε : Type) where
  pendingRequests : OrderedMap String Nat
  calls           : Nat → Option (DispatchCall ρ ε)
  nextCall        : Nat

structure Board (υ : Type) where
  statusStreams : OrderedMap String Nat
  streams       : Nat → Option (StatusStream υ)
  nextStream    : Nat

structure WebSocketTransport (ρ ε υ : Type) extends Connection, Desk ρ ε, Board υ where
  received : List (WebSocketResponse ρ ε υ)

inductive TransportLabel (ρ ε υ : Type) where
  | connect
  | dispatch
  | streamTaskStatus (taskId : String)
  | cancelStream (stream : Nat)
  | close
  | socketOpened (socket : Nat)
  | socketErrored (socket : Nat)
  | socketClosed (socket : Nat)
  | socketMessage (socket : Nat) (response : WebSocketResponse ρ ε υ)
  | connectionTimeout (socket : Nat)
  | resumeDispatch (call : Nat) (id : String) (throws : Bool)
  | dispatchRejected (call : Nat)
  | dispatchTimeout (call : Nat)
  | resumeStream (stream : Nat) (throws : Bool)
  | streamRejected (stream : Nat)
  | reconnectTimer (timer : Nat)
  | resumeReconnect (attempt : Nat)

namespace WebSocketTransport

variable {ρ ε υ : Type}

def new : WebSocketTransport ρ ε υ where
  sockets _ := ⟨.closed, none, false⟩
  nextSocket := 0
  ws := none
  pendingRequests := .empty
  statusStreams := .empty
  reconnectAttempts := 0
  shouldReconnect := false
  isIntentionallyClosed := false
  reconnectTimers := []
  reconnecting := []
  calls _ := none
  nextCall := 0
  streams _ := none
  nextStream := 0
  received := []
  delays := []

/-! ## Sockets -/

def setSocket (n : Nat) (socket : TransportSocket) (s : WebSocketTransport ρ ε υ) :
    WebSocketTransport ρ ε υ := { s with sockets := Function.update s.sockets n socket }

def isConnected (s : WebSocketTransport ρ ε υ) : Bool :=
  match s.ws with
  | none   => false
  | some n => (s.sockets n).readyState = .opened

/-- `connect`, which `ensureConnected` comes down to: the socket to wait for, if there is one. -/
def connect (s : WebSocketTransport ρ ε υ) : Option Nat × WebSocketTransport ρ ε υ :=
  if s.isConnected then (none, s)
  else (some s.nextSocket,
    { s.setSocket s.nextSocket ⟨.connecting, none, true⟩ with
      nextSocket := s.nextSocket + 1
      ws := some s.nextSocket })

/-- `this.ws?.close()`. -/
def closeSocket (s : WebSocketTransport ρ ε υ) : WebSocketTransport ρ ε υ :=
  match s.ws with
  | none   => s
  | some n =>
      match (s.sockets n).readyState with
      | .connecting => s.setSocket n { s.sockets n with readyState := .closing }
      | .opened     => s.setSocket n { s.sockets n with readyState := .closing }
      | .closing    => s
      | .closed     => s

def attemptReconnect (opts : WebSocketOptions) (s : WebSocketTransport ρ ε υ) :
    WebSocketTransport ρ ε υ :=
  if opts.maxReconnectAttempts ≤ s.reconnectAttempts then s
  else
    let delay := opts.reconnectIntervalMs * 2 ^ s.reconnectAttempts
    { s with
      reconnectAttempts := s.reconnectAttempts + 1
      reconnectTimers := s.reconnectTimers ++ [delay]
      delays := s.delays ++ [delay] }

def socketOpened (n : Nat) (s : WebSocketTransport ρ ε υ) : WebSocketTransport ρ ε υ :=
  if (s.sockets n).readyState = .connecting then
    { s.setSocket n (TransportSocket.settle (.ok ())
        { s.sockets n with readyState := .opened, timer := false }) with
      shouldReconnect := true
      reconnectAttempts := 0
      delays := [] }
  else s

def socketErrored (n : Nat) (s : WebSocketTransport ρ ε υ) : WebSocketTransport ρ ε υ :=
  if (s.sockets n).readyState = .closed then s
  else s.setSocket n (TransportSocket.settle (.error .socketError)
    { s.sockets n with readyState := .closing, timer := false })

def socketClosed (opts : WebSocketOptions) (n : Nat) (s : WebSocketTransport ρ ε υ) :
    WebSocketTransport ρ ε υ :=
  if (s.sockets n).readyState = .closed then s
  else
    let s := s.setSocket n { s.sockets n with readyState := .closed }
    if s.shouldReconnect && !s.isIntentionallyClosed then s.attemptReconnect opts else s

def connectionTimeout (n : Nat) (s : WebSocketTransport ρ ε υ) : WebSocketTransport ρ ε υ :=
  if (s.sockets n).timer then
    let s := (s.setSocket n { s.sockets n with timer := false }).closeSocket
    s.setSocket n ((s.sockets n).settle (.error .connectionTimeout))
  else s

/-! ## Calls

A call waits for its connection, then for the frame that names its request. -/

def setCall (k : Nat) (call : DispatchCall ρ ε) (s : WebSocketTransport ρ ε υ) :
    WebSocketTransport ρ ε υ := { s with calls := Function.update s.calls k (some call) }

def settleCall (k : Nat) (verdict : Except (DispatchFailure ε) ρ) (s : WebSocketTransport ρ ε υ) :
    WebSocketTransport ρ ε υ :=
  { s with calls := Function.update s.calls k ((s.calls k).map (DispatchCall.settle verdict)) }

def deletePending (id : String) (s : WebSocketTransport ρ ε υ) : WebSocketTransport ρ ε υ :=
  { s with pendingRequests := s.pendingRequests.delete id }

/-- What a promise that is awaited came to; one that was settled before has `none` for its socket. -/
def awaited (socket : Option Nat) (s : WebSocketTransport ρ ε υ) :
    Option (Except ConnectFailure Unit) :=
  match socket with
  | none   => some (.ok ())
  | some n => (s.sockets n).promise

def dispatch (s : WebSocketTransport ρ ε υ) : WebSocketTransport ρ ε υ :=
  let (socket, s) := s.connect
  { s.setCall s.nextCall ⟨socket, none, 0, false, none, none⟩ with
    nextCall := s.nextCall + 1 }

/-- `send`: why the frame does not go out, if it does not. -/
def send (throws : Bool) (s : WebSocketTransport ρ ε υ) : Option SendFailure :=
  if s.isConnected then (if throws then some .threw else none) else some .notConnected

/-- `dispatch`, once it is connected. A rejection of `send` is handled in a microtask of its own. -/
def sendDispatch (k : Nat) (call : DispatchCall ρ ε) (id : String) (throws : Bool)
    (s : WebSocketTransport ρ ε υ) : WebSocketTransport ρ ε υ :=
  { s.setCall k { call with
      id := some id
      since := s.received.length
      timer := true
      failure := s.send throws } with
    pendingRequests := s.pendingRequests.set id k }

def resumeDispatch (k : Nat) (id : String) (throws : Bool) (s : WebSocketTransport ρ ε υ) :
    WebSocketTransport ρ ε υ :=
  match s.calls k with
  | none      => s
  | some call =>
      if call.id.isSome || call.verdict.isSome then s
      else match s.awaited call.socket with
        | none                  => s
        | some (.error failure) => s.settleCall k (.error (.connect failure))
        | some (.ok _)          => s.sendDispatch k call id throws

/-- What `catch` does about a rejected `send`. -/
def dispatchRejected (k : Nat) (s : WebSocketTransport ρ ε υ) : WebSocketTransport ρ ε υ :=
  match s.calls k with
  | none      => s
  | some call =>
      match call.id, call.failure with
      | some id, some failure =>
          ((s.setCall k { call with timer := false, failure := none }).deletePending id).settleCall k
            (.error (.send failure))
      | _, _ => s

/-- The timeout of a call runs on after the call is answered. -/
def dispatchTimeout (k : Nat) (s : WebSocketTransport ρ ε υ) : WebSocketTransport ρ ε υ :=
  match s.calls k with
  | none      => s
  | some call =>
      match call.id with
      | none    => s
      | some id =>
          if call.timer then
            ((s.setCall k { call with timer := false }).deletePending id).settleCall k (.error .timedOut)
          else s

/-! ## Streams -/

def setStream (j : Nat) (stream : StatusStream υ) (s : WebSocketTransport ρ ε υ) :
    WebSocketTransport ρ ε υ := { s with streams := Function.update s.streams j (some stream) }

def streamTaskStatus (taskId : String) (s : WebSocketTransport ρ ε υ) : WebSocketTransport ρ ε υ :=
  let (socket, s) := s.connect
  { s.setStream s.nextStream ⟨taskId, .ensuring socket, [], s.received.length, false⟩ with
    nextStream := s.nextStream + 1 }

/-- `start` of the stream, which registers it and sends the subscription. -/
def startStream (j : Nat) (stream : StatusStream υ) (throws : Bool) (s : WebSocketTransport ρ ε υ) :
    WebSocketTransport ρ ε υ :=
  { s.setStream j { stream with
      phase := .live
      since := s.received.length
      rejected := (s.send throws).isSome } with
    statusStreams := s.statusStreams.set stream.taskId j }

def resumeStream (j : Nat) (throws : Bool) (s : WebSocketTransport ρ ε υ) :
    WebSocketTransport ρ ε υ :=
  match s.streams j with
  | none        => s
  | some stream =>
      match stream.phase with
      | .ensuring socket =>
          match s.awaited socket with
          | none            => s
          | some (.error _) => s.setStream j { stream with phase := .refused }
          | some (.ok _)    => s.startStream j stream throws
      | _ => s

/-- `controller.error`, which does nothing to a stream that is over. An errored one stays registered. -/
def streamRejected (j : Nat) (s : WebSocketTransport ρ ε υ) : WebSocketTransport ρ ε υ :=
  match s.streams j with
  | none        => s
  | some stream =>
      if stream.rejected && stream.phase = .live then
        s.setStream j { stream with phase := .errored, rejected := false }
      else s

/-- The reader cancels. What is unregistered is the stream of the task, which may be another one. -/
def cancelStream (j : Nat) (s : WebSocketTransport ρ ε υ) : WebSocketTransport ρ ε υ :=
  match s.streams j with
  | none        => s
  | some stream =>
      if stream.phase = .live then
        { s.setStream j { stream with phase := .cancelled } with
          statusStreams := s.statusStreams.delete stream.taskId }
      else s

/-- `controller.enqueue`, and what is done where it throws. -/
def enqueueUpdate (taskId : String) (update : υ) (s : WebSocketTransport ρ ε υ) :
    WebSocketTransport ρ ε υ :=
  match s.statusStreams.get taskId with
  | none   => s
  | some j =>
      match s.streams j with
      | none        => s
      | some stream =>
          if stream.phase = .live then s.setStream j { stream with chunks := stream.chunks ++ [update] }
          else { s with statusStreams := s.statusStreams.delete taskId }

/-! ## Messages -/

def answer (id : String) (verdict : Except (DispatchFailure ε) ρ) (s : WebSocketTransport ρ ε υ) :
    WebSocketTransport ρ ε υ :=
  match s.pendingRequests.get id with
  | none   => s
  | some k => (s.deletePending id).settleCall k verdict

def handleMessage (response : WebSocketResponse ρ ε υ) (s : WebSocketTransport ρ ε υ) :
    WebSocketTransport ρ ε υ :=
  match response with
  | .dispatchResult id result => s.answer id (.ok result)
  | .dispatchError id error   => s.answer id (.error (.server error))
  | .taskStatus taskId update => s.enqueueUpdate taskId update
  | .other                    => s

def socketMessage (n : Nat) (response : WebSocketResponse ρ ε υ) (s : WebSocketTransport ρ ε υ) :
    WebSocketTransport ρ ε υ :=
  if (s.sockets n).readyState = .opened then
    handleMessage response { s with received := s.received ++ [response] }
  else s

/-! ## Reconnections

A timer opens a socket; the answer to that attempt is a turn of its own. -/

def reconnectTimer (i : Nat) (s : WebSocketTransport ρ ε υ) : WebSocketTransport ρ ε υ :=
  if i < s.reconnectTimers.length then
    let (socket, s) := { s with reconnectTimers := s.reconnectTimers.eraseIdx i }.connect
    { s with reconnecting := s.reconnecting ++ [socket] }
  else s

def resumeReconnect (opts : WebSocketOptions) (i : Nat) (s : WebSocketTransport ρ ε υ) :
    WebSocketTransport ρ ε υ :=
  match s.reconnecting[i]? with
  | none        => s
  | some socket =>
      match s.awaited socket with
      | none            => s
      | some (.ok _)    => { s with reconnecting := s.reconnecting.eraseIdx i }
      | some (.error _) =>
          let s := { s with reconnecting := s.reconnecting.eraseIdx i }
          if s.shouldReconnect then s.attemptReconnect opts else s

/-! ## Closing

`close` rejects the calls, closes the streams and drops the socket, unless a stream throws. -/

/-- The first loop of `close`. -/
def rejectPending : List (String × Nat) → WebSocketTransport ρ ε υ → WebSocketTransport ρ ε υ
  | [], s           => s
  | (_, k) :: es, s => rejectPending es (s.settleCall k (.error .closed))

/-- The second loop of `close`, and whether it came to its end: to close the controller of a stream
that is no longer readable throws. -/
def closeStreams : List (String × Nat) → WebSocketTransport ρ ε υ →
    Bool × WebSocketTransport ρ ε υ
  | [], s           => (true, s)
  | (_, j) :: es, s =>
      match s.streams j with
      | none        => (false, s)
      | some stream =>
          if stream.phase = .live then closeStreams es (s.setStream j { stream with phase := .closed })
          else (false, s)

def close (s : WebSocketTransport ρ ε υ) : WebSocketTransport ρ ε υ :=
  let s := rejectPending s.pendingRequests.entries
    { s with isIntentionallyClosed := true, shouldReconnect := false }
  let s := { s with pendingRequests := .empty }
  match closeStreams s.statusStreams.entries s with
  | (false, s) => s
  | (true, s)  => { { s with statusStreams := .empty }.closeSocket with ws := none }

/-! ## Steps -/

def step (opts : WebSocketOptions) (s : WebSocketTransport ρ ε υ) :
    TransportLabel ρ ε υ → WebSocketTransport ρ ε υ
  | .connect                     => s.connect.2
  | .dispatch                    => s.dispatch
  | .streamTaskStatus taskId     => s.streamTaskStatus taskId
  | .cancelStream stream         => s.cancelStream stream
  | .close                       => s.close
  | .socketOpened n              => s.socketOpened n
  | .socketErrored n             => s.socketErrored n
  | .socketClosed n              => s.socketClosed opts n
  | .socketMessage n response    => s.socketMessage n response
  | .connectionTimeout n         => s.connectionTimeout n
  | .resumeDispatch k id throws  => s.resumeDispatch k id throws
  | .dispatchRejected k          => s.dispatchRejected k
  | .dispatchTimeout k           => s.dispatchTimeout k
  | .resumeStream j throws       => s.resumeStream j throws
  | .streamRejected j            => s.streamRejected j
  | .reconnectTimer i            => s.reconnectTimer i
  | .resumeReconnect i           => s.resumeReconnect opts i

/-- The steps that may dial because a method was called. -/
def asks : TransportLabel ρ ε υ → Bool
  | .connect            => true
  | .dispatch           => true
  | .streamTaskStatus _ => true
  | _                   => false

def after (opts : WebSocketOptions) (ls : List (TransportLabel ρ ε υ)) : WebSocketTransport ρ ε υ :=
  Transition.run (step opts) new ls

/-! ## What the steps leave alone

Sockets, calls and streams are kept apart, and each step sees to one of them. -/

section Frames

variable (opts : WebSocketOptions) (s : WebSocketTransport ρ ε υ)

/-- What sees to the connection leaves everything else alone. -/
def Tends (t : WebSocketTransport ρ ε υ) : Prop :=
  t.toDesk = s.toDesk ∧ t.toBoard = s.toBoard ∧ t.received = s.received

theorem connect_tends : s.Tends s.connect.2 := by
  unfold connect
  split <;> exact ⟨rfl, rfl, rfl⟩

theorem closeSocket_tends : s.Tends s.closeSocket := by
  unfold closeSocket
  split
  · exact ⟨rfl, rfl, rfl⟩
  · split <;> exact ⟨rfl, rfl, rfl⟩

theorem attemptReconnect_tends : s.Tends (s.attemptReconnect opts) := by
  unfold attemptReconnect
  split <;> exact ⟨rfl, rfl, rfl⟩

/-- The steps of the connection. -/
inductive TendsConnection : TransportLabel ρ ε υ → Prop
  | connect : TendsConnection .connect
  | opened (n : Nat) : TendsConnection (.socketOpened n)
  | errored (n : Nat) : TendsConnection (.socketErrored n)
  | closed (n : Nat) : TendsConnection (.socketClosed n)
  | timeout (n : Nat) : TendsConnection (.connectionTimeout n)
  | timer (i : Nat) : TendsConnection (.reconnectTimer i)
  | attempt (i : Nat) : TendsConnection (.resumeReconnect i)

theorem step_tends {l : TransportLabel ρ ε υ} (hl : TendsConnection l) : s.Tends (s.step opts l) := by
  cases hl with
  | connect => exact connect_tends s
  | opened n =>
      unfold step socketOpened
      dsimp only
      split <;> exact ⟨rfl, rfl, rfl⟩
  | errored n =>
      unfold step socketErrored
      dsimp only
      split <;> exact ⟨rfl, rfl, rfl⟩
  | closed n =>
      unfold step socketClosed
      dsimp only
      split
      · exact ⟨rfl, rfl, rfl⟩
      · split
        · exact attemptReconnect_tends opts (s.setSocket n { s.sockets n with readyState := .closed })
        · exact ⟨rfl, rfl, rfl⟩
  | timeout n =>
      unfold step connectionTimeout
      dsimp only
      split
      · exact closeSocket_tends (s.setSocket n { s.sockets n with timer := false })
      · exact ⟨rfl, rfl, rfl⟩
  | timer i =>
      unfold step reconnectTimer
      dsimp only
      split
      · exact connect_tends { s with reconnectTimers := s.reconnectTimers.eraseIdx i }
      · exact ⟨rfl, rfl, rfl⟩
  | attempt i =>
      unfold step resumeReconnect
      dsimp only
      split
      · exact ⟨rfl, rfl, rfl⟩
      · split
        · exact ⟨rfl, rfl, rfl⟩
        · exact ⟨rfl, rfl, rfl⟩
        · split
          · exact attemptReconnect_tends opts { s with reconnecting := s.reconnecting.eraseIdx i }
          · exact ⟨rfl, rfl, rfl⟩

inductive TendsStreams : TransportLabel ρ ε υ → Prop
  | stream (taskId : String) : TendsStreams (.streamTaskStatus taskId)
  | cancel (j : Nat) : TendsStreams (.cancelStream j)
  | resume (j : Nat) (throws : Bool) : TendsStreams (.resumeStream j throws)
  | rejected (j : Nat) : TendsStreams (.streamRejected j)

/-- They leave the calls alone, and dial only for a stream that is asked for. -/
theorem stream_frame {l : TransportLabel ρ ε υ} (hl : TendsStreams l) :
    (s.step opts l).toDesk = s.toDesk ∧ (s.step opts l).received = s.received ∧
      ((s.step opts l).toConnection = s.toConnection ∨
        (asks l ∧ (s.step opts l).toConnection = s.connect.2.toConnection)) := by
  cases hl with
  | stream taskId =>
      obtain ⟨hdesk, -, hreceived⟩ := connect_tends s
      exact ⟨hdesk, hreceived, .inr ⟨rfl, rfl⟩⟩
  | cancel j =>
      unfold step cancelStream
      dsimp only
      split
      · exact ⟨rfl, rfl, .inl rfl⟩
      · split <;> exact ⟨rfl, rfl, .inl rfl⟩
  | resume j throws =>
      unfold step resumeStream
      dsimp only
      split
      · exact ⟨rfl, rfl, .inl rfl⟩
      · split
        · split <;> exact ⟨rfl, rfl, .inl rfl⟩
        · exact ⟨rfl, rfl, .inl rfl⟩
  | rejected j =>
      unfold step streamRejected
      dsimp only
      split
      · exact ⟨rfl, rfl, .inl rfl⟩
      · split <;> exact ⟨rfl, rfl, .inl rfl⟩

inductive TendsCalls : TransportLabel ρ ε υ → Prop
  | dispatch : TendsCalls .dispatch
  | resume (k : Nat) (id : String) (throws : Bool) : TendsCalls (.resumeDispatch k id throws)
  | rejected (k : Nat) : TendsCalls (.dispatchRejected k)
  | timeout (k : Nat) : TendsCalls (.dispatchTimeout k)

/-- They leave the streams alone, and dial only for a new call. -/
theorem call_frame {l : TransportLabel ρ ε υ} (hl : TendsCalls l) :
    (s.step opts l).toBoard = s.toBoard ∧ (s.step opts l).received = s.received ∧
      ((s.step opts l).toConnection = s.toConnection ∨
        (asks l ∧ (s.step opts l).toConnection = s.connect.2.toConnection)) := by
  cases hl with
  | dispatch =>
      obtain ⟨-, hboard, hreceived⟩ := connect_tends s
      exact ⟨hboard, hreceived, .inr ⟨rfl, rfl⟩⟩
  | resume k id throws =>
      unfold step resumeDispatch
      dsimp only
      split
      · exact ⟨rfl, rfl, .inl rfl⟩
      · split
        · exact ⟨rfl, rfl, .inl rfl⟩
        · split <;> exact ⟨rfl, rfl, .inl rfl⟩
  | rejected k =>
      unfold step dispatchRejected
      dsimp only
      split
      · exact ⟨rfl, rfl, .inl rfl⟩
      · split <;> exact ⟨rfl, rfl, .inl rfl⟩
  | timeout k =>
      unfold step dispatchTimeout
      dsimp only
      split
      · exact ⟨rfl, rfl, .inl rfl⟩
      · split
        · exact ⟨rfl, rfl, .inl rfl⟩
        · split <;> exact ⟨rfl, rfl, .inl rfl⟩

/-- What comes leaves the connection alone. -/
theorem socketMessage_frame (n : Nat) (response : WebSocketResponse ρ ε υ) :
    (s.socketMessage n response).toConnection = s.toConnection := by
  unfold socketMessage
  split
  · cases response with
    | dispatchResult id result =>
        unfold handleMessage answer
        dsimp only
        split <;> rfl
    | dispatchError id error =>
        unfold handleMessage answer
        dsimp only
        split <;> rfl
    | taskStatus taskId update =>
        unfold handleMessage enqueueUpdate
        dsimp only
        split
        · rfl
        · split
          · rfl
          · split <;> rfl
    | other => rfl
  · rfl

theorem settle_settle (verdict : Except (DispatchFailure ε) ρ) (call : DispatchCall ρ ε) :
    (call.settle verdict).settle verdict = call.settle verdict := by
  unfold DispatchCall.settle
  cases call.verdict <;> rfl

theorem settleCall_setCall (k : Nat) (c : DispatchCall ρ ε) (id : String)
    (verdict : Except (DispatchFailure ε) ρ) :
    ((s.setCall k c).deletePending id).settleCall k verdict =
      (s.setCall k (c.settle verdict)).deletePending id := by
  unfold settleCall deletePending setCall
  dsimp only
  rw [Function.update_self, Function.update_idem]
  rfl

/-- The first loop of `close` rejects the calls that are known, and no others. -/
theorem rejectPending_eq (es : List (String × Nat)) :
    rejectPending es s =
      { s with
        calls := fun k =>
          if k ∈ es.map Prod.snd then (s.calls k).map (DispatchCall.settle (.error .closed))
          else s.calls k } := by
  induction es generalizing s with
  | nil => rfl
  | cons e es ih =>
      obtain ⟨i, j⟩ := e
      unfold rejectPending settleCall
      rw [ih]
      dsimp only
      congr 2
      funext k
      rw [Function.update_apply, List.map_cons]
      by_cases hk : k = j
      · subst hk
        rw [if_pos rfl, if_pos List.mem_cons_self]
        split
        · rw [Option.map_map]
          congr 1
          funext call
          exact settle_settle _ call
        · rfl
      · have hmem : k ∈ j :: es.map Prod.snd ↔ k ∈ es.map Prod.snd := by
          rw [List.mem_cons, or_iff_right hk]
        simp only [if_neg hk, hmem]

/-- The second loop changes nothing but streams. -/
theorem closeStreams_frame (es : List (String × Nat)) :
    ∃ streams, (closeStreams es s).2 = { s with streams := streams } := by
  induction es generalizing s with
  | nil => exact ⟨_, rfl⟩
  | cons e es ih =>
      unfold closeStreams
      split
      · exact ⟨_, rfl⟩
      · split
        · rename_i stream _ _
          obtain ⟨_, hrest⟩ := ih (s.setStream e.2 { stream with phase := .closed })
          rw [hrest]
          exact ⟨_, rfl⟩
        · exact ⟨_, rfl⟩

/-- `close` before the socket is closed: the second loop may have thrown by then. -/
theorem close_cases : ∃ streams statusStreams, ∃ t : WebSocketTransport ρ ε υ,
    t = { s with
      pendingRequests := .empty
      statusStreams := statusStreams
      shouldReconnect := false
      isIntentionallyClosed := true
      calls := fun k =>
        if k ∈ s.pendingRequests.values then
          (s.calls k).map (DispatchCall.settle (.error .closed))
        else s.calls k
      streams := streams } ∧ (s.close = t ∨ s.close = { t.closeSocket with ws := none }) := by
  unfold close
  rw [rejectPending_eq]
  dsimp only
  obtain ⟨streams, hclose⟩ := closeStreams_frame _ s.statusStreams.entries
  split
  · rename_i u heq
    rw [heq] at hclose
    exact ⟨streams, s.statusStreams, u, hclose, .inl rfl⟩
  · rename_i u heq
    rw [heq] at hclose
    dsimp only at hclose
    refine ⟨streams, .empty, { u with statusStreams := .empty }, ?_, .inr rfl⟩
    rw [hclose]
    rfl

end Frames

/-! ## Dials

A socket that opens sets the attempts back to zero, so the bound is one for each that opened. -/

def opens : TransportLabel ρ ε υ → Bool
  | .socketOpened _ => true
  | _               => false

/-- The sockets dialled, those that the timers are to dial, and the attempts that are left, where
`asked` methods were called and `opened` sockets opened. Before the first opens there are no attempts.
Each attempt since the last opened waits twice as long as the one before it. -/
def DialsWithin (opts : WebSocketOptions) (asked opened : Nat) (s : Connection) : Prop :=
  ((s.shouldReconnect = false ∧ s.nextSocket + s.reconnectTimers.length ≤ asked) ∨
    s.nextSocket + s.reconnectTimers.length + (opts.maxReconnectAttempts - s.reconnectAttempts) ≤
      asked + opts.maxReconnectAttempts * opened) ∧
  s.delays = (List.range s.reconnectAttempts).map (opts.reconnectIntervalMs * 2 ^ ·)

section Dials

variable {opts : WebSocketOptions} {asked opened : Nat} {s : WebSocketTransport ρ ε υ}

/-- A step that makes no attempt dials, and waits to dial, as often as it is asked to. -/
theorem DialsWithin.move {c : Connection} {asked' : Nat}
    (h : DialsWithin opts asked opened s.toConnection)
    (hdials : c.nextSocket + c.reconnectTimers.length + asked ≤
      s.nextSocket + s.reconnectTimers.length + asked')
    (hsame : c.shouldReconnect = s.shouldReconnect ∧ c.reconnectAttempts = s.reconnectAttempts ∧
      c.delays = s.delays) : DialsWithin opts asked' opened c := by
  obtain ⟨hoff, hattempts, hdelays⟩ := hsame
  unfold DialsWithin
  rw [hoff, hattempts, hdelays]
  refine ⟨?_, h.2⟩
  rcases h.1 with ⟨hoff, hle⟩ | hle
  · exact .inl ⟨hoff, by omega⟩
  · exact .inr (by omega)

theorem DialsWithin.attempt (h : DialsWithin opts asked opened s.toConnection)
    (hon : s.shouldReconnect = true) :
    DialsWithin opts asked opened (s.attemptReconnect opts).toConnection := by
  unfold attemptReconnect
  split
  · exact h
  · obtain ⟨hwithin, hdelays⟩ := h
    refine ⟨.inr ?_, ?_⟩
    · rcases hwithin with ⟨hoff, -⟩ | hle
      · rw [hon] at hoff
        cases hoff
      · simp only [List.length_append, List.length_cons, List.length_nil]
        omega
    · simp only [hdelays, List.range_succ, List.map_append, List.map_cons, List.map_nil]

theorem DialsWithin.connect (h : DialsWithin opts asked opened s.toConnection) :
    DialsWithin opts (asked + 1) opened s.connect.2.toConnection := by
  unfold WebSocketTransport.connect
  split
  · exact h.move (by dsimp only; omega) ⟨rfl, rfl, rfl⟩
  · exact h.move (by dsimp only [setSocket]; omega) ⟨rfl, rfl, rfl⟩

theorem DialsWithin.timer (h : DialsWithin opts asked opened s.toConnection) (i : Nat) :
    DialsWithin opts asked opened (s.reconnectTimer i).toConnection := by
  unfold reconnectTimer
  dsimp only
  split
  · rename_i hi
    have hlength : (s.reconnectTimers.eraseIdx i).length + 1 = s.reconnectTimers.length := by
      rw [List.length_eraseIdx_of_lt hi]
      omega
    unfold WebSocketTransport.connect
    split
    · exact h.move (by dsimp only; omega) ⟨rfl, rfl, rfl⟩
    · exact h.move (by dsimp only [setSocket]; omega) ⟨rfl, rfl, rfl⟩
  · exact h

theorem DialsWithin.succ (h : DialsWithin opts asked opened s.toConnection) (n : Nat) :
    DialsWithin opts asked (opened + 1) (s.socketOpened n).toConnection := by
  have hmul : opts.maxReconnectAttempts * (opened + 1) =
      opts.maxReconnectAttempts * opened + opts.maxReconnectAttempts := Nat.mul_succ _ _
  unfold socketOpened
  split
  · refine ⟨.inr ?_, rfl⟩
    dsimp only [setSocket]
    rcases h.1 with ⟨-, hle⟩ | hle <;> omega
  · refine ⟨?_, h.2⟩
    rcases h.1 with hoff | hle
    · exact .inl hoff
    · exact .inr (by omega)

theorem closeSocket_dials (h : DialsWithin opts asked opened s.toConnection) :
    DialsWithin opts asked opened s.closeSocket.toConnection := by
  unfold closeSocket
  split
  · exact h
  · split <;> exact h

theorem DialsWithin.ask (h : DialsWithin opts asked opened s.toConnection) {c : Connection}
    {l : TransportLabel ρ ε υ}
    (hc : c = s.toConnection ∨ (asks l ∧ c = s.connect.2.toConnection)) :
    DialsWithin opts (asked + [l].countP asks) opened c := by
  rcases hc with rfl | ⟨hasks, rfl⟩
  · exact h.move (by omega) ⟨rfl, rfl, rfl⟩
  · rw [List.countP_singleton, if_pos hasks]
    exact h.connect

theorem dials_step (h : DialsWithin opts asked opened s.toConnection) (l : TransportLabel ρ ε υ) :
    DialsWithin opts (asked + [l].countP asks) (opened + [l].countP opens)
      (s.step opts l).toConnection := by
  cases l with
  | connect => exact h.connect
  | dispatch => exact h.ask (call_frame opts s .dispatch).2.2
  | streamTaskStatus taskId => exact h.ask (stream_frame opts s (.stream taskId)).2.2
  | cancelStream j => exact h.ask (stream_frame opts s (.cancel j)).2.2
  | close =>
      obtain ⟨_, _, t, ht, hclose⟩ := close_cases s
      -- no attempt is made once `close` was called
      have hoff : DialsWithin opts asked opened t.toConnection := by
        rw [ht]
        refine ⟨?_, h.2⟩
        rcases h.1 with ⟨-, hle⟩ | hle
        · exact .inl ⟨rfl, hle⟩
        · exact .inr hle
      unfold step
      dsimp only
      rcases hclose with heq | heq
      · rw [heq]
        exact hoff
      · rw [heq]
        exact closeSocket_dials hoff
  | socketOpened n => exact h.succ n
  | socketErrored n =>
      unfold step socketErrored
      dsimp only
      split <;> exact h
  | socketClosed n =>
      unfold step socketClosed
      dsimp only
      split
      · exact h
      · split
        · rename_i hon
          -- a socket was lost: this is what dials unasked
          refine DialsWithin.attempt (s := s.setSocket n _) h ?_
          simpa using (Bool.and_eq_true_iff.mp hon).1
        · exact h
  | socketMessage n response =>
      unfold step
      dsimp only
      rw [socketMessage_frame]
      exact h
  | connectionTimeout n =>
      unfold step connectionTimeout
      dsimp only
      split
      · exact closeSocket_dials (s := s.setSocket n { s.sockets n with timer := false }) h
      · exact h
  | resumeDispatch k id throws => exact h.ask (call_frame opts s (.resume k id throws)).2.2
  | dispatchRejected k => exact h.ask (call_frame opts s (.rejected k)).2.2
  | dispatchTimeout k => exact h.ask (call_frame opts s (.timeout k)).2.2
  | resumeStream j throws => exact h.ask (stream_frame opts s (.resume j throws)).2.2
  | streamRejected j => exact h.ask (stream_frame opts s (.rejected j)).2.2
  | reconnectTimer i => exact h.timer i
  | resumeReconnect i =>
      unfold step resumeReconnect
      dsimp only
      split
      · exact h
      · split
        · exact h
        · exact h
        · split
          · rename_i hon
            exact DialsWithin.attempt (s := { s with reconnecting := s.reconnecting.eraseIdx i }) h hon
          · exact h

theorem dials_run (h : DialsWithin opts asked opened s.toConnection)
    (ls : List (TransportLabel ρ ε υ)) :
    DialsWithin opts (asked + ls.countP asks) (opened + ls.countP opens)
      (Transition.run (step opts) s ls).toConnection := by
  induction ls generalizing asked opened s with
  | nil => exact h
  | cons l ls ih =>
      have hrest := ih (dials_step h l)
      rw [List.countP_cons, List.countP_cons, Transition.run_cons]
      simp only [List.countP_cons, List.countP_nil, Nat.zero_add] at hrest
      rwa [Nat.add_comm (ls.countP asks), Nat.add_comm (ls.countP opens), ← Nat.add_assoc,
        ← Nat.add_assoc]

/-- **The transport never dials without end.** Whatever is lost and whenever, the sockets that it
makes are at most one for each call of a method that needs one and `maxReconnectAttempts` for each
socket that ever opened; and of the attempts since one last did, each waits twice as long as the one
before it. -/
theorem dials_bounded (opts : WebSocketOptions) (ls : List (TransportLabel ρ ε υ)) :
    (after opts ls).nextSocket ≤ ls.countP asks + opts.maxReconnectAttempts * ls.countP opens ∧
      (after opts ls).delays = (List.range (after opts ls).reconnectAttempts).map
        (opts.reconnectIntervalMs * 2 ^ ·) := by
  have hnew : DialsWithin opts 0 0 (new : WebSocketTransport ρ ε υ).toConnection :=
    ⟨.inl ⟨rfl, Nat.le_refl _⟩, rfl⟩
  have hrun := dials_run hnew ls
  rw [Nat.zero_add, Nat.zero_add] at hrun
  refine ⟨?_, hrun.2⟩
  unfold after
  rcases hrun.1 with ⟨-, hle⟩ | hle <;> omega

end Dials

end WebSocketTransport

end MapProtocol.Sdk.TypeScript
