/-
# TcpConnection

The functions of `src/TcpConnection.cc`, over a connection that lives
anywhere in a state `σ` (`conn : Lens σ TcpConnection`): the callbacks run
inside them may do anything to that state, so each is a function
`σ → Except Fault σ`, and what the connection is after a callback is read
again from the state. A callback field is a Boolean: whether the
`std::function` is set.

What the environment decides comes as arguments: the results of `::write`
and `readv`, the calling thread `tid`. What a run shows outside is logged in
`trace`, newest first.

`Act` is what user code inside a callback does with a connection: `send`
(whose write-complete callback is again user code), `ShutDown`, taking bytes
out of the input buffer, and the end of the connection's server
(`ConnectDestroyed`).

Key definitions: `TcpConnection`, `Event`, `TcpConnection.send`,
`TcpConnection.handleWrite`, `TcpConnection.handleEventWithGuard`, `Act`,
`runActs`.
-/
import MiniMuduo.Buffer
import MiniMuduo.Channel
import MiniMuduo.Lib.Lens

namespace MiniMuduo

open Fallible

/-- `TcpConnection::StateE`. -/
inductive StateE
  | kDisconnected
  | kConnecting
  | kConnected
  | kDisconnecting
  deriving DecidableEq, Repr

/-- The four callbacks of a connection. -/
inductive Callback
  | connection
  | message
  | writeComplete
  | close
  deriving DecidableEq, Repr

/-- The four functions a connection binds to its channel. -/
inductive Handler
  | close
  | error
  | write
  | read
  deriving DecidableEq, Repr

/-- What a connection shows outside. -/
inductive Event
  /-- The channel calls one of its four callbacks. -/
  | handler (h : Handler)
  /-- `SetState`. -/
  | setState (old new : StateE)
  /-- A message passed to `send` while `state_` was `kConnected`, and
  whether `send` took its `fault_error` branch. -/
  | sent (message : List UInt8) (faultError : Bool)
  /-- The bytes one `::write` accepted. -/
  | wrote (bytes : List UInt8)
  /-- A callback is invoked, with `state_` and the readable bytes of
  `output_buffer_` at that moment. -/
  | callback (cb : Callback) (state : StateE) (pending : List UInt8)
  /-- `socket_->ShutdownWrite()`, with the readable bytes of
  `output_buffer_` at that moment. -/
  | shutdownWrite (pending : List UInt8)
  /-- `HandleClose` begins, with `state_` as its `assert` reads it. -/
  | handleClose (state : StateE)
  /-- `HandleClose` returns. -/
  | handleCloseReturned
  | handleError
  | connectEstablished (tid : ℕ)
  | connectDestroyed (tid : ℕ)
  /-- `EventLoop::UpdateChannel` called by the thread `tid`. -/
  | updateChannel (tid : ℕ)
  /-- `EventLoop::RemoveChannel` called by the thread `tid`. -/
  | removeChannel (tid : ℕ)
  deriving DecidableEq, Repr

/-- The values of `errno` that `send` tells apart. -/
inductive Errno
  | ewouldblock
  | epipe
  | other
  deriving DecidableEq, Repr

/-- What `::write` returns: a count, cut to the length it was given, or -1.
`errno` is the one that the EPIPE test reads: `LOG_ERROR` comes before the test
and may have changed what `::write` left. -/
inductive WriteResult
  | wrote (n : ℕ)
  | failed (errno : Errno)
  deriving DecidableEq, Repr

/-- `TcpConnection`; `loop` is the thread of `loop_`. -/
structure TcpConnection where
  loop : ℕ
  name : String
  state : StateE
  channel : Channel
  connectionCallback : Bool
  closeCallback : Bool
  writeCompleteCallback : Bool
  messageCallback : Bool
  inputBuffer : Buffer
  outputBuffer : Buffer
  trace : List Event
  deriving DecidableEq, Repr

namespace TcpConnection

/-- A default `Buffer`. -/
def initialBuffer : Buffer := ⟨List.replicate Buffer.kInitialSize 0, 0, 0⟩

/-- `TcpConnection(loop, name, sockfd, ..)`, no callback set. -/
def create (loop : ℕ) (name : String) (sockfd : ℕ) : TcpConnection where
  loop := loop
  name := name
  state := .kConnecting
  channel := .create sockfd
  connectionCallback := false
  closeCallback := false
  writeCompleteCallback := false
  messageCallback := false
  inputBuffer := initialBuffer
  outputBuffer := initialBuffer
  trace := []

def log (e : Event) (c : TcpConnection) : TcpConnection := { c with trace := e :: c.trace }

/-- `SetState`. -/
def setState (new : StateE) (c : TcpConnection) : TcpConnection :=
  { c with state := new, trace := .setState c.state new :: c.trace }

/-- Whether a callback is set. -/
def isSet (c : TcpConnection) : Callback → Bool
  | .connection => c.connectionCallback
  | .message => c.messageCallback
  | .writeComplete => c.writeCompleteCallback
  | .close => c.closeCallback

/-- A callback is about to be invoked. -/
def logCallback (cb : Callback) (c : TcpConnection) : TcpConnection :=
  c.log (.callback cb c.state c.outputBuffer.readable)

/-- `socket_->ShutdownWrite()`. -/
def shutdownWrite (c : TcpConnection) : TcpConnection :=
  c.log (.shutdownWrite c.outputBuffer.readable)

/-- An `Update()` of the connection's channel by the thread `tid`. -/
def onChannel (tid : ℕ) (op : Bool → Channel → Except Fault Channel) (c : TcpConnection) :
    Except Fault TcpConnection := do
  let channel ← op (tid = c.loop) c.channel
  return { c with channel, trace := .updateChannel tid :: c.trace }

/-- `channel_->Remove()` by the thread `tid`. -/
def removeChannel (tid : ℕ) (c : TcpConnection) : Except Fault TcpConnection := do
  let channel ← c.channel.remove (tid = c.loop)
  return { c with channel, trace := .removeChannel tid :: c.trace }

variable {σ : Type} (tid : ℕ) (conn : Lens σ TcpConnection)

/-- `if (cb) cb(shared_from_this())`. -/
def notify (cb : Callback) (k : σ → Except Fault σ) (s : σ) : Except Fault σ :=
  if (conn.get s).isSet cb then k (conn.modify (logCallback cb) s) else .ok s

/-- `cb(shared_from_this())` without a test: an empty `std::function` throws. -/
def invoke (cb : Callback) (k : σ → Except Fault σ) (s : σ) : Except Fault σ :=
  if (conn.get s).isSet cb then k (conn.modify (logCallback cb) s) else .error .badFunctionCall

/-- What `send` does when nothing is queued: the state, `nwrote`,
`remaining` and `fault_error` after the direct `::write` and the tests of
`errno`. -/
def sendDirect (writeComplete : σ → Except Fault σ) (message : List UInt8) (res : WriteResult) (s : σ) :
    Except Fault (σ × ℕ × ℕ × Bool) :=
  match res with
  | .wrote n => do
    let nwrote := min n message.length
    let remaining := message.length - nwrote
    let s := conn.modify (fun c => (c.log (.wrote (message.take nwrote))).log (.sent message false)) s
    let s ← if remaining = 0 then notify conn .writeComplete writeComplete s else .ok s
    return (s, nwrote, remaining, false)
  | .failed errno =>
    let faultError := errno = .epipe
    .ok (conn.modify (log (.sent message faultError)) s, 0, message.length, faultError)

/-- What `send` does with the bytes that are left. -/
def sendRest (rest : List UInt8) (s : σ) : Except Fault σ := do
  let c := conn.get s
  let outputBuffer ← c.outputBuffer.append rest
  let c := { c with outputBuffer }
  let c ← if c.channel.isWriting then .ok c else c.onChannel tid Channel.enableWriting
  return conn.set s c

/-- `send(message, len)`. -/
def send (writeComplete : σ → Except Fault σ) (message : List UInt8) (res : WriteResult) (s : σ) :
    Except Fault σ := do
  let c := conn.get s
  if c.state = .kConnected then
    let (s, nwrote, remaining, faultError) ←
      if c.channel.isWriting = false ∧ c.outputBuffer.readableBytes = 0 then
        sendDirect conn writeComplete message res s
      else
        .ok (conn.modify (log (.sent message false)) s, 0, message.length, false)
    if faultError = false ∧ 0 < remaining then
      sendRest tid conn (message.drop nwrote) s
    else
      return s
  else
    return s

/-- `ShutDown`. -/
def shutDown (s : σ) : σ :=
  let c := conn.get s
  if c.state = .kConnected then
    let c := c.setState .kDisconnecting
    conn.set s (if c.channel.isWriting then c else c.shutdownWrite)
  else s

/-- `HandleWrite`. -/
def handleWrite (writeComplete : σ → Except Fault σ) (res : WriteResult) (s : σ) : Except Fault σ := do
  let c := conn.get s
  if c.channel.isWriting then
    match res with
    | .wrote n =>
      let data := c.outputBuffer.peek c.outputBuffer.readableBytes
      let n := min n data.length
      if 0 < n then
        let outputBuffer ← c.outputBuffer.retrieve n
        let c := { c with outputBuffer }.log (.wrote (data.take n))
        if outputBuffer.readableBytes = 0 then
          let c ← c.onChannel tid Channel.disableWriting
          let s ← notify conn .writeComplete writeComplete (conn.set s c)
          if (conn.get s).state = .kDisconnecting then
            return conn.modify shutdownWrite s
          else
            return s
        else
          return conn.set s c
      else
        return s
    | .failed _ => return s
  else
    return s

/-- `HandleClose`. -/
def handleClose (connection close : σ → Except Fault σ) (s : σ) : Except Fault σ := do
  let c := conn.get s
  let c := (c.log (.handleClose c.state)).setState .kDisconnected
  let c ← c.onChannel tid Channel.disableAll
  let s ← notify conn .connection connection (conn.set s c)
  let s ← notify conn .close close s
  return conn.modify (log .handleCloseReturned) s

/-- `HandleError`: it only writes a log line. -/
def handleError (s : σ) : σ := conn.modify (log .handleError) s

/-- `HandleRead`. -/
def handleRead (message connection close : σ → Except Fault σ) (r : Buffer.ReadvResult) (s : σ) :
    Except Fault σ := do
  let c := conn.get s
  let (n, _, inputBuffer) ← c.inputBuffer.readFd r 0
  let s := conn.set s { c with inputBuffer }
  if 0 < n then
    invoke conn .message message s
  else if n = 0 then
    handleClose tid conn connection close s
  else
    return handleError conn s

/-- The message callback takes `len` bytes out of `input_buffer_`. -/
def retrieveInput (len : ℕ) (s : σ) : Except Fault σ := do
  let c := conn.get s
  let inputBuffer ← c.inputBuffer.retrieve len
  return conn.set s { c with inputBuffer }

/-- `ConnectEstablished`. -/
def connectEstablished (connection : σ → Except Fault σ) (s : σ) : Except Fault σ := do
  let c := (conn.get s).log (.connectEstablished tid)
  let c ← (c.setState .kConnected).onChannel tid Channel.enableReading
  notify conn .connection connection (conn.set s { c with channel := c.channel.tie })

/-- `ConnectDestroyed`. -/
def connectDestroyed (connection : σ → Except Fault σ) (s : σ) : Except Fault σ := do
  let c := (conn.get s).log (.connectDestroyed tid)
  let s ←
    if c.state = .kConnected ∨ c.state = .kDisconnecting then do
      let c ← (c.setState .kDisconnected).onChannel tid Channel.disableAll
      invoke conn .connection connection (conn.set s c)
    else .ok (conn.set s c)
  let c ← (conn.get s).onChannel tid Channel.disableAll
  let c ← c.removeChannel tid
  return conn.set s c

/-! ### The dispatch of `Channel::HandleEventWithGuard` -/

/-- The handlers a ready mask calls, in order. -/
def handlers (revents : Events) : List Handler :=
  (if revents.epollHup && !revents.epollIn then [.close] else []) ++
  (if revents.epollErr then [.error] else []) ++
  (if revents.epollOut then [.write] else []) ++
  (if revents.epollIn || revents.epollPri || revents.epollRdhup then [.read] else [])

/-- What the environment decides during one handler: the results of `::write`
and `readv`, and what the callbacks do. -/
structure Reaction (σ : Type) where
  write : WriteResult
  read : Buffer.ReadvResult
  writeComplete : σ → Except Fault σ
  message : σ → Except Fault σ
  connection : σ → Except Fault σ
  close : σ → Except Fault σ

/-- One handler. -/
def handle (re : Reaction σ) (h : Handler) (s : σ) : Except Fault σ :=
  let s := conn.modify (log (.handler h)) s
  match h with
  | .close => handleClose tid conn re.connection re.close s
  | .error => .ok (handleError conn s)
  | .write => handleWrite tid conn re.writeComplete re.write s
  | .read => handleRead tid conn re.message re.connection re.close re.read s

/-- `HandleEventWithGuard`: `revents_` does not change while the handlers
run. -/
def handleEventWithGuard (re : Handler → Reaction σ) (revents : Events) (s : σ) : Except Fault σ :=
  (handlers revents).foldlM (fun s h => handle tid conn (re h) h s) s

end TcpConnection

/-! ### User code inside a callback -/

/-- What user code does with the connections `ι`: `send` with the result of
its direct `::write` and what the write-complete callback then does,
`ShutDown`, `retrieve` on the input buffer, and the destruction of the
connection by its server. -/
inductive Act (ι : Type)
  | send (i : ι) (message : List UInt8) (res : WriteResult) (writeComplete : List (Act ι))
  | shutDown (i : ι)
  | retrieve (i : ι) (len : ℕ)
  | destroy (i : ι) (connection : List (Act ι))

section runActs

variable {σ ι : Type} (tid : ℕ) (conn : ι → Lens σ TcpConnection)

mutual

/-- One act. -/
def runAct : Act ι → σ → Except Fault σ
  | .send i message res writeComplete, s =>
    TcpConnection.send tid (conn i) (runActs writeComplete) message res s
  | .shutDown i, s => .ok (TcpConnection.shutDown (conn i) s)
  | .retrieve i len, s => TcpConnection.retrieveInput (conn i) len s
  | .destroy i connection, s => TcpConnection.connectDestroyed tid (conn i) (runActs connection) s

/-- The acts of a callback, in order. -/
def runActs : List (Act ι) → σ → Except Fault σ
  | [], s => .ok s
  | a :: as, s => do runActs as (← runAct a s)

end

end runActs

/-- What the environment decides during one handler: the results of `::write`
and `readv`, and what the callbacks do with the connections `ι`. -/
structure Decisions (ι : Type) where
  write : WriteResult := .failed .other
  read : Buffer.ReadvResult := .failed 0
  writeComplete : List (Act ι) := []
  message : List (Act ι) := []
  connection : List (Act ι) := []

/-- The user's callbacks run their scripts; the close callback is the
server's. -/
def Decisions.reaction {σ ι : Type} (tid : ℕ) (conn : ι → Lens σ TcpConnection) (close : σ → Except Fault σ)
    (re : Decisions ι) : TcpConnection.Reaction σ where
  write := re.write
  read := re.read
  writeComplete := runActs tid conn re.writeComplete
  message := runActs tid conn re.message
  connection := runActs tid conn re.connection
  close := close

end MiniMuduo
