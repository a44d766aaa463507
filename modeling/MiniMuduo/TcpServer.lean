/-
# TcpServer

`TcpServer` of `src/TcpServer.cc` with its acceptor, the thread pool of
`src/EventLoopThreadPool.cc`, the loops and all the connections it accepted.
Loop 0 is the base loop and loops 1 to `numThreads` are the pool's; a loop
and its thread have one number. The connections are numbered in the order of
their `accept`; `connections_` maps names to these numbers.

Each loop goes round by itself: `Poll` reports channels, their handlers run
one after the other, `DoPendingFunctors` swaps the queue out and runs it. A
step is one of these, by any loop, so that a run is an interleaving of the
threads. A step is atomic: what it touches besides its own loop's
connections are the queues, which have a lock, and `connections_`, which only
the base loop uses.

User code runs inside callbacks and, as timers and tasks of the user, at any
other time; it calls `send` and `ShutDown` on connections of the loop it
runs on.

Key definitions: `TcpServer`, `TcpServer.newConnectionCallback`,
`TcpServer.removeConnectionInLoop`, `TcpServer.destroy`, `ServerStep`,
`serverMachine`.
-/
import MiniMuduo.Calls
import MiniMuduo.Lib.OrderedMap
import MiniMuduo.Lib.Word
import Mathlib.Data.String.Basic

namespace MiniMuduo

open Fallible Runs Word TcpConnection

/-- A task that the server hands to a loop. -/
inductive ServerTask
  | connectEstablished (i : ℕ)
  | removeConnectionInLoop (i : ℕ)
  | connectDestroyed (i : ℕ)
  deriving DecidableEq, Repr

/-- A channel that `Poll` can report. -/
inductive ChannelRef
  | acceptor
  | connection (i : ℕ)
  deriving DecidableEq, Repr

/-- A callback that a reported channel calls. -/
inductive ChannelCall
  /-- `Acceptor::HandleRead`. -/
  | accept
  | handler (i : ℕ) (h : Handler)
  deriving DecidableEq, Repr

/-- The callbacks a mask calls; the acceptor has set its read callback
only. -/
def ChannelRef.calls (revents : Events) : ChannelRef → List ChannelCall
  | .acceptor => if revents.epollIn || revents.epollPri || revents.epollRdhup then [.accept] else []
  | .connection i => (handlers revents).map (.handler i)

/-- Where a loop is in its round, with what is left to do there. -/
inductive Round
  | polling
  | handling (calls : List ChannelCall)
  | running (tasks : List ServerTask)
  deriving DecidableEq, Repr

/-- `TcpServer` after `Start()`, with its loops and connections. -/
structure TcpServer where
  name : String
  connectionCallback : Bool
  messageCallback : Bool
  /-- `loops_.size()` of the thread pool. -/
  numThreads : ℕ
  /-- `next_` of the thread pool. -/
  next : ℕ
  nextConnId : ℤ
  connections : OrderedMap String ℕ
  /-- The fds accepted so far, and the connections made for them. -/
  accepted : List ℕ
  conns : ℕ → TcpConnection
  /-- `pending_functors_` of each loop. -/
  pending : ℕ → List ServerTask
  round : ℕ → Round
  /-- The connections that `RemoveConnectionInLoop` has erased. -/
  removed : List ℕ
  destroyed : Bool

/-- The connection `i`. -/
def connAt (i : ℕ) : Lens TcpServer TcpConnection where
  get s := s.conns i
  set s c := { s with conns := Function.update s.conns i c }
  get_set s c := Function.update_self i c s.conns
  set_get s := by rw [Function.update_eq_self]
  set_set s c d := by rw [Function.update_idem]

namespace TcpServer

/-- A server that has just started. -/
def start (name : String) (connectionCallback messageCallback : Bool) (numThreads : ℕ) : TcpServer where
  name := name
  connectionCallback := connectionCallback
  messageCallback := messageCallback
  numThreads := numThreads
  next := 0
  nextConnId := 0
  connections := .empty
  accepted := []
  conns _ := TcpConnection.create 0 "" 0
  pending _ := []
  round _ := .polling
  removed := []
  destroyed := false

/-- `EventLoopThreadPool::GetNextLoop`; `loops_[k]` is the loop `k + 1`. -/
def getNextLoop (s : TcpServer) : ℕ × TcpServer :=
  if s.numThreads = 0 then (0, s)
  else (s.next + 1, { s with next := if s.numThreads ≤ s.next + 1 then 0 else s.next + 1 })

/-- `QueueInLoop` of the loop `l`. -/
def queueInLoop (l : ℕ) (task : ServerTask) (s : TcpServer) : TcpServer :=
  { s with pending := Function.update s.pending l (s.pending l ++ [task]) }

/-- The name of the next connection. -/
def connName (s : TcpServer) : String := s.name ++ "#" ++ toString s.nextConnId

/-- The callbacks that a new connection is given. `writeComplete` says that
user code sets the write-complete callback. -/
def setCallbacks (s : TcpServer) (writeComplete : Bool) (c : TcpConnection) : TcpConnection :=
  { c with
    connectionCallback := s.connectionCallback
    messageCallback := s.messageCallback
    closeCallback := true
    writeCompleteCallback := writeComplete }

/-- `NewConnectionCallback(sockfd, ..)`. `emplace` leaves an entry that is
there; `connections_[conn_name]` is the entry's connection. -/
def newConnectionCallback (sockfd : ℕ) (writeComplete : Bool) (s : TcpServer) : TcpServer :=
  let (ioLoop, s) := s.getNextLoop
  let connName := s.connName
  let new := s.accepted.length
  let s := { s with
    nextConnId := int32 (s.nextConnId + 1)
    accepted := s.accepted ++ [sockfd]
    conns := Function.update s.conns new (TcpConnection.create ioLoop connName sockfd)
    connections := s.connections.emplace connName new }
  let conn := (s.connections.find connName).getD new
  let s := (connAt conn).modify (s.setCallbacks writeComplete) s
  s.queueInLoop ioLoop (.connectEstablished conn)

/-- `RemoveConnection(conn)`, the close callback. -/
def removeConnection (i : ℕ) (s : TcpServer) : Except Fault TcpServer :=
  .ok (s.queueInLoop 0 (.removeConnectionInLoop i))

/-- `RemoveConnectionInLoop(conn)` by the thread `tid`, with the script of the
connection callback if `ConnectDestroyed` runs at once. -/
def removeConnectionInLoop (tid i : ℕ) (connection : List (Act ℕ)) (s : TcpServer) : Except Fault TcpServer := do
  if tid ≠ 0 then throw .notInLoopThread
  let (n, connections) := s.connections.erase (s.conns i).name
  if n ≠ 1 then throw .assertion
  let s := { s with connections, removed := s.removed ++ [i] }
  let ioLoop := (s.conns i).loop
  if tid = ioLoop then connectDestroyed tid (connAt i) (runActs tid connAt connection) s
  else return s.queueInLoop ioLoop (.connectDestroyed i)

/-- `~TcpServer` on the base loop's thread. -/
def destroy (connection : ℕ → List (Act ℕ)) (s : TcpServer) : Except Fault TcpServer := do
  let s ← s.connections.entries.foldlM
    (fun s entry => connectDestroyed 0 (connAt entry.2) (runActs 0 connAt (connection entry.2)) s) s
  return { s with destroyed := true }

/-- A task on the loop `l`. -/
def runTask (l : ℕ) (connection : List (Act ℕ)) (s : TcpServer) : ServerTask → Except Fault TcpServer
  | .connectEstablished i => connectEstablished l (connAt i) (runActs l connAt connection) s
  | .removeConnectionInLoop i => s.removeConnectionInLoop l i connection
  | .connectDestroyed i => connectDestroyed l (connAt i) (runActs l connAt connection) s

/-- `FillActiveChannels`: `revents_` of the reported channels. -/
def setRevents (ready : List (ChannelRef × Events)) (s : TcpServer) : TcpServer :=
  ready.foldl (fun s r => match r.1 with
    | .acceptor => s
    | .connection i => (connAt i).modify (fun c => { c with channel := { c.channel with revents := r.2 } }) s) s

def setRound (l : ℕ) (round : Round) (s : TcpServer) : TcpServer :=
  { s with round := Function.update s.round l round }

end TcpServer

/-- What a loop's thread does next, with what the environment decides. -/
inductive ServerStep
  /-- `Poll` reports channels. -/
  | poll (l : ℕ) (ready : List (ChannelRef × Events))
  /-- `Acceptor::HandleRead`, with what `accept` returned. -/
  | accept (sockfd : Option ℕ) (writeComplete : Bool)
  /-- The next callback of a reported channel. -/
  | handle (l : ℕ) (re : Decisions ℕ)
  /-- `DoPendingFunctors` swaps the queue out. -/
  | swap (l : ℕ)
  /-- `DoPendingFunctors` runs the next task. -/
  | runTask (l : ℕ) (connection : List (Act ℕ))
  /-- `DoPendingFunctors` returns. -/
  | finish (l : ℕ)
  /-- A timer or a task of the user. -/
  | user (l : ℕ) (script : List (Act ℕ))
  /-- `~TcpServer`. -/
  | destroy (connection : ℕ → List (Act ℕ))

namespace TcpServer

/-- The connections whose loop is `l`. -/
def onLoop (s : TcpServer) (l i : ℕ) : Bool := i < s.accepted.length && (s.conns i).loop = l

/-- A script that uses connections of the loop `l` only. -/
def scriptOn (s : TcpServer) (l : ℕ) (script : List (Act ℕ)) : Bool := scriptAllowed false (s.onLoop l) script

/-- Epoll of the loop `l` can report this mask for this channel. -/
def canReport (s : TcpServer) (l : ℕ) (r : ChannelRef × Events) : Bool :=
  match r.1 with
  | .acceptor => l = 0
  | .connection i => s.onLoop l i && (s.conns i).channel.registered.any fun interest => r.2.Within interest

/-- The steps that the state allows. Nothing comes after the end. -/
def enabled (s : TcpServer) : ServerStep → Bool
  | .poll l ready => !s.destroyed && l ≤ s.numThreads && s.round l = .polling && (ready.map Prod.fst).Nodup &&
    ready.all (s.canReport l)
  | .accept .. => !s.destroyed && match s.round 0 with
    | .handling (.accept :: _) => true
    | _ => false
  | .handle l re => !s.destroyed && s.scriptOn l re.writeComplete && s.scriptOn l re.message &&
    s.scriptOn l re.connection && match s.round l with
    | .handling (.handler _ _ :: _) => true
    | _ => false
  | .swap l => !s.destroyed && s.round l = .handling []
  | .runTask l connection => !s.destroyed && s.scriptOn l connection && match s.round l with
    | .running (_ :: _) => true
    | _ => false
  | .finish l => !s.destroyed && s.round l = .running []
  | .user l script => !s.destroyed && l ≤ s.numThreads && s.scriptOn l script
  | .destroy connection => !s.destroyed && s.connections.entries.all fun entry => s.scriptOn 0 (connection entry.2)

/-- One step. -/
def step (s : TcpServer) : ServerStep → Except Fault TcpServer
  | .poll l ready => .ok ((s.setRevents ready).setRound l (.handling (ready.flatMap fun r => r.1.calls r.2)))
  | .accept sockfd writeComplete =>
    match s.round 0 with
    | .handling (_ :: calls) =>
      let s := s.setRound 0 (.handling calls)
      match sockfd with
      | some sockfd => .ok (s.newConnectionCallback sockfd writeComplete)
      | none => .ok s
    | _ => .ok s
  | .handle l re =>
    match s.round l with
    | .handling (.handler i h :: calls) =>
      handle l (connAt i) (re.reaction l connAt (removeConnection i)) h (s.setRound l (.handling calls))
    | _ => .ok s
  | .swap l => .ok { s.setRound l (.running (s.pending l)) with pending := Function.update s.pending l [] }
  | .runTask l connection =>
    match s.round l with
    | .running (task :: tasks) => (s.setRound l (.running tasks)).runTask l connection task
    | _ => .ok s
  | .finish l => .ok (s.setRound l .polling)
  | .user l script => runActs l connAt script s
  | .destroy connection => s.destroy connection

end TcpServer

/-- The interleavings of a server's threads. -/
def serverMachine : Machine TcpServer ServerStep Fault := ⟨fun s a => s.enabled a = true, TcpServer.step⟩

instance (s : TcpServer) (a : ServerStep) : Decidable (serverMachine.enabled s a) :=
  inferInstanceAs (Decidable (_ = true))

/-! ### What a loop has left to do -/

/-- The callbacks that a round has still to call. -/
def Round.calls : Round → List ChannelCall
  | .handling calls => calls
  | .polling | .running _ => []

/-- The tasks that a round has still to run. -/
def Round.tasks : Round → List ServerTask
  | .running tasks => tasks
  | .polling | .handling _ => []

/-- The connection that a task is about. -/
def ServerTask.index : ServerTask → ℕ
  | .connectEstablished i | .removeConnectionInLoop i | .connectDestroyed i => i

namespace TcpServer

/-- The tasks of the loop `l`: the rest of its batch, then its queue. -/
def tasks (s : TcpServer) (l : ℕ) : List ServerTask := (s.round l).tasks ++ s.pending l

theorem onLoop_iff {s : TcpServer} {l i : ℕ} : s.onLoop l i = true ↔ i < s.accepted.length ∧ (s.conns i).loop = l := by
  simp [onLoop]

theorem getNextLoop_fst (s : TcpServer) : s.getNextLoop.1 = if s.numThreads = 0 then 0 else s.next + 1 := by
  unfold getNextLoop
  split <;> rfl

theorem setRound_round (s : TcpServer) (l l' : ℕ) (r : Round) :
    (s.setRound l r).round l' = if l' = l then r else s.round l' :=
  Function.update_apply ..

/-- A task is queued at the end of one loop's tasks. -/
theorem queueInLoop_tasks (s : TcpServer) (l l' : ℕ) (t : ServerTask) :
    (s.queueInLoop l t).tasks l' = if l' = l then s.tasks l' ++ [t] else s.tasks l' := by
  show (s.round l').tasks ++ Function.update s.pending l (s.pending l ++ [t]) l' = _
  unfold tasks
  by_cases h : l' = l
  · rw [h, if_pos rfl, Function.update_self, List.append_assoc]
  · rw [if_neg h, Function.update_of_ne h]

/-- What `NewConnectionCallback` does: under a name that is taken the old
connection is set up again. -/
theorem newConnectionCallback_eq (sockfd : ℕ) (writeComplete : Bool) (s : TcpServer) :
    s.newConnectionCallback sockfd writeComplete =
      ((connAt ((s.connections.find s.connName).getD s.accepted.length)).modify (s.setCallbacks writeComplete)
        { s with
          next := s.getNextLoop.2.next
          nextConnId := int32 (s.nextConnId + 1)
          accepted := s.accepted ++ [sockfd]
          conns := Function.update s.conns s.accepted.length
            (TcpConnection.create s.getNextLoop.1 s.connName sockfd)
          connections := s.connections.emplace s.connName s.accepted.length }).queueInLoop s.getNextLoop.1
        (.connectEstablished ((s.connections.find s.connName).getD s.accepted.length)) := by
  have hnext : ∃ n, s.getNextLoop = (s.getNextLoop.1, { s with next := n }) := by
    unfold getNextLoop
    split
    · exact ⟨s.next, rfl⟩
    · exact ⟨_, rfl⟩
  obtain ⟨n, hnext⟩ := hnext
  unfold newConnectionCallback
  rw [hnext]
  simp only [connName, OrderedMap.find_emplace, Option.getD_some]
  rfl

end TcpServer

theorem connAt_apart : Apart connAt := by
  intro i j s c
  by_cases hij : i = j
  · rw [hij]
    exact .inl ⟨rfl, (connAt j).get_set s c⟩
  · exact .inr (Function.update_of_ne hij ..)

end MiniMuduo
