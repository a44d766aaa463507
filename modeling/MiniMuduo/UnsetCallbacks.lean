/-
# Callbacks that are not set

Every callback of a connection is a `std::function` that user code may leave
empty. `src/TcpConnection.cc` tests the write-complete, the close and, in
`ConnectEstablished` and `HandleClose`, the connection callback before it calls
them. `HandleRead` calls the message callback and `ConnectDestroyed` the
connection callback without a test: an empty one throws `bad_function_call`.

The runs here are those of `TcpServer`, in which user code also sets and clears
the callbacks of the server and of its connections, and the loops go on after
the end of the server. A step is covered when it does not reach one of the two
calls with the callback empty: a run never gets past a step that is not
covered, and a covered step calls no empty function (`no_empty_callback`).

Key definitions: `CallbackStep`, `callbackMachine`, `Destroyable`, `Covered`.
Key theorems: `Covered.step`, `covered_of_step`, `no_empty_callback`.
-/
import MiniMuduo.Lifecycle
import MiniMuduo.Regime
import MiniMuduo.TcpServer

namespace MiniMuduo

open Fallible Runs TcpConnection

/-- `SetConnectionCallback` and the like of a connection. -/
def TcpConnection.setCallback (cb : Callback) (set : Bool) (c : TcpConnection) : TcpConnection :=
  match cb with
  | .connection => { c with connectionCallback := set }
  | .message => { c with messageCallback := set }
  | .writeComplete => { c with writeCompleteCallback := set }
  | .close => { c with closeCallback := set }

/-- A step of the server's threads, or a callback is set or cleared. -/
inductive CallbackStep
  | server (a : ServerStep)
  /-- `TcpServer::SetConnectionCallback`. -/
  | setConnectionCallback (set : Bool)
  /-- `TcpServer::SetMessageCallback`. -/
  | setMessageCallback (set : Bool)
  /-- The callback of a connection. -/
  | setCallback (i : ℕ) (cb : Callback) (set : Bool)

/-- After the end of the server nothing is accepted and it does not end
again; the loops go on. -/
def callbackEnabled (s : TcpServer) : CallbackStep → Bool
  | .server (.accept sockfd writeComplete) => s.enabled (.accept sockfd writeComplete)
  | .server (.destroy connection) => s.enabled (.destroy connection)
  | .server a => { s with destroyed := false }.enabled a
  | .setCallback i _ _ => i < s.accepted.length
  | .setConnectionCallback _ | .setMessageCallback _ => true

def callbackStep (s : TcpServer) : CallbackStep → Except Fault TcpServer
  | .server a => s.step a
  | .setConnectionCallback set => .ok { s with connectionCallback := set }
  | .setMessageCallback set => .ok { s with messageCallback := set }
  | .setCallback i cb set => .ok ((connAt i).modify (TcpConnection.setCallback cb set) s)

/-- The runs of a server whose callbacks may be missing. -/
def callbackMachine : Machine TcpServer CallbackStep Fault := ⟨fun s a => callbackEnabled s a = true, callbackStep⟩

instance (s : TcpServer) (a : CallbackStep) : Decidable (callbackMachine.enabled s a) :=
  inferInstanceAs (Decidable (_ = true))

/-- `ConnectDestroyed` of this connection calls no empty function. -/
def Destroyable (c : TcpConnection) : Prop := c.connectionCallback = true ∨ ¬ c.Up

instance (c : TcpConnection) : Decidable (Destroyable c) := inferInstanceAs (Decidable (_ ∨ _))

/-- The task does not destroy a connection that is up and has no connection
callback. -/
def TaskCovered (s : TcpServer) (l : ℕ) : ServerTask → Prop
  | .connectEstablished _ => True
  | .connectDestroyed i => Destroyable (s.conns i)
  | .removeConnectionInLoop i => (s.conns i).loop = l → Destroyable (s.conns i)

/-- The step does not call an empty message callback with bytes that were
read, nor an empty connection callback in `ConnectDestroyed`. -/
def CoveredServer (s : TcpServer) : ServerStep → Prop
  | .handle l re => ∀ i, (s.round l).calls.head? = some (.handler i .read) →
      (s.conns i).messageCallback = true ∨ re.read.count ≤ 0
  | .runTask l _ => ∀ t, (s.round l).tasks.head? = some t → TaskCovered s l t
  | .destroy _ => ∀ entry ∈ s.connections.entries, Destroyable (s.conns entry.2)
  | .poll .. | .accept .. | .swap _ | .finish _ | .user .. => True

/-- The same for all steps: to set a callback calls nothing. -/
def Covered (s : TcpServer) : CallbackStep → Prop
  | .server a => CoveredServer s a
  | .setConnectionCallback _ | .setMessageCallback _ | .setCallback .. => True

/-! ### Scripts change neither the callbacks nor who is up -/

/-- User code does not move a connection in or out of `Up`. -/
theorem actPart_up {tid : ℕ} {c c' : TcpConnection} (h : ActPart tid false c c') : c'.Up ↔ c.Up := by
  constructor
  · intro hup
    by_contra hdown
    exact actPart_down hdown h hup
  · intro hup
    cases h with
    | sends hs =>
      unfold Up
      rw [sends_state hs]
      exact hup
    | shutDown =>
      rcases shutDown_cases c with ⟨-, hc⟩ | ⟨-, -, hc⟩ | ⟨-, -, hc⟩ <;> rw [hc]
      · exact hup
      · exact .inr rfl
      · exact .inr rfl
    | retrieve _ => exact hup
    | destroyDown hd => cases hd
    | destroyUp hd => cases hd
    | destroyTail hd => cases hd

theorem actPart_destroyable {tid : ℕ} {c c' : TcpConnection} (h : ActPart tid false c c') :
    Destroyable c' ↔ Destroyable c := by
  unfold Destroyable
  rw [actPart_up h, (callPart_face (.act h.weaken)).connectionCallback]

section destroyable

variable {tid i j : ℕ} {on : ℕ → Bool} {script : List (Act ℕ)} {s s' : TcpServer}

/-- A script leaves every connection as destroyable as it was. -/
theorem runActs_destroyable (hscript : scriptAllowed false on script = true) (h : runActs tid connAt script s = .ok s')
    (j : ℕ) : Destroyable (s'.conns j) ↔ Destroyable (s.conns j) := by
  have hkept : KeptBy tid false on connAt fun t => Destroyable (t.conns j) ↔ Destroyable (s.conns j) := by
    intro t i c' _ ht hpart
    rw [← ht]
    by_cases hji : j = i
    · subst hji
      show Destroyable (Function.update t.conns j c' j) ↔ _
      rw [Function.update_self]
      exact actPart_destroyable hpart
    · show Destroyable (Function.update t.conns i c' j) ↔ _
      rw [Function.update_of_ne hji]
  exact runActs_keeps connAt_apart script hscript hkept s s' Iff.rfl h

theorem destroyTail_up {c c' : TcpConnection} (h : destroyTail tid c = .ok c') : c'.Up ↔ c.Up := by
  obtain ⟨c1, hop, hrm⟩ := bind_eq_ok h
  obtain ⟨ch, -, rfl⟩ := onChannel_ok hop
  obtain ⟨ch', -, hc⟩ := bind_eq_ok hrm
  obtain rfl := Except.ok.inj hc
  rfl

/-- `ConnectDestroyed` leaves its own connection destroyable, and the
others as they were. -/
theorem connectDestroyed_destroyable (hscript : scriptAllowed false on script = true)
    (h : connectDestroyed tid (connAt i) (runActs tid connAt script) s = .ok s') :
    Destroyable (s'.conns i) ∧ ∀ j, j ≠ i → (Destroyable (s'.conns j) ↔ Destroyable (s.conns j)) := by
  obtain ⟨s1, c', htail, rfl, hcase⟩ := connectDestroyed_cases h
  have hset : ∀ (t : TcpServer) (c : TcpConnection) (j : ℕ), j ≠ i → ((connAt i).set t c).conns j = t.conns j :=
    fun t c j hj => Function.update_of_ne hj ..
  have hself : ((connAt i).set s1 c').conns i = c' := Function.update_self ..
  rcases hcase with ⟨hdown, rfl⟩ | ⟨-, c, hcore, hk⟩
  · have hdown' : ¬ c'.Up := by
      rw [destroyTail_up htail, Lens.get_set]
      exact hdown
    refine ⟨.inr (by rwa [hself]), fun j hj => ?_⟩
    rw [hset _ _ j hj, hset _ _ j hj]
  · have hdown1 : ¬ (s1.conns i).Up := by
      refine runActs_keeps connAt_apart script hscript (keptBy_down connAt_apart i) _ s1 ?_ hk
      rw [Lens.get_set]
      exact destroyCore_down hcore
    have hdown' : ¬ c'.Up := fun hup => hdown1 ((destroyTail_up htail).mp hup)
    refine ⟨.inr (by rwa [hself]), fun j hj => ?_⟩
    rw [hset _ _ j hj, runActs_destroyable hscript hk j, hset _ _ j hj]

end destroyable

/-! ### A covered step calls no empty function -/

/-- The fault is not the call of an empty function. -/
def NotEmptyCall (f : Fault) : Prop := f ≠ .badFunctionCall

/-- A result, or a fault other than the call of an empty function. -/
def CallsSet (x : Except Fault TcpServer) : Prop := Gives (fun _ => True) NotEmptyCall x

/-- Any thread may do anything to any connection. -/
theorem set_regime (tid : ℕ) : Regime tid (fun _ => True) NotEmptyCall where
  faults _ _ hf := hf
  keep _ _ _ := trivial
  own _ := .inr (by unfold NotEmptyCall; decide)

theorem governs_all (on : ℕ → Bool) : Governs (fun _ => True) on connAt fun _ => True :=
  ⟨fun _ _ => trivial, fun _ _ _ => trivial⟩

section covered

variable {s : TcpServer} {l i : ℕ} {connection : List (Act ℕ)}

/-- Scripts of the server destroy no connection. -/
theorem script_set (hscript : s.scriptOn l connection = true) (t : TcpServer) :
    CallsSet (runActs l connAt connection t) :=
  runActs_gives (set_regime l) (governs_all _) (.inr rfl) connection hscript t trivial

theorem connectDestroyed_set (hscript : s.scriptOn l connection = true) {t : TcpServer}
    (hable : Destroyable (t.conns i)) :
    CallsSet (connectDestroyed l (connAt i) (runActs l connAt connection) t) :=
  connectDestroyed_gives (set_regime l) (governs_all fun _ => true) rfl trivial (.inr hable)
    fun t _ => script_set hscript t

theorem removeConnectionInLoop_eq (tid i : ℕ) (connection : List (Act ℕ)) (s : TcpServer) :
    s.removeConnectionInLoop tid i connection =
      if tid ≠ 0 then .error .notInLoopThread
      else if (s.connections.erase (s.conns i).name).1 ≠ 1 then .error .assertion
      else if tid = (s.conns i).loop then connectDestroyed tid (connAt i) (runActs tid connAt connection)
        { s with
          connections := (s.connections.erase (s.conns i).name).2
          removed := s.removed ++ [i] }
      else .ok ({ s with
        connections := (s.connections.erase (s.conns i).name).2
        removed := s.removed ++ [i] }.queueInLoop (s.conns i).loop (.connectDestroyed i)) := by
  unfold TcpServer.removeConnectionInLoop
  by_cases htid : tid = 0
  · by_cases hn : (s.connections.erase (s.conns i).name).1 = 1
    · simp [htid, hn]
    · simp [htid, hn, throw, throwThe, MonadExceptOf.throw]
  · simp [htid, throw, throwThe, MonadExceptOf.throw]

theorem runTask_set (hscript : s.scriptOn l connection = true) {t : TcpServer} {task : ServerTask}
    (hable : TaskCovered t l task) : CallsSet (t.runTask l connection task) := by
  cases task with
  | connectEstablished i =>
    exact connectEstablished_gives (set_regime l) (governs_all fun _ => true) rfl trivial
      fun t _ => script_set hscript t
  | connectDestroyed i => exact connectDestroyed_set hscript hable
  | removeConnectionInLoop i =>
    simp only [TcpServer.runTask, removeConnectionInLoop_eq]
    split
    · exact (by decide : Fault.notInLoopThread ≠ .badFunctionCall)
    split
    · exact (by decide : Fault.assertion ≠ .badFunctionCall)
    split
    case isTrue hloop => exact connectDestroyed_set hscript (hable hloop.symm)
    case isFalse => trivial

/-- `~TcpServer`: what one connection's end does leaves the others destroyable. -/
theorem destroy_set {connection : ℕ → List (Act ℕ)}
    (hscript : ∀ entry ∈ s.connections.entries, s.scriptOn 0 (connection entry.2) = true)
    (hable : ∀ entry ∈ s.connections.entries, Destroyable (s.conns entry.2)) : CallsSet (s.destroy connection) := by
  have hloop : ∀ (entries : List (String × ℕ)) (t : TcpServer),
      (∀ entry ∈ entries, s.scriptOn 0 (connection entry.2) = true) →
      (∀ entry ∈ entries, Destroyable (t.conns entry.2)) →
      CallsSet (entries.foldlM (fun s entry =>
        connectDestroyed 0 (connAt entry.2) (runActs 0 connAt (connection entry.2)) s) t) := by
    intro entries
    induction entries with
    | nil => exact fun _ _ _ => trivial
    | cons entry entries ih =>
      intro t hscript hable
      have hself := connectDestroyed_set (hscript entry List.mem_cons_self) (hable entry List.mem_cons_self)
      rw [List.foldlM_cons]
      cases hop : connectDestroyed 0 (connAt entry.2) (runActs 0 connAt (connection entry.2)) t with
      | error f => exact hself.error_of hop
      | ok t' =>
        rw [ok_bind]
        refine ih t' (fun e he => hscript e (List.mem_cons_of_mem _ he)) fun e he => ?_
        obtain ⟨hdown, hother⟩ := connectDestroyed_destroyable (hscript entry List.mem_cons_self) hop
        by_cases heq : e.2 = entry.2
        · rwa [heq]
        · exact (hother e.2 heq).mpr (hable e (List.mem_cons_of_mem _ he))
  unfold TcpServer.destroy
  exact (hloop _ s hscript hable).bind fun _ _ => trivial

/-- A handler whose message callback is set, or that has nothing to report. -/
theorem handler_set {re : Decisions ℕ} {hd : Handler} (hw : s.scriptOn l re.writeComplete = true)
    (hm : s.scriptOn l re.message = true) (hk : s.scriptOn l re.connection = true) {t : TcpServer}
    (hset : hd = .read → (t.conns i).messageCallback = true ∨ re.read.count ≤ 0) :
    CallsSet (handle l (connAt i) (re.reaction l connAt (TcpServer.removeConnection i)) hd t) :=
  handle_gives (set_regime l) (governs_all fun _ => true) rfl trivial
    (re.reaction l connAt (TcpServer.removeConnection i)) (fun t _ => script_set hw t) (fun t _ => script_set hm t)
    (fun t _ => script_set hk t) (fun _ _ => trivial) (.inr hset)

/-- A covered step of the server. -/
theorem CoveredServer.step {a : ServerStep} (hen : callbackEnabled s (.server a) = true) (h : CoveredServer s a) :
    CallsSet (s.step a) := by
  cases a with
  | poll l ready => trivial
  | accept sockfd writeComplete =>
    simp only [TcpServer.step]
    split
    · cases sockfd <;> trivial
    · trivial
  | handle l re =>
    simp only [callbackEnabled, TcpServer.enabled, Bool.and_eq_true] at hen
    obtain ⟨⟨⟨⟨-, hw⟩, hm⟩, hk⟩, -⟩ := hen
    simp only [TcpServer.step]
    split
    case h_1 i hd calls hround =>
      refine handler_set hw hm hk fun hread => ?_
      apply h i
      rw [hround, hread]
      rfl
    case h_2 => trivial
  | swap l => trivial
  | runTask l connection =>
    simp only [callbackEnabled, TcpServer.enabled, Bool.and_eq_true] at hen
    simp only [TcpServer.step]
    split
    case h_1 task tasks hround =>
      have hable : TaskCovered s l task := h task (by rw [hround]; rfl)
      exact runTask_set hen.1.2 (t := s.setRound l (.running tasks)) (by cases task <;> exact hable)
    case h_2 => trivial
  | finish l => trivial
  | user l script =>
    simp only [callbackEnabled, TcpServer.enabled, Bool.and_eq_true] at hen
    exact script_set hen.2 s
  | destroy connection =>
    simp only [callbackEnabled, TcpServer.enabled, Bool.and_eq_true, List.all_eq_true] at hen
    exact destroy_set hen.2 h

theorem Covered.step {a : CallbackStep} (hen : callbackEnabled s a = true) (h : Covered s a) :
    callbackStep s a ≠ .error .badFunctionCall := by
  intro hst
  cases a with
  | server a => exact (CoveredServer.step hen h).error_of hst rfl
  | setConnectionCallback set => cases hst
  | setMessageCallback set => cases hst
  | setCallback i cb set => cases hst

end covered

/-! ### A step that is not covered does not return -/

section uncovered

variable {σ : Type} {tid : ℕ} {conn : Lens σ TcpConnection}

/-- A callback that was called without a test is set. -/
theorem isSet_of_invoke {cb : Callback} {k : σ → Except Fault σ} {s s' : σ} (h : invoke conn cb k s = .ok s') :
    (conn.get s).isSet cb = true := by
  unfold invoke at h
  split at h
  · assumption
  · cases h

theorem covered_of_handleRead {km k kc : σ → Except Fault σ} {r : Buffer.ReadvResult} {s s' : σ}
    (h : handleRead tid conn km k kc r s = .ok s') : (conn.get s).messageCallback = true ∨ r.count ≤ 0 := by
  unfold handleRead at h
  obtain ⟨⟨n, e, b⟩, hread, h⟩ := bind_eq_ok h
  have hcount : n = r.count := Buffer.readFd_count hread
  simp only at h
  split at h
  · have hset := isSet_of_invoke h
    rw [Lens.get_set] at hset
    exact .inl hset
  · exact .inr (by omega)

theorem destroyable_of_connectDestroyed {k : σ → Except Fault σ} {s s' : σ}
    (h : connectDestroyed tid conn k s = .ok s') : Destroyable (conn.get s) := by
  unfold connectDestroyed at h
  by_cases hup : (conn.get s).Up
  · have hup' : ((conn.get s).log (.connectDestroyed tid)).state = .kConnected ∨
        ((conn.get s).log (.connectDestroyed tid)).state = .kDisconnecting := hup
    simp only [if_pos hup'] at h
    obtain ⟨c, hop, h⟩ := bind_eq_ok h
    obtain ⟨s1, hinvoke, -⟩ := bind_eq_ok h
    have hset := isSet_of_invoke hinvoke
    obtain ⟨ch, -, rfl⟩ := onChannel_ok hop
    rw [Lens.get_set] at hset
    exact .inl hset
  · exact .inr hup

end uncovered

section uncovered

variable {s s' : TcpServer} {l : ℕ}

/-- The first connection that is not destroyable ends `~TcpServer`. -/
theorem destroyable_of_destroy {connection : ℕ → List (Act ℕ)}
    (hscript : ∀ entry ∈ s.connections.entries, s.scriptOn 0 (connection entry.2) = true)
    (h : s.destroy connection = .ok s') : ∀ entry ∈ s.connections.entries, Destroyable (s.conns entry.2) := by
  have hloop : ∀ (entries : List (String × ℕ)) (t t' : TcpServer),
      (∀ entry ∈ entries, s.scriptOn 0 (connection entry.2) = true) →
      entries.foldlM (fun s entry =>
        connectDestroyed 0 (connAt entry.2) (runActs 0 connAt (connection entry.2)) s) t = .ok t' →
      ∀ entry ∈ entries, Destroyable (t.conns entry.2) := by
    intro entries
    induction entries with
    | nil => simp
    | cons entry entries ih =>
      intro t t' hscript h
      rw [List.foldlM_cons] at h
      obtain ⟨t1, hop, h⟩ := bind_eq_ok h
      have hfirst : Destroyable (t.conns entry.2) := destroyable_of_connectDestroyed hop
      have hrest := ih t1 t' (fun e he => hscript e (List.mem_cons_of_mem _ he)) h
      obtain ⟨-, hother⟩ := connectDestroyed_destroyable (hscript entry List.mem_cons_self) hop
      intro e he
      by_cases heq : e.2 = entry.2
      · rwa [heq]
      · rcases List.mem_cons.mp he with rfl | he
        · exact absurd rfl heq
        · exact (hother e.2 heq).mp (hrest e he)
  obtain ⟨t', hfold, -⟩ := bind_eq_ok h
  exact hloop _ s t' hscript hfold

theorem taskCovered_of_runTask {connection : List (Act ℕ)} {task : ServerTask}
    (h : s.runTask l connection task = .ok s') : TaskCovered s l task := by
  cases task with
  | connectEstablished i => trivial
  | connectDestroyed i => exact destroyable_of_connectDestroyed h
  | removeConnectionInLoop i =>
    intro hloop
    simp only [TcpServer.runTask, removeConnectionInLoop_eq, hloop] at h
    split at h
    · cases h
    split at h
    · cases h
    exact destroyable_of_connectDestroyed h

theorem coveredServer_of_step {a : ServerStep} (hen : callbackEnabled s (.server a) = true)
    (h : s.step a = .ok s') : CoveredServer s a := by
  cases a with
  | poll l ready => trivial
  | accept sockfd writeComplete => trivial
  | handle l re =>
    intro i hnext
    simp only [TcpServer.step] at h
    split at h
    case h_1 j hd calls hround =>
      rw [hround] at hnext
      obtain ⟨rfl, rfl⟩ := ChannelCall.handler.inj (Option.some.inj hnext)
      have hread := covered_of_handleRead h
      rw [Lens.get_modify] at hread
      exact hread
    case h_2 =>
      simp only [callbackEnabled, TcpServer.enabled, Bool.and_eq_true] at hen
      exact absurd hen.2 (by simp)
  | swap l => trivial
  | runTask l connection =>
    intro t hnext
    simp only [TcpServer.step] at h
    split at h
    case h_1 task tasks hround =>
      rw [hround] at hnext
      obtain rfl := Option.some.inj hnext
      have hable := taskCovered_of_runTask h
      cases task <;> exact hable
    case h_2 =>
      simp only [callbackEnabled, TcpServer.enabled, Bool.and_eq_true] at hen
      exact absurd hen.2 (by simp)
  | finish l => trivial
  | user l script => trivial
  | destroy connection =>
    simp only [callbackEnabled, TcpServer.enabled, Bool.and_eq_true, List.all_eq_true] at hen
    exact destroyable_of_destroy hen.2 h

/-- A step that returns was covered. -/
theorem covered_of_step {a : CallbackStep} (hen : callbackEnabled s a = true) (h : callbackStep s a = .ok s') :
    Covered s a := by
  cases a with
  | server a => exact coveredServer_of_step hen h
  | setConnectionCallback set => trivial
  | setMessageCallback set => trivial
  | setCallback i cb set => trivial

end uncovered

/-- **A handler calls no empty function, if the two calls without a test are
covered.** Whatever callbacks are set on a server and its connections, at
first and later, and whatever its threads do: every step of a run was covered,
so that a run does not get past a step that is not, and a covered step calls no
empty function. -/
theorem no_empty_callback (name : String) (connectionCallback messageCallback : Bool) (numThreads : ℕ)
    {tr : List (TcpServer × CallbackStep)} {s : TcpServer}
    (hr : Run callbackMachine (TcpServer.start name connectionCallback messageCallback numThreads) tr s) :
    (∀ p ∈ tr, Covered p.1 p.2) ∧
      ∀ a, callbackMachine.enabled s a →
        (Covered s a → callbackMachine.step s a ≠ .error .badFunctionCall) ∧
        (¬ Covered s a → ∀ s', callbackMachine.step s a ≠ .ok s') := by
  refine ⟨fun p hp => ?_, fun a hen => ⟨fun h => h.step hen, fun hnot s' hst => hnot (covered_of_step hen hst)⟩⟩
  obtain ⟨hen, s', hst⟩ := hr.taken p hp
  exact covered_of_step hen hst

/-- A server with no callback at all: a connection is accepted, its message
callback is set, it reads and is closed by the peer, and then the server is
destroyed. -/
theorem no_empty_callback_message_only :
    let steps : List CallbackStep := [.server (.poll 0 [(.acceptor, { epollIn := true })]),
      .server (.accept (some 7) false), .setCallback 0 .message true, .server (.swap 0), .server (.runTask 0 []),
      .server (.finish 0), .server (.poll 0 [(.connection 0, { epollIn := true })]),
      .server (.handle 0 { read := .read [1, 2, 3] }), .server (.swap 0), .server (.finish 0),
      .server (.poll 0 [(.connection 0, { epollIn := true })]), .server (.handle 0 { read := .read [] })]
    let s := final callbackMachine (TcpServer.start "s" false false 0) steps
    callbackMachine.step s (.server (.destroy fun _ => [])) ≠ .error .badFunctionCall := by
  intro steps s
  have hcovered : Covered s (.server (.destroy fun _ => [])) := by
    show ∀ entry ∈ s.connections.entries, Destroyable (s.conns entry.2)
    decide +kernel
  have hr := run_of_accepts (M := callbackMachine) steps (TcpServer.start "s" false false 0) (by decide +kernel)
  exact ((no_empty_callback "s" false false 0 hr).2 _ (by decide +kernel)).1 hcovered

/-- Without a message callback the first bytes that arrive make `HandleRead`
throw; without a connection callback the end of the server does, when a
connection is up. -/
theorem empty_callbacks_called :
    let steps : List CallbackStep := [.server (.poll 0 [(.acceptor, { epollIn := true })]),
      .server (.accept (some 7) false), .server (.swap 0), .server (.runTask 0 []), .server (.finish 0),
      .server (.poll 0 [(.connection 0, { epollIn := true })])]
    let s₁ := final callbackMachine (TcpServer.start "s" true false 0) steps
    let s₂ := final callbackMachine (TcpServer.start "s" false true 0) steps
    let read : CallbackStep := .server (.handle 0 { read := .read [1, 2, 3] })
    let destroy : CallbackStep := .server (.destroy fun _ => [])
    accepts callbackMachine (TcpServer.start "s" true false 0) steps = true ∧
      accepts callbackMachine (TcpServer.start "s" false true 0) steps = true ∧
      (callbackMachine.enabled s₁ read ∧ callbackMachine.step s₁ read = .error .badFunctionCall) ∧
      callbackMachine.enabled s₂ destroy ∧ callbackMachine.step s₂ destroy = .error .badFunctionCall :=
  ⟨by decide +kernel, by decide +kernel, ⟨by decide +kernel, eq_error_of_fault? (by decide +kernel)⟩,
    by decide +kernel, eq_error_of_fault? (by decide +kernel)⟩

end MiniMuduo
