/-
# Channels stay on the thread of their loop

`UpdateChannel` refuses a call of another thread and `RemoveChannel` aborts
on it. Every function of a connection that runs on the connection's own
thread touches its channel from there, with all the user code it calls on
connections of the same loop, and does not reach the abort (`Stays`,
`confined_regime`). The hops of the server keep to that rule (`RunInLoop`,
`QueueInLoop`), but the destructor: it calls `ConnectDestroyed` from the base
loop's thread on every connection, whatever its loop.

Key definitions: `Confined`, `Stays`, `Guards`, `Threads`, `Hops`.
Key theorems: `confined_regime`, `runActs_stays`, `handle_stays`,
`connectDestroyed_stays`, `channels_confined`.
-/
import MiniMuduo.Regime
import MiniMuduo.TcpServer

namespace MiniMuduo

open Fallible Runs TcpConnection

/-- A connection of the loop `tid` whose channel only that thread has
touched. -/
structure Confined (tid : ℕ) (c : TcpConnection) : Prop where
  loop : c.loop = tid
  trace : ∀ e ∈ c.trace, e.onThread tid = true

/-- The fault is not the abort of `AssertInLoopThread`. -/
def NotAbort (f : Fault) : Prop := f ≠ .notInLoopThread

/-- A result satisfies `P`, and there is no abort for the wrong thread. -/
def Stays {α : Type} (P : α → Prop) (x : Except Fault α) : Prop := Gives P NotAbort x

theorem stays_bind {α β : Type} {P : α → Prop} {Q : β → Prop} {x : Except Fault α} {f : α → Except Fault β}
    (h : Stays P x) (hf : ∀ a, P a → Stays Q (f a)) : Stays Q (x >>= f) :=
  Gives.bind h hf

theorem stays_error {α : Type} {P : α → Prop} {f : Fault} (hf : f ≠ .notInLoopThread) :
    Stays P (.error f : Except Fault α) :=
  hf

/-- What the loop's own thread does on the channel is confined. -/
theorem confined_regime (tid : ℕ) : Regime tid (Confined tid) NotAbort where
  faults _ hf _ := hf
  keep h hloop htrace := ⟨hloop.trans h.loop, fun e he => (htrace e he).elim (h.trace e) id⟩
  own h := .inl h.loop.symm

/-! ### The functions of a connection on its own thread -/

section functions

variable {σ ι : Type} {tid : ℕ} {d : Bool} {on : ι → Bool} {conn : ι → Lens σ TcpConnection} {Q : σ → Prop}

/-- `Q` holds only where the connections `on` are confined to `tid`, and
depends on them in no other way. -/
structure Guards (tid : ℕ) (on : ι → Bool) (conn : ι → Lens σ TcpConnection) (Q : σ → Prop) : Prop where
  own : ∀ {s i}, on i = true → Q s → Confined tid ((conn i).get s)
  set : ∀ {s i c}, on i = true → Q s → Confined tid c → Q ((conn i).set s c)

theorem Guards.governs (hg : Guards tid on conn Q) : Governs (Confined tid) on conn Q := ⟨hg.own, hg.set⟩

/-- The call of an empty function is not the abort. -/
theorem notAbort_badFunctionCall : NotAbort .badFunctionCall := by
  unfold NotAbort
  decide

variable (hg : Guards tid on conn Q) {i : ι} (hi : on i = true) {s : σ}

include hg

/-- A script on connections of its own loop. -/
theorem runActs_stays (as : List (Act ι)) (has : scriptAllowed d on as = true) :
    ∀ s, Q s → Stays Q (runActs tid conn as s) :=
  runActs_gives (confined_regime tid) hg.governs (.inl notAbort_badFunctionCall) as has

include hi

theorem connectEstablished_stays (hs : Q s) {k : σ → Except Fault σ} (hk : ∀ s, Q s → Stays Q (k s)) :
    Stays Q (connectEstablished tid (conn i) k s) :=
  connectEstablished_gives (confined_regime tid) hg.governs hi hs hk

theorem connectDestroyed_stays (hs : Q s) {k : σ → Except Fault σ} (hk : ∀ s, Q s → Stays Q (k s)) :
    Stays Q (connectDestroyed tid (conn i) k s) :=
  connectDestroyed_gives (confined_regime tid) hg.governs hi hs (.inl notAbort_badFunctionCall) hk

/-- A handler, with a reaction whose callbacks stay. -/
theorem handle_stays (hs : Q s) (re : Reaction σ) (hw : ∀ s, Q s → Stays Q (re.writeComplete s))
    (hm : ∀ s, Q s → Stays Q (re.message s)) (hk : ∀ s, Q s → Stays Q (re.connection s))
    (hkc : ∀ s, Q s → Stays Q (re.close s)) (h : Handler) : Stays Q (handle tid (conn i) re h s) :=
  handle_gives (confined_regime tid) hg.governs hi hs re hw hm hk hkc (.inl notAbort_badFunctionCall)

end functions

/-! ### The server -/

namespace TcpServer

/-- The task may run on the loop `l`. -/
def Belongs (s : TcpServer) (l : ℕ) : ServerTask → Prop
  | .connectEstablished i | .connectDestroyed i => s.onLoop l i = true
  | .removeConnectionInLoop i => l = 0 ∧ i < s.accepted.length

/-- Every connection has been touched by its own thread only, and what is
left to do for a connection is left to its loop. -/
structure Threads (s : TcpServer) : Prop where
  conns : ∀ i < s.accepted.length, Confined (s.conns i).loop (s.conns i)
  calls : ∀ l i h, .handler i h ∈ (s.round l).calls → s.onLoop l i = true
  tasks : ∀ l, ∀ t ∈ s.tasks l, s.Belongs l t
  entries : ∀ e ∈ s.connections.entries, e.2 < s.accepted.length

/-- The same connections on the same loops. -/
structure SameLoops (s s' : TcpServer) : Prop where
  accepted : s'.accepted = s.accepted
  loop : ∀ i, (s'.conns i).loop = (s.conns i).loop

variable {s s' : TcpServer} {l i : ℕ}

namespace SameLoops

theorem refl (s : TcpServer) : SameLoops s s := ⟨rfl, fun _ => rfl⟩

theorem trans {s'' : TcpServer} (h : SameLoops s s') (h' : SameLoops s' s'') : SameLoops s s'' :=
  ⟨h'.accepted.trans h.accepted, fun i => (h'.loop i).trans (h.loop i)⟩

theorem onLoop (h : SameLoops s s') (l i : ℕ) : s'.onLoop l i = s.onLoop l i := by
  unfold TcpServer.onLoop
  rw [h.accepted, h.loop]

theorem belongs (h : SameLoops s s') {t : ServerTask} (ht : s.Belongs l t) : s'.Belongs l t := by
  cases t with
  | connectEstablished i => exact (h.onLoop l i).trans ht
  | removeConnectionInLoop i => exact ⟨ht.1, h.accepted ▸ ht.2⟩
  | connectDestroyed i => exact (h.onLoop l i).trans ht

end SameLoops

namespace Threads

theorem confined (h : Threads s) (hi : s.onLoop l i = true) : Confined l (s.conns i) := by
  obtain ⟨hlt, hloop⟩ := onLoop_iff.mp hi
  rw [← hloop]
  exact h.conns i hlt

/-- A connection changes under its own thread. -/
theorem setConn (h : Threads s) (hi : s.onLoop l i = true) {c : TcpConnection} (hc : Confined l c) :
    Threads ((connAt i).set s c) ∧ SameLoops s ((connAt i).set s c) := by
  obtain ⟨hlt, hloop⟩ := onLoop_iff.mp hi
  have hsame : SameLoops s ((connAt i).set s c) := by
    refine ⟨rfl, fun j => ?_⟩
    by_cases hj : j = i
    · rw [hj]
      show (Function.update s.conns i c i).loop = _
      rw [Function.update_self, hc.loop, hloop]
    · show (Function.update s.conns i c j).loop = _
      rw [Function.update_of_ne hj]
  refine ⟨⟨fun j hj => ?_, fun l' j hd hmem => ?_, fun l' t ht => ?_, h.entries⟩, hsame⟩
  · rw [hsame.loop]
    by_cases hji : j = i
    · rw [hji, hloop]
      show Confined l (Function.update s.conns i c i)
      rwa [Function.update_self]
    · show Confined _ (Function.update s.conns i c j)
      rw [Function.update_of_ne hji]
      exact h.conns j hj
  · rw [hsame.onLoop]
    exact h.calls l' j hd hmem
  · exact hsame.belongs (h.tasks l' t ht)

/-- What the functions of the loop `l` keep. -/
theorem guards (s : TcpServer) (l : ℕ) :
    Guards l (s.onLoop l) connAt fun s' => Threads s' ∧ SameLoops s s' where
  own hi h := h.1.confined ((h.2.onLoop l _).trans hi)
  set hi h hc := by
    obtain ⟨h1, hsame⟩ := h.1.setConn ((h.2.onLoop l _).trans hi) hc
    exact ⟨h1, h.2.trans hsame⟩

theorem queueInLoop (h : Threads s) {t : ServerTask} (ht : s.Belongs l t) : Threads (s.queueInLoop l t) := by
  refine ⟨h.conns, h.calls, fun l' t' ht' => ?_, h.entries⟩
  rw [queueInLoop_tasks] at ht'
  have hsame : SameLoops s (s.queueInLoop l t) := ⟨rfl, fun _ => rfl⟩
  split at ht'
  case isTrue heq =>
    rcases List.mem_append.mp ht' with ht' | ht'
    · exact hsame.belongs (h.tasks l' t' ht')
    · rw [List.mem_singleton.mp ht', heq]
      exact hsame.belongs ht
  case isFalse => exact hsame.belongs (h.tasks l' t' ht')

/-- A round goes on: what it has left was left before. -/
theorem setRound (h : Threads s) {r : Round} (hcalls : ∀ i hd, .handler i hd ∈ r.calls → s.onLoop l i = true)
    (htasks : ∀ t ∈ r.tasks, s.Belongs l t) : Threads (s.setRound l r) := by
  have hsame : SameLoops s (s.setRound l r) := ⟨rfl, fun _ => rfl⟩
  refine ⟨h.conns, fun l' i hd hmem => ?_, fun l' t ht => ?_, h.entries⟩
  · rw [setRound_round] at hmem
    split at hmem
    case isTrue heq =>
      rw [heq]
      exact hcalls i hd hmem
    case isFalse => exact h.calls l' i hd hmem
  · unfold TcpServer.tasks at ht
    rw [setRound_round] at ht
    rcases List.mem_append.mp ht with ht | ht
    · split at ht
      case isTrue heq =>
        rw [heq]
        exact hsame.belongs (htasks t ht)
      case isFalse => exact hsame.belongs (h.tasks l' t (List.mem_append_left _ ht))
    · exact hsame.belongs (h.tasks l' t (List.mem_append_right _ ht))

/-- A connection is made for a new fd. -/
theorem addConn (h : Threads s) {next : ℕ} {nextConnId : ℤ} (sockfd loop : ℕ) (name key : String)
    (hs' : s' = { s with
      next := next
      nextConnId := nextConnId
      accepted := s.accepted ++ [sockfd]
      conns := Function.update s.conns s.accepted.length (TcpConnection.create loop name sockfd)
      connections := s.connections.emplace key s.accepted.length }) : Threads s' := by
  have hlen : s'.accepted.length = s.accepted.length + 1 := by
    rw [hs']
    exact List.length_append
  have hold : ∀ i < s.accepted.length, s'.conns i = s.conns i := by
    intro i hi
    rw [hs']
    exact Function.update_of_ne (Nat.ne_of_lt hi) ..
  have hnew : s'.conns s.accepted.length = TcpConnection.create loop name sockfd := by
    rw [hs']
    exact Function.update_self ..
  have honLoop : ∀ l i, s.onLoop l i = true → s'.onLoop l i = true := by
    intro l i hi
    obtain ⟨hlt, hloop⟩ := onLoop_iff.mp hi
    exact onLoop_iff.mpr ⟨by omega, (congrArg TcpConnection.loop (hold i hlt)).trans hloop⟩
  have hbelongs : ∀ l t, s.Belongs l t → s'.Belongs l t := by
    intro l t ht
    cases t with
    | connectEstablished i => exact honLoop l i ht
    | removeConnectionInLoop i => exact ⟨ht.1, by have := ht.2; omega⟩
    | connectDestroyed i => exact honLoop l i ht
  refine ⟨fun i hi => ?_, fun l i hd hmem => ?_, fun l t ht => ?_, fun e he => ?_⟩
  · by_cases hlt : i < s.accepted.length
    · rw [hold i hlt]
      exact h.conns i hlt
    · have heq : i = s.accepted.length := by omega
      rw [heq, hnew]
      exact ⟨rfl, fun e he => by cases he⟩
  · rw [hs'] at hmem
    exact honLoop l i (h.calls l i hd hmem)
  · rw [hs'] at ht
    exact hbelongs l t (h.tasks l t ht)
  · rw [hs'] at he
    rcases (OrderedMap.mem_emplace _).mp he with he | ⟨rfl, -⟩
    · have := h.entries e he
      omega
    · exact hlen ▸ Nat.lt_succ_self _

end Threads

/-- The steps whose hops go to the right thread: a new connection does not
take the name of one that is on another loop, and the server is destroyed
when all its connections are on the base loop. -/
def Hops (s : TcpServer) : ServerStep → Prop
  | .accept _ _ => ∀ j ∈ s.connections.find s.connName, (s.conns j).loop = s.getNextLoop.1
  | .destroy _ => ∀ entry ∈ s.connections.entries, (s.conns entry.2).loop = 0
  | _ => True

instance (s : TcpServer) : (a : ServerStep) → Decidable (s.Hops a)
  | .accept _ _ => inferInstanceAs (Decidable (∀ j ∈ s.connections.find s.connName, _))
  | .destroy _ => inferInstanceAs (Decidable (∀ entry ∈ s.connections.entries, _))
  | .poll _ _ | .handle _ _ | .swap _ | .runTask _ _ | .finish _ | .user _ _ => inferInstanceAs (Decidable True)

namespace Threads

theorem newConnectionCallback (h : Threads s) (sockfd : ℕ) (writeComplete : Bool)
    (hhop : ∀ j, s.connections.find s.connName = some j → (s.conns j).loop = s.getNextLoop.1) :
    Threads (s.newConnectionCallback sockfd writeComplete) := by
  rw [newConnectionCallback_eq]
  set conn := (s.connections.find s.connName).getD s.accepted.length with hconn
  set s1 : TcpServer := { s with
    next := s.getNextLoop.2.next
    nextConnId := Word.int32 (s.nextConnId + 1)
    accepted := s.accepted ++ [sockfd]
    conns := Function.update s.conns s.accepted.length
      (TcpConnection.create s.getNextLoop.1 s.connName sockfd)
    connections := s.connections.emplace s.connName s.accepted.length } with hs1
  have h1 : Threads s1 := h.addConn sockfd s.getNextLoop.1 s.connName s.connName hs1
  have hlen : s1.accepted.length = s.accepted.length + 1 := List.length_append
  have hloop : s1.onLoop s.getNextLoop.1 conn = true := by
    rw [onLoop_iff]
    cases hfind : s.connections.find s.connName with
    | none =>
      rw [hconn, hfind]
      refine ⟨hlen ▸ Nat.lt_succ_self _, ?_⟩
      show (Function.update s.conns s.accepted.length _ s.accepted.length).loop = _
      rw [Function.update_self]
      rfl
    | some j =>
      have hlt : j < s.accepted.length := h.entries _ ((OrderedMap.find_eq_some_iff _).mp hfind)
      rw [hconn, hfind]
      refine ⟨by rw [hlen]; exact Nat.lt_succ_of_lt hlt, ?_⟩
      exact (congrArg TcpConnection.loop (Function.update_of_ne (Nat.ne_of_lt hlt) ..)).trans (hhop j hfind)
  have hc := h1.confined hloop
  obtain ⟨h2, hsame⟩ := h1.setConn hloop (c := s.setCallbacks writeComplete (s1.conns conn)) ⟨hc.loop, hc.trace⟩
  exact h2.queueInLoop ((hsame.onLoop _ _).trans hloop)

theorem setRevents (h : Threads s) {ready : List (ChannelRef × Events)}
    (hr : ∀ r ∈ ready, ∀ i, r.1 = .connection i → s.onLoop l i = true) :
    Threads (s.setRevents ready) ∧ SameLoops s (s.setRevents ready) := by
  unfold TcpServer.setRevents
  induction ready generalizing s with
  | nil => exact ⟨h, .refl s⟩
  | cons r ready ih =>
    rw [List.foldl_cons]
    obtain ⟨ref, ev⟩ := r
    cases ref with
    | acceptor => exact ih h fun r hmem => hr r (List.mem_cons_of_mem _ hmem)
    | connection i =>
      have hi : s.onLoop l i = true := hr _ List.mem_cons_self i rfl
      have hc := h.confined hi
      obtain ⟨h1, hsame⟩ := h.setConn hi
        (c := { s.conns i with channel := { (s.conns i).channel with revents := ev } }) ⟨hc.loop, hc.trace⟩
      obtain ⟨h2, hsame2⟩ := ih h1 fun r hmem j hj =>
        (hsame.onLoop l j).trans (hr r (List.mem_cons_of_mem _ hmem) j hj)
      exact ⟨h2, hsame.trans hsame2⟩

/-- `RemoveConnectionInLoop` on the base loop. -/
theorem removeConnectionInLoop (h : Threads s) (hi : i < s.accepted.length) {connection : List (Act ℕ)}
    (hscript : s.scriptOn 0 connection = true) : Stays Threads (s.removeConnectionInLoop 0 i connection) := by
  unfold TcpServer.removeConnectionInLoop
  simp only [ne_eq, not_true_eq_false, if_false]
  split
  · exact stays_error (by decide)
  · have h1 : Threads { s with
        connections := (s.connections.erase (s.conns i).name).2
        removed := s.removed ++ [i] } :=
      ⟨h.conns, h.calls, h.tasks, fun e he => h.entries e ((OrderedMap.mem_erase _).mp he).1⟩
    split
    case isTrue hloop =>
      have hon : s.onLoop 0 i = true := onLoop_iff.mpr ⟨hi, hloop.symm⟩
      have hg := guards { s with
        connections := (s.connections.erase (s.conns i).name).2
        removed := s.removed ++ [i] } 0
      have hstay := connectDestroyed_stays hg hon ⟨h1, .refl _⟩ (runActs_stays hg connection hscript)
      exact hstay.mono fun s' hs' => hs'.1
    case isFalse => exact h1.queueInLoop (onLoop_iff.mpr ⟨hi, rfl⟩)

theorem runTask (h : Threads s) {t : ServerTask} (ht : s.Belongs l t) {connection : List (Act ℕ)}
    (hscript : s.scriptOn l connection = true) : Stays Threads (s.runTask l connection t) := by
  have hg := guards s l
  have hk := runActs_stays hg connection hscript
  cases t with
  | connectEstablished i => exact (connectEstablished_stays hg ht ⟨h, .refl s⟩ hk).mono fun s' hs' => hs'.1
  | removeConnectionInLoop i =>
    obtain ⟨rfl, hi⟩ := ht
    exact h.removeConnectionInLoop hi hscript
  | connectDestroyed i => exact (connectDestroyed_stays hg ht ⟨h, .refl s⟩ hk).mono fun s' hs' => hs'.1

theorem handle (h : Threads s) (hi : s.onLoop l i = true) {re : Decisions ℕ} (hd : Handler)
    (hw : s.scriptOn l re.writeComplete = true) (hm : s.scriptOn l re.message = true)
    (hk : s.scriptOn l re.connection = true) :
    Stays Threads (TcpConnection.handle l (connAt i) (re.reaction l connAt (removeConnection i)) hd s) := by
  have hg := guards s l
  have hclose : ∀ s', Threads s' ∧ SameLoops s s' →
      Stays (fun s' => Threads s' ∧ SameLoops s s') (removeConnection i s') := by
    rintro s' ⟨h', hsame⟩
    have hlt : i < s'.accepted.length := by
      rw [hsame.accepted]
      exact (onLoop_iff.mp hi).1
    exact ⟨h'.queueInLoop ⟨rfl, hlt⟩, hsame.trans ⟨rfl, fun _ => rfl⟩⟩
  have hstay := handle_stays hg hi ⟨h, .refl s⟩ (re.reaction l connAt (removeConnection i))
    (runActs_stays hg _ hw) (runActs_stays hg _ hm) (runActs_stays hg _ hk) hclose hd
  exact hstay.mono fun s' hs' => hs'.1

/-- `~TcpServer`, all connections being on the base loop. -/
theorem destroy (h : Threads s) (hall : ∀ entry ∈ s.connections.entries, (s.conns entry.2).loop = 0)
    {connection : ℕ → List (Act ℕ)}
    (hscript : ∀ entry ∈ s.connections.entries, s.scriptOn 0 (connection entry.2) = true) :
    Stays Threads (s.destroy connection) := by
  have hg := guards s 0
  have hloop : Stays (fun s' => Threads s' ∧ SameLoops s s') (s.connections.entries.foldlM
      (fun s entry => connectDestroyed 0 (connAt entry.2) (runActs 0 connAt (connection entry.2)) s) s) := by
    refine Gives.foldlM ⟨h, .refl s⟩ fun s' hs' entry hentry => ?_
    have hon : s.onLoop 0 entry.2 = true := onLoop_iff.mpr ⟨h.entries entry hentry, hall entry hentry⟩
    exact connectDestroyed_stays hg hon hs' (runActs_stays hg _ (hscript entry hentry))
  unfold TcpServer.destroy
  exact stays_bind hloop fun s' hs' => ⟨hs'.1.conns, hs'.1.calls, hs'.1.tasks, hs'.1.entries⟩

theorem poll (h : Threads s) {ready : List (ChannelRef × Events)}
    (hreport : ∀ r ∈ ready, s.canReport l r = true) : Stays Threads (s.step (.poll l ready)) := by
  have hon : ∀ r ∈ ready, ∀ i, r.1 = .connection i → s.onLoop l i = true := by
    intro r hr i hi
    have hcan := hreport r hr
    unfold canReport at hcan
    rw [hi] at hcan
    exact (Bool.and_eq_true_iff.mp hcan).1
  obtain ⟨h1, hsame⟩ := h.setRevents hon
  refine h1.setRound (fun i hd hmem => ?_) fun t ht => by cases ht
  obtain ⟨r, hr, hcall⟩ := List.mem_flatMap.mp hmem
  obtain ⟨ref, ev⟩ := r
  rw [hsame.onLoop]
  cases ref with
  | acceptor =>
    simp only [ChannelRef.calls] at hcall
    split at hcall <;> simp at hcall
  | connection j =>
    obtain ⟨hd', -, heq⟩ := List.mem_map.mp hcall
    cases heq
    exact hon _ hr i rfl

/-- The next call of a round is taken. -/
theorem nextCall (h : Threads s) {call : ChannelCall} {calls : List ChannelCall}
    (hround : s.round l = .handling (call :: calls)) : Threads (s.setRound l (.handling calls)) := by
  refine h.setRound (fun i hd hmem => ?_) fun t ht => by cases ht
  apply h.calls l i hd
  rw [hround]
  exact List.mem_cons_of_mem _ hmem

theorem swap (h : Threads s) : Stays Threads (s.step (.swap l)) := by
  have h1 : Threads (s.setRound l (.running (s.pending l))) :=
    h.setRound (fun i hd hmem => by cases hmem) fun t ht => h.tasks l t (List.mem_append_right _ ht)
  refine ⟨h1.conns, h1.calls, fun l' t ht => ?_, h1.entries⟩
  apply h1.tasks l' t
  rcases List.mem_append.mp ht with ht | ht
  · exact List.mem_append_left _ ht
  · by_cases hl : l' = l
    · rw [hl] at ht
      simp only [Function.update_self] at ht
      cases ht
    · simp only [Function.update_of_ne hl] at ht
      exact List.mem_append_right _ ht

/-- The next task of a round is taken, and it belongs there. -/
theorem nextTask (h : Threads s) {t : ServerTask} {tasks : List ServerTask}
    (hround : s.round l = .running (t :: tasks)) :
    Threads (s.setRound l (.running tasks)) ∧ (s.setRound l (.running tasks)).Belongs l t := by
  have hleft : ∀ t' ∈ t :: tasks, s.Belongs l t' := by
    intro t' ht'
    apply h.tasks l t'
    unfold TcpServer.tasks
    rw [hround]
    exact List.mem_append_left _ ht'
  have hsame : SameLoops s (s.setRound l (.running tasks)) := ⟨rfl, fun _ => rfl⟩
  refine ⟨?_, hsame.belongs (hleft t List.mem_cons_self)⟩
  exact h.setRound (fun i hd hmem => by cases hmem) fun t' ht' => hleft t' (List.mem_cons_of_mem _ ht')

theorem step (h : Threads s) {a : ServerStep} (hen : s.enabled a = true) (hhop : s.Hops a) :
    Stays Threads (s.step a) := by
  cases a with
  | poll l ready =>
    simp only [enabled, Bool.and_eq_true, List.all_eq_true, decide_eq_true_eq] at hen
    exact h.poll hen.2
  | accept sockfd writeComplete =>
    simp only [TcpServer.step]
    split
    case h_1 calls hround =>
      cases sockfd with
      | none => exact h.nextCall hround
      | some sockfd =>
        refine (h.nextCall hround).newConnectionCallback sockfd writeComplete fun j hj => ?_
        rw [getNextLoop_fst]
        exact (hhop j hj).trans (getNextLoop_fst s)
    case h_2 => exact h
  | handle l re =>
    simp only [enabled, Bool.and_eq_true] at hen
    obtain ⟨⟨⟨⟨-, hw⟩, hm⟩, hk⟩, -⟩ := hen
    simp only [TcpServer.step]
    split
    case h_1 i hd calls hround =>
      have hi : s.onLoop l i = true := by
        apply h.calls l i hd
        rw [hround]
        exact List.mem_cons_self
      exact (h.nextCall hround).handle hi hd hw hm hk
    case h_2 => exact h
  | swap l => exact h.swap
  | runTask l connection =>
    simp only [enabled, Bool.and_eq_true] at hen
    obtain ⟨⟨-, hscript⟩, -⟩ := hen
    simp only [TcpServer.step]
    split
    case h_1 t tasks hround =>
      obtain ⟨h1, hbelongs⟩ := h.nextTask hround
      exact h1.runTask hbelongs hscript
    case h_2 => exact h
  | finish l =>
    exact h.setRound (fun i hd hmem => by cases hmem) fun t ht => by cases ht
  | user l script =>
    simp only [enabled, Bool.and_eq_true] at hen
    have hstay := runActs_stays (guards s l) script hen.2 s ⟨h, .refl s⟩
    exact hstay.mono fun s' hs' => hs'.1
  | destroy connection =>
    simp only [enabled, Bool.and_eq_true, List.all_eq_true] at hen
    exact h.destroy hhop hen.2

end Threads

theorem start_threads (name : String) (connectionCallback messageCallback : Bool) (numThreads : ℕ) :
    Threads (start name connectionCallback messageCallback numThreads) := by
  refine ⟨fun i hi => ?_, fun l i hd hmem => ?_, fun l t ht => ?_, fun e he => ?_⟩
  · cases hi
  · cases hmem
  · cases ht
  · cases he

end TcpServer

open TcpServer

/-- **Channels stay on the thread of their loop, as long as the hops go
there.** In every interleaving of a server's threads, with any number of IO
threads, in which no new connection takes the name of one on another loop
and the server is destroyed only when the connections it holds are on the
base loop: every update and every removal of a connection's channel was made
by the thread of the connection's loop, so none was refused, and no step
that goes on like that ends in the abort of `AssertInLoopThread`. -/
theorem channels_confined (name : String) (connectionCallback messageCallback : Bool) (numThreads : ℕ)
    {tr : List (TcpServer × ServerStep)} {s : TcpServer}
    (hr : Run serverMachine (TcpServer.start name connectionCallback messageCallback numThreads) tr s)
    (hhops : ∀ p ∈ tr, p.1.Hops p.2) :
    (∀ i < s.accepted.length, ∀ tid,
      .updateChannel tid ∈ (s.conns i).trace ∨ .removeChannel tid ∈ (s.conns i).trace → tid = (s.conns i).loop) ∧
    ∀ a, s.enabled a = true → s.Hops a → s.step a ≠ .error .notInLoopThread := by
  have h : Threads s := hr.invariant (P := fun s a => s.Hops a)
    (fun s a s' h hen hhop hst => (h.step hen hhop).ok_of hst)
    (start_threads name connectionCallback messageCallback numThreads) hhops
  refine ⟨fun i hi tid hmem => ?_, fun a hen hhop hst => (h.step hen hhop).error_of hst rfl⟩
  rcases hmem with hmem | hmem
  · exact of_decide_eq_true ((h.conns i hi).trace _ hmem)
  · exact of_decide_eq_true ((h.conns i hi).trace _ hmem)

/-- A server without IO threads is destroyed while a connection is up. -/
theorem channels_confined_base_loop :
    let steps : List ServerStep := [.poll 0 [(.acceptor, { epollIn := true })], .accept (some 7) false, .swap 0,
      .runTask 0 [.send 0 [1, 2] (.wrote 1) []], .finish 0, .poll 0 [(.connection 0, { epollOut := true })],
      .handle 0 { write := .wrote 1 }, .destroy fun _ => []]
    let s := final serverMachine (TcpServer.start "s" true true 0) steps
    .removeChannel 0 ∈ (s.conns 0).trace ∧ ∀ tid,
      .updateChannel tid ∈ (s.conns 0).trace ∨ .removeChannel tid ∈ (s.conns 0).trace → tid = (s.conns 0).loop :=
  ⟨by decide +kernel, (channels_confined "s" true true 0 (run_of_accepts _ _ (by decide +kernel))
    (by decide +kernel)).1 0 (by decide +kernel)⟩

/-- The server has one IO thread and a connection on it, and is destroyed:
the base loop's thread aborts in the removal of the connection's channel. -/
theorem destructor_aborts :
    ¬ ∀ (name : String) (connectionCallback messageCallback : Bool) (numThreads : ℕ)
      (tr : List (TcpServer × ServerStep)) (s : TcpServer),
      Run serverMachine (TcpServer.start name connectionCallback messageCallback numThreads) tr s →
      (∀ i < s.accepted.length, ∀ tid, .updateChannel tid ∈ (s.conns i).trace ∨
        .removeChannel tid ∈ (s.conns i).trace → tid = (s.conns i).loop) ∧
      ∀ a, s.enabled a = true → s.step a ≠ .error .notInLoopThread := by
  intro h
  have hr := run_of_accepts (M := serverMachine) [.poll 0 [(.acceptor, { epollIn := true })], .accept (some 7) false,
    .poll 1 [], .swap 1, .runTask 1 [], .finish 1] (TcpServer.start "s" true true 1) (by decide +kernel)
  have hstep := (h _ _ _ _ _ _ hr).2 (.destroy fun _ => []) (by decide +kernel)
  exact hstep (eq_error_of_fault? (by decide +kernel))

end MiniMuduo
