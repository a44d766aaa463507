/-
# What the steps of a server keep

A step of a server changes connections one part at a time, and the books
(`connections_`, the queues, the rounds) besides. A property that upkeep of any
connection keeps, and that does not look at the books, is `Steady`: a step
keeps it if the scripts do. What only looks at what connections are made with
is `Rooted`, and whole steps keep it.

Key definitions: `TcpServer.Steady`, `TcpServer.Rooted`.
Key theorems: `Upkeep.face`, `Steady.step`, `Rooted.step`.
-/
import MiniMuduo.ConnNames
import MiniMuduo.OutputStream

namespace MiniMuduo

open Fallible Runs Word TcpConnection

/-- The part of `HandleWrite` before its callback keeps what the connection
was made with. -/
theorem drain_face {tid : ℕ} {res : WriteResult} {c c' : TcpConnection} {b : Bool}
    (h : drain tid res c = .ok (c', b)) : SameFace c c' := by
  unfold drain at h
  split at h
  · split at h
    · simp only at h
      split at h
      · obtain ⟨out, -, h⟩ := bind_eq_ok h
        split at h
        · obtain ⟨c1, hop, h⟩ := bind_eq_ok h
          cases h
          obtain ⟨hloop, hname, hfd, hconnection, hclose, hwrite⟩ :=
            onChannel_face (fun _ _ _ hch => update_fd _ hch) hop
          exact ⟨hloop, hname, hfd, hconnection, hclose, hwrite⟩
        · cases h
          exact ⟨rfl, rfl, rfl, rfl, rfl, rfl⟩
      · cases h
        exact .refl c
    · cases h
      exact .refl c
  · cases h
    exact .refl c

theorem establishCore_face {tid : ℕ} {c c' : TcpConnection} (h : establishCore tid c = .ok c') : SameFace c c' := by
  obtain ⟨c1, hop, h⟩ := bind_eq_ok h
  cases h
  obtain ⟨hloop, hname, hfd, hconnection, hclose, hwrite⟩ :=
    onChannel_face (fun _ _ _ hch => update_fd _ hch) hop
  exact ⟨hloop, hname, hfd, hconnection, hclose, hwrite⟩

theorem destroyCore_face {tid : ℕ} {c c' : TcpConnection} (h : destroyCore tid c = .ok c') : SameFace c c' := by
  obtain ⟨c1, hop, h⟩ := bind_eq_ok h
  cases h
  exact (((SameFace.log c _).trans (.setState _ _)).trans (disableAll_face hop)).trans (SameFace.log c1 _)

theorem finishWrite_face (c : TcpConnection) : SameFace c c.finishWrite := by
  unfold finishWrite
  split
  · exact .log c _
  · exact .refl c

/-- Upkeep leaves a connection with what it was made with. -/
theorem Upkeep.face {c c' : TcpConnection} (h : Upkeep c c') : SameFace c c' := by
  cases h with
  | log _ => exact .log c _
  | callback cb => exact .log c _
  | revents ev => exact ⟨rfl, rfl, rfl, rfl, rfl, rfl⟩
  | establish hcore => exact establishCore_face hcore
  | close hcore => exact callPart_face (.close hcore)
  | destroyCore hcore => exact destroyCore_face hcore
  | destroyTail htail => exact destroyTail_face htail
  | drain hdrain => exact drain_face hdrain
  | finishWrite => exact finishWrite_face c

/-- The scripts that a step other than a handler runs. -/
def ServerStep.Runs (script : List (Act ℕ)) : ServerStep → Prop
  | .runTask _ connection => script = connection
  | .user _ acts => script = acts
  | .destroy connection => ∃ i, script = connection i
  | .poll .. | .accept .. | .handle .. | .swap _ | .finish _ => False

namespace TcpServer

/-- `P` is kept by upkeep, and does not look at `connections_` and the
queues. -/
structure Steady (P : TcpServer → Prop) : Prop where
  set : ∀ {s i c}, P s → Upkeep (s.conns i) c → P ((connAt i).set s c)
  books : ∀ {s s'}, P s → s' = { s with
    connections := s'.connections, pending := s'.pending, removed := s'.removed, destroyed := s'.destroyed } → P s'

namespace Steady

variable {P : TcpServer → Prop} (hP : Steady P) {s s' : TcpServer} {l i : ℕ}

include hP

theorem kept (i : ℕ) : Kept (connAt i) P := fun _ _ hs hup => hP.set hs hup

theorem setRevents (ready : List (ChannelRef × Events)) (hs : P s) : P (s.setRevents ready) := by
  induction ready generalizing s with
  | nil => exact hs
  | cons r ready ih =>
    unfold TcpServer.setRevents
    rw [List.foldl_cons]
    apply ih
    split
    · exact hs
    · exact hP.set hs (.revents r.2)

/-- The loop in `~TcpServer`. -/
theorem destroyAll {connection : ℕ → List (Act ℕ)}
    (hk : ∀ i s s', P s → runActs 0 connAt (connection i) s = .ok s' → P s') :
    ∀ (entries : List (String × ℕ)) {s s' : TcpServer}, P s →
    entries.foldlM (fun s entry => TcpConnection.connectDestroyed 0 (connAt entry.2)
      (runActs 0 connAt (connection entry.2)) s) s = .ok s' → P s'
  | [], _, _, hs, h => by
    cases h
    exact hs
  | entry :: entries, s, s', hs, h => by
    rw [List.foldlM_cons] at h
    obtain ⟨s1, hdes, h⟩ := bind_eq_ok h
    exact destroyAll hk entries ((hP.kept entry.2).connectDestroyed (hk entry.2) hs hdes) h

theorem runTask {connection : List (Act ℕ)} (hk : ∀ s s', P s → runActs l connAt connection s = .ok s' → P s')
    {t : ServerTask} (hs : P s) (hst : s.runTask l connection t = .ok s') : P s' := by
  cases t with
  | connectEstablished i => exact (hP.kept i).connectEstablished hk hs hst
  | removeConnectionInLoop i =>
    have herased : P (s.erased i) := hP.books hs rfl
    rcases removeConnectionInLoop_cases hst with ⟨-, hdes⟩ | ⟨-, rfl⟩
    · exact (hP.kept i).connectDestroyed hk herased hdes
    · exact hP.books herased rfl
  | connectDestroyed i => exact (hP.kept i).connectDestroyed hk hs hst

/-- One step, by any loop, where the rounds do not matter and a new
connection, a handler and the scripts keep `P` too. -/
theorem step (hround : ∀ s l r, P s → P (s.setRound l r)) {a : ServerStep}
    (hnew : ∀ s sockfd writeComplete, a = .accept (some sockfd) writeComplete → P s →
      P (s.newConnectionCallback sockfd writeComplete))
    (hacts : ∀ l script s s', a.Runs script → P s → runActs l connAt script s = .ok s' → P s')
    (hhandle : ∀ l re, a = .handle l re → s.step a = .ok s' → P s') (hs : P s) (hst : s.step a = .ok s') : P s' := by
  cases a with
  | poll l ready =>
    cases hst
    exact hround _ _ _ (hP.setRevents ready hs)
  | accept sockfd writeComplete =>
    simp only [TcpServer.step] at hst
    split at hst
    · rcases sockfd with _ | sockfd
      · cases hst
        exact hround _ _ _ hs
      · cases hst
        exact hnew _ sockfd writeComplete rfl (hround _ _ _ hs)
    · cases hst
      exact hs
  | handle l re => exact hhandle l re rfl hst
  | swap l =>
    cases hst
    exact hP.books (hround s l (.running (s.pending l)) hs) rfl
  | runTask l connection =>
    simp only [TcpServer.step] at hst
    split at hst
    · exact hP.runTask (fun s s' => hacts l connection s s' rfl) (hround _ _ _ hs) hst
    · cases hst
      exact hs
  | finish l =>
    cases hst
    exact hround _ _ _ hs
  | user l script => exact hacts l script _ _ rfl hs hst
  | destroy connection =>
    obtain ⟨s1, hfold, hst⟩ := bind_eq_ok hst
    cases hst
    exact hP.books (hP.destroyAll (fun i s s' => hacts 0 (connection i) s s' ⟨i, rfl⟩) _ hs hfold) rfl

end Steady

/-- `P` only looks at what the connections are made with. -/
structure Rooted (P : TcpServer → Prop) : Prop where
  set : ∀ {s i c}, P s → SameFace (s.conns i) c → P ((connAt i).set s c)
  books : ∀ {s s'}, P s → s' = { s with
    connections := s'.connections, pending := s'.pending, round := s'.round, removed := s'.removed,
    destroyed := s'.destroyed } → P s'

namespace Rooted

variable {P : TcpServer → Prop} (hP : Rooted P) {s s' : TcpServer} {l i : ℕ}

include hP

theorem steady : Steady P where
  set hs hup := hP.set hs hup.face
  books := by
    intro s s' hs heq
    refine hP.books hs ?_
    rw [heq]

theorem runActs {script : List (Act ℕ)} (hs : P s) (h : MiniMuduo.runActs l connAt script s = .ok s') : P s' :=
  runActs_keeps connAt_apart script (scriptAllowed_all script)
    (fun _ _ _ _ hs ha => hP.set hs (callPart_face (.act ha))) s s' hs h

theorem handleRead {km k kc : TcpServer → Except Fault TcpServer} (hm : ∀ s s', P s → km s = .ok s' → P s')
    (hk : ∀ s s', P s → k s = .ok s' → P s') (hkc : ∀ s s', P s → kc s = .ok s' → P s')
    {r : Buffer.ReadvResult} (hs : P s) (h : TcpConnection.handleRead l (connAt i) km k kc r s = .ok s') : P s' := by
  refine (hP.steady.kept i).handleRead hm hk hkc (fun n e b _ => hP.set hs ?_) h
  exact ⟨rfl, rfl, rfl, rfl, rfl, rfl⟩

/-- One step, by any loop, where a new connection keeps `P` too. -/
theorem step {a : ServerStep} (hnew : ∀ s sockfd writeComplete, a = .accept (some sockfd) writeComplete → P s →
    P (s.newConnectionCallback sockfd writeComplete)) (hs : P s) (hst : s.step a = .ok s') : P s' := by
  have hround : ∀ s l r, P s → P (s.setRound l r) := fun s l r hs => hP.books hs rfl
  have hacts : ∀ l script s s', P s → MiniMuduo.runActs l connAt script s = .ok s' → P s' :=
    fun _ _ _ _ hs hrun => hP.runActs hs hrun
  refine hP.steady.step hround hnew (fun l script s s' _ => hacts l script s s') (fun l re ha hst => ?_) hs hst
  subst ha
  simp only [TcpServer.step] at hst
  split at hst
  case h_1 i hd calls hround' =>
    have hclose : ∀ s s', P s → removeConnection i s = .ok s' → P s' := by
      intro s1 s2 hs1 hclose
      cases hclose
      exact hP.books hs1 rfl
    refine (hP.steady.kept i).handle (hacts l _) (hacts l _) hclose hd (hround s l (.handling calls) hs)
      (fun _ s1 hs1 hread => hP.handleRead (hacts l _) (hacts l _) hclose hs1 hread) hst
  · cases hst
    exact hs

end Rooted

end TcpServer

end MiniMuduo
