/-
# Runs of a machine

A machine takes one input at a time: `enabled s i` says when its environment
may offer the input `i` in the state `s`, and `step s i` is what it then
does, a new state or a fault. `Run M s tr t`: from `s`, every input of `tr`
was offered in the state `tr` pairs it with and was taken without a fault,
and the machine is then in `t`. The environment's choices (what a system
call returns, what a callback does, who is scheduled) are all in the inputs,
so a statement about every run is one about every behaviour.

Where `enabled` is decidable a run can be computed: `accepts` follows a list
of inputs, `trace` and `final` are the run it makes (`run_of_accepts`).

Key definitions: `Machine`, `Run`. Key theorems: `Run.invariant` (what
every step keeps, every run keeps), `Run.invariant_trace`, `Run.property_iff`
(the exact condition on the steps for a property), `Run.simulates` (the
invariant rule for a relation to an abstract state), `Run.gathers` (a history
the state keeps is what the steps contribute), `Run.refines` (each step of one
machine is a run of another), `run_of_accepts`.
-/
import Mathlib.Data.List.Basic

namespace Runs

/-- A machine with states `σ`, inputs `ι` and faults `ε`. -/
structure Machine (σ ι ε : Type) where
  enabled : σ → ι → Prop
  step : σ → ι → Except ε σ

variable {σ ι ε : Type}

/-- The runs from `s`: the states left and the inputs taken there, oldest
first, and the state reached. -/
inductive Run (M : Machine σ ι ε) (s : σ) : List (σ × ι) → σ → Prop
  | nil : Run M s [] s
  | snoc {tr : List (σ × ι)} {t u : σ} {i : ι} :
      Run M s tr t → M.enabled t i → M.step t i = .ok u → Run M s (tr ++ [(t, i)]) u

variable {M : Machine σ ι ε} {s t : σ} {tr : List (σ × ι)}

/-- What holds at the start and is kept by every step that meets `P` holds
at the end of every run whose steps all meet `P`. -/
theorem Run.invariant {Inv : σ → Prop} {P : σ → ι → Prop}
    (hstep : ∀ t i u, Inv t → M.enabled t i → P t i → M.step t i = .ok u → Inv u)
    (h : Run M s tr t) (hs : Inv s) (hP : ∀ p ∈ tr, P p.1 p.2) : Inv t := by
  induction h with
  | nil => exact hs
  | snoc _ hen hst ih =>
    have ht := ih fun p hp => hP p (List.mem_append_left _ hp)
    exact hstep _ _ _ ht hen (hP (_, _) (by simp)) hst

/-- An invariant holds in the states on the way, too. -/
theorem Run.invariant_trace {Inv : σ → Prop} {P : σ → ι → Prop}
    (hstep : ∀ t i u, Inv t → M.enabled t i → P t i → M.step t i = .ok u → Inv u)
    (h : Run M s tr t) (hs : Inv s) (hP : ∀ p ∈ tr, P p.1 p.2) : ∀ p ∈ tr, Inv p.1 := by
  induction h with
  | nil => simp
  | @snoc tr _ _ _ hrun _ _ ih =>
    have hP' : ∀ p ∈ tr, P p.1 p.2 := fun p hp => hP p (List.mem_append_left _ hp)
    intro p hp
    rcases List.mem_append.mp hp with hp | hp
    · exact ih hP' p hp
    · rw [List.mem_singleton.mp hp]
      exact hrun.invariant hstep hs hP'

/-- Every input of a run was offered and was taken without a fault. -/
theorem Run.taken (h : Run M s tr t) : ∀ p ∈ tr, M.enabled p.1 p.2 ∧ ∃ u, M.step p.1 p.2 = .ok u := by
  induction h with
  | nil => simp
  | snoc _ hen hst ih =>
    intro p hp
    rcases List.mem_append.mp hp with hp | hp
    · exact ih p hp
    · rw [List.mem_singleton.mp hp]
      exact ⟨hen, _, hst⟩

/-- The invariant rule with no condition on the steps. -/
theorem Run.always {Inv : σ → Prop}
    (hstep : ∀ t i u, Inv t → M.enabled t i → M.step t i = .ok u → Inv u)
    (h : Run M s tr t) (hs : Inv s) : Inv t :=
  h.invariant (P := fun _ _ => True) (fun t i u ht hen _ => hstep t i u ht hen) hs fun _ _ => trivial

/-- Where the invariant gives `Q`, is kept by the steps that meet `P`, and a
step that does not meet `P` breaks `Q`: `Q` holds in every state of a run
exactly when all its steps meet `P`. -/
theorem Run.property_iff {Inv Q : σ → Prop} {P : σ → ι → Prop} (hQ : ∀ t, Inv t → Q t)
    (hstep : ∀ t i u, Inv t → M.enabled t i → P t i → M.step t i = .ok u → Inv u)
    (hbreak : ∀ t i u, Inv t → M.enabled t i → ¬ P t i → M.step t i = .ok u → ¬ Q u)
    (h : Run M s tr t) (hs : Inv s) : ((∀ p ∈ tr, Q p.1) ∧ Q t) ↔ ∀ p ∈ tr, P p.1 p.2 := by
  constructor
  · induction h with
    | nil => simp
    | @snoc tr t u i hrun hen hst ih =>
      rintro ⟨htr, hu⟩
      have hP : ∀ p ∈ tr, P p.1 p.2 :=
        ih ⟨fun p hp => htr p (List.mem_append_left _ hp), htr (t, i) (by simp)⟩
      have hlast : P t i := by
        by_contra hnot
        exact hbreak t i u (hrun.invariant hstep hs hP) hen hnot hst hu
      intro p hp
      rcases List.mem_append.mp hp with hp | hp
      · exact hP p hp
      · rw [List.mem_singleton.mp hp]
        exact hlast
  · intro hP
    exact ⟨fun p hp => hQ _ (h.invariant_trace hstep hs hP p hp), hQ _ (h.invariant hstep hs hP)⟩

/-- A machine that keeps in step with a function of its inputs at every step
keeps in step with it in every run. -/
theorem Run.simulates {α : Type} {R : σ → α → Prop} {next : α → ι → α}
    (hstep : ∀ t a i u, R t a → M.enabled t i → M.step t i = .ok u → R u (next a i))
    (h : Run M s tr t) {a : α} (hs : R s a) : R t ((tr.map Prod.snd).foldl next a) := by
  induction h with
  | nil => exact hs
  | snoc _ hen hst ih =>
    rw [List.map_append, List.foldl_append]
    exact hstep _ _ _ _ ih hen hst

/-- A run goes on. -/
theorem Run.trans {tr' : List (σ × ι)} {u : σ} (h : Run M s tr t) (h' : Run M t tr' u) : Run M s (tr ++ tr') u := by
  induction h' with
  | nil =>
    rw [List.append_nil]
    exact h
  | snoc _ hen hst ih =>
    rw [← List.append_assoc]
    exact ih.snoc hen hst

/-! ### What a run contributes -/

/-- What the steps of a run contribute, in order. -/
def gathered {β : Type} (note : σ → ι → List β) (tr : List (σ × ι)) : List β := tr.flatMap fun p => note p.1 p.2

@[simp] theorem gathered_nil {β : Type} (note : σ → ι → List β) : gathered note [] = [] := rfl

@[simp] theorem gathered_snoc {β : Type} (note : σ → ι → List β) (tr : List (σ × ι)) (t : σ) (i : ι) :
    gathered note (tr ++ [(t, i)]) = gathered note tr ++ note t i := by
  simp [gathered]

/-- A list to which every step appends its contribution holds what the run
contributed. -/
theorem Run.gathers {β : Type} {held : σ → List β} {note : σ → ι → List β}
    (hstep : ∀ t i u, M.enabled t i → M.step t i = .ok u → held u = held t ++ note t i)
    (h : Run M s tr t) : held t = held s ++ gathered note tr := by
  induction h with
  | nil => simp
  | snoc _ hen hst ih => rw [hstep _ _ _ hen hst, ih, gathered_snoc, List.append_assoc]

/-! ### One machine on another -/

/-- The machine takes these inputs from `s` to `t`. -/
def Takes (M : Machine σ ι ε) (s : σ) (is : List ι) (t : σ) : Prop := ∃ tr, Run M s tr t ∧ tr.map Prod.snd = is

theorem Takes.none : Takes M s [] s := ⟨[], .nil, rfl⟩

theorem Takes.one {u : σ} {i : ι} (hen : M.enabled s i) (hst : M.step s i = .ok u) : Takes M s [i] u :=
  ⟨_, Run.nil.snoc hen hst, rfl⟩

theorem Takes.trans {u : σ} {is js : List ι} (h : Takes M s is t) (h' : Takes M t js u) : Takes M s (is ++ js) u := by
  obtain ⟨tr, hrun, rfl⟩ := h
  obtain ⟨tr', hrun', rfl⟩ := h'
  exact ⟨tr ++ tr', hrun.trans hrun', List.map_append⟩

/-- Where each step of `M` is a run of `M'` on what `view` shows of the state,
a run of `M` is one of `M'`. -/
theorem Run.refines {σ' ι' ε' : Type} {M' : Machine σ' ι' ε'} {Inv : σ → Prop} {view : σ → σ'}
    {inputs : σ → ι → List ι'}
    (hkeep : ∀ t i u, Inv t → M.enabled t i → M.step t i = .ok u → Inv u)
    (hstep : ∀ t i u, Inv t → M.enabled t i → M.step t i = .ok u → Takes M' (view t) (inputs t i) (view u))
    (h : Run M s tr t) (hs : Inv s) : Takes M' (view s) (gathered inputs tr) (view t) := by
  induction h with
  | nil => exact Takes.none
  | snoc hrun hen hst ih =>
    rw [gathered_snoc]
    exact ih.trans (hstep _ _ _ (hrun.always hkeep hs) hen hst)

/-! ### Computing a run -/

theorem Run.cons {u : σ} {i : ι} (hen : M.enabled s i) (hst : M.step s i = .ok u)
    (h : Run M u tr t) : Run M s ((s, i) :: tr) t := by
  induction h with
  | nil => exact Run.nil.snoc hen hst
  | snoc _ hen' hst' ih => exact ih.snoc hen' hst'

/-- The machine takes all these inputs, each enabled when it comes. -/
def accepts (M : Machine σ ι ε) [∀ s i, Decidable (M.enabled s i)] : σ → List ι → Bool
  | _, [] => true
  | s, i :: is => decide (M.enabled s i) &&
    match M.step s i with
    | .ok u => accepts M u is
    | .error _ => false

/-- The states left and the inputs taken there, up to a fault. -/
def trace (M : Machine σ ι ε) : σ → List ι → List (σ × ι)
  | _, [] => []
  | s, i :: is =>
    match M.step s i with
    | .ok u => (s, i) :: trace M u is
    | .error _ => []

/-- The state after the inputs, up to a fault. -/
def final (M : Machine σ ι ε) : σ → List ι → σ
  | s, [] => s
  | s, i :: is =>
    match M.step s i with
    | .ok u => final M u is
    | .error _ => s

/-- A run ends where its inputs lead. -/
theorem Run.final_eq (h : Run M s tr t) (is : List ι) : final M s (tr.map Prod.snd ++ is) = final M t is := by
  induction h generalizing is with
  | nil => rfl
  | @snoc tr t u i _ _ hst ih =>
    have hnext : final M t (i :: is) = final M u is := by simp only [final, hst]
    rw [← hnext, ← ih, List.map_append, List.append_assoc]
    rfl

theorem Takes.eq_final {is : List ι} (h : Takes M s is t) : t = final M s is := by
  obtain ⟨tr, hrun, rfl⟩ := h
  have hfinal := hrun.final_eq []
  rw [List.append_nil] at hfinal
  exact hfinal.symm

theorem run_of_accepts [∀ s i, Decidable (M.enabled s i)] : ∀ (is : List ι) (s : σ),
    accepts M s is = true → Run M s (trace M s is) (final M s is)
  | [], _, _ => .nil
  | i :: is, s, h => by
    unfold accepts at h
    unfold trace final
    simp only [Bool.and_eq_true, decide_eq_true_eq] at h
    obtain ⟨hen, h⟩ := h
    cases hst : M.step s i with
    | error e => simp [hst] at h
    | ok u =>
      simp only [hst] at h ⊢
      exact (run_of_accepts is u h).cons hen hst

/-- A run that is computed takes all its inputs. -/
theorem trace_inputs [∀ s i, Decidable (M.enabled s i)] : ∀ (is : List ι) (s : σ),
    accepts M s is = true → (trace M s is).map Prod.snd = is
  | [], _, _ => rfl
  | i :: is, s, h => by
    unfold accepts at h
    unfold trace
    obtain ⟨-, h⟩ := Bool.and_eq_true_iff.mp h
    cases hst : M.step s i with
    | error e => simp [hst] at h
    | ok u =>
      simp only [hst] at h ⊢
      exact congrArg (i :: ·) (trace_inputs is u h)

end Runs
