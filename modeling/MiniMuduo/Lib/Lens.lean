/-
# A part of a state

`Lens σ τ`: a value of type `τ` kept inside a state of type `σ`. A function
written over a lens works on its own object wherever the object lives: alone
(`Lens.self`), or as a part of something larger.
-/
import Mathlib.Logic.Function.Basic

/-- Where a `τ` lives inside a `σ`. -/
structure Lens (σ τ : Type) where
  get : σ → τ
  set : σ → τ → σ
  get_set : ∀ s t, get (set s t) = t
  set_get : ∀ s, set s (get s) = s
  set_set : ∀ s t u, set (set s t) u = set s u

namespace Lens

variable {σ τ : Type}

/-- Apply `f` to the part. -/
def modify (l : Lens σ τ) (f : τ → τ) (s : σ) : σ := l.set s (f (l.get s))

attribute [simp] get_set set_get set_set

@[simp] theorem get_modify (l : Lens σ τ) (f : τ → τ) (s : σ) : l.get (l.modify f s) = f (l.get s) :=
  l.get_set _ _

@[simp] theorem modify_set (l : Lens σ τ) (f : τ → τ) (s : σ) (t : τ) :
    l.modify f (l.set s t) = l.set s (f t) := by
  simp [modify]

/-- The whole state. -/
def self : Lens σ σ := ⟨id, fun _ t => t, fun _ _ => rfl, fun _ => rfl, fun _ _ _ => rfl⟩

@[simp] theorem self_get (s : σ) : (self : Lens σ σ).get s = s := rfl

@[simp] theorem self_set (s t : σ) : (self : Lens σ σ).set s t = t := rfl

@[simp] theorem self_modify (f : σ → σ) (s : σ) : (self : Lens σ σ).modify f s = f s := rfl

end Lens
