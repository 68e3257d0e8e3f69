/-
# Steps that may fail and keep what they did

Reading and writing move a state along, and a step that fails half-way leaves the state where it
got to. `Attempt σ α` is such a step over states `σ`: it always gives a state back, and with it a
value or a fault. The first fault ends a sequence of steps.

* `Attempt.bind_ok_iff` — a sequence succeeds exactly when both of its steps do, the second from
  where the first arrived.
-/

import LedgerWire.Wire.Error

namespace LedgerWire

/-- A step over states `σ` that gives a value or a fault, and the state it arrived at either way. -/
def Attempt (σ α : Type) : Type := σ → Except WireError α × σ

namespace Attempt

variable {σ α β : Type}

/-- The step that gives a value and stays where it is. -/
def ok (a : α) : Attempt σ α := fun s => (.ok a, s)

/-- The step that fails and stays where it is. -/
def fail (e : WireError) : Attempt σ α := fun s => (.error e, s)

/-- One step after another; a fault of the first is the fault of both. -/
def andThen (m : Attempt σ α) (f : α → Attempt σ β) : Attempt σ β := fun s =>
  match m s with
  | (.ok a, s') => f a s'
  | (.error e, s') => (.error e, s')

instance : Monad (Attempt σ) where
  pure := ok
  bind := andThen

/-- The step that gives a value computed beforehand, or its fault. -/
def ofExcept : Except WireError α → Attempt σ α
  | .ok a => ok a
  | .error e => fail e

@[simp] theorem pure_apply (a : α) (s : σ) : (pure a : Attempt σ α) s = (.ok a, s) := rfl

@[simp] theorem fail_apply (e : WireError) (s : σ) :
    (fail e : Attempt σ α) s = (.error e, s) := rfl

/-- The second step goes on from the state that the first one left, and an error ends both. -/
theorem bind_apply (m : Attempt σ α) (f : α → Attempt σ β) (s : σ) :
    (m >>= f) s = match m s with
      | (.ok a, s') => f a s'
      | (.error e, s') => (.error e, s') := rfl

/-- A sequence succeeds exactly when both of its steps do. -/
theorem bind_ok_iff {m : Attempt σ α} {f : α → Attempt σ β} {s s' : σ} {b : β} :
    (m >>= f) s = (.ok b, s') ↔ ∃ a t, m s = (.ok a, t) ∧ f a t = (.ok b, s') := by
  rw [bind_apply]
  constructor
  · intro h
    split at h
    · rename_i a t hm
      exact ⟨a, t, hm, h⟩
    · simp at h
  · rintro ⟨a, t, hm, hf⟩
    rw [hm]
    exact hf

/-- A sequence fails exactly when its first step does, or its second does from where the first
arrived. -/
theorem bind_error_iff {m : Attempt σ α} {f : α → Attempt σ β} {s s' : σ} {e : WireError} :
    (m >>= f) s = (.error e, s') ↔
      m s = (.error e, s') ∨ ∃ a t, m s = (.ok a, t) ∧ f a t = (.error e, s') := by
  rw [bind_apply]
  split
  · rename_i a t hm
    constructor
    · intro h
      exact .inr ⟨a, t, hm, h⟩
    · rintro (h | ⟨a', t', h, hf⟩)
      · rw [hm] at h
        simp at h
      · rw [hm] at h
        simp only [Prod.mk.injEq, Except.ok.injEq] at h
        obtain ⟨rfl, rfl⟩ := h
        exact hf
  · rename_i e' t hm
    rw [hm]
    simp

theorem andThen_ok (m : Attempt σ α) : m.andThen ok = m := by
  funext s
  unfold andThen
  cases h : m s with
  | mk r s' => cases r <;> rfl

theorem andThen_assoc {γ : Type} (m : Attempt σ α) (f : α → Attempt σ β) (g : β → Attempt σ γ) :
    (m.andThen f).andThen g = m.andThen fun a => (f a).andThen g := by
  funext s
  unfold andThen
  cases h : m s with
  | mk r s' => cases r <;> rfl

instance : LawfulMonad (Attempt σ) :=
  LawfulMonad.mk' _ andThen_ok (fun _ _ => rfl) andThen_assoc

end Attempt

end LedgerWire
