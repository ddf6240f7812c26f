import Mathlib.Tactic.Basic

/-!
# How a call ends

A call returns a value, returns an error, or panics. An error or a panic ends
the computation it happens in, so `Outcome ε` is a monad.
-/

namespace Lib

inductive Outcome (ε α : Type) where
  | ok (a : α)
  | err (e : ε)
  | panic
deriving DecidableEq, Repr

namespace Outcome

variable {ε α β : Type}

protected def bind (x : Outcome ε α) (f : α → Outcome ε β) : Outcome ε β :=
  match x with
  | .ok a => f a
  | .err e => .err e
  | .panic => .panic

instance : Monad (Outcome ε) where
  pure := .ok
  bind := Outcome.bind

def okOr (x : Option α) (e : ε) : Outcome ε α :=
  match x with
  | some a => .ok a
  | none => .err e

def isOk : Outcome ε α → Bool
  | .ok _ => true
  | _ => false

@[simp] theorem pure_eq (a : α) : (pure a : Outcome ε α) = .ok a := rfl

@[simp] theorem ok_bind (a : α) (f : α → Outcome ε β) : (Outcome.ok a >>= f) = f a := rfl

@[simp] theorem err_bind (e : ε) (f : α → Outcome ε β) : (Outcome.err e >>= f) = .err e := rfl

@[simp] theorem panic_bind (f : α → Outcome ε β) : (Outcome.panic >>= f) = .panic := rfl

theorem bind_assoc {γ : Type} (x : Outcome ε α) (f : α → Outcome ε β) (g : β → Outcome ε γ) :
    ((x >>= f) >>= g) = (x >>= fun a => f a >>= g) := by
  cases x <;> rfl

theorem bind_eq_ok {x : Outcome ε α} {f : α → Outcome ε β} {b : β} :
    (x >>= f) = .ok b ↔ ∃ a, x = .ok a ∧ f a = .ok b := by
  cases x <;> simp

theorem bind_eq_err {x : Outcome ε α} {f : α → Outcome ε β} {e : ε} :
    (x >>= f) = .err e ↔ x = .err e ∨ ∃ a, x = .ok a ∧ f a = .err e := by
  cases x <;> simp

theorem bind_eq_panic {x : Outcome ε α} {f : α → Outcome ε β} :
    (x >>= f) = .panic ↔ x = .panic ∨ ∃ a, x = .ok a ∧ f a = .panic := by
  cases x <;> simp

@[simp] theorem okOr_eq_ok {x : Option α} {e : ε} {a : α} : okOr x e = .ok a ↔ x = some a := by
  cases x <;> simp [okOr]

theorem okOr_eq_err {x : Option α} {e e' : ε} : okOr x e = .err e' ↔ x = none ∧ e = e' := by
  cases x <;> simp [okOr]

@[simp] theorem okOr_ne_panic {x : Option α} {e : ε} : okOr x e ≠ .panic := by
  cases x <;> simp [okOr]

/-! ## Two computations that agree -/

/-- Both end in the same way, with related values. -/
def Rel {γ : Type} (R : α → γ → Prop) : Outcome ε α → Outcome ε γ → Prop
  | .ok a, .ok c => R a c
  | .err e, .err e' => e = e'
  | .panic, .panic => True
  | _, _ => False

theorem Rel.bind {γ δ : Type} {R : α → γ → Prop} {S : β → δ → Prop} {x : Outcome ε α} {y : Outcome ε γ}
    {f : α → Outcome ε β} {g : γ → Outcome ε δ} (h : Rel R x y)
    (hfg : ∀ a c, x = .ok a → y = .ok c → R a c → Rel S (f a) (g c)) : Rel S (x >>= f) (y >>= g) := by
  cases x with
  | ok a =>
    cases y with
    | ok c => exact hfg a c rfl rfl h
    | err e => cases h
    | panic => cases h
  | err e =>
    cases y with
    | ok c => cases h
    | err e' => exact h
    | panic => cases h
  | panic =>
    cases y with
    | ok c => cases h
    | err e => cases h
    | panic => trivial

theorem Rel.refl {R : α → α → Prop} {x : Outcome ε α} (h : ∀ a, x = .ok a → R a a) : Rel R x x := by
  cases x with
  | ok a => exact h a rfl
  | err e => rfl
  | panic => trivial

end Outcome

end Lib
