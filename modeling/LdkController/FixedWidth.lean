import Mathlib.Algebra.Group.Nat.Defs
import Mathlib.Algebra.GroupWithZero.Nat
import Mathlib.Algebra.Ring.Int.Defs
import Mathlib.Order.Lattice
import Mathlib.Order.MinMax
import Mathlib.Tactic.Basic

/-!
# Fixed-width arithmetic

Unsigned words are naturals and signed words integers; an operation says what
the word makes of the exact result: `sat…` moves it to the nearest word,
`i64OfU64` refuses it, and `Build.mulU64` panics (`none`) or wraps, as the
program was built.
-/

namespace Lib

def u64Max : Nat := 2 ^ 64 - 1
def i64Max : Int := 2 ^ 63 - 1
def i64Min : Int := -2 ^ 63

def clamp {α : Type} [LinearOrder α] (lo hi x : α) : α := max lo (min hi x)

theorem clamp_eq_self {α : Type} [LinearOrder α] {lo hi x : α} (hl : lo ≤ x) (hh : x ≤ hi) :
    clamp lo hi x = x := by
  unfold clamp; rw [min_eq_right hh, max_eq_right hl]

theorem clamp_le {α : Type} [LinearOrder α] {lo hi x : α} (h : lo ≤ hi) : clamp lo hi x ≤ hi :=
  max_le h (min_le_left _ _)

def satSubU64 (a b : Nat) : Nat := a - b

def satMulU64 (a b : Nat) : Nat := min (a * b) u64Max

def satAddI64 (a b : Int) : Int := clamp i64Min i64Max (a + b)

def satSubI64 (a b : Int) : Int := clamp i64Min i64Max (a - b)

def i64OfU64 (n : Nat) : Option Int := if (n : Int) ≤ i64Max then some n else none

theorem i64OfU64_eq_some {n : Nat} {a : Int} :
    i64OfU64 n = some a ↔ (n : Int) ≤ i64Max ∧ (n : Int) = a := by
  unfold i64OfU64; split <;> simp_all

theorem i64OfU64_eq_none {n : Nat} : i64OfU64 n = none ↔ i64Max < n := by
  unfold i64OfU64; split <;> simp_all

structure Build where
  overflowChecks : Bool
deriving DecidableEq, Repr

def Build.release : Build := ⟨false⟩

def Build.mulU64 (b : Build) (x y : Nat) : Option Nat :=
  if x * y ≤ u64Max then some (x * y)
  else if b.overflowChecks then none
  else some (x * y % 2 ^ 64)

def Build.addU64 (b : Build) (x y : Nat) : Option Nat :=
  if x + y ≤ u64Max then some (x + y)
  else if b.overflowChecks then none
  else some ((x + y) % 2 ^ 64)

theorem Build.addU64_of_le (b : Build) {x y : Nat} (h : x + y ≤ u64Max) : b.addU64 x y = some (x + y) := if_pos h

theorem Build.mulU64_of_le (b : Build) {x y : Nat} (h : x * y ≤ u64Max) : b.mulU64 x y = some (x * y) := if_pos h

theorem mod_of_le_u64Max {n : Nat} (h : n ≤ u64Max) : n % 2 ^ 64 = n :=
  Nat.mod_eq_of_lt (Nat.lt_of_le_of_lt h (by decide))

/-- An exact result that is a word stays as it is in every build. -/
theorem Build.checked_or_wrapped (b : Build) (n : Nat) :
    (if n ≤ u64Max then some n else if b.overflowChecks then none else some (n % 2 ^ 64)) =
      if u64Max < n ∧ b.overflowChecks = true then none else some (n % 2 ^ 64) := by
  by_cases hle : n ≤ u64Max
  · rw [if_pos hle, if_neg fun h => absurd hle (Nat.not_le.mpr h.1), mod_of_le_u64Max hle]
  · rw [if_neg hle]
    simp only [Nat.not_le.mp hle, true_and]

theorem Build.addU64_eq (b : Build) (x y : Nat) : b.addU64 x y =
    if u64Max < x + y ∧ b.overflowChecks = true then none else some ((x + y) % 2 ^ 64) := b.checked_or_wrapped (x + y)

theorem Build.mulU64_eq (b : Build) (x y : Nat) : b.mulU64 x y =
    if u64Max < x * y ∧ b.overflowChecks = true then none else some (x * y % 2 ^ 64) := b.checked_or_wrapped (x * y)

theorem Build.addU64_eq_none {b : Build} {x y : Nat} :
    b.addU64 x y = none ↔ u64Max < x + y ∧ b.overflowChecks = true := by
  rw [b.addU64_eq]
  simp

theorem Build.mulU64_eq_none {b : Build} {x y : Nat} :
    b.mulU64 x y = none ↔ u64Max < x * y ∧ b.overflowChecks = true := by
  rw [b.mulU64_eq]
  simp

theorem Build.addU64_eq_mod {b : Build} {x y z : Nat} (h : b.addU64 x y = some z) : z = (x + y) % 2 ^ 64 := by
  rw [b.addU64_eq, Option.ite_none_left_eq_some] at h
  exact (Option.some.inj h.2).symm

theorem Build.mulU64_eq_mod {b : Build} {x y z : Nat} (h : b.mulU64 x y = some z) : z = x * y % 2 ^ 64 := by
  rw [b.mulU64_eq, Option.ite_none_left_eq_some] at h
  exact (Option.some.inj h.2).symm

/-- A chain of sums is the sum checked, or wrapped, once. -/
theorem Build.foldlM_addU64 (b : Build) (l : List Nat) {acc : Nat} (h : acc ≤ u64Max) : l.foldlM b.addU64 acc =
    if u64Max < acc + l.sum ∧ b.overflowChecks = true then none else some ((acc + l.sum) % 2 ^ 64) := by
  induction l generalizing acc with
  | nil =>
    rw [List.sum_nil, Nat.add_zero, if_neg fun hover => absurd h (Nat.not_le.mpr hover.1),
      mod_of_le_u64Max h]
    rfl
  | cons x l ih =>
    rw [List.foldlM_cons, List.sum_cons, ← Nat.add_assoc, b.addU64_eq]
    by_cases hover : u64Max < acc + x ∧ b.overflowChecks = true
    · rw [if_pos hover, if_pos ⟨Nat.lt_of_lt_of_le hover.1 (Nat.le_add_right _ _), hover.2⟩]
      rfl
    · have hword : (acc + x) % 2 ^ 64 ≤ u64Max := Nat.le_of_lt_succ (Nat.mod_lt _ (by decide))
      rw [if_neg hover, Option.bind_eq_bind, Option.bind_some, ih hword, Nat.mod_add_mod]
      by_cases hchecks : b.overflowChecks = true
      · have hle : acc + x ≤ u64Max := Nat.not_lt.mp fun hlt => hover ⟨hlt, hchecks⟩
        rw [mod_of_le_u64Max hle]
      · rw [if_neg fun h => hchecks h.2, if_neg fun h => hchecks h.2]

end Lib
