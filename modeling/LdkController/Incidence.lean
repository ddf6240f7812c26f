import Mathlib.Algebra.BigOperators.Group.Finset.Sigma
import Mathlib.Algebra.BigOperators.Ring.Finset
import Mathlib.Algebra.Order.BigOperators.Group.Finset

/-!
# Counting at both ends

Where every edge has the same number of ends, what the nodes see of the edges adds
up to that many times the edges.
-/

namespace Lib

variable {N E : Type} [DecidableEq N] [DecidableEq E] {nodes : List N} {edges : List E} {ends : E → Finset N}
  {seen : N → List E} {c : Nat}

theorem sum_seen {n : N} (hnodup : (seen n).Nodup)
    (h : ∀ e, e ∈ seen n ↔ e ∈ edges ∧ n ∈ ends e) (w : E → Nat) :
    ((seen n).map w).sum = ∑ e ∈ edges.toFinset with n ∈ ends e, w e := by
  rw [← List.sum_toFinset w hnodup]
  apply Finset.sum_congr _ fun _ _ => rfl
  ext e
  rw [List.mem_toFinset, Finset.mem_filter, List.mem_toFinset]
  exact h e

theorem sum_sum_seen (hnodes : nodes.Nodup) (hedges : edges.Nodup)
    (hends : ∀ e ∈ edges, (∀ n ∈ ends e, n ∈ nodes) ∧ (ends e).card = c)
    (hseen : ∀ n ∈ nodes, (seen n).Nodup ∧ ∀ e, e ∈ seen n ↔ e ∈ edges ∧ n ∈ ends e) (w : E → Nat) :
    (nodes.map fun n => ((seen n).map w).sum).sum = c * (edges.map w).sum := by
  have hswap : ∀ n e, n ∈ nodes.toFinset ∧ e ∈ edges.toFinset.filter (n ∈ ends ·) ↔
      n ∈ ends e ∧ e ∈ edges.toFinset := by
    intro n e
    rw [List.mem_toFinset, Finset.mem_filter, List.mem_toFinset]
    constructor
    · intro ⟨_, he, hn⟩
      exact ⟨hn, he⟩
    · intro ⟨hn, he⟩
      exact ⟨(hends e he).1 n hn, he, hn⟩
  calc (nodes.map fun n => ((seen n).map w).sum).sum
      = ∑ n ∈ nodes.toFinset, ((seen n).map w).sum := (List.sum_toFinset _ hnodes).symm
    _ = ∑ n ∈ nodes.toFinset, ∑ e ∈ edges.toFinset with n ∈ ends e, w e := by
        apply Finset.sum_congr rfl
        intro n hn
        obtain ⟨hnodup, hmem⟩ := hseen n (List.mem_toFinset.mp hn)
        exact sum_seen hnodup hmem w
    _ = ∑ e ∈ edges.toFinset, ∑ _n ∈ ends e, w e := Finset.sum_comm' hswap
    _ = ∑ e ∈ edges.toFinset, c * w e := by
        apply Finset.sum_congr rfl
        intro e he
        rw [Finset.sum_const, (hends e (List.mem_toFinset.mp he)).2, Nat.nsmul_eq_mul]
    _ = c * (edges.map w).sum := by
        rw [← Finset.mul_sum, List.sum_toFinset w hedges]

theorem sum_seen_le {n : N} (hedges : edges.Nodup) (hnodup : (seen n).Nodup)
    (h : ∀ e, e ∈ seen n ↔ e ∈ edges ∧ n ∈ ends e) (w : E → Nat) : ((seen n).map w).sum ≤ (edges.map w).sum := by
  rw [sum_seen hnodup h, ← List.sum_toFinset w hedges]
  exact Finset.sum_le_sum_of_subset (Finset.filter_subset _ _)

end Lib
