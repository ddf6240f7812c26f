import Mathlib.Tactic.Basic

/-!
# Stable sorting

`List.mergeSort` keeps the order of elements that are equal in the order it sorts
by, so it does not matter whether one filters before or after sorting.
-/

namespace Lib

section
variable {α : Type}

theorem filter_append_of_split {q : α → Bool} {l₁ l₂ : List α} (h₁ : ∀ x ∈ l₁, q x = true)
    (h₂ : ∀ x ∈ l₂, q x = false) : (l₁ ++ l₂).filter q = l₁ := by
  rw [List.filter_append, List.filter_eq_self.mpr h₁, List.filter_eq_nil_iff.mpr (fun x hx => by simp [h₂ x hx]),
    List.append_nil]

/-- A list falls in one way only into elements that have a property and elements that do not. -/
theorem append_inj_of_split {q : α → Bool} {l₁ l₂ m₁ m₂ : List α} (h : l₁ ++ l₂ = m₁ ++ m₂)
    (hl₁ : ∀ x ∈ l₁, q x = true) (hl₂ : ∀ x ∈ l₂, q x = false) (hm₁ : ∀ x ∈ m₁, q x = true)
    (hm₂ : ∀ x ∈ m₂, q x = false) : l₁ = m₁ ∧ l₂ = m₂ := by
  have hfirst : l₁ = m₁ := by
    rw [← filter_append_of_split hl₁ hl₂, h, filter_append_of_split hm₁ hm₂]
  subst hfirst
  exact ⟨rfl, List.append_cancel_left h⟩

variable {le : α → α → Bool} (trans : ∀ a b c, le a b → le b c → le a c) (total : ∀ a b, le a b || le b a)
include trans total

/-- Sorting a list with one element more puts it right before what is not below it. -/
theorem mergeSort_cons_of_split {a : α} {l l₁ l₂ : List α} (h : l.mergeSort le = l₁ ++ l₂)
    (h₁ : ∀ x ∈ l₁, le a x = false) (h₂ : ∀ x ∈ l₂, le a x = true) : (a :: l).mergeSort le = l₁ ++ a :: l₂ := by
  obtain ⟨m₁, m₂, hsort, hrest, hm₁⟩ := List.mergeSort_cons trans total a l
  have hpair := List.pairwise_mergeSort trans total (a :: l)
  rw [hsort] at hpair
  have hm₂ := (List.pairwise_cons.mp (List.pairwise_append.mp hpair).2.1).1
  obtain ⟨rfl, rfl⟩ := append_inj_of_split (q := fun x => !le a x) (hrest.symm.trans h) hm₁
    (fun x hx => by simp [hm₂ x hx]) (fun x hx => by simp [h₁ x hx]) (fun x hx => by simp [h₂ x hx])
  exact hsort

/-- **Filtering commutes with sorting.** -/
theorem filter_mergeSort (p : α → Bool) (l : List α) : (l.mergeSort le).filter p = (l.filter p).mergeSort le := by
  induction l with
  | nil => simp
  | cons a l ih =>
    obtain ⟨l₁, l₂, hsort, hrest, hl₁⟩ := List.mergeSort_cons trans total a l
    have hpair := List.pairwise_mergeSort trans total (a :: l)
    rw [hsort] at hpair
    have hl₂ := (List.pairwise_cons.mp (List.pairwise_append.mp hpair).2.1).1
    rw [hrest, List.filter_append] at ih
    rw [hsort, List.filter_append]
    by_cases ha : p a = true
    · rw [List.filter_cons_of_pos ha, List.filter_cons_of_pos ha]
      refine (mergeSort_cons_of_split trans total ih.symm ?_ ?_).symm
      · intro x hx
        simpa using hl₁ x (List.mem_filter.mp hx).1
      · intro x hx
        exact hl₂ x (List.mem_filter.mp hx).1
    · rw [List.filter_cons_of_neg ha, List.filter_cons_of_neg ha, ih]

/-- **Stability.** Elements that are equal in the order keep their places among each other. -/
theorem filter_ties_mergeSort {p : α → Bool} (hties : ∀ a b, p a = true → p b = true → le a b = true) (l : List α) :
    (l.mergeSort le).filter p = l.filter p := by
  rw [filter_mergeSort trans total]
  refine List.mergeSort_of_pairwise (List.pairwise_of_forall_mem_list fun a ha b hb => ?_)
  exact hties a b (List.mem_filter.mp ha).2 (List.mem_filter.mp hb).2

end

end Lib
