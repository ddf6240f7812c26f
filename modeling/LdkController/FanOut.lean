import Mathlib.Data.List.Basic
import Mathlib.Data.List.Infix
import Mathlib.Data.List.Nodup

/-!
# Sending until something fails

Steps are taken one after the other, and some of them send. The first step that
fails ends them all, so what was sent is the beginning of what was meant. Each
receiver gets the beginning of what was meant for it.
-/

namespace Lib

section
variable {ι β ε : Type} (fails : ι → Option ε) (sends : ι → Option β)

def fanOut : List ι → List β × Except ε Unit
  | [] => ([], .ok ())
  | i :: l =>
    match fails i with
    | some e => ([], .error e)
    | none => ((sends i).toList ++ (fanOut l).1, (fanOut l).2)

theorem fanOut_begins (l : List ι) : (fanOut fails sends l).1 <+: l.filterMap sends := by
  induction l with
  | nil => exact List.prefix_refl []
  | cons i l ih =>
    unfold fanOut
    cases fails i with
    | some e => exact List.nil_prefix
    | none =>
      cases hs : sends i with
      | none =>
        rw [List.filterMap_cons_none hs]
        exact ih
      | some b =>
        rw [List.filterMap_cons_some hs]
        exact (List.prefix_cons_inj b).mpr ih

variable {fails sends} in
theorem fanOut_of_ok {l : List ι} (h : (fanOut fails sends l).2 = .ok ()) :
    (fanOut fails sends l).1 = l.filterMap sends := by
  induction l with
  | nil => rfl
  | cons i l ih =>
    unfold fanOut at h ⊢
    cases hf : fails i with
    | some e =>
      rw [hf] at h
      cases h
    | none =>
      rw [hf] at h
      cases hs : sends i with
      | none =>
        rw [List.filterMap_cons_none hs]
        exact ih h
      | some b =>
        rw [List.filterMap_cons_some hs, ← ih h]
        rfl

variable {fails} in
theorem fanOut_ok (h : ∀ i, fails i = none) (l : List ι) : (fanOut fails sends l).2 = .ok () := by
  induction l with
  | nil => rfl
  | cons i l ih =>
    unfold fanOut
    rw [h i]
    exact ih

end

/-- What is meant for one of several receivers is what was written for it. -/
theorem filter_flatMap_of_nodup {κ β : Type} [DecidableEq κ] {receiver : β → κ} {write : κ → List β}
    (h : ∀ k, ∀ b ∈ write k, receiver b = k) {l : List κ} (hl : l.Nodup) (k : κ) :
    (l.flatMap write).filter (fun b => receiver b = k) = if k ∈ l then write k else [] := by
  induction l with
  | nil => rfl
  | cons k' l ih =>
    obtain ⟨hnot, hl⟩ := List.nodup_cons.mp hl
    rw [List.flatMap_cons, List.filter_append, ih hl]
    by_cases hk : k = k'
    · subst hk
      have hall : (write k).filter (fun b => receiver b = k) = write k :=
        List.filter_eq_self.mpr fun b hb => decide_eq_true (h k b hb)
      rw [hall, if_neg hnot, if_pos List.mem_cons_self, List.append_nil]
    · have hnone : (write k').filter (fun b => receiver b = k) = [] :=
        List.filter_eq_nil_iff.mpr fun b hb he => hk ((of_decide_eq_true he).symm.trans (h k' b hb))
      rw [hnone, List.nil_append]
      simp only [List.mem_cons, hk, false_or]

end Lib
