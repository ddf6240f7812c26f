import Mathlib.Data.List.Basic
import Mathlib.Data.List.Induction

/-!
# Since the last reset

Some elements of a history reset what the others add to. `since` finds the last
of them and what came after it, element by element as the history grows;
`since_eq_some` says it of the history as a whole.
-/

namespace Lib

section
variable {γ : Type} (reset : γ → Bool)

def since (l : List γ) : Option (γ × List γ) :=
  l.foldl (fun last c => if reset c then some (c, []) else last.map fun a => (a.1, a.2 ++ [c])) none

@[simp] theorem since_nil : since reset [] = none := rfl

theorem since_snoc (l : List γ) (c : γ) :
    since reset (l ++ [c]) = if reset c then some (c, []) else (since reset l).map fun a => (a.1, a.2 ++ [c]) := by
  unfold since
  rw [List.foldl_append]
  rfl

variable {reset}

theorem since_eq_some {l : List γ} {r : γ} {after : List γ} :
    since reset l = some (r, after) ↔
      ∃ before, l = before ++ r :: after ∧ reset r = true ∧ ∀ c ∈ after, reset c = false := by
  induction l using List.reverseRecOn generalizing after with
  | nil => simp
  | append_singleton l c ih =>
    rw [since_snoc]
    cases hc : reset c with
    | true =>
      simp only [if_true, Option.some.injEq, Prod.mk.injEq]
      constructor
      · intro h
        obtain ⟨rfl, rfl⟩ := h
        exact ⟨l, rfl, hc, fun _ h => nomatch h⟩
      · intro h
        obtain ⟨before, hl, _, hafter⟩ := h
        rcases List.eq_nil_or_concat after with rfl | ⟨after, d, rfl⟩
        · exact ⟨(List.append_inj' hl rfl).2 |> List.singleton_injective, rfl⟩
        · have hlast : c = d := by
            rw [List.concat_eq_append, ← List.cons_append, ← List.append_assoc] at hl
            exact List.singleton_injective (List.append_inj' hl rfl).2
          have hfalse := hafter d (by simp)
          rw [← hlast, hc] at hfalse
          cases hfalse
    | false =>
      simp only [Bool.false_eq_true, if_false, Option.map_eq_some_iff, Prod.mk.injEq, Prod.exists]
      constructor
      · intro h
        obtain ⟨r', after', hsince, rfl, rfl⟩ := h
        obtain ⟨before, hl, hr, hafter⟩ := ih.mp hsince
        refine ⟨before, by rw [hl, List.append_assoc, List.cons_append], hr, ?_⟩
        intro d hd
        rcases List.mem_append.mp hd with hd | hd
        · exact hafter d hd
        · rw [List.mem_singleton.mp hd]
          exact hc
      · intro h
        obtain ⟨before, hl, hr, hafter⟩ := h
        rcases List.eq_nil_or_concat after with rfl | ⟨after, d, rfl⟩
        · have hlast : c = r := List.singleton_injective (List.append_inj' hl rfl).2
          rw [← hlast, hc] at hr
          cases hr
        · rw [List.concat_eq_append, ← List.cons_append, ← List.append_assoc] at hl
          obtain ⟨hinit, hlast⟩ := List.append_inj' hl rfl
          rw [List.singleton_injective hlast]
          refine ⟨r, after, ih.mpr ⟨before, hinit, hr, ?_⟩, rfl, List.concat_eq_append.symm⟩
          intro x hx
          exact hafter x (by simp [hx])

end

end Lib
