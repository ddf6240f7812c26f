import Mathlib.Algebra.Order.Monoid.Unbundled.Basic
import Mathlib.Data.List.Basic
import Mathlib.Tactic.Abel

/-!
# Runs of a deterministic machine

A machine takes inputs one at a time. `exec` is the state a run ends in,
`answers` what it replied on the way, and `Steps P` says that `P` holds of every
input in the state in which it is taken.
-/

namespace Lib

section
variable {σ ι ο : Type} (step : σ → ι → σ) (reply : σ → ι → Option ο)

def exec (s : σ) (l : List ι) : σ := l.foldl step s

def answers : σ → List ι → List ο
  | _, [] => []
  | s, i :: l => (reply s i).toList ++ answers (step s i) l

def Steps (P : σ → ι → Prop) : σ → List ι → Prop
  | _, [] => True
  | s, i :: l => P s i ∧ Steps P (step s i) l

@[simp] theorem exec_cons (s : σ) (i : ι) (l : List ι) : exec step s (i :: l) = exec step (step s i) l := rfl

variable {step}

theorem Steps.of_forall {P : σ → ι → Prop} : ∀ {l : List ι} {s : σ}, (∀ s, ∀ i ∈ l, P s i) → Steps step P s l
  | [], _, _ => trivial
  | i :: l, s, h => ⟨h s i (by simp), Steps.of_forall fun s j hj => h s j (by simp [hj])⟩

theorem Steps.mono {P Q : σ → ι → Prop} (hPQ : ∀ s i, P s i → Q s i) :
    ∀ {l : List ι} {s : σ}, Steps step P s l → Steps step Q s l
  | [], _, _ => trivial
  | _ :: _, _, h => ⟨hPQ _ _ h.1, Steps.mono hPQ h.2⟩

theorem Steps.and {P Q : σ → ι → Prop} :
    ∀ {l : List ι} {s : σ}, Steps step P s l → Steps step Q s l → Steps step (fun s i => P s i ∧ Q s i) s l
  | [], _, _, _ => trivial
  | _ :: _, _, hP, hQ => ⟨⟨hP.1, hQ.1⟩, Steps.and hP.2 hQ.2⟩

/-- **Invariance.** What every step of the run preserves holds where the run ends. -/
theorem Steps.exec_inv {P : σ → ι → Prop} {Inv : σ → Prop}
    (hstep : ∀ s i, P s i → Inv s → Inv (step s i)) {l : List ι} {s : σ}
    (hP : Steps step P s l) (h : Inv s) : Inv (exec step s l) := by
  induction l generalizing s with
  | nil => exact h
  | cons i l ih => exact ih hP.2 (hstep s i hP.1 h)

theorem exec_inv {Inv : σ → Prop} (hstep : ∀ s i, Inv s → Inv (step s i)) {s : σ} (l : List ι)
    (h : Inv s) : Inv (exec step s l) :=
  (Steps.of_forall (P := fun _ _ => True) fun _ _ _ => trivial).exec_inv (fun s i _ => hstep s i) h

/-- **Safety.** An invariant of the run gives, at each step, what it implies there. -/
theorem Steps.of_inv {P Q : σ → ι → Prop} {Inv : σ → Prop} (hstep : ∀ s i, P s i → Inv s → Inv (step s i))
    (hQ : ∀ s i, P s i → Inv s → Q s i) {l : List ι} {s : σ} (hP : Steps step P s l) (h : Inv s) :
    Steps step Q s l := by
  induction l generalizing s with
  | nil => trivial
  | cons i l ih => exact ⟨hQ s i hP.1 h, ih hP.2 (hstep s i hP.1 h)⟩

/-- **History.** What every step preserves of the state and of the replies so far holds where the run ends. -/
theorem exec_history {R : σ → List ο → Prop}
    (hstep : ∀ s h i, R s h → R (step s i) (h ++ (reply s i).toList)) {s : σ} {h : List ο} (l : List ι)
    (hR : R s h) : R (exec step s l) (h ++ answers step reply s l) := by
  induction l generalizing s h with
  | nil =>
    rw [answers, List.append_nil]
    exact hR
  | cons i l ih =>
    rw [exec_cons, answers, ← List.append_assoc]
    exact ih (hstep s h i hR)

/-- **Simulation.** A relation to what the replies add up to is carried along the run. -/
theorem exec_answers {τ : Type} {post : τ → ο → τ} {R : σ → τ → Prop}
    (hstep : ∀ s t i, R s t → R (step s i) ((reply s i).toList.foldl post t)) {s : σ} {t : τ} (l : List ι)
    (h : R s t) : R (exec step s l) ((answers step reply s l).foldl post t) := by
  have hhist := exec_history (R := fun s h => R s (h.foldl post t)) reply
    (fun s h i hR => by rw [List.foldl_append]; exact hstep s _ i hR) l (h := []) h
  rwa [List.nil_append] at hhist

/-- **Erasure.** Inputs that change no state and get no reply can be left out of a run. -/
theorem Steps.erase {drop : ι → Bool} :
    ∀ {l : List ι} {s : σ},
      Steps step (fun s i => drop i = true → step s i = s ∧ reply s i = none) s l →
      exec step s (l.filter fun i => !drop i) = exec step s l ∧
        answers step reply s (l.filter fun i => !drop i) = answers step reply s l
  | [], _, _ => ⟨rfl, rfl⟩
  | i :: l, s, h => by
    obtain ⟨hi, hl⟩ := h
    by_cases hd : drop i = true
    · obtain ⟨hs, hr⟩ := hi hd
      rw [hs] at hl
      have ih := Steps.erase hl
      simp only [List.filter_cons, hd, Bool.not_true, Bool.false_eq_true, ite_false, exec_cons, answers, hs, hr,
        Option.toList_none, List.nil_append]
      exact ih
    · have ih := Steps.erase hl
      simp only [Bool.not_eq_true] at hd
      simp only [List.filter_cons, hd, Bool.not_false, ite_true, exec_cons, answers, ih.1, ih.2, and_self]

/-- **Unwinding.** Two runs stay related and give the same replies when the second leaves out inputs that the relation
does not see. -/
theorem exec_filter {R : σ → σ → Prop} {drop : ι → Bool}
    (hdrop : ∀ s t i, drop i = true → R s t → R (step s i) t ∧ reply s i = none)
    (hkeep : ∀ s t i, drop i = false → R s t → R (step s i) (step t i) ∧ reply s i = reply t i)
    {s t : σ} (l : List ι) (h : R s t) :
    R (exec step s l) (exec step t (l.filter fun i => !drop i)) ∧
      answers step reply s l = answers step reply t (l.filter fun i => !drop i) := by
  induction l generalizing s t with
  | nil => exact ⟨h, rfl⟩
  | cons i l ih =>
    cases hd : drop i with
    | true =>
      obtain ⟨hR, hr⟩ := hdrop s t i hd h
      obtain ⟨hexec, hanswers⟩ := ih hR
      simp only [List.filter_cons, hd, Bool.not_true, Bool.false_eq_true, ite_false, exec_cons, answers, hr,
        Option.toList_none, List.nil_append]
      exact ⟨hexec, hanswers⟩
    | false =>
      obtain ⟨hR, hr⟩ := hkeep s t i hd h
      obtain ⟨hexec, hanswers⟩ := ih hR
      simp only [List.filter_cons, hd, Bool.not_false, ite_true, exec_cons, answers, hr, hanswers]
      exact ⟨hexec, trivial⟩

/-- **Refinement.** A machine whose inputs are seen through `view` runs as the machine of what is seen. It replies no
more, and just as much where it drops no reply. -/
theorem Steps.exec_view {κ π : Type} {step' : σ → κ → σ} {reply' : σ → κ → Option π} {view : ι → Option κ}
    {read : ο → π} {P : σ → ι → Prop} {l : List ι} {s : σ} (hP : Steps step P s l)
    (hnone : ∀ s i, P s i → view i = none → step s i = s ∧ reply s i = none)
    (hsome : ∀ s i k, P s i → view i = some k → step s i = step' s k ∧ ∀ o ∈ reply s i, reply' s k = some (read o)) :
    exec step s l = exec step' s (l.filterMap view) ∧
      ((answers step reply s l).map read).Sublist (answers step' reply' s (l.filterMap view)) ∧
      (Steps step (fun s i => ∀ k ∈ view i, reply s i = none → reply' s k = none) s l →
        (answers step reply s l).map read = answers step' reply' s (l.filterMap view)) := by
  induction l generalizing s with
  | nil => exact ⟨rfl, List.Sublist.refl _, fun _ => rfl⟩
  | cons i l ih =>
    obtain ⟨hi, hl⟩ := hP
    cases hv : view i with
    | none =>
      obtain ⟨hs, hr⟩ := hnone s i hi hv
      rw [hs] at hl
      obtain ⟨hexec, hsub, heq⟩ := ih hl
      simp only [exec_cons, answers, hs, hr, Option.toList_none, List.nil_append, List.filterMap_cons, hv]
      refine ⟨hexec, hsub, fun h => heq ?_⟩
      rw [← hs]
      exact h.2
    | some k =>
      obtain ⟨hs, hr⟩ := hsome s i k hi hv
      obtain ⟨hexec, hsub, heq⟩ := ih hl
      simp only [exec_cons, answers, List.filterMap_cons, hv, List.map_append, ← hs]
      refine ⟨hexec, ?_, ?_⟩
      · refine List.Sublist.append ?_ hsub
        cases ho : reply s i with
        | none => exact List.nil_sublist _
        | some o =>
          rw [hr o ho]
          exact List.Sublist.refl _
      · intro h
        rw [heq h.2]
        congr 1
        cases ho : reply s i with
        | none =>
          rw [h.1 k hv ho]
          rfl
        | some o =>
          rw [hr o ho]
          rfl

/-! ## Costs -/

section
variable {α : Type} [AddCommMonoid α]

variable (step) in
def tally (cost : σ → ι → α) : σ → List ι → α
  | _, [] => 0
  | s, i :: l => cost s i + tally cost (step s i) l

/-- **Amortisation.** Where each step pays its cost out of the potential and what it gains, so does the run. -/
theorem Steps.amortized [PartialOrder α] [AddLeftMono α] {P : σ → ι → Prop} (Inv : σ → Prop) (Φ : σ → α)
    {cost gain : σ → ι → α}
    (hstep : ∀ s i, P s i → Inv s → Inv (step s i) ∧ Φ (step s i) + cost s i ≤ Φ s + gain s i)
    {l : List ι} {s : σ} (hP : Steps step P s l) (h : Inv s) :
    Inv (exec step s l) ∧ Φ (exec step s l) + tally step cost s l ≤ Φ s + tally step gain s l := by
  induction l generalizing s with
  | nil => exact ⟨h, le_refl _⟩
  | cons i l ih =>
    obtain ⟨hinv, hone⟩ := hstep s i hP.1 h
    obtain ⟨hend, hrest⟩ := ih hP.2 hinv
    refine ⟨hend, ?_⟩
    simp only [exec_cons, tally]
    calc Φ (exec step (step s i) l) + (cost s i + tally step cost (step s i) l)
        = Φ (exec step (step s i) l) + tally step cost (step s i) l + cost s i := by abel
      _ ≤ Φ (step s i) + tally step gain (step s i) l + cost s i := by
        rw [add_comm _ (cost s i), add_comm _ (cost s i)]
        exact add_le_add_right hrest (cost s i)
      _ = tally step gain (step s i) l + (Φ (step s i) + cost s i) := by abel
      _ ≤ tally step gain (step s i) l + (Φ s + gain s i) := add_le_add_right hone _
      _ = Φ s + (gain s i + tally step gain (step s i) l) := by abel

end

end

end Lib
