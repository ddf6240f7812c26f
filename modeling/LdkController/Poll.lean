import Mathlib.Data.Nat.Find
import Mathlib.Tactic.Basic

/-!
# Polling with a deadline

A loop probes once in each round. It ends in the first round whose probe is
decisive, or that is late; a round that is certainly late bounds it.
-/

namespace Lib

section
variable {ρ : Type} (probe : Nat → Option ρ) (late : Nat → Bool)

/-- `none` is out of fuel; otherwise the last probe, which is `none` when the loop gave up. -/
def poll : Nat → Nat → Option (Option ρ)
  | 0, _ => none
  | fuel + 1, i =>
    match probe i with
    | some r => some (some r)
    | none => if late i then some none else poll fuel (i + 1)

/-- Round `k` is reached from round `i`: no earlier round was decisive or late. -/
def Reached (i k : Nat) : Prop := i ≤ k ∧ ∀ j, i ≤ j → j < k → probe j = none ∧ late j = false

def Ends (i k : Nat) : Prop := Reached probe late i k ∧ ((probe k).isSome = true ∨ late k = true)

variable {probe late}

theorem poll_of_ends {fuel i k : Nat} (h : Ends probe late i k) (hk : k < i + fuel) :
    poll probe late fuel i = some (probe k) := by
  induction fuel generalizing i with
  | zero => exact absurd hk (Nat.not_lt.mpr h.1.1)
  | succ fuel ih =>
    unfold poll
    obtain ⟨⟨hle, hbefore⟩, hend⟩ := h
    rcases Nat.eq_or_lt_of_le hle with rfl | hlt
    · cases hp : probe i with
      | some r => rfl
      | none =>
        rw [hp] at hend
        rcases hend with hs | hl
        · cases hs
        · simp only [hl, if_true]
    · obtain ⟨hp, hl⟩ := hbefore i (Nat.le_refl i) hlt
      simp only [hp, hl, Bool.false_eq_true, if_false]
      apply ih
      · exact ⟨⟨hlt, fun j hj hjk => hbefore j (Nat.le_of_succ_le hj) hjk⟩, hend⟩
      · rw [Nat.succ_add_eq_add_succ]; exact hk

theorem exists_ends {i k : Nat} (hik : i ≤ k) (hk : late k = true) : ∃ e, e ≤ k ∧ Ends probe late i e := by
  have hex : ∃ e, i ≤ e ∧ ((probe e).isSome = true ∨ late e = true) := ⟨k, hik, .inr hk⟩
  have hspec := Nat.find_spec hex
  refine ⟨Nat.find hex, Nat.find_min' hex ⟨hik, .inr hk⟩, ⟨hspec.1, ?_⟩, hspec.2⟩
  intro j hij hj
  have hmin := Nat.find_min hex hj
  rw [not_and, not_or, Bool.not_eq_true, Option.isSome_eq_false_iff, Option.isNone_iff_eq_none,
    Bool.not_eq_true] at hmin
  exact hmin hij

theorem Ends.unique {i k l : Nat} (hk : Ends probe late i k) (hl : Ends probe late i l) : k = l := by
  have hnot : ∀ {a b : Nat}, Ends probe late i a → Ends probe late i b → ¬ a < b := by
    intro a b ha hb hab
    obtain ⟨hp, hlate⟩ := hb.1.2 a ha.1.1 hab
    rcases ha.2 with h | h
    · rw [hp] at h; cases h
    · rw [hlate] at h; cases h
  exact Nat.le_antisymm (Nat.not_lt.mp (hnot hl hk)) (Nat.not_lt.mp (hnot hk hl))

theorem isSome_poll {fuel i k : Nat} (hik : i ≤ k) (hk : late k = true) (hf : k < i + fuel) :
    (poll probe late fuel i).isSome = true := by
  obtain ⟨e, hek, he⟩ := exists_ends hik hk
  rw [poll_of_ends he (Nat.lt_of_le_of_lt hek hf)]
  rfl

end

end Lib
