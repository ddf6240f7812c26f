import LdkController.FixedWidth

/-!
# Rate states

`src/rate_limit_rule.rs` and `src/state/rate_state.rs`. A method that takes
`&mut self` gives the state it leaves behind next to its result. Balances are
`i64` (`Int`), rates, amounts and times in microseconds `u64` (`Nat`).
-/

namespace LdkController

open Lib

structure RateLimitRule where
  ratePerMicro : Nat
  maxCapacity : Int
deriving DecidableEq, Repr

inductive RateStateError where
  | insufficientBalance
  | amountTooLarge (amount : Nat)
  | invalidRule (maxCapacity : Int)
  | internalInvariantViolation
deriving DecidableEq, Repr

structure RateState where
  balance : Int
  lastRefillMicros : Nat
deriving DecidableEq, Repr, Inhabited

namespace RateState

def fromRule (now : Nat) (rule : RateLimitRule) : Except RateStateError RateState :=
  if rule.maxCapacity < 0 then .error (.invalidRule rule.maxCapacity)
  else .ok ⟨rule.maxCapacity, now⟩

/-- The projected balance of `calculateRefill`, once the rule is known to be valid. -/
def refilled (s : RateState) (now : Nat) (rule : RateLimitRule) : Int :=
  let elapsed := satSubU64 now s.lastRefillMicros
  let added := satMulU64 rule.ratePerMicro elapsed
  let addedI64 := (i64OfU64 added).getD i64Max
  min (satAddI64 s.balance addedI64) rule.maxCapacity

def calculateRefill (s : RateState) (now : Nat) (rule : RateLimitRule) : Except RateStateError Int :=
  if rule.maxCapacity < 0 then .error (.invalidRule rule.maxCapacity)
  else .ok (s.refilled now rule)

def checkWithdrawAfterRefill (s : RateState) (amount now : Nat) (rule : RateLimitRule) :
    Except RateStateError Unit :=
  match i64OfU64 amount with
  | none => .error (.amountTooLarge amount)
  | some amountI64 =>
    match s.calculateRefill now rule with
    | .error e => .error e
    | .ok projectedBalance =>
      if projectedBalance < amountI64 then .error .insufficientBalance else .ok ()

def withdrawAfterRefill (s : RateState) (amount now : Nat) (rule : RateLimitRule) :
    RateState × Except RateStateError Unit :=
  match i64OfU64 amount with
  | none => (s, .error (.amountTooLarge amount))
  | some amountI64 =>
    match s.calculateRefill now rule with
    | .error e => (s, .error e)
    | .ok refilledBalance =>
      if refilledBalance < amountI64 then (s, .error .insufficientBalance)
      else ({ s with balance := satSubI64 refilledBalance amountI64 }, .ok ())

def refund (s : RateState) (amount : Nat) (rule : RateLimitRule) : RateState × Except RateStateError Unit :=
  if rule.maxCapacity < 0 then (s, .error (.invalidRule rule.maxCapacity))
  else
    match i64OfU64 amount with
    | none => (s, .error (.amountTooLarge amount))
    | some amountI64 => ({ s with balance := min (satAddI64 s.balance amountI64) rule.maxCapacity }, .ok ())

/-! ## What each method does -/

theorem fromRule_eq_ok {now : Nat} {rule : RateLimitRule} {s : RateState} :
    fromRule now rule = .ok s ↔ 0 ≤ rule.maxCapacity ∧ s = ⟨rule.maxCapacity, now⟩ := by
  unfold fromRule
  split
  · simp; omega
  · simp; constructor
    · rintro rfl; exact ⟨by omega, rfl⟩
    · rintro ⟨_, rfl⟩; rfl

theorem refilled_le_cap (s : RateState) (now : Nat) (rule : RateLimitRule) :
    s.refilled now rule ≤ rule.maxCapacity :=
  min_le_right _ _

theorem refilled_le_max (s : RateState) (now : Nat) (rule : RateLimitRule) : s.refilled now rule ≤ i64Max :=
  (min_le_left _ _).trans (clamp_le (by decide))

/-- The guard that both phases of a withdrawal evaluate. -/
def Covers (s : RateState) (amount now : Nat) (rule : RateLimitRule) : Prop :=
  0 ≤ rule.maxCapacity ∧ (amount : Int) ≤ i64Max ∧ amount ≤ s.refilled now rule

instance (s : RateState) (amount now : Nat) (rule : RateLimitRule) : Decidable (s.Covers amount now rule) :=
  inferInstanceAs (Decidable (_ ∧ _ ∧ _))

theorem check_eq_ok {s : RateState} {amount now : Nat} {rule : RateLimitRule} :
    s.checkWithdrawAfterRefill amount now rule = .ok () ↔ s.Covers amount now rule := by
  unfold checkWithdrawAfterRefill Covers calculateRefill i64OfU64
  by_cases ha : (amount : Int) ≤ i64Max
  · by_cases hc : rule.maxCapacity < 0
    · simp [ha, hc]
    · have : 0 ≤ rule.maxCapacity := by omega
      by_cases hr : s.refilled now rule < amount
      · simp [ha, hc, hr]
      · simp [ha, hc, hr, this]; omega
  · simp [ha]

theorem withdraw_of_covers {s : RateState} {amount now : Nat} {rule : RateLimitRule}
    (h : s.Covers amount now rule) :
    s.withdrawAfterRefill amount now rule = ({ s with balance := s.refilled now rule - amount }, .ok ()) := by
  obtain ⟨hc, ha, hr⟩ := h
  have hsub : satSubI64 (s.refilled now rule) amount = s.refilled now rule - amount := by
    have hmax := s.refilled_le_max now rule
    exact clamp_eq_self (by unfold i64Min; omega) (by omega)
  unfold withdrawAfterRefill calculateRefill i64OfU64
  simp [ha, not_lt.mpr hc, not_lt.mpr hr, hsub]

theorem withdraw_of_not_covers {s : RateState} {amount now : Nat} {rule : RateLimitRule}
    (h : ¬ s.Covers amount now rule) :
    ∃ e, s.withdrawAfterRefill amount now rule = (s, .error e) ∧
      s.checkWithdrawAfterRefill amount now rule = .error e := by
  unfold withdrawAfterRefill checkWithdrawAfterRefill
  cases ha : i64OfU64 amount with
  | none => exact ⟨_, rfl, rfl⟩
  | some a =>
    obtain ⟨hle, rfl⟩ := i64OfU64_eq_some.mp ha
    unfold calculateRefill
    by_cases hc : rule.maxCapacity < 0
    · simp only [if_pos hc]; exact ⟨_, rfl, rfl⟩
    · have hr : s.refilled now rule < amount := by
        by_contra hr
        exact h ⟨not_lt.mp hc, hle, not_lt.mp hr⟩
      simp only [if_neg hc, if_pos hr]; exact ⟨_, rfl, rfl⟩

/-- The check of the first phase and the debit of the second agree on every input. -/
theorem withdraw_result_eq_check {s : RateState} {amount now : Nat} {rule : RateLimitRule} :
    (s.withdrawAfterRefill amount now rule).2 = s.checkWithdrawAfterRefill amount now rule := by
  by_cases h : s.Covers amount now rule
  · rw [withdraw_of_covers h, check_eq_ok.mpr h]
  · obtain ⟨e, hw, hc⟩ := withdraw_of_not_covers h
    rw [hw, hc]

theorem refund_of_valid {s : RateState} {amount : Nat} {rule : RateLimitRule} (hc : 0 ≤ rule.maxCapacity)
    (ha : (amount : Int) ≤ i64Max) :
    s.refund amount rule = ({ s with balance := min (satAddI64 s.balance amount) rule.maxCapacity }, .ok ()) := by
  unfold refund i64OfU64
  simp [not_lt.mpr hc, ha]

theorem refund_of_invalid {s : RateState} {amount : Nat} {rule : RateLimitRule}
    (h : ¬ (0 ≤ rule.maxCapacity ∧ (amount : Int) ≤ i64Max)) : ∃ e, s.refund amount rule = (s, .error e) := by
  unfold refund
  by_cases hc : rule.maxCapacity < 0
  · simp only [if_pos hc]; exact ⟨_, rfl⟩
  · have ha : i64OfU64 amount = none := i64OfU64_eq_none.mpr (by
      by_contra ha
      exact h ⟨not_lt.mp hc, not_lt.mp ha⟩)
    simp only [if_neg hc, ha]; exact ⟨_, rfl⟩

def InBounds (s : RateState) (rule : RateLimitRule) : Prop := 0 ≤ s.balance ∧ s.balance ≤ rule.maxCapacity

theorem InBounds.fromRule {now : Nat} {rule : RateLimitRule} {s : RateState} (h : fromRule now rule = .ok s) :
    s.InBounds rule := by
  obtain ⟨hc, rfl⟩ := fromRule_eq_ok.mp h
  exact ⟨hc, le_refl _⟩

theorem InBounds.withdraw {s : RateState} {rule : RateLimitRule} (h : s.InBounds rule) (amount now : Nat) :
    (s.withdrawAfterRefill amount now rule).1.InBounds rule := by
  by_cases hcov : s.Covers amount now rule
  · rw [withdraw_of_covers hcov]
    have hcap := s.refilled_le_cap now rule
    have hr := hcov.2.2
    exact ⟨by show 0 ≤ s.refilled now rule - amount; omega,
      by show s.refilled now rule - amount ≤ rule.maxCapacity; omega⟩
  · obtain ⟨e, hw, _⟩ := withdraw_of_not_covers hcov
    rw [hw]; exact h

theorem InBounds.refund {s : RateState} {rule : RateLimitRule} (h : s.InBounds rule) (amount : Nat) :
    (s.refund amount rule).1.InBounds rule := by
  by_cases hv : 0 ≤ rule.maxCapacity ∧ (amount : Int) ≤ i64Max
  · rw [refund_of_valid hv.1 hv.2]
    refine ⟨le_min (le_max_of_le_right (le_min (by decide) ?_)) hv.1, min_le_right _ _⟩
    have := h.1
    omega
  · obtain ⟨e, he⟩ := refund_of_invalid hv
    rw [he]; exact h

end RateState

end LdkController
