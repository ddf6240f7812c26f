import LdkController.RateStateSound

/-!
# Refills without saturation

Of a state whose balance lies between zero and the capacity, no step of the
`u64` and `i64` arithmetic shows: every result is the one of unbounded integers,
capped. A withdrawal keeps `lastRefillMicros`, so after a failed execution has
been refunded, the time before it is credited once more.
-/

namespace LdkController

open Lib

namespace RateState

/-- What `calculateRefill` computes, in unbounded integers. -/
def exactRefill (s : RateState) (now : Nat) (rule : RateLimitRule) : Int :=
  min rule.maxCapacity (s.balance + rule.ratePerMicro * max 0 ((now : Int) - s.lastRefillMicros))

variable {s : RateState} {rule : RateLimitRule}

theorem elapsed_eq_max (now last : Nat) : ((now - last : Nat) : Int) = max 0 ((now : Int) - last) := by omega

theorem refilled_eq_exact (hs : s.InBounds rule) (hc : rule.maxCapacity ≤ i64Max) (now : Nat) :
    s.refilled now rule = s.exactRefill now rule := by
  rw [refilled_eq hs hc, elapsed_eq_max, min_comm]
  rfl

theorem capacity_nonneg (hs : s.InBounds rule) : 0 ≤ rule.maxCapacity := hs.1.trans hs.2

theorem calculateRefill_of_valid (hc : 0 ≤ rule.maxCapacity) (now : Nat) :
    s.calculateRefill now rule = .ok (s.refilled now rule) :=
  if_neg (not_lt.mpr hc)

theorem withdraw_exact (hs : s.InBounds rule) (hc : rule.maxCapacity ≤ i64Max) {amount now : Nat}
    (ha : (amount : Int) ≤ i64Max) :
    s.withdrawAfterRefill amount now rule =
      if (amount : Int) ≤ s.exactRefill now rule then ({ s with balance := s.exactRefill now rule - amount }, .ok ())
      else (s, .error .insufficientBalance) := by
  have hcap := capacity_nonneg hs
  have href := refilled_eq_exact hs hc now
  by_cases hle : (amount : Int) ≤ s.exactRefill now rule
  · have hcov : s.Covers amount now rule := ⟨hcap, ha, href ▸ hle⟩
    rw [if_pos hle, withdraw_of_covers hcov, href]
  · have hlt : s.refilled now rule < amount := href ▸ not_le.mp hle
    have hi : i64OfU64 amount = some (amount : Int) := i64OfU64_eq_some.mpr ⟨ha, rfl⟩
    rw [if_neg hle]
    unfold withdrawAfterRefill
    rw [hi, calculateRefill_of_valid hcap]
    exact if_pos hlt

theorem refund_exact (hs : s.InBounds rule) (hc : rule.maxCapacity ≤ i64Max) {amount : Nat}
    (ha : (amount : Int) ≤ i64Max) :
    s.refund amount rule = ({ s with balance := min rule.maxCapacity (s.balance + amount) }, .ok ()) := by
  have hsat : min (satAddI64 s.balance amount) rule.maxCapacity = min rule.maxCapacity (s.balance + amount) := by
    have h0 := hs.1
    unfold satAddI64 clamp i64Min
    unfold i64Max at hc ⊢
    omega
  rw [refund_of_valid (capacity_nonneg hs) ha, hsat]

/-- **Saturation is not observable.** Refill, withdrawal and refund give what
unbounded integers give. -/
theorem refill_exact (hs : s.InBounds rule) (hc : rule.maxCapacity ≤ i64Max) (now : Nat) :
    s.calculateRefill now rule = .ok (s.exactRefill now rule) ∧
    ∀ amount : Nat, (amount : Int) ≤ i64Max →
      s.withdrawAfterRefill amount now rule =
          (if (amount : Int) ≤ s.exactRefill now rule then
            ({ s with balance := s.exactRefill now rule - amount }, .ok ())
          else (s, .error .insufficientBalance)) ∧
        s.refund amount rule = ({ s with balance := min rule.maxCapacity (s.balance + amount) }, .ok ()) := by
  refine ⟨?_, fun amount ha => ⟨withdraw_exact hs hc ha, refund_exact hs hc ha⟩⟩
  rw [calculateRefill_of_valid (capacity_nonneg hs), refilled_eq_exact hs hc]

theorem refill_exact_large_rate :
    let s : RateState := ⟨0, 1⟩
    let rule : RateLimitRule := ⟨u64Max, 10⟩
    s.calculateRefill u64Max rule = .ok 10 ∧ s.withdrawAfterRefill 4 u64Max rule = (⟨6, 1⟩, .ok ()) ∧
      s.refund 40 rule = (⟨10, 1⟩, .ok ()) := by
  intro s rule
  have hin : s.InBounds rule := ⟨by decide, by decide⟩
  have hten : s.exactRefill u64Max rule = 10 := by decide
  obtain ⟨href, hrest⟩ := refill_exact hin (by decide) u64Max
  rw [hten] at href hrest
  exact ⟨href, (hrest 4 (by decide)).1, (hrest 40 (by decide)).2⟩

/-! ## A failed execution -/

/-- What the failure path of a request leaves of a state that its withdrawal has debited. -/
def afterFailure (s : RateState) (amount now : Nat) (rule : RateLimitRule) : RateState :=
  ((s.withdrawAfterRefill amount now rule).1.refund amount rule).1

/-- The withdrawn amount comes back, the refill of the withdrawal stays. -/
theorem afterFailure_eq (hs : s.InBounds rule) (hc : rule.maxCapacity ≤ i64Max) {amount now : Nat}
    (hok : (s.withdrawAfterRefill amount now rule).2 = .ok ()) :
    s.afterFailure amount now rule = { s with balance := s.refilled now rule } := by
  have hcov : s.Covers amount now rule := covers_of_withdraw (s := s) hok
  have hin := hs.withdraw amount now
  unfold afterFailure
  rw [withdraw_of_covers hcov] at hin ⊢
  rw [refund_exact hin hc hcov.2.1]
  have hcap := s.refilled_le_cap now rule
  have hback : min rule.maxCapacity (s.refilled now rule - amount + amount) = s.refilled now rule := by omega
  simp only [hback]

/-- A failed execution is neutral for a later decision exactly when the rule does not
refill, no time has passed since the creation, or the bucket is full by then anyway. -/
theorem failure_neutral_iff (hs : s.InBounds rule) (hc : rule.maxCapacity ≤ i64Max) {amount now : Nat}
    (hok : (s.withdrawAfterRefill amount now rule).2 = .ok ()) (later : Nat) :
    (s.afterFailure amount now rule).calculateRefill later rule = s.calculateRefill later rule ↔
      rule.ratePerMicro = 0 ∨ now ≤ s.lastRefillMicros ∨
        rule.maxCapacity ≤ s.balance + rule.ratePerMicro * (later - s.lastRefillMicros : Nat) := by
  have hcap := capacity_nonneg hs
  have hr := refilled_eq hs hc now
  have hle := hs.2
  have hgain : 0 ≤ (rule.ratePerMicro : Int) * (now - s.lastRefillMicros : Nat) := by positivity
  have hlater : 0 ≤ (rule.ratePerMicro : Int) * (later - s.lastRefillMicros : Nat) := by positivity
  have hin : (⟨s.refilled now rule, s.lastRefillMicros⟩ : RateState).InBounds rule := by
    have h0 := hs.1
    exact ⟨by show 0 ≤ s.refilled now rule; omega, s.refilled_le_cap now rule⟩
  rw [afterFailure_eq hs hc hok, calculateRefill_of_valid hcap, calculateRefill_of_valid hcap, Except.ok.injEq,
    refilled_eq hin hc, refilled_eq hs hc later, hr]
  dsimp only
  -- the failure gains the refill up to `now`, unless the capacity hides it
  constructor
  · intro heq
    by_contra hno
    simp only [not_or, not_le] at hno
    obtain ⟨hrate, hlt, hfull⟩ := hno
    have hrate' : 0 < (rule.ratePerMicro : Int) := by omega
    have hlt' : 0 < ((now - s.lastRefillMicros : Nat) : Int) := by omega
    have hpos := mul_pos hrate' hlt'
    omega
  · rintro (h | h | h)
    · simp only [h, Nat.cast_zero, zero_mul, add_zero, min_eq_left hs.2]
    · simp only [Nat.sub_eq_zero_of_le h, Nat.cast_zero, mul_zero, add_zero, min_eq_left hs.2]
    · omega

theorem failure_neutral_when_full :
    let s : RateState := ⟨4, 0⟩
    let rule : RateLimitRule := ⟨1, 10⟩
    (s.afterFailure 3 2 rule).calculateRefill 8 rule = s.calculateRefill 8 rule := by
  intro s rule
  have hin : s.InBounds rule := ⟨by decide, by decide⟩
  have hok : (s.withdrawAfterRefill 3 2 rule).2 = .ok () := by decide
  exact (failure_neutral_iff hin (by decide) hok 8).mpr (.inr (.inr (by decide)))

/-- Five tokens are refilled, withdrawn and refunded, and refilled once more. -/
theorem failure_not_neutral :
    ¬ ∀ (s : RateState) (rule : RateLimitRule), s.InBounds rule → rule.maxCapacity ≤ i64Max →
      ∀ amount now later : Nat, s.lastRefillMicros ≤ now → now ≤ later →
        (s.withdrawAfterRefill amount now rule).2 = .ok () →
          (s.afterFailure amount now rule).calculateRefill later rule = s.calculateRefill later rule := by
  intro h
  have := h ⟨0, 0⟩ ⟨1, 100⟩ ⟨by decide, by decide⟩ (by decide) 5 5 10 (by decide) (by decide) (by decide)
  revert this
  decide

end RateState

end LdkController
