import LdkController.RateState
import LdkController.Bucket
import Mathlib.Data.Int.ConditionallyCompleteOrder

/-!
# The rate law of a rate state

`withdrawAfterRefill` stores the refilled balance but keeps `lastRefillMicros`,
so every withdrawal is credited the whole time since the state was created. A
run obeys the law of a token bucket when no withdrawal gains by that: `Settled`
says so of one call, from the state before it and the time of the last
withdrawal that succeeded.
-/

namespace LdkController

open Lib

namespace RateState

inductive Call where
  | withdraw (amount now : Nat)
  | refund (amount now : Nat)
deriving DecidableEq, Repr

def Call.now : Call → Nat
  | .withdraw _ now => now
  | .refund _ now => now

def call (rule : RateLimitRule) (s : RateState) : Call → RateState × Except RateStateError Unit
  | .withdraw amount now => s.withdrawAfterRefill amount now rule
  | .refund amount _ => s.refund amount rule

def Call.withdrawn : Call → Nat
  | .withdraw amount _ => amount
  | .refund _ _ => 0

def Call.refunded : Call → Nat
  | .withdraw _ _ => 0
  | .refund amount _ => amount

def total (rule : RateLimitRule) (a b : Nat) (f : Call → Nat) : RateState → List Call → Nat
  | _, [] => 0
  | s, c :: cs =>
    (if a ≤ c.now ∧ c.now ≤ b ∧ (call rule s c).2 = .ok () then f c else 0) +
      total rule a b f (call rule s c).1 cs

structure Traced where
  state : RateState
  lastWithdrawal : Nat

def traceCall (rule : RateLimitRule) (x : Traced) (c : Call) : Traced where
  state := (call rule x.state c).1
  lastWithdrawal :=
    match c with
    | .withdraw _ now =>
      if (call rule x.state c).2 = .ok () then max now x.lastWithdrawal else x.lastWithdrawal
    | .refund _ _ => x.lastWithdrawal

/-- A withdrawal that passes the check gains nothing from the time before the last
withdrawal: the rule does not refill, no time has passed since the creation, there
was no withdrawal since the creation, or the bucket is full again anyway. -/
def Settled (rule : RateLimitRule) (x : Traced) : Call → Prop
  | .withdraw amount now =>
    x.state.checkWithdrawAfterRefill amount now rule = .ok () →
      rule.ratePerMicro = 0 ∨ now ≤ x.state.lastRefillMicros ∨
        x.lastWithdrawal ≤ x.state.lastRefillMicros ∨
        rule.maxCapacity ≤ x.state.balance + rule.ratePerMicro * (now - x.lastWithdrawal : Nat)
  | .refund _ _ => True

/-! ## Refills in exact arithmetic -/

theorem satAddI64_le {a : Int} (ha : 0 ≤ a) (d : Nat) : satAddI64 a ((i64OfU64 d).getD i64Max) ≤ a + d := by
  have hd : (i64OfU64 d).getD i64Max ≤ d := by
    cases h : i64OfU64 d with
    | none => exact (i64OfU64_eq_none.mp h).le
    | some x => exact (i64OfU64_eq_some.mp h).2.ge
  have hmin : i64Min ≤ 0 := by decide
  have hpos : 0 ≤ (i64OfU64 d).getD i64Max := by
    cases h : i64OfU64 d with
    | none => exact (by decide : (0 : Int) ≤ i64Max)
    | some x => have := (i64OfU64_eq_some.mp h).2; simp only [Option.getD_some]; omega
  refine max_le (by omega) ((min_le_right _ _).trans (by omega))

theorem refilled_le {s : RateState} (hs : 0 ≤ s.balance) (now : Nat) (rule : RateLimitRule) :
    s.refilled now rule ≤ s.balance + rule.ratePerMicro * (now - s.lastRefillMicros : Nat) := by
  refine (min_le_left _ _).trans ((satAddI64_le hs _).trans ?_)
  have : satMulU64 rule.ratePerMicro (satSubU64 now s.lastRefillMicros) ≤
      rule.ratePerMicro * (now - s.lastRefillMicros) := min_le_left _ _
  have : (satMulU64 rule.ratePerMicro (satSubU64 now s.lastRefillMicros) : Int) ≤
      rule.ratePerMicro * (now - s.lastRefillMicros : Nat) := by exact_mod_cast this
  omega

/-- While the balance is between zero and the capacity, saturation does not show. -/
theorem refilled_eq {s : RateState} {rule : RateLimitRule} (hs : s.InBounds rule) (hc : rule.maxCapacity ≤ i64Max)
    (now : Nat) : s.refilled now rule =
      min (s.balance + rule.ratePerMicro * (now - s.lastRefillMicros : Nat)) rule.maxCapacity := by
  obtain ⟨h0, hle⟩ := hs
  have hd : ∀ d : Nat, (d : Int) ≤ i64Max → i64OfU64 (min d u64Max) = some (d : Int) := by
    intro d hd
    have : min d u64Max = d := min_eq_left (by unfold u64Max; unfold i64Max at hd; omega)
    rw [this]
    exact i64OfU64_eq_some.mpr ⟨hd, rfl⟩
  have hbig : ∀ d : Nat, i64Max < (d : Int) → i64OfU64 (min d u64Max) = none := by
    intro d hd
    refine i64OfU64_eq_none.mpr ?_
    unfold u64Max i64Max at *
    omega
  show min (satAddI64 s.balance ((i64OfU64 (min (rule.ratePerMicro * (now - s.lastRefillMicros)) u64Max)).getD
    i64Max)) rule.maxCapacity = _
  have hcast : ((rule.ratePerMicro * (now - s.lastRefillMicros) : Nat) : Int) =
      rule.ratePerMicro * (now - s.lastRefillMicros : Nat) := by push_cast; rfl
  rw [← hcast]
  generalize rule.ratePerMicro * (now - s.lastRefillMicros) = d
  simp only [satAddI64, clamp]
  rcases le_or_gt (d : Int) i64Max with h | h
  · rw [hd d h, Option.getD_some]
    unfold i64Max i64Min at *
    omega
  · rw [hbig d h, Option.getD_none]
    unfold i64Max i64Min at *
    omega

/-! ## Simulation by a token bucket -/

def accrual (rule : RateLimitRule) (t : Nat) : Int := rule.ratePerMicro * t

theorem accrual_mono (rule : RateLimitRule) : Monotone (accrual rule) := by
  intro a b hab
  exact mul_le_mul_of_nonneg_left (by exact_mod_cast hab) (by positivity)

/-- The bucket a traced state is compared with holds at least as much. -/
structure Below (x : Traced) (b : Bucket Nat Int) : Prop where
  balance_nonneg : 0 ≤ x.state.balance
  balance_le : x.state.balance ≤ b.level
  since_eq : b.since = x.lastWithdrawal
  created_le : x.state.lastRefillMicros ≤ x.lastWithdrawal

def Call.move : Call → Bucket.Move Nat Int
  | .withdraw amount now => .draw now amount
  | .refund amount now => .credit now amount

def moves (rule : RateLimitRule) : RateState → List Call → List (Bucket.Move Nat Int)
  | _, [] => []
  | s, c :: cs =>
    if (call rule s c).2 = .ok () then c.move :: moves rule (call rule s c).1 cs
    else moves rule (call rule s c).1 cs

theorem le_filled {rule : RateLimitRule} {x : Traced} {b : Bucket Nat Int} (hb : Below x b) {amount now : Nat}
    (hset : Settled rule x (.withdraw amount now)) (hcov : x.state.Covers amount now rule) :
    x.state.refilled now rule ≤ Bucket.filled rule.maxCapacity (accrual rule) b now := by
  obtain ⟨h0, hle, hsince, hcr⟩ := hb
  have hr := refilled_le h0 now rule
  refine le_min (x.state.refilled_le_cap now rule) ?_
  rw [hsince]
  have hgain : accrual rule x.lastWithdrawal ≤ accrual rule (max now x.lastWithdrawal) :=
    accrual_mono rule (le_max_right _ _)
  -- no refill, no time since the creation, no withdrawal since it, or full again
  rcases hset (check_eq_ok.mpr hcov) with h | h | h | h
  · rw [h] at hr
    simp only [Nat.cast_zero, zero_mul, add_zero] at hr
    omega
  · rw [Nat.sub_eq_zero_of_le h] at hr
    simp only [Nat.cast_zero, mul_zero, add_zero] at hr
    omega
  · have heq : x.lastWithdrawal = x.state.lastRefillMicros := le_antisymm h hcr
    rcases le_total now x.lastWithdrawal with hn | hn
    · rw [heq] at hn
      rw [Nat.sub_eq_zero_of_le hn] at hr
      simp only [Nat.cast_zero, mul_zero, add_zero] at hr
      omega
    · rw [max_eq_left hn, heq]
      unfold accrual
      rw [heq] at hn
      rw [Nat.cast_sub hn, mul_sub] at hr
      omega
  · have hcap := x.state.refilled_le_cap now rule
    rcases le_total now x.lastWithdrawal with hn | hn
    · rw [Nat.sub_eq_zero_of_le hn] at h
      simp only [Nat.cast_zero, mul_zero, add_zero] at h
      omega
    · rw [max_eq_left hn]
      unfold accrual
      rw [Nat.cast_sub hn, mul_sub] at h
      omega

theorem covers_of_withdraw {rule : RateLimitRule} {s : RateState} {amount now : Nat}
    (hok : (call rule s (.withdraw amount now)).2 = .ok ()) : s.Covers amount now rule := by
  by_contra hn
  obtain ⟨e, hw, _⟩ := withdraw_of_not_covers hn
  simp only [call, hw] at hok
  cases hok

theorem valid_of_refund {rule : RateLimitRule} {s : RateState} {amount now : Nat}
    (hok : (call rule s (.refund amount now)).2 = .ok ()) :
    0 ≤ rule.maxCapacity ∧ (amount : Int) ≤ i64Max := by
  by_contra hn
  obtain ⟨e, he⟩ := refund_of_invalid (s := s) hn
  simp only [call, he] at hok
  cases hok

theorem traceCall_of_error {rule : RateLimitRule} {x : Traced} {c : Call} (h : (call rule x.state c).2 ≠ .ok ()) :
    traceCall rule x c = x := by
  cases c with
  | withdraw amount now =>
    have hn : ¬ x.state.Covers amount now rule := fun hc => h (by simp only [call, withdraw_of_covers hc])
    obtain ⟨e, hw, _⟩ := withdraw_of_not_covers hn
    simp [traceCall, call, hw]
  | refund amount now =>
    have hn : ¬ (0 ≤ rule.maxCapacity ∧ (amount : Int) ≤ i64Max) :=
      fun hv => h (by simp only [call, refund_of_valid hv.1 hv.2])
    obtain ⟨e, he⟩ := refund_of_invalid (s := x.state) hn
    simp [traceCall, call, he]

/-- `Settled` is exact: any other withdrawal is credited more than the bucket has accrued. -/
theorem refilled_le_filled_iff {rule : RateLimitRule} {x : Traced} (hs : x.state.InBounds rule)
    (hc : rule.maxCapacity ≤ i64Max) (hcr : x.state.lastRefillMicros ≤ x.lastWithdrawal) {amount now : Nat}
    (hcov : x.state.Covers amount now rule) :
    x.state.refilled now rule ≤
        Bucket.filled rule.maxCapacity (accrual rule) ⟨x.state.balance, x.lastWithdrawal⟩ now ↔
      Settled rule x (.withdraw amount now) := by
  refine ⟨fun hle => ?_, fun hset => le_filled ⟨hs.1, le_rfl, rfl, hcr⟩ hset hcov⟩
  intro _
  by_contra hno
  simp only [not_or, not_le] at hno
  obtain ⟨hrate, hnow, hlast, hcap⟩ := hno
  have hpos : 0 < (rule.ratePerMicro : Int) := by omega
  have hgap : (now - x.lastWithdrawal : Nat) < now - x.state.lastRefillMicros := by omega
  have hmore : rule.ratePerMicro * (now - x.lastWithdrawal : Nat) <
      (rule.ratePerMicro * (now - x.state.lastRefillMicros : Nat) : Int) :=
    mul_lt_mul_of_pos_left (by exact_mod_cast hgap) hpos
  have hfilled : Bucket.filled rule.maxCapacity (accrual rule) ⟨x.state.balance, x.lastWithdrawal⟩ now ≤
      x.state.balance + rule.ratePerMicro * (now - x.lastWithdrawal : Nat) := by
    refine (min_le_right _ _).trans ?_
    unfold accrual
    rcases le_total now x.lastWithdrawal with hn | hn
    · rw [max_eq_right hn, sub_self]
      have : 0 ≤ (rule.ratePerMicro : Int) * (now - x.lastWithdrawal : Nat) := by positivity
      simp only
      omega
    · rw [max_eq_left hn, Nat.cast_sub hn, mul_sub]
  rw [refilled_eq hs hc] at hle
  omega

theorem below_call {rule : RateLimitRule} {x : Traced} {b : Bucket Nat Int} (hb : Below x b) {c : Call}
    (hset : Settled rule x c) (hok : (call rule x.state c).2 = .ok ()) :
    Bucket.Covered rule.maxCapacity (accrual rule) b c.move ∧
      Below (traceCall rule x c) (Bucket.move rule.maxCapacity (accrual rule) b c.move) := by
  cases c with
  | withdraw amount now =>
    have hcov := covers_of_withdraw hok
    have hfill := le_filled hb hset hcov
    have hw := withdraw_of_covers hcov
    obtain ⟨h0, hle, hsince, hcr⟩ := hb
    have hamt := hcov.2.2
    refine ⟨⟨by omega, by omega⟩, ?_⟩
    simp only [traceCall, call, hw, ite_true]
    refine ⟨?_, ?_, ?_, le_max_of_le_right hcr⟩
    · show 0 ≤ x.state.refilled now rule - amount
      omega
    · show x.state.refilled now rule - amount ≤ Bucket.filled rule.maxCapacity (accrual rule) b now - amount
      omega
    · show max now b.since = max now x.lastWithdrawal
      rw [hsince]
  | refund amount now =>
    have hv := valid_of_refund hok
    have hr := refund_of_valid (s := x.state) hv.1 hv.2
    obtain ⟨h0, hle, hsince, hcr⟩ := hb
    have hadd : satAddI64 x.state.balance amount ≤ x.state.balance + amount :=
      max_le (by unfold i64Min; omega) (min_le_right _ _)
    have hnn : 0 ≤ satAddI64 x.state.balance amount := le_max_of_le_right (le_min (by decide) (by omega))
    refine ⟨by show (0 : Int) ≤ amount; omega, ?_⟩
    simp only [traceCall, call, hr]
    refine ⟨le_min hnn hv.1, ?_, hsince, hcr⟩
    show min (satAddI64 x.state.balance amount) rule.maxCapacity ≤ min rule.maxCapacity (b.level + amount)
    exact le_min (min_le_right _ _) ((min_le_left _ _).trans (by omega))

theorem covered_moves {rule : RateLimitRule} {cs : List Call} :
    ∀ {x : Traced} {b : Bucket Nat Int}, Below x b → Steps (traceCall rule) (Settled rule) x cs →
      Steps (Bucket.move rule.maxCapacity (accrual rule)) (Bucket.Covered rule.maxCapacity (accrual rule)) b
        (moves rule x.state cs) := by
  induction cs with
  | nil => intro _ _ _ _; exact trivial
  | cons c cs ih =>
    intro x b hb hsteps
    obtain ⟨hset, hrest⟩ := hsteps
    have hstate : (traceCall rule x c).state = (call rule x.state c).1 := rfl
    unfold moves
    by_cases hok : (call rule x.state c).2 = .ok ()
    · obtain ⟨hcov, hb'⟩ := below_call hb hset hok
      rw [if_pos hok]
      exact ⟨hcov, hstate ▸ ih hb' hrest⟩
    · rw [if_neg hok, ← hstate]
      rw [traceCall_of_error hok] at hrest ⊢
      exact ih hb hrest

theorem exists_of_mem_moves {rule : RateLimitRule} {m : Bucket.Move Nat Int} {cs : List Call} :
    ∀ {s : RateState}, m ∈ moves rule s cs → ∃ c ∈ cs, m = c.move := by
  induction cs with
  | nil => intro s h; cases h
  | cons c cs ih =>
    intro s h
    unfold moves at h
    split at h
    · rcases List.mem_cons.mp h with rfl | h
      · exact ⟨c, by simp, rfl⟩
      · obtain ⟨d, hd, rfl⟩ := ih h
        exact ⟨d, List.mem_cons_of_mem _ hd, rfl⟩
    · obtain ⟨d, hd, rfl⟩ := ih h
      exact ⟨d, List.mem_cons_of_mem _ hd, rfl⟩

theorem time_move (c : Call) : c.move.time = c.now := by cases c <;> rfl

theorem sorted_moves {rule : RateLimitRule} {cs : List Call} (h : cs.Pairwise fun c d => c.now ≤ d.now) :
    ∀ s : RateState, (moves rule s cs).Pairwise fun m m' => m.time ≤ m'.time := by
  induction cs with
  | nil => intro s; exact List.Pairwise.nil
  | cons c cs ih =>
    intro s
    obtain ⟨hc, hcs⟩ := List.pairwise_cons.mp h
    unfold moves
    split
    · refine List.pairwise_cons.mpr ⟨fun m hm => ?_, ih hcs _⟩
      obtain ⟨d, hd, rfl⟩ := exists_of_mem_moves hm
      rw [time_move, time_move]
      exact hc d hd
    · exact ih hcs _

theorem total_eq_within {rule : RateLimitRule} {a b : Nat} {f : Call → Nat} {g : Bucket.Move Nat Int → Int}
    (hfg : ∀ c : Call, g c.move = f c) {cs : List Call} :
    ∀ s : RateState, (total rule a b f s cs : Int) = Bucket.within a b g (moves rule s cs) := by
  induction cs with
  | nil => intro s; rfl
  | cons c cs ih =>
    intro s
    unfold total moves
    by_cases hok : (call rule s c).2 = .ok ()
    · rw [if_pos hok]
      unfold Bucket.within
      rw [← ih, time_move, hfg]
      by_cases hw : a ≤ c.now ∧ c.now ≤ b
      · rw [if_pos hw, if_pos ⟨hw.1, hw.2, hok⟩]; push_cast; rfl
      · rw [if_neg hw, if_neg fun h => hw ⟨h.1, h.2.1⟩]; push_cast; rfl
    · rw [if_neg hok, if_neg fun h => hok h.2.2, ← ih, zero_add]

/-- **The rate law.** In a run of settled calls on a state made from its rule, what is
withdrawn in a window is at most the capacity, the refill of the window and the refunds
made in it. -/
theorem rate_law {rule : RateLimitRule} {created : Nat} {s : RateState} (hs : fromRule created rule = .ok s)
    {cs : List Call} (hsort : cs.Pairwise fun c d => c.now ≤ d.now)
    (hset : Steps (traceCall rule) (Settled rule) ⟨s, created⟩ cs) {a b : Nat} (hab : a ≤ b) :
    (total rule a b Call.withdrawn s cs : Int) ≤
      rule.maxCapacity + rule.ratePerMicro * (b - a : Int) + total rule a b Call.refunded s cs := by
  obtain ⟨hc, rfl⟩ := fromRule_eq_ok.mp hs
  have hb : Below ⟨⟨rule.maxCapacity, created⟩, created⟩ ⟨rule.maxCapacity, created⟩ :=
    ⟨hc, le_rfl, rfl, le_rfl⟩
  have hlaw := Bucket.window_law (accrual_mono rule) hc hab (b := ⟨rule.maxCapacity, created⟩) hc
    (sorted_moves hsort _) (covered_moves hb hset)
  rw [total_eq_within (g := Bucket.Move.drawn) (by intro c; cases c <;> rfl),
    total_eq_within (g := Bucket.Move.credited) (by intro c; cases c <;> rfl)]
  unfold accrual at hlaw
  rw [mul_sub]
  exact hlaw

theorem rate_law_two_withdrawals :
    let cs : List Call := [.withdraw 10 5, .withdraw 7 15]
    (total ⟨1, 10⟩ 0 20 Call.withdrawn ⟨10, 0⟩ cs : Int) ≤
      10 + 1 * (20 - 0 : Int) + total ⟨1, 10⟩ 0 20 Call.refunded ⟨10, 0⟩ cs := by
  intro cs
  have hset : Steps (traceCall ⟨1, 10⟩) (Settled ⟨1, 10⟩) ⟨⟨10, 0⟩, 0⟩ cs :=
    ⟨fun _ => Or.inr (Or.inr (Or.inl (by decide))), fun _ => Or.inr (Or.inr (Or.inr (by decide))), trivial⟩
  exact rate_law rfl (by decide) hset (by decide)

/-- Ten tokens are drawn twice in one microsecond from a bucket that holds ten. -/
theorem rate_law_fails :
    ¬ ∀ (rule : RateLimitRule) (created : Nat) (s : RateState), fromRule created rule = .ok s →
      ∀ cs : List Call, (cs.Pairwise fun c d => c.now ≤ d.now) → ∀ a b : Nat, a ≤ b →
        (total rule a b Call.withdrawn s cs : Int) ≤
          rule.maxCapacity + rule.ratePerMicro * (b - a : Int) + total rule a b Call.refunded s cs := by
  intro h
  have := h ⟨1, 10⟩ 0 ⟨10, 0⟩ rfl [.withdraw 10 10, .withdraw 10 10] (by decide) 10 10 le_rfl
  revert this
  decide

end RateState

end LdkController
